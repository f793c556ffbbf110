import Mathlib.Data.Nat.Find
import Mathlib.Tactic.Choose
import JuttaProto.Run

namespace JuttaProto
open Run
set_option autoImplicit true

/-- An execution that goes on for ever: its states, and the turns that lead from one to the next. -/
structure Execution (step : σ → α → Except ε σ) where
  state : Nat → σ
  turn : Nat → α
  step_ok : ∀ n, step (state n) (turn n) = .ok (state (n + 1))

/-- A step reaches the goal, lowers the rank, or leaves both the rank and the helpful turns as they
are; then it was not a helpful one. -/
def Progress (rank : σ → Nat) (helpful : σ → α → Prop) (Goal : σ → Prop) (s : σ) (a : α) (s' : σ) :
    Prop :=
  Goal s' ∨ rank s' < rank s ∨
    (rank s' = rank s ∧ ¬helpful s a ∧ ∀ b, helpful s b → helpful s' b)

namespace Execution
variable {step : σ → α → Except ε σ} (x : Execution step)

def Often (P : α → Prop) : Prop := ∀ n, ∃ m, n ≤ m ∧ P (x.turn m)

variable {x}

theorem Often.mono {P Q : α → Prop} (h : x.Often P) (hPQ : ∀ a, P a → Q a) : x.Often Q := by
  intro n
  obtain ⟨m, hm, hp⟩ := h n
  exact ⟨m, hm, hPQ _ hp⟩

theorem Often.after {y : Execution step} {P : α → Prop} (h : x.Often P)
    (hy : ∀ n, y.turn (k + n) = x.turn n) : y.Often P := by
  intro n
  obtain ⟨m, hm, hp⟩ := h n
  exact ⟨k + m, Nat.le_trans hm (Nat.le_add_left m k), by rw [hy]; exact hp⟩

theorem Often.first {P : α → Prop} (h : x.Often P) (n : Nat) :
    ∃ m, n ≤ m ∧ P (x.turn m) ∧ ∀ k, n ≤ k → k < m → ¬P (x.turn k) := by
  classical
  have hm := Nat.find_spec (h n)
  refine ⟨Nat.find (h n), hm.1, hm.2, fun k hk hlt hp => ?_⟩
  exact Nat.find_min (h n) hlt ⟨hk, hp⟩

/-- Along a schedule on which no step fails there is an execution. -/
theorem exists_schedule {P : Nat → σ → Prop} {turn : Nat → α}
    (hstep : ∀ n s, P n s → ∃ s', step s (turn n) = .ok s' ∧ P (n + 1) s') (h : P 0 s) :
    ∃ x : Execution step, x.state 0 = s ∧ x.turn = turn := by
  choose next hnext using fun n (s : { s // P n s }) => hstep n s.1 s.2
  let state (n : Nat) : { s // P n s } :=
    Nat.rec ⟨s, h⟩ (fun n s => ⟨next n s, (hnext n s).2⟩) n
  exact ⟨⟨fun n => (state n).1, turn, fun n => (hnext n (state n)).1⟩, rfl, rfl⟩

theorem exists_after (h : run step s acts = .ok s') (x : Execution step)
    (hx : x.state 0 = s') :
    ∃ y : Execution step, y.state 0 = s ∧
      ∀ n, y.state (acts.length + n) = x.state n ∧ y.turn (acts.length + n) = x.turn n := by
  induction acts generalizing s with
  | nil =>
    cases h
    refine ⟨x, hx, fun n => ?_⟩
    rw [List.length_nil, Nat.zero_add]
    exact ⟨rfl, rfl⟩
  | cons a acts ih =>
    obtain ⟨t, ht, hr⟩ := bind_ok h
    obtain ⟨y, hy, hrest⟩ := ih hr
    let state : Nat → σ := fun | 0 => s | n + 1 => y.state n
    let turn : Nat → α := fun | 0 => a | n + 1 => y.turn n
    have hstep : ∀ n, step (state n) (turn n) = .ok (state (n + 1))
      | 0 => by rw [← hy] at ht; exact ht
      | n + 1 => y.step_ok n
    refine ⟨⟨state, turn, hstep⟩, rfl, fun n => ?_⟩
    rw [List.length_cons, Nat.succ_add]
    exact hrest n

theorem run_turns (x : Execution step) (n : Nat) :
    run step (x.state 0) ((List.range n).map x.turn) = .ok (x.state n) := by
  induction n with
  | zero => rfl
  | succ n ih =>
    rw [List.range_succ, List.map_append, run_append, ih]
    exact (run_single step _ _).trans (x.step_ok n)

theorem always (Inv : σ → Prop) (hstep : ∀ m, n ≤ m → Inv (x.state m) → Inv (x.state (m + 1)))
    (h : Inv (x.state n)) (hm : n ≤ m) : Inv (x.state m) := by
  induction hm with
  | refl => exact h
  | step hm ih => exact hstep _ hm ih

/-- Up to the next helpful turn, nothing happens unless the goal is reached or the rank falls. -/
theorem walk {Inv Goal : σ → Prop} {rank : σ → Nat} {helpful : σ → α → Prop}
    (hstep : ∀ m, n ≤ m → Inv (x.state m) → ¬Goal (x.state m) →
      Inv (x.state (m + 1)) ∧
        Progress rank helpful Goal (x.state m) (x.turn m) (x.state (m + 1)))
    (h : Inv (x.state n)) (hm : n ≤ m) :
    (∃ k, n ≤ k ∧ Goal (x.state k)) ∨
      (∃ k, n ≤ k ∧ Inv (x.state k) ∧ rank (x.state k) < rank (x.state n)) ∨
        (Inv (x.state m) ∧ rank (x.state m) = rank (x.state n) ∧
          ∀ b, helpful (x.state n) b → helpful (x.state m) b) := by
  induction hm with
  | refl => exact .inr (.inr ⟨h, rfl, fun _ hb => hb⟩)
  | @step m hm ih =>
    rcases ih with hg | hr | ⟨hi, hr, hh⟩
    · exact .inl hg
    · exact .inr (.inl hr)
    · by_cases hg : Goal (x.state m)
      · exact .inl ⟨m, hm, hg⟩
      · obtain ⟨hi', hg' | hr' | ⟨hr', _, hh'⟩⟩ := hstep m hm hi hg
        · exact .inl ⟨m + 1, Nat.le_succ_of_le hm, hg'⟩
        · exact .inr (.inl ⟨m + 1, Nat.le_succ_of_le hm, hi', Nat.lt_of_lt_of_eq hr' hr⟩)
        · exact .inr (.inr ⟨hi', hr'.trans hr, fun b hb => hh' b (hh b hb)⟩)

/-- If in every state before the goal the helpful turns are taken again and again, the goal is
reached. -/
theorem leads_to {Inv Goal : σ → Prop} {rank : σ → Nat} {helpful : σ → α → Prop}
    (hstep : ∀ m, n ≤ m → Inv (x.state m) → ¬Goal (x.state m) →
      Inv (x.state (m + 1)) ∧
        Progress rank helpful Goal (x.state m) (x.turn m) (x.state (m + 1)))
    (hfair : ∀ s, Inv s → ¬Goal s → x.Often (helpful s)) (h : Inv (x.state n)) :
    ∃ m, n ≤ m ∧ Goal (x.state m) := by
  induction hr : rank (x.state n) using Nat.strongRecOn generalizing n with
  | _ r ih =>
    have hlower {k : Nat} (hk : n ≤ k) (hi : Inv (x.state k))
        (hlt : rank (x.state k) < rank (x.state n)) : ∃ m, n ≤ m ∧ Goal (x.state m) := by
      obtain ⟨m, hm, hg⟩ :=
        ih _ (by omega) (fun m hm => hstep m (by omega)) hi rfl
      exact ⟨m, by omega, hg⟩
    by_cases hg : Goal (x.state n)
    · exact ⟨n, Nat.le_refl n, hg⟩
    · obtain ⟨m, hm, hturn⟩ := hfair (x.state n) h hg n
      rcases walk hstep h hm with hgoal | ⟨k, hk, hi, hlt⟩ | ⟨hi, hrank, hhelp⟩
      · exact hgoal
      · exact hlower hk hi hlt
      · by_cases hgm : Goal (x.state m)
        · exact ⟨m, hm, hgm⟩
        · obtain ⟨hi', hg' | hr' | ⟨_, hn, _⟩⟩ := hstep m hm hi hgm
          · exact ⟨m + 1, by omega, hg'⟩
          · exact hlower (k := m + 1) (by omega) hi' (by omega)
          · exact absurd (hhelp _ hturn) hn

end Execution

end JuttaProto
