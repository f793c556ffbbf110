import JuttaProto.TestStages

namespace JuttaProto
open Run
set_option autoImplicit true

def TestTurn.isMain : TestTurn → Bool
  | .main _ => true
  | _ => false

/-- The heartbeat thread is started, and the change to `CONNECTED` comes next. -/
def Pc.establishing : Pc → Bool
  | .connect _ _ .set_connected => true
  | _ => false

/-- No link is lost between the start of the heartbeat thread and the change to `CONNECTED`. -/
def TestExec.Kept (s : TestExec) : TestTurn → Prop
  | .linkLost _ => s.system.pc.establishing = false
  | _ => True

instance (s : TestExec) (t : TestTurn) : Decidable (s.Kept t) := by
  unfold TestExec.Kept
  split <;> exact inferInstance

theorem Stage.Place.establishing {stage : Stage} (h : stage.Place pc next)
    (hs : stage = .started) : pc.establishing = true := by
  subst hs
  cases h with
  | between h =>
    cases next with
    | connect | disconnect | wait | done => exact absurd h (by decide)
    | get_state | request | poll | read_data | sleep =>
      have hloop : Stage.started ∉ [Stage.inUse, .gone, .stranded] := by decide
      exact absurd h hloop
  | @connecting _ _ call h =>
    cases call with
    | set_connected => rfl
    | finish connected => cases connected <;> exact absurd h (by decide)
    | _ => exact absurd h (by decide)
  | disconnecting h => exact absurd h (by decide)

theorem Stage.Place.lost_cut {stage : Stage} (h : stage.Place pc next)
    (he : pc.establishing = true) : stage.lost = .cut := by
  cases h with
  | between | disconnecting => cases he
  | @connecting _ _ call h =>
    cases call with
    | set_connected => rcases List.mem_pair.1 h with rfl | rfl <;> rfl
    | _ => cases he

theorem TestExec.Staged.afloat_kept {s : TestExec} {stage stage' : Stage} (h : s.Staged stage)
    (hb : stage.Becomes t stage') (hk : s.Kept t) : stage'.afloat = stage.afloat := by
  have hadvance (ha : stage' = stage ∨ stage' ∈ stage.advances) :
      stage'.afloat = stage.afloat := by
    rcases ha with rfl | ha
    · rfl
    · exact Stage.afloat_advances ha
  cases t with
  | linkLost written =>
    cases hb
    refine Stage.afloat_lost fun hs => ?_
    rw [Kept, h.place.establishing hs] at hk
    cases hk
  | main | heartbeat | notification => exact hadvance hb

theorem TestExec.Staged.not_afloat {s : TestExec} {stage stage' : Stage} (h : s.Staged stage)
    (hb : stage.Becomes t stage') (hk : ¬s.Kept t) : stage'.afloat = false := by
  cases t with
  | linkLost written =>
    cases hb
    rw [h.place.lost_cut (Bool.not_eq_false _ ▸ hk)]
    rfl
  | main | heartbeat | notification => exact absurd trivial hk

/-- The stage tells whether the link has been lost at the wrong moment. -/
theorem afloat_run (h : run TestExec.step (.start machines) turns = .ok s) :
    ∃ stage, s.Staged stage ∧
      (stage.afloat = true ↔ Guarded TestExec.step TestExec.Kept (.start machines) turns) := by
  let afloat (b : Bool) (s : TestExec) : Prop := ∃ stage, s.Staged stage ∧ stage.afloat = b
  have hkept (s : TestExec) (t : TestTurn) (s' : TestExec) (hi : afloat true s) (hk : s.Kept t)
      (hs : s.step t = .ok s') : afloat true s' := by
    obtain ⟨stage, hst, ha⟩ := hi
    obtain ⟨stage', hst', hb⟩ := hst.step hs
    exact ⟨stage', hst', (hst.afloat_kept hb hk).trans ha⟩
  have hlost (s : TestExec) (t : TestTurn) (s' : TestExec) (hi : afloat true s) (hk : ¬s.Kept t)
      (hs : s.step t = .ok s') : afloat false s' := by
    obtain ⟨stage, hst, _⟩ := hi
    obtain ⟨stage', hst', hb⟩ := hst.step hs
    exact ⟨stage', hst', hst.not_afloat hb hk⟩
  have hstays (s : TestExec) (t : TestTurn) (s' : TestExec) (hi : afloat false s)
      (hs : s.step t = .ok s') : afloat false s' := by
    obtain ⟨stage, hst, ha⟩ := hi
    obtain ⟨stage', hst', hb⟩ := hst.step hs
    by_cases hk : s.Kept t
    · exact ⟨stage', hst', (hst.afloat_kept hb hk).trans ha⟩
    · exact ⟨stage', hst', hst.not_afloat hb hk⟩
  rcases guarded_or_trapped (afloat true) (afloat false) hkept hlost hstays
      ⟨_, staged_start machines, rfl⟩ h with ⟨hg, stage, hs, ha⟩ | ⟨hg, stage, hs, ha⟩
  · exact ⟨stage, hs, iff_of_true ha hg⟩
  · exact ⟨stage, hs, iff_of_false (by rw [ha]; exact Bool.false_ne_true) hg⟩

/-- The steps that `main` has left after a request. -/
def StatParseMode.left : StatParseMode → Nat
  | .PRODUCT_COUNTERS => 5
  | .MAINTENANCE_PERCENT => 28
  | .MAINTENANCE_COUNTER => 51

def LoopStep.left : LoopStep → Nat
  | .connect | .done => 0
  | .wait => 1
  | .disconnect => 3
  | .get_state => 4
  | .sleep => 5
  | .read_data mode => mode.left + 1
  | .poll mode i => mode.left + 2 + (20 - i)
  | .request mode => mode.left + 23

/-- The steps that `main` has left at most, once the coffee maker is gone. -/
def TestExec.left (s : TestExec) : Nat :=
  match s.system.pc with
  | .disconnect _ _ => 2
  | _ => s.next.left

theorem LoopStep.left_le (next : LoopStep) : next.left ≤ 74 := by
  have hmode (mode : StatParseMode) : mode.left ≤ 51 := by
    cases mode <;> decide
  cases next with
  | request mode =>
    have h := hmode mode
    rw [left]
    omega
  | poll mode i =>
    have h := hmode mode
    rw [left]
    omega
  | read_data mode =>
    have h := hmode mode
    rw [left]
    omega
  | _ => decide

theorem TestExec.left_le (s : TestExec) : s.left ≤ 74 := by
  rw [left]
  split
  · decide
  · exact s.next.left_le

/-- Every poll counts, and without a connection the loop is left. -/
theorem LoopStep.exec_left {next : LoopStep} (hc : next ≠ .connect)
    (hs : w.maker.state ≠ .CONNECTED) (h : next.exec r w = .ok (s, next')) :
    TestExec.left ⟨s, next', beat⟩ ≤ next.left - 1 := by
  cases exec_taken h with
  | connect => exact absurd rfl hc
  | get_state =>
    rw [if_neg hs]
    exact Nat.le_refl 3
  | @request mode => exact Nat.le_refl (mode.left + 22)
  | poll hi =>
    simp only [TestExec.left, left]
    omega
  | polled =>
    simp only [TestExec.left, left]
    omega
  | @read_data _ mode => cases mode <;> exact Nat.le_refl _
  | sleep | wait => exact Nat.le_refl _
  | done => exact Nat.zero_le _
  | disconnect => exact Nat.le_refl 2

theorem Stage.Place.down {stage : Stage} (h : stage.Place pc next) (hn : next ≠ .connect)
    (hc : stage.connected = false) : stage ∈ [.failed, .gone, .stranded] := by
  cases h with
  | between h =>
    have hloop (h : stage ∈ [.inUse, .gone, .stranded]) :
        stage ∈ [Stage.failed, .gone, .stranded] := by
      rcases List.mem_cons.1 h with rfl | h
      · cases hc
      · exact List.mem_cons_of_mem _ h
    cases next with
    | connect => exact absurd rfl hn
    | disconnect | wait | done => rcases List.mem_pair.1 h with rfl | rfl <;> decide
    | get_state | request | poll | read_data | sleep => exact hloop h
  | connecting => exact absurd rfl hn
  | disconnecting h => rcases List.mem_pair.1 h with rfl | rfl <;> decide

theorem Stage.down_rests : ∀ stage ∈ [failed, gone, stranded],
    stage.lost = stage ∧ stage.advances = [] ∧
      (stage ≠ stranded → stage.state ≠ .CONNECTED) := by decide

theorem Stage.Becomes.down {stage stage' : Stage} (h : stage.Becomes t stage')
    (hd : stage ∈ [.failed, .gone, .stranded]) : stage' = stage := by
  obtain ⟨hlost, hadvances, _⟩ := Stage.down_rests stage hd
  cases t with
  | linkLost written => exact h.trans hlost
  | main | heartbeat | notification =>
    refine h.resolve_right ?_
    rw [hadvances]
    exact List.not_mem_nil

structure Down (stage : Stage) (s : TestExec) : Prop where
  staged : s.Staged stage
  link : stage.connected = false
  next : s.next ≠ .connect

/-- Without a link nothing happens but what `main` goes on to do, and nothing gets through. -/
theorem Down.step {s s' : TestExec} (h : Down stage s) (hs : s.step t = .ok s') :
    Down stage s' ∧ Aside s.world s'.world ∧
      (stage ≠ .stranded → s'.left ≤ s.left - t.isMain.toNat) := by
  obtain ⟨hst, hc, hn⟩ := h
  have hdown := hst.place.down hn hc
  obtain ⟨stage', hst', hb⟩ := hst.step hs
  rw [hb.down hdown] at hst'
  obtain ⟨⟨w, pc⟩, next, beat⟩ := s
  cases TestExec.step_taken hs with
  | main hpc he =>
    cases hpc
    have hne : stage ≠ .stranded → w.maker.state ≠ .CONNECTED := by
      rw [hst.members.state]
      exact (Stage.down_rests stage hdown).2.2
    refine ⟨⟨hst', hc, ?_⟩, LoopStep.exec_aside he, fun hs => LoopStep.exec_left hn (hne hs) he⟩
    cases LoopStep.exec_taken he with
    | connect => exact absurd rfl hn
    | get_state => split <;> exact LoopStep.noConfusion
    | @read_data _ mode => cases mode <;> exact LoopStep.noConfusion
    | _ => exact LoopStep.noConfusion
  | connecting hpc =>
    cases hpc
    obtain _ | _ := hst.place
    exact absurd rfl hn
  | disconnecting hpc he =>
    cases hpc
    obtain _ | _ | hm := hst.place
    cases he
    rw [hst.members.inactive hm, if_neg Bool.false_ne_true] at hst' ⊢
    exact ⟨⟨hst', hc, LoopStep.noConfusion⟩, .refl _, fun _ => Nat.le_refl 1⟩
  | joins hpc =>
    obtain _ | _ | _ := hst.place
    all_goals cases hpc
  | heartbeat _ he =>
    exact ⟨⟨hst', hc, hn⟩, HeartbeatStep.exec_aside he, fun _ => Nat.le_refl _⟩
  | joined => exact ⟨⟨hst', hc, hn⟩, .refl _, fun _ => Nat.le_refl _⟩
  | notification hw =>
    exact ⟨⟨hst', hc, hn⟩, (on_characteristic_read_silent hw).aside, fun _ => Nat.le_refl _⟩
  | linkLost hw =>
    rw [BLEDevice.on_disconnected, hst.members.connected, hc, if_neg Bool.false_ne_true] at hw
    cases hw
    exact ⟨⟨hst', hc, hn⟩, .refl _, fun _ => Nat.le_refl _⟩

theorem Down.run {s s' : TestExec} (h : Down stage s)
    (hr : Run.run TestExec.step s turns = .ok s') :
    Down stage s' ∧ Aside s.world s'.world ∧
      (stage ≠ .stranded → s'.left ≤ s.left - turns.countP TestTurn.isMain) := by
  induction turns generalizing s with
  | nil =>
    cases hr
    exact ⟨h, .refl _, fun _ => Nat.le_refl _⟩
  | cons t turns ih =>
    obtain ⟨s₁, hs, hr⟩ := bind_ok hr
    obtain ⟨hdown, haside, hleft⟩ := h.step hs
    obtain ⟨hdown', haside', hleft'⟩ := ih hdown hr
    refine ⟨hdown', haside.trans haside', fun hne => ?_⟩
    have hle := hleft hne
    have hle' := hleft' hne
    rw [List.countP_cons]
    cases ht : t.isMain with
    | true =>
      rw [ht, Bool.toNat_true] at hle
      rw [if_pos rfl]
      omega
    | false =>
      rw [ht, Bool.toNat_false] at hle
      rw [if_neg Bool.false_ne_true]
      omega

theorem Down.done {s : TestExec} (h : Down stage s) (hl : s.left = 0) : s.next = .done := by
  obtain ⟨⟨hp, _⟩, _, hn⟩ := h
  cases hpc : s.system.pc with
  | disconnect written call =>
    rw [TestExec.left, hpc] at hl
    cases hl
  | connect g written call =>
    rw [hpc] at hp
    generalize s.next = next at hp hn
    obtain _ | _ := hp
    exact absurd rfl hn
  | idle result =>
    rw [TestExec.left, hpc] at hl
    dsimp only at hl
    cases hnext : s.next with
    | done => rfl
    | connect => exact absurd hnext hn
    | request mode | poll mode i | read_data mode =>
      rw [hnext, LoopStep.left] at hl
      omega
    | _ =>
      rw [hnext] at hl
      cases hl

/-- The link is lost when the heartbeat thread has just been started. -/
example : ∃ s, run TestExec.step (.start [exampleJoe.machine]) (exampleConnect.take 8 ++
      .linkLost GATTLIB_SUCCESS :: List.replicate 80 (.main {})) = .ok s ∧
    s.next ≠ .done ∧ s.world.maker.state = .CONNECTED := by
  decide +kernel

end JuttaProto
