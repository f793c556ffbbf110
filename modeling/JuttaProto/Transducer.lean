import Mathlib.Data.List.Chain
import JuttaProto.Run

namespace JuttaProto
open Run
set_option autoImplicit true

/-- A walk along the relation, from one place over the listed ones to the last of them. -/
def Walk (R : α → α → Prop) (a : α) (places : List α) (b : α) : Prop :=
  List.IsChain R (a :: places) ∧ (a :: places).getLast (List.cons_ne_nil a places) = b

theorem Walk.nil (R : α → α → Prop) (a : α) : Walk R a [] a := ⟨.singleton a, rfl⟩

theorem walk_cons : Walk R a (b :: places) c ↔ R a b ∧ Walk R b places c := by
  rw [Walk, Walk, List.isChain_cons_cons, and_assoc, List.getLast_cons (List.cons_ne_nil b places)]

theorem Walk.append (h : Walk R a places b) (h' : Walk R b places' c) :
    Walk R a (places ++ places') c := by
  induction places generalizing a with
  | nil =>
    obtain ⟨_, rfl⟩ := h
    exact h'
  | cons d places ih =>
    obtain ⟨hd, h⟩ := walk_cons.1 h
    exact walk_cons.2 ⟨hd, ih h⟩

/-- A deterministic machine that gives out some values with each step. -/
structure Transducer (σ α β : Type) where
  next : σ → α → σ
  out : σ → α → List β

namespace Transducer
variable (t : Transducer σ α β)

def final (s : σ) (acts : List α) : σ := acts.foldl t.next s

def outputs : σ → List α → List β
  | _, [] => []
  | s, a :: acts => t.out s a ++ outputs (t.next s a) acts

theorem final_cons (s : σ) (a : α) (acts : List α) :
    t.final s (a :: acts) = t.final (t.next s a) acts := rfl

theorem outputs_cons (s : σ) (a : α) (acts : List α) :
    t.outputs s (a :: acts) = t.out s a ++ t.outputs (t.next s a) acts := rfl

def map (f : β → γ) : Transducer σ α γ := ⟨t.next, fun s a => (t.out s a).map f⟩

theorem outputs_map (f : β → γ) (s : σ) (acts : List α) :
    (t.map f).outputs s acts = (t.outputs s acts).map f := by
  induction acts generalizing s with
  | nil => rfl
  | cons a acts ih =>
    rw [outputs_cons, outputs_cons, List.map_append, ← ih]
    rfl

def Replaces (s : σ) (a : α) : Option α → Prop
  | none => t.next s a = s ∧ t.out s a = []
  | some b => t.next s b = t.next s a ∧ t.out s b = t.out s a

/-- Steps that do nothing may be left out, and others replaced by steps that do the same. -/
theorem run_filterMap {f : α → Option α} (h : ∀ s a, t.Replaces s a (f a)) (s : σ)
    (acts : List α) :
    t.final s (acts.filterMap f) = t.final s acts ∧
      t.outputs s (acts.filterMap f) = t.outputs s acts := by
  induction acts generalizing s with
  | nil => exact ⟨rfl, rfl⟩
  | cons a acts ih =>
    have ha := h s a
    obtain ⟨hfinal, hout⟩ := ih (t.next s a)
    cases hf : f a with
    | none =>
      rw [hf] at ha
      rw [List.filterMap_cons_none hf, final_cons, outputs_cons, ← hfinal, ← hout, ha.1, ha.2]
      exact ⟨rfl, rfl⟩
    | some b =>
      rw [hf] at ha
      rw [List.filterMap_cons_some hf, final_cons, final_cons, outputs_cons, outputs_cons, ha.1,
        ha.2, hfinal, hout]
      exact ⟨rfl, rfl⟩

/-- If the outputs of a step lead from the label of one state to that of the next one, then the
outputs of a run do. -/
theorem outputs_walk {R : β → β → Prop} {label : σ → β}
    (h : ∀ s a, Walk R (label s) (t.out s a) (label (t.next s a))) (s : σ) (acts : List α) :
    Walk R (label s) (t.outputs s acts) (label (t.final s acts)) := by
  induction acts generalizing s with
  | nil => exact .nil R (label s)
  | cons a acts ih => exact (h s a).append (ih (t.next s a))

/-- The machine refines the transducer: seen through `view`, each of its steps that succeeds is one
of the transducer, and adds the outputs of it to the log. -/
structure Refines (step : ς → α → Except ε ς) (Inv : ς → Prop) (view : ς → σ)
    (log : ς → List β) : Prop where
  inv : Inv s → step s a = .ok s' → Inv s'
  next : Inv s → step s a = .ok s' → view s' = t.next (view s) a
  out : Inv s → step s a = .ok s' → log s' = log s ++ t.out (view s) a

variable {t}

theorem Refines.run {step : ς → α → Except ε ς} {Inv : ς → Prop} {view : ς → σ}
    {log : ς → List β} (h : t.Refines step Inv view log) (hi : Inv s)
    (hr : Run.run step s acts = .ok s') :
    view s' = t.final (view s) acts ∧ log s' = log s ++ t.outputs (view s) acts := by
  induction acts generalizing s with
  | nil =>
    cases hr
    exact ⟨rfl, (List.append_nil _).symm⟩
  | cons a acts ih =>
    rw [run_cons] at hr
    obtain ⟨s₁, h₁, hr⟩ := bind_ok hr
    obtain ⟨hv, hl⟩ := ih (h.inv hi h₁) hr
    rw [h.next hi h₁] at hv hl
    rw [h.out hi h₁, List.append_assoc] at hl
    exact ⟨hv, hl⟩

end Transducer

end JuttaProto
