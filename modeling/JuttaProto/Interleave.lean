import JuttaProto.Run

namespace Interleave
open Run
set_option autoImplicit true

/-- A sequence that runs through two others, each in its order. -/
inductive Interleaves : List α → List β → List (α ⊕ β) → Prop
  | nil : Interleaves [] [] []
  | left : Interleaves l r m → Interleaves (a :: l) r (.inl a :: m)
  | right : Interleaves l r m → Interleaves l (b :: r) (.inr b :: m)

def Agrees (R : σ → σ → Prop) : Except ε σ → Except ε σ → Prop
  | .ok s, .ok t => R s t
  | .error e, .error e' => e = e'
  | _, _ => False

def both (step₁ : σ → α → Except ε σ) (step₂ : σ → β → Except ε σ) (s : σ) :
    α ⊕ β → Except ε σ
  | .inl a => step₁ s a
  | .inr b => step₂ s b

theorem Agrees.refl {R : σ → σ → Prop} (hr : Equivalence R) (x : Except ε σ) :
    Agrees R x x := by
  cases x with
  | error e => rfl
  | ok s => exact hr.refl s

theorem Agrees.symm {R : σ → σ → Prop} (hr : Equivalence R) {x y : Except ε σ}
    (h : Agrees R x y) : Agrees R y x := by
  cases x with
  | error e =>
    cases y with
    | error e' => exact Eq.symm h
    | ok t => exact h.elim
  | ok s =>
    cases y with
    | error e' => exact h.elim
    | ok t => exact hr.symm h

theorem Agrees.trans {R : σ → σ → Prop} (hr : Equivalence R) {x y z : Except ε σ}
    (h : Agrees R x y) (h' : Agrees R y z) : Agrees R x z := by
  cases x with
  | error e =>
    cases y with
    | error e' =>
      cases h
      exact h'
    | ok t => exact h.elim
  | ok s =>
    cases y with
    | error e' => exact h.elim
    | ok t =>
      cases z with
      | error e'' => exact h'.elim
      | ok u => exact hr.trans h h'

theorem Agrees.bind {R : σ → σ → Prop} {x y : Except ε σ} {f g : σ → Except ε σ}
    (h : Agrees R x y) (hf : ∀ s t, R s t → Agrees R (f s) (g t)) :
    Agrees R (x >>= f) (y >>= g) := by
  cases x with
  | error e =>
    cases y with
    | error e' => exact h
    | ok t => exact h.elim
  | ok s =>
    cases y with
    | error e' => exact h.elim
    | ok t => exact hf s t h

theorem Agrees.bind_self {R : σ → σ → Prop} {x : Except ε σ} {f g : σ → Except ε σ}
    (h : ∀ s, x = .ok s → Agrees R (f s) (g s)) : Agrees R (x >>= f) (x >>= g) := by
  cases x with
  | error e => rfl
  | ok s => exact h s rfl

/-- The steps of two parties commute up to an equivalence that all steps respect. -/
structure Independent (step₁ : σ → α → Except ε σ) (step₂ : σ → β → Except ε σ)
    (Inv : σ → Prop) (R : σ → σ → Prop) : Prop where
  equiv : Equivalence R
  inv₁ : ∀ {s t a}, Inv s → step₁ s a = .ok t → Inv t
  inv₂ : ∀ {s t b}, Inv s → step₂ s b = .ok t → Inv t
  resp₁ : ∀ {s t} (a : α), R s t → Agrees R (step₁ s a) (step₁ t a)
  resp₂ : ∀ {s t} (b : β), R s t → Agrees R (step₂ s b) (step₂ t b)
  commute : ∀ {s} (a : α) (b : β), Inv s →
    Agrees R (step₁ s a >>= fun t => step₂ t b) (step₂ s b >>= fun t => step₁ t a)

section
variable {step₁ : σ → α → Except ε σ} {step₂ : σ → β → Except ε σ} {Inv : σ → Prop}
  {R : σ → σ → Prop} (h : Independent step₁ step₂ Inv R)

include h

theorem Independent.run_resp (hr : R s t) (m : List (α ⊕ β)) :
    Agrees R (run (both step₁ step₂) s m) (run (both step₁ step₂) t m) := by
  induction m generalizing s t with
  | nil => exact hr
  | cons c m ih =>
    apply Agrees.bind _ fun _ _ hr => ih hr
    cases c with
    | inl a => exact h.resp₁ a hr
    | inr b => exact h.resp₂ b hr

theorem Independent.move (hs : Inv s) (l : List α) (b : β) (m : List (α ⊕ β)) :
    Agrees R (run (both step₁ step₂) s (.inr b :: (l.map .inl ++ m)))
      (run (both step₁ step₂) s (l.map .inl ++ .inr b :: m)) := by
  induction l generalizing s with
  | nil => exact .refl h.equiv _
  | cons a l ih =>
    have hswap : Agrees R
        (run (both step₁ step₂) s (.inr b :: .inl a :: (l.map .inl ++ m)))
        (run (both step₁ step₂) s (.inl a :: .inr b :: (l.map .inl ++ m))) := by
      have hc := (h.commute a b hs).symm h.equiv
      have hb := hc.bind fun _ _ hr => h.run_resp hr (l.map .inl ++ m)
      rw [bind_assoc, bind_assoc] at hb
      exact hb
    apply hswap.trans h.equiv
    exact .bind_self fun t ht => ih (h.inv₁ hs ht)

/-- Every interleaving agrees with the run of the first party followed by the second one. -/
theorem Independent.sequential (hm : Interleaves l r m) (hs : Inv s) :
    Agrees R (run (both step₁ step₂) s m)
      (run (both step₁ step₂) s (l.map .inl ++ r.map .inr)) := by
  induction hm generalizing s with
  | nil => exact .refl h.equiv _
  | left _ ih => exact .bind_self fun t ht => ih (h.inv₁ hs ht)
  | right _ ih =>
    apply Agrees.trans h.equiv _ (h.move hs _ _ _)
    exact .bind_self fun t ht => ih (h.inv₂ hs ht)

theorem Independent.interleavings_agree (hm : Interleaves l r m) (hm' : Interleaves l r m')
    (hs : Inv s) :
    Agrees R (run (both step₁ step₂) s m) (run (both step₁ step₂) s m') :=
  (h.sequential hm hs).trans h.equiv ((h.sequential hm' hs).symm h.equiv)

end

end Interleave
