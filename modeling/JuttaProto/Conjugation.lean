import Mathlib.Algebra.Group.Basic
import Mathlib.Logic.Function.Basic

namespace Conjugation
set_option autoImplicit true

/-- The map `f` read through a shift by `k` of its argument and of its result. -/
def shifted [AddGroup α] (k : α) (f : α → α) (x : α) : α := f (x + k) - k

theorem shifted_involutive [AddGroup α] {f : α → α} (hf : Function.Involutive f) (k : α) :
    Function.Involutive (shifted k f) := by
  intro x
  simp only [shifted, sub_add_cancel]
  rw [hf (x + k), add_sub_cancel_right]

theorem sandwich_involutive {f g : α → α} (hg : Function.Involutive g)
    (hf : Function.Involutive f) : Function.Involutive (g ∘ f ∘ g) := by
  intro x
  simp only [Function.comp_apply]
  rw [hg (f (g x)), hf (g x), hg x]

theorem shifted_ne [AddGroup α] {f : α → α} (hf : ∀ x, f x ≠ x) (k x : α) :
    shifted k f x ≠ x := by
  intro h
  apply hf (x + k)
  rw [shifted, sub_eq_iff_eq_add] at h
  exact h

theorem sandwich_ne {f g : α → α} (hg : Function.Involutive g) (hf : ∀ x, f x ≠ x) (x : α) :
    (g ∘ f ∘ g) x ≠ x := by
  intro h
  apply hf (g x)
  rw [← hg (f (g x))]
  exact congrArg g h

theorem mapIdx_involutive {f : Nat → α → α} (hf : ∀ i, Function.Involutive (f i)) :
    Function.Involutive (List.mapIdx f) := by
  intro l
  rw [List.mapIdx_mapIdx]
  have he : (fun i => f i ∘ f i) = fun _ => id := by
    funext i x
    exact hf i x
  rw [he]
  apply List.ext_getElem?
  intro i
  rw [List.getElem?_mapIdx, Option.map_id_apply]

theorem take_mapIdx (f : Nat → α → β) (l : List α) (n : Nat) :
    (l.mapIdx f).take n = (l.take n).mapIdx f := by
  apply List.ext_getElem?
  intro i
  simp only [List.getElem?_mapIdx, List.getElem?_take]
  split
  · rfl
  · rfl

theorem mod_of_periodic {f : Nat → γ} (hf : ∀ i, f (i + n) = f i) (i : Nat) : f (i % n) = f i := by
  have hm (k j : Nat) : f (j + n * k) = f j := by
    induction k with
    | zero => rw [Nat.mul_zero, Nat.add_zero]
    | succ k ih => rw [Nat.mul_succ, ← Nat.add_assoc, hf, ih]
  rw [← hm (i / n) (i % n), Nat.mod_add_div]

/-- A transformation whose positions repeat acts on the part behind whole periods as it would
on that part alone. -/
theorem mapIdx_append_of_periodic {f : Nat → α → β} (hf : ∀ i, f (i + n) = f i) {l : List α}
    (h : n ∣ l.length) (l' : List α) : (l ++ l').mapIdx f = l.mapIdx f ++ l'.mapIdx f := by
  have hl : (fun i => f (i + l.length)) = f := by
    funext i
    rw [← mod_of_periodic hf (i + l.length), ← mod_of_periodic hf i, Nat.add_mod,
      Nat.mod_eq_zero_of_dvd h, Nat.add_zero, Nat.mod_mod]
  rw [List.mapIdx_append, hl]

end Conjugation
