import Mathlib.Data.List.Forall2
import Mathlib.Data.List.Nodup

namespace Slots
set_option autoImplicit true

def writeAll (writes : List (Nat × α)) (l : List α) : List α :=
  writes.foldl (fun l w => l.set w.1 w.2) l

@[simp] theorem writeAll_nil (l : List α) : writeAll [] l = l := rfl

@[simp] theorem writeAll_cons (w : Nat × α) (writes : List (Nat × α)) (l : List α) :
    writeAll (w :: writes) l = writeAll writes (l.set w.1 w.2) := rfl

theorem writeAll_append (writes writes' : List (Nat × α)) (l : List α) :
    writeAll (writes ++ writes') l = writeAll writes' (writeAll writes l) :=
  List.foldl_append

@[simp] theorem length_writeAll (writes : List (Nat × α)) (l : List α) :
    (writeAll writes l).length = l.length := by
  induction writes generalizing l with
  | nil => rfl
  | cons w writes ih => rw [writeAll_cons, ih, List.length_set]

theorem getElem?_writeAll_of_notMem {writes : List (Nat × α)} (h : i ∉ writes.map Prod.fst)
    (l : List α) : (writeAll writes l)[i]? = l[i]? := by
  induction writes generalizing l with
  | nil => rfl
  | cons w writes ih =>
    rw [List.map_cons, List.mem_cons, not_or] at h
    rw [writeAll_cons, ih h.2, List.getElem?_set_ne (Ne.symm h.1)]

theorem getElem?_writeAll_of_mem {writes : List (Nat × α)} (hn : (writes.map Prod.fst).Nodup)
    (hm : (i, v) ∈ writes) {l : List α} (hi : i < l.length) :
    (writeAll writes l)[i]? = some v := by
  induction writes generalizing l with
  | nil => cases hm
  | cons w writes ih =>
    rw [List.map_cons, List.nodup_cons] at hn
    rw [writeAll_cons]
    rcases List.mem_cons.1 hm with he | hm
    · rw [← he] at hn ⊢
      rw [getElem?_writeAll_of_notMem hn.1, List.getElem?_set_self hi]
    · exact ih hn.2 hm (by rw [List.length_set]; exact hi)

theorem forall₂_set {R : α → β → Prop} {l : List α} {l' : List β} (h : List.Forall₂ R l l')
    (hab : R a b) (i : Nat) : List.Forall₂ R (l.set i a) (l'.set i b) := by
  induction h generalizing i with
  | nil => exact .nil
  | cons hr ht ih =>
    cases i with
    | zero => exact .cons hab ht
    | succ i => exact .cons hr (ih i)

theorem set_of_getElem? {l : List α} (h : l[i]? = some a) : l.set i a = l := by
  obtain ⟨hlt, rfl⟩ := List.getElem?_eq_some_iff.1 h
  exact List.set_getElem_self hlt

theorem countP_set {l : List α} (h : l[i]? = some a) (p : α → Bool) (b : α) :
    (l.set i b).countP p + (p a).toNat = l.countP p + (p b).toNat := by
  induction l generalizing i with
  | nil => cases h
  | cons c l ih =>
    cases i with
    | zero =>
      cases h
      rw [List.set_cons_zero, List.countP_cons, List.countP_cons]
      cases p a <;> cases p b <;> rfl
    | succ i =>
      have hl := ih h
      rw [List.set_cons_succ, List.countP_cons, List.countP_cons]
      omega

def total (f : α → Nat) (l : List α) : Nat := l.foldr (fun a n => f a + n) 0

@[simp] theorem total_cons (f : α → Nat) (a : α) (l : List α) :
    total f (a :: l) = f a + total f l := rfl

theorem total_set {l : List α} (h : l[i]? = some a) (f : α → Nat) (b : α) :
    total f (l.set i b) + f a = total f l + f b := by
  induction l generalizing i with
  | nil => cases h
  | cons c l ih =>
    cases i with
    | zero =>
      cases h
      rw [List.set_cons_zero, total_cons, total_cons]
      omega
    | succ i =>
      have hl := ih h
      rw [List.set_cons_succ, total_cons, total_cons]
      omega

theorem set_append_length (filled : List α) (a v : α) (rest : List α) :
    (filled ++ a :: rest).set filled.length v = filled ++ v :: rest := by
  rw [List.set_append_right _ _ (Nat.le_refl _), Nat.sub_self, List.set_cons_zero]

/-- The store `l[i] = v`, or nothing when the list ends before the index. -/
def store (l : List α) (i : Nat) (v : α) : Option (List α) :=
  if i < l.length then some (l.set i v) else none

/-- A list that is filled from the left takes the next value in its first free slot. -/
theorem store_append (filled : List α) (a v : α) (rest : List α) :
    store (filled ++ a :: rest) filled.length v = some (filled ++ v :: rest) := by
  have hlt : filled.length < (filled ++ a :: rest).length := by
    rw [List.length_append, List.length_cons]
    omega
  rw [store, if_pos hlt, set_append_length]

end Slots
