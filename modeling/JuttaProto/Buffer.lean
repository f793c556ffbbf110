import Mathlib.Tactic.Basic

/-- A block of memory of a fixed size. -/
structure Buffer (α : Type) (size : Nat) where
  cells : List α
  length_cells : cells.length = size
  deriving DecidableEq, Repr

namespace Buffer
set_option autoImplicit true

def window (b : Buffer α size) (i count : Nat) : List α := (b.cells.drop i).take count

def load (b : Buffer α size) (i count : Nat) : Option (List α) :=
  if i + count ≤ size then some (b.window i count) else none

def patch (b : Buffer α size) (i : Nat) (data : List α) (h : i + data.length ≤ size) :
    Buffer α size where
  cells := b.cells.take i ++ (data ++ b.cells.drop (i + data.length))
  length_cells := by
    simp only [List.length_append, List.length_take, List.length_drop, b.length_cells]
    omega

def store (b : Buffer α size) (i : Nat) (data : List α) : Option (Buffer α size) :=
  if h : i + data.length ≤ size then some (b.patch i data h) else none

/-- The index at which a loop stops that passes over at most so many cells, from the `i`-th on, as
long as `p` holds of them. -/
def scan (b : Buffer α size) (p : α → Bool) : Nat → Nat → Option Nat
  | 0, i => some i
  | count + 1, i =>
    match b.cells[i]? with
    | some a => if p a then scan b p count (i + 1) else some i
    | none => none

def runOf (b : Buffer α size) (p : α → Bool) (i : Nat) : List α := (b.cells.drop i).takeWhile p

theorem load_ok (b : Buffer α size) (i count : Nat) (h : i + count ≤ size) :
    b.load i count = some (b.window i count) := if_pos h

theorem store_ok (b : Buffer α size) (h : i + data.length ≤ size) :
    b.store i data = some (b.patch i data h) := dif_pos h

@[simp] theorem window_zero (b : Buffer α size) (i : Nat) : b.window i 0 = [] := rfl

theorem window_length (b : Buffer α size) (h : i + count ≤ size) :
    (b.window i count).length = count := by
  rw [window, List.length_take, List.length_drop, b.length_cells]
  omega

theorem window_append (b : Buffer α size) (i j k : Nat) :
    b.window i (j + k) = b.window i j ++ b.window (i + j) k := by
  rw [window, List.take_add, List.drop_drop]
  rfl

theorem window_sub (b : Buffer α size) (i : Nat) (h : j + l ≤ k) :
    b.window (i + j) l = ((b.window i k).drop j).take l := by
  rw [window, window, List.drop_take, List.take_take, Nat.min_eq_left (by omega), List.drop_drop]

theorem window_congr {b b' : Buffer α size} (h : b'.window i' k = b.window i k)
    (hj : j + l ≤ k) : b'.window (i' + j) l = b.window (i + j) l := by
  rw [window_sub b' i' hj, window_sub b i hj, h]

theorem window_congr_below {b b' : Buffer α size} (h : b'.window 0 k = b.window 0 k)
    (hj : j + l ≤ k) : b'.window j l = b.window j l := by
  have hw := window_congr h hj
  rw [Nat.zero_add] at hw
  exact hw

theorem window_succ (b : Buffer α size) (h : i < b.cells.length) (count : Nat) :
    b.window i (count + 1) = b.cells[i] :: b.window (i + 1) count := by
  rw [window, List.drop_eq_getElem_cons h, List.take_succ_cons]
  rfl

theorem window_patch (b : Buffer α size) (h : i + data.length ≤ size) :
    (b.patch i data h).window i data.length = data := by
  have hi : (b.cells.take i).length = i := by
    rw [List.length_take, b.length_cells]
    omega
  rw [window, patch, List.drop_left' hi, List.take_left]

theorem window_patch_before (b : Buffer α size) (h : j + data.length ≤ size)
    (hij : i + count ≤ j) : (b.patch j data h).window i count = b.window i count := by
  have hj : (b.cells.take j).length = j := by
    rw [List.length_take, b.length_cells]
    omega
  rw [window, patch, List.drop_append_of_le_length (by omega),
    List.take_append_of_le_length (by rw [List.length_drop]; omega), List.drop_take,
    List.take_take, Nat.min_eq_left (by omega)]
  rfl

theorem window_patch_after (b : Buffer α size) (h : j + data.length ≤ size)
    (hij : j + data.length ≤ i) : (b.patch j data h).window i count = b.window i count := by
  have hj : (b.cells.take j).length = j := by
    rw [List.length_take, b.length_cells]
    omega
  have hdata : data.drop (i - j) = [] := List.drop_of_length_le (by omega)
  have hd : j + data.length + (i - j - data.length) = i := by omega
  rw [window, patch, List.drop_append, hj, List.drop_append, List.drop_drop, hd, hdata,
    List.drop_of_length_le (by omega), List.nil_append, List.nil_append]
  rfl

theorem scan_ok (b : Buffer α size) (p : α → Bool) (h : i + count ≤ size) :
    b.scan p count i = some (i + ((b.window i count).takeWhile p).length) := by
  induction count generalizing i with
  | zero => rfl
  | succ count ih =>
    have hi : i < b.cells.length := by
      rw [b.length_cells]
      omega
    have hs := ih (i := i + 1) (by omega)
    rw [scan, List.getElem?_eq_getElem hi, window_succ b hi, List.takeWhile_cons]
    cases hp : p b.cells[i] with
    | false => simp only [hp, Bool.false_eq_true, ↓reduceIte, List.length_nil, Nat.add_zero]
    | true =>
      simp only [hp, ↓reduceIte, List.length_cons, hs, Option.some.injEq]
      omega

theorem takeWhile_append_stop {p : α → Bool} (l l' : List α) (ha : p a = false) :
    (l ++ a :: l').takeWhile p = l.takeWhile p := by
  induction l with
  | nil => rw [List.nil_append, List.takeWhile_cons, ha, if_neg Bool.false_ne_true,
      List.takeWhile_nil]
  | cons b l ih => simp only [List.cons_append, List.takeWhile_cons, ih]

theorem runOf_eq (b : Buffer α size) {p : α → Bool} (hs : b.window (i + count) 1 = [a])
    (ha : p a = false) : b.runOf p i = (b.window i count).takeWhile p := by
  have hd : b.cells.drop (i + count) = a :: b.cells.drop (i + count + 1) := by
    rw [window] at hs
    cases hc : b.cells.drop (i + count) with
    | nil =>
      rw [hc] at hs
      cases hs
    | cons c l =>
      rw [hc] at hs
      cases hs
      rw [← List.drop_drop, hc]
      rfl
  have he : b.cells.drop i = b.window i count ++ b.cells.drop (i + count) := by
    rw [window, ← List.drop_drop, List.take_append_drop]
  rw [runOf, he, hd, takeWhile_append_stop _ _ ha]

end Buffer
