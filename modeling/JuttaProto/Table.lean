import Mathlib.Algebra.Group.Nat.Defs
import JuttaProto.Run

/-- The rows of a `std::vector` whose elements take 64 bytes each, so that there are fewer
than `2 ^ 57` of them. -/
structure Table (α : Type) where
  rows : List α
  size_lt : rows.length < 2 ^ 57
  deriving DecidableEq, Repr

namespace Table
open Run
set_option autoImplicit true

/-- The table of the given rows, or an error when a vector cannot hold so many. -/
def ofList (tooLong : ε) (rows : List α) : Except ε (Table α) :=
  if h : rows.length < 2 ^ 57 then .ok ⟨rows, h⟩ else .error tooLong

def mapIdx (g : Nat → α → β) (t : Table α) : Table β :=
  ⟨t.rows.mapIdx g, by rw [List.length_mapIdx]; exact t.size_lt⟩

theorem map_mapIdx {g : Nat → α → α} {f : α → β} (h : ∀ i a, f (g i a) = f a) (t : Table α) :
    (t.mapIdx g).rows.map f = t.rows.map f := by
  apply List.ext_getElem?
  intro i
  simp only [mapIdx, List.getElem?_map, List.getElem?_mapIdx, Option.map_map]
  congr 1
  funext a
  exact h i a

theorem mapIdx_rows_of_part {g : Nat → α → γ} {f : α → β} {row : β → Nat → γ}
    (h : ∀ i a, g i a = row (f a) i) (t : Table α) :
    (t.mapIdx g).rows = (t.rows.map f).mapIdx fun i b => row b i := by
  apply List.ext_getElem?
  intro i
  simp only [mapIdx, List.getElem?_map, List.getElem?_mapIdx, Option.map_map]
  congr 1
  funext a
  exact h i a

def mapRows (f : Nat → α → Except ε β) :
    Nat → (rows : List α) → Except ε { rows' : List β // rows'.length = rows.length }
  | _, [] => .ok ⟨[], rfl⟩
  | i, a :: rows => do
    let b ← f i a
    let rest ← mapRows f (i + 1) rows
    return ⟨b :: rest.1, congrArg (· + 1) rest.2⟩

def mapIdxM (f : Nat → α → Except ε β) (t : Table α) : Except ε (Table β) := do
  let rows' ← mapRows f 0 t.rows
  return ⟨rows'.1, by rw [rows'.2]; exact t.size_lt⟩

theorem mapRows_ok {f : Nat → α → Except ε β} {g : Nat → α → β} {rows : List α}
    (h : ∀ j a, rows[j]? = some a → f (i + j) a = .ok (g (i + j) a)) :
    mapRows f i rows = .ok ⟨rows.mapIdx (fun j => g (i + j)), List.length_mapIdx⟩ := by
  induction rows generalizing i with
  | nil => rfl
  | cons a rows ih =>
    have ha := h 0 a rfl
    have hr := ih (i := i + 1) fun j b hb => by
      have hj : i + 1 + j = i + (j + 1) := by omega
      rw [hj]
      exact h (j + 1) b hb
    rw [Nat.add_zero] at ha
    have he : (fun j => g (i + 1 + j)) = fun j => g (i + (j + 1)) := by
      funext j
      congr 1
      omega
    simp only [mapRows, ha, hr, ok_bind, he, List.mapIdx_cons, Nat.add_zero]
    rfl

theorem mapIdxM_ok {f : Nat → α → Except ε β} {g : Nat → α → β} {t : Table α}
    (h : ∀ i a, t.rows[i]? = some a → f i a = .ok (g i a)) :
    t.mapIdxM f = .ok (t.mapIdx g) := by
  have hr : mapRows f 0 t.rows =
      .ok ⟨t.rows.mapIdx fun j => g (0 + j), List.length_mapIdx⟩ := mapRows_ok fun j a ha => by
    rw [Nat.zero_add]
    exact h j a ha
  simp only [Nat.zero_add] at hr
  rw [mapIdxM, hr]
  rfl

end Table
