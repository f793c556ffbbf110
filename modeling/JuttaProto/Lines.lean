import Mathlib.Data.List.TakeWhile

namespace Lines
set_option autoImplicit true
variable [DecidableEq α]

/-- The lines of a text. The last one need not be terminated, and is missing when it is empty. -/
def lines (nl : α) : List α → List (List α)
  | [] => []
  | c :: text =>
    if c = nl then [] :: lines nl text
    else match lines nl text with
      | [] => [[c]]
      | l :: ls => (c :: l) :: ls

def unlines (nl : α) (ls : List (List α)) : List α := ls.flatMap (· ++ [nl])

def first (nl : α) (text : List α) : List α := text.takeWhile (· ≠ nl)

def rest (nl : α) (text : List α) : List α := (text.dropWhile (· ≠ nl)).tail

private theorem passes {l : List α} (h : nl ∉ l) : ∀ c ∈ l, decide (c ≠ nl) = true :=
  fun _ hc => decide_eq_true fun he => h (he ▸ hc)

private theorem stops (nl : α) : ¬decide (nl ≠ nl) = true := fun h => of_decide_eq_true h rfl

theorem first_append_nl {l : List α} (h : nl ∉ l) (text : List α) :
    first nl (l ++ nl :: text) = l := by
  rw [first, List.takeWhile_append_of_pos (passes h),
    List.takeWhile_cons_of_neg (p := fun c => decide (c ≠ nl)) (stops nl), List.append_nil]

theorem dropWhile_append_nl {l : List α} (h : nl ∉ l) (text : List α) :
    (l ++ nl :: text).dropWhile (· ≠ nl) = nl :: text := by
  rw [List.dropWhile_append_of_pos (passes h),
    List.dropWhile_cons_of_neg (p := fun c => decide (c ≠ nl)) (stops nl)]

theorem dropWhile_of_notMem {l : List α} (h : nl ∉ l) : l.dropWhile (· ≠ nl) = [] :=
  List.dropWhile_eq_nil_iff.2 (passes h)

theorem rest_append_nl {l : List α} (h : nl ∉ l) (text : List α) :
    rest nl (l ++ nl :: text) = text := by
  rw [rest, dropWhile_append_nl h, List.tail_cons]

theorem first_of_notMem {l : List α} (h : nl ∉ l) : first nl l = l :=
  List.takeWhile_eq_self_iff.2 (passes h)

theorem rest_of_notMem {l : List α} (h : nl ∉ l) : rest nl l = [] := by
  rw [rest, dropWhile_of_notMem h, List.tail_nil]

theorem first_append_of_notMem {l : List α} (h : nl ∉ l) (text : List α) :
    first nl (l ++ text) = l ++ first nl text := List.takeWhile_append_of_pos (passes h)

theorem first_cases (nl : α) (text : List α) :
    (first nl text = text ∧ rest nl text = []) ∨ text = first nl text ++ nl :: rest nl text := by
  by_cases h : nl ∈ text
  · obtain ⟨l, t, rfl, hl⟩ := List.eq_append_cons_of_mem h
    rw [first_append_nl hl, rest_append_nl hl]
    exact .inr rfl
  · exact .inl ⟨first_of_notMem h, rest_of_notMem h⟩

theorem lines_cons_eq (nl c : α) (text : List α) :
    lines nl (c :: text) = first nl (c :: text) :: lines nl (rest nl (c :: text)) := by
  induction text generalizing c with
  | nil =>
    by_cases hc : c = nl <;>
      simp only [lines, first, rest, hc, ↓reduceIte, ne_eq, not_true, not_false_eq_true,
        decide_true, decide_false, List.takeWhile_cons, List.dropWhile_cons, List.takeWhile_nil,
        List.dropWhile_nil, List.tail_cons, List.tail_nil, Bool.false_eq_true]
  | cons d text ih =>
    rw [lines, ih d]
    by_cases hc : c = nl
    · subst hc
      have hf : first c (c :: d :: text) = [] := first_append_nl List.not_mem_nil _
      have hr : rest c (c :: d :: text) = d :: text := rest_append_nl List.not_mem_nil _
      rw [if_pos rfl, hf, hr, ih d]
    · have hf : first nl (c :: d :: text) = c :: first nl (d :: text) :=
        List.takeWhile_cons_of_pos (decide_eq_true hc)
      have hr : rest nl (c :: d :: text) = rest nl (d :: text) :=
        congrArg List.tail (List.dropWhile_cons_of_pos (decide_eq_true hc))
      rw [if_neg hc, hf, hr]

theorem lines_eq {text : List α} (h : text ≠ []) :
    lines nl text = first nl text :: lines nl (rest nl text) := by
  obtain ⟨c, text, rfl⟩ := List.exists_cons_of_ne_nil h
  exact lines_cons_eq nl c text

theorem length_rest_lt (nl : α) {text : List α} (h : text ≠ []) :
    (rest nl text).length < text.length := by
  rcases first_cases nl text with ⟨_, hr⟩ | he
  · rw [hr]
    exact List.length_pos_iff.2 h
  · have hl := congrArg List.length he
    rw [List.length_append, List.length_cons] at hl
    omega

theorem length_lines_le (nl : α) (text : List α) : (lines nl text).length ≤ text.length := by
  induction h : text.length using Nat.strongRecOn generalizing text with
  | ind k ih =>
    by_cases ht : text = []
    · rw [ht]
      exact Nat.zero_le _
    · have hlt := length_rest_lt nl ht
      have hr := ih _ (by omega) (rest nl text) rfl
      rw [lines_eq ht, List.length_cons]
      omega

theorem lines_append_nl {l : List α} (h : nl ∉ l) (text : List α) :
    lines nl (l ++ nl :: text) = l :: lines nl text := by
  rw [lines_eq (List.append_ne_nil_of_right_ne_nil l (List.cons_ne_nil nl text)),
    first_append_nl h, rest_append_nl h]

/-- Lines that are written down are read again, with and without the last terminator. -/
theorem lines_unlines {ls : List (List α)} (h : ∀ l ∈ ls, nl ∉ l) :
    lines nl (unlines nl ls) = ls := by
  induction ls with
  | nil => rfl
  | cons l ls ih =>
    obtain ⟨hl, hls⟩ := List.forall_mem_cons.1 h
    have he : unlines nl (l :: ls) = l ++ nl :: unlines nl ls := by
      rw [unlines, List.flatMap_cons, List.append_assoc]
      rfl
    rw [he, lines_append_nl hl, ih hls]

end Lines
