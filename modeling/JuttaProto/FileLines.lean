import JuttaProto.ReaderInvariant

namespace JuttaProto
open Lines Run
set_option autoImplicit true

inductive ReaderTurn
  | worker
  | next_line
  deriving DecidableEq, Repr

structure Reading (n : Nat) where
  reader : LineReader n
  returned : List (Option CString) := []

def Reading.step (s : Reading n) : ReaderTurn → Except CsvFault (Reading n)
  | .worker => (⟨·, s.returned⟩) <$> s.reader.work
  | .next_line => do
    let (line, reader) ← s.reader.next_line
    return ⟨reader, s.returned ++ [line]⟩

def next_lines (file_name : CString) (memory : Buffer UInt8 (3 * n)) (content : Bytes)
    (turns : List ReaderTurn) : Except CsvFault (List (Option CString)) := do
  let r ← LineReader.init file_name memory content
  (·.returned) <$> Run.run Reading.step ⟨r, []⟩ turns

/-- What a number of calls returns when the given lines are left, of which the first one has the
number after `file_line`. -/
def handedOut (n : Nat) (file_name : CString) (file_line : Nat) (ls : List Bytes) (calls : Nat) :
    Except CsvFault (List (Option CString)) :=
  match (ls.take calls).findIdx? fun l => n ≤ l.length with
  | none => .ok ((List.range calls).map fun i => ls[i]?.map lineText)
  | some i => .error (.line_length_limit_exceeded file_name (UInt32.ofNat (file_line + i + 1)))

theorem handedOut_zero (n : Nat) (file_name : CString) (file_line : Nat) (ls : List Bytes) :
    handedOut n file_name file_line ls 0 = .ok [] := rfl

theorem handedOut_nil (n : Nat) (file_name : CString) (file_line calls : Nat) :
    handedOut n file_name file_line [] (calls + 1) =
      (none :: ·) <$> handedOut n file_name file_line [] calls := by
  simp only [handedOut, List.take_nil, List.findIdx?_nil, List.getElem?_nil, Option.map_none,
    List.range_succ_eq_map, List.map_cons, List.map_map]
  rfl

theorem handedOut_long {l : Bytes} (h : n ≤ l.length) (file_name : CString) (file_line : Nat)
    (ls : List Bytes) (calls : Nat) :
    handedOut n file_name file_line (l :: ls) (calls + 1) =
      .error (.line_length_limit_exceeded file_name (UInt32.ofNat (file_line + 1))) := by
  rw [handedOut, List.take_succ_cons, List.findIdx?_cons, if_pos (decide_eq_true h)]

theorem handedOut_cons {l : Bytes} (h : l.length < n) (file_name : CString) (file_line : Nat)
    (ls : List Bytes) (calls : Nat) :
    handedOut n file_name file_line (l :: ls) (calls + 1) =
      (some (lineText l) :: ·) <$> handedOut n file_name (file_line + 1) ls calls := by
  rw [handedOut, handedOut, List.take_succ_cons, List.findIdx?_cons,
    if_neg (by rw [decide_eq_true_eq]; omega)]
  cases (ls.take calls).findIdx? fun l => decide (n ≤ l.length) with
  | none =>
    simp only [Option.map_none, List.range_succ_eq_map, List.map_cons, List.map_map,
      List.getElem?_cons_zero, Option.map_some]
    rfl
  | some i =>
    have hi : file_line + (i + 1) + 1 = file_line + 1 + i + 1 := by omega
    simp only [Option.map_some, hi, error_map]

theorem map_append_cons (l : List α) (a : α) (x : Except ε (List α)) :
    (l ++ [a] ++ ·) <$> x = (l ++ ·) <$> (a :: ·) <$> x := by
  cases x with
  | error e => rfl
  | ok l' => exact congrArg Except.ok (List.append_assoc l [a] l')

theorem LineReader.Inv.run {r : LineReader n} (h : r.Inv) (hl : r.file_line = UInt32.ofNat m)
    (returned : List (Option CString)) (turns : List ReaderTurn) :
    (·.returned) <$> Run.run Reading.step ⟨r, returned⟩ turns =
      (returned ++ ·) <$> handedOut n r.file_name m (lines NEWLINE r.pending)
        (turns.count .next_line) := by
  induction turns generalizing r m returned with
  | nil => 
    rw [List.count_nil, handedOut_zero]
    exact congrArg Except.ok (List.append_nil returned).symm
  | cons turn turns ih =>
    cases turn with
    | worker =>
      obtain ⟨r', hw, hinv, hpending, hname, hline⟩ := h.work
      rw [run_cons, Reading.step, hw]
      rw [hl] at hline
      have hr := ih hinv hline returned
      rw [hpending, hname] at hr
      exact hr
    | next_line =>
      rw [List.count_cons_self, run_cons, Reading.step]
      by_cases hp : r.pending = []
      · have hr := ih h hl (returned ++ [none])
        rw [hp] at hr
        rw [h.next_line_end hp, hp]
        exact hr.trans ((map_append_cons _ _ _).trans
          (congrArg _ (handedOut_nil n r.file_name m _).symm))
      · have hnext : r.file_line + 1 = UInt32.ofNat (m + 1) := by
          rw [hl, UInt32.ofNat_add]
          rfl
        rw [lines_eq hp]
        by_cases hn : n ≤ (first NEWLINE r.pending).length
        · rw [h.next_line_error hp hn, handedOut_long hn, hnext]
          rfl
        · obtain ⟨r', hs, hinv, hpending, hname, hline⟩ := h.next_line_ok hp (by omega)
          have hr := ih hinv (hline.trans hnext)
            (returned ++ [some (lineText (first NEWLINE r.pending))])
          rw [hpending, hname] at hr
          rw [hs, handedOut_cons (by omega)]
          exact hr.trans (map_append_cons _ _ _)

/-- For every content of the file and of the memory and for every interleaving with the worker, the
calls return the lines one after the other, and nothing at the end. A line that is as long as a
block throws instead. No assertion fails, no access is outside of the buffer, and no call waits for
a worker that has ended. -/
theorem lines_read (hn : 2 ≤ n) (file_name : CString) (memory : Buffer UInt8 (3 * n))
    (content : Bytes) (turns : List ReaderTurn) :
    next_lines file_name memory content turns =
      handedOut n (file_name.take max_file_name_length) 0 (lines NEWLINE (withoutMark content))
        (turns.count .next_line) := by
  obtain ⟨r, hi, hinv, hpending, hname, hline⟩ := init_ok hn file_name memory content
  rw [next_lines, hi, ok_bind, hinv.run hline [] turns, hpending, hname]
  cases handedOut n (file_name.take max_file_name_length) 0
      (lines NEWLINE (withoutMark content)) (turns.count .next_line) <;> rfl

def exampleMemory (n : Nat) : Buffer UInt8 (3 * n) := ⟨List.replicate (3 * n) 0xCD,
  List.length_replicate⟩

theorem lines_read_example :
    next_lines (cstr "a.txt") (exampleMemory 4) (cstr "ab\n\r\ncde\nf")
        [.next_line, .worker, .next_line, .next_line, .worker, .next_line, .next_line] =
      .ok [some (cstr "ab"), some [], some (cstr "cde"), some (cstr "f"), none] :=
  (lines_read (by decide) _ _ _ _).trans (by decide)

end JuttaProto
