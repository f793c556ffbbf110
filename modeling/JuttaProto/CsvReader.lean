import JuttaProto.Decimal
import JuttaProto.FileLines
import JuttaProto.MachineFile
import Mathlib.Data.List.DropRight

namespace JuttaProto
open Run
set_option autoImplicit true

inductive DigitFault
  | no_digit
  | integer_overflow
  deriving DecidableEq, Repr

/-- What the parser of a row throws, before the place in the file is added. -/
inductive RowFault
  | too_few_columns
  | too_many_columns
  | invalid (fault : DigitFault) (column : CsvColumn)
  deriving DecidableEq, Repr

def RowFault.located (file_name : CString) (file_line : UInt32) : RowFault → CsvFault
  | too_few_columns => .too_few_columns file_name file_line
  | too_many_columns => .too_many_columns file_name file_line
  | invalid .no_digit column => .no_digit file_name file_line column
  | invalid .integer_overflow column => .integer_overflow file_name file_line column

def SEPARATOR : UInt8 := 0x3B

def is_trim_char (c : UInt8) : Bool := c == 0x20 || c == 0x09

def trim (column : CString) : CString := (column.dropWhile is_trim_char).rdropWhile is_trim_char

/-- The first column of a line, and what follows the separator behind it. -/
def chop_next_column (line : CString) : CString × Option CString :=
  (line.takeWhile (· ≠ SEPARATOR),
    match line.dropWhile (· ≠ SEPARATOR) with
    | [] => none
    | _ :: line => some line)

structure Columns (count : Nat) where
  columns : List CString
  length_columns : columns.length = count
  deriving DecidableEq, Repr

def Columns.get (row : Columns count) (i : Fin count) : CString :=
  row.columns.get (i.cast row.length_columns.symm)

def parse_line : (count : Nat) → Option CString → Except RowFault (Columns count)
  | 0, none => .ok ⟨[], rfl⟩
  | 0, some _ => .error .too_many_columns
  | _ + 1, none => .error .too_few_columns
  | count + 1, some line => do
    let (column, line) := chop_next_column line
    let row ← parse_line count line
    return ⟨trim column :: row.columns, congrArg (· + 1) row.length_columns⟩

/-- The loop of `parse_unsigned_integer`, where `x` has been read so far. An empty column is 0. -/
def parse_unsigned_integer (max : Nat) : Nat → CString → Except DigitFault Nat
  | x, [] => .ok x
  | x, c :: column =>
    if 0x30 ≤ c && c ≤ 0x39 then
      let y := (c - 0x30).toNat
      if (max - y) / 10 < x then .error .integer_overflow
      else parse_unsigned_integer max (10 * x + y) column
    else .error .no_digit

def max_column_content_length : Nat := 63

def column_names : Vector CString 4 := #v[cstr "col1", cstr "col2", cstr "col3", cstr "col4"]

def parse_number (max : Nat) (row : Columns 4) (i : Fin 4) : Except RowFault Nat :=
  match parse_unsigned_integer max 0 (row.get i) with
  | .ok x => .ok x
  | .error fault => .error (.invalid fault
      ⟨column_names.get i, (row.get i).take max_column_content_length⟩)

def parse_helper (row : Columns 4) : Except RowFault Machine := do
  let articleNumber ← parse_number (2 ^ 64 - 1) row 0
  let version ← parse_number (2 ^ 8 - 1) row 3
  return ⟨UInt64.ofNat articleNumber, row.get 1, row.get 2, UInt8.ofNat version⟩

def parse_row (line : CString) : Except RowFault Machine := do
  let row ← parse_line 4 (some line)
  parse_helper row

def LineReader.read_row (r : LineReader n) : Except CsvFault (Option Machine × LineReader n) := do
  let (line, r) ← r.next_line
  match line with
  | none => return (none, r)
  | some line =>
    match parse_row line with
    | .ok machine => return (some machine, r)
    | .error fault => .error (fault.located r.file_name r.file_line)

/-- The entries of the map, in the order in which they have been added. -/
def emplace (result : List Machine) (machine : Machine) : List Machine :=
  if result.any fun m => m.articleNumber == machine.articleNumber then result
  else result ++ [machine]

def read_rows : Nat → LineReader n → List Machine → Except CsvFault (List Machine)
  | 0, _, _ => .error .unfinished
  | rounds + 1, r, result => do
    let (row, r) ← r.read_row
    match row with
    | none => return result
    | some machine => read_rows rounds r (emplace result machine)

/-- `load_machines`, with the code of `errno` or the content of the file, and with the content of
the memory that the buffer takes. The first line is skipped. -/
def load_machines (path : CString) (memory : Buffer UInt8 (3 * n)) :
    Except Int Bytes → Except CsvFault (List Machine)
  | .error errno => .error (.can_not_open_file (path.take max_file_name_length) errno)
  | .ok content => do
    let r ← LineReader.init path memory content
    let (_, r) ← r.next_line
    read_rows (content.length + 1) r []

theorem takeWhile_all {p : α → Bool} {l : List α} (h : ∀ a ∈ l, p a = true) : l.takeWhile p = l :=
  List.takeWhile_eq_self_iff.2 h

/-- What the parser makes of a column: the digits at its beginning are too large a number, or are
all of it, or are followed by something else. -/
theorem parse_unsigned_integer_eq {max x : Nat} (hmax : 9 ≤ max) (hx : x ≤ max) (column : CString) :
    parse_unsigned_integer max x column =
      if max < Decimal.valueFrom x (column.takeWhile Decimal.isDigit) then .error .integer_overflow
      else if column.all Decimal.isDigit then .ok (Decimal.valueFrom x column)
      else .error .no_digit := by
  induction column generalizing x with
  | nil =>
    rw [parse_unsigned_integer, List.takeWhile_nil, Decimal.valueFrom_nil, if_neg (by omega)]
    rfl
  | cons c column ih =>
    rw [parse_unsigned_integer, List.takeWhile_cons, List.all_cons]
    change (if Decimal.isDigit c = true then
      if (max - Decimal.digit c) / 10 < x then _ else _ else _) = _
    cases hc : Decimal.isDigit c with
    | false =>
      simp only [Bool.false_eq_true, ↓reduceIte, Bool.false_and, Decimal.valueFrom_nil]
      rw [if_neg (by omega)]
    | true =>
      have hy := Decimal.digit_le hc
      simp only [↓reduceIte, Bool.true_and, Decimal.valueFrom_cons]
      by_cases ho : (max - Decimal.digit c) / 10 < x
      · have hle := Decimal.le_valueFrom (10 * x + Decimal.digit c)
          (column.takeWhile Decimal.isDigit)
        rw [if_pos ho, if_pos (by omega)]
      · rw [if_neg ho]
        exact ih (x := 10 * x + Decimal.digit c) (by omega)

theorem parse_unsigned_integer_ok_iff {max x : Nat} (hmax : 9 ≤ max) :
    parse_unsigned_integer max 0 column = .ok x ↔
      (∀ c ∈ column, Decimal.isDigit c = true) ∧ Decimal.value column = x ∧ x ≤ max := by
  rw [parse_unsigned_integer_eq hmax (Nat.zero_le max)]
  by_cases hall : column.all Decimal.isDigit = true
  · have hmem := List.all_eq_true.1 hall
    have hv : Decimal.valueFrom 0 column = Decimal.value column := rfl
    rw [takeWhile_all hmem, if_pos hall, hv]
    by_cases ho : max < Decimal.value column
    · rw [if_pos ho]
      constructor
      · intro h
        cases h
      · rintro ⟨_, rfl, hle⟩
        omega
    · rw [if_neg ho, Except.ok.injEq]
      constructor
      · rintro rfl
        exact ⟨hmem, rfl, by omega⟩
      · exact fun h => h.2.1
  · rw [if_neg hall]
    constructor
    · intro h
      split at h <;> cases h
    · intro h
      exact absurd (List.all_eq_true.2 h.1) hall

theorem chop_next_column_cases (line : CString) :
    (SEPARATOR ∉ line ∧ chop_next_column line = (line, none)) ∨
      ∃ column line', SEPARATOR ∉ column ∧ line = column ++ SEPARATOR :: line' ∧
        chop_next_column line = (column, some line') := by
  by_cases h : SEPARATOR ∈ line
  · obtain ⟨column, line', rfl, hc⟩ := List.eq_append_cons_of_mem h
    have hf : (column ++ SEPARATOR :: line').takeWhile (· ≠ SEPARATOR) = column :=
      Lines.first_append_nl hc line'
    refine .inr ⟨column, line', hc, rfl, ?_⟩
    rw [chop_next_column, hf, Lines.dropWhile_append_nl hc]
  · have hf : line.takeWhile (· ≠ SEPARATOR) = line := Lines.first_of_notMem h
    refine .inl ⟨h, ?_⟩
    rw [chop_next_column, hf, Lines.dropWhile_of_notMem h]

theorem parse_line_succ (count : Nat) (line : CString) :
    parse_line (count + 1) (some line) =
      (fun row => ⟨trim (chop_next_column line).1 :: row.columns,
        congrArg (· + 1) row.length_columns⟩) <$> parse_line count (chop_next_column line).2 := by
  rw [parse_line]
  generalize chop_next_column line = p
  obtain ⟨column, line'⟩ := p
  cases hr : parse_line count line' <;> simp only [hr] <;> rfl

theorem parse_line_ok (h : (line.splitOn SEPARATOR).length = count) :
    ∃ hl, parse_line count (some line) = .ok ⟨(line.splitOn SEPARATOR).map trim, hl⟩ := by
  induction count generalizing line with
  | zero => exact absurd (List.eq_nil_of_length_eq_zero h) (List.splitOn_ne_nil SEPARATOR line)
  | succ count ih =>
    rw [parse_line_succ]
    rcases chop_next_column_cases line with ⟨hn, hc⟩ | ⟨column, line', hn, rfl, hc⟩
    · rw [List.splitOn_eq_singleton hn] at h ⊢
      obtain rfl : count = 0 := (Nat.succ_inj.1 h).symm
      rw [hc]
      exact ⟨rfl, rfl⟩
    · rw [List.splitOn_append_cons_self_of_not_mem hn] at h ⊢
      obtain ⟨hl, he⟩ := ih (Nat.succ_inj.1 h)
      rw [hc, he]
      exact ⟨congrArg (· + 1) hl, rfl⟩

theorem parse_line_error (h : (line.splitOn SEPARATOR).length ≠ count) :
    parse_line count (some line) =
      .error (if (line.splitOn SEPARATOR).length < count then .too_few_columns
        else .too_many_columns) := by
  induction count generalizing line with
  | zero => rw [parse_line, if_neg (Nat.not_lt_zero _)]
  | succ count ih =>
    rw [parse_line_succ]
    rcases chop_next_column_cases line with ⟨hn, hc⟩ | ⟨column, line', hn, rfl, hc⟩
    · rw [List.splitOn_eq_singleton hn] at h ⊢
      rw [hc]
      cases count with
      | zero => exact absurd rfl h
      | succ count =>
        rw [parse_line, List.length_singleton, if_pos (by omega)]
        rfl
    · rw [List.splitOn_append_cons_self_of_not_mem hn, List.length_cons] at h ⊢
      rw [hc, ih (by omega)]
      simp only [Nat.add_lt_add_iff_right, error_map]

theorem parse_number_ok_iff {max x : Nat} (hmax : 9 ≤ max) (row : Columns 4) (i : Fin 4) :
    parse_number max row i = .ok x ↔
      (∀ c ∈ row.get i, Decimal.isDigit c = true) ∧ Decimal.value (row.get i) = x ∧ x ≤ max := by
  rw [← parse_unsigned_integer_ok_iff hmax, parse_number]
  cases parse_unsigned_integer max 0 (row.get i) with
  | ok y => simp only [Except.ok.injEq]
  | error fault => simp only [reduceCtorEq]

def IsNumber (text : CString) (x : Nat) : Prop :=
  (∀ c ∈ text, Decimal.isDigit c = true) ∧ Decimal.value text = x

theorem parse_row_columns {c₁ c₂ c₃ c₄ : CString}
    (h : line.splitOn SEPARATOR = [c₁, c₂, c₃, c₄]) :
    parse_row line = parse_helper ⟨[trim c₁, trim c₂, trim c₃, trim c₄], rfl⟩ := by
  have hlen : (line.splitOn SEPARATOR).length = 4 := by
    rw [h]
    rfl
  obtain ⟨hl, he⟩ := parse_line_ok hlen
  rw [parse_row, he, ok_bind]
  congr 2
  rw [h]
  rfl

theorem parse_helper_ok_iff {row : Columns 4} {machine : Machine} :
    parse_helper row = .ok machine ↔
      IsNumber (row.get 0) machine.articleNumber.toNat ∧ machine.name = row.get 1 ∧
        machine.fileName = row.get 2 ∧ IsNumber (row.get 3) machine.version.toNat := by
  have hlt := machine.articleNumber.toNat_lt
  have hlt' := machine.version.toNat_lt
  constructor
  · intro h
    obtain ⟨a, ha, h⟩ := bind_ok h
    obtain ⟨v, hv, h⟩ := bind_ok h
    obtain ⟨had, hae, hale⟩ := (parse_number_ok_iff (by decide) row 0).1 ha
    obtain ⟨hvd, hve, hvle⟩ := (parse_number_ok_iff (by decide) row 3).1 hv
    cases h
    refine ⟨⟨had, ?_⟩, rfl, rfl, hvd, ?_⟩
    · rw [hae, UInt64.toNat_ofNat', Nat.mod_eq_of_lt (by omega)]
    · rw [hve, UInt8.toNat_ofNat', Nat.mod_eq_of_lt (by omega)]
  · rintro ⟨⟨had, hae⟩, hname, hfile, hvd, hve⟩
    have ha : parse_number (2 ^ 64 - 1) row 0 = .ok machine.articleNumber.toNat :=
      (parse_number_ok_iff (by decide) row 0).2 ⟨had, hae, by omega⟩
    have hv : parse_number (2 ^ 8 - 1) row 3 = .ok machine.version.toNat :=
      (parse_number_ok_iff (by decide) row 3).2 ⟨hvd, hve, by omega⟩
    rw [parse_helper, ha, ok_bind, hv, ok_bind, ← hname, ← hfile, UInt64.ofNat_toNat,
      UInt8.ofNat_toNat]
    rfl

theorem parse_row_ok_iff {machine : Machine} :
    parse_row line = .ok machine ↔
      ∃ articleNumber name fileName version,
        line.splitOn SEPARATOR = [articleNumber, name, fileName, version] ∧
        IsNumber (trim articleNumber) machine.articleNumber.toNat ∧
        machine.name = trim name ∧ machine.fileName = trim fileName ∧
        IsNumber (trim version) machine.version.toNat := by
  constructor
  · intro h
    by_cases hlen : (line.splitOn SEPARATOR).length = 4
    · obtain ⟨c₁, c₂, c₃, c₄, hs⟩ := List.length_eq_four.1 hlen
      rw [parse_row_columns hs] at h
      exact ⟨c₁, c₂, c₃, c₄, hs, parse_helper_ok_iff.1 h⟩
    · rw [parse_row, parse_line_error hlen] at h
      cases h
  · rintro ⟨c₁, c₂, c₃, c₄, hs, h⟩
    rw [parse_row_columns hs]
    exact parse_helper_ok_iff.2 h

end JuttaProto
