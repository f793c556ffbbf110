import JuttaProto.CsvReader

namespace JuttaProto
open Lines Run
set_option autoImplicit true

def rowOf (line : Bytes) : Except RowFault Machine := parse_row (lineText line)

def RowTells (line : Bytes) (machine : Machine) : Prop :=
  ∃ articleNumber name fileName version,
    (lineText line).splitOn SEPARATOR = [articleNumber, name, fileName, version] ∧
    IsNumber (trim articleNumber) machine.articleNumber.toNat ∧
    machine.name = trim name ∧ machine.fileName = trim fileName ∧
    IsNumber (trim version) machine.version.toNat

theorem rowOf_ok_iff {machine : Machine} : rowOf line = .ok machine ↔ RowTells line machine :=
  parse_row_ok_iff

/-- What the loop over the rows makes of the lines that are left, of which the first one has the
number after `file_line`. -/
def rowsOf (n : Nat) (file_name : CString) :
    Nat → List Machine → List Bytes → Except CsvFault (List Machine)
  | _, result, [] => .ok result
  | file_line, result, l :: ls =>
    if n ≤ l.length then
      .error (.line_length_limit_exceeded file_name (UInt32.ofNat (file_line + 1)))
    else match rowOf l with
      | .ok machine => rowsOf n file_name (file_line + 1) (emplace result machine) ls
      | .error fault => .error (fault.located file_name (UInt32.ofNat (file_line + 1)))

theorem ofNat_succ {line : UInt32} (h : line = UInt32.ofNat m) :
    line + 1 = UInt32.ofNat (m + 1) := by
  rw [h, UInt32.ofNat_add]
  rfl

theorem LineReader.Inv.read_rows {r : LineReader n} (h : r.Inv)
    (hl : r.file_line = UInt32.ofNat m) {rounds : Nat}
    (hr : (lines NEWLINE r.pending).length < rounds) (result : List Machine) :
    JuttaProto.read_rows rounds r result =
      rowsOf n r.file_name m result (lines NEWLINE r.pending) := by
  induction rounds generalizing r m result with
  | zero => omega
  | succ rounds ih =>
    rw [JuttaProto.read_rows, LineReader.read_row]
    by_cases hp : r.pending = []
    · rw [h.next_line_end hp, hp]
      rfl
    · rw [lines_eq hp, List.length_cons] at hr
      rw [lines_eq hp, rowsOf]
      by_cases hn : n ≤ (first NEWLINE r.pending).length
      · rw [h.next_line_error hp hn, if_pos hn, ofNat_succ hl]
        rfl
      · obtain ⟨r', hs, hinv, hpending, hname, hline⟩ := h.next_line_ok hp (by omega)
        have hline' := hline.trans (ofNat_succ hl)
        rw [hs, if_neg hn]
        cases hrow : rowOf (first NEWLINE r.pending) with
        | error fault =>
          rw [rowOf] at hrow
          simp only [ok_bind, hrow, hname, hline']
          rfl
        | ok machine =>
          rw [rowOf] at hrow
          simp only [ok_bind, hrow]
          have hr' := ih hinv hline' (by rw [hpending]; omega) (emplace result machine)
          rw [hpending, hname] at hr'
          exact hr'

def tableOf (n : Nat) (file_name : CString) : List Bytes → Except CsvFault (List Machine)
  | [] => .ok []
  | header :: rows =>
    if n ≤ header.length then .error (.line_length_limit_exceeded file_name 1)
    else rowsOf n file_name 1 [] rows

theorem length_withoutMark_le (content : Bytes) :
    (withoutMark content).length ≤ content.length := by
  rw [withoutMark]
  split
  · rw [List.length_drop]
    omega
  · exact Nat.le_refl _

theorem load_machines_eq (hn : 2 ≤ n) (path : CString) (memory : Buffer UInt8 (3 * n))
    (content : Bytes) :
    load_machines path memory (.ok content) =
      tableOf n (path.take max_file_name_length) (lines NEWLINE (withoutMark content)) := by
  obtain ⟨r, hi, hinv, hpending, hname, hline⟩ := init_ok hn path memory content
  have hlen := length_withoutMark_le content
  rw [load_machines, hi, ok_bind, ← hname, ← hpending]
  rw [← hpending] at hlen
  by_cases hp : r.pending = []
  · have hrounds : (lines NEWLINE r.pending).length < content.length + 1 := by
      rw [hp, lines, List.length_nil]
      omega
    have hr := hinv.read_rows (m := 0) hline hrounds []
    rw [hinv.next_line_end hp, ok_bind]
    refine hr.trans ?_
    rw [hp]
    rfl
  · have hle := length_lines_le NEWLINE (rest NEWLINE r.pending)
    have hlt := length_rest_lt NEWLINE hp
    rw [lines_eq hp, tableOf]
    by_cases hlong : n ≤ (first NEWLINE r.pending).length
    · rw [hinv.next_line_error hp hlong, if_pos hlong, hline]
      rfl
    · obtain ⟨r', hs, hinv', hpending', hname', hline'⟩ := hinv.next_line_ok hp (by omega)
      have hrounds : (lines NEWLINE r'.pending).length < content.length + 1 := by
        rw [hpending']
        omega
      have hr := hinv'.read_rows (m := 1) (by rw [hline', hline]; rfl) hrounds []
      rw [hs, if_neg hlong, ok_bind]
      refine hr.trans ?_
      rw [hpending', hname']

theorem rowsOf_ok_iff {result table : List Machine} :
    rowsOf n file_name file_line result ls = .ok table ↔
      (∀ l ∈ ls, l.length < n) ∧
        ∃ machines, List.Forall₂ RowTells ls machines ∧
          table = machines.foldl emplace result := by
  induction ls generalizing file_line result with
  | nil =>
    rw [rowsOf, Except.ok.injEq]
    constructor
    · rintro rfl
      exact ⟨fun _ hl => absurd hl List.not_mem_nil, [], .nil, rfl⟩
    · rintro ⟨_, machines, hm, rfl⟩
      cases hm
      rfl
  | cons l ls ih =>
    rw [rowsOf, List.forall_mem_cons]
    by_cases hn : n ≤ l.length
    · rw [if_pos hn]
      constructor
      · intro h
        cases h
      · intro h
        omega
    · rw [if_neg hn]
      cases hrow : rowOf l with
      | error fault =>
        constructor
        · intro h
          cases h
        · rintro ⟨_, machines, hm, _⟩
          cases hm with
          | cons hm _ =>
            rw [← rowOf_ok_iff, hrow] at hm
            cases hm
      | ok machine =>
        simp only [ih]
        constructor
        · rintro ⟨hls, machines, hm, ht⟩
          exact ⟨⟨by omega, hls⟩, machine :: machines, .cons (rowOf_ok_iff.1 hrow) hm, ht⟩
        · rintro ⟨⟨_, hls⟩, machines, hm, ht⟩
          cases hm with
          | cons hm hms =>
            rw [← rowOf_ok_iff, hrow] at hm
            cases hm
            exact ⟨hls, _, hms, ht⟩

theorem tableOf_ok_iff {table : List Machine} :
    tableOf n file_name ls = .ok table ↔
      (∀ l ∈ ls, l.length < n) ∧
        ∃ machines, List.Forall₂ RowTells ls.tail machines ∧ table = machines.foldl emplace [] := by
  cases ls with
  | nil =>
    have h : rowsOf n file_name 0 [] [] = .ok table ↔ _ := rowsOf_ok_iff
    exact h
  | cons header rows =>
    rw [tableOf, List.forall_mem_cons, List.tail_cons]
    by_cases hlong : n ≤ header.length
    · rw [if_pos hlong]
      constructor
      · intro h
        cases h
      · intro h
        omega
    · rw [if_neg hlong, rowsOf_ok_iff]
      constructor
      · exact fun h => ⟨⟨by omega, h.1⟩, h.2⟩
      · exact fun h => ⟨h.1.2, h.2⟩

def lineFault (n : Nat) (file_name : CString) (number : Nat) (line : Bytes) : Option CsvFault :=
  if n ≤ line.length then
    some (.line_length_limit_exceeded file_name (UInt32.ofNat number))
  else if number = 1 then none
  else match rowOf line with
    | .ok _ => none
    | .error fault => some (fault.located file_name (UInt32.ofNat number))

def firstFault (n : Nat) (file_name : CString) : Nat → List Bytes → Option CsvFault
  | _, [] => none
  | number, l :: ls =>
    (lineFault n file_name number l).or (firstFault n file_name (number + 1) ls)

theorem rowsOf_error_iff (hl : file_line ≠ 0) :
    rowsOf n file_name file_line result ls = .error e ↔
      firstFault n file_name (file_line + 1) ls = some e := by
  induction ls generalizing file_line result with
  | nil => simp only [rowsOf, firstFault, reduceCtorEq]
  | cons l ls ih =>
    have hne : ¬file_line + 1 = 1 := by omega
    rw [rowsOf, firstFault, lineFault]
    by_cases hn : n ≤ l.length
    · rw [if_pos hn, if_pos hn, Option.some_or, Except.error.injEq, Option.some.injEq]
    · rw [if_neg hn, if_neg hn, if_neg hne]
      cases rowOf l with
      | ok machine => exact ih (by omega)
      | error fault => simp only [Option.some_or, Except.error.injEq, Option.some.injEq]

/-- The file is loaded exactly when all its lines are short and all but the first tell of a
machine. -/
theorem load_machines_ok_iff (hn : 2 ≤ n) (path : CString) (memory : Buffer UInt8 (3 * n))
    (content : Bytes) (table : List Machine) :
    load_machines path memory (.ok content) = .ok table ↔
      (∀ l ∈ lines NEWLINE (withoutMark content), l.length < n) ∧
        ∃ machines, List.Forall₂ RowTells (lines NEWLINE (withoutMark content)).tail machines ∧
          table = machines.foldl emplace [] := by
  rw [load_machines_eq hn, tableOf_ok_iff]

theorem load_machines_ok_example :
    load_machines (cstr "JOE_MACHINES.TXT") (exampleMemory 32)
        (.ok (cstr "Article\n15084; S8 ;EF536;1\r\n3;;;")) =
      .ok [⟨15084, cstr "S8", cstr "EF536", 1⟩, ⟨3, [], [], 0⟩] := by
  refine (load_machines_ok_iff (by decide) _ _ _ _).2 ⟨by decide,
    [⟨15084, cstr "S8", cstr "EF536", 1⟩, ⟨3, [], [], 0⟩], .cons ?_ (.cons ?_ .nil), by decide⟩
  · exact rowOf_ok_iff.1 (by decide)
  · exact rowOf_ok_iff.1 (by decide)

/-- Otherwise the first line with which something is wrong is reported, and its number. -/
theorem load_machines_error_iff (hn : 2 ≤ n) (path : CString) (memory : Buffer UInt8 (3 * n))
    (content : Bytes) (e : CsvFault) :
    load_machines path memory (.ok content) = .error e ↔
      firstFault n (path.take max_file_name_length) 1 (lines NEWLINE (withoutMark content)) =
        some e := by
  rw [load_machines_eq hn]
  cases lines NEWLINE (withoutMark content) with
  | nil => simp only [tableOf, firstFault, reduceCtorEq]
  | cons header rows =>
    rw [tableOf, firstFault, lineFault]
    by_cases hlong : n ≤ header.length
    · rw [if_pos hlong, if_pos hlong, Option.some_or, Except.error.injEq, Option.some.injEq]
      rfl
    · rw [if_neg hlong, if_neg hlong, if_pos rfl, Option.none_or, rowsOf_error_iff (by decide)]

theorem load_machines_error_example :
    load_machines (cstr "JOE_MACHINES.TXT") (exampleMemory 32)
        (.ok (cstr "Article\n15084;S8;EF536;256\n3")) =
      .error (.integer_overflow (cstr "JOE_MACHINES.TXT") 2 ⟨cstr "col4", cstr "256"⟩) :=
  (load_machines_error_iff (by decide) _ _ _ _).2 (by decide)

def findArticle (articleNumber : UInt64) (machines : List Machine) : Option Machine :=
  machines.find? fun m => m.articleNumber == articleNumber

theorem findArticle_emplace (articleNumber : UInt64) (result : List Machine) (machine : Machine) :
    findArticle articleNumber (emplace result machine) =
      (findArticle articleNumber result).or (findArticle articleNumber [machine]) := by
  rw [emplace]
  split
  · rename_i hany
    by_cases ha : machine.articleNumber = articleNumber
    · obtain ⟨m, hm, he⟩ := List.any_eq_true.1 hany
      have hsome : (findArticle articleNumber result).isSome = true :=
        List.find?_isSome.2 ⟨m, hm, by rw [← ha]; exact he⟩
      rw [Option.or_of_isSome hsome]
    · have hnone : findArticle articleNumber [machine] = none := by
        rw [findArticle, List.find?_singleton, if_neg (by simpa using ha)]
      rw [hnone, Option.or_none]
  · exact List.find?_append

theorem findArticle_foldl_emplace (articleNumber : UInt64) (machines result : List Machine) :
    findArticle articleNumber (machines.foldl emplace result) =
      (findArticle articleNumber result).or (findArticle articleNumber machines) := by
  induction machines generalizing result with
  | nil => exact (Option.or_none ..).symm
  | cons machine machines ih =>
    have hcons : findArticle articleNumber (machine :: machines) =
        (findArticle articleNumber [machine]).or (findArticle articleNumber machines) := by
      rw [findArticle, findArticle, findArticle, ← List.find?_append]
      rfl
    rw [List.foldl_cons, ih, findArticle_emplace, Option.or_assoc, ← hcons]

theorem emplace_new {result : List Machine}
    (h : machine.articleNumber ∉ result.map (·.articleNumber)) :
    emplace result machine = result ++ [machine] := by
  rw [emplace, if_neg]
  intro hany
  obtain ⟨m, hm, he⟩ := List.any_eq_true.1 hany
  exact h (List.mem_map.2 ⟨m, hm, beq_iff_eq.1 he⟩)

theorem foldl_emplace_of_nodup {machines result : List Machine}
    (h : ((result ++ machines).map (·.articleNumber)).Nodup) :
    machines.foldl emplace result = result ++ machines := by
  induction machines generalizing result with
  | nil => exact (List.append_nil result).symm
  | cons machine machines ih =>
    have hnew : machine.articleNumber ∉ result.map (·.articleNumber) := by
      rw [List.map_append, List.map_cons] at h
      exact fun hm => (List.disjoint_of_nodup_append h) hm List.mem_cons_self
    rw [List.foldl_cons, emplace_new hnew, ih (by rw [List.append_assoc]; exact h),
      List.append_assoc]
    rfl

def writeRow (machine : Machine) : Bytes :=
  Decimal.write machine.articleNumber.toNat ++ SEPARATOR :: (machine.name ++
    SEPARATOR :: (machine.fileName ++ SEPARATOR :: Decimal.write machine.version.toNat))

def writeTable (header : Bytes) (machines : List Machine) : Bytes :=
  unlines NEWLINE (header :: machines.map writeRow)

/-- A text that can stand in a column: no character of it ends the column, the line or the string,
and there are no blanks around it. -/
structure PlainText (text : CString) : Prop where
  separator : SEPARATOR ∉ text
  newline : NEWLINE ∉ text
  nul : 0 ∉ text
  trimmed : trim text = text

theorem trim_eq_self {text : CString} (h : ∀ c ∈ text, is_trim_char c = false) :
    trim text = text := by
  have hdrop : text.dropWhile is_trim_char = text := by
    cases text with
    | nil => rfl
    | cons c text => rw [List.dropWhile_cons, h c List.mem_cons_self, if_neg Bool.false_ne_true]
  rw [trim, hdrop, List.rdropWhile_eq_self_iff]
  intro hne hc
  rw [h _ (List.getLast_mem hne)] at hc
  cases hc

theorem digit_plain : ∀ c : UInt8, Decimal.isDigit c = true →
    c ≠ SEPARATOR ∧ c ≠ NEWLINE ∧ c ≠ 0 ∧ c ≠ CARRIAGE_RETURN ∧ is_trim_char c = false := by
  intro c
  have hc : ∀ n : Fin 256, Decimal.isDigit (UInt8.ofNat n) = true →
      UInt8.ofNat n ≠ SEPARATOR ∧ UInt8.ofNat n ≠ NEWLINE ∧ UInt8.ofNat n ≠ 0 ∧
        UInt8.ofNat n ≠ CARRIAGE_RETURN ∧ is_trim_char (UInt8.ofNat n) = false := by
    decide +kernel
  have hcn := hc ⟨c.toNat, c.toNat_lt⟩
  simp only [UInt8.ofNat_toNat] at hcn
  exact hcn

theorem plainText_number (x : Nat) : PlainText (Decimal.write x) := by
  have hd := (Decimal.write_read x).1
  exact ⟨fun h => (digit_plain _ (hd _ h)).1 rfl, fun h => (digit_plain _ (hd _ h)).2.1 rfl,
    fun h => (digit_plain _ (hd _ h)).2.2.1 rfl,
    trim_eq_self fun c hc => (digit_plain c (hd c hc)).2.2.2.2⟩

def Machine.Plain (machine : Machine) : Prop :=
  PlainText machine.name ∧ PlainText machine.fileName

theorem splitOn_writeRow {machine : Machine} (h : machine.Plain) :
    (writeRow machine).splitOn SEPARATOR = [Decimal.write machine.articleNumber.toNat,
      machine.name, machine.fileName, Decimal.write machine.version.toNat] := by
  rw [writeRow, List.splitOn_append_cons_self_of_not_mem (plainText_number _).separator,
    List.splitOn_append_cons_self_of_not_mem h.1.separator,
    List.splitOn_append_cons_self_of_not_mem h.2.separator,
    List.splitOn_eq_singleton (plainText_number _).separator]

theorem notMem_writeRow {machine : Machine} (hs : c ≠ SEPARATOR)
    (hd : ∀ x, c ∉ Decimal.write x) (hname : c ∉ machine.name) (hfile : c ∉ machine.fileName) :
    c ∉ writeRow machine := by
  simp only [writeRow, List.mem_append, List.mem_cons, not_or]
  exact ⟨hd _, hs, hname, hs, hfile, hs, hd _⟩

theorem lineText_writeRow {machine : Machine} (h : machine.Plain) :
    lineText (writeRow machine) = writeRow machine := by
  have hnul : (0 : UInt8) ∉ writeRow machine := notMem_writeRow (by decide)
    (fun x => (plainText_number x).nul) h.1.nul h.2.nul
  have hlast : (writeRow machine).getLast? ≠ some CARRIAGE_RETURN := by
    have hne : Decimal.write machine.version.toNat ≠ [] := by
      rw [Decimal.write, ne_eq, List.map_eq_nil_iff]
      exact Nat.toDigits_ne_nil
    rcases List.eq_nil_or_concat (Decimal.write machine.version.toNat) with hnil | ⟨ds, d, hw⟩
    · exact absurd hnil hne
    · rw [List.concat_eq_append] at hw
      have hd : d ∈ Decimal.write machine.version.toNat := by
        rw [hw]
        exact List.mem_append_right ds (List.mem_singleton_self d)
      have hdigit := (Decimal.write_read machine.version.toNat).1 d hd
      have hrow : writeRow machine = (Decimal.write machine.articleNumber.toNat ++ SEPARATOR ::
          (machine.name ++ SEPARATOR :: (machine.fileName ++ SEPARATOR :: ds))) ++ [d] := by
        simp only [writeRow, hw, List.append_assoc, List.cons_append]
      rw [hrow, List.getLast?_concat]
      exact fun he => (digit_plain d hdigit).2.2.2.1 (Option.some.inj he)
  rw [lineText, if_neg hlast]
  exact List.takeWhile_eq_self_iff.2 fun c hc => decide_eq_true fun he => hnul (he ▸ hc)

theorem rowTells_writeRow {machine : Machine} (h : machine.Plain) :
    RowTells (writeRow machine) machine := by
  have hnumber (x : Nat) : IsNumber (trim (Decimal.write x)) x := by
    rw [(plainText_number x).trimmed]
    exact Decimal.write_read x
  rw [RowTells, lineText_writeRow h]
  exact ⟨_, _, _, _, splitOn_writeRow h, hnumber _, h.1.trimmed.symm, h.2.trimmed.symm, hnumber _⟩

/-- Without its byte order mark a file still has the same lines after the first one. -/
theorem withoutMark_header (hh : NEWLINE ∉ header) (rows : Bytes) :
    ∃ header', NEWLINE ∉ header' ∧ header'.length ≤ header.length ∧
      withoutMark (header ++ NEWLINE :: rows) = header' ++ NEWLINE :: rows := by
  rw [withoutMark]
  split
  · rename_i hmark
    have hlen : 3 ≤ header.length := by
      refine Nat.le_of_not_lt fun hlt => ?_
      have hget : BYTE_ORDER_MARK[header.length]? = some NEWLINE := by
        rw [← hmark, List.getElem?_take_of_lt hlt, List.getElem?_append_right (Nat.le_refl _),
          Nat.sub_self, List.getElem?_cons_zero]
      have hmem := List.mem_of_getElem? hget
      revert hmem
      decide
    refine ⟨header.drop 3, fun hm => hh (List.mem_of_mem_drop hm), ?_,
      List.drop_append_of_le_length hlen⟩
    rw [List.length_drop]
    omega
  · exact ⟨header, hh, Nat.le_refl _, rfl⟩

/-- A table that is written to a file is loaded from it, whatever the header says. Of the machines
with one article number the first one counts, so that no machine is lost if these are distinct. -/
theorem load_written (hn : 2 ≤ n) (hh : NEWLINE ∉ header) (hlen : header.length < n)
    (hm : ∀ m ∈ machines, m.Plain ∧ (writeRow m).length < n) (path : CString)
    (memory : Buffer UInt8 (3 * n)) :
    load_machines path memory (.ok (writeTable header machines)) =
        .ok (machines.foldl emplace []) ∧
      ((machines.map (·.articleNumber)).Nodup → machines.foldl emplace [] = machines) := by
  apply And.intro _ (@foldl_emplace_of_nodup machines [])
  have hnl : ∀ l ∈ machines.map writeRow, NEWLINE ∉ l := by
    intro l hl
    obtain ⟨m, hmm, rfl⟩ := List.mem_map.1 hl
    exact notMem_writeRow (by decide) (fun x => (plainText_number x).newline)
      (hm m hmm).1.1.newline (hm m hmm).1.2.newline
  have hfile : writeTable header machines =
      header ++ NEWLINE :: unlines NEWLINE (machines.map writeRow) := by
    rw [writeTable, unlines, List.flatMap_cons, List.append_assoc]
    rfl
  obtain ⟨header', hh', hlen', hw⟩ :=
    withoutMark_header hh (unlines NEWLINE (machines.map writeRow))
  rw [load_machines_eq hn, tableOf_ok_iff, hfile, hw, lines_append_nl hh', lines_unlines hnl,
    List.forall_mem_cons, List.tail_cons]
  refine ⟨⟨by omega, fun l hl => ?_⟩, machines, ?_, rfl⟩
  · obtain ⟨m, hmm, rfl⟩ := List.mem_map.1 hl
    exact (hm m hmm).2
  · rw [List.forall₂_map_left_iff, List.forall₂_same]
    exact fun m hmm => rowTells_writeRow (hm m hmm).1

theorem load_written_example :
    load_machines (cstr "machinefiles/JOE_MACHINES.TXT") (exampleMemory block_len)
        (.ok (writeTable (cstr "Article;Name;File;Version")
          [⟨15084, cstr "S8 (EB)", cstr "EF536", 1⟩, ⟨15084, cstr "S8", cstr "EF535", 2⟩])) =
      .ok [⟨15084, cstr "S8 (EB)", cstr "EF536", 1⟩] := by
  have hplain (text : CString) (hs : SEPARATOR ∉ text) (hn : NEWLINE ∉ text) (h0 : 0 ∉ text)
      (ht : trim text = text) : PlainText text := ⟨hs, hn, h0, ht⟩
  refine (load_written (by decide) (by decide) (by decide) (fun m hm => ?_) _ _).1
  rcases List.mem_cons.1 hm with rfl | hm
  · exact ⟨⟨hplain _ (by decide) (by decide) (by decide) (by decide),
      hplain _ (by decide) (by decide) (by decide) (by decide)⟩, by decide⟩
  · rw [List.mem_singleton.1 hm]
    exact ⟨⟨hplain _ (by decide) (by decide) (by decide) (by decide),
      hplain _ (by decide) (by decide) (by decide) (by decide)⟩, by decide⟩

end JuttaProto
