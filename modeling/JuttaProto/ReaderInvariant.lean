import JuttaProto.LineReader

namespace JuttaProto
open Lines Run
set_option autoImplicit true

/-- What the worker has read into the third block, or has still to read. -/
def LineReader.inFlight (r : LineReader n) : Bytes :=
  match r.reader with
  | none => []
  | some reader =>
    match reader.read_byte_count with
    | some count => r.buffer.window (2 * n) count ++ reader.byte_source
    | none => reader.byte_source

def LineReader.unread (r : LineReader n) : Bytes :=
  r.buffer.window r.data_begin (r.data_end - r.data_begin)

def LineReader.pending (r : LineReader n) : Bytes := r.unread ++ r.inFlight

namespace AsynchronousReader

def Asked (n : Nat) (reader : AsynchronousReader) : Prop :=
  reader.desired_byte_count = some n ∧ reader.read_byte_count = none ∧ reader.working = true

def Answered (n count : Nat) (reader : AsynchronousReader) : Prop :=
  reader.desired_byte_count = none ∧ reader.read_byte_count = some count ∧ count ≤ n ∧
    (count < n → reader.byte_source = []) ∧ (count ≠ 0 → reader.working = true)

def Ended (n : Nat) (reader : AsynchronousReader) : Prop :=
  reader.desired_byte_count = some n ∧ reader.read_byte_count = none ∧
    reader.working = false ∧ reader.byte_source = []

end AsynchronousReader

/-- The first two blocks are never used up before the worker has read on, and the worker can end
only when the reader will not ask it again. -/
structure LineReader.Inv (r : LineReader n) : Prop where
  begin_le : r.data_begin ≤ r.data_end
  begin_lt : r.data_begin < 2 * n
  end_le : r.data_end ≤ 2 * n
  full : r.inFlight ≠ [] → r.data_end = 2 * n
  worker : ∀ reader, r.reader = some reader →
    reader.Asked n ∨ (∃ count, reader.Answered n count) ∨
      (reader.Ended n ∧ (r.data_end ≤ n ∨ r.data_begin = r.data_end))

/-- A worker that has not ended reads the block, without touching the first two. -/
theorem work_answers {r : LineReader n} (hr : r.reader = some reader)
    (h : reader.Asked n ∨ ∃ count, reader.Answered n count) :
    ∃ buffer reader' count, r.work = .ok { r with buffer, reader := some reader' } ∧
      reader'.Answered n count ∧ buffer.window 0 (2 * n) = r.buffer.window 0 (2 * n) ∧
      buffer.window (2 * n) count ++ reader'.byte_source = r.inFlight := by
  obtain ⟨buffer, _, data_begin, data_end, file_name, file_line⟩ := r
  cases hr
  rcases h with ⟨hd, hn, hw⟩ | ⟨count, ha⟩
  · have hlen : (reader.byte_source.take n).length ≤ n := List.length_take_le n _
    have hfit : 2 * n + (reader.byte_source.take n).length ≤ 3 * n := by omega
    refine ⟨buffer.patch (2 * n) (reader.byte_source.take n) hfit, reader.read n,
      (reader.byte_source.take n).length, ?_, ⟨rfl, rfl, hlen, fun hlt => ?_, fun h0 => ?_⟩, ?_, ?_⟩
    rotate_left
    · rw [List.length_take] at hlt
      exact List.drop_of_length_le (by omega)
    · exact bne_iff_ne.2 h0
    · exact buffer.window_patch_before hfit (by omega)
    · rw [buffer.window_patch hfit, LineReader.inFlight]
      simp only [hn]
      exact List.take_append_drop n reader.byte_source
    · simp only [LineReader.work, hd, hw, ↓reduceIte, buffer.store_ok hfit, inside_some, ok_bind]
      rfl
  · obtain ⟨hd, hn, _⟩ := id ha
    refine ⟨buffer, reader, count, ?_, ha, rfl, ?_⟩
    · simp only [LineReader.work, hd]
    · simp only [LineReader.inFlight, hn]

theorem finish_read_ok {r : LineReader n} (hr : r.reader = some reader)
    (h : reader.Asked n ∨ ∃ count, reader.Answered n count) :
    ∃ buffer reader' count,
      r.finish_read = .ok ({ r with buffer, reader := some reader' }, count) ∧
      reader'.Answered n count ∧ buffer.window 0 (2 * n) = r.buffer.window 0 (2 * n) ∧
      buffer.window (2 * n) count ++ reader'.byte_source = r.inFlight := by
  obtain ⟨buffer, reader', count, hw, ha, hb⟩ := work_answers hr h
  refine ⟨buffer, reader', count, ?_, ha, hb⟩
  rw [LineReader.finish_read, hw, ok_bind]
  simp only [Option.bind_some, ha.2.1]
  rfl

theorem LineReader.Inv.asked {r : LineReader n} {reader : AsynchronousReader} (h : r.Inv)
    (hr : r.reader = some reader) (hn : n < r.data_end) (hlt : r.data_begin < r.data_end) :
    reader.Asked n ∨ ∃ count, reader.Answered n count := by
  rcases h.worker reader hr with ha | ha | ⟨_, hd | hd⟩
  · exact .inl ha
  · exact .inr ha
  · omega
  · omega

structure Shifted (r r' : LineReader n) : Prop where
  inv : r'.Inv
  pending : r'.pending = r.pending
  data_begin : r'.data_begin = r.data_begin - n
  lt : r'.data_begin < r'.data_end
  file_name : r'.file_name = r.file_name
  file_line : r'.file_line = r.file_line

theorem LineReader.Inv.shift {r : LineReader n} (h : r.Inv) (hb : n ≤ r.data_begin)
    (hlt : r.data_begin < r.data_end) : ∃ r', r.shift = .ok r' ∧ Shifted r r' := by
  obtain ⟨buffer, reader, i, j, file_name, file_line⟩ := r
  have hj : j ≤ 2 * n := h.end_le
  have hload := buffer.load_ok n n (by omega)
  have hlen : (buffer.window n n).length = n := buffer.window_length (by omega)
  have hfit : 0 + (buffer.window n n).length ≤ 3 * n := by omega
  have hfirst : (buffer.patch 0 (buffer.window n n) hfit).window 0 n = buffer.window n n := by
    have hw := buffer.window_patch hfit
    rw [hlen] at hw
    exact hw
  have hthird : ∀ count, (buffer.patch 0 (buffer.window n n) hfit).window (2 * n) count =
      buffer.window (2 * n) count := fun count => buffer.window_patch_after hfit (by omega)
  simp only at hb hlt
  have hi : n + (i - n) = i := by omega
  have hij : i - n + (j - i) = j - n := by omega
  simp only [LineReader.shift, hload, buffer.store_ok hfit, inside_some, ok_bind]
  have hkept : ∀ b : Buffer UInt8 (3 * n), b.window 0 n = buffer.window n n →
      b.window (i - n) (j - i) = buffer.window i (j - i) := by
    intro b hw
    have hc := Buffer.window_congr hw (j := i - n) (l := j - i) (by omega)
    rw [Nat.zero_add, hi] at hc
    exact hc
  cases reader with
  | none =>
    refine ⟨_, rfl, ?_, ?_, rfl, ?_, rfl, rfl⟩
    · exact ⟨by change i - n ≤ j - n; omega, by change i - n < 2 * n; omega,
        by change j - n ≤ 2 * n; omega, fun hf => absurd rfl hf, fun _ hr => by cases hr⟩
    · have hsize : j - n - (i - n) = j - i := by omega
      simp only [LineReader.pending, LineReader.unread, LineReader.inFlight, hsize, hkept _ hfirst]
    · change i - n < j - n
      omega
  | some reader =>
    have ha := h.asked rfl (by change n < j; omega) hlt
    obtain ⟨b, reader', count, hread, ha', hbelow, hflight⟩ := finish_read_ok (n := n)
      (r := ⟨buffer.patch 0 (buffer.window n n) hfit, some reader, i - n, j - n, file_name,
        file_line⟩) rfl ha
    have hload' := b.load_ok (2 * n) n (by omega)
    have hlen' : (b.window (2 * n) n).length = n := b.window_length (by omega)
    have hfit' : n + (b.window (2 * n) n).length ≤ 3 * n := by omega
    have hflight' : b.window (2 * n) count ++ reader'.byte_source =
        LineReader.inFlight ⟨buffer, some reader, i, j, file_name, file_line⟩ := by
      rw [hflight]
      simp only [LineReader.inFlight, hthird]
    obtain ⟨hdesired, hcount, hle, hend, hworking⟩ := ha'
    have hfull : count ≠ 0 → j = 2 * n := by
      intro h0
      refine h.full fun he => h0 ?_
      rw [he] at hflight'
      have hl := congrArg List.length (List.append_eq_nil_iff.1 hflight').1
      rw [b.window_length (by omega)] at hl
      exact hl
    simp only [Option.isSome_some, ↓reduceIte, hread, ok_bind, hload', b.store_ok hfit',
      inside_some]
    refine ⟨_, rfl, ?_, ?_, rfl, ?_, rfl, rfl⟩
    · refine ⟨by change i - n ≤ j - n + count; omega, by change i - n < 2 * n; omega,
        by change j - n + count ≤ 2 * n; omega, fun hf => ?_, fun reader'' hr => ?_⟩
      · have hn : ¬count < n := fun hn => hf (hend hn)
        have hj' := hfull (by omega)
        change j - n + count = 2 * n
        omega
      · cases hr
        cases hw : reader'.working with
        | true => exact .inl ⟨rfl, rfl, hw⟩
        | false =>
          have h0 : count = 0 := by
            refine Decidable.byContradiction fun h0 => ?_
            rw [hworking h0] at hw
            cases hw
          refine .inr (.inr ⟨⟨rfl, rfl, hw, hend (by omega)⟩, .inl ?_⟩)
          change j - n + count ≤ n
          omega
    · have hsize : j - n + count - (i - n) = (j - i) + count := by omega
      have hbefore : (b.patch n (b.window (2 * n) n) hfit').window 0 n = buffer.window n n := by
        have hc := Buffer.window_congr_below hbelow (j := 0) (l := n) (by omega)
        rw [b.window_patch_before hfit' (by omega), hc, hfirst]
      have hblock : (b.patch n (b.window (2 * n) n) hfit').window (j - n) count =
          b.window (2 * n) count := by
        by_cases h0 : count = 0
        · rw [h0, Buffer.window_zero, Buffer.window_zero]
        · have hw := b.window_patch hfit'
          rw [hlen'] at hw
          have hj' : j - n = n := by
            have := hfull h0
            omega
          rw [hj']
          exact Buffer.window_congr hw (j := 0) (by omega)
      rw [LineReader.pending, LineReader.pending, ← hflight']
      simp only [LineReader.unread, hsize, Buffer.window_append, hkept _ hbefore, hij, hblock,
        List.append_assoc]
      rfl
    · change i - n < j - n + count
      omega

/-- A line as it is returned: without a carriage return at its end, and up to its first NUL. -/
def lineText (line : Bytes) : CString :=
  (if line.getLast? = some CARRIAGE_RETURN then line.dropLast else line).takeWhile (· ≠ 0)

theorem end_line_ok {buffer : Buffer UInt8 size} (hi : i + l.length < size)
    (hl : buffer.window i l.length = l) :
    ∃ b, end_line buffer i (i + l.length) = .ok b ∧ b.runOf (· ≠ 0) i = lineText l ∧
      ∀ k count, i + l.length < k → b.window k count = buffer.window k count := by
  have hfit : i + l.length + [(0 : UInt8)].length ≤ size := hi
  have hzero := buffer.window_patch hfit
  have hafter : ∀ k count, i + l.length < k →
      (buffer.patch (i + l.length) [0] hfit).window k count = buffer.window k count :=
    fun k count hk => buffer.window_patch_after hfit hk
  have hline : (buffer.patch (i + l.length) [0] hfit).window i l.length = l :=
    (buffer.window_patch_before hfit (Nat.le_refl _)).trans hl
  have hstop : decide ((0 : UInt8) ≠ 0) = false := rfl
  rw [end_line, buffer.store_ok hfit, inside_some, ok_bind]
  generalize buffer.patch (i + l.length) [0] hfit = b at hzero hafter hline
  have hkeep : b.runOf (· ≠ 0) i = l.takeWhile (· ≠ 0) := by
    rw [b.runOf_eq hzero hstop, hline]
  rcases List.eq_nil_or_concat l with hnil | ⟨l', c, hc⟩
  · refine ⟨b, ?_, ?_, hafter⟩
    · rw [hnil, List.length_nil, if_neg (by omega), ok_bind]
      rfl
    · rw [hkeep, hnil]
      rfl
  · rw [List.concat_eq_append] at hc
    have hlen : l.length = l'.length + 1 := by
      rw [hc]
      exact List.length_append
    have hsplit : b.window i l'.length = l' ∧ b.window (i + l'.length) 1 = [c] := by
      rw [hlen, Buffer.window_append] at hline
      exact List.append_inj (hline.trans hc) (b.window_length (by omega))
    have hpred : i + l.length - 1 = i + l'.length := by omega
    have hload := b.load_ok (i + l'.length) 1 (by omega)
    have hlast : l.getLast? = some c := by rw [hc, List.getLast?_concat]
    rw [if_pos (by omega), hpred, hload, hsplit.2, inside_some]
    by_cases hcr : c = CARRIAGE_RETURN
    · have hfit' : i + l'.length + [(0 : UInt8)].length ≤ size := by
        change i + l'.length + 1 ≤ size
        omega
      refine ⟨b.patch (i + l'.length) [0] hfit', ?_, ?_, fun k count hk => ?_⟩
      · rw [hcr, b.store_ok hfit']
        rfl
      · have hl' : (b.patch (i + l'.length) [0] hfit').window i l'.length = l' :=
          (b.window_patch_before hfit' (Nat.le_refl _)).trans hsplit.1
        rw [Buffer.runOf_eq _ (b.window_patch hfit') hstop, hl', lineText, hlast, hcr,
          if_pos rfl, hc, List.dropLast_concat]
      · have hk' : i + l'.length + 1 ≤ k := by omega
        exact (b.window_patch_after hfit' hk').trans (hafter k count hk)
    · have hne : ([c] == [CARRIAGE_RETURN]) = false := by simpa using hcr
      refine ⟨b, ?_, ?_, hafter⟩
      · change (if ([c] == [CARRIAGE_RETURN]) = true then _ else _) = _
        rw [hne]
        rfl
      · rw [hkeep, lineText, hlast, if_neg (by simpa using hcr)]

theorem LineReader.Inv.length_unread {r : LineReader n} (h : r.Inv) :
    r.unread.length = r.data_end - r.data_begin :=
  r.buffer.window_length (by have := h.begin_le; have := h.end_le; omega)

/-- The first line of what is left is found in the buffer, or is too long for it. -/
theorem LineReader.Inv.first_line {r : LineReader n} (h : r.Inv) (hb : r.data_begin < n) :
    (n ≤ (first NEWLINE r.unread).length ∧ n ≤ (first NEWLINE r.pending).length) ∨
      ((first NEWLINE r.unread).length < n ∧ first NEWLINE r.pending = first NEWLINE r.unread ∧
        ((r.unread = first NEWLINE r.unread ∧ r.inFlight = [] ∧ rest NEWLINE r.pending = []) ∨
          (r.unread = first NEWLINE r.unread ++ NEWLINE :: rest NEWLINE r.unread ∧
            rest NEWLINE r.pending = rest NEWLINE r.unread ++ r.inFlight))) := by
  have hlen := h.length_unread
  rw [LineReader.pending]
  by_cases hm : NEWLINE ∈ r.unread
  · obtain ⟨l, t, hu, hl⟩ := List.eq_append_cons_of_mem hm
    rw [hu, List.append_assoc, List.cons_append, first_append_nl hl, first_append_nl hl,
      rest_append_nl hl, rest_append_nl hl]
    by_cases hn : n ≤ l.length
    · exact .inl ⟨hn, hn⟩
    · exact .inr ⟨by omega, rfl, .inr ⟨rfl, rfl⟩⟩
  · rw [first_of_notMem hm, first_append_of_notMem hm, List.length_append]
    by_cases hf : r.inFlight = []
    · rw [hf, List.append_nil, first_of_notMem List.not_mem_nil, List.append_nil,
        rest_of_notMem hm]
      by_cases hn : n ≤ r.unread.length
      · exact .inl ⟨hn, by rw [List.length_nil, Nat.add_zero]; exact hn⟩
      · exact .inr ⟨by omega, rfl, .inl ⟨rfl, rfl, rfl⟩⟩
    · have := h.full hf
      exact .inl ⟨by omega, by omega⟩

structure Cut (r r' : LineReader n) : Prop where
  inv : r'.Inv
  pending : r'.pending = rest NEWLINE r.pending
  file_name : r'.file_name = r.file_name
  file_line : r'.file_line = r.file_line

theorem LineReader.Inv.scan {r : LineReader n} (h : r.Inv) :
    r.buffer.scan (· ≠ NEWLINE) (r.data_end - r.data_begin) r.data_begin =
      some (r.data_begin + (first NEWLINE r.unread).length) :=
  r.buffer.scan_ok _ (by have := h.begin_le; have := h.end_le; omega)

theorem LineReader.Inv.cut_line_error {r : LineReader n} (h : r.Inv) (hb : r.data_begin < n)
    (hn : n ≤ (first NEWLINE r.pending).length) :
    r.cut_line = .error (.line_length_limit_exceeded r.file_name r.file_line) := by
  have hl : n ≤ (first NEWLINE r.unread).length := by
    rcases h.first_line hb with ⟨hl, _⟩ | ⟨hl, he, _⟩
    · exact hl
    · rw [he] at hn
      exact hn
  rw [LineReader.cut_line, h.scan, inside_some, ok_bind, if_pos (by omega)]

theorem LineReader.Inv.cut_line_ok {r : LineReader n} (h : r.Inv) (hb : r.data_begin < n)
    (hn : (first NEWLINE r.pending).length < n) :
    ∃ r', r.cut_line = .ok (lineText (first NEWLINE r.pending), r') ∧ Cut r r' := by
  have hbegin := h.begin_le
  have hend := h.end_le
  have hlen := h.length_unread
  rcases h.first_line hb with ⟨_, hl⟩ | ⟨hl, he, hcases⟩
  · omega
  rw [he]
  generalize hline : first NEWLINE r.unread = l at *
  have hprefix : r.unread.take l.length = l := by
    rcases hcases with ⟨hu, _⟩ | ⟨hu, _⟩
    · rw [hu, List.take_length]
    · rw [hu, List.take_left]
  have hlt : l.length ≤ r.data_end - r.data_begin := by
    have hl' := congrArg List.length hprefix
    rw [List.length_take] at hl'
    omega
  have hwindow : r.buffer.window r.data_begin l.length = l :=
    (r.buffer.window_sub r.data_begin (j := 0) (by omega)).trans hprefix
  obtain ⟨b, hb', htext, hafter⟩ := end_line_ok (by omega) hwindow
  have hflight : LineReader.inFlight { r with buffer := b } = r.inFlight := by
    simp only [LineReader.inFlight, hafter (2 * n) _ (by omega)]
  have hshort : ¬n < r.data_begin + l.length - r.data_begin + 1 := by omega
  rcases hcases with ⟨hu, hnone, hrest⟩ | ⟨hu, hrest⟩
  · have hlast : ¬r.data_begin + l.length ≠ r.data_end := by
      rw [← hu, hlen]
      omega
    have hcut : r.cut_line = .ok (lineText l, { r with
        buffer := b, data_begin := r.data_begin + l.length + 1, data_end := r.data_end + 1 }) := by
      simp only [LineReader.cut_line, h.scan, hline, inside_some, ok_bind, if_neg hshort,
        if_neg hlast, hb', htext]
      rfl
    refine ⟨_, hcut, ⟨?_, ?_, ?_, fun hf => absurd (hflight.trans hnone) hf,
      fun reader hr => ?_⟩, ?_, rfl, rfl⟩
    · change r.data_begin + l.length + 1 ≤ r.data_end + 1
      omega
    · change r.data_begin + l.length + 1 < 2 * n
      omega
    · change r.data_end + 1 ≤ 2 * n
      omega
    · rcases h.worker reader hr with ha | ha | ⟨ha, _⟩
      · exact .inl ha
      · exact .inr (.inl ha)
      · refine .inr (.inr ⟨ha, .inr ?_⟩)
        change r.data_begin + l.length + 1 = r.data_end + 1
        omega
    · have hsize : r.data_end + 1 - (r.data_begin + l.length + 1) = 0 := by omega
      have hnil : LineReader.inFlight { r with buffer := b } = [] := hflight.trans hnone
      rw [hrest, LineReader.pending]
      simp only [LineReader.unread, hsize, Buffer.window_zero, List.nil_append]
      exact hnil
  · have hu' := congrArg List.length hu
    rw [List.length_append, List.length_cons, hlen] at hu'
    have hsum : r.data_end - r.data_begin =
        l.length + (1 + (r.data_end - (r.data_begin + l.length + 1))) := by omega
    have hall : r.buffer.window r.data_begin (r.data_end - r.data_begin) =
        l ++ ([NEWLINE] ++ rest NEWLINE r.unread) := hu
    rw [hsum, Buffer.window_append, hwindow, Buffer.window_append] at hall
    have hone := List.append_inj (List.append_cancel_left hall)
      (r.buffer.window_length (by omega))
    have hload := r.buffer.load_ok (r.data_begin + l.length) 1 (by omega)
    have hne : r.data_begin + l.length ≠ r.data_end := by omega
    have hcut : r.cut_line = .ok (lineText l, { r with
        buffer := b, data_begin := r.data_begin + l.length + 1 }) := by
      simp only [LineReader.cut_line, h.scan, hline, inside_some, ok_bind, if_neg hshort,
        if_pos hne, hload, hone.1, hb', htext]
      rfl
    refine ⟨_, hcut, ⟨?_, ?_, hend, fun hf => h.full fun he' => hf (hflight.trans he'),
      fun reader hr => ?_⟩, ?_, rfl, rfl⟩
    · change r.data_begin + l.length + 1 ≤ r.data_end
      omega
    · change r.data_begin + l.length + 1 < 2 * n
      omega
    · rcases h.worker reader hr with ha | ha | ⟨ha, hd⟩
      · exact .inl ha
      · exact .inr (.inl ha)
      · refine .inr (.inr ⟨ha, .inl ?_⟩)
        change r.data_end ≤ n
        omega
    · have hsame : b.window (r.data_begin + l.length + 1)
          (r.data_end - (r.data_begin + l.length + 1)) = rest NEWLINE r.unread :=
        (hafter _ _ (by omega)).trans hone.2
      rw [hrest, ← hsame, ← hflight]
      rfl

theorem LineReader.Inv.work {r : LineReader n} (h : r.Inv) :
    ∃ r', r.work = .ok r' ∧ r'.Inv ∧ r'.pending = r.pending ∧ r'.file_name = r.file_name ∧
      r'.file_line = r.file_line := by
  cases hr : r.reader with
  | none => exact ⟨r, by rw [LineReader.work, hr], h, rfl, rfl, rfl⟩
  | some reader =>
    have hlive (ha : reader.Asked n ∨ ∃ count, reader.Answered n count) : ∃ r',
        r.work = .ok r' ∧ r'.Inv ∧ r'.pending = r.pending ∧ r'.file_name = r.file_name ∧
          r'.file_line = r.file_line := by
      obtain ⟨b, reader', count, hw, ha', hbelow, hflight⟩ := work_answers hr ha
      have hflight' : LineReader.inFlight { r with buffer := b, reader := some reader' } =
          r.inFlight := by
        rw [← hflight]
        simp only [LineReader.inFlight, ha'.2.1]
      have hend := h.end_le
      have hbegin := h.begin_le
      have hunread := Buffer.window_congr_below hbelow (j := r.data_begin)
        (l := r.data_end - r.data_begin) (by omega)
      refine ⟨_, hw, ⟨hbegin, h.begin_lt, hend, fun hf => ?_, fun reader'' hr' => ?_⟩, ?_, rfl, rfl⟩
      · rw [hflight'] at hf
        exact h.full hf
      · cases hr'
        exact .inr (.inl ⟨count, ha'⟩)
      · rw [LineReader.pending, hflight', LineReader.pending]
        exact congrArg (· ++ r.inFlight) hunread
    rcases h.worker reader hr with ha | ha | ⟨⟨hd, _, hw, _⟩, _⟩
    · exact hlive (.inl ha)
    · exact hlive (.inr ha)
    · refine ⟨r, ?_, h, rfl, rfl, rfl⟩
      simp only [LineReader.work, hr, hd, hw, Bool.false_eq_true, ↓reduceIte]

theorem LineReader.Inv.next_line_end {r : LineReader n} (h : r.Inv) (hp : r.pending = []) :
    r.next_line = .ok (none, r) := by
  have hu := congrArg List.length (List.append_eq_nil_iff.1 hp).1
  rw [h.length_unread, List.length_nil] at hu
  have hbegin := h.begin_le
  rw [LineReader.next_line, if_pos (by omega)]

theorem LineReader.Inv.next_line_shifted {r : LineReader n} (h : r.Inv) (hp : r.pending ≠ []) :
    ∃ r' : LineReader n, r'.Inv ∧ r'.pending = r.pending ∧ r'.data_begin < n ∧
      r'.file_name = r.file_name ∧ r'.file_line = r.file_line + 1 ∧
      r.next_line = (fun p => (some p.1, p.2)) <$> r'.cut_line := by
  have hbegin := h.begin_le
  have hlt := h.begin_lt
  have hend := h.end_le
  have hne : ¬r.data_begin = r.data_end := by
    intro he
    have hu : r.unread = [] := by
      rw [LineReader.unread, he, Nat.sub_self, Buffer.window_zero]
    have hf : r.inFlight ≠ [] := by
      intro hf
      rw [LineReader.pending, hu, hf] at hp
      exact hp rfl
    have := h.full hf
    omega
  have hcounted : LineReader.Inv { r with file_line := r.file_line + 1 } :=
    ⟨hbegin, hlt, hend, h.full, h.worker⟩
  rw [LineReader.next_line, if_neg hne, if_pos (by omega)]
  by_cases hn : n ≤ r.data_begin
  · have hne' : r.data_begin < r.data_end := by omega
    obtain ⟨r', hs, hinv, hpending, hdata, _, hname, hline⟩ := hcounted.shift hn hne'
    refine ⟨r', hinv, hpending, ?_, hname, hline, ?_⟩
    · rw [hdata]
      change r.data_begin - n < n
      omega
    · simp only [if_pos hn, hs, ok_bind]
      rfl
  · refine ⟨_, hcounted, rfl, by change r.data_begin < n; omega, rfl, rfl, ?_⟩
    simp only [if_neg hn, ok_bind]
    rfl

theorem LineReader.Inv.next_line_error {r : LineReader n} (h : r.Inv) (hp : r.pending ≠ [])
    (hn : n ≤ (first NEWLINE r.pending).length) :
    r.next_line = .error (.line_length_limit_exceeded r.file_name (r.file_line + 1)) := by
  obtain ⟨r', hinv, hpending, hb, hname, hline, he⟩ := h.next_line_shifted hp
  rw [he, hinv.cut_line_error hb (by rw [hpending]; exact hn), hname, hline, error_map]

theorem LineReader.Inv.next_line_ok {r : LineReader n} (h : r.Inv) (hp : r.pending ≠ [])
    (hn : (first NEWLINE r.pending).length < n) :
    ∃ r', r.next_line = .ok (some (lineText (first NEWLINE r.pending)), r') ∧ r'.Inv ∧
      r'.pending = rest NEWLINE r.pending ∧ r'.file_name = r.file_name ∧
      r'.file_line = r.file_line + 1 := by
  obtain ⟨r', hinv, hpending, hb, hname, hline, he⟩ := h.next_line_shifted hp
  rw [← hpending] at hn
  obtain ⟨r'', hcut, hinv', hpending', hname', hline'⟩ := hinv.cut_line_ok hb hn
  rw [hpending] at hcut hpending'
  exact ⟨r'', by rw [he, hcut]; rfl, hinv', hpending', hname'.trans hname, hline'.trans hline⟩

def withoutMark (content : Bytes) : Bytes :=
  if content.take 3 = BYTE_ORDER_MARK then content.drop 3 else content

theorem marked_eq {buffer : Buffer UInt8 size} {data : Bytes} (hfit : data.length ≤ size)
    (hdata : buffer.window 0 data.length = data) :
    marked buffer data.length = .ok (data.take 3 == BYTE_ORDER_MARK) := by
  rw [marked]
  split
  · have hthree : buffer.window 0 3 = data.take 3 := by
      have hw := buffer.window_sub 0 (j := 0) (l := 3) (k := data.length) (by omega)
      rw [hdata, List.drop_zero] at hw
      exact hw
    rw [buffer.load_ok 0 3 (by omega), hthree]
    rfl
  · have hne : data.take 3 ≠ BYTE_ORDER_MARK := by
      intro he
      have hl := congrArg List.length he
      rw [List.length_take] at hl
      change min 3 data.length = 3 at hl
      omega
    rw [beq_eq_false_iff_ne.2 hne]

theorem init_ok (hn : 2 ≤ n) (file_name : CString) (memory : Buffer UInt8 (3 * n))
    (content : Bytes) :
    ∃ r, LineReader.init file_name memory content = .ok r ∧ r.Inv ∧
      r.pending = withoutMark content ∧ r.file_name = file_name.take max_file_name_length ∧
      r.file_line = 0 := by
  have hlen : (content.take (2 * n)).length = min (2 * n) content.length := List.length_take
  have hle : (content.take (2 * n)).length ≤ 2 * n := List.length_take_le _ _
  have hfit : 0 + (content.take (2 * n)).length ≤ 3 * n := by omega
  have hdata := memory.window_patch hfit
  have hthree : (content.take (2 * n)).take 3 = content.take 3 := by
    rw [List.take_take, Nat.min_eq_left (by omega)]
  generalize hb : memory.patch 0 (content.take (2 * n)) hfit = b at hdata
  have hmarked := marked_eq (by omega) hdata
  rw [hthree] at hmarked
  rw [LineReader.init]
  simp only [memory.store_ok hfit, hb, inside_some, ok_bind, hmarked]
  generalize hk : (if (content.take 3 == BYTE_ORDER_MARK) = true then 3 else 0) = k
  have hk' : k ≤ 3 ∧ k ≤ content.length ∧ withoutMark content = content.drop k := by
    rw [← hk, withoutMark]
    by_cases hm : content.take 3 = BYTE_ORDER_MARK
    · have hl := congrArg List.length hm
      rw [List.length_take] at hl
      change min 3 content.length = 3 at hl
      rw [beq_iff_eq.2 hm, if_pos hm]
      exact ⟨Nat.le_refl 3, by rw [if_pos rfl]; omega, rfl⟩
    · rw [beq_eq_false_iff_ne.2 hm, if_neg hm]
      exact ⟨by decide, Nat.zero_le _, rfl⟩
  obtain ⟨hk3, hkc, hwithout⟩ := hk'
  have hkl : k ≤ (content.take (2 * n)).length := by omega
  have hunread :
      b.window k ((content.take (2 * n)).length - k) = (content.take (2 * n)).drop k := by
    have hw := b.window_sub 0 (j := k) (l := (content.take (2 * n)).length - k)
      (k := (content.take (2 * n)).length) (by omega)
    rw [hdata, Nat.zero_add] at hw
    rw [hw, List.take_of_length_le (by rw [List.length_drop])]
  by_cases hlong : (content.take (2 * n)).length = 2 * n
  · rw [if_pos hlong]
    refine ⟨_, rfl, ⟨hkl, ?_, hle, fun _ => hlong, fun reader hr => ?_⟩, ?_,
      rfl, rfl⟩
    · change k < 2 * n
      omega
    · cases hr
      exact .inl ⟨rfl, rfl, rfl⟩
    · rw [hwithout, LineReader.pending, LineReader.unread, hunread, LineReader.inFlight]
      change _ ++ content.drop (2 * n) = _
      rw [← List.drop_append_of_le_length hkl, List.take_append_drop]
  · rw [if_neg hlong]
    refine ⟨_, rfl, ⟨hkl, ?_, hle, fun hf => absurd rfl hf,
      fun reader hr => by cases hr⟩, ?_, rfl, rfl⟩
    · change k < 2 * n
      omega
    · rw [hwithout, LineReader.pending, LineReader.unread, hunread, LineReader.inFlight,
        List.append_nil, List.take_of_length_le (by omega)]

end JuttaProto
