import JuttaProto.BigEndian
import JuttaProto.Faults

namespace JuttaProto
open Run BigEndian
set_option autoImplicit true

theorem offset_succ (i : UInt64) (j : Nat) :
    i + 1 + UInt64.ofNat j = i + UInt64.ofNat (j + 1) := by
  rw [UInt64.ofNat_add, UInt64.add_assoc, UInt64.add_comm (UInt64.ofNat j)]
  rfl

theorem statValLoop_error {data : Bytes} {valueOffset : UInt64}
    (h : ∃ j < n, data.length ≤ (valueOffset + (i + UInt64.ofNat j)).toNat) :
    statValLoop data valueOffset n i result = .error (.outOfRange .get_stat_val) := by
  induction n generalizing i result with
  | zero =>
    obtain ⟨j, hj, _⟩ := h
    omega
  | succ n ih =>
    obtain ⟨j, hj, hle⟩ := h
    rw [statValLoop]
    cases hb : data[(valueOffset + i).toNat]? with
    | none => rw [index, hb, error_bind]
    | some b =>
      rw [index_ok hb, ok_bind]
      apply ih
      cases j with
      | zero =>
        have hlt := (List.getElem?_eq_some_iff.1 hb).1
        have hz : i + UInt64.ofNat 0 = i := UInt64.add_zero i
        rw [hz] at hle
        omega
      | succ j =>
        refine ⟨j, by omega, ?_⟩
        rw [offset_succ]
        exact hle

theorem statValLoop_total {data : Bytes} {valueOffset : UInt64}
    (h : ∀ j < n, (valueOffset + (i + UInt64.ofNat j)).toNat < data.length) :
    ∃ r, statValLoop data valueOffset n i result = .ok r := by
  induction n generalizing i result with
  | zero => exact ⟨result, rfl⟩
  | succ n ih =>
    have h0 := h 0 (by omega)
    have hz : i + UInt64.ofNat 0 = i := UInt64.add_zero i
    rw [hz] at h0
    rw [statValLoop, index_ok (List.getElem?_eq_getElem h0), ok_bind]
    apply ih
    intro j hj
    rw [offset_succ]
    exact h (j + 1) (by omega)

theorem statValLoop_accumulate {data : Bytes} {valueOffset : UInt64}
    (hv : valueOffset.toNat + i.toNat + n < 2 ^ 64)
    (hd : valueOffset.toNat + i.toNat + n ≤ data.length) :
    statValLoop data valueOffset n i result =
      .ok (accumulate ((data.drop (valueOffset.toNat + i.toNat)).take n) result) := by
  induction n generalizing i result with
  | zero => rw [List.take_zero]; rfl
  | succ n ih =>
    have hi : (valueOffset + i).toNat = valueOffset.toNat + i.toNat := by
      rw [UInt64.toNat_add]
      omega
    have hs : (i + 1).toNat = i.toNat + 1 := by
      rw [UInt64.toNat_add]
      simp only [UInt64.reduceToNat]
      omega
    have hlt : valueOffset.toNat + i.toNat < data.length := by omega
    rw [statValLoop, hi, index_ok (List.getElem?_eq_getElem hlt), ok_bind,
      ih (by omega) (by omega), hs, List.drop_eq_getElem_cons hlt, List.take_succ_cons]
    rfl

theorem get_stat_val_ok {data : Bytes} {offset bytesPerVal : UInt64}
    (h : (offset.toNat + 1) * bytesPerVal.toNat < 2 ^ 64) (h8 : bytesPerVal.toNat ≤ 8) :
    get_stat_val data offset bytesPerVal =
      .ok (UInt64.ofNat (blockValue bytesPerVal.toNat data offset.toNat)) := by
  have hm : (offset * bytesPerVal).toNat = offset.toNat * bytesPerVal.toNat := by
    rw [UInt64.toNat_mul]
    rw [Nat.succ_mul] at h
    exact Nat.mod_eq_of_lt (by omega)
  have ha : (offset * bytesPerVal + bytesPerVal).toNat =
      (offset.toNat + 1) * bytesPerVal.toNat := by
    rw [UInt64.toNat_add, hm, ← Nat.succ_mul]
    exact Nat.mod_eq_of_lt h
  simp only [get_stat_val, blockValue, ha]
  rw [Nat.succ_mul] at h ⊢
  by_cases hd : data.length < offset.toNat * bytesPerVal.toNat + bytesPerVal.toNat
  · rw [if_pos hd, if_neg (by omega)]
    rfl
  · have hz : (offset * bytesPerVal).toNat + (0 : UInt64).toNat =
        offset.toNat * bytesPerVal.toNat := hm
    rw [if_neg hd, if_pos (by omega), statValLoop_accumulate (by rw [hz]; exact h)
      (by rw [hz]; omega), hz, ← block]
    congr 1
    apply UInt64.toNat_inj.1
    have hl : (block bytesPerVal.toNat data offset.toNat).length ≤ 8 := by
      rw [block, List.length_take]
      omega
    rw [toNat_accumulate_zero hl, ← toNat_accumulate_zero hl, UInt64.ofNat_toNat]

/-- In data of the given size the end of the value wraps around, so that the check of the size
passes although the value begins far behind the end. -/
def StatReadWraps (size : Nat) (offset bytesPerVal : UInt64) : Prop :=
  2 ^ 64 ≤ (offset * bytesPerVal).toNat + bytesPerVal.toNat ∧
    (offset * bytesPerVal + bytesPerVal).toNat ≤ size ∧ size < 2 ^ 64

theorem faultsIn_statValLoop (data : Bytes) (valueOffset : UInt64) (n : Nat)
    (i result : UInt64) : FaultsIn [.receive] (statValLoop data valueOffset n i result) := by
  induction n generalizing i result with
  | zero => exact within_ok _ _
  | succ n ih => exact (faultsIn_index (by decide) _ _).bind fun _ _ => ih _ _

theorem faultsIn_get_stat_val (data : Bytes) (offset bytesPerVal : UInt64) :
    FaultsIn [.receive] (get_stat_val data offset bytesPerVal) := by
  unfold get_stat_val
  simp only
  split
  · exact within_ok _ _
  · exact faultsIn_statValLoop _ _ _ _ _

theorem get_stat_val_safe_iff {data : Bytes} {offset bytesPerVal : UInt64} :
    NeverIn .receive (get_stat_val data offset bytesPerVal) ↔
      ¬StatReadWraps data.length offset bytesPerVal := by
  have hadd := UInt64.toNat_add (offset * bytesPerVal) bytesPerVal
  have hv := (offset * bytesPerVal).toNat_lt
  have hk := bytesPerVal.toNat_lt
  simp only [get_stat_val]
  by_cases hd : data.length < (offset * bytesPerVal + bytesPerVal).toNat
  · rw [if_pos hd]
    apply neverIn_ok_iff
    intro hw
    have hle := hw.2.1
    omega
  · rw [if_neg hd]
    have hj (j : Nat) : (offset * bytesPerVal + (0 + UInt64.ofNat j)).toNat =
        ((offset * bytesPerVal).toNat + j % 2 ^ 64) % 2 ^ 64 := by
      rw [UInt64.zero_add, UInt64.toNat_add, UInt64.toNat_ofNat']
    by_cases hw : StatReadWraps data.length offset bytesPerVal
    · -- the byte at the largest address is read, and it is outside of the data
      obtain ⟨h64, _, hlen⟩ := hw
      have he : statValLoop data (offset * bytesPerVal) bytesPerVal.toNat 0 0 =
          .error (.outOfRange .get_stat_val) := statValLoop_error
        ⟨2 ^ 64 - 1 - (offset * bytesPerVal).toNat, by omega, by rw [hj]; omega⟩
      rw [he]
      refine neverIn_error_iff_of_not rfl ?_
      intro h
      exact h ⟨h64, by omega, hlen⟩
    · have ht : ∃ r, statValLoop data (offset * bytesPerVal) bytesPerVal.toNat 0 0 = .ok r :=
        statValLoop_total fun j hlt => by
          rw [hj]
          simp only [StatReadWraps, not_and, not_lt] at hw
          omega
      obtain ⟨r, hr⟩ := ht
      rw [hr]
      exact neverIn_ok_iff hw r

/-- The offset arithmetic does not wrap, or the check of the size still rejects the value, or
the bytes that are read instead are all zero. -/
def StatReadExact (data : Bytes) (offset bytesPerVal : UInt64) : Prop :=
  (offset.toNat + 1) * bytesPerVal.toNat < 2 ^ 64 ∨
    data.length < (offset * bytesPerVal + bytesPerVal).toNat ∨
    ((offset * bytesPerVal).toNat + bytesPerVal.toNat < 2 ^ 64 ∧
      ∀ j < bytesPerVal.toNat, data[(offset * bytesPerVal).toNat + j]? = some 0)

theorem blockValue_wrapped {data : Bytes} {offset : UInt64} (hs : data.length < 2 ^ 64)
    (h : 2 ^ 64 ≤ (offset.toNat + 1) * width) : blockValue width data offset.toNat = 0 := by
  rw [blockValue, if_neg (by omega)]

/-- Where the check passes and the end of the value does not wrap, the bytes are read from the
offset that the product has wrapped to. -/
theorem get_stat_val_passed {data : Bytes} {offset bytesPerVal : UInt64}
    (hd : (offset * bytesPerVal + bytesPerVal).toNat ≤ data.length)
    (h64 : (offset * bytesPerVal).toNat + bytesPerVal.toNat < 2 ^ 64) :
    get_stat_val data offset bytesPerVal = .ok (accumulate
      ((data.drop (offset * bytesPerVal).toNat).take bytesPerVal.toNat) 0) := by
  have hadd : (offset * bytesPerVal + bytesPerVal).toNat =
      (offset * bytesPerVal).toNat + bytesPerVal.toNat := by
    rw [UInt64.toNat_add]
    exact Nat.mod_eq_of_lt h64
  have hz : (offset * bytesPerVal).toNat + (0 : UInt64).toNat = (offset * bytesPerVal).toNat := rfl
  simp only [get_stat_val, if_neg (not_lt.2 hd)]
  rw [statValLoop_accumulate (by rw [hz]; exact h64) (by rw [hz]; omega), hz]

theorem take_drop_zero_iff {data : Bytes} (h : start + n ≤ data.length) :
    (∀ b ∈ (data.drop start).take n, b = 0) ↔ ∀ j < n, data[start + j]? = some 0 := by
  have hget {j : Nat} (hj : j < n) : ((data.drop start).take n)[j]? = data[start + j]? := by
    rw [List.getElem?_take, if_pos hj, List.getElem?_drop]
  have hlen : ((data.drop start).take n).length = n := by
    rw [List.length_take, List.length_drop]
    omega
  constructor
  · intro hz j hj
    have hlt : j < ((data.drop start).take n).length := by
      rw [hlen]
      exact hj
    rw [← hget hj, List.getElem?_eq_getElem hlt, hz _ (List.getElem_mem hlt)]
  · intro hz b hb
    obtain ⟨j, hlt, he⟩ := List.getElem_of_mem hb
    rw [hlen] at hlt
    rw [List.getElem_eq_iff, hget hlt, hz j hlt] at he
    exact (Option.some.inj he).symm

/-- A value is read as the block of bytes at its offset, or as 0 where the data end before the
block does, exactly when the offset arithmetic does not lead to other bytes than zeros. -/
theorem get_stat_val_exact_iff {data : Bytes} {offset bytesPerVal : UInt64}
    (hs : data.length < 2 ^ 64) (h8 : bytesPerVal.toNat ≤ 8) :
    get_stat_val data offset bytesPerVal =
        .ok (UInt64.ofNat (blockValue bytesPerVal.toNat data offset.toNat)) ↔
      StatReadExact data offset bytesPerVal := by
  by_cases hw : (offset.toNat + 1) * bytesPerVal.toNat < 2 ^ 64
  · exact iff_of_true (get_stat_val_ok hw h8) (.inl hw)
  have hzero := blockValue_wrapped hs (not_lt.1 hw)
  by_cases hd : data.length < (offset * bytesPerVal + bytesPerVal).toNat
  · rw [get_stat_val, if_pos hd, hzero]
    exact iff_of_true rfl (.inr (.inl hd))
  by_cases h64 : (offset * bytesPerVal).toNat + bytesPerVal.toNat < 2 ^ 64
  · have hend : (offset * bytesPerVal).toNat + bytesPerVal.toNat ≤ data.length := by
      have hadd := UInt64.toNat_add (offset * bytesPerVal) bytesPerVal
      rw [Nat.mod_eq_of_lt h64] at hadd
      omega
    have hl : ((data.drop (offset * bytesPerVal).toNat).take bytesPerVal.toNat).length ≤ 8 := by
      rw [List.length_take]
      omega
    have hacc : accumulate ((data.drop (offset * bytesPerVal).toNat).take bytesPerVal.toNat) 0 =
        0 ↔ ∀ j < bytesPerVal.toNat, data[(offset * bytesPerVal).toNat + j]? = some 0 := by
      rw [← take_drop_zero_iff hend, ← value_eq_zero_iff, ← toNat_accumulate_zero hl]
      exact UInt64.toNat_inj.symm
    rw [get_stat_val_passed (not_lt.1 hd) h64, hzero, Except.ok.injEq]
    exact hacc.trans ⟨fun h => .inr (.inr ⟨h64, h⟩), fun h =>
      (h.resolve_left hw).resolve_left hd |>.2⟩
  · have hwraps : StatReadWraps data.length offset bytesPerVal := ⟨not_lt.1 h64, not_lt.1 hd, hs⟩
    apply iff_of_false
    · intro he
      have hsafe : NeverIn .receive (get_stat_val data offset bytesPerVal) := by
        rw [he]
        exact avoids_ok _ _
      exact get_stat_val_safe_iff.1 hsafe hwraps
    · rintro (h | h | h)
      · exact hw h
      · exact hd h
      · exact h64 h.1

theorem get_stat_val_exact_second :
    get_stat_val [0, 0, 1, 0, 1, 2] 1 3 = .ok (UInt64.ofNat (blockValue 3 [0, 0, 1, 0, 1, 2] 1)) ↔
      StatReadExact [0, 0, 1, 0, 1, 2] 1 3 := by
  have hs : ([0, 0, 1, 0, 1, 2] : Bytes).length < 2 ^ 64 := by decide
  exact get_stat_val_exact_iff hs (by decide)

/-- The code of a product can be an offset whose block is read behind the end of the frame, or
one whose block is taken for another one. -/
theorem get_stat_val_behind_end :
    Product.code_to_size_t { exampleProduct with code := cstr "5555555555555555" } =
      .ok 0x5555555555555555 ∧
    get_stat_val [1, 2, 3] 0x5555555555555555 3 = .error (.outOfRange .get_stat_val) ∧
    Product.code_to_size_t { exampleProduct with code := cstr "5555555555555556" } =
      .ok 0x5555555555555556 ∧
    get_stat_val [1, 2, 3, 4, 5] 0x5555555555555556 3 = .ok 0x030405 ∧
    blockValue 3 [1, 2, 3] 0x5555555555555555 = 0 ∧
    blockValue 3 [1, 2, 3, 4, 5] 0x5555555555555556 = 0 := by
  decide +kernel

end JuttaProto
