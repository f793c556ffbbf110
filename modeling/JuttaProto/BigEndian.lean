import Mathlib.Data.List.Induction
import Mathlib.Data.Nat.Bitwise
import Mathlib.Tactic.Ring

namespace BigEndian
set_option autoImplicit true

/-- The number that the bytes denote, the most significant byte first. -/
def value (bytes : List UInt8) : Nat := bytes.foldl (fun n b => 256 * n + b.toNat) 0

def encode : Nat → Nat → List UInt8
  | 0, _ => []
  | width + 1, n => encode width (n / 256) ++ [UInt8.ofNat n]

@[simp] theorem length_encode (width n : Nat) : (encode width n).length = width := by
  induction width generalizing n with
  | zero => rfl
  | succ width ih => rw [encode, List.length_append, ih]; rfl

@[simp] theorem value_append_singleton (bytes : List UInt8) (b : UInt8) :
    value (bytes ++ [b]) = 256 * value bytes + b.toNat := by
  rw [value, List.foldl_append]
  rfl

theorem value_lt (bytes : List UInt8) : value bytes < 256 ^ bytes.length := by
  induction bytes using List.reverseRecOn with
  | nil => decide
  | append_singleton bytes b ih =>
    have hb := b.toNat_lt
    rw [value_append_singleton, List.length_append, List.length_singleton, Nat.pow_succ]
    omega

theorem value_encode (h : n < 256 ^ width) : value (encode width n) = n := by
  induction width generalizing n with
  | zero =>
    have hn : n = 0 := by omega
    rw [hn]
    rfl
  | succ width ih =>
    rw [Nat.pow_succ] at h
    have hd : n / 256 < 256 ^ width := by omega
    rw [encode, value_append_singleton, ih hd, UInt8.toNat_ofNat']
    omega

theorem value_eq_zero_iff {bytes : List UInt8} : value bytes = 0 ↔ ∀ b ∈ bytes, b = 0 := by
  induction bytes using List.reverseRecOn with
  | nil => exact iff_of_true rfl (List.forall_mem_nil _)
  | append_singleton bytes b ih =>
    have hb : b.toNat = 0 ↔ b = 0 := UInt8.toNat_inj (b := 0)
    rw [value_append_singleton, List.forall_mem_append, List.forall_mem_singleton, ← ih, ← hb]
    omega

def accumulate (bytes : List UInt8) (result : UInt64) : UInt64 :=
  bytes.foldl (fun result b => (result <<< 8) ||| b.toUInt64) result

theorem toNat_push {result : UInt64} (h : result.toNat < 2 ^ 56) (b : UInt8) :
    ((result <<< 8) ||| b.toUInt64).toNat = 256 * result.toNat + b.toNat := by
  have hb := b.toNat_lt
  have hs : (result <<< 8).toNat = result.toNat <<< 8 := by
    rw [UInt64.toNat_shiftLeft, Nat.shiftLeft_eq]
    simp only [UInt64.reduceToNat, Nat.reduceMod, Nat.reducePow]
    rw [Nat.shiftLeft_eq]
    omega
  rw [UInt64.toNat_or, UInt8.toNat_toUInt64, hs, ← Nat.shiftLeft_add_eq_or_of_lt hb,
    Nat.shiftLeft_eq]
  omega

theorem toNat_accumulate {bytes : List UInt8} {result : UInt64}
    (h : result.toNat < 256 ^ n) (hn : n + bytes.length ≤ 8) :
    (accumulate bytes result).toNat =
      bytes.foldl (fun n b => 256 * n + b.toNat) result.toNat := by
  induction bytes generalizing result n with
  | nil => rfl
  | cons b bytes ih =>
    rw [List.length_cons] at hn
    have hb := b.toNat_lt
    have h56 : result.toNat < 2 ^ 56 := by
      have hp : 256 ^ n ≤ 256 ^ 7 := Nat.pow_le_pow_right (by decide) (by omega)
      omega
    have hr := toNat_push h56 b
    have hlt : ((result <<< 8) ||| b.toUInt64).toNat < 256 ^ (n + 1) := by
      rw [hr, Nat.pow_succ]
      omega
    rw [List.foldl_cons, ← hr]
    exact ih hlt (by omega)

theorem toNat_accumulate_zero {bytes : List UInt8} (h : bytes.length ≤ 8) :
    (accumulate bytes 0).toNat = value bytes :=
  toNat_accumulate (n := 0) (by decide) (by omega)

def block (width : Nat) (data : List UInt8) (i : Nat) : List UInt8 :=
  (data.drop (i * width)).take width

/-- The value of the block at an index, or 0 if the data end before the block does. -/
def blockValue (width : Nat) (data : List UInt8) (i : Nat) : Nat :=
  if (i + 1) * width ≤ data.length then value (block width data i) else 0

theorem blockValue_lt (width : Nat) (data : List UInt8) (i : Nat) :
    blockValue width data i < 256 ^ width := by
  unfold blockValue
  split
  · rename_i h
    have hl : (block width data i).length = width := by
      rw [Nat.succ_mul] at h
      rw [block, List.length_take, List.length_drop]
      omega
    have hv := value_lt (block width data i)
    rw [hl] at hv
    exact hv
  · exact Nat.pow_pos (by decide)

theorem length_flatMap_encode (width : Nat) (blocks : List Nat) :
    (blocks.flatMap (encode width)).length = blocks.length * width := by
  induction blocks with
  | nil => rw [List.flatMap_nil, List.length_nil, List.length_nil, Nat.zero_mul]
  | cons b blocks ih =>
    rw [List.flatMap_cons, List.length_append, ih, length_encode, List.length_cons, Nat.succ_mul,
      Nat.add_comm]

theorem block_flatMap_encode {blocks : List Nat} (h : blocks[i]? = some b) :
    block width (blocks.flatMap (encode width)) i = encode width b := by
  induction blocks generalizing i with
  | nil => simp only [List.getElem?_nil, reduceCtorEq] at h
  | cons c blocks ih =>
    cases i with
    | zero =>
      simp only [List.getElem?_cons_zero, Option.some.injEq] at h
      subst c
      rw [block, Nat.zero_mul, List.drop_zero, List.flatMap_cons]
      exact List.take_left' (length_encode width b)
    | succ i =>
      rw [List.getElem?_cons_succ] at h
      rw [← ih h, block, block, List.flatMap_cons, Nat.succ_mul, Nat.add_comm, ← List.drop_drop,
        List.drop_left' (length_encode width c)]

theorem block_take {data : List UInt8} (h : (i + 1) * width ≤ n) :
    block width (data.take n) i = block width data i := by
  rw [Nat.succ_mul] at h
  rw [block, block, List.drop_take, List.take_take, Nat.min_eq_left (by omega)]

/-- A frame that holds the first bytes of the encoded blocks yields every block that is
complete in it, and 0 for the others. -/
theorem blockValue_take_flatMap_encode {blocks : List Nat} (hw : 0 < width)
    (hb : ∀ b ∈ blocks, b < 256 ^ width) (n i : Nat) :
    blockValue width ((blocks.flatMap (encode width)).take n) i =
      if (i + 1) * width ≤ n then blocks.getD i 0 else 0 := by
  simp only [blockValue, List.length_take, length_flatMap_encode, Nat.le_min]
  by_cases hn : (i + 1) * width ≤ n
  · rw [if_pos hn]
    cases hi : blocks[i]? with
    | none =>
      have hlen := List.getElem?_eq_none_iff.1 hi
      have hlt : ¬(i + 1) * width ≤ blocks.length * width := by
        intro hle
        have := Nat.le_of_mul_le_mul_right hle hw
        omega
      rw [if_neg (fun h => hlt h.2), List.getD_eq_getElem?_getD, hi]
      rfl
    | some b =>
      have hlen := (List.getElem?_eq_some_iff.1 hi).1
      have hle : (i + 1) * width ≤ blocks.length * width := Nat.mul_le_mul_right width hlen
      rw [if_pos ⟨hn, hle⟩, block_take hn, block_flatMap_encode hi,
        value_encode (hb b (List.mem_of_getElem? hi)), List.getD_eq_getElem?_getD, hi]
      rfl
  · rw [if_neg hn, if_neg (fun h => hn h.1)]

end BigEndian
