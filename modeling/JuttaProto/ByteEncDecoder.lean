import Mathlib.Data.ZMod.Basic
import Mathlib.Tactic.Ring
import JuttaProto.Conjugation
import JuttaProto.Nibble

namespace JuttaProto
open Conjugation Nibble
set_option autoImplicit true

abbrev Bytes := List UInt8

def numbers1 : Vector UInt8 16 := #v[14, 4, 3, 2, 1, 13, 8, 11, 6, 15, 12, 7, 10, 5, 0, 9]

def numbers2 : Vector UInt8 16 := #v[10, 6, 13, 12, 14, 11, 1, 9, 15, 7, 0, 5, 3, 2, 4, 8]

/-- The loop `while (i > 255) i -= 256`. -/
def subtract256 (i : Int) : Int := if 255 < i then subtract256 (i - 256) else i
termination_by i.toNat
decreasing_by omega

def add256 (i : Int) : Int := if i < 0 then add256 (i + 256) else i
termination_by (-i).toNat
decreasing_by omega

def mod256 (i : Int) : UInt8 := UInt8.ofInt (add256 (subtract256 i))

def entry (numbers : Vector UInt8 16) (i : UInt8) : UInt8 :=
  numbers.get ⟨(i % 16).toNat, by rw [UInt8.toNat_mod]; exact Nat.mod_lt _ (by decide)⟩

abbrev promote (b : UInt8) : Int := b.toNat

def shuffle (dataNibble nibbleCount keyLeftNibbel keyRightNibbel : Int) : UInt8 :=
  let i5 := mod256 (nibbleCount >>> (4 : Nat))
  let tmp1 := entry numbers1 (mod256 (dataNibble + nibbleCount + keyLeftNibbel))
  let tmp2 := entry numbers2
    (mod256 (promote tmp1 + keyRightNibbel + promote i5 - nibbleCount - keyLeftNibbel))
  let tmp3 := entry numbers1
    (mod256 (promote tmp2 + keyLeftNibbel + nibbleCount - keyRightNibbel - promote i5))
  mod256 (promote tmp3 - nibbleCount - keyLeftNibbel) % 16

/-- One round of the loop in `encDecBytes`: both nibbles of the byte `d`. -/
def encDecByte (keyLeftNibbel keyRightNibbel : UInt8) (nibbelCount : Int) (d : UInt8) : UInt8 :=
  let dataLeftNibbel := d >>> 4
  let dataRightNibbel := d &&& 15
  let resultLeftNibbel := shuffle (promote dataLeftNibbel) nibbelCount
    (promote keyLeftNibbel) (promote keyRightNibbel)
  let resultRightNibbel := shuffle (promote dataRightNibbel) (nibbelCount + 1)
    (promote keyLeftNibbel) (promote keyRightNibbel)
  (resultLeftNibbel <<< 4) ||| resultRightNibbel

def encDecLoop (keyLeftNibbel keyRightNibbel : UInt8) : Int → Bytes → Bytes
  | _, [] => []
  | nibbelCount, d :: data =>
    encDecByte keyLeftNibbel keyRightNibbel nibbelCount d ::
      encDecLoop keyLeftNibbel keyRightNibbel (nibbelCount + 2) data

/-- Encodes or decodes the data with the key. The counter is an unbounded integer, which
agrees with the `int` of the source as long as twice the length fits into an `int`. -/
def encDecBytes (data : Bytes) (key : UInt8) : Bytes :=
  encDecLoop (key >>> 4) (key &&& 15) 0 data

theorem subtract256_emod (i : Int) : subtract256 i % 256 = i % 256 := by
  induction i using subtract256.induct with
  | case1 i hi ih =>
    rw [subtract256, if_pos hi, ih]
    omega
  | case2 i hi => rw [subtract256, if_neg hi]

theorem add256_emod (i : Int) : add256 i % 256 = i % 256 := by
  induction i using add256.induct with
  | case1 i hi ih =>
    rw [add256, if_pos hi, ih]
    omega
  | case2 i hi => rw [add256, if_neg hi]

theorem promote_mod256 (i : Int) : promote (mod256 i) = i % 256 := by
  have he : add256 (subtract256 i) % 256 = i % 256 :=
    (add256_emod _).trans (subtract256_emod i)
  simp only [promote, mod256, UInt8.ofInt, UInt8.toNat_ofNat']
  omega

def box (numbers : Vector UInt8 16) (x : ZMod 16) : ZMod 16 :=
  ((numbers.get x).toNat : ZMod 16)

theorem box_numbers1 : Function.Involutive (box numbers1) := by
  unfold Function.Involutive; decide

theorem box_numbers2 : Function.Involutive (box numbers2) := by
  unfold Function.Involutive; decide

def residue (b : UInt8) : ZMod 16 := (b.toNat : ZMod 16)

theorem residue_inj {b c : UInt8} (hb : b.toNat < 16) (hc : c.toNat < 16)
    (h : residue b = residue c) : b = c := by
  have he : b.toNat % 16 = c.toNat % 16 := (ZMod.natCast_eq_natCast_iff' _ _ 16).1 h
  apply UInt8.toNat_inj.1
  omega

@[simp] theorem cast_promote (b : UInt8) : ((promote b : Int) : ZMod 16) = residue b :=
  Int.cast_natCast _

@[simp] theorem residue_mod256 (i : Int) : residue (mod256 i) = (i : ZMod 16) := by
  rw [← cast_promote, promote_mod256]
  apply (ZMod.intCast_eq_intCast_iff _ _ 16).2
  exact (Int.emod_emod_of_dvd i (by decide) : i % 256 % 16 = i % 16)

@[simp] theorem residue_mod16 (b : UInt8) : residue (b % 16) = residue b := by
  apply (ZMod.natCast_eq_natCast_iff' _ _ 16).2
  rw [UInt8.toNat_mod]
  exact Nat.mod_mod _ 16

@[simp] theorem residue_entry (numbers : Vector UInt8 16) (b : UInt8) :
    residue (entry numbers b) = box numbers (residue b) := by
  have he : (residue b).val = (b % 16).toNat := by
    rw [residue, ZMod.val_natCast, UInt8.toNat_mod]
    rfl
  simp only [residue, box, entry]
  congr 3

/-- The cipher on one nibble: the second table, shifted by `b`, seen through the first table
and shifted by `a`. -/
def nibbleMap (a b : ZMod 16) : ZMod 16 → ZMod 16 :=
  shifted a (box numbers1 ∘ shifted b (box numbers2) ∘ box numbers1)

theorem nibbleMap_involutive (a b : ZMod 16) : Function.Involutive (nibbleMap a b) :=
  shifted_involutive (sandwich_involutive box_numbers1 (shifted_involutive box_numbers2 b)) a

def outerShift (nibbleCount keyLeftNibbel : Int) : ZMod 16 := (nibbleCount + keyLeftNibbel : Int)

def innerShift (nibbleCount keyLeftNibbel keyRightNibbel : Int) : ZMod 16 :=
  (keyRightNibbel + (nibbleCount >>> (4 : Nat)) - nibbleCount - keyLeftNibbel : Int)

theorem shuffle_lt (d c kl kr : Int) : (shuffle d c kl kr).toNat < 16 := by
  simp only [shuffle]
  rw [UInt8.toNat_mod]
  exact Nat.mod_lt _ (by decide)

theorem residue_shuffle (d c kl kr : Int) :
    residue (shuffle d c kl kr) = nibbleMap (outerShift c kl) (innerShift c kl kr) d := by
  simp only [shuffle, residue_mod16, residue_mod256, Int.cast_add, Int.cast_sub, cast_promote,
    residue_entry]
  have h₁ (x : ZMod 16) : x + c + kl = x + (c + kl) := add_assoc x c kl
  have h₂ (x : ZMod 16) : x + kr + (c >>> (4 : Nat) : Int) - c - kl =
      x + (kr + (c >>> (4 : Nat) : Int) - c - kl) := by
    ring
  have h₃ (x : ZMod 16) : x + kl + c - kr - (c >>> (4 : Nat) : Int) =
      x - (kr + (c >>> (4 : Nat) : Int) - c - kl) := by
    ring
  simp only [nibbleMap, shifted, Function.comp_apply, outerShift, innerShift, Int.cast_add,
    Int.cast_sub]
  rw [h₁, h₂, h₃, sub_sub]

theorem shuffle_shuffle {b : UInt8} (hb : b.toNat < 16) (c kl kr : Int) :
    shuffle (promote (shuffle (promote b) c kl kr)) c kl kr = b := by
  apply residue_inj (shuffle_lt _ _ _ _) hb
  rw [residue_shuffle, cast_promote, residue_shuffle, cast_promote]
  exact nibbleMap_involutive _ _ _

theorem encDecByte_involutive (kl kr : UInt8) (c : Int) :
    Function.Involutive (encDecByte kl kr c) := by
  intro d
  have hl := shuffle_lt (promote (d >>> 4)) c (promote kl) (promote kr)
  have hr := shuffle_lt (promote (d &&& 15)) (c + 1) (promote kl) (promote kr)
  simp only [encDecByte]
  rw [high_join hl hr, low_join hl hr, shuffle_shuffle (high_lt d), shuffle_shuffle (low_lt d),
    join_high_low]

theorem encDecLoop_mapIdx (kl kr : UInt8) (c : Int) (data : Bytes) :
    encDecLoop kl kr c data = data.mapIdx (fun i => encDecByte kl kr (c + 2 * i)) := by
  induction data generalizing c with
  | nil => rfl
  | cons d data ih =>
    have hc (i : Nat) : c + 2 + 2 * (i : Int) = c + 2 * ((i + 1 : Nat) : Int) := by
      push_cast
      ring
    rw [encDecLoop, ih, List.mapIdx_cons, Int.natCast_zero, Int.mul_zero, Int.add_zero]
    simp only [hc]

/-- The action of the key on the byte at position `i`. -/
def byteMap (key : UInt8) (i : Nat) : UInt8 → UInt8 :=
  encDecByte (key >>> 4) (key &&& 15) (2 * i)

theorem byteMap_involutive (key : UInt8) (i : Nat) : Function.Involutive (byteMap key i) :=
  encDecByte_involutive _ _ _

/-- Every output byte depends on the key, the position and the input byte there, and on
nothing else. -/
theorem encDecBytes_mapIdx (data : Bytes) (key : UInt8) :
    encDecBytes data key = data.mapIdx (byteMap key) := by
  have he : byteMap key = fun i : Nat => encDecByte (key >>> 4) (key &&& 15) (0 + 2 * i) := by
    funext i
    rw [byteMap, Int.zero_add]
  rw [encDecBytes, encDecLoop_mapIdx, he]

@[simp] theorem length_encDecBytes (data : Bytes) (key : UInt8) :
    (encDecBytes data key).length = data.length := by
  rw [encDecBytes_mapIdx, List.length_mapIdx]

@[simp] theorem encDecBytes_twice (data : Bytes) (key : UInt8) :
    encDecBytes (encDecBytes data key) key = data := by
  rw [encDecBytes_mapIdx, encDecBytes_mapIdx]
  exact mapIdx_involutive (byteMap_involutive key) data

theorem encDecBytes_take (data : Bytes) (key : UInt8) (n : Nat) :
    encDecBytes ((encDecBytes data key).take n) key = data.take n := by
  have ht : (encDecBytes data key).take n = encDecBytes (data.take n) key := by
    rw [encDecBytes_mapIdx, encDecBytes_mapIdx, take_mapIdx]
  rw [ht, encDecBytes_twice]

/-- Decoding what has been encoded gives back the data, for every key and every length. -/
theorem encDecBytes_involutive (key : UInt8) :
    Function.Involutive (fun data => encDecBytes data key) :=
  fun data => encDecBytes_twice data key

example : encDecBytes [24] 42 = [66] := by decide +kernel

end JuttaProto
