import Mathlib.Data.Nat.Bitwise

namespace Nibble
set_option autoImplicit true

theorem toNat_high (b : UInt8) : (b >>> 4).toNat = b.toNat / 16 := by
  rw [UInt8.toNat_shiftRight, Nat.shiftRight_eq_div_pow]
  rfl

theorem toNat_low (b : UInt8) : (b &&& 15).toNat = b.toNat % 16 := by
  rw [UInt8.toNat_and]
  exact Nat.and_two_pow_sub_one_eq_mod b.toNat 4

theorem high_lt (b : UInt8) : (b >>> 4).toNat < 16 := by
  have hb := b.toNat_lt
  rw [toNat_high]
  omega

theorem low_lt (b : UInt8) : (b &&& 15).toNat < 16 := by
  rw [toNat_low]
  exact Nat.mod_lt _ (by decide)

theorem toNat_join {l r : UInt8} (hl : l.toNat < 16) (hr : r.toNat < 16) :
    ((l <<< 4) ||| r).toNat = 16 * l.toNat + r.toNat := by
  have hs : (l <<< 4).toNat = l.toNat <<< 4 := by
    rw [UInt8.toNat_shiftLeft, Nat.shiftLeft_eq]
    simp only [UInt8.reduceToNat, Nat.reduceMod, Nat.reducePow]
    rw [Nat.shiftLeft_eq]
    omega
  rw [UInt8.toNat_or, hs, ← Nat.shiftLeft_add_eq_or_of_lt (by omega), Nat.shiftLeft_eq]
  omega

theorem high_join {l r : UInt8} (hl : l.toNat < 16) (hr : r.toNat < 16) :
    ((l <<< 4) ||| r) >>> 4 = l := by
  apply UInt8.toNat_inj.1
  rw [toNat_high, toNat_join hl hr]
  omega

theorem low_join {l r : UInt8} (hl : l.toNat < 16) (hr : r.toNat < 16) :
    ((l <<< 4) ||| r) &&& 15 = r := by
  apply UInt8.toNat_inj.1
  rw [toNat_low, toNat_join hl hr]
  omega

theorem join_high_low (b : UInt8) : ((b >>> 4) <<< 4) ||| (b &&& 15) = b := by
  apply UInt8.toNat_inj.1
  rw [toNat_join (high_lt b) (low_lt b), toNat_high, toNat_low]
  omega

end Nibble
