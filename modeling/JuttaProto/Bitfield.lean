import Mathlib.Data.Nat.Bitwise

namespace Bitfield
set_option autoImplicit true

/-- A value put above a field of `k` bits. -/
theorem toNat_place {a b : UInt16} {s : UInt16} (hs : s.toNat % 16 = k)
    (ha : a.toNat * 2 ^ k < 2 ^ 16) (hb : b.toNat < 2 ^ k) :
    ((a <<< s) ||| b).toNat = a.toNat * 2 ^ k + b.toNat := by
  rw [UInt16.toNat_or, UInt16.toNat_shiftLeft, hs]
  have hlt : a.toNat <<< k % 2 ^ 16 = a.toNat <<< k := by
    rw [Nat.shiftLeft_eq]
    exact Nat.mod_eq_of_lt ha
  rw [hlt, ← Nat.shiftLeft_add_eq_or_of_lt hb, Nat.shiftLeft_eq]

theorem toNat_field (w : UInt16) {mask s : UInt16} (hs : s.toNat % 16 = k)
    (hm : (mask >>> s).toNat = 2 ^ n - 1) :
    ((w &&& mask) >>> s).toNat = w.toNat / 2 ^ k % 2 ^ n := by
  rw [UInt16.shiftRight_and, UInt16.toNat_and, hm, Nat.and_two_pow_sub_one_eq_mod,
    UInt16.toNat_shiftRight, hs, Nat.shiftRight_eq_div_pow]

def word (low high : UInt8) : UInt16 := (high.toUInt16 <<< 8) ||| low.toUInt16

def littleEndian (w : UInt16) : List UInt8 := [w.toUInt8, (w >>> 8).toUInt8]

theorem toNat_word (low high : UInt8) : (word low high).toNat = high.toNat * 2 ^ 8 + low.toNat := by
  have hl := low.toNat_lt
  have hh := high.toNat_lt
  have hp := toNat_place (a := high.toUInt16) (b := low.toUInt16) (s := 8) (k := 8) rfl
    (by rw [UInt8.toNat_toUInt16]; omega) (by rw [UInt8.toNat_toUInt16]; exact hl)
  rw [UInt8.toNat_toUInt16, UInt8.toNat_toUInt16] at hp
  exact hp

theorem toNat_low (w : UInt16) : w.toUInt8.toNat = w.toNat % 2 ^ 8 := UInt16.toNat_toUInt8 w

theorem toNat_high (w : UInt16) : (w >>> 8).toUInt8.toNat = w.toNat / 2 ^ 8 := by
  have hw := w.toNat_lt
  rw [UInt16.toNat_toUInt8, UInt16.toNat_shiftRight, Nat.shiftRight_eq_div_pow]
  simp only [UInt16.reduceToNat, Nat.reduceMod]
  omega

theorem littleEndian_word (low high : UInt8) : littleEndian (word low high) = [low, high] := by
  have hl := low.toNat_lt
  have hlow : (word low high).toUInt8 = low := by
    apply UInt8.toNat_inj.1
    rw [toNat_low, toNat_word]
    omega
  have hhigh : (word low high >>> 8).toUInt8 = high := by
    apply UInt8.toNat_inj.1
    rw [toNat_high, toNat_word]
    omega
  rw [littleEndian, hlow, hhigh]

theorem word_littleEndian (w : UInt16) : word w.toUInt8 (w >>> 8).toUInt8 = w := by
  apply UInt16.toNat_inj.1
  rw [toNat_word, toNat_high, toNat_low]
  omega

end Bitfield
