import Mathlib.Tactic.Basic

namespace Decimal
set_option autoImplicit true

def isDigit (c : UInt8) : Bool := 0x30 ≤ c && c ≤ 0x39

def digit (c : UInt8) : Nat := (c - 0x30).toNat

/-- The number that a text of digits stands for, when the digits of `x` precede it. -/
def valueFrom (x : Nat) (text : List UInt8) : Nat := text.foldl (fun x c => 10 * x + digit c) x

def value (text : List UInt8) : Nat := valueFrom 0 text

def write (n : Nat) : List UInt8 := (Nat.toDigits 10 n).map Char.toUInt8

@[simp] theorem valueFrom_nil (x : Nat) : valueFrom x [] = x := rfl

@[simp] theorem valueFrom_cons (x : Nat) (c : UInt8) (text : List UInt8) :
    valueFrom x (c :: text) = valueFrom (10 * x + digit c) text := rfl

theorem valueFrom_append (x : Nat) (text text' : List UInt8) :
    valueFrom x (text ++ text') = valueFrom (valueFrom x text) text' := List.foldl_append

theorem le_valueFrom (x : Nat) (text : List UInt8) : x ≤ valueFrom x text := by
  induction text generalizing x with
  | nil => exact Nat.le_refl x
  | cons c text ih =>
    have h := ih (10 * x + digit c)
    rw [valueFrom_cons]
    omega

theorem digit_le (h : isDigit c = true) : digit c ≤ 9 := by
  simp only [isDigit, Bool.and_eq_true, decide_eq_true_eq, UInt8.le_iff_toNat_le] at h
  change 48 ≤ c.toNat ∧ c.toNat ≤ 57 at h
  have hs : digit c = c.toNat - 48 := UInt8.toNat_sub_of_le c 0x30 (UInt8.le_iff_toNat_le.2 h.1)
  omega

theorem digitChar_byte (h : d < 10) :
    isDigit (Nat.digitChar d).toUInt8 = true ∧ digit (Nat.digitChar d).toUInt8 = d := by
  have hd : ∀ d : Fin 10, isDigit (Nat.digitChar d).toUInt8 = true ∧
      digit (Nat.digitChar d).toUInt8 = d := by decide
  exact hd ⟨d, h⟩

theorem write_read (n : Nat) : (∀ c ∈ write n, isDigit c = true) ∧ value (write n) = n := by
  induction n using Nat.strongRecOn with
  | ind n ih =>
    by_cases h : n < 10
    · obtain ⟨hd, hv⟩ := digitChar_byte h
      rw [write, Nat.toDigits_of_lt_base h, List.map_singleton]
      refine ⟨fun c hc => ?_, ?_⟩
      · rw [List.mem_singleton.1 hc]
        exact hd
      · rw [value, valueFrom_cons, hv]
        exact Nat.zero_add n
    · obtain ⟨hds, hv⟩ := ih (n / 10) (by omega)
      obtain ⟨hd, hv'⟩ := digitChar_byte (Nat.mod_lt n (by decide : 0 < 10))
      have hw : write n = write (n / 10) ++ [(Nat.digitChar (n % 10)).toUInt8] := by
        rw [write, Nat.toDigits_of_base_le (by decide) (by omega), List.map_append]
        rfl
      rw [hw]
      refine ⟨fun c hc => ?_, ?_⟩
      · rcases List.mem_append.1 hc with hc | hc
        · exact hds c hc
        · rw [List.mem_singleton.1 hc]
          exact hd
      · rw [value] at hv
        rw [value, valueFrom_append, hv, valueFrom_cons, hv', valueFrom_nil]
        omega

end Decimal
