import JuttaProto.ByteEncDecoder
import JuttaProto.Run

namespace JuttaProto
open Nibble Run
set_option autoImplicit true

inductive Assertion
  | hexChar
  | loadFileSuccess
  | statisticXml
  | maintenanceXml
  | noConnection
  | notConnected
  | noHeartbeatThread
  | heartbeatThread
  deriving DecidableEq, Repr

inductive Site
  | from_hex_string
  | to_bt_command
  | parse_version
  | parse_machine_status
  | parse_man_data
  | get_stat_val
  | write
  deriving DecidableEq, Repr

inductive Pointer
  | joe
  | joeXml
  | productsXml
  | alertsXml
  deriving DecidableEq, Repr

/-- What ends the program instead of a result. -/
inductive Fault
  | outOfRange (site : Site)
  | nullDeref (pointer : Pointer)
  | nullString
  | divByZero
  | lengthError
  | exit
  | assertion (a : Assertion)
  deriving DecidableEq, Repr

/-- The unchecked `data[i]` of the source. -/
def index (site : Site) (data : Bytes) (i : Nat) : Except Fault UInt8 :=
  match data[i]? with
  | some b => .ok b
  | none => .error (.outOfRange site)

theorem index_ok {data : Bytes} (h : data[i]? = some b) : index site data i = .ok b := by
  rw [index, h]

/-- A `std::string` is the list of its bytes. -/
abbrev CString := List UInt8

def cstr (s : String) : CString := s.toList.map Char.toUInt8

def HEX_CHARS : Vector UInt8 16 :=
  #v[0x30, 0x31, 0x32, 0x33, 0x34, 0x35, 0x36, 0x37, 0x38, 0x39,
    0x41, 0x42, 0x43, 0x44, 0x45, 0x46]

def to_hex_string (data : Bytes) : CString :=
  data.flatMap fun b : UInt8 =>
    [HEX_CHARS.get ⟨(b >>> 4).toNat, high_lt b⟩, HEX_CHARS.get ⟨(b &&& 0x0F).toNat, low_lt b⟩]

def toupper (c : UInt8) : UInt8 := if 0x61 ≤ c ∧ c ≤ 0x7A then c - 0x20 else c

def get_hex_char_val (c : UInt8) : Except Fault UInt8 :=
  let i := toupper c
  if 0x30 ≤ i ∧ i ≤ 0x39 then .ok (i - 0x30)
  else if 0x41 ≤ i ∧ i ≤ 0x46 then .ok (i - 0x41 + 10)
  else .error (.assertion .hexChar)

/-- In a string of odd length the last round reads the terminating NUL and would store its
byte behind the end of the result. -/
def from_hex_string : CString → Except Fault Bytes
  | [] => .ok []
  | [c] => do
    let _ ← get_hex_char_val c
    let _ ← get_hex_char_val 0
    .error (.outOfRange .from_hex_string)
  | c :: c' :: hex => do
    let l ← get_hex_char_val c
    let r ← get_hex_char_val c'
    let result ← from_hex_string hex
    return ((l <<< 4) ||| r) :: result

def isHexDigit (c : UInt8) : Bool :=
  (0x30 ≤ c && c ≤ 0x39) || (0x41 ≤ c && c ≤ 0x46) || (0x61 ≤ c && c ≤ 0x66)

theorem get_hex_char_val_digit {c : UInt8} (h : isHexDigit c) :
    ∃ v, get_hex_char_val c = .ok v ∧ v.toNat < 16 := by
  have hc : ∀ n : Fin 256, isHexDigit (UInt8.ofNat n) →
      ∃ v : Fin 16, get_hex_char_val (UInt8.ofNat n) = .ok (UInt8.ofNat v) := by decide +kernel
  obtain ⟨v, hv⟩ := hc ⟨c.toNat, c.toNat_lt⟩ (by simpa using h)
  refine ⟨UInt8.ofNat v, by simpa using hv, ?_⟩
  have hlt := v.2
  simp only [UInt8.toNat_ofNat']
  omega

theorem from_hex_string_two (h : isHexDigit c) (h' : isHexDigit c') :
    ∃ v, from_hex_string [c, c'] = .ok [v] := by
  obtain ⟨l, hl, _⟩ := get_hex_char_val_digit h
  obtain ⟨r, hr, _⟩ := get_hex_char_val_digit h'
  exact ⟨(l <<< 4) ||| r, by simp only [from_hex_string, hl, hr, ok_bind]; rfl⟩

theorem from_hex_string_single (c : UInt8) : from_hex_string [c] ≠ .ok v := by
  intro h
  obtain ⟨_, _, h⟩ := bind_ok h
  obtain ⟨_, _, h⟩ := bind_ok h
  cases h

theorem from_hex_string_pair (h : from_hex_string (c :: c' :: hex) = .ok v) :
    ∃ l r w, get_hex_char_val c = .ok l ∧ get_hex_char_val c' = .ok r ∧
      from_hex_string hex = .ok w ∧ v = ((l <<< 4) ||| r) :: w := by
  obtain ⟨l, hl, h⟩ := bind_ok h
  obtain ⟨r, hr, h⟩ := bind_ok h
  obtain ⟨w, hw, h⟩ := bind_ok h
  cases h
  exact ⟨l, r, w, hl, hr, hw, rfl⟩

theorem from_hex_string_append {s s' : CString} (h : from_hex_string s = .ok v) :
    from_hex_string (s ++ s') = (v ++ ·) <$> from_hex_string s' := by
  induction s using from_hex_string.induct generalizing v with
  | case1 =>
    cases h
    rw [List.nil_append]
    cases from_hex_string s' <;> rfl
  | case2 c => exact absurd h (from_hex_string_single c)
  | case3 c c' hex ih =>
    obtain ⟨l, r, w, hl, hr, hw, rfl⟩ := from_hex_string_pair h
    simp only [List.cons_append, from_hex_string, hl, hr, ih hw, ok_bind]
    cases from_hex_string s' <;> rfl

theorem get_hex_char_val_HEX_CHARS (i : Fin 16) :
    get_hex_char_val (HEX_CHARS.get i) = .ok (UInt8.ofNat i) := by
  revert i
  decide +kernel

theorem from_hex_string_to_hex_string (data : Bytes) :
    from_hex_string (to_hex_string data) = .ok data := by
  induction data with
  | nil => rfl
  | cons b data ih =>
    have hl := get_hex_char_val_HEX_CHARS ⟨(b >>> 4).toNat, high_lt b⟩
    have hr := get_hex_char_val_HEX_CHARS ⟨(b &&& 0x0F).toNat, low_lt b⟩
    simp only [UInt8.ofNat_toNat] at hl hr
    simp only [to_hex_string, List.flatMap_cons, List.cons_append, List.nil_append,
      from_hex_string, hl, hr, ok_bind]
    rw [to_hex_string] at ih
    rw [ih, ok_bind, join_high_low]
    rfl

end JuttaProto
