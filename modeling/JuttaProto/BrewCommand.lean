import JuttaProto.MachineFile

namespace JuttaProto
open Run
set_option autoImplicit true

def isspace (c : UInt8) : Bool := c == 0x20 || (0x09 ≤ c && c ≤ 0x0D)

def isdigit (c : UInt8) : Bool := 0x30 ≤ c && c ≤ 0x39

def decimalValue (digits : CString) : Nat :=
  digits.foldl (fun n c => 10 * n + (c.toNat - 0x30)) 0

def extract_sign (s : CString) : Bool × CString :=
  match s with
  | [] => (false, [])
  | c :: s' => if c = 0x2D then (true, s') else if c = 0x2B then (false, s') else (false, s)

/-- The formatted extraction `iss >> offset` into a `size_t`: white space is skipped, a sign
is accepted, a negative number wraps, an overflow gives the maximum and a failure gives 0. -/
def extract_size_t (s : CString) : UInt64 :=
  let (negative, s) := extract_sign (s.dropWhile isspace)
  let digits := s.takeWhile isdigit
  if digits = [] then 0
  else if 2 ^ 64 ≤ decimalValue digits then -1
  else if negative then -UInt64.ofNat (decimalValue digits)
  else UInt64.ofNat (decimalValue digits)

/-- Stores a value in the slot of the command that an argument `F<offset>` selects. Other
arguments are reported and leave the command as it is. -/
def store_option (argument : CString) (value : Except Fault CString) (command : List CString) :
    Except Fault (List CString) :=
  if argument.head? = some 0x46 then do
    let offset := extract_size_t (argument.drop 1)
    let v ← value
    let i := (offset - 1).toNat
    if i < command.length then .ok (command.set i v) else .error (.outOfRange .to_bt_command)
  else .ok command

def ItemsOption.to_bt_command (o : ItemsOption) (command : List CString) :
    Except Fault (List CString) :=
  store_option o.argument (.ok o.defaultValue) command

def MinMaxOption.to_bt_command (o : MinMaxOption) (command : List CString) :
    Except Fault (List CString) :=
  let v := if o.step = 0 then .error .divByZero else .ok (to_hex_string [o.value / o.step])
  store_option o.argument v command

def to_bt_command_if (to_bt_command : α → List CString → Except Fault (List CString))
    (option : Option α) (command : List CString) : Except Fault (List CString) :=
  match option with
  | some o => to_bt_command o command
  | none => .ok command

def Product.to_bt_command (p : Product) : Except Fault CString := do
  let command := List.replicate 17 (cstr "00")
  let command ← to_bt_command_if ItemsOption.to_bt_command p.strength command
  let command ← to_bt_command_if ItemsOption.to_bt_command p.temperature command
  let command ← to_bt_command_if MinMaxOption.to_bt_command p.waterAmount command
  let command ← to_bt_command_if MinMaxOption.to_bt_command p.milkFoamAmount command
  let command := command.set 0 p.code
  return cstr "00" ++ command.flatten

def Product.code_to_size_t (p : Product) : Except Fault UInt64 := do
  let codeVec ← from_hex_string p.code
  return codeVec.foldl (fun codeVal c => (codeVal <<< 8) ||| c.toUInt64) 0

def twoHexDigits (s : CString) : Bool :=
  match s with
  | [c, c'] => isHexDigit c && isHexDigit c'
  | _ => false

theorem from_hex_string_twoHexDigits (h : twoHexDigits s) :
    ∃ v, from_hex_string s = .ok [v] := by
  unfold twoHexDigits at h
  split at h
  · rw [Bool.and_eq_true] at h
    exact from_hex_string_two h.1 h.2
  · cases h

theorem code_to_size_t_twoHexDigits {p : Product} (h : twoHexDigits p.code) :
    ∃ v : UInt8, from_hex_string p.code = .ok [v] ∧ p.code_to_size_t = .ok v.toUInt64 := by
  obtain ⟨v, hv⟩ := from_hex_string_twoHexDigits h
  refine ⟨v, hv, ?_⟩
  rw [Product.code_to_size_t, hv, ok_bind]
  have hz : ((0 : UInt64) <<< 8) ||| v.toUInt64 = v.toUInt64 := UInt64.zero_or
  rw [List.foldl_cons, hz]
  rfl

end JuttaProto
