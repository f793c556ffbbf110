import Mathlib.Data.List.TakeWhile
import JuttaProto.CommandPayload
import JuttaProto.Slots

namespace JuttaProto
open Run Slots
set_option autoImplicit true

def Product.items (p : Product) : List ItemsOption := p.strength.toList ++ p.temperature.toList

def Product.amounts (p : Product) : List MinMaxOption :=
  p.waterAmount.toList ++ p.milkFoamAmount.toList

def slot (argument : CString) : Option Nat :=
  if argument.head? = some 0x46 then some (decimalValue (argument.drop 1)) else none

def Product.slots (p : Product) : List Nat :=
  (p.items.map (·.argument) ++ p.amounts.map (·.argument)).filterMap slot

/-- An argument starts with no `F`, or it is an `F` and a decimal number from 2 to 16. -/
def SlotArgument (argument : CString) : Prop :=
  argument.head? = some 0x46 →
    argument.drop 1 ≠ [] ∧ (∀ c ∈ argument.drop 1, isdigit c) ∧
      2 ≤ decimalValue (argument.drop 1) ∧ decimalValue (argument.drop 1) ≤ 16

instance : Decidable (SlotArgument argument) := inferInstanceAs (Decidable (_ → _))

structure Brewable (p : Product) : Prop where
  code : twoHexDigits p.code
  items : ∀ o ∈ p.items, SlotArgument o.argument ∧ twoHexDigits o.defaultValue
  amounts : ∀ o ∈ p.amounts, SlotArgument o.argument ∧ o.step ≠ 0
  distinct : p.slots.Nodup

structure BrewLayout (p : Product) (key : UInt8) (decoded : Bytes) : Prop where
  length : decoded.length = 18
  first : decoded[0]? = some key
  last : decoded[17]? = some key
  code : ∃ code, decoded[1]? = some code ∧ p.code_to_size_t = .ok code.toUInt64
  items : ∀ o ∈ p.items, ∀ n, slot o.argument = some n →
    ∃ v, from_hex_string o.defaultValue = .ok [v] ∧ decoded[n]? = some v
  amounts : ∀ o ∈ p.amounts, ∀ n, slot o.argument = some n →
    decoded[n]? = some (o.value / o.step)
  others : ∀ n, 2 ≤ n → n ≤ 16 → n ∉ p.slots → decoded[n]? = some 0

abbrev Encodes (command : List CString) (bytes : Bytes) : Prop :=
  List.Forall₂ (fun s b => from_hex_string s = .ok [b]) command bytes

theorem from_hex_string_flatten (h : Encodes command bytes) :
    from_hex_string command.flatten = .ok bytes := by
  induction h with
  | nil => rfl
  | cons hs _ ih =>
    rw [List.flatten_cons, from_hex_string_append hs, ih]
    rfl

def optionWrites (argument : CString) (v : UInt8) : List (Nat × UInt8) :=
  (slot argument).toList.map fun n => (n, v)

def hexByte (s : CString) : UInt8 :=
  match from_hex_string s with
  | .ok [v] => v
  | _ => 0

theorem from_hex_string_hexByte (h : twoHexDigits s) : from_hex_string s = .ok [hexByte s] := by
  obtain ⟨v, hv⟩ := from_hex_string_twoHexDigits h
  rw [hexByte, hv]

def Product.writes (p : Product) : List (Nat × UInt8) :=
  p.items.flatMap (fun o => optionWrites o.argument (hexByte o.defaultValue)) ++
    p.amounts.flatMap fun o => optionWrites o.argument (o.value / o.step)

theorem isdigit_bounds {c : UInt8} (h : isdigit c) : 0x30 ≤ c.toNat ∧ c.toNat ≤ 0x39 := by
  simp only [isdigit, Bool.and_eq_true, decide_eq_true_eq, UInt8.le_iff_toNat_le,
    UInt8.reduceToNat] at h
  exact h

theorem isspace_of_isdigit {c : UInt8} (h : isdigit c) : isspace c = false := by
  have hb := isdigit_bounds h
  simp only [isspace, Bool.or_eq_false_iff, beq_eq_false_iff_ne, ne_eq, ← UInt8.toNat_inj,
    Bool.and_eq_false_iff, decide_eq_false_iff_not, UInt8.le_iff_toNat_le, UInt8.reduceToNat]
  omega

theorem extract_sign_digit {c : UInt8} (h : isdigit c) (s : CString) :
    extract_sign (c :: s) = (false, c :: s) := by
  have hb := isdigit_bounds h
  have hminus : c ≠ 0x2D := by
    intro he
    rw [he] at hb
    exact absurd hb.1 (by decide)
  have hplus : c ≠ 0x2B := by
    intro he
    rw [he] at hb
    exact absurd hb.1 (by decide)
  rw [extract_sign, if_neg hminus, if_neg hplus]

theorem extract_size_t_digits {s : CString} (hne : s ≠ []) (hd : ∀ c ∈ s, isdigit c)
    (hn : decimalValue s < 2 ^ 64) : extract_size_t s = UInt64.ofNat (decimalValue s) := by
  cases s with
  | nil => exact absurd rfl hne
  | cons c s =>
    have hc := hd c List.mem_cons_self
    have hspace : (c :: s).dropWhile isspace = c :: s := by
      rw [List.dropWhile_cons, isspace_of_isdigit hc, if_neg Bool.false_ne_true]
    have hdigits : (c :: s).takeWhile isdigit = c :: s := List.takeWhile_eq_self_iff.2 hd
    simp only [extract_size_t, hspace, extract_sign_digit hc, hdigits, if_neg hne,
      if_neg (not_le.2 hn), Bool.false_eq_true, if_false]

theorem slot_bounds (ha : SlotArgument argument) (hn : slot argument = some n) :
    2 ≤ n ∧ n ≤ 16 := by
  unfold slot at hn
  split at hn
  · rename_i hf
    cases hn
    exact (ha hf).2.2
  · cases hn

def slotIndex (argument : CString) : Nat := (extract_size_t (argument.drop 1) - 1).toNat

theorem store_option_slot (hf : argument.head? = some 0x46)
    (hi : slotIndex argument < command.length) (s : CString) :
    store_option argument (.ok s) command = .ok (command.set (slotIndex argument) s) := by
  rw [store_option, if_pos hf]
  simp only [ok_bind]
  exact if_pos hi

/-- An option stores its value in the slot that its argument names, seen from the frame. -/
theorem store_option_encodes (hc : Encodes (s₀ :: command) bytes) (hl : command.length = 17)
    (ha : SlotArgument argument) (hs : from_hex_string s = .ok [v]) :
    ∃ command', store_option argument (.ok s) command = .ok command' ∧
      Encodes (s₀ :: command') (writeAll (optionWrites argument v) bytes) ∧
      command'.length = 17 := by
  by_cases hf : argument.head? = some 0x46
  · obtain ⟨hne, hd, h2, h16⟩ := ha hf
    obtain ⟨m, hm⟩ : ∃ m, decimalValue (argument.drop 1) = m + 1 :=
      Nat.exists_eq_add_of_le' (by omega : 1 ≤ decimalValue (argument.drop 1))
    have ho : slotIndex argument = m := by
      rw [slotIndex, extract_size_t_digits hne hd (by omega), hm, UInt64.ofNat_add]
      have hsub : UInt64.ofNat m + UInt64.ofNat 1 - 1 = UInt64.ofNat m :=
        UInt64.add_sub_cancel _ _
      rw [hsub, UInt64.toNat_ofNat']
      omega
    refine ⟨command.set m s, ?_, ?_, by rw [List.length_set]; exact hl⟩
    · rw [store_option_slot hf (by rw [ho]; omega), ho]
    · simp only [optionWrites, slot, if_pos hf, hm, Option.toList_some, List.map_cons,
        List.map_nil, writeAll_cons, writeAll_nil]
      exact forall₂_set hc hs (m + 1)
  · refine ⟨command, by rw [store_option, if_neg hf], ?_, hl⟩
    simp only [optionWrites, slot, if_neg hf, Option.toList_none, List.map_nil, writeAll_nil]
    exact hc

def Stores (f : List CString → Except Fault (List CString)) (writes : List (Nat × UInt8)) : Prop :=
  ∀ s₀ command bytes, Encodes (s₀ :: command) bytes → command.length = 17 →
    ∃ command', f command = .ok command' ∧ Encodes (s₀ :: command') (writeAll writes bytes) ∧
      command'.length = 17

theorem items_stores {o : ItemsOption} (ha : SlotArgument o.argument)
    (hd : twoHexDigits o.defaultValue) :
    Stores o.to_bt_command (optionWrites o.argument (hexByte o.defaultValue)) :=
  fun _ _ _ hc hl => store_option_encodes hc hl ha (from_hex_string_hexByte hd)

theorem amounts_stores {o : MinMaxOption} (ha : SlotArgument o.argument) (hs : o.step ≠ 0) :
    Stores o.to_bt_command (optionWrites o.argument (o.value / o.step)) := by
  intro s₀ command bytes hc hl
  rw [MinMaxOption.to_bt_command, if_neg hs]
  exact store_option_encodes hc hl ha (from_hex_string_to_hex_string _)

theorem to_bt_command_if_stores {f : α → List CString → Except Fault (List CString)}
    {writes : α → List (Nat × UInt8)} {option : Option α}
    (h : ∀ o ∈ option.toList, Stores (f o) (writes o)) :
    Stores (to_bt_command_if f option) (option.toList.flatMap writes) := by
  intro s₀ command bytes hc hl
  cases option with
  | none => exact ⟨command, rfl, hc, hl⟩
  | some o =>
    rw [Option.toList_some, List.flatMap_singleton]
    exact h o List.mem_cons_self s₀ command bytes hc hl

theorem encodes_zeros :
    Encodes (cstr "00" :: List.replicate 17 (cstr "00")) (List.replicate 18 0) := by
  have h0 : from_hex_string (cstr "00") = .ok [0] := by decide +kernel
  exact .cons h0 (List.forall₂_iff_get.2 ⟨rfl, fun i _ _ => by
    simp only [List.get_eq_getElem, List.getElem_replicate]
    exact h0⟩)

/-- The command of a product as bytes: the writes of its options and then its code. -/
theorem to_bt_command_ok (h : Brewable p) :
    ∃ command, p.to_bt_command = .ok command ∧ from_hex_string command =
      .ok ((writeAll p.writes (List.replicate 18 0)).set 1 (hexByte p.code)) := by
  have hitems (o : ItemsOption) (ho : o ∈ p.items) := items_stores (h.items o ho).1 (h.items o ho).2
  have hamounts (o : MinMaxOption) (ho : o ∈ p.amounts) :=
    amounts_stores (h.amounts o ho).1 (h.amounts o ho).2
  obtain ⟨c₁, h₁, he₁, hl₁⟩ := to_bt_command_if_stores
    (fun o ho => hitems o (List.mem_append_left _ ho)) _ _ _ encodes_zeros rfl
  obtain ⟨c₂, h₂, he₂, hl₂⟩ := to_bt_command_if_stores
    (fun o ho => hitems o (List.mem_append_right _ ho)) _ _ _ he₁ hl₁
  obtain ⟨c₃, h₃, he₃, hl₃⟩ := to_bt_command_if_stores
    (fun o ho => hamounts o (List.mem_append_left _ ho)) _ _ _ he₂ hl₂
  obtain ⟨c₄, h₄, he₄, _⟩ := to_bt_command_if_stores
    (fun o ho => hamounts o (List.mem_append_right _ ho)) _ _ _ he₃ hl₃
  have hwrites : p.writes =
      p.strength.toList.flatMap (fun o => optionWrites o.argument (hexByte o.defaultValue)) ++
        p.temperature.toList.flatMap (fun o => optionWrites o.argument (hexByte o.defaultValue)) ++
        (p.waterAmount.toList.flatMap (fun o => optionWrites o.argument (o.value / o.step)) ++
          p.milkFoamAmount.toList.flatMap fun o => optionWrites o.argument (o.value / o.step)) := by
    rw [Product.writes, Product.items, Product.amounts, List.flatMap_append, List.flatMap_append]
  refine ⟨cstr "00" ++ (c₄.set 0 p.code).flatten, ?_, ?_⟩
  · simp only [Product.to_bt_command, h₁, h₂, h₃, h₄, ok_bind]
    rfl
  · rw [hwrites, writeAll_append, writeAll_append, writeAll_append]
    exact from_hex_string_flatten (forall₂_set he₄ (from_hex_string_hexByte h.code) 1)

theorem map_fst_flatMap_optionWrites (l : List α) (argument : α → CString) (v : α → UInt8) :
    (l.flatMap fun o => optionWrites (argument o) (v o)).map Prod.fst =
      (l.map argument).filterMap slot := by
  induction l with
  | nil => rfl
  | cons o l ih =>
    rw [List.flatMap_cons, List.map_append, ih, List.map_cons, List.filterMap_cons, optionWrites]
    cases slot (argument o) with
    | none => rfl
    | some n => rfl

theorem writes_slots (p : Product) : p.writes.map Prod.fst = p.slots := by
  rw [Product.writes, List.map_append, map_fst_flatMap_optionWrites, map_fst_flatMap_optionWrites,
    Product.slots, List.filterMap_append]

theorem mem_optionWrites (hn : slot argument = some n) (v : UInt8) :
    (n, v) ∈ optionWrites argument v := by
  rw [optionWrites, hn]
  exact List.mem_cons_self

theorem command_byte (h2 : 2 ≤ n) (h16 : n ≤ 16) (p : Product) (key : UInt8) :
    (override key true ((writeAll p.writes (List.replicate 18 0)).set 1 (hexByte p.code)))[n]? =
      (writeAll p.writes (List.replicate 18 0))[n]? := by
  have hl : n + 1 ≠ ((writeAll p.writes (List.replicate 18 0)).set 1 (hexByte p.code)).length := by
    rw [List.length_set, length_writeAll, List.length_replicate]
    omega
  rw [override_true_rest (by omega) hl, List.getElem?_set_ne (by omega)]

theorem brewable_layout (h : Brewable p) (key : UInt8) :
    BrewLayout p key
      (override key true ((writeAll p.writes (List.replicate 18 0)).set 1 (hexByte p.code))) := by
  have hlen : ((writeAll p.writes (List.replicate 18 0)).set 1 (hexByte p.code)).length = 18 := by
    rw [List.length_set, length_writeAll, List.length_replicate]
  have hne : (writeAll p.writes (List.replicate 18 0)).set 1 (hexByte p.code) ≠ [] := by
    apply List.ne_nil_of_length_pos
    omega
  have hnodup : (p.writes.map Prod.fst).Nodup := by
    rw [writes_slots]
    exact h.distinct
  have hwrite {n : Nat} {v : UInt8} (h2 : 2 ≤ n) (h16 : n ≤ 16) (hm : (n, v) ∈ p.writes) :
      (override key true
        ((writeAll p.writes (List.replicate 18 0)).set 1 (hexByte p.code)))[n]? = some v := by
    rw [command_byte h2 h16]
    exact getElem?_writeAll_of_mem hnodup hm (by rw [List.length_replicate]; omega)
  constructor
  case length => rw [length_override, hlen]
  case first => exact override_first hne key true
  case last =>
    have hl := override_true_last hne key
    rw [hlen] at hl
    exact hl
  case code =>
    obtain ⟨v, hv, hcode⟩ := code_to_size_t_twoHexDigits h.code
    have hb : hexByte p.code = v := by rw [hexByte, hv]
    refine ⟨v, ?_, hcode⟩
    rw [override_true_rest (by decide) (by rw [hlen]; decide), hb,
      List.getElem?_set_self (by rw [length_writeAll, List.length_replicate]; decide)]
  case items =>
    intro o ho n hn
    obtain ⟨h2, h16⟩ := slot_bounds (h.items o ho).1 hn
    refine ⟨_, from_hex_string_hexByte (h.items o ho).2, hwrite h2 h16 ?_⟩
    exact List.mem_append_left _ (List.mem_flatMap.2 ⟨o, ho, mem_optionWrites hn _⟩)
  case amounts =>
    intro o ho n hn
    obtain ⟨h2, h16⟩ := slot_bounds (h.amounts o ho).1 hn
    refine hwrite h2 h16 ?_
    exact List.mem_append_right _ (List.mem_flatMap.2 ⟨o, ho, mem_optionWrites hn _⟩)
  case others =>
    intro n h2 h16 hn
    rw [command_byte h2 h16, getElem?_writeAll_of_notMem (by rw [writes_slots]; exact hn),
      List.getElem?_replicate_of_lt (by omega)]

/-- A brewable product is sent in a frame of the documented layout. -/
theorem request_coffee_product_layout (h : Brewable p) (written : Int) (w : World) :
    ∃ w' call, request_coffee_product p written w = .ok w' ∧ w'.wire = w.wire ++ [call] ∧
      call.characteristic = START_PRODUCT_CHARACTERISTIC_UUID ∧
      BrewLayout p w.key (encDecBytes call.data w.key) := by
  obtain ⟨command, hc, hx⟩ := to_bt_command_ok h
  have hne : (writeAll p.writes (List.replicate 18 0)).set 1 (hexByte p.code) ≠ [] := by
    apply List.ne_nil_of_length_pos
    rw [List.length_set, length_writeAll, List.length_replicate]
    decide
  have hw : request_coffee_product p written w =
      .ok (BLEDevice.write START_PRODUCT_CHARACTERISTIC_UUID (encDecBytes (override w.key true
        ((writeAll p.writes (List.replicate 18 0)).set 1 (hexByte p.code))) w.key) written w) := by
    rw [request_coffee_product, hc, ok_bind, hx, ok_bind, write_ne_nil hne]
  refine ⟨_, _, hw, rfl, rfl, ?_⟩
  rw [encDecBytes_twice]
  exact brewable_layout h w.key

theorem exampleProduct_layout :
    ∃ w' call, request_coffee_product exampleProduct GATTLIB_SUCCESS exampleWorld = .ok w' ∧
      w'.wire = exampleWorld.wire ++ [call] ∧
      call.characteristic = START_PRODUCT_CHARACTERISTIC_UUID ∧
      BrewLayout exampleProduct exampleWorld.key (encDecBytes call.data exampleWorld.key) :=
  request_coffee_product_layout
    ⟨by decide, by decide +kernel, by decide +kernel, by decide⟩ GATTLIB_SUCCESS exampleWorld

end JuttaProto
