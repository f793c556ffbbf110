import JuttaProto.BrewFrame

namespace JuttaProto
open Run
set_option autoImplicit true

/-- The amounts of an option that fit into the byte of a command, in units of its step. -/
def Admissible (option : XMLElement) : Prop :=
  0 ≤ option.IntAttribute "Min" ∧ option.IntAttribute "Min" ≤ option.IntAttribute "Value" ∧
    option.IntAttribute "Value" ≤ option.IntAttribute "Max" ∧
    1 ≤ option.IntAttribute "Step" ∧ option.IntAttribute "Step" ≤ 255 ∧
    option.IntAttribute "Value" / option.IntAttribute "Step" ≤ 255

instance : DecidablePred Admissible := fun _ => inferInstanceAs (Decidable (_ ∧ _))

def encode_amount (option : XMLElement) (command : List CString) :
    Except Fault (List CString) := do
  let o ← load_min_max_option option
  o.to_bt_command command

theorem div_mod_eq_iff {value step : Nat} (hs : 0 < step) (h : step ≤ 255) :
    value % 256 / step = value / step ↔ value ≤ 255 := by
  constructor
  · intro he
    by_contra hv
    -- what the remainder loses is at least one step
    have hle : value % 256 + step ≤ value := by omega
    have hd : (value % 256 + step) / step ≤ value / step := Nat.div_le_div_right hle
    rw [Nat.add_div_right _ hs] at hd
    omega
  · intro hv
    rw [Nat.mod_eq_of_lt (by omega)]

theorem toNat_ofInt_natCast (n : Nat) : (UInt8.ofInt (n : Int)).toNat = n % 256 := by
  rw [UInt8.ofInt, UInt8.toNat_ofNat']
  omega

theorem set_inj {l : List α} (hi : i < l.length) : l.set i a = l.set i b ↔ a = b := by
  constructor
  · intro h
    have hg := congrArg (fun l => l[i]?) h
    simp only [List.getElem?_set_self hi, Option.some.injEq] at hg
    exact hg
  · intro h
    rw [h]

theorem to_hex_string_inj {data data' : Bytes} (h : to_hex_string data = to_hex_string data') :
    data = data' := by
  have hd := from_hex_string_to_hex_string data
  rw [h, from_hex_string_to_hex_string data'] at hd
  exact (Except.ok.inj hd).symm

theorem encode_amount_ok (ha : option.Attribute "Argument" = some argument)
    (hf : argument.head? = some 0x46) (hi : slotIndex argument < command.length)
    (hs : UInt8.ofInt (option.IntAttribute "Step") ≠ 0) :
    encode_amount option command = .ok (command.set (slotIndex argument) (to_hex_string
      [UInt8.ofInt (option.IntAttribute "Value") / UInt8.ofInt (option.IntAttribute "Step")])) := by
  have hl : load_min_max_option option = .ok ⟨argument,
      UInt8.ofInt (option.IntAttribute "Value"), UInt8.ofInt (option.IntAttribute "Min"),
      UInt8.ofInt (option.IntAttribute "Max"), UInt8.ofInt (option.IntAttribute "Step")⟩ := by
    rw [load_min_max_option, XMLElement.string, ha]
    rfl
  rw [encode_amount, hl, ok_bind, MinMaxOption.to_bt_command, if_neg hs, store_option_slot hf hi]

/-- An amount that fits into the byte of a command is written as it is exactly when it also fits
into a byte before it is divided by its step. -/
theorem encode_amount_unaltered_iff (ha : option.Attribute "Argument" = some argument)
    (hf : argument.head? = some 0x46) (hi : slotIndex argument < command.length)
    (h : Admissible option) :
    encode_amount option command = .ok (command.set (slotIndex argument) (to_hex_string
        [UInt8.ofInt (option.IntAttribute "Value" / option.IntAttribute "Step")])) ↔
      option.IntAttribute "Value" ≤ 255 := by
  obtain ⟨hmin, hvalue, _, hs1, hs, hq⟩ := h
  obtain ⟨value, hv⟩ := Int.eq_ofNat_of_zero_le (hmin.trans hvalue)
  obtain ⟨step, hstep⟩ := Int.eq_ofNat_of_zero_le (by omega : 0 ≤ option.IntAttribute "Step")
  rw [hv, hstep, ← Int.natCast_ediv] at hq
  rw [hstep] at hs1 hs
  have hmod : step % 256 = step := Nat.mod_eq_of_lt (by omega)
  have hq' : value / step % 256 = value / step :=
    Nat.mod_eq_of_lt (Nat.lt_succ_of_le (Int.ofNat_le.1 hq))
  have hne : UInt8.ofInt (option.IntAttribute "Step") ≠ 0 := by
    intro h0
    have hn := toNat_ofInt_natCast step
    rw [← hstep, h0, hmod, UInt8.toNat_zero] at hn
    omega
  have hquot : UInt8.ofInt value / UInt8.ofInt step = UInt8.ofInt (value / step) ↔
      (value : Int) ≤ 255 := by
    rw [← UInt8.toNat_inj, UInt8.toNat_div, ← Int.natCast_ediv, toNat_ofInt_natCast,
      toNat_ofInt_natCast, toNat_ofInt_natCast, hmod, hq', div_mod_eq_iff (by omega) (by omega)]
    omega
  rw [encode_amount_ok ha hf hi hne, Except.ok.injEq, set_inj hi, hv, hstep, ← hquot]
  constructor
  · intro h
    exact List.singleton_inj.1 (to_hex_string_inj h)
  · intro h
    rw [h]

def amountOption (value max step : Int) : XMLElement :=
  let number (name : String) (i : Int) : XMLAttribute := ⟨name, cstr (toString i), some i⟩
  .mk "WATER_AMOUNT" [⟨"Argument", cstr "F4", none⟩, number "Value" value, number "Min" 0,
    number "Max" max, number "Step" step] []

theorem encode_amount_unaltered_cup :
    encode_amount (amountOption 100 240 5) (List.replicate 17 (cstr "00")) =
        .ok ((List.replicate 17 (cstr "00")).set 3 (to_hex_string [UInt8.ofInt (100 / 5)])) ↔
      (100 : Int) ≤ 255 := by
  have ha : (amountOption 100 240 5).Attribute "Argument" = some (cstr "F4") := by decide +kernel
  have hf : (cstr "F4").head? = some 0x46 := by decide +kernel
  have hi : slotIndex (cstr "F4") < (List.replicate 17 (cstr "00")).length := by decide +kernel
  have h : Admissible (amountOption 100 240 5) := by decide +kernel
  exact encode_amount_unaltered_iff ha hf hi h

/-- Of 450 ml in steps of 5 ml, 38 steps are left and not 90. -/
theorem encode_amount_truncates :
    Admissible (amountOption 450 500 5) ∧
      encode_amount (amountOption 450 500 5) (List.replicate 17 (cstr "00")) =
        .ok ((List.replicate 17 (cstr "00")).set 3 (to_hex_string [38])) ∧
      to_hex_string [38] ≠ to_hex_string [UInt8.ofInt (450 / 5)] := by
  decide +kernel

/-- An argument selects one of the 17 slots of a command. -/
def Usable (argument : CString) : Prop :=
  argument.head? = some 0x46 ∧ 1 ≤ (extract_size_t (argument.drop 1)).toNat ∧
    (extract_size_t (argument.drop 1)).toNat ≤ 17

instance : DecidablePred Usable := fun _ => inferInstanceAs (Decidable (_ ∧ _))

/-- The command of a product is built without a fault, and an option whose argument selects no
slot leaves every command as it is. -/
structure Total (p : Product) : Prop where
  builds : ∃ s, p.to_bt_command = .ok s
  items : ∀ o ∈ p.items, ¬Usable o.argument → ∀ command, command.length = 17 →
    o.to_bt_command command = .ok command
  amounts : ∀ o ∈ p.amounts, ¬Usable o.argument → ∀ command, command.length = 17 →
    o.to_bt_command command = .ok command

/-- Arguments that start with an `F` select a slot, and the amounts among them have a step. -/
structure Encodable (p : Product) : Prop where
  items : ∀ o ∈ p.items, o.argument.head? = some 0x46 → Usable o.argument
  amounts : ∀ o ∈ p.amounts, o.argument.head? = some 0x46 → Usable o.argument ∧ o.step ≠ 0

theorem usable_iff (hf : argument.head? = some 0x46) :
    Usable argument ↔ slotIndex argument < 17 := by
  rw [Usable, slotIndex, UInt64.toNat_sub, UInt64.toNat_one]
  have hlt := (extract_size_t (argument.drop 1)).toNat_lt
  constructor
  · intro h
    omega
  · intro h
    exact ⟨hf, by omega⟩

def Works (f : List CString → Except Fault (List CString)) (P : Prop) : Prop :=
  ∀ command, command.length = 17 →
    (P → ∃ command', f command = .ok command' ∧ command'.length = 17) ∧
      (∀ command', f command = .ok command' → P)

theorem Works.bind (hf : Works f P) (hg : Works g Q) : Works (fun c => f c >>= g) (P ∧ Q) := by
  intro command hl
  constructor
  · rintro ⟨hp, hq⟩
    obtain ⟨c₁, h₁, hl₁⟩ := (hf command hl).1 hp
    obtain ⟨c₂, h₂, hl₂⟩ := (hg c₁ hl₁).1 hq
    exact ⟨c₂, by simp only [h₁, ok_bind, h₂], hl₂⟩
  · intro c₂ h
    obtain ⟨c₁, h₁, h₂⟩ := bind_ok h
    have hp := (hf command hl).2 c₁ h₁
    obtain ⟨c₁', h₁', hl₁⟩ := (hf command hl).1 hp
    rw [h₁] at h₁'
    cases h₁'
    exact ⟨hp, (hg c₁ hl₁).2 c₂ h₂⟩

theorem works_option {f : α → List CString → Except Fault (List CString)} {P : α → Prop}
    (h : ∀ o, Works (f o) (P o)) (option : Option α) :
    Works (to_bt_command_if f option) (∀ o ∈ option.toList, P o) := by
  intro command hl
  cases option with
  | none => exact ⟨fun _ => ⟨command, rfl, hl⟩, fun _ _ => List.forall_mem_nil _⟩
  | some o =>
    rw [Option.toList_some, List.forall_mem_singleton]
    exact h o command hl

theorem works_store_option {value : Except Fault CString} {P : Prop}
    (hv : P ↔ ∃ v, value = .ok v) (argument : CString) :
    Works (store_option argument value)
      (argument.head? = some 0x46 → Usable argument ∧ P) := by
  intro command hl
  by_cases hf : argument.head? = some 0x46
  · rw [usable_iff hf, ← hl, hv, store_option, if_pos hf]
    constructor
    · intro h
      obtain ⟨hi, v, he⟩ := h hf
      refine ⟨command.set (slotIndex argument) v, ?_, by rw [List.length_set]⟩
      rw [he]
      exact if_pos hi
    · intro command' h _
      obtain ⟨v, he, h⟩ := bind_ok h
      by_cases hi : slotIndex argument < command.length
      · exact ⟨hi, v, he⟩
      · cases (if_neg hi).symm.trans h
  · rw [store_option, if_neg hf]
    exact ⟨fun _ => ⟨command, rfl, hl⟩, fun _ _ h => absurd h hf⟩

theorem works_items (o : ItemsOption) :
    Works o.to_bt_command (o.argument.head? = some 0x46 → Usable o.argument ∧ True) :=
  works_store_option (iff_of_true trivial ⟨_, rfl⟩) o.argument

theorem works_amounts (o : MinMaxOption) :
    Works o.to_bt_command (o.argument.head? = some 0x46 → Usable o.argument ∧ o.step ≠ 0) := by
  apply works_store_option
  by_cases hs : o.step = 0
  · rw [if_pos hs]
    apply iff_of_false (not_not.2 hs)
    rintro ⟨v, he⟩
    cases he
  · rw [if_neg hs]
    exact iff_of_true hs ⟨_, rfl⟩

theorem encodable_iff (p : Product) :
    Encodable p ↔
      (∀ o ∈ p.strength.toList, o.argument.head? = some 0x46 → Usable o.argument ∧ True) ∧
      (∀ o ∈ p.temperature.toList, o.argument.head? = some 0x46 → Usable o.argument ∧ True) ∧
      (∀ o ∈ p.waterAmount.toList, o.argument.head? = some 0x46 →
        Usable o.argument ∧ o.step ≠ 0) ∧
      ∀ o ∈ p.milkFoamAmount.toList, o.argument.head? = some 0x46 →
        Usable o.argument ∧ o.step ≠ 0 := by
  simp only [and_true]
  constructor
  · rintro ⟨hi, ha⟩
    rw [Product.items, List.forall_mem_append] at hi
    rw [Product.amounts, List.forall_mem_append] at ha
    exact ⟨hi.1, hi.2, ha.1, ha.2⟩
  · rintro ⟨hs, ht, hw, hm⟩
    exact ⟨List.forall_mem_append.2 ⟨hs, ht⟩, List.forall_mem_append.2 ⟨hw, hm⟩⟩

theorem to_bt_command_builds_iff (p : Product) :
    (∃ s, p.to_bt_command = .ok s) ↔ Encodable p := by
  have hworks := (works_option works_items p.strength).bind
    ((works_option works_items p.temperature).bind
      ((works_option works_amounts p.waterAmount).bind
        (works_option works_amounts p.milkFoamAmount)))
  obtain ⟨hok, hcond⟩ := hworks _ (List.length_replicate (a := cstr "00"))
  rw [← encodable_iff] at hok hcond
  constructor
  · rintro ⟨s, h⟩
    obtain ⟨c₁, h₁, h⟩ := bind_ok h
    obtain ⟨c₂, h₂, h⟩ := bind_ok h
    obtain ⟨c₃, h₃, h⟩ := bind_ok h
    obtain ⟨c₄, h₄, _⟩ := bind_ok h
    apply hcond c₄
    simp only [h₁, h₂, h₃, h₄, ok_bind]
  · intro he
    obtain ⟨c₄, h, _⟩ := hok he
    obtain ⟨c₁, h₁, h⟩ := bind_ok h
    obtain ⟨c₂, h₂, h⟩ := bind_ok h
    obtain ⟨c₃, h₃, h₄⟩ := bind_ok h
    simp only [Product.to_bt_command, h₁, h₂, h₃, h₄, ok_bind]
    exact ⟨_, rfl⟩

theorem store_option_unusable (hu : ¬Usable argument)
    (h : argument.head? = some 0x46 → Usable argument) (value : Except Fault CString)
    (command : List CString) : store_option argument value command = .ok command := by
  rw [store_option, if_neg fun hf => hu (h hf)]

/-- The command of a product is built without a division by zero and without a write outside of
its slots exactly when every argument with an `F` selects a slot and no amount among them has the
step 0. -/
theorem to_bt_command_total_iff (p : Product) : Total p ↔ Encodable p := by
  constructor
  · intro h
    exact (to_bt_command_builds_iff p).1 h.builds
  · intro h
    refine ⟨(to_bt_command_builds_iff p).2 h, fun o ho hu command _ => ?_,
      fun o ho hu command _ => ?_⟩
    · exact store_option_unusable hu (h.items o ho) _ command
    · exact store_option_unusable hu (fun hf => (h.amounts o ho hf).1) _ command

def productDoc (option : XMLElement) : XMLElement :=
  .mk "JOE" [] [.mk "PRODUCTS" [] [.mk "PRODUCT"
    [⟨"Name", cstr "Coffee", none⟩, ⟨"Code", cstr "03", none⟩] [option]]]

def strengthOption (argument : String) : XMLElement :=
  .mk "COFFEE_STRENGTH" [⟨"Argument", cstr argument, none⟩, ⟨"Default", cstr "04", none⟩] []

/-- An amount without a step is divided by zero, and the arguments `F0`, `F18` and `Fx` are
written outside of the command. -/
theorem to_bt_command_faults :
    (∃ products, load_products (productDoc (.mk "WATER_AMOUNT"
        [⟨"Argument", cstr "F4", none⟩] [])) = .ok products ∧
      products.map Product.to_bt_command = [.error .divByZero]) ∧
    ∀ argument ∈ ["F0", "F18", "Fx"],
      ∃ products, load_products (productDoc (strengthOption argument)) = .ok products ∧
        products.map Product.to_bt_command = [.error (.outOfRange .to_bt_command)] := by
  decide +kernel

end JuttaProto
