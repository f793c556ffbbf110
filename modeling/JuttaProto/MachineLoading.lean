import JuttaProto.Faults

namespace JuttaProto
open Run
set_option autoImplicit true

/-- The fault is a failed assertion or an exception, and no use of a null pointer. -/
def Fault.reported : Fault → Bool
  | .assertion _ | .lengthError => true
  | _ => false

abbrev NullSafe (x : Except Fault α) : Prop := Avoids (fun f => f.reported = false) x

abbrev NullOnly (x : Except Fault α) : Prop := Within (fun f => f.reported = false) x

def XMLElement.Has (e : XMLElement) (name : String) : Prop := (e.Attribute name).isSome

instance (e : XMLElement) (name : String) : Decidable (e.Has name) :=
  inferInstanceAs (Decidable (_ = true))

/-- What `load_items_option` dereferences without a check. -/
structure ItemsLoadable (option : XMLElement) : Prop where
  argument : option.Has "Argument"
  defaultValue : option.Has "Default"
  items : ∀ e ∈ option.elements "ITEM", e.Has "Name" ∧ e.Has "Value"

structure ProductLoadable (e : XMLElement) : Prop where
  name : e.Has "Name"
  code : e.Has "Code"
  strength : ∀ option, e.FirstChildElement "COFFEE_STRENGTH" = some option → ItemsLoadable option
  temperature : ∀ option, e.FirstChildElement "TEMPERATURE" = some option → ItemsLoadable option
  waterAmount : ∀ option, e.FirstChildElement "WATER_AMOUNT" = some option →
    option.Has "Argument"
  milkFoamAmount : ∀ option, e.FirstChildElement "MILK_FOAM_AMOUNT" = some option →
    option.Has "Argument"

def bankNamed (bankName : CString) (banks : List XMLElement) : Option XMLElement :=
  banks.find? fun bankXml => bankXml.Attribute "Name" == some bankName

def bankItems (bankName : CString) (banks : List XMLElement) : List XMLElement :=
  ((bankNamed bankName banks).map fun bankXml => bankXml.elements "TEXTITEM").getD []

/-- The banks up to the first one of the name have names, and its text items have types. -/
structure BankLoadable (bankName : CString) (banks : List XMLElement) : Prop where
  names : ∀ bankXml ∈ banks.takeWhile fun bankXml => bankXml.Attribute "Name" != some bankName,
    bankXml.Has "Name"
  types : ∀ e ∈ bankItems bankName banks, e.Has "Type"

def maintenancePage (joe : XMLElement) : Option XMLElement :=
  (joe.FirstChildElement "STATISTIC").bind fun e => e.FirstChildElement "MAINTENANCEPAGE"

def maintenanceBanks (joe : XMLElement) : List XMLElement :=
  ((maintenancePage joe).map fun e => e.elements "BANK").getD []

def maintenanceItems (bankName : CString) (joe : XMLElement) : List XMLElement :=
  bankItems bankName (maintenanceBanks joe)

/-- All that `load_joe` dereferences without a check is there. Without a maintenance page it ends
in an assertion before it looks at a bank. The second bank is looked for when a vector can hold
the first table. -/
structure JoeLoadable (joe : XMLElement) : Prop where
  dated : joe.Has "dated"
  products : ∃ productsXml, joe.FirstChildElement "PRODUCTS" = some productsXml ∧
    ∀ e ∈ productsXml.elements "PRODUCT", ProductLoadable e
  alerts : ∃ alertsXml, joe.FirstChildElement "ALERTS" = some alertsXml ∧
    ∀ e ∈ alertsXml.elements "ALERT", e.Has "Name"
  counters : BankLoadable (cstr "Maintenance Counter") (maintenanceBanks joe)
  percentages : (maintenanceItems (cstr "Maintenance Counter") joe).length < 2 ^ 57 →
    BankLoadable (cstr "Maintenance Percent") (maintenanceBanks joe)

theorem nullSafe_seq_iff {x : Except Fault α} {f : α → Except Fault β} {P Q : Prop}
    (hx : NullOnly x) (hp : NullSafe x ↔ P) (hf : ∀ a, NullSafe (f a) ↔ Q) :
    NullSafe (x >>= f) ↔ P ∧ Q :=
  (avoids_seq_iff hx hf).trans (and_congr_left' hp)

theorem nullSafe_last_iff {x : Except Fault α} {P : Prop} (hp : NullSafe x ↔ P) (g : α → β) :
    NullSafe (x >>= fun a => pure (g a)) ↔ P := by
  apply (avoids_bind_iff.trans ?_).trans hp
  exact ⟨fun h => h.1, fun h => ⟨h, fun a _ => avoids_ok _ (g a)⟩⟩

theorem nullSafe_mapM_iff {f : α → Except Fault β} {P : α → Prop} (hf : ∀ a, NullOnly (f a))
    (hp : ∀ a, NullSafe (f a) ↔ P a) (l : List α) : NullSafe (l.mapM f) ↔ ∀ a ∈ l, P a :=
  (avoids_mapM_iff hf l).trans (forall₂_congr fun a _ => hp a)

theorem nullSafe_string_iff (e : XMLElement) (name : String) :
    NullSafe (e.string name) ↔ e.Has name := by
  rw [XMLElement.string, XMLElement.Has]
  cases e.Attribute name with
  | none =>
    apply iff_of_false
    · intro h
      exact h .nullString rfl rfl
    · exact Bool.false_ne_true
  | some s => exact iff_of_true (avoids_ok _ s) rfl

theorem nullSafe_load_option_iff {load : XMLElement → Except Fault α} {P : XMLElement → Prop}
    (h : ∀ option, NullSafe (load option) ↔ P option) (e : XMLElement) (name : String) :
    NullSafe (load_option load e name) ↔
      ∀ option, e.FirstChildElement name = some option → P option := by
  rw [load_option]
  cases e.FirstChildElement name with
  | none =>
    apply iff_of_true (avoids_ok _ none)
    intro _ he
    cases he
  | some option =>
    apply (avoids_map_iff.trans (h option)).trans
    constructor
    · intro hp _ he
      exact Option.some.inj he ▸ hp
    · intro hp
      exact hp option rfl

theorem nullSafe_load_items_option_iff (option : XMLElement) :
    NullSafe (load_items_option option) ↔ ItemsLoadable option := by
  have honly (e : XMLElement) (name : String) : NullOnly (e.string name) :=
    within_string (by rfl) e name
  have hitem (e : XMLElement) := nullSafe_seq_iff (honly e "Name") (nullSafe_string_iff e "Name")
    fun name => nullSafe_last_iff (nullSafe_string_iff e "Value") (Item.mk name)
  have hitems := nullSafe_mapM_iff (fun e => (honly e "Name").bind fun name _ =>
    (honly e "Value").bind fun value _ => within_ok _ (Item.mk name value)) hitem
    (option.elements "ITEM")
  have hoption : NullSafe (load_items_option option) ↔
      option.Has "Argument" ∧ option.Has "Default" ∧
        ∀ e ∈ option.elements "ITEM", e.Has "Name" ∧ e.Has "Value" :=
    nullSafe_seq_iff (within_string (by rfl) _ _) (nullSafe_string_iff _ _) fun argument =>
      nullSafe_seq_iff (within_string (by rfl) _ _) (nullSafe_string_iff _ _) fun defaultValue =>
        nullSafe_last_iff hitems (ItemsOption.mk argument defaultValue)
  rw [hoption]
  exact ⟨fun ⟨ha, hd, hi⟩ => ⟨ha, hd, hi⟩, fun h => ⟨h.argument, h.defaultValue, h.items⟩⟩

theorem nullSafe_load_min_max_option_iff (option : XMLElement) :
    NullSafe (load_min_max_option option) ↔ option.Has "Argument" :=
  nullSafe_last_iff (nullSafe_string_iff _ _) _

theorem nullSafe_load_product_iff (e : XMLElement) :
    NullSafe (load_product e) ↔ ProductLoadable e := by
  have hitems := nullSafe_load_option_iff nullSafe_load_items_option_iff e
  have hminmax := nullSafe_load_option_iff nullSafe_load_min_max_option_iff e
  have honly (name : String) : NullOnly (load_option load_items_option e name) :=
    within_load_option (within_load_items_option (by rfl)) e name
  have honly' (name : String) : NullOnly (load_option load_min_max_option e name) :=
    within_load_option (within_load_min_max_option (by rfl)) e name
  have hstring (name : String) : NullOnly (e.string name) := within_string (by rfl) e name
  have hproduct := nullSafe_seq_iff (hstring _) (nullSafe_string_iff e "Name") fun name =>
    nullSafe_seq_iff (hstring _) (nullSafe_string_iff e "Code") fun code =>
      nullSafe_seq_iff (honly _) (hitems "COFFEE_STRENGTH") fun strength =>
        nullSafe_seq_iff (honly _) (hitems "TEMPERATURE") fun temperature =>
          nullSafe_seq_iff (honly' _) (hminmax "WATER_AMOUNT") fun waterAmount =>
            nullSafe_last_iff (hminmax "MILK_FOAM_AMOUNT") fun milkFoamAmount =>
              ({ name, code, strength, temperature, waterAmount, milkFoamAmount } : Product)
  apply hproduct.trans
  constructor
  · rintro ⟨hn, hc, hs, ht, hw, hm⟩
    exact ⟨hn, hc, hs, ht, hw, hm⟩
  · intro h
    exact ⟨h.name, h.code, h.strength, h.temperature, h.waterAmount, h.milkFoamAmount⟩

theorem nullSafe_load_alert_iff (e : XMLElement) : NullSafe (load_alert e) ↔ e.Has "Name" :=
  nullSafe_last_iff (nullSafe_string_iff _ _) _

theorem nullSafe_load_products_iff (joe : XMLElement) : NullSafe (load_products joe) ↔
    ∃ productsXml, joe.FirstChildElement "PRODUCTS" = some productsXml ∧
      ∀ e ∈ productsXml.elements "PRODUCT", ProductLoadable e := by
  rw [load_products]
  cases joe.FirstChildElement "PRODUCTS" with
  | none =>
    apply iff_of_false
    · intro h
      exact h (.nullDeref .productsXml) rfl rfl
    · rintro ⟨_, he, _⟩
      cases he
  | some productsXml =>
    apply (nullSafe_mapM_iff (within_load_product (by rfl)) nullSafe_load_product_iff _).trans
    simp only [Option.some.injEq, exists_eq_left']

theorem nullSafe_load_alerts_iff (joe : XMLElement) : NullSafe (load_alerts joe) ↔
    ∃ alertsXml, joe.FirstChildElement "ALERTS" = some alertsXml ∧
      ∀ e ∈ alertsXml.elements "ALERT", e.Has "Name" := by
  rw [load_alerts]
  cases joe.FirstChildElement "ALERTS" with
  | none =>
    apply iff_of_false
    · intro h
      exact h (.nullDeref .alertsXml) rfl rfl
    · rintro ⟨_, he, _⟩
      cases he
  | some alertsXml =>
    apply (nullSafe_mapM_iff (within_load_alert (by rfl)) nullSafe_load_alert_iff _).trans
    simp only [Option.some.injEq, exists_eq_left']

theorem string_ok_iff (e : XMLElement) (name : String) :
    e.string name = .ok s ↔ e.Attribute name = some s := by
  rw [XMLElement.string]
  cases e.Attribute name with
  | none => constructor <;> intro h <;> cases h
  | some s' => rw [Except.ok.injEq, Option.some.injEq]

theorem bankItems_cons_of_eq (h : bankXml.Attribute "Name" = some bankName)
    (banks : List XMLElement) :
    bankItems bankName (bankXml :: banks) = bankXml.elements "TEXTITEM" := by
  have hb : bankNamed bankName (bankXml :: banks) = some bankXml :=
    List.find?_cons_of_pos (beq_iff_eq.2 h)
  rw [bankItems, hb]
  rfl

theorem bankItems_cons_of_ne (h : bankXml.Attribute "Name" ≠ some bankName)
    (banks : List XMLElement) :
    bankItems bankName (bankXml :: banks) = bankItems bankName banks := by
  have hb : bankNamed bankName (bankXml :: banks) = bankNamed bankName banks :=
    List.find?_cons_of_neg (by rw [beq_iff_eq]; exact h)
  rw [bankItems, hb, bankItems]

theorem bankLoadable_cons_of_eq (h : bankXml.Attribute "Name" = some bankName)
    (banks : List XMLElement) : BankLoadable bankName (bankXml :: banks) ↔
      ∀ e ∈ bankXml.elements "TEXTITEM", e.Has "Type" := by
  rw [← bankItems_cons_of_eq h banks]
  refine ⟨fun hb => hb.types, fun ht => ⟨?_, ht⟩⟩
  rw [List.takeWhile_cons_of_neg (by rw [bne_iff_ne]; exact not_not.2 h)]
  exact List.forall_mem_nil _

theorem bankLoadable_cons_of_ne (h : bankXml.Attribute "Name" ≠ some bankName)
    (banks : List XMLElement) : BankLoadable bankName (bankXml :: banks) ↔
      bankXml.Has "Name" ∧ BankLoadable bankName banks := by
  have ht : (bankXml :: banks).takeWhile (fun e => e.Attribute "Name" != some bankName) =
      bankXml :: banks.takeWhile fun e => e.Attribute "Name" != some bankName :=
    List.takeWhile_cons_of_pos (bne_iff_ne.2 h)
  constructor
  · rintro ⟨hn, hi⟩
    rw [ht, List.forall_mem_cons] at hn
    rw [bankItems_cons_of_ne h] at hi
    exact ⟨hn.1, hn.2, hi⟩
  · rintro ⟨hb, hn, hi⟩
    refine ⟨?_, ?_⟩
    · rw [ht, List.forall_mem_cons]
      exact ⟨hb, hn⟩
    · rw [bankItems_cons_of_ne h]
      exact hi

theorem BankLoadable.of_all (hnames : ∀ bankXml ∈ banks, bankXml.Has "Name")
    (htypes : ∀ bankXml ∈ banks, ∀ e ∈ bankXml.elements "TEXTITEM", e.Has "Type") :
    BankLoadable bankName banks := by
  refine ⟨fun bankXml hm => hnames bankXml (List.takeWhile_subset _ hm), ?_⟩
  rw [bankItems]
  cases hf : bankNamed bankName banks with
  | none => exact List.forall_mem_nil _
  | some bankXml => exact htypes bankXml (List.mem_of_find?_eq_some hf)

theorem load_bank_cons_of_eq (h : bankXml.Attribute "Name" = some bankName)
    (banks : List XMLElement) : load_bank bankName (bankXml :: banks) =
      (bankXml.elements "TEXTITEM").mapM fun e => e.string "Type" := by
  rw [load_bank, (string_ok_iff bankXml "Name").2 h, ok_bind, if_pos rfl]

theorem load_bank_cons_of_ne (h : bankXml.Attribute "Name" = some name) (hn : name ≠ bankName)
    (banks : List XMLElement) :
    load_bank bankName (bankXml :: banks) = load_bank bankName banks := by
  rw [load_bank, (string_ok_iff bankXml "Name").2 h, ok_bind, if_neg hn]

theorem nullSafe_load_bank_iff (bankName : CString) (banks : List XMLElement) :
    NullSafe (load_bank bankName banks) ↔ BankLoadable bankName banks := by
  induction banks with
  | nil => exact iff_of_true (avoids_ok _ []) ⟨List.forall_mem_nil _, List.forall_mem_nil _⟩
  | cons bankXml banks ih =>
    by_cases h : bankXml.Attribute "Name" = some bankName
    · rw [load_bank_cons_of_eq h, bankLoadable_cons_of_eq h]
      exact nullSafe_mapM_iff (fun e => within_string (by rfl) e "Type")
        (fun e => nullSafe_string_iff e "Type") _
    · rw [bankLoadable_cons_of_ne h, ← ih]
      cases ha : bankXml.Attribute "Name" with
      | none =>
        have hs : ¬NullSafe (bankXml.string "Name") := by
          rw [nullSafe_string_iff, XMLElement.Has, ha]
          exact Bool.false_ne_true
        apply iff_of_false
        · intro hb
          exact hs (avoids_bind_iff.1 hb).1
        · rintro ⟨hb, _⟩
          rw [XMLElement.Has, ha] at hb
          cases hb
      | some name =>
        have hn : name ≠ bankName := by
          intro hn
          rw [ha, hn] at h
          exact h rfl
        rw [load_bank_cons_of_ne ha hn]
        exact ⟨fun hb => ⟨by rw [XMLElement.Has, ha]; rfl, hb⟩, fun hb => hb.2⟩

theorem load_bank_items (h : load_bank bankName banks = .ok types) :
    List.Forall₂ (fun e type => e.Attribute "Type" = some type) (bankItems bankName banks)
      types := by
  induction banks with
  | nil =>
    cases h
    exact .nil
  | cons bankXml banks ih =>
    obtain ⟨name, hs, hload⟩ := bind_ok h
    have ha := (string_ok_iff bankXml "Name").1 hs
    by_cases hn : name = bankName
    · rw [hn] at ha
      rw [load_bank_cons_of_eq ha] at h
      rw [bankItems_cons_of_eq ha]
      exact (mapM_forall₂ h).imp fun e type he => (string_ok_iff e "Type").1 he
    · rw [load_bank_cons_of_ne ha hn] at h
      rw [bankItems_cons_of_ne (by rw [ha]; exact fun he => hn (Option.some.inj he))]
      exact ih h

theorem nullSafe_load_maintenance_bank_iff (bankName : CString) (joe : XMLElement) :
    NullSafe (load_maintenance_bank bankName joe) ↔
      BankLoadable bankName (maintenanceBanks joe) := by
  have hnone : BankLoadable bankName [] := ⟨List.forall_mem_nil _, List.forall_mem_nil _⟩
  rw [load_maintenance_bank, maintenanceBanks, maintenancePage]
  have hassert (a : Assertion) :
      NullSafe (.error (.assertion a) : Except Fault (List CString)) := by
    apply avoids_error_iff.2
    intro h
    cases h
  cases joe.FirstChildElement "STATISTIC" with
  | none => exact iff_of_true (hassert _) hnone
  | some statisticXml =>
    simp only [Option.bind_some]
    cases statisticXml.FirstChildElement "MAINTENANCEPAGE" with
    | none => exact iff_of_true (hassert _) hnone
    | some maintenanceXml => exact nullSafe_load_bank_iff bankName _

theorem load_maintenance_bank_of_page (hp : maintenancePage joe = some page)
    (bankName : CString) :
    load_maintenance_bank bankName joe = load_bank bankName (page.elements "BANK") := by
  rw [maintenancePage, Option.bind_eq_some_iff] at hp
  obtain ⟨statisticXml, hs, hm⟩ := hp
  simp only [load_maintenance_bank, hs, hm]

theorem maintenanceBanks_of_page (hp : maintenancePage joe = some page) :
    maintenanceBanks joe = page.elements "BANK" := by
  rw [maintenanceBanks, hp]
  rfl

theorem page_of_load_maintenance_bank (h : load_maintenance_bank bankName joe = .ok types) :
    ∃ page, maintenancePage joe = some page := by
  rw [load_maintenance_bank] at h
  rw [maintenancePage]
  cases hs : joe.FirstChildElement "STATISTIC" with
  | none =>
    rw [hs] at h
    cases h
  | some statisticXml =>
    simp only [hs] at h
    rw [Option.bind_some]
    cases hm : statisticXml.FirstChildElement "MAINTENANCEPAGE" with
    | none =>
      rw [hm] at h
      cases h
    | some maintenanceXml => exact ⟨maintenanceXml, rfl⟩

theorem load_maintenance_bank_items (h : load_maintenance_bank bankName joe = .ok types) :
    List.Forall₂ (fun e type => e.Attribute "Type" = some type) (maintenanceItems bankName joe)
      types := by
  obtain ⟨page, hp⟩ := page_of_load_maintenance_bank h
  rw [load_maintenance_bank_of_page hp] at h
  rw [maintenanceItems, maintenanceBanks_of_page hp]
  exact load_bank_items h

theorem ofList_rows (h : Table.ofList e rows = .ok t) : t.rows = rows := by
  rw [Table.ofList] at h
  split at h
  · cases h
    rfl
  · cases h

theorem load_maintenance_counters_items (h : load_maintenance_counters joe = .ok t) :
    List.Forall₂ (fun e (row : MaintenanceCounter) => e.Attribute "Type" = some row.name)
      (maintenanceItems (cstr "Maintenance Counter") joe) t.rows := by
  obtain ⟨types, ht, h⟩ := bind_ok h
  rw [ofList_rows h, List.forall₂_map_right_iff]
  exact load_maintenance_bank_items ht

theorem load_maintenance_percentages_items (h : load_maintenance_percentages joe = .ok t) :
    List.Forall₂ (fun e (row : MaintenancePercentage) => e.Attribute "Type" = some row.name)
      (maintenanceItems (cstr "Maintenance Percent") joe) t.rows := by
  obtain ⟨types, ht, h⟩ := bind_ok h
  rw [ofList_rows h, List.forall₂_map_right_iff]
  exact load_maintenance_bank_items ht

theorem nullSafe_ofList (rows : List α) : NullSafe (Table.ofList .lengthError rows) := by
  rw [Table.ofList]
  split
  · exact avoids_ok _ _
  · apply avoids_error_iff.2
    intro h
    cases h

theorem nullSafe_load_table_iff (bankName : CString) (joe : XMLElement) (row : CString → α) :
    NullSafe (do
      let types ← load_maintenance_bank bankName joe
      Table.ofList .lengthError (types.map row)) ↔
      BankLoadable bankName (maintenanceBanks joe) := by
  rw [← nullSafe_load_maintenance_bank_iff]
  apply avoids_bind_iff.trans
  exact ⟨fun h => h.1, fun h => ⟨h, fun _ _ => nullSafe_ofList _⟩⟩

theorem load_maintenance_counters_fits (hp : maintenancePage joe = some page)
    (hb : BankLoadable (cstr "Maintenance Counter") (maintenanceBanks joe))
    (hlen : (maintenanceItems (cstr "Maintenance Counter") joe).length < 2 ^ 57) :
    ∃ t, load_maintenance_counters joe = .ok t := by
  obtain ⟨types, ht⟩ : ∃ types,
      load_maintenance_bank (cstr "Maintenance Counter") joe = .ok types := by
    rw [← nullSafe_load_maintenance_bank_iff] at hb
    rw [load_maintenance_bank_of_page hp] at hb ⊢
    exact ok_of_avoids hb (within_load_bank (by rfl) _ _)
  rw [(load_maintenance_bank_items ht).length_eq, ← List.length_map] at hlen
  rw [load_maintenance_counters, ht, ok_bind, Table.ofList, dif_pos hlen]
  exact ⟨_, rfl⟩

/-- What a loaded product, alert or row says of the element that it comes from. -/
def ProductOf (e : XMLElement) (p : Product) : Prop :=
  e.Attribute "Name" = some p.name ∧ e.Attribute "Code" = some p.code ∧ load_product e = .ok p

def AlertOf (e : XMLElement) (a : Alert) : Prop :=
  e.Attribute "Name" = some a.name ∧ load_alert e = .ok a

/-- The lists of a machine file have one entry for each element of the document, in the order of
the document. -/
structure FollowsDocument (joeXml : XMLElement) (joe : Joe) : Prop where
  products : ∃ productsXml, joeXml.FirstChildElement "PRODUCTS" = some productsXml ∧
    List.Forall₂ ProductOf (productsXml.elements "PRODUCT") joe.products
  alerts : ∃ alertsXml, joeXml.FirstChildElement "ALERTS" = some alertsXml ∧
    List.Forall₂ AlertOf (alertsXml.elements "ALERT") joe.alerts
  counters : List.Forall₂ (fun e row => e.Attribute "Type" = some row.name)
    (maintenanceItems (cstr "Maintenance Counter") joeXml) joe.maintenanceCounters.rows
  percentages : List.Forall₂ (fun e row => e.Attribute "Type" = some row.name)
    (maintenanceItems (cstr "Maintenance Percent") joeXml) joe.maintenancePercentages.rows

theorem load_product_of (h : load_product e = .ok p) : ProductOf e p := by
  have hp := h
  obtain ⟨name, hn, h⟩ := bind_ok h
  obtain ⟨code, hc, h⟩ := bind_ok h
  obtain ⟨_, _, h⟩ := bind_ok h
  obtain ⟨_, _, h⟩ := bind_ok h
  obtain ⟨_, _, h⟩ := bind_ok h
  obtain ⟨_, _, h⟩ := bind_ok h
  cases h
  exact ⟨(string_ok_iff e _).1 hn, (string_ok_iff e _).1 hc, hp⟩

theorem load_alert_of (h : load_alert e = .ok a) : AlertOf e a := by
  have ha := h
  obtain ⟨name, hn, h⟩ := bind_ok h
  cases h
  exact ⟨(string_ok_iff e _).1 hn, ha⟩

theorem load_products_follows (h : load_products joe = .ok products) :
    ∃ productsXml, joe.FirstChildElement "PRODUCTS" = some productsXml ∧
      List.Forall₂ ProductOf (productsXml.elements "PRODUCT") products := by
  rw [load_products] at h
  cases hp : joe.FirstChildElement "PRODUCTS" with
  | none =>
    rw [hp] at h
    cases h
  | some productsXml =>
    rw [hp] at h
    exact ⟨productsXml, rfl, (mapM_forall₂ h).imp fun _ _ he => load_product_of he⟩

theorem load_alerts_follows (h : load_alerts joe = .ok alerts) :
    ∃ alertsXml, joe.FirstChildElement "ALERTS" = some alertsXml ∧
      List.Forall₂ AlertOf (alertsXml.elements "ALERT") alerts := by
  rw [load_alerts] at h
  cases ha : joe.FirstChildElement "ALERTS" with
  | none =>
    rw [ha] at h
    cases h
  | some alertsXml =>
    rw [ha] at h
    exact ⟨alertsXml, rfl, (mapM_forall₂ h).imp fun _ _ he => load_alert_of he⟩

theorem load_joe_follows (hr : roots.find? (fun e => e.name == "JOE") = some joeXml)
    (h : load_joe machine (some roots) = .ok joe) : FollowsDocument joeXml joe := by
  simp only [load_joe, hr] at h
  obtain ⟨dated, _, h⟩ := bind_ok h
  obtain ⟨products, hp, h⟩ := bind_ok h
  obtain ⟨alerts, ha, h⟩ := bind_ok h
  obtain ⟨counters, hc, h⟩ := bind_ok h
  obtain ⟨percentages, hm, h⟩ := bind_ok h
  cases h
  exact ⟨load_products_follows hp, load_alerts_follows ha, load_maintenance_counters_items hc,
    load_maintenance_percentages_items hm⟩

theorem nullSafe_load_joe_iff (machine : Machine)
    (hr : roots.find? (fun e => e.name == "JOE") = some joeXml) :
    NullSafe (load_joe machine (some roots)) ↔ JoeLoadable joeXml := by
  have htables (dated : CString) (products : List Product) (alerts : List Alert) :
      NullSafe (do
        let counters ← load_maintenance_counters joeXml
        let percentages ← load_maintenance_percentages joeXml
        return (⟨dated, machine, products, alerts, counters, percentages, 0⟩ : Joe)) ↔
      BankLoadable (cstr "Maintenance Counter") (maintenanceBanks joeXml) ∧
        ((maintenanceItems (cstr "Maintenance Counter") joeXml).length < 2 ^ 57 →
          BankLoadable (cstr "Maintenance Percent") (maintenanceBanks joeXml)) := by
    have hrest (counters : Table MaintenanceCounter) := nullSafe_last_iff
      (nullSafe_load_table_iff (cstr "Maintenance Percent") joeXml
        fun name => (⟨name, 0⟩ : MaintenancePercentage))
      fun percentages => (⟨dated, machine, products, alerts, counters, percentages, 0⟩ : Joe)
    have hcounters := nullSafe_load_table_iff (cstr "Maintenance Counter") joeXml
      fun name => (⟨name, 0⟩ : MaintenanceCounter)
    apply (avoids_bind_iff.trans (and_congr_left' hcounters)).trans
    apply and_congr_right
    intro hb
    constructor
    · intro h hlen
      cases hp : maintenancePage joeXml with
      | none =>
        rw [maintenanceBanks, hp]
        exact ⟨List.forall_mem_nil _, List.forall_mem_nil _⟩
      | some page =>
        obtain ⟨t, ht⟩ := load_maintenance_counters_fits hp hb hlen
        exact (hrest t).1 (h t ht)
    · intro h t ht
      apply (hrest t).2
      apply h
      rw [(load_maintenance_counters_items ht).length_eq]
      exact t.size_lt
  have hdated : NullOnly (joeXml.string "dated") := within_string (by rfl) _ _
  have hproducts : NullOnly (load_products joeXml) := within_load_products (by rfl) (by rfl) _
  have halerts : NullOnly (load_alerts joeXml) := within_load_alerts (by rfl) (by rfl) _
  have hjoe := nullSafe_seq_iff hdated (nullSafe_string_iff joeXml "dated") fun dated =>
    nullSafe_seq_iff hproducts (nullSafe_load_products_iff joeXml) fun products =>
      nullSafe_seq_iff halerts (nullSafe_load_alerts_iff joeXml) fun alerts =>
        htables dated products alerts
  simp only [load_joe, hr]
  apply hjoe.trans
  constructor
  · rintro ⟨hd, hp, ha, hc, hm⟩
    exact ⟨hd, hp, ha, hc, hm⟩
  · intro h
    exact ⟨h.dated, h.products, h.alerts, h.counters, h.percentages⟩

/-- Loading a document ends with a machine file that follows it, or with a failed assertion or an
exception. -/
def LoadReports (machine : Machine) (roots : List XMLElement) (joeXml : XMLElement) : Prop :=
  match load_joe machine (some roots) with
  | .ok joe => FollowsDocument joeXml joe
  | .error f => f.reported = true

/-- Loading a document reports its errors exactly when all that is dereferenced without a check is
there. -/
theorem load_joe_reports_iff (machine : Machine)
    (hr : roots.find? (fun e => e.name == "JOE") = some joeXml) :
    LoadReports machine roots joeXml ↔ JoeLoadable joeXml := by
  rw [← nullSafe_load_joe_iff machine hr, LoadReports]
  cases hj : load_joe machine (some roots) with
  | ok joe => exact iff_of_true (load_joe_follows hr hj) (avoids_ok _ joe)
  | error f =>
    apply Iff.trans ?_ avoids_error_iff.symm
    simp only [Bool.not_eq_false]

def exampleRoot : XMLElement := exampleDoc.headD (.mk "" [] [])

theorem load_joe_reports_iff_example :
    LoadReports exampleJoe.machine exampleDoc exampleRoot ↔ JoeLoadable exampleRoot := by
  have hr : exampleDoc.find? (fun e => e.name == "JOE") = some exampleRoot := rfl
  exact load_joe_reports_iff exampleJoe.machine hr

def rootWithoutProducts : XMLElement :=
  .mk "JOE" [⟨"dated", cstr "2021-01-01", none⟩] []

def rootWithNamelessProduct : XMLElement :=
  .mk "JOE" [⟨"dated", cstr "2021-01-01", none⟩] [.mk "PRODUCTS" [] [.mk "PRODUCT" [] []]]

/-- A root without products is dereferenced through a null pointer, and the absent name of a product
becomes a string. -/
theorem load_joe_null :
    load_joe exampleJoe.machine (some [rootWithoutProducts]) = .error (.nullDeref .productsXml) ∧
    load_joe exampleJoe.machine (some [rootWithNamelessProduct]) = .error .nullString ∧
    ¬LoadReports exampleJoe.machine [rootWithoutProducts] rootWithoutProducts ∧
    ¬LoadReports exampleJoe.machine [rootWithNamelessProduct] rootWithNamelessProduct := by
  have hp : load_joe exampleJoe.machine (some [rootWithoutProducts]) =
      .error (.nullDeref .productsXml) := by decide +kernel
  have hn : load_joe exampleJoe.machine (some [rootWithNamelessProduct]) =
      .error .nullString := by decide +kernel
  refine ⟨hp, hn, ?_, ?_⟩
  · rw [LoadReports, hp]
    exact Bool.false_ne_true
  · rw [LoadReports, hn]
    exact Bool.false_ne_true

end JuttaProto
