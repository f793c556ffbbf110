import JuttaProto.Changes
import JuttaProto.MachineLoading

namespace JuttaProto
open Run BigEndian
set_option autoImplicit true

/-- The rows of a table stand for the text items in the order of the document, each with the type
of its item and what belongs to its position. -/
def LinesUp (items : List XMLElement) (row : CString → Nat → α) (rows : List α) : Prop :=
  ∃ types, List.Forall₂ (fun e type => e.Attribute "Type" = some type) items types ∧
    rows = types.mapIdx fun k type => row type k

def CoffeeMaker.tableTypes (m : CoffeeMaker) : Option (List CString × List CString) :=
  m.joe.map Joe.tableTypes

def LoadedFrom (D : Option (List XMLElement) → Prop) (m : CoffeeMaker) : Prop :=
  ∃ machine doc joe, D doc ∧ load_joe machine doc = .ok joe ∧
    m.tableTypes = some joe.tableTypes

theorem LoadedFrom.congr (h : LoadedFrom D m) (ht : m'.tableTypes = m.tableTypes) :
    LoadedFrom D m' := by
  obtain ⟨machine, doc, joe, hd, hj, he⟩ := h
  exact ⟨machine, doc, joe, hd, hj, ht.trans he⟩

/-- The tables keep the names of their rows until another machine file is loaded. -/
structure TablesKept (D : Option (List XMLElement) → Prop) (w w' : World) : Prop where
  instance_le : w.maker.joeInstance ≤ w'.maker.joeInstance
  kept : w'.maker.joeInstance = w.maker.joeInstance →
    w'.maker.tableTypes = w.maker.tableTypes
  loaded : w'.maker.joeInstance ≠ w.maker.joeInstance → LoadedFrom D w'.maker

theorem TablesKept.trans (h : TablesKept D w w') (h' : TablesKept D w' w'') :
    TablesKept D w w'' := by
  have hle := h.instance_le
  have hle' := h'.instance_le
  refine ⟨hle.trans hle', ?_, ?_⟩
  · intro he
    exact (h'.kept (by omega)).trans (h.kept (by omega))
  · intro hne
    by_cases he : w''.maker.joeInstance = w'.maker.joeInstance
    · exact (h.loaded (by omega)).congr (h'.kept he)
    · exact h'.loaded he

theorem TablesKept.of_eq (hi : w'.maker.joeInstance = w.maker.joeInstance)
    (ht : w'.maker.tableTypes = w.maker.tableTypes) : TablesKept D w w' :=
  ⟨hi.ge, fun _ => ht, fun hne => absurd hi hne⟩

theorem TablesKept.received (h : on_characteristic_read data uuid w = .ok w') :
    TablesKept D w w' := by
  rcases on_characteristic_read_cases h with
    he | he | ⟨joe, payload, _, _, he⟩ | ⟨_, he⟩ | ⟨_, joe, event, joe', hj, _, ha, he⟩
  · rw [he]
    exact .of_eq rfl rfl
  · rw [he, updateAbout]
    split <;> exact .of_eq rfl rfl
  · rw [he, updateAlerts]
    split <;> exact .of_eq rfl rfl
  · rw [he]
    exact .of_eq rfl rfl
  · rw [he]
    refine .of_eq rfl ?_
    rw [CoffeeMaker.tableTypes, CoffeeMaker.tableTypes, hj]
    exact congrArg some ha.tableTypes

theorem TablesKept.parsed (hd : D doc) (h : parse_man_data data doc w = .ok w') :
    TablesKept D w w' := by
  obtain ⟨manData, _, h⟩ := bind_ok h
  simp only at h
  split at h
  · cases h
  · rename_i machine _
    obtain ⟨joe, hj, h⟩ := bind_ok h
    cases h
    refine ⟨Nat.le_succ _, fun he => ?_, fun _ => ⟨machine, doc, joe, hd, hj, rfl⟩⟩
    exact absurd he (Nat.succ_ne_self _)

theorem tablesKept_closed (D : Option (List XMLElement) → Prop) : Closed D (TablesKept D) where
  trans := TablesKept.trans
  hidden := by
    intro w w' hm _
    rw [CoffeeMaker.shown, CoffeeMaker.shown, Shown.mk.injEq] at hm
    refine .of_eq hm.2.2.1 ?_
    rw [CoffeeMaker.tableTypes, CoffeeMaker.tableTypes, hm.2.1]
  state := by
    intro state w
    rw [set_state]
    split <;> exact .of_eq rfl rfl
  received := TablesKept.received
  parsed := TablesKept.parsed

theorem operations_loadedFrom (hl : LoadedFrom D w.maker) (h : run operate w ops = .ok w')
    (hi : w'.maker.joeInstance = w.maker.joeInstance) : LoadedFrom D w'.maker := by
  have hkept : TablesKept (fun _ => True) w w' :=
    run_invariant (TablesKept _ w)
      (fun _ o _ hv ho => hv.trans ((tablesKept_closed _).operate (loads_true o) ho))
      (.of_eq rfl rfl) h
  exact hl.congr (hkept.kept hi)

theorem load_maintenance_bank_typed (hp : maintenancePage joeXml = some page)
    (hb : BankLoadable bankName (page.elements "BANK")) :
    ∃ types, load_maintenance_bank bankName joeXml = .ok types ∧
      List.Forall₂ (fun e type => e.Attribute "Type" = some type)
        (bankItems bankName (page.elements "BANK")) types := by
  rw [load_maintenance_bank_of_page hp]
  obtain ⟨types, h⟩ := ok_of_avoids ((nullSafe_load_bank_iff bankName _).2 hb)
    (within_load_bank (by rfl) bankName _)
  exact ⟨types, h, load_bank_items h⟩

theorem linesUp_const (h : List.Forall₂ (fun e type => e.Attribute "Type" = some type) items types)
    (row : CString → α) : LinesUp items (fun type _ => row type) (types.map row) := by
  refine ⟨types, h, List.ext_getElem? fun i => ?_⟩
  rw [List.getElem?_map, List.getElem?_mapIdx]

theorem loadedFrom_types (hr : roots.find? (fun e => e.name == "JOE") = some joeXml)
    (hp : maintenancePage joeXml = some page) (h : LoadedFrom (· = some roots) m) :
    ∃ joe, m.joe = some joe ∧
      List.Forall₂ (fun e type => e.Attribute "Type" = some type)
        (bankItems (cstr "Maintenance Counter") (page.elements "BANK")) joe.tableTypes.1 ∧
      List.Forall₂ (fun e type => e.Attribute "Type" = some type)
        (bankItems (cstr "Maintenance Percent") (page.elements "BANK")) joe.tableTypes.2 := by
  obtain ⟨machine, doc, joe₀, hd, hj, ht⟩ := h
  rw [hd] at hj
  obtain ⟨_, _, hc, hm⟩ := load_joe_follows hr hj
  rw [maintenanceItems, maintenanceBanks_of_page hp] at hc hm
  rw [CoffeeMaker.tableTypes, Option.map_eq_some_iff] at ht
  obtain ⟨joe, hjoe, he⟩ := ht
  refine ⟨joe, hjoe, ?_, ?_⟩
  · rw [he, Joe.tableTypes, List.forall₂_map_right_iff]
    exact hc
  · rw [he, Joe.tableTypes, List.forall₂_map_right_iff]
    exact hm

theorem counters_line_up (hm : w.maker.statParserMode = some .MAINTENANCE_COUNTER)
    (hj : w.maker.joe = some joe)
    (ht : List.Forall₂ (fun e type => e.Attribute "Type" = some type) items joe.tableTypes.1)
    (frame : Bytes) :
    ∃ w' joe', on_characteristic_read frame STATISTICS_DATA_CHARACTERISTIC_UUID w = .ok w' ∧
      w'.maker.joe = some joe' ∧
      LinesUp items
        (fun type k => ⟨type, UInt16.ofNat (blockValue 2 (encDecBytes frame w.key) k)⟩)
        joe'.maintenanceCounters.rows := by
  have hread := parse_maintainence_counter_data_ok (encDecBytes frame w.key) hj
  have hmode := parse_statistics_data_mode hm frame w.key
  refine ⟨_, _, hmode.trans hread, rfl, joe.tableTypes.1, ht, ?_⟩
  apply Table.mapIdx_rows_of_part
  intro i row
  rw [UInt64.toUInt16_ofNat']

theorem percentages_line_up (hm : w.maker.statParserMode = some .MAINTENANCE_PERCENT)
    (hj : w.maker.joe = some joe)
    (ht : List.Forall₂ (fun e type => e.Attribute "Type" = some type) items joe.tableTypes.2)
    (frame : Bytes) :
    ∃ w' joe', on_characteristic_read frame STATISTICS_DATA_CHARACTERISTIC_UUID w = .ok w' ∧
      w'.maker.joe = some joe' ∧
      LinesUp items
        (fun type k => ⟨type, UInt8.ofNat (blockValue 1 (encDecBytes frame w.key) k)⟩)
        joe'.maintenancePercentages.rows := by
  have hread := parse_maintainence_percent_data_ok (encDecBytes frame w.key) hj
  have hmode := parse_statistics_data_mode hm frame w.key
  refine ⟨_, _, hmode.trans hread, rfl, joe.tableTypes.2, ht, ?_⟩
  apply Table.mapIdx_rows_of_part
  intro i row
  rw [UInt64.toUInt8_ofNat']

/-- The maintenance tables are loaded from the text items of the first bank of their name, row by
row. However a run goes on after that, a frame of maintenance data fills the row of every text
item with the block of its position, until another machine file is loaded. -/
theorem maintenance_tables_line_up (hr : roots.find? (fun e => e.name == "JOE") = some joeXml)
    (hp : maintenancePage joeXml = some page)
    (hnames : ∀ bankXml ∈ page.elements "BANK", bankXml.Has "Name")
    (htypes : ∀ bankXml ∈ page.elements "BANK", ∀ e ∈ bankXml.elements "TEXTITEM", e.Has "Type") :
    (∃ rows, load_maintenance_counters joeXml = Table.ofList .lengthError rows ∧
      LinesUp (bankItems (cstr "Maintenance Counter") (page.elements "BANK"))
        (fun type _ => ⟨type, 0⟩) rows) ∧
    (∃ rows, load_maintenance_percentages joeXml = Table.ofList .lengthError rows ∧
      LinesUp (bankItems (cstr "Maintenance Percent") (page.elements "BANK"))
        (fun type _ => ⟨type, 0⟩) rows) ∧
    ∀ o ops w₀ w₁ w₂, o.Loads (· = some roots) → operate w₀ o = .ok w₁ →
      w₁.maker.joeInstance ≠ w₀.maker.joeInstance → run operate w₁ ops = .ok w₂ →
      w₂.maker.joeInstance = w₁.maker.joeInstance → ∀ frame,
      (w₂.maker.statParserMode = some .MAINTENANCE_COUNTER → ∃ w₃ joe,
        on_characteristic_read frame STATISTICS_DATA_CHARACTERISTIC_UUID w₂ = .ok w₃ ∧
        w₃.maker.joe = some joe ∧
        LinesUp (bankItems (cstr "Maintenance Counter") (page.elements "BANK"))
          (fun type k => ⟨type, UInt16.ofNat (blockValue 2 (encDecBytes frame w₂.key) k)⟩)
          joe.maintenanceCounters.rows) ∧
      (w₂.maker.statParserMode = some .MAINTENANCE_PERCENT → ∃ w₃ joe,
        on_characteristic_read frame STATISTICS_DATA_CHARACTERISTIC_UUID w₂ = .ok w₃ ∧
        w₃.maker.joe = some joe ∧
        LinesUp (bankItems (cstr "Maintenance Percent") (page.elements "BANK"))
          (fun type k => ⟨type, UInt8.ofNat (blockValue 1 (encDecBytes frame w₂.key) k)⟩)
          joe.maintenancePercentages.rows) := by
  have hb (bankName : CString) : BankLoadable bankName (page.elements "BANK") :=
    .of_all hnames htypes
  refine ⟨?_, ?_, ?_⟩
  · obtain ⟨types, hl, ht⟩ := load_maintenance_bank_typed hp (hb (cstr "Maintenance Counter"))
    exact ⟨_, by rw [load_maintenance_counters, hl, ok_bind], linesUp_const ht _⟩
  · obtain ⟨types, hl, ht⟩ := load_maintenance_bank_typed hp (hb (cstr "Maintenance Percent"))
    exact ⟨_, by rw [load_maintenance_percentages, hl, ok_bind], linesUp_const ht _⟩
  · intro o ops w₀ w₁ w₂ hd ho hne hrun hi frame
    have hl : LoadedFrom (· = some roots) w₁.maker :=
      ((tablesKept_closed _).operate hd ho).loaded hne
    obtain ⟨joe, hj, hc, hm⟩ := loadedFrom_types hr hp (operations_loadedFrom hl hrun hi)
    exact ⟨fun hmode => counters_line_up hmode hj hc frame,
      fun hmode => percentages_line_up hmode hj hm frame⟩

def examplePage : XMLElement := (maintenancePage exampleRoot).getD exampleRoot

theorem maintenance_tables_line_up_example :
    ∃ w₁, operate (World.fresh [exampleJoe.machine])
        (.act (.call (.connect exampleReplies) GATTLIB_SUCCESS)) = .ok w₁ ∧
      ∃ w₂, run operate w₁ [.act (.call (.request_statistics ⟨fun _ => none, none⟩
          .MAINTENANCE_COUNTER) GATTLIB_SUCCESS)] = .ok w₂ ∧
        ∃ w₃ joe, on_characteristic_read [53, 132] STATISTICS_DATA_CHARACTERISTIC_UUID w₂ =
            .ok w₃ ∧ w₃.maker.joe = some joe ∧
          LinesUp (bankItems (cstr "Maintenance Counter") (examplePage.elements "BANK"))
            (fun type k => ⟨type, UInt16.ofNat (blockValue 2 (encDecBytes [53, 132] w₂.key) k)⟩)
            joe.maintenanceCounters.rows := by
  have hr : exampleDoc.find? (fun e => e.name == "JOE") = some exampleRoot := rfl
  have hp : maintenancePage exampleRoot = some examplePage := rfl
  have hnames : ∀ bankXml ∈ examplePage.elements "BANK", bankXml.Has "Name" := by decide +kernel
  have htypes : ∀ bankXml ∈ examplePage.elements "BANK",
      ∀ e ∈ bankXml.elements "TEXTITEM", e.Has "Type" := by decide +kernel
  obtain ⟨w₁, h₁, hne, w₂, h₂, hi, hm⟩ : ∃ w₁, operate (World.fresh [exampleJoe.machine])
        (.act (.call (.connect exampleReplies) GATTLIB_SUCCESS)) = .ok w₁ ∧
      w₁.maker.joeInstance ≠ 0 ∧
      ∃ w₂, run operate w₁ [.act (.call (.request_statistics ⟨fun _ => none, none⟩
          .MAINTENANCE_COUNTER) GATTLIB_SUCCESS)] = .ok w₂ ∧
        w₂.maker.joeInstance = w₁.maker.joeInstance ∧
        w₂.maker.statParserMode = some .MAINTENANCE_COUNTER := by decide +kernel
  have hd : Operation.Loads (· = some exampleDoc)
      (.act (.call (.connect exampleReplies) GATTLIB_SUCCESS)) := rfl
  have htables := (maintenance_tables_line_up hr hp hnames htypes).2.2
  exact ⟨w₁, h₁, w₂, h₂, (htables _ _ _ w₁ w₂ hd h₁ hne h₂ hi [53, 132]).1 hm⟩

end JuttaProto
