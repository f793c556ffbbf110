import JuttaProto.Decimal
import JuttaProto.MachineLoading

namespace JuttaProto
open Run
set_option autoImplicit true

def Joe.unread (joe : Joe) : Joe where
  dated := joe.dated
  machine := joe.machine
  products := joe.products.map fun p => { p with statCounter := 0 }
  alerts := joe.alerts
  maintenanceCounters := joe.maintenanceCounters.mapIdx fun _ row => { row with count := 0 }
  maintenancePercentages := joe.maintenancePercentages.mapIdx fun _ row => { row with percent := 0 }

section Written
/- How an attribute is read as an integer. -/
variable (toInt : CString → Option Int)

def writeText (name : String) (text : CString) : XMLAttribute := ⟨name, text, toInt text⟩

def writeNumber (name : String) (n : Nat) : XMLAttribute := writeText toInt name (Decimal.write n)

def Item.write (item : Item) : XMLElement :=
  .mk "ITEM" [writeText toInt "Name" item.name, writeText toInt "Value" item.value] []

def ItemsOption.write (name : String) (option : ItemsOption) : XMLElement :=
  .mk name [writeText toInt "Argument" option.argument,
    writeText toInt "Default" option.defaultValue] (option.items.map (Item.write toInt))

def MinMaxOption.write (name : String) (option : MinMaxOption) : XMLElement :=
  .mk name [writeText toInt "Argument" option.argument,
    writeNumber toInt "Value" option.value.toNat, writeNumber toInt "Min" option.min.toNat,
    writeNumber toInt "Max" option.max.toNat, writeNumber toInt "Step" option.step.toNat] []

def Product.write (p : Product) : XMLElement :=
  .mk "PRODUCT" [writeText toInt "Name" p.name, writeText toInt "Code" p.code]
    ((p.strength.map (ItemsOption.write toInt "COFFEE_STRENGTH")).toList ++
      (p.temperature.map (ItemsOption.write toInt "TEMPERATURE")).toList ++
      (p.waterAmount.map (MinMaxOption.write toInt "WATER_AMOUNT")).toList ++
      (p.milkFoamAmount.map (MinMaxOption.write toInt "MILK_FOAM_AMOUNT")).toList)

def Alert.write (a : Alert) : XMLElement :=
  .mk "ALERT" [writeNumber toInt "Bit" a.bit.toNat, writeText toInt "Name" a.name,
    writeText toInt "Type" a.type] []

def writeBank (name : String) (types : List CString) : XMLElement :=
  .mk "BANK" [writeText toInt "Name" (cstr name)]
    (types.map fun type => .mk "TEXTITEM" [writeText toInt "Type" type] [])

def Joe.write (joe : Joe) : XMLElement :=
  .mk "JOE" [writeText toInt "dated" joe.dated] [
    .mk "PRODUCTS" [] (joe.products.map (Product.write toInt)),
    .mk "ALERTS" [] (joe.alerts.map (Alert.write toInt)),
    .mk "STATISTIC" [] [.mk "MAINTENANCEPAGE" [] [
      writeBank toInt "Maintenance Counter" (joe.maintenanceCounters.rows.map (·.name)),
      writeBank toInt "Maintenance Percent" (joe.maintenancePercentages.rows.map (·.name))]]]

variable {toInt}

theorem uint8_ofInt_toNat (x : UInt8) : UInt8.ofInt x.toNat = x := by
  have hx : ((x.toNat : Int) % 2 ^ 8).toNat = x.toNat := by
    have hlt := x.toNat_lt
    omega
  rw [UInt8.ofInt, hx, UInt8.ofNat_toNat]

theorem uint64_ofInt_toNat (x : UInt64) : UInt64.ofInt x.toNat = x := by
  have hx : ((x.toNat : Int) % 2 ^ 64).toNat = x.toNat := by
    have hlt := x.toNat_lt
    omega
  rw [UInt64.ofInt, hx, UInt64.ofNat_toNat]

theorem elements_map (write : α → XMLElement) (hn : ∀ a, (write a).name = name) (l : List α)
    (tag : String) (attributes : List XMLAttribute) :
    (XMLElement.mk tag attributes (l.map write)).elements name = l.map write := by
  apply List.filter_eq_self.2
  intro e he
  obtain ⟨a, _, rfl⟩ := List.mem_map.1 he
  exact beq_iff_eq.2 (hn a)

theorem mapM_write {load : XMLElement → Except Fault β} {write : α → XMLElement}
    {g : α → β} {l : List α} (h : ∀ a ∈ l, load (write a) = .ok (g a)) :
    (l.map write).mapM load = .ok (l.map g) := by
  rw [List.mapM_map]
  exact mapM_ok h

theorem load_items_option_write (name : String) (option : ItemsOption) :
    load_items_option (option.write toInt name) = .ok option := by
  obtain ⟨argument, defaultValue, items⟩ := option
  have hitems : (items.map (Item.write toInt)).mapM (fun e => do
      let name ← e.string "Name"
      let value ← e.string "Value"
      return (⟨name, value⟩ : Item)) = .ok (items.map id) :=
    mapM_write fun item _ => rfl
  rw [List.map_id] at hitems
  have helements := elements_map (Item.write toInt) (fun _ => rfl) items name
    [writeText toInt "Argument" argument, writeText toInt "Default" defaultValue]
  rw [load_items_option, ItemsOption.write, helements]
  simp only [hitems]
  rfl

theorem load_min_max_option_write
    (hint : ∀ n < 2 ^ 31, toInt (Decimal.write n) = some (n : Int)) (name : String)
    (option : MinMaxOption) : load_min_max_option (option.write toInt name) = .ok option := by
  obtain ⟨argument, value, min, max, step⟩ := option
  have hread (x : UInt8) :
      UInt8.ofInt ((toInt (Decimal.write x.toNat)).getD 0) = x := by
    rw [hint _ (Nat.lt_trans x.toNat_lt (by decide))]
    exact uint8_ofInt_toNat x
  have hload : load_min_max_option (.mk name [writeText toInt "Argument" argument,
      writeNumber toInt "Value" value.toNat, writeNumber toInt "Min" min.toNat,
      writeNumber toInt "Max" max.toNat, writeNumber toInt "Step" step.toNat] []) =
      .ok ⟨argument, UInt8.ofInt ((toInt (Decimal.write value.toNat)).getD 0),
        UInt8.ofInt ((toInt (Decimal.write min.toNat)).getD 0),
        UInt8.ofInt ((toInt (Decimal.write max.toNat)).getD 0),
        UInt8.ofInt ((toInt (Decimal.write step.toNat)).getD 0)⟩ := rfl
  rw [MinMaxOption.write]
  rw [hload, hread, hread, hread, hread]

theorem load_option_some {load : XMLElement → Except Fault α} {write : α → XMLElement}
    (h : e.FirstChildElement name = o.map write) (hload : ∀ a, load (write a) = .ok a) :
    load_option load e name = .ok o := by
  rw [load_option, h]
  cases o with
  | none => rfl
  | some a =>
    change some <$> load (write a) = _
    rw [hload]
    rfl

theorem load_product_write (hint : ∀ n < 2 ^ 31, toInt (Decimal.write n) = some (n : Int))
    (p : Product) : load_product (p.write toInt) = .ok { p with statCounter := 0 } := by
  obtain ⟨name, code, strength, temperature, waterAmount, milkFoamAmount, statCounter⟩ := p
  let e := Product.write toInt
    ⟨name, code, strength, temperature, waterAmount, milkFoamAmount, statCounter⟩
  have hchildren :
      e.FirstChildElement "COFFEE_STRENGTH" =
        strength.map (ItemsOption.write toInt "COFFEE_STRENGTH") ∧
      e.FirstChildElement "TEMPERATURE" =
        temperature.map (ItemsOption.write toInt "TEMPERATURE") ∧
      e.FirstChildElement "WATER_AMOUNT" =
        waterAmount.map (MinMaxOption.write toInt "WATER_AMOUNT") ∧
      e.FirstChildElement "MILK_FOAM_AMOUNT" =
        milkFoamAmount.map (MinMaxOption.write toInt "MILK_FOAM_AMOUNT") := by
    cases strength <;> cases temperature <;> cases waterAmount <;> cases milkFoamAmount <;>
      exact ⟨rfl, rfl, rfl, rfl⟩
  obtain ⟨hs, ht, hw, hm⟩ := hchildren
  have hstrength := load_option_some hs (load_items_option_write "COFFEE_STRENGTH")
  have htemperature := load_option_some ht (load_items_option_write "TEMPERATURE")
  have hwater := load_option_some hw (load_min_max_option_write hint "WATER_AMOUNT")
  have hmilk := load_option_some hm (load_min_max_option_write hint "MILK_FOAM_AMOUNT")
  change load_product e = _
  have hname : e.string "Name" = .ok name := rfl
  have hcode : e.string "Code" = .ok code := rfl
  rw [load_product, hname, hcode, hstrength, htemperature, hwater, hmilk]
  rfl

theorem load_alert_write (hint : ∀ n < 2 ^ 31, toInt (Decimal.write n) = some (n : Int))
    {a : Alert} (ha : a.bit.toNat < 2 ^ 31) : load_alert (a.write toInt) = .ok a := by
  obtain ⟨bit, name, type⟩ := a
  have hload : load_alert (Alert.write toInt ⟨bit, name, type⟩) =
      .ok ⟨UInt64.ofInt ((toInt (Decimal.write bit.toNat)).getD 0), name, type⟩ := rfl
  rw [hload, hint _ ha]
  exact congrArg (fun bit => Except.ok (Alert.mk bit name type)) (uint64_ofInt_toNat bit)

theorem load_bank_write (name : String) (types : List CString) (banks : List XMLElement) :
    load_bank (cstr name) (writeBank toInt name types :: banks) = .ok types := by
  have hname : (writeBank toInt name types).string "Name" = .ok (cstr name) := rfl
  have htypes := elements_map
    (fun type => XMLElement.mk "TEXTITEM" [writeText toInt "Type" type] []) (fun _ => rfl) types
    "BANK" [writeText toInt "Name" (cstr name)]
  have hload : (types.map fun type =>
      XMLElement.mk "TEXTITEM" [writeText toInt "Type" type] []).mapM
        (fun e => e.string "Type") = .ok (types.map id) := mapM_write fun _ _ => rfl
  rw [load_bank, hname, ok_bind, if_pos rfl, writeBank, htypes, hload, List.map_id]

theorem load_maintenance_bank_write (joe : Joe) :
    load_maintenance_bank (cstr "Maintenance Counter") (joe.write toInt) =
        .ok (joe.maintenanceCounters.rows.map (·.name)) ∧
      load_maintenance_bank (cstr "Maintenance Percent") (joe.write toInt) =
        .ok (joe.maintenancePercentages.rows.map (·.name)) := by
  let counters := writeBank toInt "Maintenance Counter" (joe.maintenanceCounters.rows.map (·.name))
  let percentages :=
    writeBank toInt "Maintenance Percent" (joe.maintenancePercentages.rows.map (·.name))
  have hpage : maintenancePage (joe.write toInt) =
      some (.mk "MAINTENANCEPAGE" [] [counters, percentages]) := rfl
  have hbanks : (XMLElement.mk "MAINTENANCEPAGE" [] [counters, percentages]).elements "BANK" =
      [counters, percentages] := rfl
  rw [load_maintenance_bank_of_page hpage, load_maintenance_bank_of_page hpage, hbanks]
  have hname : counters.Attribute "Name" = some (cstr "Maintenance Counter") := rfl
  refine ⟨load_bank_write "Maintenance Counter" _ _, ?_⟩
  exact (load_bank_cons_of_ne hname (by decide) _).trans
    (load_bank_write "Maintenance Percent" _ [])

theorem ofList_names (t : Table α) (name : α → CString) (row : CString → α) (tooLong : ε) :
    Table.ofList tooLong ((t.rows.map name).map row) =
      .ok (t.mapIdx fun _ a => row (name a)) := by
  have hrows : (t.mapIdx fun _ a => row (name a)).rows = (t.rows.map name).map row := by
    apply List.ext_getElem?
    intro i
    simp only [Table.mapIdx, List.getElem?_mapIdx, List.getElem?_map, Option.map_map]
    rfl
  have hlt : ((t.rows.map name).map row).length < 2 ^ 57 := by
    rw [List.length_map, List.length_map]
    exact t.size_lt
  rw [Table.ofList, dif_pos hlt]
  congr 1
  exact Table.mk.congr_simp _ _ hrows.symm _

/-- What is written to a machine file is loaded from it. -/
theorem load_joe_written (hint : ∀ n < 2 ^ 31, toInt (Decimal.write n) = some (n : Int))
    {joe : Joe} (hbits : ∀ a ∈ joe.alerts, a.bit.toNat < 2 ^ 31) :
    load_joe joe.machine (some [joe.write toInt]) = .ok joe.unread := by
  have hfind : [joe.write toInt].find? (fun e => e.name == "JOE") = some (joe.write toInt) := rfl
  have hdated : (joe.write toInt).string "dated" = .ok joe.dated := rfl
  have hproducts : load_products (joe.write toInt) =
      .ok (joe.products.map fun p => { p with statCounter := 0 }) := by
    have hfirst : (joe.write toInt).FirstChildElement "PRODUCTS" =
        some (.mk "PRODUCTS" [] (joe.products.map (Product.write toInt))) := rfl
    rw [load_products, hfirst]
    dsimp only
    rw [elements_map (Product.write toInt) fun _ => rfl]
    exact mapM_write fun p _ => load_product_write hint p
  have halerts : load_alerts (joe.write toInt) = .ok joe.alerts := by
    have hfirst : (joe.write toInt).FirstChildElement "ALERTS" =
        some (.mk "ALERTS" [] (joe.alerts.map (Alert.write toInt))) := rfl
    rw [load_alerts, hfirst]
    dsimp only
    rw [elements_map (Alert.write toInt) fun _ => rfl]
    have hload : (joe.alerts.map (Alert.write toInt)).mapM load_alert =
        .ok (joe.alerts.map id) := mapM_write fun a ha => load_alert_write hint (hbits a ha)
    rw [hload, List.map_id]
  obtain ⟨hcounters, hpercentages⟩ := @load_maintenance_bank_write toInt joe
  simp only [load_joe, hfind, hdated, hproducts, halerts, load_maintenance_counters,
    load_maintenance_percentages, hcounters, hpercentages, ok_bind, ofList_names]
  rfl

end Written

def readDigits (text : CString) : Option Int :=
  if text.all Decimal.isDigit then some (Decimal.value text) else none

theorem load_joe_written_example :
    load_joe exampleJoe.machine (some [exampleJoe.write readDigits]) = .ok exampleJoe.unread := by
  refine load_joe_written (fun n _ => ?_) (by decide)
  obtain ⟨hdigits, hvalue⟩ := Decimal.write_read n
  rw [readDigits, if_pos (List.all_eq_true.2 hdigits), hvalue]

end JuttaProto
