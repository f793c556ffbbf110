import JuttaProto.HexString
import JuttaProto.Table

namespace JuttaProto
open Run
set_option autoImplicit true

structure Machine where
  articleNumber : UInt64
  name : CString
  fileName : CString
  version : UInt8
  deriving DecidableEq, Repr

structure Item where
  name : CString
  value : CString
  deriving DecidableEq, Repr

structure ItemsOption where
  argument : CString
  defaultValue : CString
  items : List Item
  deriving DecidableEq, Repr

structure MinMaxOption where
  argument : CString
  value : UInt8
  min : UInt8
  max : UInt8
  step : UInt8
  deriving DecidableEq, Repr

structure Product where
  name : CString
  code : CString
  strength : Option ItemsOption
  temperature : Option ItemsOption
  waterAmount : Option MinMaxOption
  milkFoamAmount : Option MinMaxOption
  statCounter : UInt64 := 0
  deriving DecidableEq, Repr

structure Alert where
  bit : UInt64
  name : CString
  type : CString
  deriving DecidableEq, Repr

structure MaintenanceCounter where
  name : CString
  count : UInt16
  deriving DecidableEq, Repr

structure MaintenancePercentage where
  name : CString
  percent : UInt8
  deriving DecidableEq, Repr

structure Joe where
  dated : CString
  machine : Machine
  products : List Product
  alerts : List Alert
  maintenanceCounters : Table MaintenanceCounter
  maintenancePercentages : Table MaintenancePercentage
  statTotalCount : UInt64 := 0
  deriving DecidableEq, Repr

/-- An attribute with its text and the integer that is read from the text, if there is one. -/
structure XMLAttribute where
  name : String
  value : CString
  intValue : Option Int

inductive XMLElement
  | mk (name : String) (attributes : List XMLAttribute) (children : List XMLElement)

namespace XMLElement

def name : XMLElement → String
  | mk name _ _ => name

def attributes : XMLElement → List XMLAttribute
  | mk _ attributes _ => attributes

def children : XMLElement → List XMLElement
  | mk _ _ children => children

/-- The children that `FirstChildElement` and `NextSiblingElement` run through. -/
def elements (e : XMLElement) (name : String) : List XMLElement :=
  e.children.filter fun c => c.name == name

def FirstChildElement (e : XMLElement) (name : String) : Option XMLElement :=
  (e.elements name).head?

def Attribute (e : XMLElement) (name : String) : Option CString :=
  (e.attributes.find? fun a => a.name == name).map (·.value)

def IntAttribute (e : XMLElement) (name : String) : Int :=
  ((e.attributes.find? fun a => a.name == name).bind (·.intValue)).getD 0

def string (e : XMLElement) (name : String) : Except Fault CString :=
  match e.Attribute name with
  | some s => .ok s
  | none => .error .nullString

end XMLElement

def load_items_option (option : XMLElement) : Except Fault ItemsOption := do
  let argument ← option.string "Argument"
  let defaultValue ← option.string "Default"
  let items ← (option.elements "ITEM").mapM fun e => do
    let name ← e.string "Name"
    let value ← e.string "Value"
    return ⟨name, value⟩
  return ⟨argument, defaultValue, items⟩

def load_min_max_option (option : XMLElement) : Except Fault MinMaxOption := do
  let argument ← option.string "Argument"
  let value := UInt8.ofInt (option.IntAttribute "Value")
  let min := UInt8.ofInt (option.IntAttribute "Min")
  let max := UInt8.ofInt (option.IntAttribute "Max")
  let step := UInt8.ofInt (option.IntAttribute "Step")
  return ⟨argument, value, min, max, step⟩

def load_option (load : XMLElement → Except Fault α) (e : XMLElement) (name : String) :
    Except Fault (Option α) :=
  match e.FirstChildElement name with
  | some option => some <$> load option
  | none => .ok none

def load_product (e : XMLElement) : Except Fault Product := do
  let name ← e.string "Name"
  let code ← e.string "Code"
  let strength ← load_option load_items_option e "COFFEE_STRENGTH"
  let temperature ← load_option load_items_option e "TEMPERATURE"
  let waterAmount ← load_option load_min_max_option e "WATER_AMOUNT"
  let milkFoamAmount ← load_option load_min_max_option e "MILK_FOAM_AMOUNT"
  return { name, code, strength, temperature, waterAmount, milkFoamAmount }

def load_products (joe : XMLElement) : Except Fault (List Product) :=
  match joe.FirstChildElement "PRODUCTS" with
  | some productsXml => (productsXml.elements "PRODUCT").mapM load_product
  | none => .error (.nullDeref .productsXml)

def load_alert (e : XMLElement) : Except Fault Alert := do
  let bit := UInt64.ofInt (e.IntAttribute "Bit")
  let name ← e.string "Name"
  let type := (e.Attribute "Type").getD []
  return ⟨bit, name, type⟩

def load_alerts (joe : XMLElement) : Except Fault (List Alert) :=
  match joe.FirstChildElement "ALERTS" with
  | some alertsXml => (alertsXml.elements "ALERT").mapM load_alert
  | none => .error (.nullDeref .alertsXml)

/-- The types of the text items in the first bank of the given name. -/
def load_bank (bankName : CString) : List XMLElement → Except Fault (List CString)
  | [] => .ok []
  | bankXml :: banks => do
    let name ← bankXml.string "Name"
    if name = bankName then (bankXml.elements "TEXTITEM").mapM fun e => e.string "Type"
    else load_bank bankName banks

def load_maintenance_bank (bankName : CString) (joe : XMLElement) :
    Except Fault (List CString) :=
  match joe.FirstChildElement "STATISTIC" with
  | none => .error (.assertion .statisticXml)
  | some statisticXml =>
    match statisticXml.FirstChildElement "MAINTENANCEPAGE" with
    | none => .error (.assertion .maintenanceXml)
    | some maintenanceXml => load_bank bankName (maintenanceXml.elements "BANK")

def load_maintenance_counters (joe : XMLElement) : Except Fault (Table MaintenanceCounter) := do
  let names ← load_maintenance_bank (cstr "Maintenance Counter") joe
  Table.ofList .lengthError (names.map fun name => ⟨name, 0⟩)

def load_maintenance_percentages (joe : XMLElement) :
    Except Fault (Table MaintenancePercentage) := do
  let names ← load_maintenance_bank (cstr "Maintenance Percent") joe
  Table.ofList .lengthError (names.map fun name => ⟨name, 0⟩)

/-- Loads the machine file. The document is what `LoadFile` makes of it, or nothing when that
fails, and its elements are the roots of the document. -/
def load_joe (machine : Machine) (doc : Option (List XMLElement)) : Except Fault Joe :=
  match doc with
  | none => .error (.assertion .loadFileSuccess)
  | some roots =>
    match roots.find? fun e => e.name == "JOE" with
    | none => .error (.nullDeref .joeXml)
    | some joe => do
      let dated ← joe.string "dated"
      let products ← load_products joe
      let alerts ← load_alerts joe
      let maintenanceCounters ← load_maintenance_counters joe
      let maintenancePercentages ← load_maintenance_percentages joe
      return { dated, machine, products, alerts, maintenanceCounters, maintenancePercentages }

def exampleProduct : Product where
  name := cstr "Coffee"
  code := cstr "03"
  strength := some ⟨cstr "F3", cstr "04", []⟩
  temperature := some ⟨cstr "F7", cstr "02", []⟩
  waterAmount := some ⟨cstr "F4", 100, 25, 240, 5⟩
  milkFoamAmount := none

def exampleJoe : Joe where
  dated := cstr "2021-01-01"
  machine := ⟨15084, cstr "S8 (EB)", cstr "EF536", 1⟩
  products := [exampleProduct]
  alerts := [⟨0, cstr "insert tray", cstr "block"⟩]
  maintenanceCounters := ⟨[⟨cstr "Cleaning", 0⟩], by decide⟩
  maintenancePercentages := ⟨[⟨cstr "Cleaning", 0⟩], by decide⟩

def exampleDoc : List XMLElement :=
  let text (name : String) (value : String) : XMLAttribute := ⟨name, cstr value, none⟩
  let number (name : String) (value : String) (i : Int) : XMLAttribute := ⟨name, cstr value, some i⟩
  let items (name argument value : String) : XMLElement :=
    .mk name [text "Argument" argument, text "Default" value] []
  let bank (name type : String) : XMLElement :=
    .mk "BANK" [text "Name" name] [.mk "TEXTITEM" [text "Type" type] []]
  [.mk "JOE" [text "dated" "2021-01-01"] [
    .mk "PRODUCTS" [] [
      .mk "PRODUCT" [text "Name" "Coffee", text "Code" "03"] [
        items "COFFEE_STRENGTH" "F3" "04",
        items "TEMPERATURE" "F7" "02",
        .mk "WATER_AMOUNT" [text "Argument" "F4", number "Value" "100" 100,
          number "Min" "25" 25, number "Max" "240" 240, number "Step" "5" 5] []]],
    .mk "ALERTS" [] [
      .mk "ALERT" [number "Bit" "0" 0, text "Name" "insert tray",
        text "Type" "block"] []],
    .mk "STATISTIC" [] [
      .mk "MAINTENANCEPAGE" [] [
        bank "Maintenance Counter" "Cleaning",
        bank "Maintenance Percent" "Cleaning"]]]]

example : load_joe exampleJoe.machine (some exampleDoc) = .ok exampleJoe := by decide +kernel

end JuttaProto
