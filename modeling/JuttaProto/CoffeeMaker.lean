import JuttaProto.BrewCommand

namespace JuttaProto
open Run
set_option autoImplicit true

abbrev Uuid := BitVec 128

def ABOUT_MACHINE_CHARACTERISTIC_UUID : Uuid := 0x5A401531AB2E2548C43508C300000710#128
def MACHINE_STATUS_CHARACTERISTIC_UUID : Uuid := 0x5a401524ab2e2548c43508c300000710#128
def BARISTA_MODE_CHARACTERISTIC_UUID : Uuid := 0x5a401530ab2e2548c43508c300000710#128
def PRODUCT_PROGRESS_CHARACTERISTIC_UUID : Uuid := 0x5a401527ab2e2548c43508c300000710#128
def P_MODE_CHARACTERISTIC_UUID : Uuid := 0x5a401529ab2e2548c43508c300000710#128
def START_PRODUCT_CHARACTERISTIC_UUID : Uuid := 0x5a401525ab2e2548c43508c300000710#128
def STATISTICS_COMMAND_CHARACTERISTIC_UUID : Uuid := 0x5A401533ab2e2548c43508c300000710#128
def STATISTICS_DATA_CHARACTERISTIC_UUID : Uuid := 0x5A401534ab2e2548c43508c300000710#128
def UART_RX_CHARACTERISTIC_UUID : Uuid := 0x5a401624ab2e2548c43508c300000710#128
def UART_TX_CHARACTERISTIC_UUID : Uuid := 0x5a401625ab2e2548c43508c300000710#128

inductive CoffeeMakerState
  | DISCONNECTED
  | CONNECTING
  | CONNECTED
  | DISCONNECTING
  deriving DecidableEq, Repr

inductive StatParseMode
  | PRODUCT_COUNTERS
  | MAINTENANCE_COUNTER
  | MAINTENANCE_PERCENT
  deriving DecidableEq, Repr

def StatParseMode.value : StatParseMode → UInt16
  | PRODUCT_COUNTERS => 1
  | MAINTENANCE_COUNTER => 4
  | MAINTENANCE_PERCENT => 8

structure YearMonthDay where
  year : UInt16 := 0
  month : UInt8 := 0
  day : UInt8 := 0
  deriving DecidableEq, Repr

structure ManufacturerData where
  key : UInt8 := 0
  bfMajVer : UInt8 := 0
  bfMinVer : UInt8 := 0
  articleNumber : UInt16 := 0
  machineNumber : UInt16 := 0
  serialNumber : UInt16 := 0
  machineProdDate : YearMonthDay := {}
  machineProdDateUCHI : YearMonthDay := {}
  unusedSecond : UInt8 := 0
  statusBits : UInt8 := 0
  deriving DecidableEq, Repr

structure AboutData where
  blueFrogVersion : CString := []
  coffeeMachineVersion : CString := []
  deriving DecidableEq, Repr

/-- A pointer into the alerts of a machine file: the instance it points into, and where. -/
structure AlertPtr where
  joe : Nat
  index : Nat
  deriving DecidableEq, Repr

structure BLEDevice where
  connection : Option Nat := none
  serviceCount : Int := 0
  connected : Bool := false
  deriving DecidableEq, Repr

/-- The members of a coffee maker. The machine files loaded so far are counted, and the number
of the last one is the identity of the object `joe` points to. The parser mode is absent as
long as it has the value it is initialized with, which is none of the enumeration. -/
structure CoffeeMaker where
  bleDevice : BLEDevice := {}
  state : CoffeeMakerState := .DISCONNECTED
  heartbeatThread : Bool := false
  machines : List Machine
  joe : Option Joe := none
  joeInstance : Nat := 0
  manData : ManufacturerData := {}
  aboutData : AboutData := {}
  alerts : List AlertPtr := []
  statParserMode : Option StatParseMode := none
  statDataReady : Bool := false
  deriving DecidableEq, Repr

inductive Event
  | stateChanged (state : CoffeeMakerState)
  | manDataChanged (manData : ManufacturerData)
  | aboutDataChanged (aboutData : AboutData)
  | joeChanged (joe : Joe)
  | alertsChanged (alerts : List AlertPtr)
  | productStatisticCountersChanged (joe : Joe)
  | maintenanceCountersChanged (counters : Table MaintenanceCounter)
  | maintenancePercentagesChanged (percentages : Table MaintenancePercentage)
  deriving DecidableEq, Repr

/-- An invocation of an event handler, with the members it finds. -/
structure Invocation where
  event : Event
  maker : CoffeeMaker
  deriving DecidableEq, Repr

structure WriteCall where
  characteristic : Uuid
  data : Bytes
  result : Bool
  deriving DecidableEq, Repr

/-- A coffee maker with everything it has written and all handlers it has invoked. -/
structure World where
  maker : CoffeeMaker
  wire : List WriteCall := []
  events : List Invocation := []
  deriving DecidableEq, Repr

def World.key (w : World) : UInt8 := w.maker.manData.key

/-- Invokes the handler of an event. All handlers are taken to be set. -/
def emit (event : Event) (w : World) : World :=
  { w with events := w.events ++ [⟨event, w.maker⟩] }

def set_state (state : CoffeeMakerState) (w : World) : World :=
  if state ≠ w.maker.state then
    emit (.stateChanged state) { w with maker := { w.maker with state } }
  else w

/-- The bytes from one position up to and including another that are not zero. -/
def parse_version (data : Bytes) (start stop : Nat) : Except Fault CString := do
  let bytes ← (List.range' start (stop + 1 - start)).mapM (index .parse_version data)
  return bytes.filter (· ≠ 0)

def parse_about_data (data : Bytes) (w : World) : Except Fault World := do
  let blueFrogVersion ← parse_version data 27 34
  let coffeeMachineVersion ← parse_version data 35 50
  if blueFrogVersion ≠ w.maker.aboutData.blueFrogVersion ∨
      coffeeMachineVersion ≠ w.maker.aboutData.coffeeMachineVersion then
    let aboutData := { blueFrogVersion, coffeeMachineVersion }
    return emit (.aboutDataChanged aboutData) { w with maker := { w.maker with aboutData } }
  else
    return w

def alertsOfBit (joe : Joe) (joeInstance i : Nat) : List AlertPtr :=
  (joe.alerts.zipIdx.filter fun a => a.1.bit.toNat == i).map fun a => ⟨joeInstance, a.2⟩

def statusRound (joe : Joe) (joeInstance : Nat) (alertVec : Bytes) (i : Nat) :
    Except Fault (List AlertPtr) := do
  let offsetAbs := (i >>> 3) + 1
  let offsetByte := 7 - (i &&& 0b111)
  let b ← index .parse_machine_status alertVec offsetAbs
  if (b >>> UInt8.ofNat offsetByte) &&& 0b1 ≠ 0 then return alertsOfBit joe joeInstance i
  else return []

/-- The loop over the status bits, for a number of rounds from the bit `i` on. -/
def statusLoop (joe : Joe) (joeInstance : Nat) (alertVec : Bytes) :
    Nat → Nat → Except Fault (List AlertPtr)
  | 0, _ => .ok []
  | rounds + 1, i => do
    let found ← statusRound joe joeInstance alertVec i
    let rest ← statusLoop joe joeInstance alertVec rounds (i + 1)
    return found ++ rest

/-- The bound `(alertVec.size() - 1) << 3`, which wraps for the empty vector. -/
def statusBits (alertVec : Bytes) : Nat := ((UInt64.ofNat alertVec.length - 1) <<< 3).toNat

def parse_machine_status (data : Bytes) (key : UInt8) (w : World) : Except Fault World :=
  match w.maker.joe with
  | none => .ok w
  | some joe => do
    let alertVec := encDecBytes data key
    let newAlerts ← statusLoop joe w.maker.joeInstance alertVec (statusBits alertVec) 0
    if w.maker.alerts ≠ newAlerts then
      return emit (.alertsChanged newAlerts)
        { w with maker := { w.maker with alerts := newAlerts } }
    else
      return w

def parse_product_progress (data : Bytes) (key : UInt8) (w : World) : Except Fault World :=
  let _actData := encDecBytes data key
  .ok w

def parse_rx (data : Bytes) (key : UInt8) (w : World) : Except Fault World :=
  let _actData := encDecBytes data key
  .ok w

def parse_statistics_command (data : Bytes) (key : UInt8) (w : World) : Except Fault World :=
  let actData := encDecBytes data key
  let statDataReady := 1 < actData.length && actData.head? == some 0x0E
  .ok { w with maker := { w.maker with statDataReady } }

def statValLoop (data : Bytes) (valueOffset : UInt64) :
    Nat → UInt64 → UInt64 → Except Fault UInt64
  | 0, _, result => .ok result
  | bytes + 1, i, result => do
    let b ← index .get_stat_val data (valueOffset + i).toNat
    statValLoop data valueOffset bytes (i + 1) ((result <<< 8) ||| b.toUInt64)

def get_stat_val (data : Bytes) (offset bytesPerVal : UInt64) : Except Fault UInt64 :=
  let valueOffset := offset * bytesPerVal
  if data.length < (valueOffset + bytesPerVal).toNat then .ok 0
  else statValLoop data valueOffset bytesPerVal.toNat 0 0

def parse_maintainence_percent_data (data : Bytes) (w : World) : Except Fault World :=
  match w.maker.joe with
  | none => .error (.nullDeref .joe)
  | some joe => do
    let maintenancePercentages ← joe.maintenancePercentages.mapIdxM fun i row => do
      let v ← get_stat_val data (UInt64.ofNat i) 1
      return { row with percent := v.toUInt8 }
    return emit (.maintenancePercentagesChanged maintenancePercentages)
      { w with maker := { w.maker with joe := some { joe with maintenancePercentages } } }

def parse_maintainence_counter_data (data : Bytes) (w : World) : Except Fault World :=
  match w.maker.joe with
  | none => .error (.nullDeref .joe)
  | some joe => do
    let maintenanceCounters ← joe.maintenanceCounters.mapIdxM fun i row => do
      let v ← get_stat_val data (UInt64.ofNat i) 2
      return { row with count := v.toUInt16 }
    return emit (.maintenanceCountersChanged maintenanceCounters)
      { w with maker := { w.maker with joe := some { joe with maintenanceCounters } } }

def parse_product_counter (data : Bytes) (p : Product) : Except Fault Product := do
  let code ← p.code_to_size_t
  let result ← get_stat_val data code 3
  if result ≠ 0xFFFF then return { p with statCounter := result }
  else return { p with statCounter := 0 }

def parse_product_counter_data (data : Bytes) (w : World) : Except Fault World :=
  match w.maker.joe with
  | none => .error (.nullDeref .joe)
  | some joe => do
    let statTotalCount ← get_stat_val data 0 3
    let products ← joe.products.mapM (parse_product_counter data)
    let joe' := { joe with statTotalCount, products }
    return emit (.productStatisticCountersChanged joe')
      { w with maker := { w.maker with joe := some joe' } }

def parse_statistics_data (data : Bytes) (key : UInt8) (w : World) : Except Fault World :=
  let actData := encDecBytes data key
  match w.maker.statParserMode with
  | some .MAINTENANCE_COUNTER => parse_maintainence_counter_data actData w
  | some .MAINTENANCE_PERCENT => parse_maintainence_percent_data actData w
  | some .PRODUCT_COUNTERS => parse_product_counter_data actData w
  | none => .ok w

def on_characteristic_read (data : Bytes) (uuid : Uuid) (w : World) : Except Fault World :=
  if uuid = ABOUT_MACHINE_CHARACTERISTIC_UUID then parse_about_data data w
  else if uuid = MACHINE_STATUS_CHARACTERISTIC_UUID then parse_machine_status data w.key w
  else if uuid = PRODUCT_PROGRESS_CHARACTERISTIC_UUID then parse_product_progress data w.key w
  else if uuid = UART_RX_CHARACTERISTIC_UUID then parse_rx data w.key w
  else if uuid = STATISTICS_COMMAND_CHARACTERISTIC_UUID then
    parse_statistics_command data w.key w
  else if uuid = STATISTICS_DATA_CHARACTERISTIC_UUID then parse_statistics_data data w.key w
  else .ok w

def to_uint16_t_little_endian (data : Bytes) (offset : Nat) : Except Fault UInt16 := do
  let high ← index .parse_man_data data (offset + 1)
  let low ← index .parse_man_data data offset
  return (high.toUInt16 <<< 8) ||| low.toUInt16

def to_ymd (data : Bytes) (offset : Nat) : Except Fault YearMonthDay := do
  let date ← to_uint16_t_little_endian data offset
  return {
    year := ((date &&& 65024) >>> 9) + 1990
    month := ((date &&& 480) >>> 5).toUInt8
    day := (date &&& 31).toUInt8 }

def read_man_data (data : Bytes) : Except Fault ManufacturerData := do
  let key ← index .parse_man_data data 0
  let bfMajVer ← index .parse_man_data data 1
  let bfMinVer ← index .parse_man_data data 2
  let articleNumber ← to_uint16_t_little_endian data 4
  let machineNumber ← to_uint16_t_little_endian data 6
  let serialNumber ← to_uint16_t_little_endian data 8
  let machineProdDate ← to_ymd data 10
  let machineProdDateUCHI ← to_ymd data 12
  let unusedSecond ← index .parse_man_data data 14
  let statusBits ← index .parse_man_data data 15
  return ⟨key, bfMajVer, bfMinVer, articleNumber, machineNumber, serialNumber,
    machineProdDate, machineProdDateUCHI, unusedSecond, statusBits⟩

/-- The document is the content of the machine file that belongs to the article number. -/
def parse_man_data (data : Bytes) (doc : Option (List XMLElement)) (w : World) :
    Except Fault World := do
  let manData ← read_man_data data
  let w := emit (.manDataChanged manData) { w with maker := { w.maker with manData } }
  match w.maker.machines.find? fun m => m.articleNumber == manData.articleNumber.toUInt64 with
  | none => .error .exit
  | some machine =>
    let joe ← load_joe machine doc
    return emit (.joeChanged joe)
      { w with maker := { w.maker with
          joe := some joe, joeInstance := w.maker.joeInstance + 1, alerts := [] } }

def exampleWorld : World where
  maker := {
    bleDevice := ⟨some 0, 1, true⟩
    state := .CONNECTED
    heartbeatThread := true
    machines := [exampleJoe.machine]
    joe := some exampleJoe
    joeInstance := 1
    manData := { key := 42, articleNumber := 15084 } }

end JuttaProto
