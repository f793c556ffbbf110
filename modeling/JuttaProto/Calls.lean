import JuttaProto.CoffeeMaker

namespace JuttaProto
open Run
set_option autoImplicit true

def GATTLIB_SUCCESS : Int := 0

def World.withDevice (bleDevice : BLEDevice) (w : World) : World :=
  { w with maker := { w.maker with bleDevice } }

/-- The frame is recorded whether or not the device is connected. The argument `written` is the
answer of gattlib to the write. -/
def BLEDevice.write (characteristic : Uuid) (data : Bytes) (written : Int) (w : World) : World :=
  let result := w.maker.bleDevice.connected && written == GATTLIB_SUCCESS
  { w with wire := w.wire ++ [⟨characteristic, data, result⟩] }

/-- The reply is what gattlib reads, or nothing when the read fails. -/
def BLEDevice.read_characteristic (reply : Option Bytes) (characteristic : Uuid) (w : World) :
    Except Fault World :=
  if w.maker.bleDevice.connected then
    match reply with
    | some data => on_characteristic_read data characteristic w
    | none => .ok w
  else .ok w

/-- The data with the key in place of the first byte, and of the last one on demand. -/
def override (key : UInt8) (overrideKey : Bool) (data : Bytes) : Bytes :=
  if overrideKey then (data.set 0 key).set (data.length - 1) key else data.set 0 key

def write (characteristic : Uuid) (data : Bytes) (encode overrideKey : Bool) (written : Int)
    (w : World) : Except Fault World :=
  if encode then
    if data = [] then .error (.outOfRange .write)
    else
      let encodedData := encDecBytes (override w.key overrideKey data) w.key
      .ok (BLEDevice.write characteristic encodedData written w)
  else .ok (BLEDevice.write characteristic data written w)

def write_tx (data : Bytes) (written : Int) (w : World) : Except Fault World :=
  write UART_TX_CHARACTERISTIC_UUID data true true written w

def write_tx_string (s : CString) (written : Int) (w : World) : Except Fault World :=
  write_tx s written w

def shutdown (written : Int) (w : World) : Except Fault World :=
  write P_MODE_CHARACTERISTIC_UUID [0x00, 0x46, 0x02] true false written w

def stay_in_ble (written : Int) (w : World) : Except Fault World :=
  write P_MODE_CHARACTERISTIC_UUID [0x00, 0x7F, 0x80] true false written w

def lock (written : Int) (w : World) : Except Fault World :=
  write BARISTA_MODE_CHARACTERISTIC_UUID [0x00, 0x01] true false written w

def unlock (written : Int) (w : World) : Except Fault World :=
  write BARISTA_MODE_CHARACTERISTIC_UUID [0x00, 0x00] true false written w

def request_coffee (written : Int) (w : World) : Except Fault World := do
  let command ← from_hex_string (cstr "00030004280000020001000000000000")
  write START_PRODUCT_CHARACTERISTIC_UUID command true false written w

def request_coffee_product (product : Product) (written : Int) (w : World) :
    Except Fault World := do
  let commandHexStr ← product.to_bt_command
  let command ← from_hex_string commandHexStr
  write START_PRODUCT_CHARACTERISTIC_UUID command true true written w

def build_stats_cmd (mode : StatParseMode) : Bytes :=
  let type : Bytes := [0, ((mode.value &&& 0xFF00) >>> 8).toUInt8, (mode.value &&& 0x00FF).toUInt8]
  if mode = .PRODUCT_COUNTERS then type ++ [0xFF, 0xFF] else type ++ [1, 0]

structure StatReplies where
  polls : Nat → Option Bytes
  data : Option Bytes

/-- The loop that waits for the statistics, for a number of polls from the `i`-th on. -/
def pollLoop (polls : Nat → Option Bytes) : Nat → Nat → World → Except Fault World
  | 0, _, w => .ok w
  | n + 1, i, w =>
    if w.maker.statDataReady then .ok w
    else do
      let w ← BLEDevice.read_characteristic (polls i) STATISTICS_COMMAND_CHARACTERISTIC_UUID w
      pollLoop polls n (i + 1) w

def request_statistics (replies : StatReplies) (mode : StatParseMode) (written : Int)
    (w : World) : Except Fault World := do
  let w ← write STATISTICS_COMMAND_CHARACTERISTIC_UUID (build_stats_cmd mode) true true written w
  let w := { w with maker := { w.maker with statParserMode := some mode, statDataReady := false } }
  let w ← pollLoop replies.polls 20 0 w
  BLEDevice.read_characteristic replies.data STATISTICS_DATA_CHARACTERISTIC_UUID w

def request_status (reply : Option Bytes) (w : World) : Except Fault World :=
  BLEDevice.read_characteristic reply MACHINE_STATUS_CHARACTERISTIC_UUID w

def request_progress (reply : Option Bytes) (w : World) : Except Fault World :=
  BLEDevice.read_characteristic reply PRODUCT_PROGRESS_CHARACTERISTIC_UUID w

def request_about_info (reply : Option Bytes) (w : World) : Except Fault World :=
  BLEDevice.read_characteristic reply ABOUT_MACHINE_CHARACTERISTIC_UUID w

def read_rx (reply : Option Bytes) (w : World) : Except Fault World :=
  BLEDevice.read_characteristic reply UART_RX_CHARACTERISTIC_UUID w

def CoffeeMakerState.active (s : CoffeeMakerState) : Bool := s = .CONNECTING || s = .CONNECTED

def join (w : World) : Except Fault World :=
  if w.maker.heartbeatThread then
    .ok { w with maker := { w.maker with heartbeatThread := false } }
  else .error (.assertion .heartbeatThread)

def send_disconnect (written : Int) (w : World) : Except Fault World :=
  write P_MODE_CHARACTERISTIC_UUID [0x00, 0x7F, 0x81] true false written w

def disconnect (written : Int) (w : World) : Except Fault World :=
  if w.maker.state.active then do
    let w ← send_disconnect written (set_state .DISCONNECTING w)
    let w ← join w
    return set_state .DISCONNECTED w
  else .ok w

structure Notification where
  data : Bytes
  uuid : Uuid
  deriving DecidableEq, Repr

def on_notification (w : World) (n : Notification) : Except Fault World :=
  on_characteristic_read n.data n.uuid w

/-- The answers of gattlib and the content of the machine file during one attempt to connect.
Notifications can arrive as soon as their callback is registered. -/
structure ConnectReplies where
  connection : Option Nat := none
  discoverPrimary : Int := GATTLIB_SUCCESS
  serviceCount : Int := 0
  notifications : List Notification := []
  manData : Option Bytes := none
  doc : Option (List XMLElement) := none
  about : Option Bytes := none

def start_heartbeat (w : World) : Except Fault World :=
  if w.maker.heartbeatThread then .error (.assertion .noHeartbeatThread)
  else .ok { w with maker := { w.maker with heartbeatThread := true } }

def on_connected (g : ConnectReplies) (written : Int) (w : World) : Except Fault World :=
  let manData := g.manData.getD []
  if manData = [] then disconnect written w
  else do
    let w ← parse_man_data manData g.doc w
    let w ← stay_in_ble written w
    let w ← request_about_info g.about w
    start_heartbeat w

/-- The part of `BLEDevice::connect` before the callbacks are registered. The result tells
whether the device was reached and offers services. -/
def BLEDevice.open_link (g : ConnectReplies) (w : World) : Except Fault (World × Bool) :=
  let device := w.maker.bleDevice
  if device.connection.isSome then .error (.assertion .noConnection)
  else if device.connected then .error (.assertion .notConnected)
  else
    let device := { device with connection := g.connection }
    if device.connection = none then .ok (w.withDevice device, false)
    else
      let device := { device with serviceCount := g.serviceCount }
      if g.discoverPrimary ≠ GATTLIB_SUCCESS then
        .ok (w.withDevice { device with connection := none }, false)
      else if device.serviceCount ≤ 0 then
        .ok (w.withDevice { device with connection := none }, false)
      else .ok (w.withDevice device, true)

def BLEDevice.connect (g : ConnectReplies) (onConnected : World → Except Fault World)
    (w : World) : Except Fault (World × Bool) := do
  let (w, opened) ← BLEDevice.open_link g w
  if opened then
    let w ← run on_notification w g.notifications
    let w ← onConnected (w.withDevice { w.maker.bleDevice with connected := true })
    return (w, true)
  else
    return (w, false)

def connect (g : ConnectReplies) (written : Int) (w : World) : Except Fault (World × Bool) := do
  let (w, connected) ← BLEDevice.connect g (on_connected g written) (set_state .CONNECTING w)
  if connected then return (set_state .CONNECTED w, true)
  else return (set_state .DISCONNECTED w, false)

def on_disconnected (written : Int) (w : World) : Except Fault World :=
  if w.maker.state.active then disconnect written w else .ok w

def BLEDevice.on_disconnected (onDisconnected : World → Except Fault World) (w : World) :
    Except Fault World :=
  if w.maker.bleDevice.connected then
    onDisconnected
      (w.withDevice { w.maker.bleDevice with connected := false, connection := none })
  else .ok w

def exampleReplies : ConnectReplies where
  connection := some 0
  serviceCount := 1
  manData := some [42, 1, 0, 0, 0xEC, 0x3A, 0, 0, 0, 0, 0, 0, 0, 0, 0, 0]
  doc := some exampleDoc

end JuttaProto
