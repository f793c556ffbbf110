import JuttaProto.AboutFrame
import JuttaProto.MachineStatus
import JuttaProto.StatisticsData

namespace JuttaProto
open Run
set_option autoImplicit true

/-- The public calls of a coffee maker, each with what gattlib answers to its reads. -/
inductive Call
  | connect (g : ConnectReplies)
  | disconnect
  | write_tx (data : Bytes)
  | write_tx_string (s : CString)
  | shutdown
  | stay_in_ble
  | lock
  | unlock
  | request_coffee
  | request_coffee_product (product : Product)
  | request_statistics (replies : StatReplies) (mode : StatParseMode)
  | request_status (reply : Option Bytes)
  | request_progress (reply : Option Bytes)
  | request_about_info (reply : Option Bytes)
  | read_rx (reply : Option Bytes)

def Call.issue (written : Int) (w : World) : Call → Except Fault World
  | .connect g => Prod.fst <$> JuttaProto.connect g written w
  | .disconnect => JuttaProto.disconnect written w
  | .write_tx data => JuttaProto.write_tx data written w
  | .write_tx_string s => JuttaProto.write_tx_string s written w
  | .shutdown => JuttaProto.shutdown written w
  | .stay_in_ble => JuttaProto.stay_in_ble written w
  | .lock => JuttaProto.lock written w
  | .unlock => JuttaProto.unlock written w
  | .request_coffee => JuttaProto.request_coffee written w
  | .request_coffee_product product => JuttaProto.request_coffee_product product written w
  | .request_statistics replies mode => JuttaProto.request_statistics replies mode written w
  | .request_status reply => JuttaProto.request_status reply w
  | .request_progress reply => JuttaProto.request_progress reply w
  | .request_about_info reply => JuttaProto.request_about_info reply w
  | .read_rx reply => JuttaProto.read_rx reply w

/-- What a call that only writes hands to `write`: the characteristic, the payload, and whether
the key also replaces the last byte. -/
def Call.payload : Call → Option (Uuid × Bytes × Bool)
  | .write_tx data => some (UART_TX_CHARACTERISTIC_UUID, data, true)
  | .write_tx_string s => some (UART_TX_CHARACTERISTIC_UUID, s, true)
  | .shutdown => some (P_MODE_CHARACTERISTIC_UUID, [0x00, 0x46, 0x02], false)
  | .stay_in_ble => some (P_MODE_CHARACTERISTIC_UUID, [0x00, 0x7F, 0x80], false)
  | .lock => some (BARISTA_MODE_CHARACTERISTIC_UUID, [0x00, 0x01], false)
  | .unlock => some (BARISTA_MODE_CHARACTERISTIC_UUID, [0x00, 0x00], false)
  | _ => none

theorem issue_payload (h : Call.payload c = some (uuid, data, overrideKey)) (written : Int)
    (w : World) : c.issue written w = write uuid data true overrideKey written w := by
  cases c <;> cases h <;> rfl

/-- A public call, a notification, or the disconnect callback of gattlib. -/
inductive Action
  | call (c : Call) (written : Int)
  | notification (n : Notification)
  | linkLost (written : Int)

def step (w : World) : Action → Except Fault World
  | .call c written => c.issue written w
  | .notification n => on_notification w n
  | .linkLost written => BLEDevice.on_disconnected (on_disconnected written) w

def World.fresh (machines : List Machine) : World := { maker := { machines } }

def readyReply (data : Bytes) (key : UInt8) : Bool :=
  1 < (encDecBytes data key).length && (encDecBytes data key).head? == some 0x0E

def setReady (statDataReady : Bool) (w : World) : World :=
  { w with maker := { w.maker with statDataReady } }

def Event.isStatistics : Event → Bool
  | .productStatisticCountersChanged _ | .maintenanceCountersChanged _
  | .maintenancePercentagesChanged _ => true
  | _ => false

def StatParseMode.parse : StatParseMode → Bytes → World → Except Fault World
  | .PRODUCT_COUNTERS => parse_product_counter_data
  | .MAINTENANCE_COUNTER => parse_maintainence_counter_data
  | .MAINTENANCE_PERCENT => parse_maintainence_percent_data

theorem parse_statistics_data_mode (hm : w.maker.statParserMode = some mode) (data : Bytes)
    (key : UInt8) :
    parse_statistics_data data key w = mode.parse (encDecBytes data key) w := by
  rw [parse_statistics_data, hm]
  cases mode <;> rfl

theorem mode_parse_none (hj : w.maker.joe = none) :
    StatParseMode.parse mode data w = .error (.nullDeref .joe) := by
  cases mode with
  | PRODUCT_COUNTERS => rw [StatParseMode.parse, parse_product_counter_data, hj]
  | MAINTENANCE_COUNTER => rw [StatParseMode.parse, parse_maintainence_counter_data, hj]
  | MAINTENANCE_PERCENT => rw [StatParseMode.parse, parse_maintainence_percent_data, hj]

/-- What a mode stores in a machine file and announces, whatever else the coffee maker holds. -/
theorem mode_parse_uniform (mode : StatParseMode) (data : Bytes) (joe : Joe) :
    ∃ r : Except Fault (Event × Joe),
      (∀ x, r = .ok x → x.1.isStatistics ∧ x.2.SameFile joe) ∧
      ∀ w : World, w.maker.joe = some joe →
        mode.parse data w = (fun x => updateJoe x.1 x.2 w) <$> r := by
  cases mode with
  | PRODUCT_COUNTERS =>
    refine ⟨do
      let statTotalCount ← get_stat_val data 0 3
      let products ← joe.products.mapM (parse_product_counter data)
      let joe' := { joe with statTotalCount, products }
      return (.productStatisticCountersChanged joe', joe'), fun x h => ?_, fun w hj => ?_⟩
    · obtain ⟨_, _, h⟩ := bind_ok h
      obtain ⟨_, _, h⟩ := bind_ok h
      cases h
      exact ⟨rfl, rfl, rfl⟩
    · simp only [StatParseMode.parse, parse_product_counter_data, hj, total_count_ok, ok_bind]
      cases joe.products.mapM (parse_product_counter data) with
      | error e => rfl
      | ok products => rfl
  | MAINTENANCE_COUNTER =>
    refine ⟨.ok (_, _), fun x h => ?_, fun w hj => parse_maintainence_counter_data_ok data hj⟩
    cases h
    exact ⟨rfl, rfl, congrArg (Prod.mk · _) (counterTable_names data joe.maintenanceCounters)⟩
  | MAINTENANCE_PERCENT =>
    refine ⟨.ok (_, _), fun x h => ?_, fun w hj => parse_maintainence_percent_data_ok data hj⟩
    cases h
    exact ⟨rfl, rfl, congrArg (Prod.mk _) (percentTable_names data joe.maintenancePercentages)⟩

theorem parse_statistics_data_taken (hm : w.maker.statParserMode = some mode)
    (h : parse_statistics_data data key w = .ok w') :
    ∃ joe event joe', w.maker.joe = some joe ∧ event.isStatistics ∧
      joe'.SameFile joe ∧ w' = updateJoe event joe' w := by
  rw [parse_statistics_data_mode hm] at h
  cases hj : w.maker.joe with
  | none =>
    rw [mode_parse_none hj] at h
    cases h
  | some joe =>
    obtain ⟨r, hr, hw⟩ := mode_parse_uniform mode (encDecBytes data key) joe
    rw [hw w hj] at h
    cases r with
    | error e => cases h
    | ok x =>
      cases h
      obtain ⟨he, ha⟩ := hr x rfl
      exact ⟨joe, x.1, x.2, rfl, he, ha, rfl⟩

theorem parse_statistics_data_cases (h : parse_statistics_data data key w = .ok w') :
    w' = w ∨ ∃ joe event joe', w.maker.joe = some joe ∧ event.isStatistics ∧
      joe'.SameFile joe ∧ w' = updateJoe event joe' w := by
  cases hm : w.maker.statParserMode with
  | none =>
    rw [parse_statistics_data, hm] at h
    cases h
    exact .inl rfl
  | some mode => exact .inr (parse_statistics_data_taken hm h)

theorem on_characteristic_read_cases (h : on_characteristic_read data uuid w = .ok w') :
    w' = w ∨ w' = updateAbout (aboutDataOf data) w ∨
      (∃ joe payload, w.maker.joe = some joe ∧ (encDecBytes data w.key).tail = payload ∧
        w' = updateAlerts (activeAlerts joe w.maker.joeInstance payload) w) ∨
      (uuid = STATISTICS_COMMAND_CHARACTERISTIC_UUID ∧ w' = setReady (readyReply data w.key) w) ∨
      (uuid = STATISTICS_DATA_CHARACTERISTIC_UUID ∧
        ∃ joe event joe', w.maker.joe = some joe ∧ event.isStatistics ∧
          joe'.SameFile joe ∧ w' = updateJoe event joe' w) := by
  unfold on_characteristic_read at h
  split at h
  · by_cases hd : 51 ≤ data.length
    · rw [parse_about_data_ok hd] at h
      cases h
      exact .inr (.inl rfl)
    · rw [parse_about_data_error (by omega)] at h
      cases h
  split at h
  · cases hj : w.maker.joe with
    | none =>
      rw [parse_machine_status, hj] at h
      cases h
      exact .inl rfl
    | some joe =>
      by_cases hd : data = []
      · rw [hd, parse_machine_status_nil hj] at h
        cases h
      · obtain ⟨b, payload, hp⟩ := decoded_ne_nil hd w.key
        rw [parse_machine_status_cons hj hp] at h
        cases h
        exact .inr (.inr (.inl ⟨joe, payload, rfl, by rw [hp, List.tail_cons], rfl⟩))
  split at h
  · cases h
    exact .inl rfl
  split at h
  · cases h
    exact .inl rfl
  split at h
  · cases h
    exact .inr (.inr (.inr (.inl ⟨by assumption, rfl⟩)))
  split at h
  · rcases parse_statistics_data_cases h with he | he
    · exact .inl he
    · exact .inr (.inr (.inr (.inr ⟨by assumption, he⟩)))
  · cases h
    exact .inl rfl

theorem faultsIn_parse_about_data (data : Bytes) (w : World) :
    FaultsIn [.receive] (parse_about_data data w) := by
  by_cases h : 51 ≤ data.length
  · rw [parse_about_data_ok h]
    exact within_ok _ _
  · rw [parse_about_data_error (by omega)]
    exact within_error (by decide)

theorem faultsIn_parse_machine_status (data : Bytes) (key : UInt8) (w : World) :
    FaultsIn [.receive] (parse_machine_status data key w) := by
  cases hj : w.maker.joe with
  | none =>
    rw [parse_machine_status, hj]
    exact within_ok _ _
  | some joe =>
    by_cases hd : data = []
    · rw [hd, parse_machine_status_nil hj]
      exact within_error (by decide)
    · obtain ⟨b, payload, hp⟩ := decoded_ne_nil hd key
      rw [parse_machine_status_cons hj hp]
      exact within_ok _ _

theorem faultsIn_mode_parse (mode : StatParseMode) (data : Bytes) (w : World) :
    FaultsIn [.receive, .hex] (mode.parse data w) := by
  cases hj : w.maker.joe with
  | none =>
    rw [mode_parse_none hj]
    exact within_error (by decide)
  | some joe =>
    cases mode with
    | PRODUCT_COUNTERS =>
      simp only [StatParseMode.parse, parse_product_counter_data, hj, total_count_ok, ok_bind]
      exact (Within.mapM (faultsIn_parse_product_counter data) _).bind fun _ _ => within_ok _ _
    | MAINTENANCE_COUNTER =>
      rw [StatParseMode.parse, parse_maintainence_counter_data_ok data hj]
      exact within_ok _ _
    | MAINTENANCE_PERCENT =>
      rw [StatParseMode.parse, parse_maintainence_percent_data_ok data hj]
      exact within_ok _ _

theorem faultsIn_on_characteristic_read (data : Bytes) (uuid : Uuid) (w : World) :
    FaultsIn [.receive, .hex] (on_characteristic_read data uuid w) := by
  unfold on_characteristic_read
  split
  · exact faultsIn_weaken (faultsIn_parse_about_data data w) (by decide)
  split
  · exact faultsIn_weaken (faultsIn_parse_machine_status data w.key w) (by decide)
  split
  · exact within_ok _ _
  split
  · exact within_ok _ _
  split
  · exact within_ok _ _
  split
  · cases hm : w.maker.statParserMode with
    | none =>
      rw [parse_statistics_data, hm]
      exact within_ok _ _
    | some mode =>
      rw [parse_statistics_data_mode hm]
      exact faultsIn_mode_parse _ _ _
  · exact within_ok _ _

theorem faultsIn_read_characteristic (reply : Option Bytes) (uuid : Uuid) (w : World) :
    FaultsIn [.receive, .hex] (BLEDevice.read_characteristic reply uuid w) := by
  unfold BLEDevice.read_characteristic
  split
  · split
    · exact faultsIn_on_characteristic_read _ _ _
    · exact within_ok _ _
  · exact within_ok _ _

/-- The members that only the connection lifecycle writes, and the known machines. -/
def World.link (w : World) : CoffeeMakerState × BLEDevice × Bool × List Machine :=
  (w.maker.state, w.maker.bleDevice, w.maker.heartbeatThread, w.maker.machines)

/-- A received frame changes neither the lifecycle nor the key, and it writes nothing. -/
theorem on_characteristic_read_rest (h : on_characteristic_read data uuid w = .ok w') :
    w'.link = w.link ∧ w'.wire = w.wire ∧ w'.key = w.key := by
  rcases on_characteristic_read_cases h with
    he | he | ⟨joe, payload, _, _, he⟩ | ⟨_, he⟩ | ⟨_, _, event, joe', _, _, _, he⟩
  · rw [he]
    exact ⟨rfl, rfl, rfl⟩
  · rw [he, updateAbout]
    split <;> exact ⟨rfl, rfl, rfl⟩
  · rw [he, updateAlerts]
    split <;> exact ⟨rfl, rfl, rfl⟩
  · rw [he]
    exact ⟨rfl, rfl, rfl⟩
  · rw [he]
    exact ⟨rfl, rfl, rfl⟩

theorem on_characteristic_read_link (h : on_characteristic_read data uuid w = .ok w') :
    w'.link = w.link := (on_characteristic_read_rest h).1

theorem on_characteristic_read_frame (h : on_characteristic_read data uuid w = .ok w') :
    w'.wire = w.wire ∧ w'.key = w.key := (on_characteristic_read_rest h).2

theorem notifications_link (h : run on_notification w notifications = .ok w') :
    w'.link = w.link :=
  run_invariant (fun v => v.link = w.link)
    (fun _ _ _ hv hs => (on_characteristic_read_link hs).trans hv) rfl h

theorem read_characteristic_cases (h : BLEDevice.read_characteristic reply uuid w = .ok w') :
    w' = w ∨ ∃ data, on_characteristic_read data uuid w = .ok w' := by
  unfold BLEDevice.read_characteristic at h
  split at h
  · cases reply with
    | none =>
      cases h
      exact .inl rfl
    | some data => exact .inr ⟨data, h⟩
  · cases h
    exact .inl rfl

theorem read_characteristic_link (h : BLEDevice.read_characteristic reply uuid w = .ok w') :
    w'.link = w.link := by
  rcases read_characteristic_cases h with he | ⟨data, h⟩
  · rw [he]
  · exact on_characteristic_read_link h

theorem read_characteristic_frame (h : BLEDevice.read_characteristic reply uuid w = .ok w') :
    w'.wire = w.wire ∧ w'.key = w.key := by
  rcases read_characteristic_cases h with he | ⟨data, h⟩
  · rw [he]
    exact ⟨rfl, rfl⟩
  · exact on_characteristic_read_frame h

theorem write_maker (h : write uuid data encode overrideKey written w = .ok w') :
    w'.maker = w.maker := by
  unfold write at h
  split at h
  · split at h
    · cases h
    · cases h
      rfl
  · cases h
    rfl

theorem link_eq_of_maker {w w' : World} (h : w'.maker = w.maker) : w'.link = w.link := by
  rw [World.link, World.link, h]

theorem parse_man_data_link (h : parse_man_data data doc w = .ok w') : w'.link = w.link := by
  obtain ⟨manData, _, h⟩ := bind_ok h
  simp only at h
  split at h
  · cases h
  · obtain ⟨joe, _, h⟩ := bind_ok h
    cases h
    rfl

end JuttaProto
