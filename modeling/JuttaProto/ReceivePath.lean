import JuttaProto.StatisticsRequest

namespace JuttaProto
open Run
set_option autoImplicit true

/-- The handler of a frame stays inside the frame and finds the machine file that it uses. -/
structure ReceiveReady (data : Bytes) (uuid : Uuid) (maker : CoffeeMaker) : Prop where
  about : uuid = ABOUT_MACHINE_CHARACTERISTIC_UUID → 51 ≤ data.length
  status : uuid = MACHINE_STATUS_CHARACTERISTIC_UUID → maker.joe ≠ none → data ≠ []
  statistics : uuid = STATISTICS_DATA_CHARACTERISTIC_UUID →
    ∀ mode, maker.statParserMode = some mode → ∃ joe, maker.joe = some joe ∧
      (mode = .PRODUCT_COUNTERS → ProductsReadable data.length joe.products)

theorem receiveReady_about_iff :
    ReceiveReady data ABOUT_MACHINE_CHARACTERISTIC_UUID maker ↔ 51 ≤ data.length := by
  constructor
  · intro h
    exact h.about rfl
  · intro h
    exact ⟨fun _ => h, fun he => absurd he (by decide), fun he => absurd he (by decide)⟩

theorem receiveReady_status_iff :
    ReceiveReady data MACHINE_STATUS_CHARACTERISTIC_UUID maker ↔
      (maker.joe ≠ none → data ≠ []) := by
  constructor
  · intro h
    exact h.status rfl
  · intro h
    exact ⟨fun he => absurd he (by decide), fun _ => h, fun he => absurd he (by decide)⟩

theorem receiveReady_statistics_iff :
    ReceiveReady data STATISTICS_DATA_CHARACTERISTIC_UUID maker ↔
      ∀ mode, maker.statParserMode = some mode → ∃ joe, maker.joe = some joe ∧
        (mode = .PRODUCT_COUNTERS → ProductsReadable data.length joe.products) := by
  constructor
  · intro h
    exact h.statistics rfl
  · intro h
    exact ⟨fun he => absurd he (by decide), fun he => absurd he (by decide), fun _ => h⟩

theorem parse_about_data_safe_iff :
    NeverIn .receive (parse_about_data data w) ↔ 51 ≤ data.length := by
  by_cases h : 51 ≤ data.length
  · rw [parse_about_data_ok h]
    exact neverIn_ok_iff h _
  · rw [parse_about_data_error (by omega)]
    exact neverIn_error_iff_of_not rfl h

theorem parse_machine_status_safe_iff :
    NeverIn .receive (parse_machine_status data key w) ↔ (w.maker.joe ≠ none → data ≠ []) := by
  cases hj : w.maker.joe with
  | none =>
    rw [parse_machine_status, hj]
    apply neverIn_ok_iff
    intro hn
    exact absurd rfl hn
  | some joe =>
    by_cases hd : data = []
    · rw [hd, parse_machine_status_nil hj]
      refine neverIn_error_iff_of_not rfl ?_
      intro h
      exact h (Option.some_ne_none joe) rfl
    · obtain ⟨b, payload, hp⟩ := decoded_ne_nil hd key
      rw [parse_machine_status_cons hj hp]
      apply neverIn_ok_iff
      intro _
      exact hd

theorem parse_product_counter_data_safe_iff (hj : w.maker.joe = some joe) :
    NeverIn .receive (parse_product_counter_data data w) ↔
      ProductsReadable data.length joe.products := by
  simp only [parse_product_counter_data, hj, total_count_ok, ok_bind]
  rw [neverIn_bind_iff, products_safe_iff]
  constructor
  · intro h
    exact h.1
  · intro h
    exact ⟨h, fun _ _ => avoids_ok _ _⟩

theorem mode_parse_safe_iff :
    NeverIn .receive (StatParseMode.parse mode data w) ↔ ∃ joe, w.maker.joe = some joe ∧
      (mode = .PRODUCT_COUNTERS → ProductsReadable data.length joe.products) := by
  cases hj : w.maker.joe with
  | none =>
    rw [mode_parse_none hj]
    refine neverIn_error_iff_of_not rfl ?_
    rintro ⟨_, hn, _⟩
    cases hn
  | some joe =>
    simp only [Option.some.injEq, exists_eq_left']
    cases mode with
    | PRODUCT_COUNTERS =>
      rw [StatParseMode.parse, parse_product_counter_data_safe_iff hj]
      constructor
      · intro h _
        exact h
      · intro h
        exact h rfl
    | MAINTENANCE_COUNTER =>
      rw [StatParseMode.parse, parse_maintainence_counter_data_ok data hj]
      apply neverIn_ok_iff
      intro hm
      cases hm
    | MAINTENANCE_PERCENT =>
      rw [StatParseMode.parse, parse_maintainence_percent_data_ok data hj]
      apply neverIn_ok_iff
      intro hm
      cases hm

theorem parse_statistics_data_safe_iff :
    NeverIn .receive (parse_statistics_data data key w) ↔
      ∀ mode, w.maker.statParserMode = some mode → ∃ joe, w.maker.joe = some joe ∧
        (mode = .PRODUCT_COUNTERS → ProductsReadable data.length joe.products) := by
  cases hm : w.maker.statParserMode with
  | none =>
    rw [parse_statistics_data, hm]
    apply neverIn_ok_iff
    intro mode hn
    cases hn
  | some mode =>
    rw [parse_statistics_data_mode hm, mode_parse_safe_iff, length_encDecBytes]
    simp only [Option.some.injEq, forall_eq']

theorem on_characteristic_read_safe_iff :
    NeverIn .receive (on_characteristic_read data uuid w) ↔ ReceiveReady data uuid w.maker := by
  by_cases ha : uuid = ABOUT_MACHINE_CHARACTERISTIC_UUID
  · rw [ha, receiveReady_about_iff]
    exact parse_about_data_safe_iff
  by_cases hs : uuid = MACHINE_STATUS_CHARACTERISTIC_UUID
  · rw [hs, receiveReady_status_iff]
    exact parse_machine_status_safe_iff
  by_cases hd : uuid = STATISTICS_DATA_CHARACTERISTIC_UUID
  · rw [hd, receiveReady_statistics_iff]
    exact parse_statistics_data_safe_iff
  · -- the remaining handlers only decode the frame
    have hok : ∃ w', on_characteristic_read data uuid w = .ok w' := by
      rw [on_characteristic_read, if_neg ha, if_neg hs, if_neg hd]
      split
      · exact ⟨_, rfl⟩
      split
      · exact ⟨_, rfl⟩
      split
      · exact ⟨_, rfl⟩
      · exact ⟨_, rfl⟩
    obtain ⟨w', hw⟩ := hok
    rw [hw]
    apply neverIn_ok_iff
    exact ⟨fun h => absurd h ha, fun h => absurd h hs, fun h => absurd h hd⟩

def ReadReady (reply : Option Bytes) (uuid : Uuid) (maker : CoffeeMaker) : Prop :=
  maker.bleDevice.connected → ∀ data, reply = some data → ReceiveReady data uuid maker

theorem read_characteristic_safe_iff :
    NeverIn .receive (BLEDevice.read_characteristic reply uuid w) ↔
      ReadReady reply uuid w.maker := by
  unfold BLEDevice.read_characteristic ReadReady
  cases w.maker.bleDevice.connected with
  | false =>
    apply neverIn_ok_iff
    intro h
    cases h
  | true =>
    cases reply with
    | none =>
      apply neverIn_ok_iff
      intro _ data h
      cases h
    | some data =>
      simp only [if_true, true_implies, Option.some.injEq, forall_eq']
      exact on_characteristic_read_safe_iff

/-- An attempt to connect is ready if all notifications that arrive before `on_connected` can
be handled, and if the about data that are read after the machine file has been loaded are
long enough. -/
def ConnectReady (g : ConnectReplies) (w : World) : Prop :=
  w.maker.bleDevice.idle → LinkOpens g →
    Guarded on_notification (fun w n => ReceiveReady n.data n.uuid w.maker) (linkOpened g w)
      g.notifications ∧
    ((∃ w', run on_notification (linkOpened g w) g.notifications = .ok w') →
      MachineLoads w.maker.machines (g.manData.getD []) g.doc →
      ∀ data, g.about = some data → 51 ≤ data.length)

def CallReady (w : World) : Call → Prop
  | .connect g => ConnectReady g w
  | .request_statistics replies mode =>
    ReadReady replies.data STATISTICS_DATA_CHARACTERISTIC_UUID
      { w.maker with statParserMode := some mode }
  | .request_status reply => ReadReady reply MACHINE_STATUS_CHARACTERISTIC_UUID w.maker
  | .request_about_info reply => ReadReady reply ABOUT_MACHINE_CHARACTERISTIC_UUID w.maker
  | _ => True

def DeliveryReady (w : World) : Action → Prop
  | .call c _ => CallReady w c
  | .notification n => ReceiveReady n.data n.uuid w.maker
  | .linkLost _ => True

theorem not_machineLoads_nil : ¬MachineLoads machines [] doc := by
  intro ⟨manData, _, _, h, _⟩
  cases h

theorem on_connected_safe_iff (hc : w.maker.bleDevice.connected = true) :
    NeverIn .receive (on_connected g written w) ↔
      (MachineLoads w.maker.machines (g.manData.getD []) g.doc →
        ∀ data, g.about = some data → 51 ≤ data.length) := by
  unfold on_connected
  simp only
  by_cases hm : g.manData.getD [] = []
  · rw [if_pos hm, hm]
    exact ⟨fun _ hl => absurd hl not_machineLoads_nil,
      fun _ => neverIn_of_faultsIn (faultsIn_disconnect _ _) (by decide)⟩
  have habout {w₁ : World} (h₁ : parse_man_data (g.manData.getD []) g.doc w = .ok w₁) :
      NeverIn .receive (do
        let w ← stay_in_ble written w₁
        let w ← request_about_info g.about w
        start_heartbeat w) ↔ ∀ data, g.about = some data → 51 ≤ data.length := by
    obtain ⟨_, manData, joe, hmaker, _⟩ := parse_man_data_cases h₁
    obtain ⟨w₂, h₂, hw⟩ := stay_in_ble_ok written w₁
    have hc₂ : w₂.maker.bleDevice.connected = true := by rw [hw, hmaker]; exact hc
    rw [h₂, ok_bind, neverIn_bind_iff, request_about_info, read_characteristic_safe_iff]
    simp only [ReadReady, hc₂, true_implies, receiveReady_about_iff]
    exact ⟨fun h => h.1, fun h =>
      ⟨h, fun w₃ _ => neverIn_of_faultsIn (faultsIn_start_heartbeat w₃) (by decide)⟩⟩
  rw [if_neg hm, neverIn_bind_iff]
  constructor
  · intro ⟨_, h⟩ hl
    obtain ⟨w₁, h₁⟩ := parse_man_data_loads hl
    exact (habout h₁).1 (h w₁ h₁)
  · intro h
    refine ⟨neverIn_of_faultsIn (faultsIn_parse_man_data _ _ _) (by decide), fun w₁ h₁ => ?_⟩
    exact (habout h₁).2 (h (parse_man_data_cases h₁).1)

theorem connect_safe_iff : NeverIn .receive (connect g written w) ↔ ConnectReady g w := by
  unfold ConnectReady
  by_cases hi : w.maker.bleDevice.idle
  · by_cases hg : LinkOpens g
    · have hnot : NeverIn .receive (run on_notification (linkOpened g w) g.notifications) ↔ _ :=
        avoids_iff_guarded (fun _ => True) (fun _ _ _ _ _ => trivial)
          (fun _ _ _ => on_characteristic_read_safe_iff) trivial
      rw [connect_opens hi hg, neverIn_bind_iff, hnot]
      simp only [hi, hg, true_implies]
      apply and_congr_right
      intro _
      have hlink {w' : World}
          (h : run on_notification (linkOpened g w) g.notifications = .ok w') :
          w'.maker.machines = w.maker.machines := by
        have hl := congrArg (fun l => l.2.2.2) (notifications_link h)
        exact hl.trans (by rw [linkOpened, World.link, World.withDevice, set_state_maker])
      have hup {w' : World}
          (h : run on_notification (linkOpened g w) g.notifications = .ok w') :
          NeverIn .receive (on_connected g written (linkUp w')) ↔
            (MachineLoads w.maker.machines (g.manData.getD []) g.doc →
              ∀ data, g.about = some data → 51 ≤ data.length) := by
        rw [← hlink h]
        exact on_connected_safe_iff rfl
      constructor
      · rintro h ⟨w', hw⟩
        exact (hup hw).1 (neverIn_map_iff.1 (h w' hw))
      · intro h w' hw
        exact neverIn_map_iff.2 ((hup hw).2 (h ⟨w', hw⟩))
    · obtain ⟨n, hn⟩ := connect_fails written hi hg
      rw [hn]
      apply neverIn_ok_iff
      intro _ h
      exact absurd h hg
  · obtain ⟨e, he, ho⟩ := connect_asserts g written hi
    rw [he, neverIn_error_iff, ho]
    constructor
    · intro _ h
      exact absurd h hi
    · intro _
      decide

theorem ReceiveReady.congr {m m' : CoffeeMaker} (h : ReceiveReady data uuid m)
    (hj : m'.joe = m.joe) (hm : m'.statParserMode = m.statParserMode) :
    ReceiveReady data uuid m' := by
  refine ⟨h.about, ?_, ?_⟩
  · rw [hj]
    exact h.status
  · rw [hj, hm]
    exact h.statistics

theorem request_statistics_safe_iff :
    NeverIn .receive (request_statistics replies mode written w) ↔
      ReadReady replies.data STATISTICS_DATA_CHARACTERISTIC_UUID
        { w.maker with statParserMode := some mode } := by
  rw [request_statistics_eq, read_characteristic_safe_iff]
  constructor
  · intro h hc data hd
    exact (h hc data hd).congr rfl rfl
  · intro h hc data hd
    exact (h hc data hd).congr rfl rfl

theorem call_safe_iff : NeverIn .receive (Call.issue written w c) ↔ CallReady w c := by
  have hpayload {p : Uuid × Bytes × Bool} (hp : c.payload = some p) :
      NeverIn .receive (c.issue written w) ↔ True := by
    rw [issue_payload hp]
    exact neverIn_iff_true (faultsIn_write _ _ _ _ _ _) (by decide)
  have hdecode {reply : Option Bytes} {uuid : Uuid}
      (h : ∀ data, ReceiveReady data uuid w.maker) :
      NeverIn .receive (BLEDevice.read_characteristic reply uuid w) ↔ True :=
    iff_true_intro (read_characteristic_safe_iff.2 fun _ data _ => h data)
  cases c with
  | connect g => exact neverIn_map_iff.trans connect_safe_iff
  | disconnect =>
    exact neverIn_iff_true (faultsIn_disconnect _ _) (by decide)
  | write_tx _ | write_tx_string _ | shutdown | stay_in_ble | lock | unlock => exact hpayload rfl
  | request_coffee =>
    exact neverIn_iff_true (faultsIn_request_coffee _ _) (by decide)
  | request_coffee_product product =>
    exact neverIn_iff_true (faultsIn_request_coffee_product _ _ _) (by decide)
  | request_statistics replies mode => exact request_statistics_safe_iff
  | request_status reply => exact read_characteristic_safe_iff
  | request_about_info reply => exact read_characteristic_safe_iff
  | request_progress reply | read_rx reply =>
    exact hdecode fun _ => ⟨fun h => absurd h (by decide), fun h => absurd h (by decide),
      fun h => absurd h (by decide)⟩

theorem step_safe_iff : NeverIn .receive (step w a) ↔ DeliveryReady w a := by
  cases a with
  | call c written => exact call_safe_iff
  | notification n => exact on_characteristic_read_safe_iff
  | linkLost written =>
    exact neverIn_iff_true (faultsIn_on_disconnected _ _) (by decide)

/-- A run leaves no frame and uses no absent machine file in a handler exactly when
everything that is delivered to the handlers on the way can be handled. -/
theorem receive_path_safe_iff (machines : List Machine) (acts : List Action) :
    NeverIn .receive (run step (World.fresh machines) acts) ↔
      Guarded step DeliveryReady (World.fresh machines) acts :=
  avoids_iff_guarded (fun _ => True) (fun _ _ _ _ _ => trivial)
    (fun _ _ _ => step_safe_iff) trivial

/-- About data that end early are read behind their end. A notification that arrives before the
machine file has been loaded uses it if a request for statistics has selected a mode. -/
theorem receive_path_faults :
    run step (World.fresh [exampleJoe.machine])
        [.call (.connect { exampleReplies with about := some [] }) GATTLIB_SUCCESS] =
      .error (.outOfRange .parse_version) ∧
    run step (World.fresh [exampleJoe.machine])
        [.call (.request_statistics ⟨fun _ => none, none⟩ .MAINTENANCE_COUNTER) GATTLIB_SUCCESS,
          .call (.connect { exampleReplies with
            notifications := [⟨[], STATISTICS_DATA_CHARACTERISTIC_UUID⟩] }) GATTLIB_SUCCESS] =
      .error (.nullDeref .joe) := by
  decide +kernel

end JuttaProto
