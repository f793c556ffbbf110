import JuttaProto.ConversationRefined
import JuttaProto.LinkLoss

namespace JuttaProto
open Run
set_option autoImplicit true

/-- How far a coffee maker has got that is connected once. It is `cut` and then `stranded` if the
link is lost after the start of the heartbeat thread and before the change to `CONNECTED`. -/
inductive Stage
  | fresh
  | connecting
  | opened
  | linked
  | started
  | inUse
  | failed
  | gone
  | cut
  | stranded
  deriving DecidableEq, Repr

namespace Stage

def state : Stage → CoffeeMakerState
  | fresh | failed | gone | cut => .DISCONNECTED
  | connecting | opened | linked | started => .CONNECTING
  | inUse | stranded => .CONNECTED

def connection : Stage → Bool
  | opened | linked | started | inUse => true
  | _ => false

def connected : Stage → Bool
  | linked | started | inUse => true
  | _ => false

def heartbeat : Stage → Bool
  | started | inUse => true
  | _ => false

def announced : Stage → List CoffeeMakerState
  | fresh => []
  | connecting | opened | linked | started => [.CONNECTING]
  | inUse => [.CONNECTING, .CONNECTED]
  | failed => [.CONNECTING, .DISCONNECTED]
  | gone => [.CONNECTING, .CONNECTED, .DISCONNECTING, .DISCONNECTED]
  | cut => [.CONNECTING, .DISCONNECTING, .DISCONNECTED]
  | stranded => [.CONNECTING, .DISCONNECTING, .DISCONNECTED, .CONNECTED]

def advances : Stage → List Stage
  | fresh => [connecting]
  | connecting => [opened, failed]
  | opened => [linked]
  | linked => [started]
  | started => [inUse]
  | cut => [stranded]
  | inUse | failed | gone | stranded => []

/-- The stage after a loss of the link. At the stage `linked` an assertion fails instead. -/
def lost : Stage → Stage
  | started => cut
  | inUse => gone
  | stage => stage

def afloat : Stage → Bool
  | cut | stranded => false
  | _ => true

theorem afloat_advances {stage stage' : Stage} (h : stage' ∈ stage.advances) :
    stage'.afloat = stage.afloat := by
  cases stage <;> cases stage' <;> first | rfl | exact absurd h (by decide)

theorem afloat_lost {stage : Stage} (h : stage ≠ started) : stage.lost.afloat = stage.afloat := by
  cases stage <;> first | rfl | exact absurd rfl h

structure At (stage : Stage) (w : World) : Prop where
  state : w.maker.state = stage.state
  connection : w.maker.bleDevice.connection.isSome = stage.connection
  connected : w.maker.bleDevice.connected = stage.connected
  heartbeat : w.maker.heartbeatThread = stage.heartbeat
  announced : w.announced = stage.announced

theorem at_fresh (machines : List Machine) : fresh.At (World.fresh machines) :=
  ⟨rfl, rfl, rfl, rfl, rfl⟩

theorem At.congr {stage : Stage} (h : stage.At w) (hl : w'.link = w.link)
    (ha : w'.announced = w.announced) : stage.At w' := by
  simp only [World.link, Prod.mk.injEq] at hl
  obtain ⟨hs, hd, hh, _⟩ := hl
  obtain ⟨state, connection, connected, heartbeat, announced⟩ := h
  exact ⟨by rw [hs]; exact state, by rw [hd]; exact connection, by rw [hd]; exact connected,
    by rw [hh]; exact heartbeat, by rw [ha]; exact announced⟩

def Announces (stage stage' : Stage) : Prop :=
  stage'.state ≠ stage.state ∧ stage'.connection = stage.connection ∧
    stage'.connected = stage.connected ∧ stage'.heartbeat = stage.heartbeat ∧
      stage'.announced = stage.announced ++ [stage'.state]

instance (stage stage' : Stage) : Decidable (stage.Announces stage') :=
  inferInstanceAs (Decidable (_ ∧ _))

theorem At.set_state {stage stage' : Stage} (h : stage.At w) (ha : stage.Announces stage') :
    stage'.At (JuttaProto.set_state stage'.state w) := by
  obtain ⟨hs, hn, hc, hh, ha⟩ := ha
  refine ⟨?_, ?_, ?_, ?_, ?_⟩
  · rw [set_state_maker]
  · rw [set_state_bleDevice, h.connection, hn]
  · rw [set_state_bleDevice, h.connected, hc]
  · rw [set_state_maker, hh]
    exact h.heartbeat
  · rw [announced_set_state (by rw [h.state]; exact hs), h.announced, ha]

theorem At.idle {stage : Stage} (h : stage.At w) (hn : stage.connection = false)
    (hc : stage.connected = false) : w.maker.bleDevice.idle := by
  refine ⟨?_, h.connected.trans hc⟩
  rw [← Option.not_isSome_iff_eq_none, h.connection, hn]
  exact Bool.false_ne_true

theorem At.open_link (h : connecting.At w) (ho : BLEDevice.open_link g w = .ok (w', found)) :
    (if found then opened else connecting).At w' := by
  have hi := h.idle rfl rfl
  by_cases hg : LinkOpens g
  · rw [open_link_opens hi hg] at ho
    cases ho
    exact ⟨h.state, Option.isSome_iff_ne_none.2 hg.1, rfl, h.heartbeat, h.announced⟩
  · obtain ⟨n, hn⟩ := open_link_fails hi hg
    rw [hn] at ho
    cases ho
    exact ⟨h.state, rfl, rfl, h.heartbeat, h.announced⟩

theorem At.linkUp (h : opened.At w) : linked.At (linkUp w) :=
  ⟨h.state, h.connection, rfl, h.heartbeat, h.announced⟩

theorem At.start_heartbeat (h : linked.At w) (hs : JuttaProto.start_heartbeat w = .ok w') :
    started.At w' := by
  rw [JuttaProto.start_heartbeat, h.heartbeat, if_neg (by decide)] at hs
  cases hs
  exact ⟨h.state, h.connection, h.connected, rfl, h.announced⟩

end Stage

theorem linkLost_taken (h : BLEDevice.on_disconnected (on_disconnected written) w = .ok w') :
    (w.maker.bleDevice.connected = false ∧ w' = w) ∨
      (w.maker.bleDevice.connected = true ∧ w.maker.state.active = false ∧
        w' = w.withDevice ⟨none, w.maker.bleDevice.serviceCount, false⟩) ∨
      (w.maker.bleDevice.connected = true ∧ w.maker.state.active = true ∧
        w.maker.heartbeatThread = true ∧
        w'.maker = { w.maker with
          bleDevice := ⟨none, w.maker.bleDevice.serviceCount, false⟩
          state := .DISCONNECTED, heartbeatThread := false } ∧
        Speaks [Conversation.modeMessage w.key [0x00, 0x7F, 0x81] false]
          [.DISCONNECTING, .DISCONNECTED] w w' ∧ w'.key = w.key) := by
  rw [BLEDevice.on_disconnected] at h
  cases hc : w.maker.bleDevice.connected with
  | false =>
    rw [hc, if_neg Bool.false_ne_true] at h
    cases h
    exact .inl ⟨rfl, rfl⟩
  | true =>
    rw [hc, if_pos rfl, on_disconnected] at h
    cases ha : w.maker.state.active with
    | false =>
      have hlost : (w.withDevice { w.maker.bleDevice with
          connected := false, connection := none }).maker.state.active = false := ha
      rw [hlost, if_neg Bool.false_ne_true] at h
      cases h
      exact .inr (.inl ⟨rfl, rfl, rfl⟩)
    | true =>
      have hlost : (w.withDevice { w.maker.bleDevice with
          connected := false, connection := none }).maker.state.active = true := ha
      rw [if_pos hlost] at h
      rcases disconnect_cases h with ⟨hn, _⟩ | ⟨_, hh, _⟩
      · rw [hlost] at hn
        cases hn
      · obtain ⟨hm, hspeaks, hkey⟩ := speaks_disconnect hlost hh h
        exact .inr (.inr ⟨rfl, rfl, hh, hm, ⟨hspeaks.wire, hspeaks.announced, hspeaks.keyed⟩,
          hkey⟩)

namespace Stage

theorem active_of_connected {stage : Stage} (h : stage.connected = true) :
    stage.state.active = true := by
  cases stage <;> first | rfl | cases h

theorem eq_linked_iff (stage : Stage) :
    stage = linked ↔ stage.connected = true ∧ stage.heartbeat = false := by
  cases stage <;> decide

theorem eq_inUse_iff (stage : Stage) :
    stage = inUse ↔ stage.state = .CONNECTED ∧ stage.connected = true := by
  cases stage <;> decide

/-- A coffee maker that is connected once is not found with a link and without its thread, but at
the stage `linked`. -/
theorem At.linkLost {stage : Stage} (h : stage.At w)
    (hl : BLEDevice.on_disconnected (JuttaProto.on_disconnected written) w = .ok w') :
    stage.lost.At w' := by
  rcases linkLost_taken hl with ⟨hc, rfl⟩ | ⟨hc, ha, _⟩ | ⟨hc, ha, hh, hm, hspeaks, _⟩
  · rw [h.connected] at hc
    cases stage <;> first | exact h | cases hc
  · rw [h.state, active_of_connected (h.connected.symm.trans hc)] at ha
    cases ha
  · rw [h.heartbeat] at hh
    have hann := hspeaks.announced
    rw [h.announced] at hann
    cases stage
    case started | inUse =>
      exact ⟨by rw [hm]; rfl, by rw [hm]; rfl, by rw [hm]; rfl, by rw [hm]; rfl, hann⟩
    all_goals cases hh

theorem At.linkLost_safe_iff {stage : Stage} (h : stage.At w) (written : Int) :
    NeverIn .lifecycle (BLEDevice.on_disconnected (JuttaProto.on_disconnected written) w) ↔
      stage ≠ linked := by
  rw [BLEDevice.on_disconnected, ne_eq, eq_linked_iff, h.connected]
  cases hc : stage.connected with
  | false =>
    rw [if_neg Bool.false_ne_true]
    exact iff_of_true (avoids_ok _ _) fun hl => Bool.false_ne_true hl.1
  | true =>
    have ha : (w.withDevice { w.maker.bleDevice with
        connected := false, connection := none }).maker.state.active = true := by
      change w.maker.state.active = true
      rw [h.state]
      exact active_of_connected hc
    rw [if_pos rfl, JuttaProto.on_disconnected, if_pos ha]
    cases hh : stage.heartbeat with
    | false =>
      rw [disconnect_asserts written ha (h.heartbeat.trans hh), neverIn_error_iff]
      exact iff_of_false (fun hn => hn rfl) fun hl => hl ⟨rfl, rfl⟩
    | true =>
      obtain ⟨w', hw, _⟩ := disconnect_ok written ha (h.heartbeat.trans hh)
      rw [hw]
      exact iff_of_true (avoids_ok _ _) fun hl => Bool.false_ne_true hl.2.symm

end Stage

theorem Stage.At.asserts (h : linked.At w) (written : Int) :
    disconnect written w = .error (.assertion .heartbeatThread) :=
  disconnect_asserts written (by rw [h.state]; rfl) h.heartbeat

/-- Without manufacturer data the connect does not come past this step. -/
theorem Stage.At.parsed (h : linked.At w)
    (he : ConnectStep.parse_man_data.exec g written w = .ok s) :
    ∃ w', parse_man_data (g.manData.getD []) g.doc w = .ok w' ∧
      s = ⟨w', .connect g written .stay_in_ble⟩ := by
  rw [ConnectStep.exec] at he
  split at he
  · rw [h.asserts] at he
    cases he
  · obtain ⟨w', hp, he⟩ := bind_ok he
    cases he
    exact ⟨w', hp, rfl⟩

/-- The stages at which a connect can be when it takes a step. -/
def ConnectStep.stages : ConnectStep → List Stage
  | .set_connecting => [.fresh]
  | .open_link | .set_disconnected => [.connecting]
  | .register => [.opened]
  | .parse_man_data | .stay_in_ble | .request_about_info | .start_heartbeat => [.linked]
  | .set_connected => [.started, .cut]
  | .finish true => [.inUse, .gone, .stranded]
  | .finish false => [.failed]

theorem ConnectStep.exec_stages {next : ConnectStep} {stage : Stage}
    (hm : stage ∈ next.stages) (ha : stage.At w) (h : next.exec g written w = .ok s) :
    (∃ connected, next = .finish connected ∧ s = ⟨w, .idle (some connected)⟩) ∨
      ∃ next' stage', s.pc = .connect g written next' ∧ stage' ∈ next'.stages ∧
        stage'.At s.world ∧ (stage' = stage ∨ stage' ∈ stage.advances) := by
  cases next with
  | set_connecting =>
    cases List.mem_singleton.1 hm
    cases h
    have hs : Stage.connecting.At (set_state .CONNECTING w) := ha.set_state (by decide)
    exact .inr ⟨.open_link, .connecting, rfl, by decide, hs, .inr (by decide)⟩
  | open_link =>
    cases List.mem_singleton.1 hm
    obtain ⟨⟨w', found⟩, ho, h⟩ := bind_ok h
    cases h
    have hs := ha.open_link ho
    cases found with
    | true => exact .inr ⟨.register, .opened, rfl, by decide, hs, .inr (by decide)⟩
    | false => exact .inr ⟨.set_disconnected, .connecting, rfl, by decide, hs, .inl rfl⟩
  | register =>
    cases List.mem_singleton.1 hm
    obtain ⟨w', hn, h⟩ := bind_ok h
    cases h
    have hsilent := notifications_silent hn
    have hs := (ha.congr hsilent.link hsilent.announced).linkUp
    exact .inr ⟨.parse_man_data, .linked, rfl, by decide, hs, .inr (by decide)⟩
  | parse_man_data =>
    cases List.mem_singleton.1 hm
    obtain ⟨w', hp, rfl⟩ := ha.parsed h
    have hs := ha.congr (parse_man_data_link hp) (parse_man_data_speech hp).2.2
    exact .inr ⟨.stay_in_ble, .linked, rfl, by decide, hs, .inl rfl⟩
  | stay_in_ble =>
    cases List.mem_singleton.1 hm
    obtain ⟨w', hw, h⟩ := bind_ok h
    cases h
    obtain ⟨_, rfl⟩ := write_ok hw
    exact .inr ⟨.request_about_info, .linked, rfl, by decide, ha.congr rfl rfl, .inl rfl⟩
  | request_about_info =>
    cases List.mem_singleton.1 hm
    obtain ⟨w', hr, h⟩ := bind_ok h
    cases h
    have hsilent := read_characteristic_silent hr
    have hs := ha.congr hsilent.link hsilent.announced
    exact .inr ⟨.start_heartbeat, .linked, rfl, by decide, hs, .inl rfl⟩
  | start_heartbeat =>
    cases List.mem_singleton.1 hm
    obtain ⟨w', hw, h⟩ := bind_ok h
    cases h
    exact .inr ⟨.set_connected, .started, rfl, by decide, ha.start_heartbeat hw,
      .inr (by decide)⟩
  | set_connected =>
    cases h
    rcases List.mem_pair.1 hm with rfl | rfl
    · have hs : Stage.inUse.At (set_state .CONNECTED w) := ha.set_state (by decide)
      exact .inr ⟨.finish true, .inUse, rfl, by decide, hs, .inr (by decide)⟩
    · have hs : Stage.stranded.At (set_state .CONNECTED w) := ha.set_state (by decide)
      exact .inr ⟨.finish true, .stranded, rfl, by decide, hs, .inr (by decide)⟩
  | set_disconnected =>
    cases List.mem_singleton.1 hm
    cases h
    have hs : Stage.failed.At (set_state .DISCONNECTED w) := ha.set_state (by decide)
    exact .inr ⟨.finish false, .failed, rfl, by decide, hs, .inr (by decide)⟩
  | finish connected =>
    cases h
    exact .inl ⟨connected, rfl, rfl⟩

/-- Of the assertions in a connect only that of the disconnect in it can fail. -/
theorem ConnectStep.exec_safe_iff {next : ConnectStep} {stage : Stage}
    (hm : stage ∈ next.stages) (ha : stage.At w) :
    NeverIn .lifecycle (next.exec g written w) ↔
      (next = .parse_man_data → g.manData.getD [] ≠ []) := by
  have hsafe {x : Except Fault World} {f : World → Except Fault System}
      (hx : NeverIn .lifecycle x) (hf : ∀ w, NeverIn .lifecycle (f w)) :
      NeverIn .lifecycle (x >>= f) := neverIn_bind_iff.2 ⟨hx, fun w _ => hf w⟩
  cases next with
  | set_connecting | set_connected | set_disconnected | finish =>
    exact iff_of_true (avoids_ok _ _) ConnectStep.noConfusion
  | open_link =>
    cases List.mem_singleton.1 hm
    refine iff_of_true ?_ ConnectStep.noConfusion
    by_cases hg : LinkOpens g
    · rw [ConnectStep.exec, open_link_opens (ha.idle rfl rfl) hg]
      exact avoids_ok _ _
    · obtain ⟨n, hn⟩ := open_link_fails (ha.idle rfl rfl) hg
      rw [ConnectStep.exec, hn]
      exact avoids_ok _ _
  | register =>
    refine iff_of_true (hsafe ?_ fun _ => avoids_ok _ _) ConnectStep.noConfusion
    exact neverIn_of_faultsIn
      (Within.run (fun _ _ => faultsIn_on_characteristic_read _ _ _) _ _) (by decide)
  | parse_man_data =>
    cases List.mem_singleton.1 hm
    rw [ConnectStep.exec]
    split
    · rename_i hm
      rw [ha.asserts]
      refine iff_of_false (fun hn => ?_) fun hn => hn rfl hm
      exact neverIn_error_iff.1 hn rfl
    · rename_i hm
      refine iff_of_true (hsafe ?_ fun _ => avoids_ok _ _) fun _ => hm
      exact neverIn_of_faultsIn (faultsIn_parse_man_data _ _ _) (by decide)
  | stay_in_ble =>
    refine iff_of_true (hsafe ?_ fun _ => avoids_ok _ _) ConnectStep.noConfusion
    exact neverIn_of_faultsIn (faultsIn_write _ _ _ _ _ _) (by decide)
  | request_about_info =>
    refine iff_of_true (hsafe ?_ fun _ => avoids_ok _ _) ConnectStep.noConfusion
    exact neverIn_of_faultsIn (faultsIn_read_characteristic _ _ _) (by decide)
  | start_heartbeat =>
    cases List.mem_singleton.1 hm
    refine iff_of_true ?_ ConnectStep.noConfusion
    rw [ConnectStep.exec, JuttaProto.start_heartbeat, ha.heartbeat, if_neg (by decide)]
    exact avoids_ok _ _

end JuttaProto
