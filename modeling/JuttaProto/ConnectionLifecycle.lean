import JuttaProto.StatisticsRequest

namespace JuttaProto
open Run
set_option autoImplicit true

/-- What the two objects agree on between two actions. The link may outlive the connection,
since only the callback of gattlib takes it down. -/
structure LinkInv (w : World) : Prop where
  settled : w.maker.state = .DISCONNECTED ∨ w.maker.state = .CONNECTED
  heartbeat : w.maker.heartbeatThread = true ↔ w.maker.state = .CONNECTED
  connected : w.maker.state = .CONNECTED → w.maker.bleDevice.connected = true
  connection : w.maker.bleDevice.connection = none ↔ w.maker.bleDevice.connected = false

theorem LinkInv.congr (h : LinkInv w) (he : w'.link = w.link) : LinkInv w' := by
  simp only [World.link, Prod.mk.injEq] at he
  obtain ⟨hs, hd, hh, _⟩ := he
  obtain ⟨settled, heartbeat, connected, connection⟩ := h
  exact ⟨by rw [hs]; exact settled, by rw [hs, hh]; exact heartbeat,
    by rw [hs, hd]; exact connected, by rw [hd]; exact connection⟩

theorem linkInv_fresh (machines : List Machine) : LinkInv (World.fresh machines) :=
  ⟨.inl rfl, ⟨fun h => (nomatch h), fun h => (nomatch h)⟩, fun h => (nomatch h),
    ⟨fun _ => rfl, fun _ => rfl⟩⟩

theorem LinkInv.heartbeat_of_not_connected (h : LinkInv w)
    (hc : w.maker.bleDevice.connected = false) : w.maker.heartbeatThread = false := by
  apply Bool.eq_false_iff.2
  intro hh
  rw [h.connected (h.heartbeat.1 hh)] at hc
  cases hc

theorem LinkInv.heartbeat_of_disconnected (h : LinkInv w)
    (hs : w.maker.state = .DISCONNECTED) : w.maker.heartbeatThread = false := by
  apply Bool.eq_false_iff.2
  intro hh
  rw [h.heartbeat, hs] at hh
  cases hh

theorem disconnect_inactive (h : w.maker.state.active = false) :
    disconnect written w = .ok w := by
  rw [disconnect, h, if_neg Bool.false_ne_true]

theorem disconnect_active (written : Int) (h : w.maker.state.active = true) :
    ∃ w₁, w₁.maker = { w.maker with state := .DISCONNECTING } ∧
      disconnect written w = set_state .DISCONNECTED <$> join w₁ := by
  obtain ⟨w₁, h₁, hm⟩ := send_disconnect_ok written (set_state .DISCONNECTING w)
  refine ⟨w₁, by rw [hm, set_state_maker], ?_⟩
  rw [disconnect, h, if_pos rfl, h₁, ok_bind]
  cases join w₁ with
  | error e => rfl
  | ok w₂ => rfl

theorem disconnect_ok (written : Int) (h : w.maker.state.active = true)
    (hh : w.maker.heartbeatThread = true) :
    ∃ w', disconnect written w = .ok w' ∧
      w'.maker = { w.maker with state := .DISCONNECTED, heartbeatThread := false } := by
  obtain ⟨w₁, hm, hd⟩ := disconnect_active written h
  have hh₁ : w₁.maker.heartbeatThread = true := by rw [hm]; exact hh
  rw [hd, join, if_pos hh₁]
  refine ⟨_, rfl, ?_⟩
  rw [set_state_maker]
  simp only [hm]

theorem disconnect_asserts (written : Int) (h : w.maker.state.active = true)
    (hh : w.maker.heartbeatThread = false) :
    disconnect written w = .error (.assertion .heartbeatThread) := by
  obtain ⟨w₁, hm, hd⟩ := disconnect_active written h
  have hh₁ : w₁.maker.heartbeatThread = false := by rw [hm]; exact hh
  rw [hd, join, hh₁, if_neg Bool.false_ne_true]
  rfl

theorem LinkInv.disconnect (h : LinkInv w) (written : Int) :
    ∃ w', JuttaProto.disconnect written w = .ok w' ∧
      w'.maker = { w.maker with state := .DISCONNECTED, heartbeatThread := false } := by
  rcases h.settled with hs | hs
  · have hh := h.heartbeat_of_disconnected hs
    refine ⟨w, disconnect_inactive (by rw [hs]; rfl), ?_⟩
    rw [← hs, ← hh]
  · exact disconnect_ok written (by rw [hs]; rfl) (h.heartbeat.2 hs)

theorem before_heartbeat_link (h₁ : parse_man_data data doc w = .ok w₁)
    (h₂ : stay_in_ble written w₁ = .ok w₂) (h₃ : request_about_info about w₂ = .ok w₃) :
    w₃.link = w.link :=
  (read_characteristic_link h₃).trans
    ((link_eq_of_maker (write_maker h₂)).trans (parse_man_data_link h₁))

theorem on_connected_ok (hm : g.manData.getD [] ≠ [])
    (h : on_connected g written w = .ok w') :
    w'.link = (w.maker.state, w.maker.bleDevice, true, w.maker.machines) := by
  rw [on_connected, if_neg hm] at h
  obtain ⟨w₁, h₁, h⟩ := bind_ok h
  obtain ⟨w₂, h₂, h⟩ := bind_ok h
  obtain ⟨w₃, h₃, h⟩ := bind_ok h
  have hl := before_heartbeat_link h₁ h₂ h₃
  simp only [World.link, Prod.mk.injEq] at hl
  obtain ⟨hs, hd, _, hms⟩ := hl
  unfold start_heartbeat at h
  split at h
  · cases h
  · cases h
    rw [← hs, ← hd, ← hms]
    rfl

theorem on_connected_lifecycle (hm : g.manData.getD [] ≠ [])
    (hh : w.maker.heartbeatThread = false) : NeverIn .lifecycle (on_connected g written w) := by
  rw [on_connected, if_neg hm, neverIn_bind_iff]
  refine ⟨neverIn_of_faultsIn (faultsIn_parse_man_data _ _ _) (by decide), fun w₁ h₁ => ?_⟩
  rw [neverIn_bind_iff]
  refine ⟨neverIn_of_faultsIn (faultsIn_write _ _ _ _ _ _) (by decide), fun w₂ h₂ => ?_⟩
  rw [neverIn_bind_iff]
  refine ⟨neverIn_of_faultsIn (faultsIn_read_characteristic _ _ _) (by decide), fun w₃ h₃ => ?_⟩
  have hl := before_heartbeat_link h₁ h₂ h₃
  have hh₃ : w₃.maker.heartbeatThread = false := (congrArg (fun l => l.2.2.1) hl).trans hh
  rw [start_heartbeat, hh₃, if_neg Bool.false_ne_true]
  exact avoids_ok _ _

theorem on_connected_asserts (written : Int) (hm : g.manData.getD [] = [])
    (hs : w.maker.state.active = true) (hh : w.maker.heartbeatThread = false) :
    on_connected g written w = .error (.assertion .heartbeatThread) := by
  rw [on_connected, if_pos hm, disconnect_asserts written hs hh]

theorem linkUp_link (h : run on_notification (linkOpened g w) g.notifications = .ok w') :
    (linkUp w').link = (.CONNECTING, ⟨g.connection, g.serviceCount, true⟩,
      w.maker.heartbeatThread, w.maker.machines) := by
  have hl := notifications_link h
  have ho : (linkOpened g w).link = (.CONNECTING, ⟨g.connection, g.serviceCount, false⟩,
      w.maker.heartbeatThread, w.maker.machines) := by
    rw [linkOpened, World.link, World.withDevice, set_state_maker]
  rw [ho] at hl
  simp only [World.link, Prod.mk.injEq] at hl
  obtain ⟨hs, hd, hh, hms⟩ := hl
  simp only [World.link, linkUp, World.withDevice, hs, hd, hh, hms]

/-- A connect starts without a link, and once the device has been reached it gets manufacturer
data. -/
def ConnectStarts (g : ConnectReplies) (w : World) : Prop :=
  w.maker.bleDevice.idle ∧ (LinkOpens g →
    (∃ w', run on_notification (linkOpened g w) g.notifications = .ok w') →
    g.manData.getD [] ≠ [])

theorem LinkInv.connect_safe_iff (h : LinkInv w) :
    NeverIn .lifecycle (connect g written w) ↔ ConnectStarts g w := by
  unfold ConnectStarts
  by_cases hi : w.maker.bleDevice.idle
  · have hh := h.heartbeat_of_not_connected hi.2
    by_cases hg : LinkOpens g
    · have hnot : NeverIn .lifecycle (run on_notification (linkOpened g w) g.notifications) :=
        neverIn_of_faultsIn
          (Within.run (fun _ _ => faultsIn_on_characteristic_read _ _ _) _ _) (by decide)
      rw [connect_opens hi hg, neverIn_bind_iff]
      constructor
      · rintro ⟨_, hc⟩
        refine ⟨hi, fun _ hr hm => ?_⟩
        obtain ⟨w', hw⟩ := hr
        have hl := linkUp_link hw
        simp only [World.link, Prod.mk.injEq] at hl
        have he := on_connected_asserts written hm (w := linkUp w')
          (by rw [hl.1]; rfl) (by rw [hl.2.2.1]; exact hh)
        have hn := neverIn_map_iff.1 (hc w' hw)
        rw [he, neverIn_error_iff] at hn
        exact hn rfl
      · rintro ⟨_, hm⟩
        refine ⟨hnot, fun w' hw => neverIn_map_iff.2 ?_⟩
        have hl := linkUp_link hw
        simp only [World.link, Prod.mk.injEq] at hl
        exact on_connected_lifecycle (hm hg ⟨w', hw⟩) (by rw [hl.2.2.1]; exact hh)
    · obtain ⟨n, hn⟩ := connect_fails written hi hg
      rw [hn]
      apply neverIn_ok_iff
      refine ⟨hi, ?_⟩
      intro hg'
      exact absurd hg' hg
  · obtain ⟨e, he, ho⟩ := connect_asserts g written hi
    rw [he]
    refine neverIn_error_iff_of_not ho ?_
    intro hs
    exact hi hs.1

/-- Under the invariant a connect ends either with no link and no heartbeat or with both. -/
theorem LinkInv.connect (h : LinkInv w) (hc : JuttaProto.connect g written w = .ok (w', b)) :
    (b = false ∧ ∃ n, w'.link = (.DISCONNECTED, ⟨none, n, false⟩, false, w.maker.machines)) ∨
      (b = true ∧ ∃ c n, w'.link = (.CONNECTED, ⟨some c, n, true⟩, true, w.maker.machines)) := by
  by_cases hi : w.maker.bleDevice.idle
  · have hh := h.heartbeat_of_not_connected hi.2
    by_cases hg : LinkOpens g
    · rw [connect_opens hi hg] at hc
      obtain ⟨w₁, h₁, hc⟩ := bind_ok hc
      have hl := linkUp_link h₁
      by_cases hm : g.manData.getD [] = []
      · simp only [World.link, Prod.mk.injEq] at hl
        rw [on_connected_asserts written hm (by rw [hl.1]; rfl) (by rw [hl.2.2.1]; exact hh)] at hc
        cases hc
      · cases h₂ : on_connected g written (linkUp w₁) with
        | error e =>
          rw [h₂] at hc
          cases hc
        | ok w₂ =>
          rw [h₂] at hc
          cases hc
          have hl₂ := on_connected_ok hm h₂
          simp only [World.link, Prod.mk.injEq] at hl hl₂
          obtain ⟨c, hgc⟩ := Option.ne_none_iff_exists'.1 hg.1
          refine .inr ⟨rfl, c, g.serviceCount, ?_⟩
          rw [World.link, set_state_maker]
          simp only [hl₂, hl, hgc]
    · obtain ⟨n, hn⟩ := connect_fails written hi hg
      rw [hn] at hc
      cases hc
      refine .inl ⟨rfl, n, ?_⟩
      simp only [World.link, set_state_maker, World.withDevice, hh]
  · obtain ⟨e, he, _⟩ := connect_asserts g written hi
    rw [he] at hc
    cases hc

theorem LinkInv.of_disconnected (hs : w.maker.state = .DISCONNECTED)
    (hh : w.maker.heartbeatThread = false)
    (hd : w.maker.bleDevice.connection = none ↔ w.maker.bleDevice.connected = false) :
    LinkInv w :=
  ⟨.inl hs, by rw [hs, hh]; decide, by rw [hs]; exact fun he => (nomatch he), hd⟩

theorem LinkInv.of_connected (h : w.link = (.CONNECTED, ⟨some c, n, true⟩, true, machines)) :
    LinkInv w := by
  simp only [World.link, Prod.mk.injEq] at h
  obtain ⟨hs, hdev, hh, _⟩ := h
  exact ⟨.inr hs, by rw [hs, hh]; decide, by rw [hdev]; exact fun _ => rfl,
    by rw [hdev]; exact iff_of_false (Option.some_ne_none c) Bool.noConfusion⟩

theorem LinkInv.call (h : LinkInv w) (hc : Call.issue written w c = .ok w') : LinkInv w' := by
  have hpayload {p : Uuid × Bytes × Bool} (hp : c.payload = some p) : LinkInv w' := by
    rw [issue_payload hp] at hc
    exact h.congr (link_eq_of_maker (write_maker hc))
  cases c with
  | connect g =>
    have hc' : ∃ b, JuttaProto.connect g written w = .ok (w', b) := by
      cases hr : JuttaProto.connect g written w with
      | error e =>
        rw [Call.issue, hr] at hc
        cases hc
      | ok r =>
        rw [Call.issue, hr] at hc
        cases hc
        exact ⟨r.2, rfl⟩
    obtain ⟨b, hb⟩ := hc'
    rcases h.connect hb with ⟨_, n, hl⟩ | ⟨_, c, n, hl⟩
    · simp only [World.link, Prod.mk.injEq] at hl
      exact .of_disconnected hl.1 hl.2.2.1 (by rw [hl.2.1]; exact ⟨fun _ => rfl, fun _ => rfl⟩)
    · exact .of_connected hl
  | disconnect =>
    obtain ⟨w₁, h₁, hm⟩ := h.disconnect written
    rw [Call.issue, h₁] at hc
    cases hc
    exact .of_disconnected (by rw [hm]) (by rw [hm]) (by rw [hm]; exact h.connection)
  | write_tx _ | write_tx_string _ | shutdown | stay_in_ble | lock | unlock => exact hpayload rfl
  | request_coffee =>
    obtain ⟨_, _, hc⟩ := bind_ok hc
    exact h.congr (link_eq_of_maker (write_maker hc))
  | request_coffee_product product =>
    obtain ⟨_, _, hc⟩ := bind_ok hc
    obtain ⟨_, _, hc⟩ := bind_ok hc
    exact h.congr (link_eq_of_maker (write_maker hc))
  | request_statistics replies mode => exact h.congr (request_statistics_link hc)
  | request_status _ | request_progress _ | request_about_info _ | read_rx _ =>
    exact h.congr (read_characteristic_link hc)

theorem LinkInv.linkLost (h : LinkInv w) (written : Int) :
    ∃ w', BLEDevice.on_disconnected (on_disconnected written) w = .ok w' ∧ LinkInv w' := by
  unfold BLEDevice.on_disconnected
  cases hc : w.maker.bleDevice.connected with
  | false => exact ⟨w, rfl, h⟩
  | true =>
    rw [if_pos rfl, on_disconnected]
    rcases h.settled with hs | hs
    · have hh := h.heartbeat_of_disconnected hs
      refine ⟨_, if_neg (by rw [World.withDevice, hs]; decide), ?_⟩
      exact .of_disconnected hs hh ⟨fun _ => rfl, fun _ => rfl⟩
    · obtain ⟨w', hw, hm⟩ := disconnect_ok written
        (w := w.withDevice { w.maker.bleDevice with connected := false, connection := none })
        (by rw [World.withDevice, hs]; rfl) (h.heartbeat.2 hs)
      refine ⟨w', by rw [if_pos (by rw [World.withDevice, hs]; rfl), hw], ?_⟩
      exact .of_disconnected (by rw [hm]) (by rw [hm])
        (by rw [hm]; exact ⟨fun _ => rfl, fun _ => rfl⟩)

theorem LinkInv.step (h : LinkInv w) (hs : JuttaProto.step w a = .ok w') : LinkInv w' := by
  cases a with
  | call c written => exact h.call hs
  | notification n => exact h.congr (on_characteristic_read_link hs)
  | linkLost written =>
    obtain ⟨w₁, h₁, hi⟩ := h.linkLost written
    rw [JuttaProto.step, h₁] at hs
    cases hs
    exact hi

def LinkReady (w : World) : Action → Prop
  | .call (.connect g) _ => ConnectStarts g w
  | _ => True

theorem LinkInv.call_safe (h : LinkInv w) (written : Int) :
    NeverIn .lifecycle (Call.issue written w c) ↔ LinkReady w (.call c written) := by
  have hpayload {p : Uuid × Bytes × Bool} (hp : c.payload = some p) :
      NeverIn .lifecycle (c.issue written w) ↔ True := by
    rw [issue_payload hp]
    exact neverIn_iff_true (faultsIn_write _ _ _ _ _ _) (by decide)
  cases c with
  | connect g => exact neverIn_map_iff.trans h.connect_safe_iff
  | disconnect =>
    obtain ⟨w₁, h₁, _⟩ := h.disconnect written
    rw [Call.issue, h₁]
    exact iff_true_intro (avoids_ok _ _)
  | write_tx _ | write_tx_string _ | shutdown | stay_in_ble | lock | unlock => exact hpayload rfl
  | request_coffee =>
    exact neverIn_iff_true (faultsIn_request_coffee _ _) (by decide)
  | request_coffee_product product =>
    exact neverIn_iff_true (faultsIn_request_coffee_product _ _ _) (by decide)
  | request_statistics replies mode =>
    exact neverIn_iff_true (faultsIn_request_statistics _ _ _ _) (by decide)
  | request_status _ | request_progress _ | request_about_info _ | read_rx _ =>
    exact neverIn_iff_true (faultsIn_read_characteristic _ _ _) (by decide)

theorem LinkInv.step_safe_iff (h : LinkInv w) :
    NeverIn .lifecycle (JuttaProto.step w a) ↔ LinkReady w a := by
  cases a with
  | call c written => exact h.call_safe written
  | notification n =>
    exact neverIn_iff_true (faultsIn_on_characteristic_read _ _ _) (by decide)
  | linkLost written =>
    obtain ⟨w', hw, _⟩ := h.linkLost written
    rw [JuttaProto.step, hw]
    exact iff_true_intro (avoids_ok _ _)

theorem lifecycle_guarded (machines : List Machine) (acts : List Action) :
    NeverIn .lifecycle (run step (World.fresh machines) acts) ↔
      Guarded step LinkReady (World.fresh machines) acts :=
  avoids_iff_guarded LinkInv (fun _ _ _ h hs => h.step hs) (fun _ _ h => h.step_safe_iff)
    (linkInv_fresh machines)

end JuttaProto
