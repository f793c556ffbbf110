import JuttaProto.Interleaving

namespace JuttaProto
open Run
set_option autoImplicit true

/-- What holds in the states in which no call is in progress, and when `connect` is about to
return that it has succeeded. -/
def Consistent (s : System) : Prop :=
  match s.pc with
  | .idle _ =>
    (s.world.maker.state = .CONNECTED →
      s.world.maker.bleDevice.connected = true ∧ s.world.maker.heartbeatThread = true) ∧
    (s.world.maker.state = .DISCONNECTED → s.world.maker.heartbeatThread = false)
  | .connect _ _ (.finish true) =>
    s.world.maker.state = .CONNECTED ∧ s.world.maker.bleDevice.connected = true
  | _ => True

instance : DecidablePred Consistent := fun s => by
  unfold Consistent
  split <;> exact inferInstance

def Pc.opening : Pc → Bool
  | .connect _ _ next => next ∈ [.register, .parse_man_data, .stay_in_ble, .request_about_info,
      .start_heartbeat]
  | _ => false

/-- The heartbeat thread is started, but `connect` has not yet returned. -/
def Pc.closing : Pc → Bool
  | .connect _ _ next => next ∈ [.set_connected, .finish true]
  | _ => false

/-- Every connect gets manufacturer data, and a link is lost only after the heartbeat thread of
its connection has been started. -/
def Delivered (s : System) : Turn → Prop
  | .begin (.connect g) _ => g.manData.getD [] ≠ []
  | .linkLost _ => s.pc.opening = false
  | _ => True

instance : Decidable (Delivered s t) := by
  unfold Delivered
  split <;> exact inferInstance

/-- No link is lost between the start of the heartbeat thread and the return of `connect`. -/
def LossReady (s : System) : Turn → Prop
  | .linkLost _ => s.world.maker.bleDevice.connected = true → s.pc.closing = false
  | _ => True

instance : Decidable (LossReady s t) := by
  unfold LossReady
  split <;> exact inferInstance

def Linked (w : World) : Prop :=
  w.maker.bleDevice.connected = true ∧ w.maker.bleDevice.connection ≠ none

def Unlinked (w : World) : Prop :=
  w.maker.bleDevice.idle ∧ w.maker.heartbeatThread = false

def DeviceInv (w : World) : Prop :=
  w.maker.bleDevice.connection = none ↔ w.maker.bleDevice.connected = false

def ConnectInv (w : World) : ConnectStep → Prop
  | .set_connecting => LinkInv w
  | .open_link =>
    DeviceInv w ∧ (w.maker.bleDevice.connected = true → w.maker.state = .CONNECTING) ∧
      (w.maker.bleDevice.connected = false → w.maker.heartbeatThread = false)
  | .register => w.maker.bleDevice.connection ≠ none ∧ w.maker.heartbeatThread = false
  | .parse_man_data | .stay_in_ble | .request_about_info | .start_heartbeat =>
    Linked w ∧ w.maker.heartbeatThread = false
  | .set_connected => Linked w ∧ w.maker.heartbeatThread = true
  | .set_disconnected => Unlinked w
  | .finish true => w.maker.state = .CONNECTED ∧ Linked w ∧ w.maker.heartbeatThread = true
  | .finish false => w.maker.state = .DISCONNECTED ∧ Unlinked w

def DisconnectInv (w : World) : DisconnectStep → Prop
  | .test_state | .set_disconnecting => LinkInv w
  | .send_disconnect | .join => w.maker.state = .DISCONNECTING ∧ DeviceInv w
  | .set_disconnected =>
    w.maker.state = .DISCONNECTING ∧ DeviceInv w ∧ w.maker.heartbeatThread = false

def SystemInv (s : System) : Prop :=
  match s.pc with
  | .idle _ => LinkInv s.world
  | .connect g _ next => g.manData.getD [] ≠ [] ∧ ConnectInv s.world next
  | .disconnect _ next => DisconnectInv s.world next

theorem SystemInv.consistent (h : SystemInv s) : Consistent s := by
  obtain ⟨w, pc⟩ := s
  cases pc with
  | idle connected =>
    have hi : LinkInv w := h
    exact ⟨fun hs => ⟨hi.connected hs, hi.heartbeat.2 hs⟩, hi.heartbeat_of_disconnected⟩
  | connect g written next =>
    cases next with
    | finish connected =>
      cases connected with
      | true =>
        obtain ⟨_, hs, hl, _⟩ := h
        exact ⟨hs, hl.1⟩
      | false => trivial
    | _ => trivial
  | disconnect written next => trivial

theorem SystemInv.congr {w w' : World} (h : SystemInv ⟨w, pc⟩) (he : w'.link = w.link) :
    SystemInv ⟨w', pc⟩ := by
  have hinv (hi : LinkInv w) : LinkInv w' := hi.congr he
  simp only [World.link, Prod.mk.injEq] at he
  obtain ⟨hs, hd, hh, _⟩ := he
  cases pc with
  | idle connected => exact hinv h
  | connect g written next =>
    obtain ⟨hm, hi⟩ := h
    refine ⟨hm, ?_⟩
    cases next with
    | set_connecting => exact hinv hi
    | finish connected =>
      cases connected <;> simp only [ConnectInv, Linked, Unlinked, hs, hd, hh] <;> exact hi
    | _ => simp only [ConnectInv, DeviceInv, Linked, Unlinked, hs, hd, hh]; exact hi
  | disconnect written next =>
    cases next with
    | test_state => exact hinv h
    | set_disconnecting => exact hinv h
    | _ => simp only [SystemInv, DisconnectInv, DeviceInv, hs, hd, hh]; exact h

theorem disconnect_cases (h : disconnect written w = .ok w') :
    (w.maker.state.active = false ∧ w' = w) ∨
      (w.maker.state.active = true ∧ w.maker.heartbeatThread = true ∧
        w'.maker = { w.maker with state := .DISCONNECTED, heartbeatThread := false }) := by
  cases ha : w.maker.state.active with
  | false =>
    rw [disconnect_inactive ha] at h
    cases h
    exact .inl ⟨rfl, rfl⟩
  | true =>
    cases hh : w.maker.heartbeatThread with
    | false =>
      rw [disconnect_asserts written ha hh] at h
      cases h
    | true =>
      obtain ⟨w₁, h₁, hm⟩ := disconnect_ok written ha hh
      rw [h₁] at h
      cases h
      exact .inr ⟨rfl, rfl, hm⟩

theorem linkLost_cases
    (h : BLEDevice.on_disconnected (on_disconnected written) w = .ok w')
    (hc : w.maker.bleDevice.connected = true) :
    w'.maker.bleDevice = ⟨none, w.maker.bleDevice.serviceCount, false⟩ ∧
      ((w.maker.state.active = false ∧ w'.maker.state = w.maker.state ∧
          w'.maker.heartbeatThread = w.maker.heartbeatThread) ∨
        (w.maker.state.active = true ∧ w'.maker.state = .DISCONNECTED ∧
          w'.maker.heartbeatThread = false)) := by
  rw [BLEDevice.on_disconnected, if_pos hc] at h
  unfold on_disconnected at h
  split at h
  · rename_i ha
    rcases disconnect_cases h with ⟨hn, _⟩ | ⟨_, _, hm⟩
    · rw [hn] at ha
      cases ha
    · rw [hm]
      exact ⟨rfl, .inr ⟨ha, rfl, rfl⟩⟩
  · rename_i ha
    cases h
    exact ⟨rfl, .inl ⟨Bool.eq_false_iff.2 ha, rfl, rfl⟩⟩

theorem SystemInv.linkLost {w w' : World} (h : SystemInv ⟨w, pc⟩)
    (hd : Delivered ⟨w, pc⟩ (.linkLost written)) (hr : LossReady ⟨w, pc⟩ (.linkLost written))
    (hw : BLEDevice.on_disconnected (on_disconnected written) w = .ok w') :
    SystemInv ⟨w', pc⟩ := by
  cases hc : w.maker.bleDevice.connected with
  | false =>
    rw [BLEDevice.on_disconnected, if_neg (by rw [hc]; exact Bool.false_ne_true)] at hw
    cases hw
    exact h
  | true =>
    have hinv (hi : LinkInv w) : LinkInv w' := by
      obtain ⟨w₁, h₁, hi₁⟩ := hi.linkLost written
      rw [h₁] at hw
      cases hw
      exact hi₁
    obtain ⟨hdev, hcases⟩ := linkLost_cases hw hc
    have hdevice : DeviceInv w' := by
      rw [DeviceInv, hdev]
      exact ⟨fun _ => rfl, fun _ => rfl⟩
    cases pc with
    | idle connected => exact hinv h
    | connect g written' next =>
      obtain ⟨hm, hi⟩ := h
      refine ⟨hm, ?_⟩
      cases next with
      | set_connecting => exact hinv hi
      | open_link =>
        refine ⟨hdevice, fun hn => ?_, fun _ => ?_⟩
        · rw [hdev] at hn
          cases hn
        · rcases hcases with ⟨ha, _⟩ | ⟨_, _, hh⟩
          · rw [hi.2.1 hc] at ha
            cases ha
          · exact hh
      | register | parse_man_data | stay_in_ble | request_about_info | start_heartbeat => cases hd
      | set_connected => cases hr hc
      | set_disconnected =>
        have hn := hi.1.2
        rw [hc] at hn
        cases hn
      | finish connected =>
        cases connected with
        | true => cases hr hc
        | false =>
          have hn := hi.2.1.2
          rw [hc] at hn
          cases hn
    | disconnect written' next =>
      -- a disconnect in progress has already left the states in which the callback disconnects
      have hstate (hs : w.maker.state = .DISCONNECTING) : w'.maker.state = .DISCONNECTING ∧
          w'.maker.heartbeatThread = w.maker.heartbeatThread := by
        rcases hcases with ⟨_, hs', hh⟩ | ⟨ha, _⟩
        · exact ⟨hs'.trans hs, hh⟩
        · rw [hs] at ha
          cases ha
      cases next with
      | test_state => exact hinv h
      | set_disconnecting => exact hinv h
      | send_disconnect => exact ⟨(hstate h.1).1, hdevice⟩
      | join => exact ⟨(hstate h.1).1, hdevice⟩
      | set_disconnected =>
        exact ⟨(hstate h.1).1, hdevice, (hstate h.1).2.trans h.2.2⟩

theorem open_link_cases (h : BLEDevice.open_link g w = .ok (w', opened)) :
    w.maker.bleDevice.idle ∧ w'.maker.heartbeatThread = w.maker.heartbeatThread ∧
      if opened then w'.maker.bleDevice.connection ≠ none else w'.maker.bleDevice.idle := by
  by_cases hi : w.maker.bleDevice.idle
  · by_cases hg : LinkOpens g
    · rw [open_link_opens hi hg] at h
      cases h
      exact ⟨hi, rfl, hg.1⟩
    · obtain ⟨n, hn⟩ := open_link_fails hi hg
      rw [hn] at h
      cases h
      exact ⟨hi, rfl, rfl, rfl⟩
  · obtain ⟨e, he, _⟩ := open_link_asserts (g := g) hi
    rw [he] at h
    cases h

theorem SystemInv.connectStep {next : ConnectStep} (hm : g.manData.getD [] ≠ [])
    (hi : ConnectInv w next) (h : next.exec g written w = .ok s) : SystemInv s := by
  cases next with
  | set_connecting =>
    cases h
    refine ⟨hm, ?_⟩
    have hl : LinkInv w := hi
    simp only [ConnectInv, DeviceInv, set_state_maker]
    exact ⟨hl.connection, fun _ => trivial, hl.heartbeat_of_not_connected⟩
  | open_link =>
    obtain ⟨⟨w', opened⟩, h', h⟩ := bind_ok h
    cases h
    obtain ⟨hidle, hh, hdev⟩ := open_link_cases h'
    have hh' := hh.trans (hi.2.2 hidle.2)
    cases opened with
    | true => exact ⟨hm, hdev, hh'⟩
    | false => exact ⟨hm, hdev, hh'⟩
  | register =>
    obtain ⟨w', h', h⟩ := bind_ok h
    cases h
    have hl := notifications_link h'
    simp only [World.link, Prod.mk.injEq] at hl
    obtain ⟨_, hd, hh, _⟩ := hl
    refine ⟨hm, ⟨rfl, ?_⟩, hh.trans hi.2⟩
    rw [World.withDevice]
    simp only [hd]
    exact hi.1
  | parse_man_data =>
    rw [ConnectStep.exec, if_neg hm] at h
    obtain ⟨w', h', h⟩ := bind_ok h
    cases h
    have hs : SystemInv ⟨w, .connect g written .stay_in_ble⟩ := ⟨hm, hi⟩
    exact hs.congr (parse_man_data_link h')
  | stay_in_ble =>
    obtain ⟨w', h', h⟩ := bind_ok h
    cases h
    have hs : SystemInv ⟨w, .connect g written .request_about_info⟩ := ⟨hm, hi⟩
    exact hs.congr (link_eq_of_maker (write_maker h'))
  | request_about_info =>
    obtain ⟨w', h', h⟩ := bind_ok h
    cases h
    have hs : SystemInv ⟨w, .connect g written .start_heartbeat⟩ := ⟨hm, hi⟩
    exact hs.congr (read_characteristic_link h')
  | start_heartbeat =>
    obtain ⟨w', h', h⟩ := bind_ok h
    cases h
    rw [JuttaProto.start_heartbeat, hi.2, if_neg Bool.false_ne_true] at h'
    cases h'
    exact ⟨hm, hi.1, rfl⟩
  | set_connected =>
    cases h
    refine ⟨hm, ?_⟩
    simp only [ConnectInv, Linked, set_state_maker]
    exact ⟨trivial, hi⟩
  | set_disconnected =>
    cases h
    refine ⟨hm, ?_⟩
    simp only [ConnectInv, Unlinked, set_state_maker]
    exact ⟨trivial, hi⟩
  | finish connected =>
    cases h
    cases connected with
    | true =>
      obtain ⟨hs, ⟨hc, hn⟩, hh⟩ := hi
      exact ⟨.inr hs, by rw [hs, hh]; decide, fun _ => hc, by rw [hc]; simp only [hn]; decide⟩
    | false =>
      obtain ⟨hs, ⟨hn, hc⟩, hh⟩ := hi
      exact LinkInv.of_disconnected hs hh (by rw [hn, hc]; decide)

theorem SystemInv.disconnectStep {next : DisconnectStep} (hi : DisconnectInv w next)
    (h : next.exec written w = .ok s) : SystemInv s := by
  cases next with
  | test_state =>
    cases h
    cases ha : w.maker.state.active with
    | true => exact hi
    | false => exact hi
  | set_disconnecting =>
    cases h
    simp only [SystemInv, DisconnectInv, DeviceInv, set_state_maker]
    exact ⟨trivial, hi.connection⟩
  | send_disconnect =>
    obtain ⟨w', h', h⟩ := bind_ok h
    cases h
    have hs : SystemInv ⟨w, .disconnect written .join⟩ := hi
    exact hs.congr (link_eq_of_maker (write_maker h'))
  | join =>
    obtain ⟨w', h', h⟩ := bind_ok h
    cases h
    unfold JuttaProto.join at h'
    split at h'
    · cases h'
      exact ⟨hi.1, hi.2, rfl⟩
    · cases h'
  | set_disconnected =>
    cases h
    exact LinkInv.of_disconnected (by rw [set_state_maker]) (by rw [set_state_maker]; exact hi.2.2)
      (by rw [set_state_maker]; exact hi.2.1)

theorem SystemInv.begin (h : SystemInv s) (hd : Delivered s (.begin c written))
    (hs : s.begin c written = .ok s') : SystemInv s' := by
  obtain ⟨w, pc⟩ := s
  cases pc with
  | idle connected =>
    have hcall (hs : (do let w ← c.issue written w; return (⟨w, .idle none⟩ : System)) = .ok s') :
        SystemInv s' := by
      obtain ⟨w', h', hs⟩ := bind_ok hs
      cases hs
      exact LinkInv.call h h'
    cases c with
    | connect g =>
      cases hs
      exact ⟨hd, h⟩
    | disconnect =>
      cases hs
      exact h
    | _ => exact hcall hs
  | connect g written' next =>
    cases hs
    exact h
  | disconnect written' next =>
    cases hs
    exact h

theorem SystemInv.step (h : SystemInv s) (hg : Delivered s t ∧ LossReady s t)
    (hs : s.step t = .ok s') : SystemInv s' := by
  obtain ⟨hd, hr⟩ := hg
  cases t with
  | begin c written => exact h.begin hd hs
  | advance =>
    obtain ⟨w, pc⟩ := s
    cases pc with
    | idle connected =>
      cases hs
      exact h
    | connect g written next => exact .connectStep h.1 h.2 hs
    | disconnect written next => exact .disconnectStep h hs
  | notification n =>
    cases hn : on_notification s.world n with
    | error e =>
      rw [System.step, hn] at hs
      cases hs
    | ok w' =>
      rw [System.step, hn] at hs
      cases hs
      exact SystemInv.congr h (on_characteristic_read_link hn)
  | linkLost written =>
    cases hl : BLEDevice.on_disconnected (on_disconnected written) s.world with
    | error e =>
      rw [System.step, hl] at hs
      cases hs
    | ok w' =>
      rw [System.step, hl] at hs
      cases hs
      exact SystemInv.linkLost h hd hr hl

/-- In every state of a run in which no link is lost between the start of the heartbeat thread
and the return of `connect`, the state, the link and the heartbeat thread agree. -/
theorem consistent_of_guarded
    (hg : Guarded System.step (fun s t => Delivered s t ∧ LossReady s t) (System.fresh machines)
      turns)
    (h : run System.step (System.fresh machines) turns = .ok s) : Consistent s :=
  (hg.invariant SystemInv (fun _ _ _ hi hp hs => hi.step hp hs)
    (linkInv_fresh machines) h).consistent

theorem consistent_of_guarded_example :
    ∃ s, run System.step (System.fresh [exampleJoe.machine])
        (.begin (.connect exampleReplies) GATTLIB_SUCCESS ::
          List.replicate 9 .advance ++ [.linkLost GATTLIB_SUCCESS]) = .ok s ∧
      Consistent s := by
  have hg : Guarded System.step (fun s t => Delivered s t ∧ LossReady s t)
      (System.fresh [exampleJoe.machine])
      (.begin (.connect exampleReplies) GATTLIB_SUCCESS ::
        List.replicate 9 .advance ++ [.linkLost GATTLIB_SUCCESS]) := by decide +kernel
  have hr : ∃ s, run System.step (System.fresh [exampleJoe.machine])
      (.begin (.connect exampleReplies) GATTLIB_SUCCESS ::
        List.replicate 9 .advance ++ [.linkLost GATTLIB_SUCCESS]) = .ok s ∧ True := by
    decide +kernel
  obtain ⟨s, h, _⟩ := hr
  exact ⟨s, h, consistent_of_guarded hg h⟩

/-- The link is lost right after the heartbeat thread has been started. The callback disconnects,
then `connect` overwrites the state and returns that it has succeeded. -/
theorem link_loss_inconsistent :
    Guarded System.step Delivered (System.fresh [exampleJoe.machine])
        (.begin (.connect exampleReplies) GATTLIB_SUCCESS ::
          List.replicate 7 .advance ++ [.linkLost GATTLIB_SUCCESS, .advance, .advance]) ∧
      ∃ s, run System.step (System.fresh [exampleJoe.machine])
          (.begin (.connect exampleReplies) GATTLIB_SUCCESS ::
            List.replicate 7 .advance ++ [.linkLost GATTLIB_SUCCESS, .advance, .advance]) =
          .ok s ∧
        ¬Consistent s ∧ s.world.maker.state = .CONNECTED ∧
        s.world.maker.bleDevice.connected = false ∧ s.world.maker.heartbeatThread = false := by
  decide +kernel

end JuttaProto
