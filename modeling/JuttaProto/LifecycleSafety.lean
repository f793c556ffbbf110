import JuttaProto.WireSafety

namespace JuttaProto
open Run
set_option autoImplicit true

theorem LinkInv.peerKey_eq_none_iff (h : LinkInv w) :
    w.conversation.peerKey = none ↔ w.maker.bleDevice.idle := by
  constructor
  · intro hp
    have hc : w.maker.bleDevice.connected = false := by
      by_cases hs : w.maker.state = .CONNECTED
      · rw [conversation_connected hs] at hp
        cases hp
      · cases hc : w.maker.bleDevice.connected with
        | false => rfl
        | true =>
          rw [conversation_lingering hs hc] at hp
          cases hp
    exact ⟨h.connection.2 hc, hc⟩
  · intro hi
    rw [h.conversation_idle hi]
    rfl

/-- The assertions of the lifecycle hold throughout a run exactly when, at every connect of the run,
the callback of the last link has come, and the connect gets manufacturer data once it has reached
the device. -/
theorem lifecycle_safe_iff (machines : List Machine) (acts : List Action) :
    NeverIn .lifecycle (run step (World.fresh machines) acts) ↔
      ∀ before g written after w, acts = before ++ .call (.connect g) written :: after →
        run step (World.fresh machines) before = .ok w →
          before.foldl peer none = none ∧ (LinkOpens g →
            (∃ w', run on_notification (linkOpened g w) g.notifications = .ok w') →
              g.manData.getD [] ≠ []) := by
  have hpeer {before : List Action} {w : World}
      (hr : run step (World.fresh machines) before = .ok w) :
      before.foldl peer none = none ↔ w.maker.bleDevice.idle := by
    rw [← (linkInv_run hr).peerKey_eq_none_iff, (linkInv_fresh machines).peerKey_run hr]
    exact Iff.rfl
  rw [lifecycle_guarded, guarded_iff]
  constructor
  · intro h before g written after w he hr
    have hready : ConnectStarts g w := h before _ after w he hr
    exact ⟨(hpeer hr).2 hready.1, hready.2⟩
  · intro h before a after w he hr
    cases a with
    | call c written =>
      cases c with
      | connect g =>
        obtain ⟨hnone, hdata⟩ := h before g written after w he hr
        exact ⟨(hpeer hr).1 hnone, hdata⟩
      | _ => trivial
    | notification n => trivial
    | linkLost written => trivial

/-- Empty manufacturer data end in a disconnect before there is a heartbeat thread, and a
connect after a disconnect finds the old connection until the callback has come. -/
theorem lifecycle_asserts :
    run step (World.fresh [exampleJoe.machine])
        [.call (.connect { exampleReplies with manData := none }) GATTLIB_SUCCESS] =
      .error (.assertion .heartbeatThread) ∧
    ∃ w, run step (World.fresh [exampleJoe.machine])
        [.call (.connect exampleReplies) GATTLIB_SUCCESS, .call .disconnect GATTLIB_SUCCESS] =
          .ok w ∧ w.maker.state = .DISCONNECTED ∧
      step w (.call (.connect exampleReplies) GATTLIB_SUCCESS) =
        .error (.assertion .noConnection) := by
  decide +kernel

end JuttaProto
