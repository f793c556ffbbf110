import JuttaProto.History

namespace JuttaProto
open Run
set_option autoImplicit true

/-- No attempt to connect is under way, and none has left a link or a heartbeat thread. -/
structure Unconnected (w : World) : Prop where
  state : w.maker.state = .DISCONNECTED
  heartbeat : w.maker.heartbeatThread = false
  idle : w.maker.bleDevice.idle

/-- Attempts to connect one after the other, with what each of them returns. -/
def connectAll : List (ConnectReplies × Int) → World → Except Fault (World × List Bool)
  | [], w => .ok (w, [])
  | (g, written) :: attempts, w => do
    let (w, connected) ← connect g written w
    let (w, results) ← connectAll attempts w
    return (w, connected :: results)

def CoffeeMaker.withServices (serviceCount : Int) (m : CoffeeMaker) : CoffeeMaker :=
  { m with bleDevice := { m.bleDevice with serviceCount } }

/-- A coffee maker after an attempt that has found so many services. What gattlib answers when
the device is closed again is only logged. -/
def failed (serviceCount : Int) (w : World) : World where
  maker := w.maker.withServices serviceCount
  wire := w.wire
  events := w.events ++
    [⟨.stateChanged .CONNECTING, { w.maker with state := .CONNECTING }⟩,
      ⟨.stateChanged .DISCONNECTED, w.maker.withServices serviceCount⟩]

/-- Two attempts end in the same fault, or with the same answer, the same frames and the same
events since they were started. The coffee makers differ in the number of services at most. -/
def EndAlike (w w' : World) (r r' : Except Fault (World × Bool)) : Prop :=
  match r, r' with
  | .error e, .error e' => e = e'
  | .ok (v, connected), .ok (v', connected') =>
    connected = connected' ∧ (∃ n, v'.maker = v.maker.withServices n) ∧ v'.wire = v.wire ∧
      ∃ new new', v.events = w.events ++ new ∧ v'.events = w'.events ++ new' ∧
        new.map (·.event) = new'.map (·.event)
  | _, _ => False

theorem set_state_new (h : state ≠ w.maker.state) :
    set_state state w = ⟨{ w.maker with state }, w.wire,
      w.events ++ [⟨.stateChanged state, { w.maker with state }⟩]⟩ := if_pos h

theorem Unconnected.withServices (hu : Unconnected w) (n : Int) :
    w.maker.withServices n =
      { w.maker with bleDevice := ⟨none, n, false⟩, state := .DISCONNECTED } := by
  simp only [CoffeeMaker.withServices, hu.idle.1, hu.idle.2, hu.state]

theorem failed_attempt (hu : Unconnected w) (hg : ¬LinkOpens g) (written : Int) :
    ∃ n, connect g written w = .ok (failed n w, false) := by
  obtain ⟨n, hn⟩ := connect_fails written hu.idle hg
  have hc : set_state .CONNECTING w = _ := set_state_new (by rw [hu.state]; decide)
  refine ⟨n, ?_⟩
  rw [hn, hc, set_state_new, failed, hu.withServices]
  · simp only [World.withDevice, List.append_assoc]
    rfl
  · intro h
    cases h

theorem failed_unconnected (hu : Unconnected w) (n : Int) : Unconnected (failed n w) :=
  ⟨hu.state, hu.heartbeat, hu.idle⟩

def linkOpenedFresh (g : ConnectReplies) (w : World) : World where
  maker := { w.maker with bleDevice := ⟨g.connection, g.serviceCount, false⟩, state := .CONNECTING }
  wire := w.wire

theorem linkOpened_eq (hu : Unconnected w) (g : ConnectReplies) :
    ∃ i, i.event = .stateChanged .CONNECTING ∧
      linkOpened g w = (linkOpenedFresh g w).after (w.events ++ [i]) := by
  refine ⟨⟨.stateChanged .CONNECTING, { w.maker with state := .CONNECTING }⟩, rfl, ?_⟩
  rw [linkOpened, set_state_new (by rw [hu.state]; decide), World.after]
  simp only [World.withDevice, linkOpenedFresh, List.append_nil]

def finish (g : ConnectReplies) (written : Int) (w : World) : Except Fault World := do
  let w ← run on_notification w g.notifications
  let w ← on_connected g written (linkUp w)
  return set_state .CONNECTED w

theorem finish_local (g : ConnectReplies) (written : Int) : Local (finish g written) := by
  have hnot (n : Notification) : Local fun w => on_notification w n :=
    on_characteristic_read_local n.data n.uuid
  have hup : Local fun w => .ok (linkUp w) := by
    intro past w
    rfl
  have hstate : Local fun w => .ok (set_state .CONNECTED w) := .ok (set_state_after _)
  have hconnected := hup.bind (on_connected_local g written)
  exact (Local.run hnot g.notifications).bind (hconnected.bind hstate)

theorem connect_finish (hu : Unconnected w) (hg : LinkOpens g) (written : Int) :
    connect g written w = (·, true) <$> finish g written (linkOpened g w) := by
  rw [connect_opens hu.idle hg, finish]
  cases run on_notification (linkOpened g w) g.notifications with
  | error e => rfl
  | ok v =>
    simp only [ok_bind]
    cases on_connected g written (linkUp v) with
    | error e => rfl
    | ok v' => rfl

/-- An attempt does not depend on the attempts that have failed before. -/
theorem connect_endAlike (hu : Unconnected w) (hu' : Unconnected w')
    (hm : w'.maker = w.maker.withServices n) (hw : w'.wire = w.wire) (g : ConnectReplies)
    (written : Int) : EndAlike w w' (connect g written w) (connect g written w') := by
  by_cases hg : LinkOpens g
  · obtain ⟨i, hi, ho⟩ := linkOpened_eq hu g
    obtain ⟨i', hi', ho'⟩ := linkOpened_eq hu' g
    have he : linkOpenedFresh g w' = linkOpenedFresh g w := by
      rw [linkOpenedFresh, linkOpenedFresh, hm, hw]
      rfl
    rw [connect_finish hu hg, connect_finish hu' hg, ho, ho', he, finish_local, finish_local]
    cases finish g written (linkOpenedFresh g w) with
    | error e => rfl
    | ok v =>
      refine ⟨rfl, ⟨v.maker.bleDevice.serviceCount, rfl⟩, rfl, i :: v.events, i' :: v.events,
        ?_, ?_, ?_⟩
      · rw [after_events, List.append_assoc]
        rfl
      · rw [after_events, List.append_assoc]
        rfl
      · rw [List.map_cons, List.map_cons, hi, hi']
  · obtain ⟨k, hk⟩ := failed_attempt hu hg written
    obtain ⟨k', hk'⟩ := failed_attempt hu' hg written
    rw [hk, hk']
    refine ⟨rfl, ⟨k', ?_⟩, hw, _, _, rfl, rfl, rfl⟩
    rw [failed, failed, hm]
    rfl

def failedEvents (attempts : Nat) : List Event :=
  (List.replicate attempts [.stateChanged .CONNECTING, .stateChanged .DISCONNECTED]).flatten

theorem connectAll_failed (hu : Unconnected w) (hg : ∀ a ∈ attempts, ¬LinkOpens a.1) :
    ∃ w' n, connectAll attempts w = .ok (w', List.replicate attempts.length false) ∧
      Unconnected w' ∧ w'.maker = w.maker.withServices n ∧ w'.wire = w.wire ∧
      w'.events.map (·.event) = w.events.map (·.event) ++ failedEvents attempts.length := by
  induction attempts generalizing w with
  | nil =>
    exact ⟨w, w.maker.bleDevice.serviceCount, rfl, hu, rfl, rfl, (List.append_nil _).symm⟩
  | cons a attempts ih =>
    obtain ⟨ha, hg⟩ := List.forall_mem_cons.1 hg
    obtain ⟨n, hn⟩ := failed_attempt hu ha a.2
    obtain ⟨w', n', hr, hu', hm, hw, he⟩ := ih (failed_unconnected hu n) hg
    refine ⟨w', n', ?_, hu', hm, hw, ?_⟩
    · rw [connectAll, hn, ok_bind]
      simp only [hr, ok_bind]
      rfl
    · rw [he, failed, List.map_append, List.append_assoc]
      rfl

/-- Failed attempts return false, tell observers that the coffee maker is connecting and then
disconnected, and change nothing but the number of services. A later attempt ends like a first
one. -/
theorem failed_attempts_leave_no_trace (hu : Unconnected w)
    (hg : ∀ a ∈ attempts, ¬LinkOpens a.1) :
    ∃ w' n, connectAll attempts w = .ok (w', List.replicate attempts.length false) ∧
      Unconnected w' ∧ w'.maker = w.maker.withServices n ∧ w'.wire = w.wire ∧
      w'.events.map (·.event) = w.events.map (·.event) ++ failedEvents attempts.length ∧
      ∀ g written, EndAlike w w' (connect g written w) (connect g written w') := by
  obtain ⟨w', n, hr, hu', hm, hw, he⟩ := connectAll_failed hu hg
  exact ⟨w', n, hr, hu', hm, hw, he, connect_endAlike hu hu' hm hw⟩

theorem failed_attempts_leave_no_trace_example :
    ∃ w' n, connectAll [({}, 0), ({ connection := some 0 }, 0),
        ({ connection := some 0, discoverPrimary := 1, serviceCount := 1 }, 0)]
        (World.fresh [exampleJoe.machine]) = .ok (w', [false, false, false]) ∧
      w'.maker = (World.fresh [exampleJoe.machine]).maker.withServices n := by
  have hu : Unconnected (World.fresh [exampleJoe.machine]) := ⟨rfl, rfl, rfl, rfl⟩
  have hg : ∀ a ∈ [(({} : ConnectReplies), (0 : Int)), ({ connection := some 0 }, 0),
      ({ connection := some 0, discoverPrimary := 1, serviceCount := 1 }, 0)],
      ¬LinkOpens a.1 := by decide
  obtain ⟨w', n, h, _, hm, _⟩ := failed_attempts_leave_no_trace hu hg
  exact ⟨w', n, h, hm⟩

end JuttaProto
