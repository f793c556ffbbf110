import JuttaProto.ActiveAlerts
import JuttaProto.Changes

namespace JuttaProto
open Run
set_option autoImplicit true

/-- Every alert points to an existing alert of the machine file that is in use. -/
def AlertsValid (m : CoffeeMaker) : Prop :=
  ∀ a ∈ m.alerts, ∃ joe, m.joe = some joe ∧ a.joe = m.joeInstance ∧ a.index < joe.alerts.length

def AlertsFrom (m : CoffeeMaker) : Prop :=
  match m.joe with
  | none => m.alerts = []
  | some joe => Produced joe m.joeInstance m.alerts

theorem alertsFrom_iff (hj : m.joe = some joe) :
    AlertsFrom m ↔ Produced joe m.joeInstance m.alerts := by
  rw [AlertsFrom, hj]

theorem AlertsFrom.valid (h : AlertsFrom m) : AlertsValid m := by
  intro a ha
  cases hj : m.joe with
  | none =>
    rw [AlertsFrom, hj] at h
    rw [h] at ha
    cases ha
  | some joe =>
    obtain ⟨payload, he⟩ := (alertsFrom_iff hj).1 h
    rw [he, (activeAlerts_list joe m.joeInstance payload).mem] at ha
    obtain ⟨hi, alert, ha, _⟩ := ha
    exact ⟨joe, rfl, hi, (List.getElem?_eq_some_iff.1 ha).1⟩

theorem AlertsFrom.congr (h : AlertsFrom m) (hs : m'.shown = m.shown) : AlertsFrom m' := by
  rw [CoffeeMaker.shown, CoffeeMaker.shown, Shown.mk.injEq] at hs
  obtain ⟨_, hj, hi, _, _, ha⟩ := hs
  rw [AlertsFrom, hj, hi, ha]
  exact h

structure AlertsInv (w : World) : Prop where
  now : AlertsFrom w.maker
  told : ∀ i ∈ w.events, AlertsFrom i.maker

theorem AlertsInv.emit (h : AlertsInv w) (hm : AlertsFrom maker) (event : Event) :
    AlertsInv (emit event { w with maker }) := by
  refine ⟨hm, fun i hi => ?_⟩
  rcases List.mem_append.1 hi with hi | hi
  · exact h.told i hi
  · rw [List.mem_singleton.1 hi]
    exact hm

theorem AlertsInv.change (h : AlertsInv w) (hc : Change w w') : AlertsInv w' := by
  cases hc with
  | hidden hm he => exact ⟨h.now.congr hm, by rw [he]; exact h.told⟩
  | state state =>
    rw [set_state]
    split
    · apply h.emit
      exact h.now
    · exact h
  | manData manData =>
    apply h.emit
    exact h.now
  | joe joe =>
    apply h.emit
    exact (alertsFrom_iff (by exact rfl)).2 ⟨[], rfl⟩
  | about aboutData =>
    rw [updateAbout]
    split
    · apply h.emit
      exact h.now
    · exact h
  | alerts hj payload =>
    rw [updateAlerts]
    split
    · apply h.emit
      exact (alertsFrom_iff (by exact hj)).2 ⟨payload, rfl⟩
    · exact h
  | statistics hj _ ha =>
    obtain ⟨payload, he⟩ := (alertsFrom_iff hj).1 h.now
    apply h.emit
    apply (alertsFrom_iff rfl).2
    exact ⟨payload, by rw [activeAlerts_congr ha]; exact he⟩

theorem alertsInv_fresh (machines : List Machine) : AlertsInv (World.fresh machines) :=
  ⟨rfl, List.forall_mem_nil _⟩

theorem operations_alertsInv (h : run operate (World.fresh machines) ops = .ok w) : AlertsInv w :=
  operations_invariant AlertsInv (fun _ _ hv hc => hv.change hc) (alertsInv_fresh machines) h

/-- In every reachable state, the list that a status frame replaces comes from the machine file
in use. -/
theorem operations_produced (h : run operate (World.fresh machines) ops = .ok w)
    (hj : w.maker.joe = some joe) : Produced joe w.maker.joeInstance w.maker.alerts :=
  (alertsFrom_iff hj).1 (operations_alertsInv h).now

/-- The alerts are valid in every reachable state and were valid whenever a handler was invoked.
They also are when a parse of manufacturer data invokes its handler and then ends the program.
So a status frame compares pointers into one machine file only. -/
theorem alert_references_valid (h : run operate (World.fresh machines) ops = .ok w) :
    AlertsValid w.maker ∧ (∀ i ∈ w.events, AlertsValid i.maker) ∧
      (∀ manData, AlertsValid { w.maker with manData }) ∧
      ∀ joe payload, w.maker.joe = some joe →
        ∀ a ∈ w.maker.alerts ++ activeAlerts joe w.maker.joeInstance payload,
          a.joe = w.maker.joeInstance := by
  have hi := operations_alertsInv h
  refine ⟨hi.now.valid, fun i hm => (hi.told i hm).valid, fun _ => hi.now.valid, ?_⟩
  intro joe payload _ a ha
  rcases List.mem_append.1 ha with ha | ha
  · obtain ⟨_, _, hj, _⟩ := hi.now.valid a ha
    exact hj
  · exact ((activeAlerts_list joe _ payload).mem a |>.1 ha).1

theorem alert_references_valid_example :
    ∃ w, run operate (World.fresh [exampleJoe.machine])
        [.act (.call (.connect exampleReplies) GATTLIB_SUCCESS),
          .act (.notification ⟨encDecBytes [0, 0x80] 42, MACHINE_STATUS_CHARACTERISTIC_UUID⟩)] =
        .ok w ∧ w.maker.alerts = [⟨1, 0⟩] ∧ AlertsValid w.maker := by
  have hrun : ∃ w, run operate (World.fresh [exampleJoe.machine])
      [.act (.call (.connect exampleReplies) GATTLIB_SUCCESS),
        .act (.notification ⟨encDecBytes [0, 0x80] 42, MACHINE_STATUS_CHARACTERISTIC_UUID⟩)] =
      .ok w ∧ w.maker.alerts = [⟨1, 0⟩] := by decide +kernel
  obtain ⟨w, h, ha⟩ := hrun
  exact ⟨w, h, ha, (alert_references_valid h).1⟩

end JuttaProto
