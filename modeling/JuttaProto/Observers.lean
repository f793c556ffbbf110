import JuttaProto.Changes

namespace JuttaProto
open Run
set_option autoImplicit true

namespace CoffeeMaker

def get_state (m : CoffeeMaker) : CoffeeMakerState := m.state

def get_joe (m : CoffeeMaker) : Option Nat := m.joe.map fun _ => m.joeInstance

def get_man_data (m : CoffeeMaker) : ManufacturerData := m.manData

def get_about_data (m : CoffeeMaker) : AboutData := m.aboutData

def get_alerts (m : CoffeeMaker) : List AlertPtr := m.alerts

end CoffeeMaker

/-- An observer that is registered from the start and keeps the last payload of every handler,
with the machine files whose handler for alerts it is registered on. -/
structure Observer where
  state : CoffeeMakerState := .DISCONNECTED
  manData : ManufacturerData := {}
  aboutData : AboutData := {}
  joe : Option Nat := none
  alerts : List AlertPtr := []
  registered : List Nat := []
  deriving DecidableEq

/-- On a new machine file, the observer registers on it and drops the alerts. -/
def Observer.receive (o : Observer) (i : Invocation) : Observer :=
  match i.event with
  | .stateChanged state => { o with state }
  | .manDataChanged manData => { o with manData }
  | .aboutDataChanged aboutData => { o with aboutData }
  | .joeChanged _ =>
    { o with
      joe := some i.maker.joeInstance
      alerts := []
      registered := i.maker.joeInstance :: o.registered }
  | .alertsChanged alerts => if i.maker.joeInstance ∈ o.registered then { o with alerts } else o
  | _ => o

def observed (events : List Invocation) : Observer := events.foldl .receive {}

structure UpToDate (o : Observer) (m : CoffeeMaker) : Prop where
  state : o.state = m.get_state
  manData : o.manData = m.get_man_data
  aboutData : o.aboutData = m.get_about_data
  joe : o.joe = m.get_joe
  alerts : o.alerts = m.get_alerts

def Redundant (o : Observer) (i : Invocation) : Prop :=
  match i.event with
  | .stateChanged state => state = o.state
  | .aboutDataChanged aboutData => aboutData = o.aboutData
  | .alertsChanged alerts => alerts = o.alerts
  | _ => False

theorem observed_append (events : List Invocation) (i : Invocation) :
    observed (events ++ [i]) = (observed events).receive i := by
  rw [observed, List.foldl_append]
  rfl

theorem forall_splits_append {P : List α → α → Prop}
    (h : ∀ past a later, l = past ++ a :: later → P past a) (hb : P l b) :
    ∀ past a later, l ++ [b] = past ++ a :: later → P past a := by
  intro past a later he
  rcases List.eq_nil_or_concat later with hl | ⟨later', c, hl⟩
  · rw [hl] at he
    obtain ⟨hp, ha⟩ := List.append_inj' he rfl
    cases ha
    rw [← hp]
    exact hb
  · rw [hl, List.concat_eq_append, ← List.cons_append, ← List.append_assoc] at he
    obtain ⟨hp, _⟩ := List.append_inj' he rfl
    exact h past a later' hp

theorem UpToDate.congr (h : UpToDate o m) (hs : m'.shown = m.shown) : UpToDate o m' := by
  rw [CoffeeMaker.shown, CoffeeMaker.shown, Shown.mk.injEq] at hs
  obtain ⟨hstate, hjoe, hinst, hman, habout, halerts⟩ := hs
  refine ⟨?_, ?_, ?_, ?_, ?_⟩
  · rw [CoffeeMaker.get_state, hstate]
    exact h.state
  · rw [CoffeeMaker.get_man_data, hman]
    exact h.manData
  · rw [CoffeeMaker.get_about_data, habout]
    exact h.aboutData
  · rw [CoffeeMaker.get_joe, hjoe, hinst]
    exact h.joe
  · rw [CoffeeMaker.get_alerts, halerts]
    exact h.alerts

def Observer.Registered (o : Observer) : Prop := ∀ joe, o.joe = some joe → joe ∈ o.registered

theorem Observer.Registered.receive (h : Registered o) (i : Invocation) :
    (o.receive i).Registered := by
  rw [Observer.receive]
  split
  · exact h
  · exact h
  · exact h
  · intro joe hj
    cases hj
    exact List.mem_cons_self
  · split
    · exact h
    · exact h
  · exact h

theorem Observer.receive_statistics (hs : event.isStatistics = true) :
    Observer.receive o ⟨event, maker⟩ = o := by
  cases event <;> first | rfl | cases hs

theorem not_redundant_statistics (hs : event.isStatistics = true) :
    ¬Redundant o ⟨event, maker⟩ := by
  cases event <;> first | exact id | cases hs

structure ObserverInv (w : World) : Prop where
  upToDate : UpToDate (observed w.events) w.maker
  registered : (observed w.events).Registered
  news : ∀ past i later, w.events = past ++ i :: later → ¬Redundant (observed past) i

theorem ObserverInv.emit (h : ObserverInv w)
    (hu : UpToDate ((observed w.events).receive ⟨event, maker⟩) maker)
    (hn : ¬Redundant (observed w.events) ⟨event, maker⟩) :
    ObserverInv (emit event { w with maker }) := by
  have ho : observed (JuttaProto.emit event { w with maker }).events =
      (observed w.events).receive ⟨event, maker⟩ := observed_append _ _
  refine ⟨?_, ?_, ?_⟩
  · rw [ho]
    exact hu
  · rw [ho]
    exact h.registered.receive _
  · exact forall_splits_append h.news hn

theorem ObserverInv.change (h : ObserverInv w) (hc : Change w w') : ObserverInv w' := by
  obtain ⟨hstate, hman, habout, hjoe, halerts⟩ := h.upToDate
  cases hc with
  | hidden hm he =>
    refine ⟨?_, ?_, ?_⟩
    · rw [he]
      exact h.upToDate.congr hm
    · rw [he]
      exact h.registered
    · rw [he]
      exact h.news
  | state state =>
    rw [set_state]
    split
    · rename_i hne
      apply h.emit
      · exact ⟨rfl, hman, habout, hjoe, halerts⟩
      · intro he
        exact hne (he.trans hstate)
    · exact h
  | manData manData =>
    apply h.emit
    · exact ⟨hstate, rfl, habout, hjoe, halerts⟩
    · exact id
  | joe joe =>
    apply h.emit
    · exact ⟨hstate, hman, habout, rfl, rfl⟩
    · exact id
  | about aboutData =>
    rw [updateAbout]
    split
    · rename_i hne
      apply h.emit
      · exact ⟨hstate, hman, rfl, hjoe, halerts⟩
      · intro he
        exact hne (he.trans habout)
    · exact h
  | alerts hj payload =>
    rw [updateAlerts]
    split
    · rename_i hne
      apply h.emit
      · -- the handler is the one of the machine file that the observer holds
        have hr : w.maker.joeInstance ∈ (observed w.events).registered := by
          apply h.registered
          rw [hjoe, CoffeeMaker.get_joe, hj]
          rfl
        simp only [Observer.receive, if_pos hr]
        exact ⟨hstate, hman, habout, hjoe, rfl⟩
      · intro he
        exact hne (he.trans halerts).symm
    · exact h
  | statistics hj hs _ =>
    apply h.emit
    · rw [CoffeeMaker.get_joe, hj] at hjoe
      rw [Observer.receive_statistics hs]
      exact ⟨hstate, hman, habout, hjoe, halerts⟩
    · exact not_redundant_statistics hs

theorem observerInv_fresh (machines : List Machine) : ObserverInv (World.fresh machines) := by
  refine ⟨⟨rfl, rfl, rfl, rfl, rfl⟩, ?_, ?_⟩
  · intro joe hj
    cases hj
  · intro past i later he
    cases past with
    | nil => cases he
    | cons j past => cases he

/-- An observer holds what the getters return after every run, and no handler was ever told the
state, the about data or the alerts that the observer already held. -/
theorem observers_never_stale (h : run operate (World.fresh machines) ops = .ok w) :
    UpToDate (observed w.events) w.maker ∧
      ∀ past i later, w.events = past ++ i :: later → ¬Redundant (observed past) i := by
  have hi : ObserverInv w := operations_invariant ObserverInv (fun _ _ hv hc => hv.change hc)
    (observerInv_fresh machines) h
  exact ⟨hi.upToDate, hi.news⟩

theorem observers_never_stale_example :
    ∃ w, run operate (World.fresh [exampleJoe.machine])
        [.act (.call (.connect {}) GATTLIB_SUCCESS),
          .act (.call (.connect exampleReplies) GATTLIB_SUCCESS)] = .ok w ∧
      w.events.length = 6 ∧ UpToDate (observed w.events) w.maker := by
  have hrun : ∃ w, run operate (World.fresh [exampleJoe.machine])
      [.act (.call (.connect {}) GATTLIB_SUCCESS),
        .act (.call (.connect exampleReplies) GATTLIB_SUCCESS)] = .ok w ∧
      w.events.length = 6 := by decide +kernel
  obtain ⟨w, h, hl⟩ := hrun
  exact ⟨w, h, hl, (observers_never_stale h).1⟩

end JuttaProto
