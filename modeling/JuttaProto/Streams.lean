import JuttaProto.ActiveAlerts
import JuttaProto.History
import JuttaProto.Interleave

namespace JuttaProto
open Run Interleave
set_option autoImplicit true

abbrev StatusFrame := { data : Bytes // data ≠ [] }

/-- The steps of the main thread that use the machine file: a mode is selected for a request for
statistics, or a frame is read. -/
inductive MainStep
  | select (mode : StatParseMode)
  | command (data : Bytes)
  | statistics (data : Bytes)
  | about (data : Bytes)

def heartbeat_step (w : World) (frame : StatusFrame) : Except Fault World := on_status w frame.1

def select (mode : StatParseMode) (w : World) : World :=
  { w with maker := { w.maker with statParserMode := some mode, statDataReady := false } }

def main_step (w : World) : MainStep → Except Fault World
  | .select mode => .ok (select mode w)
  | .command data => on_characteristic_read data STATISTICS_COMMAND_CHARACTERISTIC_UUID w
  | .statistics data => on_characteristic_read data STATISTICS_DATA_CHARACTERISTIC_UUID w
  | .about data => on_characteristic_read data ABOUT_MACHINE_CHARACTERISTIC_UUID w

inductive Handler
  | stateChanged
  | manDataChanged
  | aboutDataChanged
  | joeChanged
  | alertsChanged
  | productStatisticCountersChanged
  | maintenanceCountersChanged
  | maintenancePercentagesChanged
  deriving DecidableEq

def Event.handler : Event → Handler
  | .stateChanged _ => .stateChanged
  | .manDataChanged _ => .manDataChanged
  | .aboutDataChanged _ => .aboutDataChanged
  | .joeChanged _ => .joeChanged
  | .alertsChanged _ => .alertsChanged
  | .productStatisticCountersChanged _ => .productStatisticCountersChanged
  | .maintenanceCountersChanged _ => .maintenanceCountersChanged
  | .maintenancePercentagesChanged _ => .maintenancePercentagesChanged

def payloads (handler : Handler) (events : List Invocation) : List Event :=
  (events.map (·.event)).filter fun event => event.handler = handler

/-- All members and all frames are the same, and every handler is told the same. -/
structure SameOutcome (w w' : World) : Prop where
  maker : w.maker = w'.maker
  wire : w.wire = w'.wire
  payloads : ∀ handler, payloads handler w.events = payloads handler w'.events

theorem sameOutcome_equivalence : Equivalence SameOutcome := by
  refine ⟨fun w => ⟨rfl, rfl, fun _ => rfl⟩, fun h => ?_, fun h h' => ?_⟩
  · exact ⟨h.maker.symm, h.wire.symm, fun handler => (h.payloads handler).symm⟩
  · exact ⟨h.maker.trans h'.maker, h.wire.trans h'.wire,
      fun handler => (h.payloads handler).trans (h'.payloads handler)⟩

theorem payloads_append (handler : Handler) (events events' : List Invocation) :
    payloads handler (events ++ events') = payloads handler events ++ payloads handler events' := by
  rw [payloads, List.map_append, List.filter_append]
  rfl

theorem payloads_congr {events events' : List Invocation} (handler : Handler)
    (h : events.map (·.event) = events'.map (·.event)) :
    payloads handler events = payloads handler events' := by
  rw [payloads, h, payloads]

theorem payloads_eq_nil {events : List Invocation}
    (h : ∀ i ∈ events, i.event.handler ≠ handler) : payloads handler events = [] := by
  apply List.filter_eq_nil_iff.2
  intro event hm
  obtain ⟨i, hi, he⟩ := List.mem_map.1 hm
  rw [← he, decide_eq_true_iff]
  exact h i hi

theorem payloads_swap {told told' new new' : List Invocation} (handler : Handler)
    (events : List Invocation) (ht : told.map (·.event) = told'.map (·.event))
    (hn : new.map (·.event) = new'.map (·.event))
    (hne : ∀ i ∈ told, ∀ j ∈ new, j.event.handler ≠ i.event.handler) :
    payloads handler (events ++ told ++ new) = payloads handler (events ++ new' ++ told') := by
  have hnil : payloads handler told = [] ∨ payloads handler new = [] := by
    by_cases h : ∃ i ∈ told, i.event.handler = handler
    · obtain ⟨i, hi, he⟩ := h
      rw [← he]
      exact .inr (payloads_eq_nil (hne i hi))
    · exact .inl (payloads_eq_nil fun i hi he => h ⟨i, hi, he⟩)
  simp only [payloads_append, List.append_assoc, ← payloads_congr handler ht,
    ← payloads_congr handler hn]
  rcases hnil with h | h
  · rw [h, List.nil_append, List.append_nil]
  · rw [h, List.nil_append, List.append_nil]

theorem Local.respects (hf : Local f) (h : SameOutcome w w') :
    Agrees SameOutcome (f w) (f w') := by
  have hw : w = World.after w.events ⟨w.maker, w.wire, []⟩ := by
    rw [World.after, List.append_nil]
  have hw' : w' = World.after w'.events ⟨w.maker, w.wire, []⟩ := by
    rw [World.after, List.append_nil, h.maker, h.wire]
  rw [hw, hw', hf, hf]
  cases f ⟨w.maker, w.wire, []⟩ with
  | error e => rfl
  | ok v =>
    refine ⟨rfl, rfl, fun handler => ?_⟩
    rw [after_events, after_events, payloads_append, payloads_append]
    exact congrArg (· ++ _) (h.payloads handler)

/-- An update that neither reads nor writes the alerts. The members it leaves are given by `h`,
and the handlers it invokes by `new`. -/
structure BesideAlerts (f : World → World) (h : CoffeeMaker → CoffeeMaker)
    (new : CoffeeMaker → List Invocation) : Prop where
  maker : ∀ w, (f w).maker = h w.maker
  wire : ∀ w, (f w).wire = w.wire
  events : ∀ w, (f w).events = w.events ++ new w.maker
  commutes : ∀ m alerts, h { m with alerts } = { h m with alerts }
  keeps : ∀ m, (h m).alerts = m.alerts
  blind : ∀ m alerts, (new { m with alerts }).map (·.event) = (new m).map (·.event)
  others : ∀ m, ∀ i ∈ new m, i.event.handler ≠ .alertsChanged

theorem BesideAlerts.sameOutcome (hf : BesideAlerts f h new) (alerts : List AlertPtr)
    (w : World) : SameOutcome (f (updateAlerts alerts w)) (updateAlerts alerts (f w)) := by
  refine ⟨?_, ?_, fun handler => ?_⟩
  · rw [hf.maker, updateAlerts_maker, updateAlerts_maker, hf.maker, hf.commutes]
  · rw [hf.wire, updateAlerts_wire, updateAlerts_wire, hf.wire]
  · rw [hf.events, updateAlerts_events, updateAlerts_events, hf.events, hf.maker, hf.keeps,
      updateAlerts_maker]
    apply payloads_swap handler w.events
    · split
      · rfl
      · rfl
    · exact hf.blind w.maker alerts
    · intro i hi j hj
      split at hi
      · cases hi
      · rw [List.mem_singleton.1 hi]
        exact hf.others _ j hj

theorem besideAlerts_hidden (h : CoffeeMaker → CoffeeMaker)
    (hc : ∀ m alerts, h { m with alerts } = { h m with alerts })
    (hk : ∀ m, (h m).alerts = m.alerts) :
    BesideAlerts (fun w => { w with maker := h w.maker }) h fun _ => [] :=
  ⟨fun _ => rfl, fun _ => rfl, fun _ => (List.append_nil _).symm, hc, hk, fun _ _ => rfl,
    fun _ => List.forall_mem_nil _⟩

theorem besideAlerts_about (aboutData : AboutData) :
    BesideAlerts (updateAbout aboutData) (fun m => { m with aboutData }) fun m =>
      if aboutData ≠ m.aboutData then [⟨.aboutDataChanged aboutData, { m with aboutData }⟩]
      else [] := by
  refine ⟨fun w => ?_, fun w => ?_, fun w => ?_, fun _ _ => rfl, fun _ => rfl, fun m alerts => ?_,
    fun m i hi => ?_⟩
  · rw [updateAbout]
    split
    · rfl
    · rename_i h
      rw [not_not.1 h]
  · rw [updateAbout]
    split
    · rfl
    · rfl
  · rw [updateAbout]
    split
    · rfl
    · exact (List.append_nil _).symm
  · by_cases h : aboutData ≠ m.aboutData
    · simp only [if_pos h]
      rfl
    · simp only [if_neg h]
  · split at hi
    · rw [List.mem_singleton.1 hi]
      intro he
      cases he
    · cases hi

theorem besideAlerts_joe (hs : event.isStatistics = true) (joe : Joe) :
    BesideAlerts (updateJoe event joe) (fun m => { m with joe := some joe })
      fun m => [⟨event, { m with joe := some joe }⟩] := by
  refine ⟨fun _ => rfl, fun _ => rfl, fun _ => rfl, fun _ _ => rfl, fun _ => rfl, fun _ _ => rfl,
    fun m i hi => ?_⟩
  rw [List.mem_singleton.1 hi]
  cases event with
  | alertsChanged _ => cases hs
  | _ =>
    intro he
    cases he

/-- The update leaves the machine file's alerts and the key, which decide what a status frame
does. -/
structure KeepsSource (h : CoffeeMaker → CoffeeMaker) (joe : Joe) (m : CoffeeMaker) : Prop where
  joe : ∃ joe', (h m).joe = some joe' ∧ joe'.alerts = joe.alerts
  joeInstance : (h m).joeInstance = m.joeInstance
  manData : (h m).manData = m.manData

/-- A step of the main thread is an update beside the alerts, or it faults. It depends on the
alerts in neither case. -/
theorem main_step_cases {w : World} {joe : Joe} (hj : w.maker.joe = some joe) (b : MainStep) :
    (∃ e, ∀ (v : World) alerts, v.maker = { w.maker with alerts } → main_step v b = .error e) ∨
      ∃ f h new, BesideAlerts f h new ∧ KeepsSource h joe w.maker ∧
        ∀ (v : World) alerts, v.maker = { w.maker with alerts } → main_step v b = .ok (f v) := by
  have hkeep : KeepsSource id joe w.maker := ⟨⟨joe, hj, rfl⟩, rfl, rfl⟩
  cases b with
  | select mode =>
    have hb := besideAlerts_hidden
      (fun m => { m with statParserMode := some mode, statDataReady := false })
      (fun _ _ => rfl) (fun _ => rfl)
    exact .inr ⟨_, _, _, hb, ⟨⟨joe, hj, rfl⟩, rfl, rfl⟩, fun _ _ _ => rfl⟩
  | command data =>
    have hb := besideAlerts_hidden
      (fun m => { m with statDataReady := readyReply data w.key })
      (fun _ _ => rfl) (fun _ => rfl)
    refine .inr ⟨_, _, _, hb, ⟨⟨joe, hj, rfl⟩, rfl, rfl⟩, fun v alerts hv => ?_⟩
    have hk : v.key = w.key := by rw [World.key, hv, World.key]
    rw [← hk]
    rfl
  | statistics data =>
    have hread (v : World) : main_step v (.statistics data) =
        parse_statistics_data data v.key v := rfl
    cases hm : w.maker.statParserMode with
    | none =>
      have hb := besideAlerts_hidden id (fun _ _ => rfl) (fun _ => rfl)
      refine .inr ⟨_, _, _, hb, hkeep, fun v alerts hv => ?_⟩
      have hm' : v.maker.statParserMode = none := by rw [hv]; exact hm
      rw [hread, parse_statistics_data, hm']
      rfl
    | some mode =>
      obtain ⟨r, hr, hw⟩ := mode_parse_uniform mode (encDecBytes data w.key) joe
      have hv {v : World} {alerts : List AlertPtr} (hv : v.maker = { w.maker with alerts }) :
          main_step v (.statistics data) = (fun x => updateJoe x.1 x.2 v) <$> r := by
        have hk : v.key = w.key := by rw [World.key, hv, World.key]
        rw [hread, parse_statistics_data_mode (by rw [hv]; exact hm), hk]
        exact hw v (by rw [hv]; exact hj)
      cases r with
      | error e => exact .inl ⟨e, fun v alerts h => hv h⟩
      | ok x =>
        obtain ⟨hs, ha⟩ := hr x rfl
        exact .inr ⟨_, _, _, besideAlerts_joe hs x.2, ⟨⟨x.2, rfl, ha.alerts⟩, rfl, rfl⟩,
          fun v alerts h => hv h⟩
  | about data =>
    by_cases hd : 51 ≤ data.length
    · exact .inr ⟨_, _, _, besideAlerts_about (aboutDataOf data), ⟨⟨joe, hj, rfl⟩, rfl, rfl⟩,
        fun v _ _ => parse_about_data_ok hd v⟩
    · exact .inl ⟨_, fun v _ _ => parse_about_data_error (by omega) v⟩

theorem stream_steps_commute (hj : w.maker.joe = some joe) (frame : StatusFrame) (b : MainStep) :
    Agrees SameOutcome (heartbeat_step w frame >>= fun v => main_step v b)
      (main_step w b >>= fun v => heartbeat_step v frame) := by
  have hstatus := on_status_ok hj frame.2
  rw [heartbeat_step, hstatus, ok_bind]
  rcases main_step_cases hj b with ⟨e, he⟩ | ⟨f, h, new, hb, hk, hf⟩
  · rw [he w w.maker.alerts rfl, he _ _ (updateAlerts_maker _ w)]
    rfl
  · obtain ⟨joe', hj', ha⟩ := hk.joe
    have hj₁ : (f w).maker.joe = some joe' := by rw [hb.maker]; exact hj'
    have hi₁ : (f w).maker.joeInstance = w.maker.joeInstance := by
      rw [hb.maker, hk.joeInstance]
    have hk₁ : (f w).key = w.key := by rw [World.key, hb.maker, hk.manData, World.key]
    rw [hf w w.maker.alerts rfl, hf _ _ (updateAlerts_maker _ w), ok_bind, heartbeat_step,
      on_status_ok hj₁ frame.2, hi₁, hk₁, activeAlerts_congr ha]
    exact hb.sameOutcome _ w

theorem main_step_local (b : MainStep) : Local fun w => main_step w b := by
  cases b with
  | select mode =>
    intro past w
    rfl
  | command data => exact on_characteristic_read_local data _
  | statistics data => exact on_characteristic_read_local data _
  | about data => exact on_characteristic_read_local data _

theorem main_step_joe (hj : ∃ joe, w.maker.joe = some joe) (h : main_step w b = .ok w') :
    ∃ joe, w'.maker.joe = some joe := by
  obtain ⟨joe, hj⟩ := hj
  rcases main_step_cases hj b with ⟨e, he⟩ | ⟨f, g, new, hb, hk, hf⟩
  · rw [he w w.maker.alerts rfl] at h
    cases h
  · obtain ⟨joe', hj', _⟩ := hk.joe
    rw [hf w w.maker.alerts rfl] at h
    cases h
    exact ⟨joe', by rw [hb.maker]; exact hj'⟩

theorem streams_independent :
    Independent heartbeat_step main_step (fun w => ∃ joe, w.maker.joe = some joe) SameOutcome where
  equiv := sameOutcome_equivalence
  inv₁ := by
    intro w w' frame hj h
    obtain ⟨joe, hj⟩ := hj
    rw [heartbeat_step, on_status_ok hj frame.2] at h
    cases h
    exact ⟨joe, by rw [updateAlerts_maker]; exact hj⟩
  inv₂ := main_step_joe
  resp₁ := fun frame => Local.respects (on_characteristic_read_local frame.1 _)
  resp₂ := fun b => Local.respects (main_step_local b)
  commute := by
    intro w frame b hj
    obtain ⟨joe, hj⟩ := hj
    exact stream_steps_commute hj frame b

/-- However the status frames of the heartbeat thread and the steps of the main thread are
interleaved, they end in the same fault or with the same outcome. -/
theorem streams_agree (hj : w.maker.joe = some joe) (hm : Interleaves frames steps m)
    (hm' : Interleaves frames steps m') :
    Agrees SameOutcome (run (both heartbeat_step main_step) w m)
      (run (both heartbeat_step main_step) w m') :=
  streams_independent.interleavings_agree hm hm' ⟨joe, hj⟩

theorem streams_agree_example :
    Agrees SameOutcome
      (run (both heartbeat_step main_step) exampleWorld
        [.inl ⟨[66, 0], by decide⟩, .inr (.select .MAINTENANCE_COUNTER), .inr (.statistics [1, 2])])
      (run (both heartbeat_step main_step) exampleWorld
        [.inr (.select .MAINTENANCE_COUNTER), .inr (.statistics [1, 2]),
          .inl ⟨[66, 0], by decide⟩]) := by
  have hj : exampleWorld.maker.joe = some exampleJoe := rfl
  exact streams_agree hj (.left (.right (.right .nil))) (.right (.right (.left .nil)))

end JuttaProto
