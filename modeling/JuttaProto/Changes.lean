import Mathlib.Logic.Relation
import JuttaProto.StatisticsRequest

namespace JuttaProto
open Run
set_option autoImplicit true

structure Shown where
  state : CoffeeMakerState
  joe : Option Joe
  joeInstance : Nat
  manData : ManufacturerData
  aboutData : AboutData
  alerts : List AlertPtr

def CoffeeMaker.shown (m : CoffeeMaker) : Shown :=
  ⟨m.state, m.joe, m.joeInstance, m.manData, m.aboutData, m.alerts⟩

/-- The single changes of what is shown. Each but the first invokes its handler at once, if it
changes anything that a handler is told about. -/
inductive Change : World → World → Prop
  | hidden (hm : w'.maker.shown = w.maker.shown) (he : w'.events = w.events) : Change w w'
  | state (state : CoffeeMakerState) : Change w (set_state state w)
  | manData (manData : ManufacturerData) :
      Change w (emit (.manDataChanged manData) { w with maker := { w.maker with manData } })
  | joe (joe : Joe) :
      Change w (emit (.joeChanged joe) { w with maker := { w.maker with
        joe := some joe, joeInstance := w.maker.joeInstance + 1, alerts := [] } })
  | about (aboutData : AboutData) : Change w (updateAbout aboutData w)
  | alerts (hj : w.maker.joe = some joe) (payload : Bytes) :
      Change w (updateAlerts (activeAlerts joe w.maker.joeInstance payload) w)
  | statistics (hj : w.maker.joe = some joe) (hs : event.isStatistics = true)
      (ha : joe'.alerts = joe.alerts) : Change w (updateJoe event joe' w)

abbrev Changes := Relation.ReflTransGen Change

theorem changes_hidden (hm : w'.maker.shown = w.maker.shown) (he : w'.events = w.events) :
    Changes w w' := .single (.hidden hm he)

theorem Changes.invariant (Inv : World → Prop) (hstep : ∀ w w', Inv w → Change w w' → Inv w')
    (hw : Inv w) (h : Changes w w') : Inv w' := by
  induction h with
  | refl => exact hw
  | tail _ hs ih => exact hstep _ _ ih hs

theorem on_characteristic_read_changes (h : on_characteristic_read data uuid w = .ok w') :
    Changes w w' := by
  rcases on_characteristic_read_cases h with
    he | he | ⟨joe, payload, hj, _, he⟩ | ⟨_, he⟩ | ⟨_, joe, event, joe', hj, hs, ha, he⟩
  · rw [he]
  · rw [he]
    exact .single (.about _)
  · rw [he]
    exact .single (.alerts hj payload)
  · rw [he]
    exact changes_hidden rfl rfl
  · rw [he]
    exact .single (.statistics hj hs ha.alerts)

theorem parse_man_data_changes (h : parse_man_data data doc w = .ok w') : Changes w w' := by
  obtain ⟨manData, _, h⟩ := bind_ok h
  simp only at h
  split at h
  · cases h
  · obtain ⟨joe, _, h⟩ := bind_ok h
    cases h
    have hman := Change.manData (w := w) manData
    exact (Relation.ReflTransGen.single hman).trans (.single (.joe joe))

/-- What holds between the worlds before and after the parts of an operation, where machine files
are loaded from documents in `D` only, and so before and after the whole of it. -/
structure Closed (D : Option (List XMLElement) → Prop) (R : World → World → Prop) : Prop where
  trans : ∀ {w w' w''}, R w w' → R w' w'' → R w w''
  hidden : ∀ {w w' : World}, w'.maker.shown = w.maker.shown → w'.events = w.events → R w w'
  state : ∀ state w, R w (set_state state w)
  received : ∀ {data uuid w w'}, on_characteristic_read data uuid w = .ok w' → R w w'
  parsed : ∀ {data doc w w'}, D doc → parse_man_data data doc w = .ok w' → R w w'

namespace Closed
variable {R : World → World → Prop} (hR : Closed D R)
include hR

theorem refl (w : World) : R w w := hR.hidden rfl rfl

theorem notifications (h : run on_notification w ns = .ok w') : R w w' :=
  run_invariant (R w) (fun _ _ _ hv hs => hR.trans hv (hR.received hs)) (hR.refl w) h

theorem read_characteristic (h : BLEDevice.read_characteristic reply uuid w = .ok w') :
    R w w' := by
  rcases read_characteristic_cases h with he | ⟨data, h⟩
  · rw [he]
    exact hR.refl w
  · exact hR.received h

theorem write (h : JuttaProto.write uuid data encode overrideKey written w = .ok w') :
    R w w' := by
  rw [JuttaProto.write] at h
  split at h
  · split at h
    · cases h
    · cases h
      exact hR.hidden rfl rfl
  · cases h
    exact hR.hidden rfl rfl

theorem request_statistics (h : JuttaProto.request_statistics replies mode written w = .ok w') :
    R w w' := by
  rw [request_statistics_eq] at h
  have hpolled : R w (polled replies mode written w) := hR.hidden rfl rfl
  exact hR.trans hpolled (hR.read_characteristic h)

theorem join (h : JuttaProto.join w = .ok w') : R w w' := by
  rw [JuttaProto.join] at h
  split at h
  · cases h
    exact hR.hidden rfl rfl
  · cases h

theorem disconnect (h : JuttaProto.disconnect written w = .ok w') : R w w' := by
  rw [JuttaProto.disconnect] at h
  split at h
  · obtain ⟨w₁, h₁, h⟩ := bind_ok h
    obtain ⟨w₂, h₂, h⟩ := bind_ok h
    cases h
    exact hR.trans (hR.state .DISCONNECTING w)
      (hR.trans (hR.write h₁) (hR.trans (hR.join h₂) (hR.state .DISCONNECTED w₂)))
  · cases h
    exact hR.refl w

theorem start_heartbeat (h : JuttaProto.start_heartbeat w = .ok w') : R w w' := by
  rw [JuttaProto.start_heartbeat] at h
  split at h
  · cases h
  · cases h
    exact hR.hidden rfl rfl

theorem on_connected (hd : D g.doc) (h : JuttaProto.on_connected g written w = .ok w') :
    R w w' := by
  rw [JuttaProto.on_connected] at h
  split at h
  · exact hR.disconnect h
  · obtain ⟨w₁, h₁, h⟩ := bind_ok h
    obtain ⟨w₂, h₂, h⟩ := bind_ok h
    obtain ⟨w₃, h₃, h⟩ := bind_ok h
    exact hR.trans (hR.parsed hd h₁) (hR.trans (hR.write h₂)
      (hR.trans (hR.read_characteristic h₃) (hR.start_heartbeat h)))

theorem withDevice (bleDevice : BLEDevice) (w : World) : R w (w.withDevice bleDevice) :=
  hR.hidden rfl rfl

theorem connect (hd : D g.doc) (h : JuttaProto.connect g written w = .ok (w', b)) : R w w' := by
  by_cases hi : w.maker.bleDevice.idle
  · by_cases hg : LinkOpens g
    · rw [connect_opens hi hg] at h
      obtain ⟨w₁, h₁, h⟩ := bind_ok h
      cases h₂ : JuttaProto.on_connected g written (linkUp w₁) with
      | error e =>
        rw [h₂] at h
        cases h
      | ok w₂ =>
        rw [h₂] at h
        cases h
        have hopen : R w (linkOpened g w) :=
          hR.trans (hR.state .CONNECTING w) (hR.withDevice _ _)
        exact hR.trans hopen (hR.trans (hR.notifications h₁) (hR.trans (hR.withDevice _ w₁)
          (hR.trans (hR.on_connected hd h₂) (hR.state .CONNECTED w₂))))
    · obtain ⟨n, hn⟩ := connect_fails written hi hg
      rw [hn] at h
      cases h
      exact hR.trans (hR.state .CONNECTING w)
        (hR.trans (hR.withDevice _ _) (hR.state .DISCONNECTED _))
  · obtain ⟨e, he, _⟩ := connect_asserts g written hi
    rw [he] at h
    cases h

theorem call (hd : ∀ g, c = .connect g → D g.doc) (h : Call.issue written w c = .ok w') :
    R w w' := by
  have hpayload {p : Uuid × Bytes × Bool} (hp : c.payload = some p) : R w w' := by
    rw [issue_payload hp] at h
    exact hR.write h
  cases c with
  | connect g =>
    cases hc : JuttaProto.connect g written w with
    | error e =>
      rw [Call.issue, hc] at h
      cases h
    | ok p =>
      rw [Call.issue, hc] at h
      cases h
      exact hR.connect (hd g rfl) hc
  | disconnect => exact hR.disconnect h
  | write_tx _ | write_tx_string _ | shutdown | stay_in_ble | lock | unlock => exact hpayload rfl
  | request_coffee =>
    obtain ⟨_, _, h⟩ := bind_ok h
    exact hR.write h
  | request_coffee_product product =>
    obtain ⟨_, _, h⟩ := bind_ok h
    obtain ⟨_, _, h⟩ := bind_ok h
    exact hR.write h
  | request_statistics replies mode => exact hR.request_statistics h
  | request_status _ | request_progress _ | request_about_info _ | read_rx _ =>
    exact hR.read_characteristic h

theorem linkLost (h : BLEDevice.on_disconnected (on_disconnected written) w = .ok w') :
    R w w' := by
  rw [BLEDevice.on_disconnected] at h
  split at h
  · rw [on_disconnected] at h
    apply hR.trans (hR.withDevice _ w)
    split at h
    · exact hR.disconnect h
    · cases h
      exact hR.refl _
  · cases h
    exact hR.refl w

end Closed

theorem changes_closed : Closed (fun _ => True) Changes where
  trans := Relation.ReflTransGen.trans
  hidden := changes_hidden
  state := fun state _ => .single (.state state)
  received := on_characteristic_read_changes
  parsed := fun _ => parse_man_data_changes

/-- What can happen to a coffee maker, with the manufacturer data also parsed on their own. -/
inductive Operation
  | act (a : Action)
  | parse_man_data (data : Bytes) (doc : Option (List XMLElement))

def operate (w : World) : Operation → Except Fault World
  | .act a => step w a
  | .parse_man_data data doc => JuttaProto.parse_man_data data doc w

def Operation.Loads (D : Option (List XMLElement) → Prop) : Operation → Prop
  | .act (.call (.connect g) _) => D g.doc
  | .act _ => True
  | .parse_man_data _ doc => D doc

theorem Closed.operate {R : World → World → Prop} (hR : Closed D R) (hd : o.Loads D)
    (h : JuttaProto.operate w o = .ok w') : R w w' := by
  cases o with
  | act a =>
    cases a with
    | call c written =>
      refine hR.call (fun g hc => ?_) h
      rw [hc] at hd
      exact hd
    | notification n => exact hR.received h
    | linkLost written => exact hR.linkLost h
  | parse_man_data data doc => exact hR.parsed hd h

theorem loads_true (o : Operation) : o.Loads fun _ => True := by
  cases o with
  | act a =>
    cases a with
    | call c written => cases c <;> trivial
    | notification _ | linkLost _ => trivial
  | parse_man_data _ _ => trivial

theorem operate_changes (h : operate w o = .ok w') : Changes w w' :=
  changes_closed.operate (loads_true o) h

theorem operations_invariant (Inv : World → Prop)
    (hstep : ∀ w w', Inv w → Change w w' → Inv w') (hw : Inv w)
    (h : run operate w ops = .ok w') : Inv w' :=
  run_invariant Inv (fun _ _ _ hv ho => (operate_changes ho).invariant Inv hstep hv) hw h

end JuttaProto
