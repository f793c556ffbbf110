import Mathlib.Data.List.Sort
import JuttaProto.MachineStatus

namespace JuttaProto
open Run
set_option autoImplicit true

def Active (joe : Joe) (joeInstance : Nat) (payload : Bytes) (a : AlertPtr) : Prop :=
  a.joe = joeInstance ∧ ∃ alert, joe.alerts[a.index]? = some alert ∧
    alert.bit.toNat < bitCount payload.length ∧ bitSet payload alert.bit.toNat = true

def bitOf (joe : Joe) (a : AlertPtr) : Nat := (joe.alerts[a.index]?.map (·.bit.toNat)).getD 0

def Precedes (joe : Joe) (a b : AlertPtr) : Prop :=
  bitOf joe a < bitOf joe b ∨ (bitOf joe a = bitOf joe b ∧ a.index < b.index)

structure ActiveList (joe : Joe) (joeInstance : Nat) (payload : Bytes) (alerts : List AlertPtr) :
    Prop where
  mem : ∀ a, a ∈ alerts ↔ Active joe joeInstance payload a
  ordered : alerts.Pairwise (Precedes joe)

/-- The list comes from a status frame, or it is empty as before the first one. -/
def Produced (joe : Joe) (joeInstance : Nat) (alerts : List AlertPtr) : Prop :=
  ∃ payload, alerts = activeAlerts joe joeInstance payload

theorem precedes_irrefl (joe : Joe) (a : AlertPtr) : ¬Precedes joe a a := by
  rintro (h | ⟨_, h⟩)
  · exact Nat.lt_irrefl _ h
  · exact Nat.lt_irrefl _ h

theorem precedes_asymm (h : Precedes joe a b) : ¬Precedes joe b a := by
  rintro (h' | ⟨h', hi'⟩)
  · rcases h with h | ⟨h, _⟩
    · exact Nat.lt_asymm h h'
    · omega
  · rcases h with h | ⟨_, hi⟩
    · omega
    · exact Nat.lt_asymm hi hi'

theorem eq_of_mem_iff_of_ordered {alerts alerts' : List AlertPtr}
    (h : alerts.Pairwise (Precedes joe)) (h' : alerts'.Pairwise (Precedes joe))
    (hm : ∀ a, a ∈ alerts ↔ a ∈ alerts') : alerts = alerts' := by
  have : Std.Irrefl (Precedes joe) := ⟨precedes_irrefl joe⟩
  have : Std.Antisymm (Precedes joe) := ⟨fun _ _ hab hba => absurd hba (precedes_asymm hab)⟩
  exact h.eq_of_mem_iff h' hm

theorem bitOf_eq (h : joe.alerts[a.index]? = some alert) : bitOf joe a = alert.bit.toNat := by
  rw [bitOf, h]
  rfl

theorem mem_alertsOfBit {joe : Joe} :
    a ∈ alertsOfBit joe joeInstance i ↔
      a.joe = joeInstance ∧ ∃ alert, joe.alerts[a.index]? = some alert ∧ alert.bit.toNat = i := by
  rw [alertsOfBit, List.mem_map]
  constructor
  · rintro ⟨p, hp, he⟩
    rw [List.mem_filter, List.mem_zipIdx_iff_getElem?, beq_iff_eq] at hp
    rw [← he]
    exact ⟨rfl, p.1, hp⟩
  · rintro ⟨hj, alert, ha, hi⟩
    refine ⟨(alert, a.index), ?_, by rw [← hj]⟩
    rw [List.mem_filter, List.mem_zipIdx_iff_getElem?, beq_iff_eq]
    exact ⟨ha, hi⟩

theorem alertsOfBit_ordered (joe : Joe) (joeInstance i : Nat) :
    (alertsOfBit joe joeInstance i).Pairwise (Precedes joe) := by
  have hz : joe.alerts.zipIdx.Pairwise fun p q => p.2 < q.2 := by
    rw [← List.pairwise_map (f := Prod.snd) (R := (· < ·)), List.zipIdx_map_snd]
    exact List.pairwise_lt_range'
  have hi : (alertsOfBit joe joeInstance i).Pairwise fun a b => a.index < b.index := by
    rw [alertsOfBit, List.pairwise_map]
    exact hz.filter _
  apply hi.imp_of_mem
  intro a b ha hb hab
  obtain ⟨_, _, ha, hai⟩ := mem_alertsOfBit.1 ha
  obtain ⟨_, _, hb, hbi⟩ := mem_alertsOfBit.1 hb
  exact .inr ⟨by rw [bitOf_eq ha, bitOf_eq hb, hai, hbi], hab⟩

theorem activeAlerts_list (joe : Joe) (joeInstance : Nat) (payload : Bytes) :
    ActiveList joe joeInstance payload (activeAlerts joe joeInstance payload) := by
  -- the alerts of a round, with their bits
  have hround {i : Nat} {a : AlertPtr}
      (ha : a ∈ if bitSet payload i then alertsOfBit joe joeInstance i else []) :
      bitSet payload i = true ∧ a ∈ alertsOfBit joe joeInstance i := by
    split at ha
    · exact ⟨by assumption, ha⟩
    · cases ha
  refine ⟨fun a => ?_, ?_⟩
  · rw [activeAlerts, List.mem_flatMap]
    constructor
    · rintro ⟨i, hi, ha⟩
      obtain ⟨hb, ha⟩ := hround ha
      obtain ⟨hj, alert, ha, he⟩ := mem_alertsOfBit.1 ha
      rw [← he] at hi hb
      exact ⟨hj, alert, ha, List.mem_range.1 hi, hb⟩
    · rintro ⟨hj, alert, ha, hlt, hb⟩
      refine ⟨alert.bit.toNat, List.mem_range.2 hlt, ?_⟩
      rw [if_pos hb, mem_alertsOfBit]
      exact ⟨hj, alert, ha, rfl⟩
  · rw [activeAlerts, List.pairwise_flatMap]
    constructor
    · intro i _
      split
      · exact alertsOfBit_ordered joe joeInstance i
      · exact .nil
    · apply List.pairwise_lt_range.imp
      intro i j hij a ha b hb
      obtain ⟨_, _, ha, hai⟩ := mem_alertsOfBit.1 (hround ha).2
      obtain ⟨_, _, hb, hbj⟩ := mem_alertsOfBit.1 (hround hb).2
      exact .inl (by rw [bitOf_eq ha, bitOf_eq hb, hai, hbj]; exact hij)

theorem activeAlerts_congr {joe joe' : Joe} (h : joe'.alerts = joe.alerts) (joeInstance : Nat)
    (payload : Bytes) :
    activeAlerts joe' joeInstance payload = activeAlerts joe joeInstance payload := by
  have hbit (i : Nat) : alertsOfBit joe' joeInstance i = alertsOfBit joe joeInstance i := by
    rw [alertsOfBit, alertsOfBit, h]
  simp only [activeAlerts, hbit]

theorem Produced.ordered (h : Produced joe joeInstance alerts) :
    alerts.Pairwise (Precedes joe) := by
  obtain ⟨payload, h⟩ := h
  rw [h]
  exact (activeAlerts_list joe joeInstance payload).ordered

theorem bitCount_payload (hd : data ≠ []) (hs : data.length ≤ 2 ^ 61) (key : UInt8) :
    bitCount (encDecBytes data key).tail.length = 8 * (data.length - 1) := by
  have hlen : 0 < data.length := List.length_pos_of_ne_nil hd
  rw [List.length_tail, length_encDecBytes, bitCount]
  exact Nat.mod_eq_of_lt (by omega)

/-- After a status frame the alerts are those whose bits are set in its payload, and the handler
is told exactly when other alerts are active than before. The bits of a frame that memory can
hold are eight for each byte behind the first one. -/
theorem parse_machine_status_active (hj : w.maker.joe = some joe) (hd : data ≠ [])
    (hp : Produced joe w.maker.joeInstance w.maker.alerts) (key : UInt8) :
    ∃ w', parse_machine_status data key w = .ok w' ∧
      ActiveList joe w.maker.joeInstance (encDecBytes data key).tail w'.maker.alerts ∧
      (data.length ≤ 2 ^ 61 →
        bitCount (encDecBytes data key).tail.length = 8 * (data.length - 1)) ∧
      ((∀ a, a ∈ w.maker.alerts ↔ a ∈ w'.maker.alerts) → w'.events = w.events) ∧
      (¬(∀ a, a ∈ w.maker.alerts ↔ a ∈ w'.maker.alerts) →
        w'.events = w.events ++ [⟨.alertsChanged w'.maker.alerts, w'.maker⟩]) := by
  obtain ⟨b, payload, hdec⟩ := decoded_ne_nil hd key
  have hlist := activeAlerts_list joe w.maker.joeInstance payload
  have hiff : (∀ a, a ∈ w.maker.alerts ↔ a ∈ activeAlerts joe w.maker.joeInstance payload) ↔
      w.maker.alerts = activeAlerts joe w.maker.joeInstance payload := by
    constructor
    · intro hm
      exact eq_of_mem_iff_of_ordered hp.ordered hlist.ordered hm
    · intro he a
      rw [he]
  refine ⟨_, parse_machine_status_cons hj hdec, ?_, fun hs => bitCount_payload hd hs key, ?_, ?_⟩
  · rw [updateAlerts_maker, hdec, List.tail_cons]
    exact hlist
  · rw [updateAlerts_maker, updateAlerts_events, hiff]
    intro he
    rw [if_pos he, List.append_nil]
  · rw [updateAlerts_maker, updateAlerts_events, hiff]
    intro he
    rw [if_neg he]

theorem parse_machine_status_active_example :
    ∃ w', parse_machine_status [66, 0] 42 exampleWorld = .ok w' ∧
      ActiveList exampleJoe 1 (encDecBytes [66, 0] 42).tail w'.maker.alerts := by
  have hj : exampleWorld.maker.joe = some exampleJoe := rfl
  have hd : ([66, 0] : Bytes) ≠ [] := List.cons_ne_nil _ _
  have hp : Produced exampleJoe exampleWorld.maker.joeInstance exampleWorld.maker.alerts :=
    ⟨[], rfl⟩
  obtain ⟨w', h, hl, _⟩ := parse_machine_status_active hj hd hp 42
  exact ⟨w', h, hl⟩

end JuttaProto
