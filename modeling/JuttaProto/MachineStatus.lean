import JuttaProto.StatValue

namespace JuttaProto
open Run
set_option autoImplicit true

/-- The bit of the payload, counted from the most significant bit of the first byte. -/
def bitSet (payload : Bytes) (i : Nat) : Bool :=
  match payload[i / 8]? with
  | some b => (b >>> UInt8.ofNat (7 - i % 8)) &&& 0b1 ≠ 0
  | none => false

/-- The number of status bits in so many bytes of payload, as the loop counts them. -/
def bitCount (bytes : Nat) : Nat := 8 * bytes % 2 ^ 64

def activeAlerts (joe : Joe) (joeInstance : Nat) (payload : Bytes) : List AlertPtr :=
  (List.range (bitCount payload.length)).flatMap fun i =>
    if bitSet payload i then alertsOfBit joe joeInstance i else []

def updateAlerts (newAlerts : List AlertPtr) (w : World) : World :=
  if w.maker.alerts ≠ newAlerts then
    emit (.alertsChanged newAlerts) { w with maker := { w.maker with alerts := newAlerts } }
  else w

theorem statusBits_cons (b : UInt8) (payload : Bytes) :
    statusBits (b :: payload) = bitCount payload.length := by
  have hs : UInt64.ofNat (payload.length + 1) - 1 = UInt64.ofNat payload.length := by
    rw [UInt64.ofNat_add]
    exact UInt64.add_sub_cancel _ _
  rw [statusBits, List.length_cons, hs, UInt64.toNat_shiftLeft, Nat.shiftLeft_eq,
    UInt64.toNat_ofNat', bitCount]
  simp only [UInt64.reduceToNat, Nat.reduceMod, Nat.reducePow]
  omega

theorem statusBits_nil : statusBits [] = 2 ^ 64 - 8 := by decide +kernel

theorem statusRound_cons (joe : Joe) (joeInstance : Nat) (b : UInt8) {payload : Bytes}
    (h : i < 8 * payload.length) :
    statusRound joe joeInstance (b :: payload) i =
      .ok (if bitSet payload i then alertsOfBit joe joeInstance i else []) := by
  have hlt : i / 8 < payload.length := by omega
  have hi : i >>> 3 = i / 8 := Nat.shiftRight_eq_div_pow i 3
  have hm : i &&& 0b111 = i % 8 := Nat.and_two_pow_sub_one_eq_mod i 3
  have hb : (b :: payload)[i / 8 + 1]? = some payload[i / 8] := by
    rw [List.getElem?_cons_succ, List.getElem?_eq_getElem hlt]
  simp only [statusRound, hi, hm, index_ok hb, ok_bind, bitSet,
    List.getElem?_eq_getElem hlt, decide_eq_true_eq]
  split
  · rfl
  · rfl

theorem statusLoop_cons (joe : Joe) (joeInstance : Nat) (b : UInt8) {payload : Bytes}
    (h : i + rounds ≤ 8 * payload.length) :
    statusLoop joe joeInstance (b :: payload) rounds i =
      .ok ((List.range' i rounds).flatMap fun i =>
        if bitSet payload i then alertsOfBit joe joeInstance i else []) := by
  induction rounds generalizing i with
  | zero => rfl
  | succ rounds ih =>
    rw [statusLoop, statusRound_cons joe joeInstance b (by omega), ok_bind, ih (by omega), ok_bind,
      List.range'_succ, List.flatMap_cons]
    rfl

/-- A decoded frame with at least one byte is processed without regard to that byte. -/
theorem parse_machine_status_cons (hj : w.maker.joe = some joe)
    (hd : encDecBytes data key = b :: payload) :
    parse_machine_status data key w =
      .ok (updateAlerts (activeAlerts joe w.maker.joeInstance payload) w) := by
  have hb : 0 + bitCount payload.length ≤ 8 * payload.length := by
    rw [Nat.zero_add]
    exact Nat.mod_le _ _
  simp only [parse_machine_status, hj, hd, statusBits_cons, statusLoop_cons _ _ _ hb, ok_bind,
    updateAlerts, activeAlerts, List.range_eq_range']
  split
  · rfl
  · rfl

theorem parse_machine_status_nil (hj : w.maker.joe = some joe) :
    parse_machine_status [] key w = .error (.outOfRange .parse_machine_status) := by
  have hd : encDecBytes [] key = [] := rfl
  simp only [parse_machine_status, hj, hd, statusBits_nil]
  rfl

theorem decoded_ne_nil (hd : data ≠ []) (key : UInt8) :
    ∃ b payload, encDecBytes data key = b :: payload := by
  apply List.exists_cons_of_length_pos
  rw [length_encDecBytes]
  exact List.length_pos_of_ne_nil hd

theorem on_characteristic_read_status (data : Bytes) (w : World) :
    on_characteristic_read data MACHINE_STATUS_CHARACTERISTIC_UUID w =
      parse_machine_status data w.key w := rfl

def on_status (w : World) (data : Bytes) : Except Fault World :=
  on_characteristic_read data MACHINE_STATUS_CHARACTERISTIC_UUID w

theorem on_status_ok (hj : w.maker.joe = some joe) (hd : data ≠ []) :
    on_status w data = .ok (updateAlerts
      (activeAlerts joe w.maker.joeInstance (encDecBytes data w.key).tail) w) := by
  obtain ⟨b, payload, hp⟩ := decoded_ne_nil hd w.key
  rw [on_status, on_characteristic_read_status, parse_machine_status_cons hj hp, hp, List.tail_cons]

theorem updateAlerts_maker (newAlerts : List AlertPtr) (w : World) :
    (updateAlerts newAlerts w).maker = { w.maker with alerts := newAlerts } := by
  unfold updateAlerts
  split
  · rfl
  · rename_i h
    rw [← not_not.1 h]

theorem updateAlerts_wire (newAlerts : List AlertPtr) (w : World) :
    (updateAlerts newAlerts w).wire = w.wire := by
  unfold updateAlerts
  split <;> rfl

theorem updateAlerts_events (newAlerts : List AlertPtr) (w : World) :
    (updateAlerts newAlerts w).events = w.events ++
      if w.maker.alerts = newAlerts then []
      else [⟨.alertsChanged newAlerts, { w.maker with alerts := newAlerts }⟩] := by
  unfold updateAlerts
  by_cases h : w.maker.alerts = newAlerts
  · rw [if_neg (not_not.2 h), if_pos h, List.append_nil]
  · rw [if_pos h, if_neg h]
    rfl

theorem status_run_maker (hj : w.maker.joe = some joe) (hf : ∀ data ∈ frames, data ≠ []) :
    ∃ w', run on_status w frames = .ok w' ∧
      w'.maker = { w.maker with alerts := w'.maker.alerts } := by
  induction frames generalizing w with
  | nil => exact ⟨w, rfl, rfl⟩
  | cons data frames ih =>
    obtain ⟨hd, hf⟩ := List.forall_mem_cons.1 hf
    have hm := updateAlerts_maker
      (activeAlerts joe w.maker.joeInstance (encDecBytes data w.key).tail) w
    rw [run_cons, on_status_ok hj hd, ok_bind]
    obtain ⟨w', hr, hw⟩ := ih (w := updateAlerts _ w) (by rw [hm]; exact hj) hf
    refine ⟨w', hr, ?_⟩
    rw [hm] at hw
    exact hw

/-- After any number of status frames that are not empty, the alerts are those in the payload of
the last frame. The byte in front of the payload is never looked at. -/
theorem status_frames_last (hj : w.maker.joe = some joe) (hf : ∀ data ∈ frames, data ≠ [])
    (hd : data ≠ []) :
    ∃ w₁ w', run on_status w frames = .ok w₁ ∧ on_status w₁ data = .ok w' ∧
      w₁.maker = { w.maker with alerts := w₁.maker.alerts } ∧
      w'.maker = { w.maker with
        alerts := activeAlerts joe w.maker.joeInstance (encDecBytes data w.key).tail } ∧
      w'.wire = w₁.wire ∧
      w'.events = w₁.events ++
        if w₁.maker.alerts = w'.maker.alerts then []
        else [⟨.alertsChanged w'.maker.alerts, w'.maker⟩] := by
  obtain ⟨w₁, hr, hm⟩ := status_run_maker hj hf
  have hj₁ : w₁.maker.joe = some joe := by rw [hm]; exact hj
  have hi₁ : w₁.maker.joeInstance = w.maker.joeInstance := by rw [hm]
  have hk₁ : w₁.key = w.key := by rw [World.key, hm]; rfl
  refine ⟨w₁, _, hr, on_status_ok hj₁ hd, hm, ?_, updateAlerts_wire _ _, ?_⟩
  · rw [updateAlerts_maker, hi₁, hk₁, hm]
  · rw [updateAlerts_events, updateAlerts_maker]

theorem status_frames_last_example :
    ∃ w₁ w', run on_status exampleWorld [[0]] = .ok w₁ ∧ on_status w₁ [66, 0] = .ok w' ∧
      w'.maker = { exampleWorld.maker with
        alerts := activeAlerts exampleJoe 1 (encDecBytes [66, 0] 42).tail } := by
  have hj : exampleWorld.maker.joe = some exampleJoe := rfl
  have hf : ∀ data ∈ [([0] : Bytes)], data ≠ [] := by decide
  have hd : ([66, 0] : Bytes) ≠ [] := by decide
  obtain ⟨w₁, w', h₁, h, _, hm, _⟩ := status_frames_last hj hf hd
  exact ⟨w₁, w', h₁, h, hm⟩

/-- A frame that fails to decode: its first byte is not the key, and it still sets an alert. -/
theorem status_frame_wrong_key :
    (encDecBytes (encDecBytes [0x00, 0x80] 42) exampleWorld.key).head? ≠ some exampleWorld.key ∧
      ∃ w', on_status exampleWorld (encDecBytes [0x00, 0x80] 42) = .ok w' ∧
        exampleWorld.maker.alerts = [] ∧ w'.maker.alerts = [⟨1, 0⟩] ∧
        w'.events.length = 1 := by
  decide +kernel

end JuttaProto
