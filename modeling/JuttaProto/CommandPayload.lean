import JuttaProto.ConnectionLifecycle
import JuttaProto.StatisticsRequest

namespace JuttaProto
open Run
set_option autoImplicit true

/-- The payload that a call means to send, before the key is put into it. -/
def Call.intended (w : World) : Call → Option Bytes
  | .disconnect => if w.maker.state.active then some [0x00, 0x7F, 0x81] else none
  | .request_coffee =>
    some [0x00, 0x03, 0x00, 0x04, 0x28, 0x00, 0x00, 0x02, 0x00, 0x01, 0x00, 0x00, 0x00, 0x00,
      0x00, 0x00]
  | .request_coffee_product product => (product.to_bt_command >>= from_hex_string).toOption
  | .request_statistics _ mode => some (build_stats_cmd mode)
  | c => c.payload.map fun p => p.2.1

def Call.reservesLast : Call → Bool
  | .request_coffee_product _ => true
  | _ => false

def Call.clobbers : Call → Bool
  | .write_tx _ | .write_tx_string _ | .request_statistics _ _ => true
  | _ => false

/-- The decoded frame is the payload with the key in its first byte and in nothing else but a
reserved last byte. -/
structure Intact (key : UInt8) (reserved : Bool) (payload decoded : Bytes) : Prop where
  length : decoded.length = payload.length
  first : decoded[0]? = some key
  rest : ∀ i, 0 < i → (reserved = true → i + 1 ≠ payload.length) → decoded[i]? = payload[i]?

@[simp] theorem length_override (key : UInt8) (overrideKey : Bool) (data : Bytes) :
    (override key overrideKey data).length = data.length := by
  unfold override
  split
  · rw [List.length_set, List.length_set]
  · rw [List.length_set]

theorem override_first (hd : data ≠ []) (key : UInt8) (overrideKey : Bool) :
    (override key overrideKey data)[0]? = some key := by
  have hlen : 0 < data.length := List.length_pos_of_ne_nil hd
  unfold override
  split
  · rw [List.getElem?_set]
    split
    · rw [if_pos (by rw [List.length_set]; omega)]
    · rw [List.getElem?_set_self hlen]
  · rw [List.getElem?_set_self hlen]

theorem override_false_rest (hi : 0 < i) (key : UInt8) (data : Bytes) :
    (override key false data)[i]? = data[i]? := by
  rw [override, if_neg Bool.false_ne_true, List.getElem?_set_ne (by omega)]

theorem override_true_rest (hi : 0 < i) (hl : i + 1 ≠ data.length) (key : UInt8) :
    (override key true data)[i]? = data[i]? := by
  rw [override, if_pos rfl, List.getElem?_set]
  split
  · rename_i he
    rw [if_neg (by rw [List.length_set]; omega), List.getElem?_eq_none (by omega)]
  · rw [List.getElem?_set_ne (by omega)]

theorem override_true_last (hd : data ≠ []) (key : UInt8) :
    (override key true data)[data.length - 1]? = some key := by
  have hlen : 0 < data.length := List.length_pos_of_ne_nil hd
  rw [override, if_pos rfl, List.getElem?_set_self (by rw [List.length_set]; omega)]

theorem getElem?_override (hd : data ≠ []) (key : UInt8) (overrideKey : Bool) (i : Nat) :
    (override key overrideKey data)[i]? =
      if i = 0 ∨ (overrideKey = true ∧ i + 1 = data.length) then some key else data[i]? := by
  rcases Nat.eq_zero_or_pos i with hi | hi
  · rw [hi, override_first hd, if_pos (.inl rfl)]
  cases overrideKey with
  | false =>
    rw [override_false_rest hi, if_neg]
    rintro (he | ⟨he, _⟩)
    · omega
    · cases he
  | true =>
    by_cases hl : i + 1 = data.length
    · have he : i = data.length - 1 := by omega
      rw [if_pos (.inr ⟨rfl, hl⟩), he, override_true_last hd]
    · rw [override_true_rest hi hl, if_neg]
      rintro (he | ⟨_, he⟩)
      · omega
      · exact hl he

theorem override_intact_iff (hd : data ≠ []) (key : UInt8) (overrideKey reserved : Bool) :
    Intact key reserved data (override key overrideKey data) ↔
      (overrideKey && !reserved) = false ∨ data.length = 1 ∨ data.getLast? = some key := by
  have hlen : 0 < data.length := List.length_pos_of_ne_nil hd
  have hfirst := override_first hd key overrideKey
  cases overrideKey with
  | false =>
    exact iff_of_true ⟨length_override _ _ _, hfirst, fun i hi _ => override_false_rest hi _ _⟩
      (.inl rfl)
  | true =>
    cases reserved with
    | true =>
      exact iff_of_true
        ⟨length_override _ _ _, hfirst, fun i hi hr => override_true_rest hi (hr rfl) _⟩ (.inl rfl)
    | false =>
      rw [List.getLast?_eq_getElem?]
      constructor
      · intro h
        by_cases h1 : data.length = 1
        · exact .inr (.inl h1)
        · have hr := h.rest (data.length - 1) (by omega) fun hr => (nomatch hr)
          rw [override_true_last hd] at hr
          exact .inr (.inr hr.symm)
      · intro h
        refine ⟨length_override _ _ _, hfirst, fun i hi _ => ?_⟩
        by_cases hil : i + 1 = data.length
        · have he : i = data.length - 1 := by omega
          rcases h with h | h | h
          · cases h
          · omega
          · rw [he, override_true_last hd, h]
        · exact override_true_rest hi hil key

def Call.send (written : Int) (w : World) : Call → Except Fault World
  | .disconnect =>
    if w.maker.state.active then send_disconnect written (set_state .DISCONNECTING w) else .ok w
  | .request_statistics _ mode =>
    write STATISTICS_COMMAND_CHARACTERISTIC_UUID (build_stats_cmd mode) true true written w
  | c => c.issue written w

theorem join_wire (h : join w = .ok w') : w'.wire = w.wire := by
  unfold join at h
  split at h
  · cases h
    rfl
  · cases h

theorem issue_wire (hs : Call.send written w c = .ok w₁) (h : Call.issue written w c = .ok w') :
    w'.wire = w₁.wire := by
  have hsame (he : c.send written w = c.issue written w) : w'.wire = w₁.wire := by
    rw [he, h] at hs
    cases hs
    rfl
  cases c with
  | disconnect =>
    rw [Call.issue, disconnect] at h
    rw [Call.send] at hs
    split at h
    · rename_i ha
      rw [if_pos ha] at hs
      rw [hs, ok_bind] at h
      obtain ⟨w₂, h₂, h⟩ := bind_ok h
      cases h
      rw [set_state_wire, join_wire h₂]
    · rename_i ha
      rw [if_neg ha] at hs
      cases hs
      cases h
      rfl
  | request_statistics replies mode =>
    rw [Call.send, write_ne_nil (build_stats_cmd_ne_nil mode)] at hs
    rw [Call.issue, request_statistics_eq] at h
    cases hs
    exact (read_characteristic_frame h).1
  | _ => exact hsame rfl

theorem write_frame (hd : data ≠ []) (uuid : Uuid) (overrideKey : Bool) (written : Int)
    (w : World) :
    ∃ w' call, write uuid data true overrideKey written w = .ok w' ∧ w'.wire = w.wire ++ [call] ∧
      encDecBytes call.data w.key = override w.key overrideKey data :=
  ⟨_, _, write_ne_nil hd _ _ _ _, rfl, encDecBytes_twice _ _⟩

/-- The decoder of the device gets back the payload with the key in its first byte, and in its
last byte on demand. So the check of the first byte accepts every frame that is encoded. -/
theorem write_decodes (hd : data ≠ []) (uuid : Uuid) (overrideKey : Bool) (written : Int)
    (w : World) :
    ∃ call, write uuid data true overrideKey written w =
        .ok { w with wire := w.wire ++ [call] } ∧
      call.characteristic = uuid ∧ call.data.length = data.length ∧
      (encDecBytes call.data w.key).length = data.length ∧
      (∀ i, (encDecBytes call.data w.key)[i]? =
        if i = 0 ∨ (overrideKey = true ∧ i + 1 = data.length) then some w.key else data[i]?) ∧
      (encDecBytes call.data w.key).head? = some w.key := by
  refine ⟨_, write_ne_nil hd _ _ _ _, rfl, ?_, ?_, fun i => ?_, ?_⟩
  · rw [length_encDecBytes, length_override]
  · rw [encDecBytes_twice, length_override]
  · rw [encDecBytes_twice, getElem?_override hd]
  · rw [encDecBytes_twice, List.head?_eq_getElem?, override_first hd]

theorem write_decodes_example :
    (∃ call, write UART_TX_CHARACTERISTIC_UUID [0x41, 0x42, 0x43] true true GATTLIB_SUCCESS
        exampleWorld = .ok { exampleWorld with wire := [call] } ∧
      encDecBytes call.data 42 = [42, 0x42, 42]) ∧
    ∃ call, write UART_TX_CHARACTERISTIC_UUID [0x41, 0x42, 0x43] true false GATTLIB_SUCCESS
        exampleWorld = .ok { exampleWorld with wire := [call] } ∧
      encDecBytes call.data 42 = [42, 0x42, 0x43] := by
  have hd : ([0x41, 0x42, 0x43] : Bytes) ≠ [] := List.cons_ne_nil _ _
  constructor
  · obtain ⟨call, h, _, _, _, hi, _⟩ := write_decodes hd UART_TX_CHARACTERISTIC_UUID true
      GATTLIB_SUCCESS exampleWorld
    refine ⟨call, h, List.ext_getElem? fun i => (hi i).trans ?_⟩
    match i with
    | 0 | 1 | 2 | i + 3 => rfl
  · obtain ⟨call, h, _, _, _, hi, _⟩ := write_decodes hd UART_TX_CHARACTERISTIC_UUID false
      GATTLIB_SUCCESS exampleWorld
    refine ⟨call, h, List.ext_getElem? fun i => (hi i).trans ?_⟩
    match i with
    | 0 | 1 | 2 | i + 3 => rfl

theorem send_frame (hp : Call.intended w c = some payload) (hd : payload ≠ []) (written : Int) :
    ∃ w' call, c.send written w = .ok w' ∧ w'.wire = w.wire ++ [call] ∧
      encDecBytes call.data w.key = override w.key (c.clobbers || c.reservesLast) payload := by
  cases c with
  | write_tx _ | write_tx_string _ | shutdown | stay_in_ble | lock | unlock =>
    cases hp
    exact write_frame hd _ _ written w
  | disconnect =>
    cases ha : w.maker.state.active with
    | false =>
      rw [Call.intended, ha] at hp
      cases hp
    | true =>
      rw [Call.intended, ha] at hp
      cases hp
      obtain ⟨w', call, hw, hwire, hf⟩ :=
        write_frame hd P_MODE_CHARACTERISTIC_UUID false written (set_state .DISCONNECTING w)
      rw [set_state_wire] at hwire
      rw [set_state_key] at hf
      exact ⟨w', call, by rw [Call.send, ha, if_pos rfl]; exact hw, hwire, hf⟩
  | request_coffee =>
    have hx : from_hex_string (cstr "00030004280000020001000000000000") = .ok payload := by
      cases hp
      decide +kernel
    have hs : Call.send written w .request_coffee =
        write START_PRODUCT_CHARACTERISTIC_UUID payload true false written w := by
      change request_coffee written w = _
      rw [request_coffee, hx, ok_bind]
    rw [hs]
    exact write_frame hd _ _ written w
  | request_coffee_product product =>
    have hs : Call.send written w (.request_coffee_product product) =
        write START_PRODUCT_CHARACTERISTIC_UUID payload true true written w := by
      change request_coffee_product product written w = _
      cases h₁ : product.to_bt_command with
      | error e =>
        rw [Call.intended, h₁] at hp
        cases hp
      | ok commandHexStr =>
        rw [Call.intended, h₁, ok_bind] at hp
        cases h₂ : from_hex_string commandHexStr with
        | error e =>
          rw [h₂] at hp
          cases hp
        | ok command =>
          rw [h₂] at hp
          cases hp
          rw [request_coffee_product, h₁, ok_bind, h₂, ok_bind]
    rw [hs]
    exact write_frame hd _ _ written w
  | request_statistics replies mode =>
    cases hp
    exact write_frame hd _ _ written w
  | connect g => cases hp
  | request_status _ | request_progress _ | request_about_info _ | read_rx _ => cases hp

/-- Every command is sent, and its frame carries the payload unless the key has to replace the
last byte of a payload that needs it and that differs from the key. -/
theorem command_intact_iff (hp : Call.intended w c = some payload) (hd : payload ≠ [])
    (written : Int) :
    ∃ w₁ call, c.send written w = .ok w₁ ∧ w₁.wire = w.wire ++ [call] ∧
      (∀ w', c.issue written w = .ok w' → w'.wire = w₁.wire) ∧
      (Intact w.key c.reservesLast payload (encDecBytes call.data w.key) ↔
        c.clobbers = false ∨ payload.length = 1 ∨ payload.getLast? = some w.key) := by
  obtain ⟨w₁, call, hs, hw, hf⟩ := send_frame hp hd written
  refine ⟨w₁, call, hs, hw, fun w' h => issue_wire hs h, ?_⟩
  have hc : ((c.clobbers || c.reservesLast) && !c.reservesLast) = c.clobbers := by
    cases c <;> rfl
  rw [hf, override_intact_iff hd, hc]

theorem command_intact_iff_lock :
    ∃ w₁ call, Call.send GATTLIB_SUCCESS exampleWorld .lock = .ok w₁ ∧ w₁.wire = [call] ∧
      (∀ w', Call.issue GATTLIB_SUCCESS exampleWorld .lock = .ok w' → w'.wire = w₁.wire) ∧
      (Intact exampleWorld.key (Call.reservesLast .lock) [0x00, 0x01]
          (encDecBytes call.data exampleWorld.key) ↔
        Call.clobbers .lock = false ∨ ([0x00, 0x01] : Bytes).length = 1 ∨
          ([0x00, 0x01] : Bytes).getLast? = some exampleWorld.key) :=
  command_intact_iff rfl (by decide) GATTLIB_SUCCESS

/-- The mask of the products is lost, and so is the last byte of other data. -/
theorem last_byte_clobbered :
    (∃ w', Call.issue GATTLIB_SUCCESS exampleWorld
        (.request_statistics ⟨fun _ => none, none⟩ .PRODUCT_COUNTERS) = .ok w' ∧
      w'.wire.map (fun call => encDecBytes call.data 42) = [[42, 0, 1, 0xFF, 42]]) ∧
    (∃ w', Call.issue GATTLIB_SUCCESS exampleWorld (.write_tx [0x41, 0x42, 0x43]) = .ok w' ∧
      w'.wire.map (fun call => encDecBytes call.data 42) = [[42, 0x42, 42]]) ∧
    ¬Intact 42 false (build_stats_cmd .PRODUCT_COUNTERS) [42, 0, 1, 0xFF, 42] ∧
    ¬Intact 42 false [0x41, 0x42, 0x43] [42, 0x42, 42] := by
  refine ⟨by decide +kernel, by decide +kernel, fun h => ?_, fun h => ?_⟩
  · exact absurd (h.rest 4 (by decide) fun hr => (nomatch hr)) (by decide)
  · exact absurd (h.rest 2 (by decide) fun hr => (nomatch hr)) (by decide)

end JuttaProto
