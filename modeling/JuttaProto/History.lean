import JuttaProto.Connecting

namespace JuttaProto
open Run
set_option autoImplicit true

/-- The same coffee maker with other invocations in front of its own. -/
def World.after (past : List Invocation) (w : World) : World :=
  { w with events := past ++ w.events }

/-- The computation neither reads nor changes what happened before. -/
def Local (f : World → Except Fault World) : Prop :=
  ∀ past w, f (w.after past) = World.after past <$> f w

@[simp] theorem after_maker (past : List Invocation) (w : World) :
    (w.after past).maker = w.maker := rfl

@[simp] theorem after_events (past : List Invocation) (w : World) :
    (w.after past).events = past ++ w.events := rfl

theorem emit_after (event : Event) (past : List Invocation) (w : World) :
    emit event (w.after past) = (emit event w).after past := by
  rw [emit, emit, World.after, World.after]
  simp only [List.append_assoc]

theorem emit_if_after (c : Prop) [Decidable c] (event : Event) (maker : CoffeeMaker)
    (past : List Invocation) (w : World) :
    (if c then emit event { w.after past with maker } else w.after past) =
      World.after past (if c then emit event { w with maker } else w) := by
  split
  · exact emit_after event past { w with maker }
  · rfl

theorem set_state_after (state : CoffeeMakerState) (past : List Invocation) (w : World) :
    set_state state (w.after past) = (set_state state w).after past :=
  emit_if_after (state ≠ w.maker.state) _ _ past w

theorem updateAbout_after (aboutData : AboutData) (past : List Invocation) (w : World) :
    updateAbout aboutData (w.after past) = (updateAbout aboutData w).after past :=
  emit_if_after (aboutData ≠ w.maker.aboutData) _ _ past w

theorem updateAlerts_after (alerts : List AlertPtr) (past : List Invocation) (w : World) :
    updateAlerts alerts (w.after past) = (updateAlerts alerts w).after past :=
  emit_if_after (w.maker.alerts ≠ alerts) _ _ past w

theorem updateJoe_after (event : Event) (joe : Joe) (past : List Invocation) (w : World) :
    updateJoe event joe (w.after past) = (updateJoe event joe w).after past :=
  emit_after event past { w with maker := { w.maker with joe := some joe } }

theorem Local.ok {f : World → World} (h : ∀ past w, f (w.after past) = (f w).after past) :
    Local fun w => .ok (f w) := by
  intro past w
  exact congrArg Except.ok (h past w)

theorem Local.error (e : Fault) : Local fun _ => .error e := by
  intro past w
  rfl

theorem Local.bind (hf : Local f) (hg : Local g) : Local fun w => f w >>= g := by
  intro past w
  simp only [hf past w]
  cases f w with
  | error e => rfl
  | ok w' => exact hg past w'

theorem Local.ite {c : CoffeeMaker → Prop} [DecidablePred c] (hf : Local f) (hg : Local g) :
    Local fun w => if c w.maker then f w else g w := by
  intro past w
  by_cases hc : c w.maker
  · have hc' : c (w.after past).maker := hc
    simp only [if_pos hc, if_pos hc']
    exact hf past w
  · have hc' : ¬c (w.after past).maker := hc
    simp only [if_neg hc, if_neg hc']
    exact hg past w

theorem Local.run {step : World → α → Except Fault World} (h : ∀ a, Local fun w => step w a)
    (acts : List α) : Local fun w => run step w acts := by
  induction acts with
  | nil =>
    intro past w
    rfl
  | cons a acts ih => exact (h a).bind ih

theorem parse_statistics_data_local (data : Bytes) (key : UInt8) :
    Local (parse_statistics_data data key) := by
  intro past w
  cases hm : w.maker.statParserMode with
  | none =>
    rw [parse_statistics_data, parse_statistics_data, after_maker, hm]
    rfl
  | some mode =>
    rw [parse_statistics_data_mode hm, parse_statistics_data_mode (w := w.after past) hm]
    cases hj : w.maker.joe with
    | none =>
      rw [mode_parse_none hj, mode_parse_none (w := w.after past) hj]
      rfl
    | some joe =>
      obtain ⟨r, _, hr⟩ := mode_parse_uniform mode (encDecBytes data key) joe
      rw [hr w hj, hr (w.after past) hj]
      cases r with
      | error e => rfl
      | ok x => exact congrArg Except.ok (updateJoe_after x.1 x.2 past w)

theorem parse_machine_status_local (data : Bytes) (key : UInt8) :
    Local (parse_machine_status data key) := by
  intro past w
  cases hj : w.maker.joe with
  | none =>
    rw [parse_machine_status, parse_machine_status, after_maker, hj]
    rfl
  | some joe =>
    by_cases hd : data = []
    · rw [hd, parse_machine_status_nil hj, parse_machine_status_nil (w := w.after past) hj]
      rfl
    · obtain ⟨b, payload, hp⟩ := decoded_ne_nil hd key
      rw [parse_machine_status_cons hj hp, parse_machine_status_cons (w := w.after past) hj hp,
        after_maker, updateAlerts_after]
      rfl

theorem parse_about_data_local (data : Bytes) : Local (parse_about_data data) := by
  intro past w
  by_cases hd : 51 ≤ data.length
  · rw [parse_about_data_ok hd, parse_about_data_ok hd, updateAbout_after]
    rfl
  · rw [parse_about_data_error (by omega), parse_about_data_error (by omega)]
    rfl

theorem on_characteristic_read_local (data : Bytes) (uuid : Uuid) :
    Local (on_characteristic_read data uuid) := by
  intro past w
  rw [on_characteristic_read, on_characteristic_read]
  split
  · exact parse_about_data_local data past w
  split
  · exact parse_machine_status_local data w.key past w
  split
  · rfl
  split
  · rfl
  split
  · rfl
  split
  · exact parse_statistics_data_local data w.key past w
  · rfl

theorem read_characteristic_local (reply : Option Bytes) (uuid : Uuid) :
    Local (BLEDevice.read_characteristic reply uuid) := by
  have hskip : Local fun w => .ok w := .ok fun _ _ => rfl
  unfold BLEDevice.read_characteristic
  apply Local.ite (c := fun m => m.bleDevice.connected = true)
  · cases reply with
    | none => exact hskip
    | some data => exact on_characteristic_read_local data uuid
  · exact hskip

theorem write_local (uuid : Uuid) (data : Bytes) (encode overrideKey : Bool) (written : Int) :
    Local (write uuid data encode overrideKey written) := by
  intro past w
  rw [write, write]
  split
  · split
    · rfl
    · rfl
  · rfl

theorem join_local : Local join := by
  unfold join
  apply Local.ite (c := fun m => m.heartbeatThread = true)
  · intro past w
    rfl
  · exact .error _

theorem start_heartbeat_local : Local start_heartbeat := by
  unfold start_heartbeat
  apply Local.ite (c := fun m => m.heartbeatThread = true)
  · exact .error _
  · intro past w
    rfl

theorem disconnect_local (written : Int) : Local (disconnect written) := by
  have hstart : Local fun w => .ok (set_state .DISCONNECTING w) := .ok (set_state_after _)
  have hend : Local fun w => .ok (set_state .DISCONNECTED w) := .ok (set_state_after _)
  unfold disconnect
  apply Local.ite (c := fun m => m.state.active = true)
  · have hsend : Local (send_disconnect written) := write_local _ _ true false written
    exact hstart.bind (hsend.bind (join_local.bind hend))
  · intro past w
    rfl

theorem parse_man_data_local (data : Bytes) (doc : Option (List XMLElement)) :
    Local (parse_man_data data doc) := by
  intro past w
  rw [parse_man_data, parse_man_data]
  cases read_man_data data with
  | error e => rfl
  | ok manData =>
    cases hf : w.maker.machines.find?
        (fun m => m.articleNumber == manData.articleNumber.toUInt64) with
    | none => simp only [ok_bind, emit, after_maker, hf, error_map]
    | some machine =>
      simp only [ok_bind, emit, after_maker, hf]
      cases load_joe machine doc with
      | error e => rfl
      | ok joe =>
        simp only [ok_bind, after_events, List.append_assoc]
        rfl

theorem on_connected_local (g : ConnectReplies) (written : Int) :
    Local (on_connected g written) := by
  intro past w
  rw [on_connected, on_connected]
  split
  · exact disconnect_local written past w
  · have h := (parse_man_data_local (g.manData.getD []) g.doc).bind
      ((write_local P_MODE_CHARACTERISTIC_UUID [0x00, 0x7F, 0x80] true false written).bind
        ((read_characteristic_local g.about ABOUT_MACHINE_CHARACTERISTIC_UUID).bind
          start_heartbeat_local))
    exact h past w

end JuttaProto
