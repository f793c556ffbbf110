import JuttaProto.Session

namespace JuttaProto
open Run
set_option autoImplicit true

/-- gattlib reaches the device and finds services on it. -/
def LinkOpens (g : ConnectReplies) : Prop :=
  g.connection ≠ none ∧ g.discoverPrimary = GATTLIB_SUCCESS ∧ 0 < g.serviceCount

instance : DecidablePred LinkOpens := fun g =>
  inferInstanceAs (Decidable (g.connection ≠ none ∧ _))

/-- The device has no link, neither one that is open nor one that is being opened. -/
def BLEDevice.idle (device : BLEDevice) : Prop :=
  device.connection = none ∧ device.connected = false

/-- The coffee maker at the moment when the callbacks are registered. -/
def linkOpened (g : ConnectReplies) (w : World) : World :=
  (set_state .CONNECTING w).withDevice ⟨g.connection, g.serviceCount, false⟩

def linkUp (w : World) : World := w.withDevice { w.maker.bleDevice with connected := true }

theorem set_state_maker (state : CoffeeMakerState) (w : World) :
    (set_state state w).maker = { w.maker with state } := by
  unfold set_state
  split
  · rfl
  · rename_i h
    rw [not_not.1 h]

theorem set_state_bleDevice (state : CoffeeMakerState) (w : World) :
    (set_state state w).maker.bleDevice = w.maker.bleDevice := by
  rw [set_state_maker]

theorem set_state_wire (state : CoffeeMakerState) (w : World) :
    (set_state state w).wire = w.wire := by
  unfold set_state
  split <;> rfl

theorem set_state_key (state : CoffeeMakerState) (w : World) :
    (set_state state w).key = w.key := by
  rw [World.key, set_state_maker]
  rfl

theorem open_link_opens (hi : w.maker.bleDevice.idle) (h : LinkOpens g) :
    BLEDevice.open_link g w =
      .ok (w.withDevice ⟨g.connection, g.serviceCount, false⟩, true) := by
  obtain ⟨hc, hd⟩ := hi
  obtain ⟨hg, hp, hs⟩ := h
  simp only [BLEDevice.open_link, hc, hd, hg, hp, Option.isSome_none, Bool.false_eq_true,
    if_false, ne_eq, not_true_eq_false, not_le.2 hs]

theorem open_link_fails (hi : w.maker.bleDevice.idle) (h : ¬LinkOpens g) :
    ∃ n, BLEDevice.open_link g w = .ok (w.withDevice ⟨none, n, false⟩, false) := by
  obtain ⟨hc, hd⟩ := hi
  simp only [BLEDevice.open_link, hc, hd, Option.isSome_none, Bool.false_eq_true, if_false]
  split
  · rename_i hg
    exact ⟨w.maker.bleDevice.serviceCount, by rw [hg]⟩
  split
  · exact ⟨g.serviceCount, rfl⟩
  split
  · exact ⟨g.serviceCount, rfl⟩
  · rename_i hg hp hs
    exact absurd ⟨hg, not_not.1 hp, not_le.1 hs⟩ h

theorem open_link_asserts (h : ¬w.maker.bleDevice.idle) :
    ∃ e, BLEDevice.open_link g w = .error e ∧ e.origin = .lifecycle := by
  unfold BLEDevice.open_link
  simp only
  split
  · exact ⟨_, rfl, rfl⟩
  split
  · exact ⟨_, rfl, rfl⟩
  · rename_i hc hd
    exact absurd ⟨Option.not_isSome_iff_eq_none.1 hc, Bool.eq_false_iff.2 hd⟩ h

theorem connect_opens (hi : w.maker.bleDevice.idle) (h : LinkOpens g) :
    connect g written w =
      run on_notification (linkOpened g w) g.notifications >>= fun w' =>
        (fun w => (set_state .CONNECTED w, true)) <$> on_connected g written (linkUp w') := by
  have hi' : (set_state .CONNECTING w).maker.bleDevice.idle := by
    rw [set_state_bleDevice]
    exact hi
  rw [connect, BLEDevice.connect, open_link_opens hi' h]
  simp only [ok_bind, if_true]
  change (run on_notification (linkOpened g w) g.notifications >>= _) >>= _ = _
  cases run on_notification (linkOpened g w) g.notifications with
  | error e => rfl
  | ok w' =>
    change (on_connected g written (linkUp w') >>= _) >>= _ =
      _ <$> on_connected g written (linkUp w')
    cases on_connected g written (linkUp w') with
    | error e => rfl
    | ok w'' => rfl

theorem connect_fails (written : Int) (hi : w.maker.bleDevice.idle) (h : ¬LinkOpens g) :
    ∃ n, connect g written w =
      .ok (set_state .DISCONNECTED
        ((set_state .CONNECTING w).withDevice ⟨none, n, false⟩), false) := by
  have hi' : (set_state .CONNECTING w).maker.bleDevice.idle := by
    rw [set_state_bleDevice]
    exact hi
  obtain ⟨n, hn⟩ := open_link_fails hi' h
  exact ⟨n, by rw [connect, BLEDevice.connect, hn]; rfl⟩

theorem connect_asserts (g : ConnectReplies) (written : Int)
    (h : ¬w.maker.bleDevice.idle) :
    ∃ e, connect g written w = .error e ∧ e.origin = .lifecycle := by
  have h' : ¬(set_state .CONNECTING w).maker.bleDevice.idle := by
    rw [set_state_bleDevice]
    exact h
  obtain ⟨e, he, ho⟩ := open_link_asserts (g := g) h'
  exact ⟨e, by rw [connect, BLEDevice.connect, he]; rfl, ho⟩

def MachineLoads (machines : List Machine) (data : Bytes) (doc : Option (List XMLElement)) :
    Prop :=
  ∃ manData machine joe, read_man_data data = .ok manData ∧
    machines.find? (fun m => m.articleNumber == manData.articleNumber.toUInt64) = some machine ∧
    load_joe machine doc = .ok joe

theorem parse_man_data_cases (h : parse_man_data data doc w = .ok w') :
    MachineLoads w.maker.machines data doc ∧ ∃ manData joe,
      w'.maker = { w.maker with
        manData, joe := some joe, joeInstance := w.maker.joeInstance + 1, alerts := [] } ∧
      w'.wire = w.wire := by
  obtain ⟨manData, hm, h⟩ := bind_ok h
  simp only at h
  split at h
  · cases h
  · rename_i machine hf
    obtain ⟨joe, hj, h⟩ := bind_ok h
    cases h
    exact ⟨⟨manData, machine, joe, hm, hf, hj⟩, manData, joe, rfl, rfl⟩

theorem parse_man_data_loads (h : MachineLoads w.maker.machines data doc) :
    ∃ w', parse_man_data data doc w = .ok w' := by
  obtain ⟨manData, machine, joe, hm, hf, hj⟩ := h
  have hf' : (emit (.manDataChanged manData)
      { w with maker := { w.maker with manData } }).maker.machines.find?
        (fun m => m.articleNumber == manData.articleNumber.toUInt64) = some machine := hf
  simp only [parse_man_data, hm, hf', hj, ok_bind]
  exact ⟨_, rfl⟩

theorem write_ne_nil (h : data ≠ []) (uuid : Uuid) (overrideKey : Bool) (written : Int)
    (w : World) :
    write uuid data true overrideKey written w = .ok (BLEDevice.write uuid
      (encDecBytes (override w.key overrideKey data) w.key) written w) := by
  rw [write, if_pos rfl, if_neg h]

theorem stay_in_ble_ok (written : Int) (w : World) :
    ∃ w', stay_in_ble written w = .ok w' ∧ w'.maker = w.maker :=
  ⟨_, write_ne_nil (by decide) _ _ _ _, rfl⟩

theorem send_disconnect_ok (written : Int) (w : World) :
    ∃ w', send_disconnect written w = .ok w' ∧ w'.maker = w.maker :=
  ⟨_, write_ne_nil (by decide) _ _ _ _, rfl⟩

end JuttaProto
