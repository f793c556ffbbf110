import JuttaProto.Calls

namespace JuttaProto
open Run
set_option autoImplicit true

inductive Origin
  | receive
  | hex
  | manData
  | machineFile
  | brew
  | payload
  | lifecycle
  deriving DecidableEq

/-- Every fault belongs to one part of the program. The handlers of received frames are the
only ones that read a frame without a check or use the machine file through its pointer. -/
def Fault.origin : Fault → Origin
  | .outOfRange .parse_version | .outOfRange .parse_machine_status
  | .outOfRange .get_stat_val | .outOfRange .from_hex_string | .nullDeref .joe => .receive
  | .assertion .hexChar => .hex
  | .outOfRange .parse_man_data | .exit => .manData
  | .nullDeref .joeXml | .nullDeref .productsXml | .nullDeref .alertsXml | .nullString
  | .lengthError | .assertion .loadFileSuccess | .assertion .statisticXml
  | .assertion .maintenanceXml => .machineFile
  | .outOfRange .to_bt_command | .divByZero => .brew
  | .outOfRange .write => .payload
  | .assertion .noConnection | .assertion .notConnected | .assertion .noHeartbeatThread
  | .assertion .heartbeatThread => .lifecycle

abbrev FaultsIn (origins : List Origin) (x : Except Fault α) : Prop :=
  Within (fun f => f.origin ∈ origins) x

abbrev NeverIn (origin : Origin) (x : Except Fault α) : Prop :=
  Avoids (fun f => f.origin = origin) x

theorem neverIn_bind_iff {x : Except Fault α} {f : α → Except Fault β} :
    NeverIn origin (x >>= f) ↔ NeverIn origin x ∧ ∀ a, x = .ok a → NeverIn origin (f a) :=
  avoids_bind_iff

theorem neverIn_error_iff {f : Fault} :
    NeverIn origin (.error f : Except Fault α) ↔ f.origin ≠ origin := avoids_error_iff

theorem neverIn_ok_iff {P : Prop} (h : P) (a : α) :
    NeverIn origin (.ok a : Except Fault α) ↔ P := by
  apply iff_of_true
  · exact avoids_ok _ a
  · exact h

theorem neverIn_error_iff_of_not {P : Prop} {f : Fault} (ho : f.origin = origin) (h : ¬P) :
    NeverIn origin (.error f : Except Fault α) ↔ P := by
  apply iff_of_false
  · rw [neverIn_error_iff]
    exact not_not.2 ho
  · exact h

theorem neverIn_map_iff {x : Except Fault α} {f : α → β} :
    NeverIn origin (f <$> x) ↔ NeverIn origin x := avoids_map_iff

theorem neverIn_of_faultsIn {x : Except Fault α} (h : FaultsIn origins x)
    (ho : origin ∉ origins) : NeverIn origin x :=
  h.avoids fun _ hm he => ho (he ▸ hm)

theorem neverIn_iff_true {x : Except Fault α} (h : FaultsIn origins x)
    (ho : origin ∉ origins) : NeverIn origin x ↔ True :=
  iff_true_intro (neverIn_of_faultsIn h ho)

theorem faultsIn_weaken {x : Except Fault α} (h : FaultsIn origins x)
    (ho : ∀ o ∈ origins, o ∈ origins') : FaultsIn origins' x :=
  h.mono fun f hf => ho f.origin hf

theorem faultsIn_index (h : (Fault.outOfRange site).origin ∈ origins) (data : Bytes) (i : Nat) :
    FaultsIn origins (index site data i) := by
  unfold index
  split
  · exact within_ok _ _
  · exact within_error h

theorem faultsIn_get_hex_char_val (c : UInt8) : FaultsIn [.hex] (get_hex_char_val c) := by
  unfold get_hex_char_val
  simp only
  split
  · exact within_ok _ _
  split
  · exact within_ok _ _
  · exact within_error (by decide)

/-- The terminating NUL is rejected, so the store behind the end is never reached. -/
theorem faultsIn_from_hex_string (hex : CString) : FaultsIn [.hex] (from_hex_string hex) := by
  induction hex using from_hex_string.induct with
  | case1 => exact within_ok _ _
  | case2 c =>
    apply (faultsIn_get_hex_char_val c).bind
    intro _ _
    have h0 : get_hex_char_val 0 = .error (.assertion .hexChar) := by decide
    rw [h0, error_bind]
    exact within_error (by decide)
  | case3 c c' hex ih =>
    apply (faultsIn_get_hex_char_val c).bind
    intro _ _
    apply (faultsIn_get_hex_char_val c').bind
    intro _ _
    exact ih.bind fun _ _ => within_ok _ _

theorem faultsIn_code_to_size_t (p : Product) : FaultsIn [.hex] p.code_to_size_t :=
  (faultsIn_from_hex_string p.code).bind fun _ _ => within_ok _ _

section MachineFile
variable {S : Fault → Prop} (hs : S .nullString)
include hs

theorem within_string (e : XMLElement) (name : String) : Within S (e.string name) := by
  rw [XMLElement.string]
  split
  · exact within_ok _ _
  · exact within_error hs

theorem within_load_items_option (option : XMLElement) : Within S (load_items_option option) := by
  apply (within_string hs _ _).bind
  intro _ _
  apply (within_string hs _ _).bind
  intro _ _
  refine (Within.mapM (fun e => ?_) _).bind fun _ _ => within_ok _ _
  apply (within_string hs _ _).bind
  intro _ _
  exact (within_string hs _ _).bind fun _ _ => within_ok _ _

theorem within_load_min_max_option (option : XMLElement) :
    Within S (load_min_max_option option) :=
  (within_string hs _ _).bind fun _ _ => within_ok _ _

omit hs in
theorem within_load_option {load : XMLElement → Except Fault α}
    (h : ∀ option, Within S (load option)) (e : XMLElement) (name : String) :
    Within S (load_option load e name) := by
  rw [load_option]
  split
  · exact (h _).map some
  · exact within_ok _ _

theorem within_load_product (e : XMLElement) : Within S (load_product e) := by
  have hitems := within_load_option (within_load_items_option hs) e
  have hminmax := within_load_option (within_load_min_max_option hs) e
  apply (within_string hs _ _).bind
  intro _ _
  apply (within_string hs _ _).bind
  intro _ _
  apply (hitems _).bind
  intro _ _
  apply (hitems _).bind
  intro _ _
  apply (hminmax _).bind
  intro _ _
  exact (hminmax _).bind fun _ _ => within_ok _ _

theorem within_load_alert (e : XMLElement) : Within S (load_alert e) :=
  (within_string hs _ _).bind fun _ _ => within_ok _ _

theorem within_load_products (hp : S (.nullDeref .productsXml)) (joe : XMLElement) :
    Within S (load_products joe) := by
  rw [load_products]
  split
  · exact Within.mapM (within_load_product hs) _
  · exact within_error hp

theorem within_load_alerts (ha : S (.nullDeref .alertsXml)) (joe : XMLElement) :
    Within S (load_alerts joe) := by
  rw [load_alerts]
  split
  · exact Within.mapM (within_load_alert hs) _
  · exact within_error ha

theorem within_load_bank (bankName : CString) (banks : List XMLElement) :
    Within S (load_bank bankName banks) := by
  induction banks with
  | nil => exact within_ok _ _
  | cons bankXml banks ih =>
    apply (within_string hs _ _).bind
    intro name _
    by_cases hn : name = bankName
    · simp only [if_pos hn]
      exact Within.mapM (fun e => within_string hs e "Type") _
    · simp only [if_neg hn]
      exact ih

end MachineFile

theorem faultsIn_load_maintenance_bank (bankName : CString) (joe : XMLElement) :
    FaultsIn [.machineFile] (load_maintenance_bank bankName joe) := by
  unfold load_maintenance_bank
  split
  · exact within_error (by decide)
  split
  · exact within_error (by decide)
  · exact within_load_bank (by decide) _ _

theorem faultsIn_ofList (rows : List α) :
    FaultsIn [.machineFile] (Table.ofList .lengthError rows) := by
  unfold Table.ofList
  split
  · exact within_ok _ _
  · exact within_error (by decide)

theorem faultsIn_load_joe (machine : Machine) (doc : Option (List XMLElement)) :
    FaultsIn [.machineFile] (load_joe machine doc) := by
  unfold load_joe
  split
  · exact within_error (by decide)
  split
  · exact within_error (by decide)
  rename_i joe _
  have hdated : FaultsIn [.machineFile] (joe.string "dated") := within_string (by decide) _ _
  have hproducts : FaultsIn [.machineFile] (load_products joe) :=
    within_load_products (by decide) (by decide) joe
  have halerts : FaultsIn [.machineFile] (load_alerts joe) :=
    within_load_alerts (by decide) (by decide) joe
  apply hdated.bind
  intro _ _
  apply hproducts.bind
  intro _ _
  apply halerts.bind
  intro _ _
  apply ((faultsIn_load_maintenance_bank _ _).bind fun _ _ => faultsIn_ofList _).bind
  intro _ _
  apply ((faultsIn_load_maintenance_bank _ _).bind fun _ _ => faultsIn_ofList _).bind
  exact fun _ _ => within_ok _ _

theorem faultsIn_to_uint16_t_little_endian (data : Bytes) (offset : Nat) :
    FaultsIn [.manData] (to_uint16_t_little_endian data offset) := by
  apply (faultsIn_index (by decide) _ _).bind
  intro _ _
  exact (faultsIn_index (by decide) _ _).bind fun _ _ => within_ok _ _

theorem faultsIn_to_ymd (data : Bytes) (offset : Nat) :
    FaultsIn [.manData] (to_ymd data offset) :=
  (faultsIn_to_uint16_t_little_endian data offset).bind fun _ _ => within_ok _ _

theorem faultsIn_read_man_data (data : Bytes) : FaultsIn [.manData] (read_man_data data) := by
  have hi (i : Nat) : FaultsIn [.manData] (index .parse_man_data data i) :=
    faultsIn_index (by decide) data i
  have hw := faultsIn_to_uint16_t_little_endian data
  have hd := faultsIn_to_ymd data
  apply (hi 0).bind
  intro _ _
  apply (hi 1).bind
  intro _ _
  apply (hi 2).bind
  intro _ _
  apply (hw 4).bind
  intro _ _
  apply (hw 6).bind
  intro _ _
  apply (hw 8).bind
  intro _ _
  apply (hd 10).bind
  intro _ _
  apply (hd 12).bind
  intro _ _
  apply (hi 14).bind
  intro _ _
  exact (hi 15).bind fun _ _ => within_ok _ _

theorem faultsIn_parse_man_data (data : Bytes) (doc : Option (List XMLElement)) (w : World) :
    FaultsIn [.manData, .machineFile] (parse_man_data data doc w) := by
  apply (faultsIn_weaken (faultsIn_read_man_data data) (by decide)).bind
  intro manData _
  simp only
  split
  · exact within_error (by decide)
  · exact (faultsIn_weaken (faultsIn_load_joe _ doc) (by decide)).bind fun _ _ => within_ok _ _

theorem faultsIn_store_option {value : Except Fault CString} (h : FaultsIn [.brew] value)
    (argument : CString) (command : List CString) :
    FaultsIn [.brew] (store_option argument value command) := by
  unfold store_option
  split
  · simp only
    apply h.bind
    intro v _
    split
    · exact within_ok _ _
    · exact within_error (by decide)
  · exact within_ok _ _

theorem faultsIn_items_to_bt_command (o : ItemsOption) (command : List CString) :
    FaultsIn [.brew] (o.to_bt_command command) :=
  faultsIn_store_option (within_ok _ _) _ _

theorem faultsIn_min_max_to_bt_command (o : MinMaxOption) (command : List CString) :
    FaultsIn [.brew] (o.to_bt_command command) := by
  apply faultsIn_store_option
  split
  · exact within_error (by decide)
  · exact within_ok _ _

theorem faultsIn_to_bt_command_if {f : α → List CString → Except Fault (List CString)}
    (h : ∀ o command, FaultsIn [.brew] (f o command)) (option : Option α)
    (command : List CString) : FaultsIn [.brew] (to_bt_command_if f option command) := by
  unfold to_bt_command_if
  split
  · exact h _ _
  · exact within_ok _ _

theorem faultsIn_to_bt_command (p : Product) : FaultsIn [.brew] p.to_bt_command := by
  apply (faultsIn_to_bt_command_if faultsIn_items_to_bt_command _ _).bind
  intro _ _
  apply (faultsIn_to_bt_command_if faultsIn_items_to_bt_command _ _).bind
  intro _ _
  apply (faultsIn_to_bt_command_if faultsIn_min_max_to_bt_command _ _).bind
  intro _ _
  apply (faultsIn_to_bt_command_if faultsIn_min_max_to_bt_command _ _).bind
  exact fun _ _ => within_ok _ _

theorem faultsIn_write (uuid : Uuid) (data : Bytes) (encode overrideKey : Bool) (written : Int)
    (w : World) : FaultsIn [.payload] (write uuid data encode overrideKey written w) := by
  unfold write
  split
  · split
    · exact within_error (by decide)
    · exact within_ok _ _
  · exact within_ok _ _

theorem faultsIn_request_coffee (written : Int) (w : World) :
    FaultsIn [.hex, .payload] (request_coffee written w) := by
  apply (faultsIn_weaken (faultsIn_from_hex_string _) (by decide)).bind
  exact fun _ _ => faultsIn_weaken (faultsIn_write _ _ _ _ _ _) (by decide)

theorem faultsIn_request_coffee_product (product : Product) (written : Int) (w : World) :
    FaultsIn [.brew, .hex, .payload] (request_coffee_product product written w) := by
  apply (faultsIn_weaken (faultsIn_to_bt_command product) (by decide)).bind
  intro _ _
  apply (faultsIn_weaken (faultsIn_from_hex_string _) (by decide)).bind
  exact fun _ _ => faultsIn_weaken (faultsIn_write _ _ _ _ _ _) (by decide)

theorem faultsIn_start_heartbeat (w : World) : FaultsIn [.lifecycle] (start_heartbeat w) := by
  unfold start_heartbeat
  split
  · exact within_error (by decide)
  · exact within_ok _ _

theorem faultsIn_join (w : World) : FaultsIn [.lifecycle] (join w) := by
  unfold join
  split
  · exact within_ok _ _
  · exact within_error (by decide)

theorem faultsIn_disconnect (written : Int) (w : World) :
    FaultsIn [.payload, .lifecycle] (disconnect written w) := by
  unfold disconnect
  split
  · apply (faultsIn_weaken (faultsIn_write _ _ _ _ _ _) (by decide)).bind
    intro _ _
    apply (faultsIn_weaken (faultsIn_join _) (by decide)).bind
    exact fun _ _ => within_ok _ _
  · exact within_ok _ _

theorem faultsIn_on_disconnected (written : Int) (w : World) :
    FaultsIn [.payload, .lifecycle]
      (BLEDevice.on_disconnected (on_disconnected written) w) := by
  unfold BLEDevice.on_disconnected on_disconnected
  split
  · split
    · exact faultsIn_disconnect _ _
    · exact within_ok _ _
  · exact within_ok _ _

end JuttaProto
