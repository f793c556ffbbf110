import JuttaProto.Changes
import JuttaProto.MachineTable
import JuttaProto.WireSafety

namespace JuttaProto
open Lines Run
set_option autoImplicit true

/-- What a machine file says, without the values of the statistics. -/
structure Description where
  dated : CString
  machine : Machine
  products : List Product
  alerts : List Alert
  maintenanceCounters : List CString
  maintenancePercentages : List CString
  deriving DecidableEq, Repr

def Product.uncounted (p : Product) : Product := { p with statCounter := 0 }

def Joe.description (joe : Joe) : Description where
  dated := joe.dated
  machine := joe.machine
  products := joe.products.map Product.uncounted
  alerts := joe.alerts
  maintenanceCounters := joe.maintenanceCounters.rows.map (·.name)
  maintenancePercentages := joe.maintenancePercentages.rows.map (·.name)

def World.loaded (w : World) : ManufacturerData × Option Description :=
  (w.maker.manData, w.maker.joe.map Joe.description)

def ConnectReplies.loads (g : ConnectReplies) (machines : List Machine) :
    Except Fault (ManufacturerData × Option Description) := do
  let manData ← read_man_data (g.manData.getD [])
  match findArticle manData.articleNumber.toUInt64 machines with
  | none => .error .exit
  | some machine => do
    let joe ← load_joe machine g.doc
    return (manData, some joe.description)

theorem parse_product_counter_uncounted (h : parse_product_counter data p = .ok p') :
    p'.uncounted = p.uncounted := by
  obtain ⟨_, _, h⟩ := bind_ok h
  obtain ⟨_, _, h⟩ := bind_ok h
  split at h
  · cases h
    rfl
  · cases h
    rfl

theorem products_uncounted {products products' : List Product}
    (h : products.mapM (parse_product_counter data) = .ok products') :
    products'.map Product.uncounted = products.map Product.uncounted := by
  have hp := mapM_forall₂ h
  clear h
  induction hp with
  | nil => rfl
  | cons hp _ ih => rw [List.map_cons, List.map_cons, parse_product_counter_uncounted hp, ih]

theorem mode_parse_loaded (h : StatParseMode.parse mode data w = .ok w') :
    w'.loaded = w.loaded := by
  cases hj : w.maker.joe with
  | none =>
    rw [mode_parse_none hj] at h
    cases h
  | some joe =>
    have hupdate {event : Event} {joe' : Joe} (hd : joe'.description = joe.description) :
        (updateJoe event joe' w).loaded = w.loaded := by
      rw [World.loaded, World.loaded, hj, Option.map_some, ← hd]
      rfl
    cases mode with
    | PRODUCT_COUNTERS =>
      simp only [StatParseMode.parse, parse_product_counter_data, hj, total_count_ok,
        ok_bind] at h
      obtain ⟨products, hp, h⟩ := bind_ok h
      cases h
      apply hupdate
      rw [Joe.description, Joe.description, products_uncounted hp]
    | MAINTENANCE_COUNTER =>
      rw [StatParseMode.parse, parse_maintainence_counter_data_ok data hj] at h
      cases h
      apply hupdate
      rw [Joe.description, Joe.description, counterTable_names]
    | MAINTENANCE_PERCENT =>
      rw [StatParseMode.parse, parse_maintainence_percent_data_ok data hj] at h
      cases h
      apply hupdate
      rw [Joe.description, Joe.description, percentTable_names]

theorem on_characteristic_read_loaded (h : on_characteristic_read data uuid w = .ok w') :
    w'.loaded = w.loaded := by
  rcases on_characteristic_read_cases h with
    he | he | ⟨joe, payload, _, _, he⟩ | ⟨_, he⟩ | ⟨rfl, _⟩
  · rw [he]
  · rw [he, updateAbout]
    split <;> rfl
  · rw [he, updateAlerts]
    split <;> rfl
  · rw [he]
    rfl
  · rw [read_statistics_data] at h
    cases hm : w.maker.statParserMode with
    | none =>
      rw [parse_statistics_data, hm] at h
      cases h
      rfl
    | some mode =>
      rw [parse_statistics_data_mode hm] at h
      exact mode_parse_loaded h

theorem loaded_closed : Closed (fun _ => False) fun w w' => w'.loaded = w.loaded where
  trans := fun h h' => h'.trans h
  hidden := by
    intro w w' hm _
    simp only [CoffeeMaker.shown, Shown.mk.injEq] at hm
    rw [World.loaded, World.loaded, hm.2.1, hm.2.2.2.1]
  state := by
    intro state w
    rw [World.loaded, set_state_maker]
    rfl
  received := on_characteristic_read_loaded
  parsed := fun hd => absurd hd id

theorem parse_man_data_loaded (h : parse_man_data (g.manData.getD []) g.doc w = .ok w') :
    ConnectReplies.loads g w.maker.machines = .ok w'.loaded := by
  obtain ⟨manData, hm, h⟩ := bind_ok h
  simp only at h
  split at h
  · cases h
  · rename_i machine hf
    obtain ⟨joe, hj, h⟩ := bind_ok h
    cases h
    have hfind : findArticle manData.articleNumber.toUInt64 w.maker.machines = some machine := hf
    rw [ConnectReplies.loads, hm, ok_bind, hfind]
    simp only [hj, ok_bind]
    rfl

theorem LinkInv.connect_loaded (h : LinkInv w)
    (hc : JuttaProto.connect g written w = .ok (w', b)) :
    if LinkOpens g then g.loads w.maker.machines = .ok w'.loaded else w'.loaded = w.loaded := by
  by_cases hi : w.maker.bleDevice.idle
  · by_cases hg : LinkOpens g
    · rw [if_pos hg]
      rw [connect_opens hi hg] at hc
      obtain ⟨w₁, h₁, hc⟩ := bind_ok hc
      have hl := linkUp_link h₁
      simp only [World.link, Prod.mk.injEq] at hl
      by_cases hm : g.manData.getD [] = []
      · rw [on_connected_asserts written hm (by rw [hl.1]; rfl)
          (by rw [hl.2.2.1]; exact h.heartbeat_of_not_connected hi.2)] at hc
        cases hc
      · obtain ⟨w₂, h₂, he⟩ := map_ok hc
        cases he
        rw [on_connected, if_neg hm] at h₂
        obtain ⟨w₃, h₃, h₂⟩ := bind_ok h₂
        obtain ⟨w₄, h₄, h₂⟩ := bind_ok h₂
        obtain ⟨w₅, h₅, h₂⟩ := bind_ok h₂
        have hparsed := parse_man_data_loaded h₃
        rw [hl.2.2.2] at hparsed
        rw [hparsed]
        have hrest : (set_state .CONNECTED w₂).loaded = w₃.loaded :=
          loaded_closed.trans (loaded_closed.write h₄) (loaded_closed.trans
            (loaded_closed.read_characteristic h₅) (loaded_closed.trans
              (loaded_closed.start_heartbeat h₂) (loaded_closed.state .CONNECTED w₂)))
        rw [hrest]
    · rw [if_neg hg]
      obtain ⟨n, hn⟩ := connect_fails written hi hg
      rw [hn] at hc
      cases hc
      exact loaded_closed.trans (loaded_closed.state .CONNECTING w)
        (loaded_closed.trans (loaded_closed.withDevice _ _) (loaded_closed.state .DISCONNECTED _))
  · obtain ⟨e, he, _⟩ := connect_asserts g written hi
    rw [he] at hc
    cases hc

/-- The attempt to connect that has found a device last. -/
def lastConnect : Option ConnectReplies → Action → Option ConnectReplies
  | last, .call (.connect g) _ => if LinkOpens g then some g else last
  | last, _ => last

def loadedBy (machines : List Machine) :
    Option ConnectReplies → Except Fault (ManufacturerData × Option Description)
  | none => .ok ({}, none)
  | some g => g.loads machines

theorem LinkInv.step_loaded (h : LinkInv w) (hs : JuttaProto.step w a = .ok w')
    (hl : loadedBy w.maker.machines last = .ok w.loaded) :
    loadedBy w.maker.machines (lastConnect last a) = .ok w'.loaded := by
  have hkept (he : w'.loaded = w.loaded) : loadedBy w.maker.machines last = .ok w'.loaded := by
    rw [he]
    exact hl
  cases a with
  | call c written =>
    have hcall (hne : ∀ g, c ≠ .connect g) : w'.loaded = w.loaded :=
      loaded_closed.call (fun g hc => hne g hc) hs
    cases c with
    | connect g =>
      obtain ⟨⟨w₁, b⟩, hc, he⟩ := map_ok hs
      cases he
      have hload := h.connect_loaded hc
      rw [lastConnect]
      split at hload
      · rename_i hg
        rw [if_pos hg]
        exact hload
      · rename_i hg
        rw [if_neg hg]
        exact hkept hload
    | _ =>
      apply hkept
      apply hcall
      intro g hc
      cases hc
  | notification n => exact hkept (on_characteristic_read_loaded hs)
  | linkLost written => exact hkept (loaded_closed.linkLost hs)

theorem disconnect_machines (h : disconnect written w = .ok w') :
    w'.maker.machines = w.maker.machines := by
  rw [disconnect] at h
  split at h
  · obtain ⟨w₁, h₁, h⟩ := bind_ok h
    obtain ⟨w₂, h₂, h⟩ := bind_ok h
    cases h
    have hm := write_maker h₁
    unfold join at h₂
    split at h₂
    · cases h₂
      rw [set_state_maker, hm, set_state_maker]
    · cases h₂
  · cases h
    rfl

theorem LinkInv.step_machines (h : LinkInv w) (hs : JuttaProto.step w a = .ok w') :
    w'.maker.machines = w.maker.machines := by
  have hlink (hl : w'.link = w.link) : w'.maker.machines = w.maker.machines :=
    congrArg (fun l => l.2.2.2) hl
  cases a with
  | call c written =>
    have hpayload {p : Uuid × Bytes × Bool} (hp : c.payload = some p) :
        w'.maker.machines = w.maker.machines := by
      change Call.issue written w c = .ok w' at hs
      rw [issue_payload hp] at hs
      rw [write_maker hs]
    cases c with
    | connect g =>
      obtain ⟨⟨w₁, b⟩, hc, he⟩ := map_ok hs
      cases he
      rcases h.connect hc with ⟨_, n, hl⟩ | ⟨_, c, n, hl⟩
      · exact congrArg (fun l => l.2.2.2) hl
      · exact congrArg (fun l => l.2.2.2) hl
    | disconnect => exact disconnect_machines hs
    | write_tx _ | write_tx_string _ | shutdown | stay_in_ble | lock | unlock => exact hpayload rfl
    | request_coffee =>
      obtain ⟨_, _, hs⟩ := bind_ok hs
      rw [write_maker hs]
    | request_coffee_product product =>
      obtain ⟨_, _, hs⟩ := bind_ok hs
      obtain ⟨_, _, hs⟩ := bind_ok hs
      rw [write_maker hs]
    | request_statistics replies mode => exact hlink (request_statistics_link hs)
    | request_status _ | request_progress _ | request_about_info _ | read_rx _ =>
      exact hlink (read_characteristic_link hs)
  | notification n => exact hlink (on_characteristic_read_link hs)
  | linkLost written =>
    change BLEDevice.on_disconnected (on_disconnected written) w = .ok w' at hs
    rw [BLEDevice.on_disconnected] at hs
    split at hs
    · rw [on_disconnected] at hs
      split at hs
      · have hm := disconnect_machines hs
        exact hm
      · cases hs
        rfl
    · cases hs
      rfl

theorem LinkInv.run_loaded (h : LinkInv w)
    (hl : loadedBy w.maker.machines last = .ok w.loaded)
    (hr : run JuttaProto.step w acts = .ok w') :
    loadedBy w.maker.machines (acts.foldl lastConnect last) = .ok w'.loaded := by
  induction acts generalizing w last with
  | nil =>
    cases hr
    exact hl
  | cons a acts ih =>
    rw [run_cons] at hr
    obtain ⟨w₁, h₁, hr⟩ := bind_ok hr
    have hloaded := h.step_loaded h₁ hl
    rw [← h.step_machines h₁] at hloaded ⊢
    exact ih (h.step h₁) hloaded hr

theorem loadedBy_rows (rows : List Machine) (last : Option ConnectReplies) :
    loadedBy (rows.foldl emplace []) last = loadedBy rows last := by
  cases last with
  | none => rfl
  | some g =>
    have hfind (articleNumber : UInt64) : findArticle articleNumber (rows.foldl emplace []) =
        findArticle articleNumber rows := findArticle_foldl_emplace articleNumber rows []
    simp only [loadedBy, ConnectReplies.loads, hfind]

/-- From the construction of a coffee maker on, the machine is that of the first row of the machine
table with the article number of the device, and everything but the values of the statistics is as
its machine file had it at the last connect, whatever has been received since. -/
theorem loaded_from_files (hn : 2 ≤ n) {memory : Buffer UInt8 (3 * n)}
    (hload : load_machines path memory (.ok content) = .ok machines)
    (h : run step (World.fresh machines) acts = .ok w) :
    ∃ rows, List.Forall₂ RowTells (lines NEWLINE (withoutMark content)).tail rows ∧
      loadedBy rows (acts.foldl lastConnect none) = .ok w.loaded := by
  rw [load_machines_eq hn] at hload
  obtain ⟨_, rows, hrows, rfl⟩ := tableOf_ok_iff.1 hload
  refine ⟨rows, hrows, ?_⟩
  rw [← loadedBy_rows]
  exact (linkInv_fresh _).run_loaded rfl h

theorem loaded_from_files_example :
    ∃ w, run step (World.fresh [exampleJoe.machine])
        [.call (.connect exampleReplies) GATTLIB_SUCCESS] = .ok w ∧
      ∃ rows, List.Forall₂ RowTells
          (lines NEWLINE (withoutMark (cstr "Article\n15084;S8 (EB);EF536;1"))).tail rows ∧
        loadedBy rows (some exampleReplies) = .ok w.loaded := by
  have hload : load_machines (cstr "JOE_MACHINES.TXT") (exampleMemory 32)
      (.ok (cstr "Article\n15084;S8 (EB);EF536;1")) = .ok [exampleJoe.machine] := by
    decide +kernel
  have h : ∃ w, run step (World.fresh [exampleJoe.machine])
      [.call (.connect exampleReplies) GATTLIB_SUCCESS] = .ok w ∧ True := by
    decide +kernel
  obtain ⟨w, hw, _⟩ := h
  exact ⟨w, hw, loaded_from_files (by decide) hload hw⟩

end JuttaProto
