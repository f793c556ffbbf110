import JuttaProto.StatValue

namespace JuttaProto
open Run BigEndian
set_option autoImplicit true

theorem toNat_ofNat_row {t : Table α} (h : t.rows[i]? = some a) :
    (UInt64.ofNat i).toNat = i := by
  have hi := (List.getElem?_eq_some_iff.1 h).1
  have hs := t.size_lt
  rw [UInt64.toNat_ofNat']
  omega

def percentTable (data : Bytes) (t : Table MaintenancePercentage) : Table MaintenancePercentage :=
  t.mapIdx fun i row => { row with percent := (UInt64.ofNat (blockValue 1 data i)).toUInt8 }

def counterTable (data : Bytes) (t : Table MaintenanceCounter) : Table MaintenanceCounter :=
  t.mapIdx fun i row => { row with count := (UInt64.ofNat (blockValue 2 data i)).toUInt16 }

def Joe.tableTypes (joe : Joe) : List CString × List CString :=
  (joe.maintenanceCounters.rows.map (·.name), joe.maintenancePercentages.rows.map (·.name))

structure Joe.SameFile (joe' joe : Joe) : Prop where
  alerts : joe'.alerts = joe.alerts
  tableTypes : joe'.tableTypes = joe.tableTypes

theorem percentTable_names (data : Bytes) (t : Table MaintenancePercentage) :
    (percentTable data t).rows.map (·.name) = t.rows.map (·.name) := by
  apply Table.map_mapIdx
  intro _ _
  rfl

theorem counterTable_names (data : Bytes) (t : Table MaintenanceCounter) :
    (counterTable data t).rows.map (·.name) = t.rows.map (·.name) := by
  apply Table.map_mapIdx
  intro _ _
  rfl

def updateJoe (event : Event) (joe : Joe) (w : World) : World :=
  emit event { w with maker := { w.maker with joe := some joe } }

theorem parse_maintainence_percent_data_ok (data : Bytes) (hj : w.maker.joe = some joe) :
    parse_maintainence_percent_data data w =
      .ok (updateJoe (.maintenancePercentagesChanged (percentTable data joe.maintenancePercentages))
        { joe with maintenancePercentages := percentTable data joe.maintenancePercentages } w) := by
  have hrow (i : Nat) (row : MaintenancePercentage)
      (h : joe.maintenancePercentages.rows[i]? = some row) :
      (do let v ← get_stat_val data (UInt64.ofNat i) 1
          return { row with percent := v.toUInt8 }) =
        (.ok { row with percent := (UInt64.ofNat (blockValue 1 data i)).toUInt8 } :
          Except Fault MaintenancePercentage) := by
    have hn := toNat_ofNat_row h
    have hi := (List.getElem?_eq_some_iff.1 h).1
    have hs := joe.maintenancePercentages.size_lt
    rw [get_stat_val_ok (by rw [hn]; simp only [UInt64.reduceToNat]; omega) (by decide), hn]
    rfl
  simp only [parse_maintainence_percent_data, hj, Table.mapIdxM_ok hrow, ok_bind]
  rfl

theorem parse_maintainence_counter_data_ok (data : Bytes) (hj : w.maker.joe = some joe) :
    parse_maintainence_counter_data data w =
      .ok (updateJoe (.maintenanceCountersChanged (counterTable data joe.maintenanceCounters))
        { joe with maintenanceCounters := counterTable data joe.maintenanceCounters } w) := by
  have hrow (i : Nat) (row : MaintenanceCounter)
      (h : joe.maintenanceCounters.rows[i]? = some row) :
      (do let v ← get_stat_val data (UInt64.ofNat i) 2
          return { row with count := v.toUInt16 }) =
        (.ok { row with count := (UInt64.ofNat (blockValue 2 data i)).toUInt16 } :
          Except Fault MaintenanceCounter) := by
    have hn := toNat_ofNat_row h
    have hi := (List.getElem?_eq_some_iff.1 h).1
    have hs := joe.maintenanceCounters.size_lt
    rw [get_stat_val_ok (by rw [hn]; simp only [UInt64.reduceToNat]; omega) (by decide), hn]
    rfl
  simp only [parse_maintainence_counter_data, hj, Table.mapIdxM_ok hrow, ok_bind]
  rfl

theorem total_count_ok (data : Bytes) :
    get_stat_val data 0 3 = .ok (UInt64.ofNat (blockValue 3 data 0)) :=
  get_stat_val_ok (by decide) (by decide)

theorem faultsIn_parse_product_counter (data : Bytes) (p : Product) :
    FaultsIn [.receive, .hex] (parse_product_counter data p) := by
  apply (faultsIn_weaken (faultsIn_code_to_size_t p) (by decide)).bind
  intro code _
  apply (faultsIn_weaken (faultsIn_get_stat_val data code 3) (by decide)).bind
  intro result _
  split
  · exact within_ok _ _
  · exact within_ok _ _

theorem parse_product_counter_safe_iff {data : Bytes} {p : Product} :
    NeverIn .receive (parse_product_counter data p) ↔
      ∀ code, p.code_to_size_t = .ok code → ¬StatReadWraps data.length code 3 := by
  have hcode : NeverIn .receive p.code_to_size_t :=
    neverIn_of_faultsIn (faultsIn_code_to_size_t p) (by decide)
  rw [parse_product_counter, neverIn_bind_iff]
  constructor
  · intro h code hc
    exact get_stat_val_safe_iff.1 (neverIn_bind_iff.1 (h.2 code hc)).1
  · intro h
    refine ⟨hcode, fun code hc => neverIn_bind_iff.2 ⟨get_stat_val_safe_iff.2 (h code hc), ?_⟩⟩
    intro result _
    split
    · exact avoids_ok _ _
    · exact avoids_ok _ _

/-- No product is read across the end of the address space. A product whose code is not
hexadecimal ends the program before the products behind it are reached. -/
def ProductsReadable (size : Nat) : List Product → Prop
  | [] => True
  | p :: products =>
    ∀ code, p.code_to_size_t = .ok code →
      ¬StatReadWraps size code 3 ∧ ProductsReadable size products

theorem products_safe_iff {data : Bytes} {products : List Product} :
    NeverIn .receive (products.mapM (parse_product_counter data)) ↔
      ProductsReadable data.length products := by
  induction products with
  | nil => exact neverIn_ok_iff trivial _
  | cons p products ih =>
    rw [List.mapM_cons, neverIn_bind_iff, parse_product_counter_safe_iff, ProductsReadable]
    have hrest (p' : Product) : NeverIn .receive
        (do let ps ← products.mapM (parse_product_counter data); pure (p' :: ps)) ↔
        ProductsReadable data.length products := by
      rw [← ih, neverIn_bind_iff]
      exact ⟨fun h => h.1, fun h => ⟨h, fun _ _ => avoids_ok _ _⟩⟩
    constructor
    · intro ⟨hp, hps⟩ code hc
      have hv := hp code hc
      refine ⟨hv, ?_⟩
      obtain ⟨result, hr⟩ := ok_of_avoids (get_stat_val_safe_iff.2 hv)
        ((faultsIn_get_stat_val data code 3).mono fun _ h => List.mem_singleton.1 h)
      cases hpc : parse_product_counter data p with
      | error e =>
        simp only [parse_product_counter, hc, hr, ok_bind] at hpc
        split at hpc <;> cases hpc
      | ok p' => exact (hrest p').1 (hps p' hpc)
    · intro h
      refine ⟨fun code hc => (h code hc).1, fun p' hp => (hrest p').2 ?_⟩
      obtain ⟨code, hc, _⟩ := bind_ok hp
      exact (h code hc).2

end JuttaProto
