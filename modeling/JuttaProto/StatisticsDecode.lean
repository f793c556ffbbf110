import JuttaProto.Session

namespace JuttaProto
open Run BigEndian
set_option autoImplicit true

def StatParseMode.width : StatParseMode → Nat
  | .PRODUCT_COUNTERS => 3
  | .MAINTENANCE_COUNTER => 2
  | .MAINTENANCE_PERCENT => 1

/-- The value of a block in a frame that holds the first `n` bytes of the encoded blocks: the
block itself if the frame holds all of it, and 0 otherwise. -/
def received (width : Nat) (blocks : List Nat) (n i : Nat) : Nat :=
  if (i + 1) * width ≤ n then blocks.getD i 0 else 0

/-- The counter of a product. The largest value of two bytes marks a counter as invalid. -/
def validCount (value : Nat) : Nat := if value = 0xFFFF then 0 else value

def Product.block (p : Product) : Nat :=
  match p.code_to_size_t with
  | .ok code => code.toNat
  | .error _ => 0

def Joe.withStatistics (joe : Joe) (value : Nat → Nat) : StatParseMode → Joe
  | .PRODUCT_COUNTERS => { joe with
      statTotalCount := UInt64.ofNat (value 0)
      products := joe.products.map fun p =>
        { p with statCounter := UInt64.ofNat (validCount (value p.block)) } }
  | .MAINTENANCE_COUNTER => { joe with
      maintenanceCounters := joe.maintenanceCounters.mapIdx fun i row =>
        { row with count := UInt16.ofNat (value i) } }
  | .MAINTENANCE_PERCENT => { joe with
      maintenancePercentages := joe.maintenancePercentages.mapIdx fun i row =>
        { row with percent := UInt8.ofNat (value i) } }

def Joe.statisticsEvent (joe : Joe) : StatParseMode → Event
  | .PRODUCT_COUNTERS => .productStatisticCountersChanged joe
  | .MAINTENANCE_COUNTER => .maintenanceCountersChanged joe.maintenanceCounters
  | .MAINTENANCE_PERCENT => .maintenancePercentagesChanged joe.maintenancePercentages

theorem parse_product_counter_ok (data : Bytes) {p : Product} (h : twoHexDigits p.code) :
    parse_product_counter data p = .ok { p with
      statCounter := UInt64.ofNat (validCount (blockValue 3 data p.block)) } := by
  obtain ⟨v, _, hv⟩ := code_to_size_t_twoHexDigits h
  have hlt := v.toNat_lt
  have hn : v.toUInt64.toNat = v.toNat := UInt8.toNat_toUInt64 v
  have hb : p.block = v.toNat := by rw [Product.block, hv]; exact hn
  rw [parse_product_counter, hv, ok_bind,
    get_stat_val_ok (by rw [hn]; simp only [UInt64.reduceToNat]; omega) (by decide), ok_bind, hn,
    hb]
  have h3 : (3 : UInt64).toNat = 3 := rfl
  rw [h3, validCount]
  have hlt' : blockValue 3 data v.toNat < 256 ^ 3 := blockValue_lt 3 data v.toNat
  by_cases hx : blockValue 3 data v.toNat = 0xFFFF
  · rw [hx]
    rfl
  · have hne : UInt64.ofNat (blockValue 3 data v.toNat) ≠ 0xFFFF := by
      intro he
      have ht := congrArg UInt64.toNat he
      rw [UInt64.toNat_ofNat'] at ht
      simp only [UInt64.reduceToNat] at ht
      omega
    rw [if_pos hne, if_neg hx]
    rfl

theorem mode_parse_ok (mode : StatParseMode) (data : Bytes) (hj : w.maker.joe = some joe)
    (hc : ∀ p ∈ joe.products, twoHexDigits p.code) :
    mode.parse data w = .ok (updateJoe
      ((joe.withStatistics (blockValue mode.width data) mode).statisticsEvent mode)
      (joe.withStatistics (blockValue mode.width data) mode) w) := by
  cases mode with
  | PRODUCT_COUNTERS =>
    have hp := mapM_ok fun p hp => parse_product_counter_ok data (hc p hp)
    simp only [StatParseMode.parse, parse_product_counter_data, hj, total_count_ok, hp, ok_bind]
    rfl
  | MAINTENANCE_COUNTER =>
    rw [StatParseMode.parse, parse_maintainence_counter_data_ok data hj]
    simp only [counterTable, UInt64.toUInt16_ofNat']
    rfl
  | MAINTENANCE_PERCENT =>
    rw [StatParseMode.parse, parse_maintainence_percent_data_ok data hj]
    simp only [percentTable, UInt64.toUInt8_ofNat']
    rfl

theorem width_pos (mode : StatParseMode) : 0 < mode.width := by
  cases mode <;> decide

/-- Statistics that the device has encoded are stored as they were, as far as the frame holds
them, and the event of their mode is the only one. -/
theorem statistics_decoded (n : Nat) (hm : w.maker.statParserMode = some mode)
    (hj : w.maker.joe = some joe) (hc : ∀ p ∈ joe.products, twoHexDigits p.code)
    (hb : ∀ b ∈ blocks, b < 256 ^ mode.width) :
    ∃ joe', joe' = joe.withStatistics (received mode.width blocks n) mode ∧
      on_characteristic_read
        ((encDecBytes (blocks.flatMap (encode mode.width)) w.key).take n)
        STATISTICS_DATA_CHARACTERISTIC_UUID w =
      .ok { w with
        maker := { w.maker with joe := some joe' }
        events := w.events ++
          [⟨joe'.statisticsEvent mode, { w.maker with joe := some joe' }⟩] } := by
  refine ⟨_, rfl, ?_⟩
  have hv : blockValue mode.width ((blocks.flatMap (encode mode.width)).take n) =
      received mode.width blocks n := by
    funext i
    rw [blockValue_take_flatMap_encode (width_pos mode) hb n i]
    rfl
  change parse_statistics_data _ w.key w = _
  rw [parse_statistics_data_mode hm, encDecBytes_take, mode_parse_ok mode _ hj hc, hv]
  rfl

def exampleRequested : World :=
  { exampleWorld with
    maker := { exampleWorld.maker with statParserMode := some .MAINTENANCE_COUNTER } }

theorem statistics_decoded_example :
    ∃ joe', joe' = exampleJoe.withStatistics
        (received (StatParseMode.width .MAINTENANCE_COUNTER) [0x0102, 0x0304] 3)
        .MAINTENANCE_COUNTER ∧
      on_characteristic_read
        ((encDecBytes ([0x0102, 0x0304].flatMap
          (encode (StatParseMode.width .MAINTENANCE_COUNTER))) exampleRequested.key).take 3)
        STATISTICS_DATA_CHARACTERISTIC_UUID exampleRequested =
      .ok { exampleRequested with
        maker := { exampleRequested.maker with joe := some joe' }
        events := exampleRequested.events ++ [⟨joe'.statisticsEvent .MAINTENANCE_COUNTER,
          { exampleRequested.maker with joe := some joe' }⟩] } := by
  have hc : ∀ p ∈ exampleJoe.products, twoHexDigits p.code := by decide
  have hb : ∀ b ∈ [0x0102, 0x0304], b < 256 ^ StatParseMode.width .MAINTENANCE_COUNTER := by
    decide
  exact statistics_decoded 3 rfl rfl hc hb

end JuttaProto
