import JuttaProto.StatisticsDecode
import JuttaProto.TestExec

namespace JuttaProto
open BigEndian Run
set_option autoImplicit true

/-- The counters that a device keeps, a block for each value. -/
structure DeviceCounters where
  blocks : StatParseMode → List Nat
  block_lt : ∀ mode, ∀ b ∈ blocks mode, b < 256 ^ mode.width

namespace DeviceCounters

def value (device : DeviceCounters) (mode : StatParseMode) (i : Nat) : Nat :=
  (device.blocks mode).getD i 0

def frame (device : DeviceCounters) (key : UInt8) (mode : StatParseMode) : Bytes :=
  encDecBytes ((device.blocks mode).flatMap (encode mode.width)) key

/-- The device tells its counters when they are read, and only then. -/
def Answers (device : DeviceCounters) (s : TestExec) : TestTurn → Prop
  | .main r => ∀ mode, s.next = .read_data mode →
      r.reply = some (device.frame s.world.key mode)
  | .notification n => n.uuid ≠ STATISTICS_DATA_CHARACTERISTIC_UUID
  | _ => True

theorem value_lt (device : DeviceCounters) (mode : StatParseMode) (i : Nat) :
    device.value mode i < 256 ^ mode.width := by
  rw [value, List.getD_eq_getElem?_getD]
  cases hb : (device.blocks mode)[i]? with
  | none => exact Nat.pow_pos (by decide)
  | some b => exact device.block_lt mode b (List.mem_of_getElem? hb)

theorem blockValue_frame (device : DeviceCounters) (key : UInt8) (mode : StatParseMode) :
    blockValue mode.width (encDecBytes (device.frame key mode) key) = device.value mode := by
  funext i
  have hv := blockValue_take_flatMap_encode (width_pos mode) (device.block_lt mode)
    ((device.blocks mode).flatMap (encode mode.width)).length i
  rw [List.take_length, length_flatMap_encode] at hv
  rw [frame, encDecBytes_twice, hv, value]
  split
  · rfl
  · rename_i hi
    rw [Nat.mul_le_mul_right_iff (width_pos mode)] at hi
    rw [List.getD_eq_default _ _ (by omega)]

end DeviceCounters

def Joe.Shows (joe : Joe) (device : DeviceCounters) : StatParseMode → Prop
  | .PRODUCT_COUNTERS =>
    joe.statTotalCount.toNat = device.value .PRODUCT_COUNTERS 0 ∧
      ∀ p ∈ joe.products,
        p.statCounter.toNat = validCount (device.value .PRODUCT_COUNTERS p.block)
  | .MAINTENANCE_COUNTER => ∀ i row, joe.maintenanceCounters.rows[i]? = some row →
      row.count.toNat = device.value .MAINTENANCE_COUNTER i
  | .MAINTENANCE_PERCENT => ∀ i row, joe.maintenancePercentages.rows[i]? = some row →
      row.percent.toNat = device.value .MAINTENANCE_PERCENT i

theorem withStatistics_shows (joe : Joe) (device : DeviceCounters) (mode : StatParseMode) :
    (joe.withStatistics (device.value mode) mode).Shows device mode := by
  have hlt (i : Nat) := device.value_lt mode i
  cases mode with
  | PRODUCT_COUNTERS =>
    have hnat {n : Nat} (h : n < 256 ^ 3) : (UInt64.ofNat n).toNat = n :=
      UInt64.toNat_ofNat_of_lt (Nat.lt_trans h (by decide))
    refine ⟨hnat (hlt 0), fun p hp => ?_⟩
    obtain ⟨p, _, rfl⟩ := List.mem_map.1 hp
    refine hnat ?_
    rw [validCount]
    split
    · decide
    · exact hlt p.block
  | MAINTENANCE_COUNTER =>
    intro i row hrow
    obtain ⟨row, _, rfl⟩ : ∃ row', _ ∧ _ = row := by
      simpa only [Joe.withStatistics, Table.mapIdx, List.getElem?_mapIdx,
        Option.map_eq_some_iff] using hrow
    exact UInt16.toNat_ofNat_of_lt (hlt i)
  | MAINTENANCE_PERCENT =>
    intro i row hrow
    obtain ⟨row, _, rfl⟩ : ∃ row', _ ∧ _ = row := by
      simpa only [Joe.withStatistics, Table.mapIdx, List.getElem?_mapIdx,
        Option.map_eq_some_iff] using hrow
    exact UInt8.toNat_ofNat_of_lt (hlt i)

theorem Joe.Shows.withStatistics {joe : Joe} (h : joe.Shows device mode) (hm : mode' ≠ mode)
    (value : Nat → Nat) : (joe.withStatistics value mode').Shows device mode := by
  cases mode' <;> cases mode <;> first | exact h | exact absurd rfl hm

end JuttaProto
