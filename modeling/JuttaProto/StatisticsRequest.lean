import JuttaProto.Connecting

namespace JuttaProto
open Run
set_option autoImplicit true

def pollReady (polls : Nat → Option Bytes) (n i : Nat) (w : World) : Bool :=
  w.maker.bleDevice.connected &&
    (List.range' i n).any fun j => (polls j).any fun reply => readyReply reply w.key

theorem read_statistics_command (reply : Option Bytes) (w : World) :
    BLEDevice.read_characteristic reply STATISTICS_COMMAND_CHARACTERISTIC_UUID w =
      .ok (match w.maker.bleDevice.connected, reply with
        | true, some data => setReady (readyReply data w.key) w
        | _, _ => w) := by
  unfold BLEDevice.read_characteristic
  cases w.maker.bleDevice.connected with
  | false => rfl
  | true =>
    cases reply with
    | none => rfl
    | some data => rfl

/-- The loop ends with the flag set exactly if it was set before or one of the polls sets it,
and changes nothing else. -/
theorem pollLoop_eq (polls : Nat → Option Bytes) (n i : Nat) (w : World) :
    pollLoop polls n i w =
      .ok (setReady (w.maker.statDataReady || pollReady polls n i w) w) := by
  induction n generalizing i w with
  | zero =>
    rw [pollLoop, pollReady, List.range'_zero, List.any_nil, Bool.and_false, Bool.or_false]
    rfl
  | succ n ih =>
    rw [pollLoop]
    cases hr : w.maker.statDataReady with
    | true =>
      rw [if_pos rfl, Bool.true_or, ← hr]
      rfl
    | false =>
      rw [if_neg Bool.false_ne_true, read_statistics_command, ok_bind, ih]
      simp only [pollReady, List.range'_succ, List.any_cons, Bool.false_or]
      cases hc : w.maker.bleDevice.connected with
      | false => simp only [hr, hc, Bool.false_and, Bool.or_false]
      | true =>
        cases polls i with
        | none =>
          simp only [hr, hc, Bool.true_and, Bool.false_or, Option.any_none]
        | some data =>
          have hm (b : Bool) : (setReady b w).maker.bleDevice.connected = true := hc
          simp only [hm, Bool.true_and, Option.any_some]
          rfl

/-- The coffee maker when the last read of a request for statistics begins. -/
def polled (replies : StatReplies) (mode : StatParseMode) (written : Int) (w : World) : World :=
  let w' := BLEDevice.write STATISTICS_COMMAND_CHARACTERISTIC_UUID
    (encDecBytes (override w.key true (build_stats_cmd mode)) w.key) written w
  { w' with maker := { w.maker with
      statParserMode := some mode, statDataReady := pollReady replies.polls 20 0 w } }

theorem build_stats_cmd_ne_nil (mode : StatParseMode) : build_stats_cmd mode ≠ [] := by
  cases mode <;> decide

/-- The last read is issued on both exits of the loop. -/
theorem request_statistics_eq (replies : StatReplies) (mode : StatParseMode) (written : Int)
    (w : World) :
    request_statistics replies mode written w =
      BLEDevice.read_characteristic replies.data STATISTICS_DATA_CHARACTERISTIC_UUID
        (polled replies mode written w) := by
  simp only [request_statistics, write_ne_nil (build_stats_cmd_ne_nil mode), ok_bind,
    pollLoop_eq]
  rfl

theorem faultsIn_request_statistics (replies : StatReplies) (mode : StatParseMode)
    (written : Int) (w : World) :
    FaultsIn [.receive, .hex] (request_statistics replies mode written w) := by
  rw [request_statistics_eq]
  exact faultsIn_read_characteristic _ _ _

theorem request_statistics_link (h : request_statistics replies mode written w = .ok w') :
    w'.link = w.link := by
  rw [request_statistics_eq] at h
  have hl : w'.link = (polled replies mode written w).link := read_characteristic_link h
  exact hl

theorem read_statistics_data (data : Bytes) (w : World) :
    on_characteristic_read data STATISTICS_DATA_CHARACTERISTIC_UUID w =
      parse_statistics_data data w.key w := rfl

def Joe.tables (joe : Joe) :
    UInt64 × List UInt64 × Table MaintenanceCounter × Table MaintenancePercentage :=
  (joe.statTotalCount, joe.products.map (·.statCounter), joe.maintenanceCounters,
    joe.maintenancePercentages)

def StatisticsTaken (w w' : World) : Prop :=
  w'.maker.joe.map Joe.tables ≠ w.maker.joe.map Joe.tables ∨
    ∃ i ∈ w'.events.drop w.events.length, i.event.isStatistics

instance : Decidable (StatisticsTaken w w') := inferInstanceAs (Decidable (_ ∨ _))

def CommandSucceeded (w w' : World) : Prop :=
  (∃ c ∈ w'.wire.drop w.wire.length,
    c.characteristic = STATISTICS_COMMAND_CHARACTERISTIC_UUID ∧ c.result) ∧
    w'.maker.statDataReady

instance : Decidable (CommandSucceeded w w') := inferInstanceAs (Decidable (_ ∧ _))

theorem polled_not_taken (replies : StatReplies) (mode : StatParseMode) (written : Int)
    (w : World) : ¬StatisticsTaken w (polled replies mode written w) := by
  intro h
  rcases h with h | ⟨i, hi, _⟩
  · exact h rfl
  · have he : (polled replies mode written w).events = w.events := rfl
    rw [he, List.drop_length] at hi
    cases hi

theorem updateJoe_taken {w w' : World} (he : w'.events = w.events)
    (hs : event.isStatistics) (joe : Joe) : StatisticsTaken w (updateJoe event joe w') := by
  refine .inr ⟨⟨event, { w'.maker with joe := some joe }⟩, ?_, hs⟩
  rw [updateJoe, emit, he, List.drop_left]
  exact List.mem_singleton.2 rfl

theorem commandSucceeded_polled_iff (hw : w'.wire = (polled replies mode written w).wire)
    (hr : w'.maker.statDataReady = (polled replies mode written w).maker.statDataReady)
    (hc : w.maker.bleDevice.connected = true) :
    CommandSucceeded w w' ↔ written = GATTLIB_SUCCESS ∧
      ∃ i < 20, ∃ reply, replies.polls i = some reply ∧ readyReply reply w.key := by
  have hwire : (polled replies mode written w).wire = w.wire ++
      [⟨STATISTICS_COMMAND_CHARACTERISTIC_UUID,
        encDecBytes (override w.key true (build_stats_cmd mode)) w.key,
        w.maker.bleDevice.connected && written == GATTLIB_SUCCESS⟩] := rfl
  have hready : (polled replies mode written w).maker.statDataReady =
      pollReady replies.polls 20 0 w := rfl
  rw [CommandSucceeded, hw, hr, hwire, hready, List.drop_left, pollReady, hc]
  simp only [List.mem_singleton, exists_eq_left, Bool.true_and, beq_iff_eq, true_and,
    List.any_eq_true, List.mem_range'_1, Nat.zero_le, Nat.zero_add, Option.any_eq_true]

def OnlyOnSuccess (w w' : World) : Prop := StatisticsTaken w w' → CommandSucceeded w w'

instance : Decidable (OnlyOnSuccess w w') := inferInstanceAs (Decidable (_ → _))

/-- A request that completes takes statistics only on success exactly when it reads no data, or
when its command has been written and a poll has found the device ready. -/
theorem request_statistics_onlyOnSuccess_iff
    (h : request_statistics replies mode written w = .ok w') :
    OnlyOnSuccess w w' ↔ w.maker.bleDevice.connected = false ∨ replies.data = none ∨
      (written = GATTLIB_SUCCESS ∧
        ∃ i < 20, ∃ reply, replies.polls i = some reply ∧ readyReply reply w.key) := by
  rw [request_statistics_eq] at h
  have hc' : (polled replies mode written w).maker.bleDevice.connected =
      w.maker.bleDevice.connected := rfl
  unfold BLEDevice.read_characteristic at h
  rw [hc'] at h
  cases hc : w.maker.bleDevice.connected with
  | false =>
    rw [hc, if_neg Bool.false_ne_true] at h
    cases h
    apply iff_of_true
    · intro ht
      exact absurd ht (polled_not_taken _ _ _ _)
    · exact .inl rfl
  | true =>
    rw [hc, if_pos rfl] at h
    cases hd : replies.data with
    | none =>
      rw [hd] at h
      cases h
      apply iff_of_true
      · intro ht
        exact absurd ht (polled_not_taken _ _ _ _)
      · exact .inr (.inl rfl)
    | some data =>
      simp only [hd, read_statistics_data] at h
      obtain ⟨_, event, joe, _, hs, _, he⟩ := parse_statistics_data_taken rfl h
      have ht : StatisticsTaken w w' := he ▸ updateJoe_taken rfl hs joe
      have hiff : CommandSucceeded w w' ↔ _ :=
        commandSucceeded_polled_iff (by rw [he]; rfl) (by rw [he]; rfl) hc
      rw [← hiff]
      simp only [Bool.true_eq_false, reduceCtorEq, false_or]
      exact ⟨fun h => h ht, fun h _ => h⟩

theorem request_statistics_onlyOnSuccess_ready :
    ∃ w', request_statistics ⟨fun _ => some (encDecBytes [0x0E, 0] 42), some [0, 0]⟩
        .MAINTENANCE_COUNTER GATTLIB_SUCCESS exampleWorld = .ok w' ∧
      OnlyOnSuccess exampleWorld w' := by
  have h : ∃ w', request_statistics ⟨fun _ => some (encDecBytes [0x0E, 0] 42), some [0, 0]⟩
      .MAINTENANCE_COUNTER GATTLIB_SUCCESS exampleWorld = .ok w' ∧ True := by decide +kernel
  obtain ⟨w', hw, _⟩ := h
  exact ⟨w', hw, (request_statistics_onlyOnSuccess_iff hw).2
    (.inr (.inr ⟨rfl, 0, by decide, encDecBytes [0x0E, 0] 42, rfl, by decide +kernel⟩))⟩

/-- The device never becomes ready, but the frame that it returns is stored. -/
theorem request_statistics_unready_stored :
    ∃ w', request_statistics ⟨fun _ => some (encDecBytes [0x00, 0] 42),
        some (encDecBytes [0x00, 0x05] 42)⟩
        .MAINTENANCE_COUNTER GATTLIB_SUCCESS exampleWorld = .ok w' ∧
      ¬OnlyOnSuccess exampleWorld w' ∧
      w'.maker.joe.map (·.maintenanceCounters.rows) = some [⟨cstr "Cleaning", 5⟩] := by
  decide +kernel

end JuttaProto
