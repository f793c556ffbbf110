import JuttaProto.DeviceCounters
import JuttaProto.KeepAlive
import JuttaProto.LoadedMachine
import JuttaProto.TestReturns

namespace JuttaProto
open BigEndian Run
set_option autoImplicit true

/-- Neither the statistics nor how the next are read has changed. -/
structure Undisturbed (w w' : World) : Prop where
  joe : w'.maker.joe = w.maker.joe
  mode : w'.maker.statParserMode = w.maker.statParserMode

theorem Undisturbed.refl (w : World) : Undisturbed w w := ⟨rfl, rfl⟩

theorem Undisturbed.of_maker {w w' : World} (h : w'.maker = w.maker) : Undisturbed w w' := by
  refine ⟨?_, ?_⟩ <;> rw [h]

theorem on_characteristic_read_kept (h : on_characteristic_read data uuid w = .ok w') :
    w'.maker.statParserMode = w.maker.statParserMode ∧
      (uuid ≠ STATISTICS_DATA_CHARACTERISTIC_UUID → w'.maker.joe = w.maker.joe) := by
  rcases on_characteristic_read_cases h with
    he | he | ⟨joe, payload, _, _, he⟩ | ⟨_, he⟩ | ⟨hs, joe, event, joe', _, _, _, he⟩
  · rw [he]
    exact ⟨rfl, fun _ => rfl⟩
  · rw [he, updateAbout]
    split <;> exact ⟨rfl, fun _ => rfl⟩
  · rw [he, updateAlerts]
    split <;> exact ⟨rfl, fun _ => rfl⟩
  · rw [he]
    exact ⟨rfl, fun _ => rfl⟩
  · rw [he]
    exact ⟨rfl, fun hu => absurd hs hu⟩

theorem read_characteristic_mode (h : BLEDevice.read_characteristic reply uuid w = .ok w') :
    w'.maker.statParserMode = w.maker.statParserMode := by
  rcases read_characteristic_cases h with he | ⟨data, h⟩
  · rw [he]
  · exact (on_characteristic_read_kept h).1

theorem on_characteristic_read_undisturbed (h : on_characteristic_read data uuid w = .ok w')
    (hu : uuid ≠ STATISTICS_DATA_CHARACTERISTIC_UUID) : Undisturbed w w' :=
  ⟨(on_characteristic_read_kept h).2 hu, (on_characteristic_read_kept h).1⟩

theorem read_characteristic_undisturbed
    (h : BLEDevice.read_characteristic reply uuid w = .ok w')
    (hu : uuid ≠ STATISTICS_DATA_CHARACTERISTIC_UUID) : Undisturbed w w' := by
  rcases read_characteristic_cases h with he | ⟨data, h⟩
  · rw [he]
    exact .refl w
  · exact on_characteristic_read_undisturbed h hu

theorem HeartbeatStep.exec_undisturbed {next : HeartbeatStep}
    (h : next.exec written reply w = .ok (w', next')) : Undisturbed w w' := by
  rcases exec_world h with rfl | h | h
  · exact .refl _
  · exact .of_maker (write_maker h)
  · exact read_characteristic_undisturbed h (by decide)

def LoopStep.asked : LoopStep → Option StatParseMode
  | .poll mode _ | .read_data mode => some mode
  | _ => none

/-- The statistics that are read next are taken for what they are. -/
def TestExec.Asked (s : TestExec) : Prop :=
  ∀ mode, s.next.asked = some mode → s.world.maker.statParserMode = some mode

theorem LoopStep.exec_asked {next : LoopStep} (h : next.exec r w = .ok (s, next'))
    (ha : next'.asked = some mode) :
    s.world.maker.statParserMode = some mode ∨
      (next.asked = some mode ∧ s.world.maker.statParserMode = w.maker.statParserMode) := by
  cases exec_taken h with
  | get_state => split at ha <;> cases ha
  | request => exact .inl ha
  | poll _ hw => exact .inr ⟨ha, read_characteristic_mode hw⟩
  | polled => exact .inr ⟨ha, rfl⟩
  | @read_data _ mode => cases mode <;> cases ha
  | connect | sleep | disconnect | wait | done => cases ha

theorem LoopStep.exec_loaded {next : LoopStep} (h : next.exec r w = .ok (s, next')) :
    s.world.loaded = w.loaded := by
  cases exec_taken h with
  | request hw =>
    have hwrite := loaded_closed.write hw
    exact hwrite
  | poll _ hw => exact loaded_closed.read_characteristic hw
  | read_data hw => exact loaded_closed.read_characteristic hw
  | connect | get_state | polled | sleep | disconnect | wait | done => rfl

theorem HeartbeatStep.exec_loaded {next : HeartbeatStep}
    (h : next.exec written reply w = .ok (w', next')) : w'.loaded = w.loaded := by
  rcases exec_world h with rfl | h | h
  · rfl
  · exact loaded_closed.write h
  · exact loaded_closed.read_characteristic h

theorem TestExec.Connected.step_loaded {s s' : TestExec} (h : s.Connected)
    (hs : s.step t = .ok s') : s'.world.loaded = s.world.loaded := by
  cases h.taken hs with
  | returned => rfl
  | main _ he => exact LoopStep.exec_loaded he
  | heartbeat he => exact HeartbeatStep.exec_loaded he
  | notification hw => exact on_characteristic_read_loaded hw
  | linkLost hw => exact loaded_closed.linkLost hw

structure InUse (known : ManufacturerData × Option Description) (s : TestExec) : Prop where
  connected : s.Connected
  loaded : s.world.loaded = known

theorem InUse.step {s s' : TestExec} (h : InUse known s) (ht : t.isLinkLost = false)
    (hs : s.step t = .ok s') : InUse known s' :=
  ⟨h.connected.step ht hs, (h.connected.step_loaded hs).trans h.loaded⟩

theorem TestExec.Asked.step {s s' : TestExec} (h : s.Asked) (hc : s.Connected)
    (ht : t.isLinkLost = false) (hs : s.step t = .ok s') : s'.Asked := by
  intro mode hm
  cases hc.taken hs with
  | returned => cases hm
  | main _ he =>
    rcases LoopStep.exec_asked he hm with hw | ⟨ha, hw⟩
    · exact hw
    · exact hw.trans (h mode ha)
  | heartbeat he => exact (HeartbeatStep.exec_undisturbed he).mode.trans (h mode hm)
  | notification hw => exact (on_characteristic_read_kept hw).1.trans (h mode hm)
  | linkLost => cases ht

def TestExec.Shows (s : TestExec) (device : DeviceCounters) (mode : StatParseMode) : Prop :=
  ∃ joe, s.world.maker.joe = some joe ∧ joe.Shows device mode

theorem InUse.read_ok {s : TestExec} (h : InUse (manData, some d) s) (ha : s.Asked)
    (hd : ∀ p ∈ d.products, twoHexDigits p.code) (hn : s.next = .read_data mode)
    (device : DeviceCounters) :
    ∃ joe w', s.world.maker.joe = some joe ∧
      BLEDevice.read_characteristic (some (device.frame s.world.key mode))
        STATISTICS_DATA_CHARACTERISTIC_UUID s.world = .ok w' ∧
      w'.maker.joe = some (joe.withStatistics (device.value mode) mode) := by
  have hjoe : s.world.maker.joe.map Joe.description = some d := congrArg Prod.snd h.loaded
  obtain ⟨joe, hj, hjd⟩ := Option.map_eq_some_iff.1 hjoe
  have hcodes : ∀ p ∈ joe.products, twoHexDigits p.code := by
    intro p hp
    refine hd p.uncounted ?_
    rw [← hjd]
    exact List.mem_map_of_mem hp
  have hm : s.world.maker.statParserMode = some mode := ha mode (by rw [hn]; rfl)
  let joe' := joe.withStatistics (device.value mode) mode
  refine ⟨joe, updateJoe (joe'.statisticsEvent mode) joe' s.world, hj, ?_, rfl⟩
  rw [BLEDevice.read_characteristic, if_pos h.connected.link]
  change parse_statistics_data _ s.world.key s.world = _
  rw [parse_statistics_data_mode hm, mode_parse_ok mode _ hj hcodes, device.blockValue_frame]

theorem InUse.reads {s s' : TestExec} {device : DeviceCounters}
    (h : InUse (manData, some d) s) (ha : s.Asked)
    (hd : ∀ p ∈ d.products, twoHexDigits p.code) (hn : s.next = .read_data mode)
    (hr : r.reply = some (device.frame s.world.key mode)) (hs : s.step (.main r) = .ok s') :
    ∃ joe, s.world.maker.joe = some joe ∧
      s'.world.maker.joe = some (joe.withStatistics (device.value mode) mode) := by
  obtain ⟨joe, w, hj, hread, hw⟩ := h.read_ok ha hd hn device
  refine ⟨joe, hj, ?_⟩
  cases h.connected.taken hs with
  | returned hconnect => cases hn.symm.trans hconnect
  | main _ he =>
    rw [hn, LoopStep.exec, hr, hread] at he
    cases he
    exact hw

theorem LoopStep.exec_joe {next : LoopStep} (hr : ∀ mode, next ≠ .read_data mode)
    (h : next.exec r w = .ok (s, next')) : s.world.maker.joe = w.maker.joe := by
  cases exec_taken h with
  | read_data => exact absurd rfl (hr _)
  | request hw =>
    have hjoe := congrArg CoffeeMaker.joe (write_maker hw)
    exact hjoe
  | poll _ hw => exact (read_characteristic_undisturbed hw (by decide)).joe
  | connect | get_state | polled | sleep | disconnect | wait | done => rfl

theorem InUse.step_joe {s s' : TestExec} {device : DeviceCounters} (h : InUse known s)
    (ht : t.isLinkLost = false) (hans : device.Answers s t) (hs : s.step t = .ok s') :
    s'.world.maker.joe = s.world.maker.joe ∨
      ∃ r mode, t = .main r ∧ s.next = .read_data mode := by
  cases h.connected.taken hs with
  | returned => exact .inl rfl
  | @main r _ _ _ he =>
    by_cases hr : ∃ mode, s.next = .read_data mode
    · obtain ⟨mode, hr⟩ := hr
      exact .inr ⟨r, mode, rfl, hr⟩
    · exact .inl (LoopStep.exec_joe (fun mode hn => hr ⟨mode, hn⟩) he)
  | heartbeat he => exact .inl (HeartbeatStep.exec_undisturbed he).joe
  | notification hw => exact .inl (on_characteristic_read_undisturbed hw hans).joe
  | linkLost => cases ht

/-- What `main` has read once, it goes on to show. -/
theorem InUse.shows {s s' : TestExec} {device : DeviceCounters}
    (h : InUse (manData, some d) s) (ha : s.Asked)
    (hd : ∀ p ∈ d.products, twoHexDigits p.code) (ht : t.isLinkLost = false)
    (hans : device.Answers s t) (hs : s.step t = .ok s') (hshow : s.Shows device mode) :
    s'.Shows device mode := by
  obtain ⟨joe, hj, hshow⟩ := hshow
  rcases h.step_joe ht hans hs with hkept | ⟨r, mode', rfl, hn⟩
  · exact ⟨joe, hkept.trans hj, hshow⟩
  · obtain ⟨joe', hj', hread⟩ := h.reads ha hd hn (hans mode' hn) hs
    cases hj.symm.trans hj'
    refine ⟨_, hread, ?_⟩
    by_cases hm : mode' = mode
    · rw [← hm]
      exact withStatistics_shows joe device mode'
    · exact hshow.withStatistics hm _

def StatParseMode.before : StatParseMode → List StatParseMode
  | .MAINTENANCE_COUNTER => []
  | .MAINTENANCE_PERCENT => [.MAINTENANCE_COUNTER]
  | .PRODUCT_COUNTERS => [.MAINTENANCE_COUNTER, .MAINTENANCE_PERCENT]

/-- The modes whose statistics `main` has read since it has tested the state. -/
def LoopStep.collected : LoopStep → List StatParseMode
  | .request mode | .poll mode _ | .read_data mode => mode.before
  | .sleep => [.MAINTENANCE_COUNTER, .MAINTENANCE_PERCENT, .PRODUCT_COUNTERS]
  | _ => []

theorem mem_collected_requested {mode mode' : StatParseMode}
    (h : mode ∈ mode'.requested.collected) : mode ∈ mode'.before ∨ mode' = mode := by
  cases mode' <;> cases mode <;> revert h <;> decide

theorem LoopStep.exec_collected {next : LoopStep} (h : next.exec r w = .ok (s, next'))
    (hm : mode ∈ next'.collected) : mode ∈ next.collected ∨ next = .read_data mode := by
  cases exec_taken h with
  | get_state => split at hm <;> cases hm
  | request | poll | polled => exact .inl hm
  | read_data => exact (mem_collected_requested hm).imp_right (congrArg LoopStep.read_data)
  | connect | sleep | disconnect | wait | done => cases hm

theorem TestExec.step_next {s s' : TestExec} (ht : t.isMain = false)
    (hs : s.step t = .ok s') : s'.next = s.next := by
  cases step_taken hs with
  | main | connecting | disconnecting => cases ht
  | joins | heartbeat | joined | notification | linkLost => rfl

/-- What `main` has read in this pass through its loop is shown. -/
structure Collecting (device : DeviceCounters) (manData : ManufacturerData) (d : Description)
    (s : TestExec) : Prop where
  inUse : InUse (manData, some d) s
  asked : s.Asked
  shown : ∀ mode ∈ s.next.collected, s.Shows device mode

theorem Collecting.step {s s' : TestExec} (h : Collecting device manData d s)
    (hd : ∀ p ∈ d.products, twoHexDigits p.code) (ht : t.isLinkLost = false)
    (hans : device.Answers s t) (hs : s.step t = .ok s') :
    Collecting device manData d s' := by
  refine ⟨h.inUse.step ht hs, h.asked.step h.inUse.connected ht hs, fun mode hm => ?_⟩
  have hkept (hm : mode ∈ s.next.collected) : s'.Shows device mode :=
    h.inUse.shows h.asked hd ht hans hs (h.shown mode hm)
  cases hmain : t.isMain with
  | false =>
    rw [TestExec.step_next hmain hs] at hm
    exact hkept hm
  | true =>
    cases h.inUse.connected.taken hs with
    | returned => cases hm
    | main _ he =>
      rcases LoopStep.exec_collected he hm with hm | hn
      · exact hkept hm
      · obtain ⟨joe, _, hj⟩ := h.inUse.reads h.asked hd hn (hans mode hn) hs
        exact ⟨_, hj, withStatistics_shows joe device mode⟩
    | heartbeat | notification | linkLost => cases hmain

def LoopStep.ahead : LoopStep → Nat
  | .connect => 76
  | .get_state => 75
  | next => next.left

theorem LoopStep.exec_ahead {next : LoopStep} (hm : .inUse ∈ next.stages)
    (hs : w.maker.state = .CONNECTED) (h : next.exec r w = .ok (s, next')) :
    (next = .sleep ∧ next' = .get_state) ∨ next'.ahead < next.ahead := by
  cases exec_taken h with
  | connect | disconnect | wait | done => exact absurd hm (by decide)
  | sleep => exact .inl ⟨rfl, rfl⟩
  | get_state =>
    rw [if_pos hs]
    exact .inr (by decide)
  | @request mode => exact .inr (Nat.lt_succ_self (mode.left + 22))
  | poll hi =>
    refine .inr ?_
    simp only [ahead, left]
    omega
  | polled =>
    refine .inr ?_
    simp only [ahead, left]
    omega
  | @read_data _ mode => exact .inr (by cases mode <;> decide)

def TestExec.At (next : LoopStep) (s : TestExec) : Prop := s.next = next

/-- `main` comes nearer to its sleep on its own turns, and after the sleep it begins anew. -/
theorem InUse.progress {s s' : TestExec} (h : InUse known s) (hs : s.step t = .ok s')
    (hgoal : s.next = .sleep → next = .get_state) :
    Progress (fun s => s.next.ahead) (fun _ t => t.isMain = true) (TestExec.At next) s t s' := by
  cases hmain : t.isMain with
  | false =>
    have hsame := TestExec.step_next hmain hs
    refine .inr (.inr ⟨congrArg LoopStep.ahead hsame, fun hb => ?_, fun _ hb => hb⟩)
    cases hmain.symm.trans hb
  | true =>
    cases h.connected.taken hs with
    | returned hn =>
      refine .inr (.inl ?_)
      dsimp only
      rw [hn]
      exact Nat.lt_succ_self 75
    | main hm he =>
      rcases LoopStep.exec_ahead hm h.connected.state he with ⟨hn, hn'⟩ | hlower
      · exact .inl (hn'.trans (hgoal hn).symm)
      · exact .inr (.inl hlower)
    | heartbeat | notification | linkLost => cases hmain

section
variable {x : Execution TestExec.step} (hmain : x.Often (·.isMain = true))
  (hlink : ∀ m, n ≤ m → (x.turn m).isLinkLost = false)
include hlink

theorem InUse.stays (h : InUse known (x.state n)) (hm : n ≤ m) : InUse known (x.state m) :=
  x.always (InUse known) (fun k hk hu => hu.step (hlink k hk) (x.step_ok k)) h hm

include hmain

/-- The pass that is going on comes to its end. -/
theorem InUse.tests_state (h : InUse known (x.state n)) :
    ∃ m, n ≤ m ∧ (x.state m).next = .get_state :=
  x.leads_to
    (fun k hk (hu : InUse known (x.state k)) (_ : ¬TestExec.At .get_state (x.state k)) =>
      ⟨hu.step (hlink k hk) (x.step_ok k), hu.progress (x.step_ok k) fun _ => rfl⟩)
    (fun _ _ _ => hmain) h

variable {device : DeviceCounters} {d : Description} {manData : ManufacturerData}
  (hcodes : ∀ p ∈ d.products, twoHexDigits p.code)
  (hd : ∀ m, n ≤ m → device.Answers (x.state m) (x.turn m))
include hcodes hd
omit hmain

theorem Collecting.stays (h : Collecting device manData d (x.state n)) (hm : n ≤ m) :
    Collecting device manData d (x.state m) :=
  x.always (Collecting device manData d)
    (fun k hk hc => hc.step hcodes (hlink k hk) (hd k hk) (x.step_ok k)) h hm

theorem Collecting.shows (h : Collecting device manData d (x.state n))
    (hshow : (x.state n).Shows device mode) (hm : n ≤ m) : (x.state m).Shows device mode := by
  refine x.always (fun s => s.Shows device mode) (fun k hk hs => ?_) hshow hm
  have hc := h.stays hlink hcodes hd hk
  exact hc.inUse.shows hc.asked hcodes (hlink k hk) (hd k hk) (x.step_ok k) hs

include hmain

theorem Collecting.collects (h : Collecting device manData d (x.state n)) :
    ∃ m, n ≤ m ∧ ∀ mode, (x.state m).Shows device mode := by
  obtain ⟨m, hm, hsleep⟩ := x.leads_to
    (fun k hk (hc : Collecting device manData d (x.state k))
        (hn : ¬TestExec.At .sleep (x.state k)) =>
      ⟨hc.step hcodes (hlink k hk) (hd k hk) (x.step_ok k),
        hc.inUse.progress (x.step_ok k) fun hs => absurd hs hn⟩)
    (fun _ _ _ => hmain) h
  refine ⟨m, hm, fun mode => (h.stays hlink hcodes hd hm).shown mode ?_⟩
  have hnext : (x.state m).next = .sleep := hsleep
  rw [hnext]
  cases mode <;> decide

end

theorem InUse.collecting {s : TestExec} (h : InUse (manData, some d) s)
    (hn : s.next = .get_state) : Collecting device manData d s := by
  refine ⟨h, fun mode hm => ?_, fun mode hm => ?_⟩
  · rw [hn] at hm
    cases hm
  · rw [hn] at hm
    cases hm

/-- If the link lasts and the device tells its counters when they are read, then from some moment
on all of them are shown, whatever the heartbeat thread and the notifications bring meanwhile. -/
theorem statistics_collected {x : Execution TestExec.step} {device : DeviceCounters}
    (h0 : x.state 0 = .start machines) (hmain : x.Often (·.isMain = true))
    (hs : (x.state n).world.maker.state = .CONNECTED)
    (hc : (x.state n).world.maker.bleDevice.connected = true)
    (hj : (x.state n).world.maker.joe = some joe)
    (hcodes : ∀ p ∈ joe.products, twoHexDigits p.code)
    (hlink : ∀ m, n ≤ m → (x.turn m).isLinkLost = false)
    (hd : ∀ m, n ≤ m → device.Answers (x.state m) (x.turn m)) :
    ∃ m, n ≤ m ∧ ∀ k, m ≤ k → ∃ joe', (x.state k).world.maker.joe = some joe' ∧
      joe'.description = joe.description ∧ ∀ mode, joe'.Shows device mode := by
  have hproducts : ∀ p ∈ joe.description.products, twoHexDigits p.code := by
    intro p hp
    obtain ⟨q, hq, rfl⟩ := List.mem_map.1 hp
    exact hcodes q hq
  have huse : InUse ((x.state n).world.maker.manData, some joe.description) (x.state n) := by
    refine ⟨(aliveInv_state h0 n).connected hs hc, ?_⟩
    rw [World.loaded, hj]
    rfl
  -- The pass that is going on may have begun without answers; the next one collects them all.
  obtain ⟨i, hi, hnext⟩ := huse.tests_state hmain hlink
  have hlink_i : ∀ m, i ≤ m → (x.turn m).isLinkLost = false := fun m hm =>
    hlink m (Nat.le_trans hi hm)
  have hd_i : ∀ m, i ≤ m → device.Answers (x.state m) (x.turn m) := fun m hm =>
    hd m (Nat.le_trans hi hm)
  have hbegin : Collecting device _ joe.description (x.state i) :=
    (huse.stays hlink hi).collecting hnext
  obtain ⟨m, hm, hall⟩ := hbegin.collects hmain hlink_i hproducts hd_i
  refine ⟨m, Nat.le_trans hi hm, fun k hk => ?_⟩
  have hkept (mode : StatParseMode) : (x.state k).Shows device mode :=
    (hbegin.stays hlink_i hproducts hd_i hm).shows (fun j hj => hlink_i j (Nat.le_trans hm hj))
      hproducts (fun j hj => hd_i j (Nat.le_trans hm hj)) (hall mode) hk
  have hloaded : (x.state k).world.maker.joe.map Joe.description = some joe.description :=
    congrArg Prod.snd (huse.stays hlink (Nat.le_trans hi (Nat.le_trans hm hk))).loaded
  obtain ⟨joe', hj', hdescription⟩ := Option.map_eq_some_iff.1 hloaded
  refine ⟨joe', hj', hdescription, fun mode => ?_⟩
  obtain ⟨joe'', hj'', hshow⟩ := hkept mode
  cases hj'.symm.trans hj''
  exact hshow

/-- In every mode the frame that tells these counters is the same. -/
def exampleCounters : DeviceCounters where
  blocks
    | .PRODUCT_COUNTERS => [7, 7, 7, 7]
    | .MAINTENANCE_COUNTER => [0, 0x0700, 7, 0, 0x0700, 7]
    | .MAINTENANCE_PERCENT => [0, 0, 7, 0, 0, 7, 0, 0, 7, 0, 0, 7]
  block_lt mode := by cases mode <;> decide

theorem exampleCounters_frame (key : UInt8) (mode : StatParseMode) :
    exampleCounters.frame key mode = exampleCounters.frame key .PRODUCT_COUNTERS := by
  cases mode <;> rfl

def collectTurn (n : Nat) : TestTurn :=
  if n % 2 = 0 then .heartbeat GATTLIB_SUCCESS none
  else .main { reply := some (exampleCounters.frame 42 .PRODUCT_COUNTERS) }

theorem statistics_collected_example : ∃ x : Execution TestExec.step,
    x.state 0 = .start [exampleJoe.machine] ∧
      ∃ m, 10 ≤ m ∧ ∀ k, m ≤ k → ∃ joe, (x.state k).world.maker.joe = some joe ∧
        joe.description = exampleJoe.description ∧ ∀ mode, joe.Shows exampleCounters mode := by
  obtain ⟨s, hr, hs, hc, hj, hk, hn⟩ : ∃ s,
      run TestExec.step (.start [exampleJoe.machine]) exampleConnect = .ok s ∧
        s.world.maker.state = .CONNECTED ∧ s.world.maker.bleDevice.connected = true ∧
          s.world.maker.joe = some exampleJoe ∧ s.world.key = 42 ∧ s.next = .get_state := by
    decide +kernel
  have hcodes : ∀ p ∈ exampleJoe.products, twoHexDigits p.code := by decide
  have hproducts : ∀ p ∈ exampleJoe.description.products, twoHexDigits p.code := by decide
  let known := (s.world.maker.manData, some exampleJoe.description)
  have hbegin : InUse known s ∧ s.Asked := by
    refine ⟨⟨AliveInv.connected (run_invariant AliveInv (fun _ _ _ hi hs => hi.step hs)
      (aliveInv_start _) hr) hs hc, ?_⟩, fun mode hm => ?_⟩
    · rw [World.loaded, hj]
      rfl
    · rw [hn] at hm
      cases hm
  have hkey {s : TestExec} (hu : InUse known s) : s.world.key = 42 := by
    rw [← hk]
    exact congrArg (fun l => l.1.key) hu.loaded
  have hlink (n : Nat) : (collectTurn n).isLinkLost = false := by
    rw [collectTurn]
    split <;> rfl
  have hstep (n : Nat) (s : TestExec) (h : InUse known s ∧ s.Asked) :
      ∃ s', s.step (collectTurn n) = .ok s' ∧ InUse known s' ∧ s'.Asked := by
    obtain ⟨hu, ha⟩ := h
    obtain ⟨s', hs⟩ : ∃ s', s.step (collectTurn n) = .ok s' := by
      rw [collectTurn]
      split
      · exact s.heartbeat_unanswered GATTLIB_SUCCESS
      · refine hu.connected.main_ok fun mode hn => ?_
        obtain ⟨joe, w', _, hw, _⟩ := hu.read_ok ha hproducts hn exampleCounters
        rw [hkey hu, exampleCounters_frame] at hw
        exact ⟨w', hw⟩
    exact ⟨s', hs, hu.step (hlink n) hs, ha.step hu.connected (hlink n) hs⟩
  obtain ⟨x, hx, hturn⟩ :=
    Execution.exists_schedule (P := fun _ s => InUse known s ∧ s.Asked) hstep hbegin
  obtain ⟨y, hy, hrest⟩ := Execution.exists_after hr x hx
  have hmain : x.Often (·.isMain = true) := fun n => by
    refine ⟨2 * n + 1, by omega, ?_⟩
    rw [hturn, collectTurn, if_neg (by omega)]
    rfl
  have hafter (n : Nat) : y.turn (10 + n) = collectTurn n := by
    rw [← hturn]
    exact (hrest n).2
  have hlast (m : Nat) (hm : 10 ≤ m) : (y.turn m).isLinkLost = false := by
    obtain ⟨n, rfl⟩ := Nat.exists_eq_add_of_le hm
    rw [hafter]
    exact hlink n
  have hstart : y.state 10 = s := (hrest 0).1.trans hx
  have huse {m : Nat} (hm : 10 ≤ m) : InUse known (y.state m) := by
    refine InUse.stays hlast ?_ hm
    rw [hstart]
    exact hbegin.1
  refine ⟨y, hy, statistics_collected hy (hmain.after fun n => (hrest n).2)
    (by rw [hstart]; exact hs) (by rw [hstart]; exact hc) (by rw [hstart]; exact hj) hcodes hlast
    fun m hm => ?_⟩
  obtain ⟨n, rfl⟩ := Nat.exists_eq_add_of_le hm
  rw [hafter, collectTurn]
  split
  · trivial
  · intro mode _
    rw [hkey (huse hm)]
    exact congrArg some (exampleCounters_frame 42 mode).symm

end JuttaProto
