import JuttaProto.TestStages

namespace JuttaProto
open Run
set_option autoImplicit true

/-- The mode that `main` asks for after another. -/
def StatParseMode.following : StatParseMode → StatParseMode
  | .MAINTENANCE_COUNTER => .MAINTENANCE_PERCENT
  | .MAINTENANCE_PERCENT => .PRODUCT_COUNTERS
  | .PRODUCT_COUNTERS => .MAINTENANCE_COUNTER

def modeOf : Nat → StatParseMode
  | 0 => .MAINTENANCE_COUNTER
  | n + 1 => (modeOf n).following

def requestFrame (key : UInt8) (mode : StatParseMode) : Bytes :=
  encDecBytes (override key true (build_stats_cmd mode)) key

/-- Frames that ask the coffee maker to stay or take leave of it, and between them so many requests
for the statistics of one mode after the other. -/
inductive Transcript (key : UInt8) : Nat → List WriteCall → Prop
  | nil : Transcript key 0 []
  | stay (h : Transcript key n frames) (result : Bool) :
      Transcript key n (frames ++ [⟨P_MODE_CHARACTERISTIC_UUID, stayFrame key, result⟩])
  | leave (h : Transcript key n frames) (result : Bool) :
      Transcript key n (frames ++ [⟨P_MODE_CHARACTERISTIC_UUID, disconnectFrame key, result⟩])
  | request (h : Transcript key n frames) (result : Bool) :
      Transcript key (n + 1) (frames ++
        [⟨STATISTICS_COMMAND_CHARACTERISTIC_UUID, requestFrame key (modeOf n), result⟩])

def LoopStep.awaits : LoopStep → Option StatParseMode
  | .connect | .get_state | .sleep => some .MAINTENANCE_COUNTER
  | .request mode => some mode
  | .poll mode _ | .read_data mode => some mode.following
  | .disconnect | .wait | .done => none

theorem awaits_requested (mode : StatParseMode) :
    mode.requested.awaits = some mode.following := by
  cases mode <;> rfl

/-- What has been written so far is a transcript, and it goes on with the next request. -/
def TranscriptTo (next : LoopStep) (w : World) : Prop :=
  ∃ n, Transcript w.key n w.wire ∧ ∀ mode, next.awaits = some mode → modeOf n = mode

theorem TranscriptTo.same {w w' : World} (h : TranscriptTo next w) (hk : w'.key = w.key)
    (hw : w'.wire = w.wire) (ha : ∀ mode, next'.awaits = some mode → next.awaits = some mode) :
    TranscriptTo next' w' := by
  obtain ⟨n, ht, hn⟩ := h
  refine ⟨n, ?_, fun mode hm => hn mode (ha mode hm)⟩
  rw [hk, hw]
  exact ht

theorem TranscriptTo.silent (h : TranscriptTo next w) (hs : Silent w w')
    (ha : ∀ mode, next'.awaits = some mode → next.awaits = some mode) : TranscriptTo next' w' :=
  h.same hs.key hs.wire ha

theorem TranscriptTo.heartbeat {beat : HeartbeatStep} (h : TranscriptTo next w)
    (he : beat.exec written reply w = .ok (w', beat')) : TranscriptTo next w' := by
  rcases HeartbeatStep.exec_world he with rfl | he | he
  · exact h
  · obtain ⟨n, ht, hn⟩ := h
    rw [stay_in_ble_eq] at he
    cases he
    exact ⟨n, ht.stay _, hn⟩
  · exact h.silent (read_characteristic_silent he) fun _ hm => hm

/-- When the link is lost, the device does not hear the leave that is taken of it. -/
theorem TranscriptTo.linkLost (h : TranscriptTo next w)
    (hd : BLEDevice.on_disconnected (on_disconnected written) w = .ok w') :
    TranscriptTo next w' := by
  rcases linkLost_taken hd with ⟨_, rfl⟩ | ⟨_, _, rfl⟩ | ⟨_, _, _, _, hspeaks, hkey⟩
  · exact h
  · exact h
  · obtain ⟨n, ht, hn⟩ := h
    refine ⟨n, ?_, hn⟩
    rw [hkey, hspeaks.wire]
    exact ht.leave false

theorem TranscriptTo.main {next : LoopStep} (h : TranscriptTo next w)
    (he : next.exec r w = .ok (s, next')) : TranscriptTo next' s.world := by
  cases LoopStep.exec_taken he with
  | connect => exact h
  | get_state =>
    refine h.silent (.refl w) fun mode hm => ?_
    split at hm
    · exact hm
    · cases hm
  | @request mode _ hw =>
    obtain ⟨n, ht, hn⟩ := h
    obtain ⟨_, rfl⟩ := write_ok hw
    have hmode : modeOf n = mode := hn mode rfl
    refine ⟨n + 1, ?_, fun mode' hm => ?_⟩
    · have hrequest := ht.request (w.maker.bleDevice.connected && r.written == GATTLIB_SUCCESS)
      rw [hmode] at hrequest
      exact hrequest
    · rw [modeOf, hmode]
      exact Option.some.inj hm
  | poll _ hw => exact h.silent (read_characteristic_silent hw) fun _ hm => hm
  | polled => exact h.silent (.refl w) fun _ hm => hm
  | read_data hw =>
    refine h.silent (read_characteristic_silent hw) fun mode hm => ?_
    rw [awaits_requested] at hm
    exact hm
  | sleep => exact h.silent (.refl w) fun _ hm => hm
  | disconnect | wait | done =>
    exact h.silent (.refl w) fun _ hm => absurd hm.symm (Option.some_ne_none _)

/-- The connect has not yet come to its first frame. -/
def Pc.unspoken : Pc → LoopStep → Bool
  | .idle _, .connect => true
  | .connect _ _ call, _ => call ∈ [.set_connecting, .open_link, .register, .parse_man_data]
  | _, _ => false

theorem Stage.Place.unspoken {stage : Stage} (h : stage.Place pc next)
    (hu : pc.unspoken next = true) : stage.heartbeat = false := by
  cases h with
  | between h =>
    cases next with
    | connect =>
      cases List.mem_singleton.1 h
      rfl
    | _ => cases hu
  | @connecting _ _ call h =>
    cases call with
    | set_connecting | open_link | register | parse_man_data =>
      cases List.mem_singleton.1 h
      rfl
    | _ => cases hu
  | disconnecting => cases hu

/-- The transcript so far, which is empty up to the first frame of the connect. -/
structure Transcribed (pc : Pc) (next : LoopStep) (w : World) : Prop where
  begun : pc.unspoken next = true → w.wire = []
  transcript : TranscriptTo next w

theorem Transcribed.connecting {call : ConnectStep} {stage : Stage}
    (h : Transcribed (.connect g written call) .connect w) (hm : stage ∈ call.stages)
    (ha : stage.At w) (he : call.exec g written w = .ok s) :
    Transcribed s.pc (LoopStep.after s.pc .connect) s.world := by
  obtain ⟨hbegun, ht⟩ := h
  cases call with
  | set_connecting =>
    cases he
    have hw := set_state_wire .CONNECTING w
    exact ⟨fun _ => hw.trans (hbegun rfl), ht.same (set_state_key _ _) hw fun _ hm => hm⟩
  | open_link =>
    cases List.mem_singleton.1 hm
    obtain ⟨⟨w', found⟩, ho, he⟩ := bind_ok he
    cases he
    have hsame : w'.key = w.key ∧ w'.wire = w.wire := by
      by_cases hg : LinkOpens g
      · rw [open_link_opens (ha.idle rfl rfl) hg] at ho
        cases ho
        exact ⟨rfl, rfl⟩
      · obtain ⟨n, hn⟩ := open_link_fails (ha.idle rfl rfl) hg
        rw [hn] at ho
        cases ho
        exact ⟨rfl, rfl⟩
    exact ⟨fun _ => hsame.2.trans (hbegun rfl), ht.same hsame.1 hsame.2 fun _ hm => hm⟩
  | register =>
    obtain ⟨w', hn, he⟩ := bind_ok he
    cases he
    have hsilent := notifications_silent hn
    exact ⟨fun _ => hsilent.wire.trans (hbegun rfl),
      ht.same hsilent.key hsilent.wire fun _ hm => hm⟩
  | parse_man_data =>
    cases List.mem_singleton.1 hm
    obtain ⟨w', hp, rfl⟩ := ha.parsed he
    have hw : w'.wire = [] := (parse_man_data_speech hp).2.1.trans (hbegun rfl)
    refine ⟨fun _ => hw, 0, ?_, fun mode hm => Option.some.inj hm⟩
    dsimp only
    rw [hw]
    exact .nil
  | stay_in_ble =>
    obtain ⟨w', hw, he⟩ := bind_ok he
    cases he
    rw [stay_in_ble_eq] at hw
    cases hw
    obtain ⟨n, ht, hn⟩ := ht
    exact ⟨fun hu => absurd hu Bool.false_ne_true, n, ht.stay _, hn⟩
  | request_about_info =>
    obtain ⟨w', hr, he⟩ := bind_ok he
    cases he
    exact ⟨fun hu => absurd hu Bool.false_ne_true,
      ht.silent (read_characteristic_silent hr) fun _ hm => hm⟩
  | start_heartbeat =>
    obtain ⟨w', hs, he⟩ := bind_ok he
    cases he
    rw [start_heartbeat] at hs
    split at hs
    · cases hs
    · cases hs
      exact ⟨fun hu => absurd hu Bool.false_ne_true, ht.same rfl rfl fun _ hm => hm⟩
  | set_connected | set_disconnected =>
    cases he
    exact ⟨fun hu => absurd hu Bool.false_ne_true,
      ht.same (set_state_key _ _) (set_state_wire _ _) fun _ hm => hm⟩
  | finish connected =>
    cases he
    cases connected with
    | true => exact ⟨fun hu => absurd hu Bool.false_ne_true, ht.same rfl rfl fun _ hm => hm⟩
    | false =>
      exact ⟨fun hu => absurd hu Bool.false_ne_true,
        ht.same rfl rfl fun _ hm => absurd hm.symm (Option.some_ne_none _)⟩

theorem LoopStep.exec_unspoken {next : LoopStep} (h : next.exec r w = .ok (s, next'))
    (hu : s.pc.unspoken next' = true) : next = .connect ∧ s.world = w := by
  cases exec_taken h with
  | connect => exact ⟨rfl, rfl⟩
  | get_state =>
    dsimp only at hu
    split at hu <;> cases hu
  | @read_data _ mode => cases mode <;> cases hu
  | _ => cases hu

structure TranscriptInv (s : TestExec) : Prop where
  staged : ∃ stage, s.Staged stage
  transcribed : Transcribed s.system.pc s.next s.world

theorem transcriptInv_start (machines : List Machine) : TranscriptInv (.start machines) :=
  ⟨⟨_, staged_start machines⟩, fun _ => rfl, 0, .nil, fun _ hm => Option.some.inj hm⟩

theorem TranscriptInv.step {s s' : TestExec} (h : TranscriptInv s) (hs : s.step t = .ok s') :
    TranscriptInv s' := by
  obtain ⟨⟨stage, hst⟩, hbegun, ht⟩ := h
  refine ⟨(hst.step hs).imp fun _ h => h.1, ?_⟩
  obtain ⟨⟨w, pc⟩, next, beat⟩ := s
  obtain ⟨hp, ha⟩ := hst
  cases TestExec.step_taken hs with
  | main hpc he =>
    cases hpc
    refine ⟨fun hu => ?_, ht.main he⟩
    obtain ⟨rfl, hw⟩ := LoopStep.exec_unspoken he hu
    rw [TestExec.world, hw]
    exact hbegun rfl
  | connecting hpc he =>
    cases hpc
    obtain _ | hm := hp
    exact Transcribed.connecting ⟨hbegun, ht⟩ hm ha he
  | disconnecting hpc he =>
    cases hpc
    obtain _ | _ | hm := hp
    cases he
    rw [ha.inactive hm, if_neg Bool.false_ne_true]
    exact ⟨fun hu => absurd hu Bool.false_ne_true,
      ht.silent (.refl w) fun _ hm => absurd hm.symm (Option.some_ne_none _)⟩
  | joins | joined => exact ⟨hbegun, ht⟩
  | heartbeat hthread he =>
    refine ⟨fun hu => ?_, ht.heartbeat he⟩
    cases (hp.unspoken hu).symm.trans (ha.heartbeat.symm.trans hthread)
  | notification hw =>
    have hsilent := on_characteristic_read_silent hw
    exact ⟨fun hu => hsilent.wire.trans (hbegun hu), ht.silent hsilent fun _ hm => hm⟩
  | linkLost hw =>
    refine ⟨fun hu => ?_, ht.linkLost hw⟩
    rcases linkLost_taken hw with ⟨_, rfl⟩ | ⟨_, _, rfl⟩ | ⟨_, _, hthread, _⟩
    · exact hbegun hu
    · exact hbegun hu
    · cases (hp.unspoken hu).symm.trans (ha.heartbeat.symm.trans hthread)

/-- Whatever the device does, nothing is ever written to it but this: the coffee maker is asked to
stay, statistics of one mode after the other are requested, and leave is taken. -/
theorem test_exec_transcript (h : run TestExec.step (.start machines) turns = .ok s) :
    ∃ n, Transcript s.world.key n s.world.wire := by
  obtain ⟨_, _, n, ht, _⟩ := run_invariant TranscriptInv (fun _ _ _ hi hs => hi.step hs)
    (transcriptInv_start machines) h
  exact ⟨n, ht⟩

theorem test_exec_transcript_example : ∃ s,
    run TestExec.step (.start [exampleJoe.machine]) exampleTurns = .ok s ∧
      ∃ n, Transcript s.world.key n s.world.wire := by
  obtain ⟨s, h, _⟩ : ∃ s,
      run TestExec.step (.start [exampleJoe.machine]) exampleTurns = .ok s ∧ True := by
    decide +kernel
  exact ⟨s, h, test_exec_transcript h⟩

end JuttaProto
