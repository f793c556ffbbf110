import JuttaProto.LinkStages
import JuttaProto.TestExec

namespace JuttaProto
open Run
set_option autoImplicit true

/-- The link is as before, nothing has been announced, and without a link nothing has been
delivered. -/
structure Aside (w w' : World) : Prop where
  link : w'.link = w.link
  announced : w'.announced = w.announced
  wire : ∃ frames, w'.wire = w.wire ++ frames ∧
    (w.maker.bleDevice.connected = false → ∀ f ∈ frames, f.result = false)

theorem Silent.aside (h : Silent w w') : Aside w w' :=
  ⟨h.link, h.announced, [], h.wire.trans (List.append_nil _).symm,
    fun _ _ hf => absurd hf List.not_mem_nil⟩

theorem Aside.refl (w : World) : Aside w w := (Silent.refl w).aside

theorem Aside.trans (h : Aside w w') (h' : Aside w' w'') : Aside w w'' := by
  obtain ⟨hl, ha, frames, hw, hf⟩ := h
  obtain ⟨hl', ha', frames', hw', hf'⟩ := h'
  refine ⟨hl'.trans hl, ha'.trans ha, frames ++ frames', ?_, fun hc f hm => ?_⟩
  · rw [hw', hw, List.append_assoc]
  · have hd : w'.maker.bleDevice = w.maker.bleDevice := congrArg (·.2.1) hl
    rcases List.mem_append.1 hm with hm | hm
    · exact hf hc f hm
    · exact hf' (by rw [hd]; exact hc) f hm

theorem aside_write (h : write uuid data true overrideKey written w = .ok w') : Aside w w' := by
  obtain ⟨_, rfl⟩ := write_ok h
  refine ⟨rfl, rfl, _, rfl, fun hc f hf => ?_⟩
  rw [List.mem_singleton.1 hf, hc, Bool.false_and]

theorem HeartbeatStep.exec_world {next : HeartbeatStep}
    (h : next.exec written reply w = .ok (w', next')) :
    w' = w ∨ JuttaProto.stay_in_ble written w = .ok w' ∨
      JuttaProto.request_status reply w = .ok w' := by
  cases next with
  | test_state | sleep | exited =>
    cases h
    exact .inl rfl
  | stay_in_ble =>
    obtain ⟨w₁, h₁, h⟩ := bind_ok h
    cases h
    exact .inr (.inl h₁)
  | request_status =>
    obtain ⟨w₁, h₁, h⟩ := bind_ok h
    cases h
    exact .inr (.inr h₁)

theorem HeartbeatStep.exec_aside {next : HeartbeatStep}
    (h : next.exec written reply w = .ok (w', next')) : Aside w w' := by
  rcases exec_world h with rfl | h | h
  · exact .refl _
  · exact aside_write h
  · exact (read_characteristic_silent h).aside

theorem aside_statMode (mode : StatParseMode) (w : World) :
    Aside w { w with
      maker := { w.maker with statParserMode := some mode, statDataReady := false } } :=
  ⟨rfl, rfl, [], (List.append_nil _).symm, fun _ _ hf => absurd hf List.not_mem_nil⟩

/-- Between its calls `main` only asks for statistics. -/
theorem LoopStep.exec_aside {next : LoopStep} (h : next.exec r w = .ok (s, next')) :
    Aside w s.world := by
  cases exec_taken h with
  | request hw => exact (aside_write hw).trans (aside_statMode _ _)
  | poll _ hw => exact (read_characteristic_silent hw).aside
  | read_data hw => exact (read_characteristic_silent hw).aside
  | connect | get_state | polled | sleep | disconnect | wait | done => exact .refl w

theorem Aside.stage {stage : Stage} (h : stage.At w) (ha : Aside w w') : stage.At w' :=
  h.congr ha.link ha.announced

/-- The stages at which the coffee maker can be between the calls of `main`. -/
def LoopStep.stages : LoopStep → List Stage
  | .connect => [.fresh]
  | .get_state | .request _ | .poll _ _ | .read_data _ | .sleep => [.inUse, .gone, .stranded]
  | .disconnect | .wait | .done => [.failed, .gone]

/-- Where `main` can be at a stage. What it disconnects is gone already. -/
inductive Stage.Place (stage : Stage) : Pc → LoopStep → Prop
  | between (h : stage ∈ next.stages) : Place stage (.idle result) next
  | connecting (h : stage ∈ call.stages) : Place stage (.connect g written call) .connect
  | disconnecting (h : stage ∈ LoopStep.disconnect.stages) :
      Place stage (.disconnect written .test_state) .disconnect

structure TestExec.Staged (s : TestExec) (stage : Stage) : Prop where
  place : stage.Place s.system.pc s.next
  members : stage.At s.world

theorem staged_start (machines : List Machine) : (TestExec.start machines).Staged .fresh :=
  ⟨.between (List.mem_singleton.2 rfl), Stage.at_fresh machines⟩

theorem LoopStep.exec_place {next : LoopStep} {stage : Stage} (hm : stage ∈ next.stages)
    (ha : stage.At w) (h : next.exec r w = .ok (s, next')) : stage.Place s.pc next' := by
  cases exec_taken h with
  | connect => exact .connecting hm
  | disconnect => exact .disconnecting hm
  | get_state =>
    refine .between ?_
    rcases List.mem_cons.1 hm with rfl | hm
    · rw [if_pos (show w.maker.state = .CONNECTED from ha.state)]
      exact List.mem_cons_self
    rcases List.mem_pair.1 hm with rfl | rfl
    · rw [if_neg (by rw [ha.state]; decide)]
      exact List.mem_pair.2 (.inr rfl)
    · rw [if_pos (show w.maker.state = .CONNECTED from ha.state)]
      exact List.mem_cons_of_mem _ hm
  | @read_data _ mode => cases mode <;> exact .between hm
  | request | poll | polled | sleep | wait | done => exact .between hm

theorem ConnectStep.lost_mem {call : ConnectStep} {stage : Stage} (h : stage ∈ call.stages) :
    stage.lost ∈ call.stages := by
  revert stage
  cases call with
  | finish connected => cases connected <;> decide
  | _ => decide

theorem LoopStep.lost_mem {next : LoopStep} {stage : Stage} (h : stage ∈ next.stages) :
    stage.lost ∈ next.stages := by
  have hloop : ∀ stage ∈ [Stage.inUse, .gone, .stranded],
      stage.lost ∈ [Stage.inUse, .gone, .stranded] := by decide
  revert stage
  cases next with
  | connect | disconnect | wait | done => decide
  | get_state | request | poll | read_data | sleep => exact fun h => hloop _ h

theorem Stage.Place.lost {stage : Stage} (h : stage.Place pc next) : stage.lost.Place pc next := by
  cases h with
  | between h => exact .between (LoopStep.lost_mem h)
  | connecting h => exact .connecting (ConnectStep.lost_mem h)
  | disconnecting h => exact .disconnecting (LoopStep.lost_mem h)

theorem Stage.At.inactive {stage : Stage} (h : stage.At w)
    (hm : stage ∈ LoopStep.disconnect.stages) : w.maker.state.active = false := by
  rw [h.state]
  rcases List.mem_pair.1 hm with rfl | rfl <;> rfl

/-- What a turn makes of a stage. -/
def Stage.Becomes (stage : Stage) : TestTurn → Stage → Prop
  | .linkLost _, stage' => stage' = stage.lost
  | _, stage' => stage' = stage ∨ stage' ∈ stage.advances

theorem TestExec.Staged.step {s s' : TestExec} {stage : Stage} (h : s.Staged stage)
    (hs : s.step t = .ok s') : ∃ stage', s'.Staged stage' ∧ stage.Becomes t stage' := by
  obtain ⟨⟨w, pc⟩, next, beat⟩ := s
  obtain ⟨hp, ha⟩ := h
  cases TestExec.step_taken hs with
  | main hpc he =>
    cases hpc
    obtain ⟨hm⟩ := hp
    exact ⟨stage, ⟨LoopStep.exec_place hm ha he, (LoopStep.exec_aside he).stage ha⟩, .inl rfl⟩
  | connecting hpc he =>
    cases hpc
    obtain _ | hm := hp
    rcases ConnectStep.exec_stages hm ha he with
      ⟨connected, rfl, rfl⟩ | ⟨call', stage', hpc', hm', ha', hadv⟩
    · refine ⟨stage, ⟨.between ?_, ha⟩, .inl rfl⟩
      cases connected with
      | true => exact hm
      | false =>
        cases List.mem_singleton.1 hm
        exact List.mem_cons_self
    · refine ⟨stage', ⟨?_, ha'⟩, hadv⟩
      rw [hpc']
      exact .connecting hm'
  | disconnecting hpc he =>
    cases hpc
    obtain _ | _ | hm := hp
    cases he
    refine ⟨stage, ⟨?_, ha⟩, .inl rfl⟩
    rw [ha.inactive hm, if_neg Bool.false_ne_true]
    exact .between hm
  | joins => exact ⟨stage, ⟨hp, ha⟩, .inl rfl⟩
  | heartbeat _ he => exact ⟨stage, ⟨hp, (HeartbeatStep.exec_aside he).stage ha⟩, .inl rfl⟩
  | joined => exact ⟨stage, ⟨hp, ha⟩, .inl rfl⟩
  | notification hw =>
    exact ⟨stage, ⟨hp, (on_characteristic_read_silent hw).aside.stage ha⟩, .inl rfl⟩
  | linkLost hw => exact ⟨stage.lost, ⟨hp.lost, ha.linkLost hw⟩, rfl⟩

theorem staged_run (h : run TestExec.step (.start machines) turns = .ok s) :
    ∃ stage, s.Staged stage :=
  run_invariant (fun s : TestExec => ∃ stage, s.Staged stage)
    (fun _ _ _ ⟨_, hi⟩ hs => (hi.step hs).imp fun _ h => h.1) ⟨_, staged_start machines⟩ h

theorem Stage.Place.done {stage : Stage} (h : stage.Place pc .done) :
    stage = .failed ∨ stage = .gone := by
  obtain ⟨hm⟩ := h
  exact List.mem_pair.1 hm

/-- When the pass through a coffee maker is over, it is disconnected and its heartbeat thread has
been joined, and the user has seen it come and go once. -/
theorem test_exec_done (h : run TestExec.step (.start machines) turns = .ok s)
    (hn : s.next = .done) :
    s.world.maker.state = .DISCONNECTED ∧ s.world.maker.heartbeatThread = false ∧
      (s.world.announced = [.CONNECTING, .DISCONNECTED] ∨
        s.world.announced = [.CONNECTING, .CONNECTED, .DISCONNECTING, .DISCONNECTED]) := by
  obtain ⟨stage, hp, ha⟩ := staged_run h
  rw [hn] at hp
  rcases hp.done with rfl | rfl
  · exact ⟨ha.state, ha.heartbeat, .inl ha.announced⟩
  · exact ⟨ha.state, ha.heartbeat, .inr ha.announced⟩

def exampleConnect : List TestTurn :=
  .main { connect := exampleReplies } :: List.replicate 9 (.main {})

def exampleTurns : List TestTurn :=
  exampleConnect ++ [.heartbeat GATTLIB_SUCCESS none, .main {}, .main {},
    .heartbeat GATTLIB_SUCCESS none, .main {}, .linkLost GATTLIB_SUCCESS]

theorem test_exec_done_example : ∃ s, run TestExec.step (.start [exampleJoe.machine])
      (exampleTurns ++ List.replicate 74 (.main {})) = .ok s ∧
    s.world.maker.state = .DISCONNECTED ∧ s.world.maker.heartbeatThread = false ∧
      (s.world.announced = [.CONNECTING, .DISCONNECTED] ∨
        s.world.announced = [.CONNECTING, .CONNECTED, .DISCONNECTING, .DISCONNECTED]) := by
  obtain ⟨s, h, hn⟩ : ∃ s, run TestExec.step (.start [exampleJoe.machine])
      (exampleTurns ++ List.replicate 74 (.main {})) = .ok s ∧ s.next = .done := by decide +kernel
  exact ⟨s, h, test_exec_done h hn⟩

/-- The callbacks are registered, but the heartbeat thread is not yet started. -/
def Pc.handshaking : Pc → Bool
  | .connect _ _ call =>
    call ∈ [.parse_man_data, .stay_in_ble, .request_about_info, .start_heartbeat]
  | _ => false

/-- A device that is reached tells its manufacturer data, and it is not lost in the handshake. -/
def TestReady (s : TestExec) : TestTurn → Prop
  | .main _ => ∀ g written, s.system.pc = .connect g written .parse_man_data →
      g.manData.getD [] ≠ []
  | .linkLost _ => s.system.pc.handshaking = false
  | _ => True

theorem Stage.Place.linked_iff {stage : Stage} (h : stage.Place pc next) :
    stage = .linked ↔ pc.handshaking = true := by
  cases h with
  | between h =>
    refine iff_of_false ?_ Bool.false_ne_true
    rintro rfl
    cases next with
    | connect | disconnect | wait | done => exact absurd h (by decide)
    | get_state | request | poll | read_data | sleep =>
      have hloop : Stage.linked ∉ [Stage.inUse, .gone, .stranded] := by decide
      exact hloop h
  | @connecting _ _ call h =>
    refine Iff.trans ?_ decide_eq_true_iff.symm
    revert stage
    cases call with
    | finish connected => cases connected <;> decide
    | _ => decide
  | disconnecting h =>
    refine iff_of_false ?_ Bool.false_ne_true
    rintro rfl
    exact absurd h (by decide)

theorem HeartbeatStep.exec_lifecycle (next : HeartbeatStep) (written : Int) (reply : Option Bytes)
    (w : World) : NeverIn .lifecycle (next.exec written reply w) := by
  cases next with
  | test_state | sleep | exited => exact avoids_ok _ _
  | stay_in_ble =>
    refine neverIn_bind_iff.2 ⟨?_, fun _ _ => avoids_ok _ _⟩
    exact neverIn_of_faultsIn (faultsIn_write _ _ _ _ _ _) (by decide)
  | request_status =>
    refine neverIn_bind_iff.2 ⟨?_, fun _ _ => avoids_ok _ _⟩
    exact neverIn_of_faultsIn (faultsIn_read_characteristic _ _ _) (by decide)

theorem LoopStep.exec_lifecycle (next : LoopStep) (r : MainReplies) (w : World) :
    NeverIn .lifecycle (next.exec r w) := by
  have hread (uuid : Uuid) (f : World → System × LoopStep) : NeverIn .lifecycle (do
      let w ← BLEDevice.read_characteristic r.reply uuid w
      return f w) :=
    neverIn_bind_iff.2 ⟨neverIn_of_faultsIn (faultsIn_read_characteristic _ _ _) (by decide),
      fun _ _ => avoids_ok _ _⟩
  cases next with
  | connect | get_state | sleep | disconnect | wait | done => exact avoids_ok _ _
  | request mode =>
    refine neverIn_bind_iff.2 ⟨?_, fun _ _ => avoids_ok _ _⟩
    exact neverIn_of_faultsIn (faultsIn_write _ _ _ _ _ _) (by decide)
  | poll mode i =>
    rw [exec]
    split
    · exact hread _ _
    · exact avoids_ok _ _
  | read_data mode => exact hread _ _

theorem TestExec.Staged.main_safe_iff {s : TestExec} {stage : Stage} (h : s.Staged stage)
    (r : MainReplies) : NeverIn .lifecycle (s.main r) ↔ TestReady s (.main r) := by
  obtain ⟨⟨w, pc⟩, next, beat⟩ := s
  obtain ⟨hp, ha⟩ := h
  cases hp with
  | between hm =>
    refine iff_of_true ?_ fun _ _ hpc => Pc.noConfusion hpc
    exact neverIn_bind_iff.2 ⟨LoopStep.exec_lifecycle _ _ _, fun _ _ => avoids_ok _ _⟩
  | @connecting g written call hm =>
    have hexec : NeverIn .lifecycle
          (TestExec.main ⟨⟨w, .connect g written call⟩, .connect, beat⟩ r) ↔
        NeverIn .lifecycle (call.exec g written w) :=
      neverIn_bind_iff.trans ⟨fun hc => hc.1, fun hc => ⟨hc, fun _ _ => avoids_ok _ _⟩⟩
    rw [hexec, ConnectStep.exec_safe_iff hm ha]
    constructor
    · intro hg _ _ hpc
      cases hpc
      exact hg rfl
    · intro hg hcall
      exact hg g written (by rw [hcall])
  | disconnecting hm =>
    refine iff_of_true ?_ fun _ _ hpc => Pc.noConfusion hpc
    exact neverIn_bind_iff.2 ⟨avoids_ok _ _, fun _ _ => avoids_ok _ _⟩

theorem TestExec.Staged.safe_iff {s : TestExec} {stage : Stage} (h : s.Staged stage) :
    NeverIn .lifecycle (s.step t) ↔ TestReady s t := by
  cases t with
  | main r => exact h.main_safe_iff r
  | heartbeat written reply =>
    apply iff_true_intro
    rw [TestExec.step]
    split
    · exact neverIn_bind_iff.2 ⟨HeartbeatStep.exec_lifecycle _ _ _ _, fun _ _ => avoids_ok _ _⟩
    · exact avoids_ok _ _
  | notification n =>
    apply iff_true_intro
    exact neverIn_map_iff.2 (neverIn_map_iff.2
      (neverIn_of_faultsIn (faultsIn_on_characteristic_read _ _ _) (by decide)))
  | linkLost written =>
    refine (neverIn_map_iff.trans neverIn_map_iff).trans ?_
    rw [h.members.linkLost_safe_iff, ne_eq, h.place.linked_iff, Bool.not_eq_true]
    exact Iff.rfl

/-- Whatever the device sends, the assertions about the connection and the heartbeat thread can
only fail on a device that tells no manufacturer data or is lost in the handshake. -/
theorem test_exec_safe_iff (machines : List Machine) (turns : List TestTurn) :
    NeverIn .lifecycle (run TestExec.step (.start machines) turns) ↔
      Guarded TestExec.step TestReady (.start machines) turns :=
  avoids_iff_guarded (fun s : TestExec => ∃ stage, s.Staged stage)
    (fun _ _ _ ⟨_, hi⟩ hs => (hi.step hs).imp fun _ h => h.1) (fun _ _ ⟨_, hi⟩ => hi.safe_iff)
    ⟨_, staged_start machines⟩

end JuttaProto
