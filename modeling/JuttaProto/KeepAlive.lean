import JuttaProto.DisconnectEnds
import JuttaProto.TestStages

namespace JuttaProto
open Run
set_option autoImplicit true

def TestTurn.isHeartbeat : TestTurn → Bool
  | .heartbeat _ _ => true
  | _ => false

def TestTurn.isLinkLost : TestTurn → Bool
  | .linkLost _ => true
  | _ => false

def HeartbeatStep.untilWrite : HeartbeatStep → Nat
  | request_status => 3
  | sleep => 2
  | test_state => 1
  | stay_in_ble | exited => 0

def TestExec.Writing (s : TestExec) : Prop := s.heartbeat = .stay_in_ble

/-- The heartbeat thread does not end by itself. -/
structure AliveInv (s : TestExec) : Prop where
  staged : ∃ stage, s.Staged stage
  heartbeat : s.heartbeat ≠ .exited

theorem aliveInv_start (machines : List Machine) : AliveInv (.start machines) :=
  ⟨⟨_, staged_start machines⟩, HeartbeatStep.noConfusion⟩

/-- While the thread runs, it finds the coffee maker active. -/
theorem HeartbeatStep.exec_alive {next : HeartbeatStep} (hs : w.maker.state.active = true)
    (hn : next ≠ .exited) (h : next.exec written reply w = .ok (w', next')) :
    next' ≠ .exited := by
  cases next with
  | exited => exact absurd rfl hn
  | test_state =>
    rw [exec, hs] at h
    cases h
    exact HeartbeatStep.noConfusion
  | sleep =>
    cases h
    exact HeartbeatStep.noConfusion
  | stay_in_ble | request_status =>
    obtain ⟨w₁, _, h⟩ := bind_ok h
    cases h
    exact HeartbeatStep.noConfusion

theorem Stage.active_of_heartbeat {stage : Stage} (h : stage.heartbeat = true) :
    stage.state.active = true := by
  cases stage <;> first | rfl | cases h

theorem AliveInv.step {s s' : TestExec} (h : AliveInv s) (hs : s.step t = .ok s') :
    AliveInv s' := by
  obtain ⟨⟨stage, hst⟩, hbeat⟩ := h
  refine ⟨(hst.step hs).imp fun _ h => h.1, ?_⟩
  cases TestExec.step_taken hs with
  | heartbeat hthread he =>
    refine HeartbeatStep.exec_alive ?_ hbeat he
    rw [hst.members.state]
    exact Stage.active_of_heartbeat (hst.members.heartbeat.symm.trans hthread)
  | main | connecting | disconnecting | joins | joined | notification | linkLost => exact hbeat

structure TestExec.Connected (s : TestExec) : Prop where
  staged : s.Staged .inUse
  heartbeat : s.heartbeat ≠ .exited

theorem AliveInv.connected {s : TestExec} (h : AliveInv s)
    (hs : s.world.maker.state = .CONNECTED)
    (hc : s.world.maker.bleDevice.connected = true) : s.Connected := by
  obtain ⟨⟨stage, hst⟩, hbeat⟩ := h
  have huse := (Stage.eq_inUse_iff stage).2
    ⟨hst.members.state.symm.trans hs, hst.members.connected.symm.trans hc⟩
  rw [huse] at hst
  exact ⟨hst, hbeat⟩

namespace TestExec.Connected
variable {s s' : TestExec} (h : s.Connected)
include h

theorem state : s.world.maker.state = .CONNECTED := h.staged.members.state

theorem link : s.world.maker.bleDevice.connected = true := h.staged.members.connected

theorem thread : s.world.maker.heartbeatThread = true := h.staged.members.heartbeat

theorem step (ht : t.isLinkLost = false) (hs : s.step t = .ok s') : s'.Connected := by
  obtain ⟨stage, hst, hb⟩ := h.staged.step hs
  have halive := AliveInv.step ⟨⟨_, h.staged⟩, h.heartbeat⟩ hs
  have hsame : stage = .inUse := by
    cases t with
    | linkLost written => cases ht
    | main | heartbeat | notification => exact hb.resolve_right List.not_mem_nil
  rw [hsame] at hst
  exact ⟨hst, halive.heartbeat⟩

end TestExec.Connected

/-- Between its calls `main` only fails on statistics that it reads. -/
theorem LoopStep.exec_ok {next : LoopStep}
    (hread : ∀ mode, next = .read_data mode → ∃ w', BLEDevice.read_characteristic r.reply
      STATISTICS_DATA_CHARACTERISTIC_UUID w = .ok w') : ∃ p, next.exec r w = .ok p := by
  cases next with
  | request mode =>
    rw [exec, write_ne_nil (build_stats_cmd_ne_nil mode)]
    exact ⟨_, rfl⟩
  | poll mode i =>
    rw [exec, read_statistics_command]
    split
    · exact ⟨_, rfl⟩
    · exact ⟨_, rfl⟩
  | read_data mode =>
    obtain ⟨w', hw⟩ := hread mode rfl
    rw [exec, hw]
    exact ⟨_, rfl⟩
  | connect | disconnect | get_state | sleep | wait | done => exact ⟨_, rfl⟩

theorem Stage.Place.of_inUse (h : inUse.Place pc next) :
    (∃ result, pc = .idle result ∧ inUse ∈ next.stages) ∨
      ∃ g written, pc = .connect g written (.finish true) ∧ next = .connect := by
  cases h with
  | between hm => exact .inl ⟨_, rfl, hm⟩
  | @connecting g written call hm =>
    refine .inr ⟨g, written, ?_, rfl⟩
    cases call with
    | finish connected =>
      cases connected with
      | true => rfl
      | false => exact absurd hm (by decide)
    | _ => exact absurd hm (by decide)
  | disconnecting hm => exact absurd hm (by decide)

inductive TestExec.TakenInUse (s : TestExec) : TestTurn → TestExec → Prop
  | returned (hn : s.next = .connect) :
      TakenInUse s (.main r) ⟨⟨s.world, .idle (some true)⟩, .get_state, s.heartbeat⟩
  | main (hm : .inUse ∈ s.next.stages) (h : s.next.exec r s.world = .ok (sys, next')) :
      TakenInUse s (.main r) ⟨sys, next', s.heartbeat⟩
  | heartbeat (h : s.heartbeat.exec written reply s.world = .ok (w, beat)) :
      TakenInUse s (.heartbeat written reply) ⟨⟨w, s.system.pc⟩, s.next, beat⟩
  | notification (h : on_notification s.world n = .ok w) :
      TakenInUse s (.notification n) ⟨⟨w, s.system.pc⟩, s.next, s.heartbeat⟩
  | linkLost (h : BLEDevice.on_disconnected (on_disconnected written) s.world = .ok w) :
      TakenInUse s (.linkLost written) ⟨⟨w, s.system.pc⟩, s.next, s.heartbeat⟩

theorem TestExec.Connected.taken {s s' : TestExec} (h : s.Connected) (hs : s.step t = .ok s') :
    s.TakenInUse t s' := by
  have hthread := h.thread
  obtain ⟨⟨w, pc⟩, next, beat⟩ := s
  have hplace := h.staged.place
  dsimp only at hplace
  obtain ⟨result, rfl, hm⟩ | ⟨g, written, rfl, rfl⟩ := hplace.of_inUse
  · cases TestExec.step_taken hs with
    | main _ he => exact .main hm he
    | connecting hpc | disconnecting hpc | joins hpc => cases hpc
    | heartbeat _ he => exact .heartbeat he
    | joined hjoined => cases hthread.symm.trans hjoined
    | notification hw => exact .notification hw
    | linkLost hw => exact .linkLost hw
  · cases TestExec.step_taken hs with
    | connecting hpc he =>
      cases hpc
      cases he
      exact .returned rfl
    | main hpc | disconnecting hpc | joins hpc => cases hpc
    | heartbeat _ he => exact .heartbeat he
    | joined hjoined => cases hthread.symm.trans hjoined
    | notification hw => exact .notification hw
    | linkLost hw => exact .linkLost hw

theorem TestExec.Connected.main_ok {s : TestExec} (h : s.Connected)
    (hread : ∀ mode, s.next = .read_data mode → ∃ w', BLEDevice.read_characteristic r.reply
      STATISTICS_DATA_CHARACTERISTIC_UUID s.world = .ok w') :
    ∃ s', s.step (.main r) = .ok s' := by
  obtain ⟨⟨w, pc⟩, next, beat⟩ := s
  have hplace := h.staged.place
  dsimp only at hplace
  obtain ⟨result, rfl, _⟩ | ⟨g, written, rfl, _⟩ := hplace.of_inUse
  · obtain ⟨p, hp⟩ := LoopStep.exec_ok hread
    refine ⟨⟨p.1, p.2, beat⟩, ?_⟩
    change (next.exec r w >>= _) = _
    rw [hp]
    rfl
  · exact ⟨_, rfl⟩

theorem TestExec.heartbeat_unanswered (s : TestExec) (written : Int) :
    ∃ s', s.step (.heartbeat written none) = .ok s' := by
  rw [step]
  split
  · obtain ⟨p, hp⟩ := s.heartbeat.exec_unanswered written s.world
    rw [hp]
    exact ⟨_, rfl⟩
  · exact ⟨_, rfl⟩

theorem TestExec.step_heartbeat {s s' : TestExec} (ht : t.isHeartbeat = false)
    (hs : s.step t = .ok s') : s'.heartbeat = s.heartbeat := by
  cases step_taken hs with
  | heartbeat | joined => cases ht
  | main | connecting | disconnecting | joins | notification | linkLost => rfl

/-- On each of its turns the thread gets one step nearer to its next frame. -/
theorem HeartbeatStep.exec_untilWrite {next : HeartbeatStep} (hs : w.maker.state = .CONNECTED)
    (hn : next ≠ .exited) (hw : next ≠ .stay_in_ble)
    (h : next.exec written reply w = .ok (w', next')) :
    next'.untilWrite + 1 = next.untilWrite := by
  cases next with
  | exited => exact absurd rfl hn
  | stay_in_ble => exact absurd rfl hw
  | test_state =>
    rw [exec, hs] at h
    cases h
    rfl
  | sleep =>
    cases h
    rfl
  | request_status =>
    obtain ⟨w₁, _, h⟩ := bind_ok h
    cases h
    rfl

namespace TestExec.Connected
variable {s s' : TestExec} (h : s.Connected)
include h

theorem step_heartbeat (hs : s.step (.heartbeat written reply) = .ok s') :
    s.heartbeat.exec written reply s.world = .ok (s'.world, s'.heartbeat) := by
  cases h.taken hs with
  | heartbeat he => exact he

theorem progress (hw : ¬s.Writing) (hs : s.step t = .ok s') :
    Progress (fun s => s.heartbeat.untilWrite) (fun _ t => t.isHeartbeat = true)
      TestExec.Writing s t s' := by
  cases ht : t.isHeartbeat with
  | true =>
    cases t with
    | heartbeat written reply =>
      have he := h.step_heartbeat hs
      have hlower := HeartbeatStep.exec_untilWrite h.state h.heartbeat hw he
      exact .inr (.inl (Nat.lt_of_succ_le (Nat.le_of_eq hlower)))
    | main r | notification n | linkLost written => cases ht
  | false =>
    have hsame := TestExec.step_heartbeat ht hs
    refine .inr (.inr ⟨congrArg HeartbeatStep.untilWrite hsame, fun hb => ?_, fun _ hb => hb⟩)
    cases ht.symm.trans hb

theorem writes (hw : s.Writing) (hs : s.step (.heartbeat written reply) = .ok s') :
    s'.world.wire = s.world.wire ++
      [⟨P_MODE_CHARACTERISTIC_UUID, stayFrame s.world.key, written == GATTLIB_SUCCESS⟩] := by
  have he := h.step_heartbeat hs
  rw [hw, HeartbeatStep.exec, stay_in_ble_eq] at he
  have hworld : BLEDevice.write P_MODE_CHARACTERISTIC_UUID (stayFrame s.world.key) written s.world =
      s'.world := congrArg Prod.fst (Except.ok.inj he)
  rw [← hworld]
  dsimp only [BLEDevice.write]
  rw [h.link, Bool.true_and]

end TestExec.Connected

theorem aliveInv_state {x : Execution TestExec.step} (h0 : x.state 0 = .start machines) (n : Nat) :
    AliveInv (x.state n) := by
  refine x.always AliveInv (fun k _ hi => hi.step (x.step_ok k)) ?_ (Nat.zero_le n)
  rw [h0]
  exact aliveInv_start machines

/-- As long as the link is not lost, a coffee maker that is connected is told again and again to
stay so, if the heartbeat thread gets its turns. -/
theorem kept_alive {x : Execution TestExec.step} (h0 : x.state 0 = .start machines)
    (hbeat : x.Often (·.isHeartbeat = true))
    (hs : (x.state n).world.maker.state = .CONNECTED)
    (hc : (x.state n).world.maker.bleDevice.connected = true) :
    ∃ m, n ≤ m ∧ ((∃ written, x.turn m = .linkLost written) ∨
      ∃ written reply, x.turn m = .heartbeat written reply ∧
        (x.state (m + 1)).world.wire = (x.state m).world.wire ++
          [⟨P_MODE_CHARACTERISTIC_UUID, stayFrame (x.state m).world.key,
            written == GATTLIB_SUCCESS⟩]) := by
  by_cases hlost : ∃ m, n ≤ m ∧ (x.turn m).isLinkLost = true
  · obtain ⟨m, hm, ht⟩ := hlost
    refine ⟨m, hm, .inl ?_⟩
    cases hturn : x.turn m with
    | linkLost written => exact ⟨written, rfl⟩
    | _ =>
      rw [hturn] at ht
      cases ht
  have hkept (m : Nat) (hm : n ≤ m) : (x.turn m).isLinkLost = false :=
    eq_false_of_ne_true fun ht => hlost ⟨m, hm, ht⟩
  have hconnected {m : Nat} (hm : n ≤ m) : (x.state m).Connected :=
    x.always TestExec.Connected (fun k hk hi => hi.step (hkept k hk) (x.step_ok k))
      ((aliveInv_state h0 n).connected hs hc) hm
  have hstep (m : Nat) (hm : n ≤ m) (hi : (x.state m).Connected) (hw : ¬(x.state m).Writing) :
      (x.state (m + 1)).Connected ∧
        Progress (fun s => s.heartbeat.untilWrite) (fun _ t => t.isHeartbeat = true)
          TestExec.Writing (x.state m) (x.turn m) (x.state (m + 1)) :=
    ⟨hi.step (hkept m hm) (x.step_ok m), hi.progress hw (x.step_ok m)⟩
  -- The thread comes to its write, and its next turn is the write.
  obtain ⟨k, hk, hready⟩ := x.leads_to hstep (fun _ _ _ => hbeat) (hconnected (Nat.le_refl n))
  obtain ⟨m, hm, hturn, hother⟩ := hbeat.first k
  have hwrite : (x.state m).Writing := by
    clear hturn
    induction hm with
    | refl => exact hready
    | @step m hm ih =>
      have hsame := TestExec.step_heartbeat
        (eq_false_of_ne_true (hother m hm (Nat.lt_succ_self m))) (x.step_ok m)
      exact hsame.trans (ih fun j hj hlt => hother j hj (Nat.lt_succ_of_lt hlt))
  refine ⟨m, Nat.le_trans hk hm, .inr ?_⟩
  have hturn_ok := x.step_ok m
  cases ht : x.turn m with
  | heartbeat written reply =>
    rw [ht] at hturn_ok
    exact ⟨written, reply, rfl, (hconnected (Nat.le_trans hk hm)).writes hwrite hturn_ok⟩
  | _ =>
    rw [ht] at hturn
    cases hturn

/-- After the connect the heartbeat thread and `main` take turns, and the device does not answer. -/
def aliveTurn (n : Nat) : TestTurn :=
  if n % 2 = 0 then .heartbeat GATTLIB_SUCCESS none else .main {}

theorem kept_alive_example : ∃ x : Execution TestExec.step,
    x.state 0 = .start [exampleJoe.machine] ∧
      ∃ m, 10 ≤ m ∧ ((∃ written, x.turn m = .linkLost written) ∨
        ∃ written reply, x.turn m = .heartbeat written reply ∧
          (x.state (m + 1)).world.wire = (x.state m).world.wire ++
            [⟨P_MODE_CHARACTERISTIC_UUID, stayFrame (x.state m).world.key,
              written == GATTLIB_SUCCESS⟩]) := by
  obtain ⟨s, hr, hs, hc⟩ : ∃ s,
      run TestExec.step (.start [exampleJoe.machine]) exampleConnect = .ok s ∧
        s.world.maker.state = .CONNECTED ∧ s.world.maker.bleDevice.connected = true := by
    decide +kernel
  have hconnected : s.Connected := AliveInv.connected
    (run_invariant AliveInv (fun _ _ _ hi hs => hi.step hs) (aliveInv_start _) hr) hs hc
  have hstep (n : Nat) (s : TestExec) (h : s.Connected) :
      ∃ s', s.step (aliveTurn n) = .ok s' ∧ s'.Connected := by
    obtain ⟨s', hs⟩ : ∃ s', s.step (aliveTurn n) = .ok s' := by
      rw [aliveTurn]
      split
      · exact s.heartbeat_unanswered GATTLIB_SUCCESS
      · exact h.main_ok fun _ _ => ⟨_, read_unanswered _ s.world⟩
    refine ⟨s', hs, h.step ?_ hs⟩
    rw [aliveTurn]
    split <;> rfl
  obtain ⟨x, hx, hturn⟩ :=
    Execution.exists_schedule (P := fun _ => TestExec.Connected) hstep hconnected
  obtain ⟨y, hy, hrest⟩ := Execution.exists_after hr x hx
  have hbeat : x.Often (·.isHeartbeat = true) := fun n => by
    refine ⟨2 * n, by omega, ?_⟩
    rw [hturn, aliveTurn, if_pos (Nat.mul_mod_right 2 n)]
    rfl
  have hstart : y.state 10 = s := (hrest 0).1.trans hx
  exact ⟨y, hy, kept_alive hy (hbeat.after fun n => (hrest n).2) (by rw [hstart]; exact hs)
    (by rw [hstart]; exact hc)⟩

end JuttaProto
