import JuttaProto.ConversationRefined
import JuttaProto.HeartbeatRace

namespace JuttaProto
open Run
set_option autoImplicit true

/-- What the loop of `main` does next with the coffee maker that it has found, or the call that it
has made. -/
inductive LoopStep
  | connect
  | get_state
  | request (mode : StatParseMode)
  | poll (mode : StatParseMode) (i : Nat)
  | read_data (mode : StatParseMode)
  | sleep
  | disconnect
  | wait
  | done
  deriving DecidableEq, Repr

structure MainReplies where
  connect : ConnectReplies := {}
  written : Int := GATTLIB_SUCCESS
  reply : Option Bytes := none

def StatParseMode.requested : StatParseMode → LoopStep
  | .MAINTENANCE_COUNTER => .request .MAINTENANCE_PERCENT
  | .MAINTENANCE_PERCENT => .request .PRODUCT_COUNTERS
  | .PRODUCT_COUNTERS => .sleep

/-- One step of the loop between its calls. Those of `connect` and `disconnect` begin here, and a
request for statistics is taken step by step. -/
def LoopStep.exec (r : MainReplies) (w : World) : LoopStep → Except Fault (System × LoopStep)
  | connect => .ok (⟨w, .connect r.connect r.written .set_connecting⟩, .connect)
  | get_state =>
    .ok (⟨w, .idle none⟩,
      if w.maker.state = .CONNECTED then .request .MAINTENANCE_COUNTER else .disconnect)
  | request mode => do
    let w ← write STATISTICS_COMMAND_CHARACTERISTIC_UUID (build_stats_cmd mode) true true
      r.written w
    let maker := { w.maker with statParserMode := some mode, statDataReady := false }
    return (⟨{ w with maker }, .idle none⟩, .poll mode 0)
  | poll mode i =>
    if i < 20 && !w.maker.statDataReady then do
      let w ← BLEDevice.read_characteristic r.reply STATISTICS_COMMAND_CHARACTERISTIC_UUID w
      return (⟨w, .idle none⟩, .poll mode (i + 1))
    else .ok (⟨w, .idle none⟩, .read_data mode)
  | read_data mode => do
    let w ← BLEDevice.read_characteristic r.reply STATISTICS_DATA_CHARACTERISTIC_UUID w
    return (⟨w, .idle none⟩, mode.requested)
  | sleep => .ok (⟨w, .idle none⟩, .get_state)
  | disconnect => .ok (⟨w, .disconnect r.written .test_state⟩, .disconnect)
  | wait => .ok (⟨w, .idle none⟩, .done)
  | done => .ok (⟨w, .idle none⟩, .done)

def LoopStep.after : Pc → LoopStep → LoopStep
  | .idle (some true), .connect => .get_state
  | .idle _, .connect => .disconnect
  | .idle _, .disconnect => .wait
  | _, next => next

/-- One pass of the loop of `main` through a coffee maker, beside its heartbeat thread. -/
structure TestExec where
  system : System
  next : LoopStep
  heartbeat : HeartbeatStep

abbrev TestExec.world (s : TestExec) : World := s.system.world

inductive TestTurn
  | main (r : MainReplies)
  | heartbeat (written : Int) (reply : Option Bytes)
  | notification (n : Notification)
  | linkLost (written : Int)

/-- A call goes on until it returns. A join waits until the heartbeat thread has left its loop. -/
def TestExec.main (s : TestExec) (r : MainReplies) : Except Fault TestExec :=
  match s.system.pc with
  | .idle _ => do
    let (system, next) ← s.next.exec r s.world
    return { s with system, next }
  | pc =>
    if pc.joining && s.world.maker.heartbeatThread && s.heartbeat ≠ .exited then .ok s
    else do
      let system ← s.system.advance
      return { s with system, next := s.next.after system.pc }

/-- The heartbeat thread runs from the end of the handshake until it is joined. -/
def TestExec.step (s : TestExec) : TestTurn → Except Fault TestExec
  | .main r => s.main r
  | .heartbeat written reply =>
    if s.world.maker.heartbeatThread then do
      let (world, heartbeat) ← s.heartbeat.exec written reply s.world
      return { s with system := { s.system with world }, heartbeat }
    else .ok s
  | .notification n => ({ s with system := · }) <$> s.system.step (.notification n)
  | .linkLost written => ({ s with system := · }) <$> s.system.step (.linkLost written)

def TestExec.start (machines : List Machine) : TestExec :=
  ⟨System.fresh machines, .connect, .test_state⟩

inductive LoopStep.Taken (r : MainReplies) (w : World) : LoopStep → System → LoopStep → Prop
  | connect : Taken r w .connect ⟨w, .connect r.connect r.written .set_connecting⟩ .connect
  | get_state : Taken r w .get_state ⟨w, .idle none⟩
      (if w.maker.state = .CONNECTED then .request .MAINTENANCE_COUNTER else .disconnect)
  | request (h : write STATISTICS_COMMAND_CHARACTERISTIC_UUID (build_stats_cmd mode) true true
      r.written w = .ok w') :
      Taken r w (.request mode)
        ⟨{ w' with
          maker := { w'.maker with statParserMode := some mode, statDataReady := false } },
          .idle none⟩ (.poll mode 0)
  | poll (hi : i < 20) (h : BLEDevice.read_characteristic r.reply
      STATISTICS_COMMAND_CHARACTERISTIC_UUID w = .ok w') :
      Taken r w (.poll mode i) ⟨w', .idle none⟩ (.poll mode (i + 1))
  | polled : Taken r w (.poll mode i) ⟨w, .idle none⟩ (.read_data mode)
  | read_data (h : BLEDevice.read_characteristic r.reply
      STATISTICS_DATA_CHARACTERISTIC_UUID w = .ok w') :
      Taken r w (.read_data mode) ⟨w', .idle none⟩ mode.requested
  | sleep : Taken r w .sleep ⟨w, .idle none⟩ .get_state
  | disconnect : Taken r w .disconnect ⟨w, .disconnect r.written .test_state⟩ .disconnect
  | wait : Taken r w .wait ⟨w, .idle none⟩ .done
  | done : Taken r w .done ⟨w, .idle none⟩ .done

theorem LoopStep.exec_taken {next : LoopStep} (h : next.exec r w = .ok (s, next')) :
    Taken r w next s next' := by
  cases next with
  | request mode =>
    obtain ⟨w₁, h₁, h⟩ := bind_ok h
    cases h
    exact .request h₁
  | poll mode i =>
    rw [exec] at h
    split at h
    · rename_i hlt
      obtain ⟨w₁, h₁, h⟩ := bind_ok h
      cases h
      exact .poll (of_decide_eq_true (Bool.and_eq_true_iff.1 hlt).1) h₁
    · cases h
      exact .polled
  | read_data mode =>
    obtain ⟨w₁, h₁, h⟩ := bind_ok h
    cases h
    exact .read_data h₁
  | connect =>
    cases h
    exact .connect
  | get_state =>
    cases h
    exact .get_state
  | sleep =>
    cases h
    exact .sleep
  | disconnect =>
    cases h
    exact .disconnect
  | wait =>
    cases h
    exact .wait
  | done =>
    cases h
    exact .done

inductive TestExec.Taken (s : TestExec) : TestTurn → TestExec → Prop
  | main (hpc : s.system.pc = .idle connected)
      (h : s.next.exec r s.world = .ok (sys, next')) :
      Taken s (.main r) ⟨sys, next', s.heartbeat⟩
  | connecting (hpc : s.system.pc = .connect g written call)
      (h : call.exec g written s.world = .ok sys) :
      Taken s (.main r) ⟨sys, s.next.after sys.pc, s.heartbeat⟩
  | disconnecting (hpc : s.system.pc = .disconnect written call)
      (h : call.exec written s.world = .ok sys) :
      Taken s (.main r) ⟨sys, s.next.after sys.pc, s.heartbeat⟩
  | joins (hpc : s.system.pc.joining = true) : Taken s (.main r) s
  | heartbeat (hthread : s.world.maker.heartbeatThread = true)
      (h : s.heartbeat.exec written reply s.world = .ok (w, beat)) :
      Taken s (.heartbeat written reply) ⟨⟨w, s.system.pc⟩, s.next, beat⟩
  | joined (hthread : s.world.maker.heartbeatThread = false) :
      Taken s (.heartbeat written reply) s
  | notification (h : on_notification s.world n = .ok w) :
      Taken s (.notification n) ⟨⟨w, s.system.pc⟩, s.next, s.heartbeat⟩
  | linkLost (h : BLEDevice.on_disconnected (on_disconnected written) s.world = .ok w) :
      Taken s (.linkLost written) ⟨⟨w, s.system.pc⟩, s.next, s.heartbeat⟩

theorem TestExec.step_taken {s s' : TestExec} (hs : s.step t = .ok s') : Taken s t s' := by
  obtain ⟨⟨w, pc⟩, next, beat⟩ := s
  cases t with
  | main r =>
    cases pc with
    | idle connected =>
      obtain ⟨⟨system, next'⟩, he, hs⟩ := bind_ok hs
      cases hs
      exact .main rfl he
    | connect g written call =>
      obtain ⟨system, he, hs⟩ := bind_ok hs
      cases hs
      exact .connecting rfl he
    | disconnect written call =>
      rw [step, TestExec.main] at hs
      dsimp only at hs
      split at hs
      · rename_i hj
        cases hs
        simp only [Bool.and_eq_true] at hj
        exact .joins hj.1.1
      · obtain ⟨system, he, hs⟩ := bind_ok hs
        cases hs
        exact .disconnecting rfl he
  | heartbeat written reply =>
    rw [step] at hs
    split at hs
    · rename_i hthread
      obtain ⟨⟨w', beat'⟩, he, hs⟩ := bind_ok hs
      cases hs
      exact .heartbeat hthread he
    · rename_i hthread
      cases hs
      exact .joined (eq_false_of_ne_true hthread)
  | notification n =>
    obtain ⟨system, hn, rfl⟩ := map_ok hs
    obtain ⟨w', hw, rfl⟩ := map_ok hn
    exact .notification hw
  | linkLost written =>
    obtain ⟨system, hn, rfl⟩ := map_ok hs
    obtain ⟨w', hw, rfl⟩ := map_ok hn
    exact .linkLost hw

def LoopStep.steps : List MainReplies → World → LoopStep → Except Fault (World × LoopStep)
  | [], w, next => .ok (w, next)
  | r :: replies, w, next => do
    let (s, next) ← next.exec r w
    steps replies s.world next

theorem LoopStep.steps_append (replies replies' : List MainReplies) (w : World)
    (next : LoopStep) : steps (replies ++ replies') w next =
      steps replies w next >>= fun p => steps replies' p.1 p.2 := by
  induction replies generalizing w next with
  | nil => rfl
  | cons r replies ih =>
    rw [List.cons_append, steps, steps]
    cases next.exec r w with
    | error e => rfl
    | ok p => exact ih p.1.world p.2

theorem LoopStep.steps_poll (polls : Nat → Option Bytes) (mode : StatParseMode) (hi : n + i = 20)
    (w : World) : ∃ replies,
      steps replies w (.poll mode i) = (·, .read_data mode) <$> pollLoop polls n i w := by
  induction n generalizing i w with
  | zero =>
    refine ⟨[{ reply := none }], ?_⟩
    have hlast : (decide (i < 20) && !w.maker.statDataReady) = false := by
      rw [decide_eq_false (by omega), Bool.false_and]
    rw [steps, exec, hlast]
    rfl
  | succ n ih =>
    have hlt : decide (i < 20) = true := decide_eq_true (by omega)
    cases hr : w.maker.statDataReady with
    | true =>
      refine ⟨[{ reply := none }], ?_⟩
      rw [steps, exec, pollLoop, hlt, hr]
      rfl
    | false =>
      cases hread : BLEDevice.read_characteristic (polls i)
          STATISTICS_COMMAND_CHARACTERISTIC_UUID w with
      | error e =>
        refine ⟨[{ reply := polls i }], ?_⟩
        simp only [steps, exec, pollLoop, hlt, hr, hread]
        rfl
      | ok w₁ =>
        obtain ⟨replies, h⟩ := ih (i := i + 1) (by omega) w₁
        refine ⟨{ reply := polls i } :: replies, ?_⟩
        simp only [steps, exec, pollLoop, hlt, hr, hread]
        exact h

/-- A request for statistics that is not interrupted is the request taken in one step. -/
theorem LoopStep.request_uninterrupted (replies : StatReplies) (mode : StatParseMode)
    (written : Int) (w : World) : ∃ answers, steps answers w (.request mode) =
      (·, mode.requested) <$> request_statistics replies mode written w := by
  let asked := BLEDevice.write STATISTICS_COMMAND_CHARACTERISTIC_UUID
    (encDecBytes (override w.key true (build_stats_cmd mode)) w.key) written w
  let w₁ : World := { asked with
    maker := { asked.maker with statParserMode := some mode, statDataReady := false } }
  obtain ⟨polls, hpolls⟩ := steps_poll replies.polls mode (n := 20) (i := 0) rfl w₁
  refine ⟨{ written } :: (polls ++ [{ reply := replies.data }]), ?_⟩
  rw [steps, exec, request_statistics, write_ne_nil (build_stats_cmd_ne_nil mode)]
  change steps (polls ++ [{ reply := replies.data }]) w₁ (.poll mode 0) = _
  rw [steps_append, hpolls]
  change _ = (·, mode.requested) <$> (pollLoop replies.polls 20 0 w₁ >>= _)
  cases pollLoop replies.polls 20 0 w₁ with
  | error e => rfl
  | ok w₂ =>
    change steps [{ reply := replies.data }] w₂ (.read_data mode) = _
    rw [steps, exec, ok_bind]
    cases BLEDevice.read_characteristic replies.data STATISTICS_DATA_CHARACTERISTIC_UUID w₂ with
    | error e => rfl
    | ok w₃ => rfl

end JuttaProto
