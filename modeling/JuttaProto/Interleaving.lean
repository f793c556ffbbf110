import JuttaProto.ConnectionLifecycle

namespace JuttaProto
open Run
set_option autoImplicit true

inductive ConnectStep
  | set_connecting
  | open_link
  | register
  | parse_man_data
  | stay_in_ble
  | request_about_info
  | start_heartbeat
  | set_connected
  | set_disconnected
  | finish (connected : Bool)
  deriving DecidableEq, Repr

inductive DisconnectStep
  | test_state
  | set_disconnecting
  | send_disconnect
  | join
  | set_disconnected
  deriving DecidableEq, Repr

/-- Where the thread of the user is. Between two calls it has the last result of `connect`. -/
inductive Pc
  | idle (connected : Option Bool)
  | connect (g : ConnectReplies) (written : Int) (next : ConnectStep)
  | disconnect (written : Int) (next : DisconnectStep)

structure System where
  world : World
  pc : Pc

/-- One step of `CoffeeMaker::connect` and the functions that it calls. -/
def ConnectStep.exec (g : ConnectReplies) (written : Int) (w : World) :
    ConnectStep → Except Fault System
  | set_connecting => .ok ⟨JuttaProto.set_state .CONNECTING w, .connect g written .open_link⟩
  | open_link => do
    let (w, opened) ← BLEDevice.open_link g w
    return ⟨w, .connect g written (if opened then .register else .set_disconnected)⟩
  | register => do
    let w ← run on_notification w g.notifications
    return ⟨w.withDevice { w.maker.bleDevice with connected := true },
      .connect g written .parse_man_data⟩
  | parse_man_data =>
    let manData := g.manData.getD []
    if manData = [] then do
      let w ← JuttaProto.disconnect written w
      return ⟨w, .connect g written .set_connected⟩
    else do
      let w ← JuttaProto.parse_man_data manData g.doc w
      return ⟨w, .connect g written .stay_in_ble⟩
  | stay_in_ble => do
    let w ← JuttaProto.stay_in_ble written w
    return ⟨w, .connect g written .request_about_info⟩
  | request_about_info => do
    let w ← JuttaProto.request_about_info g.about w
    return ⟨w, .connect g written .start_heartbeat⟩
  | start_heartbeat => do
    let w ← JuttaProto.start_heartbeat w
    return ⟨w, .connect g written .set_connected⟩
  | set_connected => .ok ⟨set_state .CONNECTED w, .connect g written (.finish true)⟩
  | set_disconnected => .ok ⟨set_state .DISCONNECTED w, .connect g written (.finish false)⟩
  | finish connected => .ok ⟨w, .idle (some connected)⟩

def DisconnectStep.exec (written : Int) (w : World) : DisconnectStep → Except Fault System
  | test_state =>
    .ok ⟨w, if w.maker.state.active then .disconnect written .set_disconnecting else .idle none⟩
  | set_disconnecting =>
    .ok ⟨set_state .DISCONNECTING w, .disconnect written .send_disconnect⟩
  | send_disconnect => do
    let w ← JuttaProto.send_disconnect written w
    return ⟨w, .disconnect written .join⟩
  | join => do
    let w ← JuttaProto.join w
    return ⟨w, .disconnect written .set_disconnected⟩
  | set_disconnected => .ok ⟨set_state .DISCONNECTED w, .idle none⟩

/-- What can happen next: the user makes a call, the call in progress goes on, or gattlib
delivers a notification or the loss of the link. -/
inductive Turn
  | begin (c : Call) (written : Int)
  | advance
  | notification (n : Notification)
  | linkLost (written : Int)

/-- Calls are made one after the other, and the other calls than `connect` and `disconnect` are
taken in one step. -/
def System.begin (s : System) (c : Call) (written : Int) : Except Fault System :=
  match s.pc with
  | .idle _ =>
    match c with
    | .connect g => .ok ⟨s.world, .connect g written .set_connecting⟩
    | .disconnect => .ok ⟨s.world, .disconnect written .test_state⟩
    | c => do
      let w ← c.issue written s.world
      return ⟨w, .idle none⟩
  | _ => .ok s

def System.advance (s : System) : Except Fault System :=
  match s.pc with
  | .idle _ => .ok s
  | .connect g written next => next.exec g written s.world
  | .disconnect written next => next.exec written s.world

def System.step (s : System) : Turn → Except Fault System
  | .begin c written => s.begin c written
  | .advance => s.advance
  | .notification n => (⟨·, s.pc⟩) <$> on_notification s.world n
  | .linkLost written => (⟨·, s.pc⟩) <$> BLEDevice.on_disconnected (on_disconnected written) s.world

def System.fresh (machines : List Machine) : System := ⟨World.fresh machines, .idle none⟩

def advances (n : Nat) (s : System) : Except Fault System :=
  run System.step s (List.replicate n .advance)

theorem advances_succ (n : Nat) (s : System) :
    advances (n + 1) s = s.advance >>= advances n := rfl

theorem advances_connect (n : Nat) (g : ConnectReplies) (written : Int) (next : ConnectStep)
    (w : World) :
    advances (n + 1) ⟨w, .connect g written next⟩ = next.exec g written w >>= advances n := rfl

theorem advances_disconnect (n : Nat) (written : Int) (next : DisconnectStep) (w : World) :
    advances (n + 1) ⟨w, .disconnect written next⟩ = next.exec written w >>= advances n := rfl

theorem advances_idle (n : Nat) (w : World) (connected : Option Bool) :
    advances n ⟨w, .idle connected⟩ = .ok ⟨w, .idle connected⟩ := by
  induction n with
  | zero => rfl
  | succ n ih =>
    rw [advances_succ]
    exact ih

theorem advances_set_connected (n : Nat) (g : ConnectReplies) (written : Int) (w : World) :
    advances (n + 2) ⟨w, .connect g written .set_connected⟩ =
      .ok ⟨set_state .CONNECTED w, .idle (some true)⟩ := by
  rw [advances_succ]
  exact advances_idle n _ _

theorem advances_set_disconnected (n : Nat) (g : ConnectReplies) (written : Int) (w : World) :
    advances (n + 2) ⟨w, .connect g written .set_disconnected⟩ =
      .ok ⟨set_state .DISCONNECTED w, .idle (some false)⟩ := by
  rw [advances_succ]
  exact advances_idle n _ _

theorem advances_on_connected (g : ConnectReplies) (written : Int) (w : World) :
    advances 6 ⟨w, .connect g written .parse_man_data⟩ =
      (fun w => ⟨set_state .CONNECTED w, .idle (some true)⟩) <$> on_connected g written w := by
  rw [advances_connect, ConnectStep.exec, on_connected]
  split
  · cases disconnect written w with
    | error e => rfl
    | ok w₁ => exact advances_set_connected 3 g written w₁
  · cases parse_man_data (g.manData.getD []) g.doc w with
    | error e => rfl
    | ok w₁ =>
      change advances 5 ⟨w₁, .connect g written .stay_in_ble⟩ = _
      rw [advances_connect, ConnectStep.exec, ok_bind]
      cases stay_in_ble written w₁ with
      | error e => rfl
      | ok w₂ =>
        change advances 4 ⟨w₂, .connect g written .request_about_info⟩ = _
        rw [advances_connect, ConnectStep.exec, ok_bind]
        cases request_about_info g.about w₂ with
        | error e => rfl
        | ok w₃ =>
          change advances 3 ⟨w₃, .connect g written .start_heartbeat⟩ = _
          rw [advances_connect, ConnectStep.exec, ok_bind]
          cases start_heartbeat w₃ with
          | error e => rfl
          | ok w₄ => exact advances_set_connected 0 g written w₄

/-- Without an interruption the steps of a `connect` make up the call. -/
theorem connect_uninterrupted (g : ConnectReplies) (written : Int) (w : World) :
    advances 9 ⟨w, .connect g written .set_connecting⟩ =
      (fun r => ⟨r.1, .idle (some r.2)⟩) <$> connect g written w := by
  rw [advances_connect, ConnectStep.exec, ok_bind, advances_connect, ConnectStep.exec, connect,
    BLEDevice.connect]
  cases BLEDevice.open_link g (set_state .CONNECTING w) with
  | error e => rfl
  | ok r =>
    obtain ⟨w₁, opened⟩ := r
    cases opened with
    | false => exact advances_set_disconnected 5 g written w₁
    | true =>
      change advances 7 ⟨w₁, .connect g written .register⟩ = _
      simp only [ok_bind, if_true]
      rw [advances_connect, ConnectStep.exec]
      cases run on_notification w₁ g.notifications with
      | error e => rfl
      | ok w₂ =>
        simp only [ok_bind]
        refine (advances_on_connected g written
          (w₂.withDevice { w₂.maker.bleDevice with connected := true })).trans ?_
        cases on_connected g written
          (w₂.withDevice { w₂.maker.bleDevice with connected := true }) with
        | error e => rfl
        | ok w₃ => rfl

theorem disconnect_uninterrupted (written : Int) (w : World) :
    advances 5 ⟨w, .disconnect written .test_state⟩ =
      (fun w => ⟨w, .idle none⟩) <$> disconnect written w := by
  rw [advances_disconnect, DisconnectStep.exec, ok_bind, disconnect]
  cases w.maker.state.active with
  | false => exact advances_idle 4 w none
  | true =>
    simp only [if_true]
    rw [advances_disconnect, DisconnectStep.exec, ok_bind, advances_disconnect,
      DisconnectStep.exec]
    cases send_disconnect written (set_state .DISCONNECTING w) with
    | error e => rfl
    | ok w₁ =>
      change advances 2 ⟨w₁, .disconnect written .join⟩ = _
      rw [advances_disconnect, DisconnectStep.exec, ok_bind]
      cases join w₁ with
      | error e => rfl
      | ok w₂ => exact advances_idle 0 _ _

end JuttaProto
