import JuttaProto.Execution
import JuttaProto.HeartbeatRace

namespace JuttaProto
open Run
set_option autoImplicit true

/-- The steps that the heartbeat thread still takes when it finds the coffee maker inactive. -/
def HeartbeatStep.left : HeartbeatStep → Nat
  | exited => 0
  | test_state => 1
  | sleep => 2
  | request_status => 3
  | stay_in_ble => 4

def Pc.left : Pc → Nat
  | .disconnect _ .test_state => 5
  | .disconnect _ .set_disconnecting => 4
  | .disconnect _ .send_disconnect => 3
  | .disconnect _ .join => 2
  | .disconnect _ .set_disconnected => 1
  | _ => 0

def Race.beatsLeft (r : Race) : Nat :=
  if r.system.world.maker.state.active then 4 else r.heartbeat.left

def Race.rank (r : Race) : Nat := 5 * r.system.pc.left + r.beatsLeft

def RaceTurn.isHeartbeat : RaceTurn → Bool
  | .heartbeat _ _ => true
  | .user => false

/-- The thread that the call of `disconnect` is waiting for. -/
def Race.awaits (r : Race) (t : RaceTurn) : Prop :=
  t.isHeartbeat = (r.system.pc.joining && r.heartbeat ≠ .exited)

structure Race.Ended (r : Race) : Prop where
  pc : r.system.pc = .idle none
  heartbeat : r.heartbeat = .exited
  state : r.system.world.maker.state = .DISCONNECTED
  heartbeatThread : r.system.world.maker.heartbeatThread = false

def Race.Ending (r : Race) : Prop :=
  match r.system.pc with
  | .disconnect _ .test_state | .disconnect _ .set_disconnecting =>
    r.system.world.maker.state.active = true ∧ r.system.world.maker.heartbeatThread = true
  | .disconnect _ .send_disconnect | .disconnect _ .join =>
    r.system.world.maker.state = .DISCONNECTING ∧ r.system.world.maker.heartbeatThread = true
  | .disconnect _ .set_disconnected =>
    r.heartbeat = .exited ∧ r.system.world.maker.state = .DISCONNECTING ∧
      r.system.world.maker.heartbeatThread = false
  | .idle none => r.Ended
  | _ => False

theorem HeartbeatStep.left_le (next : HeartbeatStep) : next.left ≤ 4 := by
  cases next <;> decide

theorem HeartbeatStep.exec_link {next : HeartbeatStep}
    (h : next.exec written reply w = .ok (w', next')) : w'.link = w.link := by
  cases next with
  | test_state | sleep | exited =>
    cases h
    rfl
  | stay_in_ble =>
    obtain ⟨w₁, h₁, h⟩ := bind_ok h
    cases h
    exact link_eq_of_maker (write_maker h₁)
  | request_status =>
    obtain ⟨w₁, h₁, h⟩ := bind_ok h
    cases h
    exact read_characteristic_link h₁

theorem HeartbeatStep.exec_left {next : HeartbeatStep} (ha : w.maker.state.active = false)
    (h : next.exec written reply w = .ok (w', next')) : next'.left = next.left - 1 := by
  cases next with
  | test_state =>
    rw [HeartbeatStep.exec, ha] at h
    cases h
    rfl
  | sleep | exited =>
    cases h
    rfl
  | stay_in_ble | request_status =>
    obtain ⟨w₁, h₁, h⟩ := bind_ok h
    cases h
    rfl

theorem Race.Ending.heartbeat {r : Race} (h : r.Ending)
    (hs : r.step (.heartbeat written reply) = .ok r') : r'.Ending := by
  obtain ⟨⟨w, pc⟩, beat⟩ := r
  obtain ⟨⟨w', beat'⟩, he, hs⟩ := bind_ok hs
  cases hs
  have hl := HeartbeatStep.exec_link he
  have hexited : beat = .exited → beat' = .exited := by
    rintro rfl
    cases he
    rfl
  simp only [World.link, Prod.mk.injEq] at hl
  obtain ⟨hstate, _, hthread, _⟩ := hl
  cases pc with
  | idle connected =>
    cases connected with
    | none =>
      obtain ⟨hp, hb, hst, hth⟩ := h
      exact ⟨hp, hexited hb, hstate.trans hst, hthread.trans hth⟩
    | some connected => exact h
  | connect g written next => exact h
  | disconnect written next =>
    cases next with
    | set_disconnected =>
      obtain ⟨hb, hst, hth⟩ := h
      exact ⟨hexited hb, hstate.trans hst, hthread.trans hth⟩
    | _ =>
      simp only [Race.Ending, hstate, hthread]
      exact h

theorem Race.Ending.user {r : Race} (h : r.Ending) (hs : r.step .user = .ok r') : r'.Ending := by
  rcases Race.user_cases hs with ⟨_, _, rfl⟩ | ⟨hj, ha, hb⟩
  · exact h
  obtain ⟨⟨w, pc⟩, beat⟩ := r
  obtain ⟨⟨w', pc'⟩, beat'⟩ := r'
  simp only at hb
  cases hb
  cases pc with
  | idle connected =>
    cases ha
    exact h
  | connect g written next => exact h.elim
  | disconnect written next =>
    change next.exec written w = .ok ⟨w', pc'⟩ at ha
    cases next with
    | test_state =>
      obtain ⟨hactive, hthread⟩ := h
      simp only at hactive
      rw [DisconnectStep.exec, if_pos hactive] at ha
      cases ha
      exact ⟨hactive, hthread⟩
    | set_disconnecting =>
      cases ha
      refine ⟨?_, ?_⟩
      · simp only [set_state_maker]
      · simp only [set_state_maker]
        exact h.2
    | send_disconnect =>
      obtain ⟨w₁, h₁, ha⟩ := bind_ok ha
      cases ha
      simp only [Race.Ending, write_maker h₁]
      exact h
    | join =>
      obtain ⟨w₁, h₁, ha⟩ := bind_ok ha
      cases ha
      unfold JuttaProto.join at h₁
      split at h₁
      · cases h₁
        exact ⟨hj rfl, h.1, rfl⟩
      · cases h₁
    | set_disconnected =>
      cases ha
      obtain ⟨hb, _, hthread⟩ := h
      refine ⟨rfl, hb, ?_, ?_⟩
      · simp only [set_state_maker]
      · simp only [set_state_maker]
        exact hthread

theorem Race.beatsLeft_le (r : Race) : r.beatsLeft ≤ 4 := by
  rw [beatsLeft]
  split
  · exact Nat.le_refl 4
  · exact r.heartbeat.left_le

theorem Race.Ending.not_joining {r : Race} (h : r.Ending)
    (ha : r.system.world.maker.state.active = true) : r.system.pc.joining = false := by
  obtain ⟨⟨w, pc⟩, beat⟩ := r
  cases pc with
  | idle connected => rfl
  | connect g written next => rfl
  | disconnect written next =>
    cases next with
    | join =>
      simp only at ha
      rw [h.1] at ha
      cases ha
    | _ => rfl

theorem Race.Ending.heartbeat_progress {r : Race} (h : r.Ending)
    (hs : r.step (.heartbeat written reply) = .ok r') :
    Progress Race.rank Race.awaits Race.Ended r (.heartbeat written reply) r' := by
  obtain ⟨⟨w', beat'⟩, he, hs⟩ := bind_ok hs
  cases hs
  have hstate : w'.maker.state = r.system.world.maker.state :=
    congrArg Prod.fst (HeartbeatStep.exec_link he)
  cases ha : r.system.world.maker.state.active with
  | true =>
    have hj := h.not_joining ha
    refine .inr (.inr ⟨?_, ?_, ?_⟩)
    · simp only [Race.rank, Race.beatsLeft, hstate, ha, if_true]
    · simp only [Race.awaits, hj]
      exact Bool.noConfusion
    · intro b hb
      simp only [Race.awaits, hj] at hb ⊢
      exact hb
  | false =>
    have hleft := HeartbeatStep.exec_left ha he
    by_cases hx : r.heartbeat = .exited
    · have hx' : beat' = .exited := by
        rw [hx] at he
        cases he
        rfl
      refine .inr (.inr ⟨?_, ?_, ?_⟩)
      · simp only [Race.rank, Race.beatsLeft, hstate, ha, hx, hx']
      · simp only [Race.awaits, hx, ne_eq, not_true_eq_false, decide_false, Bool.and_false]
        exact Bool.noConfusion
      · intro b hb
        simp only [Race.awaits, hx, hx'] at hb ⊢
        exact hb
    · have hpos : 0 < r.heartbeat.left := by
        cases hb : r.heartbeat with
        | exited => exact absurd hb hx
        | _ => decide
      refine .inr (.inl ?_)
      simp only [Race.rank, Race.beatsLeft, hstate, ha, Bool.false_eq_true, if_false, hleft]
      omega

theorem DisconnectStep.exec_lowers {next : DisconnectStep}
    (h : next.exec written w = .ok s) : s.pc.left < (Pc.disconnect written next).left := by
  rcases (DisconnectStep.exec_cases h).2 with ⟨rfl, hpc, _⟩ |
    ⟨_, ⟨rfl, hpc | hpc⟩ | ⟨rfl, hpc, _⟩ | ⟨rfl, hpc, _⟩ | ⟨rfl, hpc, _⟩⟩
  all_goals
    rw [hpc]
    simp only [Pc.left, Nat.reduceLT]

theorem Race.Ending.user_progress {r : Race} (h : r.Ending) (hn : ¬r.Ended)
    (hs : r.step .user = .ok r') :
    Progress Race.rank Race.awaits Race.Ended r .user r' := by
  rcases Race.user_cases hs with ⟨hj, hx, rfl⟩ | ⟨_, ha, _⟩
  · refine .inr (.inr ⟨rfl, ?_, fun _ hb => hb⟩)
    simp only [Race.awaits, hj, hx, ne_eq, not_false_eq_true, decide_true, Bool.and_true]
    exact Bool.noConfusion
  · have hle := r'.beatsLeft_le
    have hlower : r'.system.pc.left < r.system.pc.left := by
      obtain ⟨⟨w, pc⟩, beat⟩ := r
      cases pc with
      | idle connected =>
        cases connected with
        | none => exact absurd h hn
        | some connected => exact h.elim
      | connect g written next => exact h.elim
      | disconnect written next => exact DisconnectStep.exec_lowers ha
    refine .inr (.inl ?_)
    rw [Race.rank, Race.rank]
    omega

/-- If the user and the heartbeat thread both get their turns again and again, a disconnect returns,
whatever the device answers and however the two are interleaved; then the heartbeat thread has
ended. -/
theorem disconnect_ends {x : Execution Race.step}
    (hstart : x.state 0 = Race.start w written heartbeat) (ha : w.maker.state.active = true)
    (hh : w.maker.heartbeatThread = true) (huser : x.Often (·.isHeartbeat = false))
    (hbeat : x.Often (·.isHeartbeat = true)) : ∃ n, (x.state n).Ended := by
  have hending : (x.state 0).Ending := by
    rw [hstart]
    exact ⟨ha, hh⟩
  have hfair (r : Race) (_ : r.Ending) (_ : ¬r.Ended) : x.Often r.awaits := by
    cases hw : r.system.pc.joining && decide (r.heartbeat ≠ .exited) with
    | true => exact hbeat.mono fun t ht => ht.trans hw.symm
    | false => exact huser.mono fun t ht => ht.trans hw.symm
  have hstep (m : Nat) (_ : 0 ≤ m) (hi : (x.state m).Ending) (hn : ¬(x.state m).Ended) :
      (x.state (m + 1)).Ending ∧
        Progress Race.rank Race.awaits Race.Ended (x.state m) (x.turn m) (x.state (m + 1)) := by
    have hs := x.step_ok m
    cases ht : x.turn m with
    | heartbeat written reply =>
      rw [ht] at hs
      exact ⟨hi.heartbeat hs, hi.heartbeat_progress hs⟩
    | user =>
      rw [ht] at hs
      exact ⟨hi.user hs, hi.user_progress hn hs⟩
  obtain ⟨n, _, hn⟩ := Execution.leads_to hstep hfair hending
  exact ⟨n, hn⟩

theorem Race.Ending.user_ok {r : Race} (h : r.Ending) : ∃ r', r.step .user = .ok r' := by
  obtain ⟨⟨w, pc⟩, beat⟩ := r
  have hwait {s : System} (ha : System.advance ⟨w, pc⟩ = .ok s) :
      ∃ r', Race.step ⟨⟨w, pc⟩, beat⟩ .user = .ok r' := by
    rw [Race.step]
    split
    · exact ⟨_, rfl⟩
    · rw [ha]
      exact ⟨_, rfl⟩
  cases pc with
  | idle connected => exact hwait rfl
  | connect g written next => exact h.elim
  | disconnect written next =>
    cases next with
    | test_state | set_disconnecting | send_disconnect | set_disconnected => exact hwait rfl
    | join =>
      apply hwait
      change JuttaProto.join w >>= _ = _
      rw [JuttaProto.join, if_pos h.2]
      rfl

theorem read_unanswered (uuid : Uuid) (w : World) :
    BLEDevice.read_characteristic none uuid w = .ok w := by
  rw [BLEDevice.read_characteristic, ite_self]

theorem HeartbeatStep.exec_unanswered (next : HeartbeatStep) (written : Int) (w : World) :
    ∃ p, next.exec written none w = .ok p := by
  cases next with
  | request_status =>
    rw [HeartbeatStep.exec, JuttaProto.request_status, read_unanswered]
    exact ⟨_, rfl⟩
  | _ => exact ⟨_, rfl⟩

theorem disconnect_ends_example :
    ∃ x : Execution Race.step, x.state 0 = Race.start exampleWorld GATTLIB_SUCCESS .sleep ∧
      ∃ n, (x.state n).Ended := by
  let turn (n : Nat) : RaceTurn := if n % 2 = 0 then .user else .heartbeat GATTLIB_SUCCESS none
  have hstep (n : Nat) (r : Race) (h : r.Ending) : ∃ r', r.step (turn n) = .ok r' ∧ r'.Ending := by
    simp only [turn]
    split
    · obtain ⟨r', hr⟩ := h.user_ok
      exact ⟨r', hr, h.user hr⟩
    · obtain ⟨⟨w, next⟩, hw⟩ := r.heartbeat.exec_unanswered GATTLIB_SUCCESS r.system.world
      have hr : r.step (.heartbeat GATTLIB_SUCCESS none) = .ok ⟨⟨w, r.system.pc⟩, next⟩ := by
        rw [Race.step, hw]
        rfl
      exact ⟨_, hr, h.heartbeat hr⟩
  have hstart : (Race.start exampleWorld GATTLIB_SUCCESS .sleep).Ending := ⟨rfl, rfl⟩
  obtain ⟨x, hx, hturn⟩ := Execution.exists_schedule (P := fun _ => Race.Ending) hstep hstart
  refine ⟨x, hx, disconnect_ends hx rfl rfl (fun n => ⟨2 * n, by omega, ?_⟩)
    fun n => ⟨2 * n + 1, by omega, ?_⟩⟩
  · have hn : 2 * n % 2 = 0 := by omega
    rw [hturn]
    simp only [turn, hn, if_true]
    rfl
  · have hn : ¬(2 * n + 1) % 2 = 0 := by omega
    rw [hturn]
    simp only [turn, hn, if_false]
    rfl

end JuttaProto
