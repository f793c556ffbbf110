import JuttaProto.Interleaving

namespace JuttaProto
open Run
set_option autoImplicit true

inductive HeartbeatStep
  | test_state
  | stay_in_ble
  | request_status
  | sleep
  | exited
  deriving DecidableEq, Repr

structure Race where
  system : System
  heartbeat : HeartbeatStep

inductive RaceTurn
  | heartbeat (written : Int) (reply : Option Bytes)
  | user

def HeartbeatStep.exec (written : Int) (reply : Option Bytes) (w : World) :
    HeartbeatStep → Except Fault (World × HeartbeatStep)
  | test_state => .ok (w, if w.maker.state.active then .stay_in_ble else .exited)
  | stay_in_ble => do
    let w ← JuttaProto.stay_in_ble written w
    return (w, .request_status)
  | request_status => do
    let w ← JuttaProto.request_status reply w
    return (w, .sleep)
  | sleep => .ok (w, .test_state)
  | exited => .ok (w, .exited)

def Pc.joining : Pc → Bool
  | .disconnect _ .join => true
  | _ => false

def Pc.sending : Pc → Bool
  | .disconnect _ .send_disconnect => true
  | _ => false

def Pc.connecting : Pc → Bool
  | .connect _ _ _ => true
  | _ => false

/-- The join waits until the heartbeat thread has left its loop. -/
def Race.step (r : Race) : RaceTurn → Except Fault Race
  | .heartbeat written reply => do
    let (w, heartbeat) ← r.heartbeat.exec written reply r.system.world
    return ⟨⟨w, r.system.pc⟩, heartbeat⟩
  | .user =>
    if r.system.pc.joining && r.heartbeat ≠ .exited then .ok r
    else (⟨·, r.heartbeat⟩) <$> r.system.advance

/-- A call of `disconnect` begins while the heartbeat thread runs, and the frames written from
then on are recorded. -/
def Race.start (w : World) (written : Int) (heartbeat : HeartbeatStep) : Race :=
  ⟨⟨{ w with wire := [] }, .disconnect written .test_state⟩, heartbeat⟩

def stayFrame (key : UInt8) : Bytes := encDecBytes [key, 0x7F, 0x80] key

def disconnectFrame (key : UInt8) : Bytes := encDecBytes [key, 0x7F, 0x81] key

/-- No frame that asks the machine to stay is written after one that disconnects. -/
def Quiet (key : UInt8) (calls : List WriteCall) : Prop :=
  calls.Pairwise fun c d => ¬(c.data = disconnectFrame key ∧ d.data = stayFrame key)

instance : Decidable (Quiet key calls) := inferInstanceAs (Decidable (List.Pairwise _ calls))

/-- The user does not write while the heartbeat thread is between its test and its write. -/
def RaceReady (r : Race) : RaceTurn → Prop
  | .user => r.system.pc.sending = true → r.heartbeat ≠ .stay_in_ble
  | _ => True

instance : (t : RaceTurn) → Decidable (RaceReady r t)
  | .heartbeat _ _ => isTrue trivial
  | .user => inferInstanceAs (Decidable (_ → _))

theorem stayFrame_ne (key : UInt8) : stayFrame key ≠ disconnectFrame key := by
  intro h
  have he := congrArg (fun data => encDecBytes data key) h
  simp only [stayFrame, disconnectFrame, encDecBytes_twice, List.cons.injEq] at he
  exact absurd he.2.2.1 (by decide)

theorem stay_in_ble_eq (written : Int) (w : World) :
    stay_in_ble written w =
      .ok (BLEDevice.write P_MODE_CHARACTERISTIC_UUID (stayFrame w.key) written w) := rfl

theorem send_disconnect_eq (written : Int) (w : World) :
    send_disconnect written w =
      .ok (BLEDevice.write P_MODE_CHARACTERISTIC_UUID (disconnectFrame w.key) written w) := rfl

theorem HeartbeatStep.exec_cases {next : HeartbeatStep}
    (h : next.exec written reply w = .ok (w', next')) :
    w'.key = w.key ∧ w'.maker.state = w.maker.state ∧
      ((next = .stay_in_ble ∧ next' = .request_status ∧
          ∃ c, c.data = stayFrame w.key ∧ w'.wire = w.wire ++ [c]) ∨
        (next ≠ .stay_in_ble ∧ w'.wire = w.wire ∧
          (next' = .stay_in_ble → w.maker.state.active = true) ∧
          (next = .exited → next' = .exited))) := by
  cases next with
  | test_state =>
    cases h
    refine ⟨rfl, rfl, .inr ⟨by decide, rfl, ?_, fun he => (nomatch he)⟩⟩
    split
    · rename_i ha
      exact fun _ => ha
    · exact fun he => (nomatch he)
  | stay_in_ble =>
    rw [HeartbeatStep.exec, stay_in_ble_eq] at h
    cases h
    exact ⟨rfl, rfl, .inl ⟨rfl, rfl, _, rfl, rfl⟩⟩
  | request_status =>
    obtain ⟨w₁, h₁, h⟩ := bind_ok h
    cases h
    obtain ⟨hw, hk⟩ := read_characteristic_frame h₁
    have hl := congrArg Prod.fst (read_characteristic_link h₁)
    exact ⟨hk, hl, .inr ⟨by decide, hw, fun he => (nomatch he), fun he => (nomatch he)⟩⟩
  | sleep =>
    cases h
    exact ⟨rfl, rfl, .inr ⟨by decide, rfl, fun he => (nomatch he), fun he => (nomatch he)⟩⟩
  | exited =>
    cases h
    exact ⟨rfl, rfl, .inr ⟨by decide, rfl, fun he => (nomatch he), fun _ => rfl⟩⟩

def Before (key : UInt8) (r : Race) : Prop :=
  ∀ c ∈ r.system.world.wire, c.data ≠ disconnectFrame key

def After (key : UInt8) (r : Race) : Prop :=
  r.system.world.maker.state.active = false ∧ r.heartbeat ≠ .stay_in_ble ∧
    Quiet key r.system.world.wire

def PhaseInv (key : UInt8) (r : Race) : Prop :=
  match r.system.pc with
  | .disconnect _ .test_state | .disconnect _ .set_disconnecting => Before key r
  | .disconnect _ .send_disconnect =>
    Before key r ∧ r.system.world.maker.state.active = false
  | .disconnect _ .join | .disconnect _ .set_disconnected => After key r
  | .idle _ => Before key r ∨ After key r
  | .connect _ _ _ => False

def RaceInv (key : UInt8) (r : Race) : Prop := r.system.world.key = key ∧ PhaseInv key r

/-- The frame that disconnects has been written while the heartbeat thread was about to write,
or its frame has already followed. -/
def Trapped (key : UInt8) (r : Race) : Prop :=
  r.system.pc.connecting = false ∧ (¬Quiet key r.system.world.wire ∨
    (r.system.world.key = key ∧ r.system.pc.joining = true ∧ r.heartbeat = .stay_in_ble ∧
      ∃ c ∈ r.system.world.wire, c.data = disconnectFrame key))

theorem quiet_append (h : Quiet key calls) (hc : c.data ≠ stayFrame key) :
    Quiet key (calls ++ [c]) := by
  refine List.pairwise_append.2 ⟨h, List.pairwise_singleton _ _, ?_⟩
  intro a _ b hb hab
  rw [List.mem_singleton.1 hb] at hab
  exact hc hab.2

theorem not_quiet_append {calls : List WriteCall} (hd : ∃ c ∈ calls, c.data = disconnectFrame key)
    (hc : c.data = stayFrame key) : ¬Quiet key (calls ++ [c]) := by
  intro h
  obtain ⟨d, hm, hd⟩ := hd
  exact (List.pairwise_append.1 h).2.2 d hm c (List.mem_singleton.2 rfl) ⟨hd, hc⟩

theorem quiet_of_before {calls : List WriteCall} (h : ∀ c ∈ calls, c.data ≠ disconnectFrame key) :
    Quiet key calls :=
  List.Pairwise.imp_of_mem (fun hm _ _ hab => h _ hm hab.1)
    (List.pairwise_of_forall fun _ _ => trivial)

/-- What a step of the user can do: wait, write the frame that disconnects, or anything that
writes nothing. -/
theorem DisconnectStep.exec_cases {next : DisconnectStep} (h : next.exec written w = .ok s) :
    s.world.key = w.key ∧
      ((next = .send_disconnect ∧ s.pc = .disconnect written .join ∧
          s.world.maker.state = w.maker.state ∧
          ∃ c, c.data = disconnectFrame w.key ∧ s.world.wire = w.wire ++ [c]) ∨
        (s.world.wire = w.wire ∧
          ((next = .test_state ∧
              (s.pc = .disconnect written .set_disconnecting ∨ s.pc = .idle none)) ∨
            (next = .set_disconnecting ∧ s.pc = .disconnect written .send_disconnect ∧
              s.world.maker.state = .DISCONNECTING) ∨
            (next = .join ∧ s.pc = .disconnect written .set_disconnected ∧
              s.world.maker.state = w.maker.state) ∨
            (next = .set_disconnected ∧ s.pc = .idle none ∧
              s.world.maker.state = .DISCONNECTED)))) := by
  cases next with
  | test_state =>
    cases h
    refine ⟨rfl, .inr ⟨rfl, .inl ⟨rfl, ?_⟩⟩⟩
    simp only
    split
    · exact .inl rfl
    · exact .inr rfl
  | set_disconnecting =>
    cases h
    refine ⟨set_state_key _ _, .inr ⟨set_state_wire _ _, .inr (.inl ⟨rfl, rfl, ?_⟩)⟩⟩
    simp only [set_state_maker]
  | send_disconnect =>
    rw [DisconnectStep.exec, send_disconnect_eq] at h
    cases h
    exact ⟨rfl, .inl ⟨rfl, rfl, rfl, _, rfl, rfl⟩⟩
  | join =>
    obtain ⟨w₁, h₁, h⟩ := bind_ok h
    cases h
    unfold JuttaProto.join at h₁
    split at h₁
    · cases h₁
      exact ⟨rfl, .inr ⟨rfl, .inr (.inr (.inl ⟨rfl, rfl, rfl⟩))⟩⟩
    · cases h₁
  | set_disconnected =>
    cases h
    refine ⟨set_state_key _ _, .inr ⟨set_state_wire _ _, .inr (.inr (.inr ⟨rfl, rfl, ?_⟩))⟩⟩
    simp only [set_state_maker]

theorem RaceInv.heartbeat (h : RaceInv key r)
    (hs : r.step (.heartbeat written reply) = .ok r') : RaceInv key r' := by
  obtain ⟨⟨w, pc⟩, beat⟩ := r
  obtain ⟨⟨w', beat'⟩, he, hs⟩ := bind_ok hs
  cases hs
  obtain ⟨hk, hphase⟩ := h
  obtain ⟨hk', hstate, hcases⟩ := HeartbeatStep.exec_cases he
  simp only at hk hk' hstate hcases
  have hbefore (hb : Before key ⟨⟨w, pc⟩, beat⟩) : Before key ⟨⟨w', pc⟩, beat'⟩ := by
    intro c hc
    simp only at hc
    rcases hcases with ⟨_, _, d, hd, hw⟩ | ⟨_, hw, _⟩
    · rw [hw, List.mem_append, List.mem_singleton] at hc
      rcases hc with hc | hc
      · exact hb c hc
      · rw [hc, hd, hk]
        exact stayFrame_ne key
    · rw [hw] at hc
      exact hb c hc
  have hafter (ha : After key ⟨⟨w, pc⟩, beat⟩) : After key ⟨⟨w', pc⟩, beat'⟩ := by
    obtain ⟨hstate', hne, hq⟩ := ha
    simp only at hstate' hne hq
    rcases hcases with ⟨hn, _⟩ | ⟨_, hw, hn, _⟩
    · exact absurd hn hne
    · refine ⟨by simp only [hstate, hstate'], fun hstay => ?_, by simp only [hw]; exact hq⟩
      rw [hn hstay] at hstate'
      cases hstate'
  refine ⟨hk'.trans hk, ?_⟩
  cases pc with
  | idle connected =>
    rcases hphase with hb | ha
    · exact .inl (hbefore hb)
    · exact .inr (hafter ha)
  | connect g written' next => exact hphase.elim
  | disconnect written' next =>
    cases next with
    | test_state => exact hbefore hphase
    | set_disconnecting => exact hbefore hphase
    | send_disconnect =>
      refine ⟨hbefore hphase.1, ?_⟩
      simp only [hstate]
      exact hphase.2
    | join => exact hafter hphase
    | set_disconnected => exact hafter hphase

theorem Race.user_cases (h : Race.step r .user = .ok r') :
    (r.system.pc.joining = true ∧ r.heartbeat ≠ .exited ∧ r' = r) ∨
      ((r.system.pc.joining = true → r.heartbeat = .exited) ∧
        r.system.advance = .ok r'.system ∧ r'.heartbeat = r.heartbeat) := by
  unfold Race.step at h
  simp only at h
  split at h
  · rename_i hb
    cases h
    simp only [Bool.and_eq_true, decide_eq_true_eq] at hb
    exact .inl ⟨hb.1, hb.2, rfl⟩
  · rename_i hb
    simp only [Bool.and_eq_true, decide_eq_true_eq, not_and, not_not] at hb
    cases ha : r.system.advance with
    | error e =>
      rw [ha] at h
      cases h
    | ok s =>
      rw [ha] at h
      cases h
      exact .inr ⟨hb, rfl, rfl⟩

theorem RaceInv.user (h : RaceInv key r) (hr : RaceReady r .user)
    (hs : r.step .user = .ok r') : RaceInv key r' := by
  rcases Race.user_cases hs with ⟨_, _, he⟩ | ⟨_, ha, hh⟩
  · rw [he]
    exact h
  obtain ⟨⟨w, pc⟩, beat⟩ := r
  obtain ⟨⟨w', pc'⟩, beat'⟩ := r'
  obtain ⟨hk, hphase⟩ := h
  simp only at hh hk
  cases hh
  cases pc with
  | idle connected =>
    cases ha
    exact ⟨hk, hphase⟩
  | connect g written next => exact hphase.elim
  | disconnect written next =>
    obtain ⟨hk', hcases⟩ := DisconnectStep.exec_cases ha
    simp only at hk' hcases
    refine ⟨hk'.trans hk, ?_⟩
    rcases hcases with ⟨hn, hpc, hstate, c, hc, hw⟩ | ⟨hw, hcases⟩
    · cases hn
      cases hpc
      obtain ⟨hb, hi⟩ := hphase
      refine ⟨by simp only [hstate]; exact hi, hr rfl, ?_⟩
      simp only [hw]
      refine quiet_append (quiet_of_before hb) ?_
      rw [hc, hk]
      exact (stayFrame_ne key).symm
    rcases hcases with ⟨hn, hpc⟩ | ⟨hn, hpc, hstate⟩ | ⟨hn, hpc, hstate⟩ | ⟨hn, hpc, hstate⟩
    · cases hn
      have hb : Before key ⟨⟨w', pc'⟩, beat⟩ := by
        simp only [Before, hw]
        exact hphase
      rcases hpc with hpc | hpc
      · cases hpc
        exact hb
      · cases hpc
        exact .inl hb
    · cases hn
      cases hpc
      refine ⟨?_, by simp only [hstate]; rfl⟩
      simp only [Before, hw]
      exact hphase
    · cases hn
      cases hpc
      obtain ⟨hi, hne, hq⟩ := hphase
      exact ⟨by simp only [hstate]; exact hi, hne, by simp only [hw]; exact hq⟩
    · cases hn
      cases hpc
      obtain ⟨hi, hne, hq⟩ := hphase
      exact .inr ⟨by simp only [hstate]; rfl, hne, by simp only [hw]; exact hq⟩

theorem RaceInv.step (h : RaceInv key r) (hr : RaceReady r t) (hs : r.step t = .ok r') :
    RaceInv key r' := by
  cases t with
  | heartbeat written reply => exact h.heartbeat hs
  | user => exact h.user hr hs

theorem RaceInv.quiet (h : RaceInv key r) : Quiet key r.system.world.wire := by
  obtain ⟨⟨w, pc⟩, beat⟩ := r
  obtain ⟨_, hphase⟩ := h
  cases pc with
  | idle connected =>
    rcases hphase with hb | ha
    · exact quiet_of_before hb
    · exact ha.2.2
  | connect g written next => exact hphase.elim
  | disconnect written next =>
    cases next with
    | test_state => exact quiet_of_before hphase
    | set_disconnecting => exact quiet_of_before hphase
    | send_disconnect => exact quiet_of_before hphase.1
    | join => exact hphase.2.2
    | set_disconnected => exact hphase.2.2

theorem RaceInv.trapped (h : RaceInv key r) (hr : ¬RaceReady r t) (hs : r.step t = .ok r') :
    Trapped key r' := by
  cases t with
  | heartbeat written reply => exact absurd trivial hr
  | user =>
    obtain ⟨⟨w, pc⟩, beat⟩ := r
    obtain ⟨⟨w', pc'⟩, beat'⟩ := r'
    simp only [RaceReady, Classical.not_imp, not_not] at hr
    obtain ⟨hsend, hstay⟩ := hr
    unfold Pc.sending at hsend
    split at hsend
    · rename_i written
      rcases Race.user_cases hs with ⟨hj, _⟩ | ⟨_, ha, hh⟩
      · cases hj
      · have he : DisconnectStep.send_disconnect.exec written w = .ok ⟨w', pc'⟩ := ha
        obtain ⟨hk', hcases⟩ := DisconnectStep.exec_cases he
        rcases hcases with ⟨_, hpc, _, c, hc, hw⟩ | ⟨_, ⟨hn, _⟩ | ⟨hn, _⟩ | ⟨hn, _⟩ | ⟨hn, _⟩⟩
        · simp only at hpc hc hw hh hstay
          cases hpc
          have hk := h.1
          simp only at hk' hk
          refine ⟨rfl, .inr ⟨hk'.trans hk, rfl, hh.trans hstay, c, ?_, ?_⟩⟩
          · simp only [hw]
            exact List.mem_append_right _ (List.mem_singleton.2 rfl)
          · rw [hc, hk]
        all_goals cases hn
    · cases hsend

/-- Only the steps of a `connect` are not considered here. -/
theorem Race.step_wire (hc : r.system.pc.connecting = false) (hs : Race.step r t = .ok r') :
    r'.system.pc.connecting = false ∧
      ∃ calls, r'.system.world.wire = r.system.world.wire ++ calls := by
  obtain ⟨⟨w, pc⟩, beat⟩ := r
  cases t with
  | heartbeat written reply =>
    obtain ⟨⟨w', beat'⟩, he, hs⟩ := bind_ok hs
    cases hs
    refine ⟨hc, ?_⟩
    rcases (HeartbeatStep.exec_cases he).2.2 with ⟨_, _, c, _, hw⟩ | ⟨_, hw, _⟩
    · exact ⟨[c], hw⟩
    · exact ⟨[], by rw [List.append_nil]; exact hw⟩
  | user =>
    rcases Race.user_cases hs with ⟨_, _, he⟩ | ⟨_, ha, _⟩
    · rw [he]
      exact ⟨hc, [], (List.append_nil _).symm⟩
    · obtain ⟨⟨w', pc'⟩, beat'⟩ := r'
      cases pc with
      | idle connected =>
        cases ha
        exact ⟨rfl, [], (List.append_nil _).symm⟩
      | connect g written next => cases hc
      | disconnect written next =>
        have hcases := (DisconnectStep.exec_cases ha).2
        simp only at hcases ⊢
        rcases hcases with ⟨_, hpc, _, c, _, hw⟩ |
          ⟨hw, ⟨_, hpc | hpc⟩ | ⟨_, hpc, _⟩ | ⟨_, hpc, _⟩ | ⟨_, hpc, _⟩⟩
        · exact ⟨by rw [hpc]; rfl, [c], hw⟩
        all_goals exact ⟨by rw [hpc]; rfl, [], by rw [List.append_nil]; exact hw⟩

theorem Trapped.step (h : Trapped key r) (hs : r.step t = .ok r') : Trapped key r' := by
  obtain ⟨hc, hcases⟩ := h
  obtain ⟨hc', calls, hw⟩ := Race.step_wire hc hs
  refine ⟨hc', ?_⟩
  rcases hcases with hq | ⟨hk, hj, hstay, hd⟩
  · refine .inl fun hq' => hq ?_
    rw [Quiet, hw] at hq'
    exact (List.pairwise_append.1 hq').1
  · cases t with
    | heartbeat written reply =>
      obtain ⟨⟨w', beat'⟩, he, hs⟩ := bind_ok hs
      cases hs
      rcases (HeartbeatStep.exec_cases he).2.2 with ⟨_, _, c, hcd, hw⟩ | ⟨hn, _⟩
      · refine .inl ?_
        simp only [hw]
        exact not_quiet_append hd (by rw [hcd, hk])
      · exact absurd hstay hn
    | user =>
      rcases Race.user_cases hs with ⟨_, _, he⟩ | ⟨he, _⟩
      · rw [he]
        exact .inr ⟨hk, hj, hstay, hd⟩
      · rw [he hj] at hstay
        cases hstay

/-- In a run in which the heartbeat thread is never between its test and its write when the
user writes the frame that disconnects, nothing asks the machine to stay after it. Once the
call has returned, these are the only such runs. -/
theorem quiet_of_guarded (h : run Race.step (Race.start w written heartbeat) turns = .ok r) :
    (Guarded Race.step RaceReady (Race.start w written heartbeat) turns →
      Quiet w.key r.system.world.wire) ∧
    (r.system.pc = .idle none → (Quiet w.key r.system.world.wire ↔
      Guarded Race.step RaceReady (Race.start w written heartbeat) turns)) := by
  have hs : RaceInv w.key (Race.start w written heartbeat) := ⟨rfl, fun c hc => nomatch hc⟩
  rcases guarded_or_trapped (RaceInv w.key) (Trapped w.key)
      (fun _ _ _ hi hp hst => hi.step hp hst) (fun _ _ _ hi hp hst => hi.trapped hp hst)
      (fun _ _ _ ht hst => ht.step hst) hs h with ⟨hg, hi⟩ | ⟨hg, ht⟩
  · exact ⟨fun _ => hi.quiet, fun _ => ⟨fun _ => hg, fun _ => hi.quiet⟩⟩
  · refine ⟨fun hg' => absurd hg' hg, fun hpc => ⟨fun hq => ?_, fun hg' => absurd hg' hg⟩⟩
    rcases ht.2 with hn | ⟨_, hj, _⟩
    · exact absurd hq hn
    · rw [hpc] at hj
      cases hj

theorem quiet_of_guarded_example :
    ∃ r, run Race.step (Race.start exampleWorld GATTLIB_SUCCESS .test_state)
        (List.replicate 3 (.heartbeat GATTLIB_SUCCESS none) ++ List.replicate 3 .user ++
          List.replicate 2 (.heartbeat GATTLIB_SUCCESS none) ++ List.replicate 2 .user) = .ok r ∧
      r.system.world.wire.length = 2 ∧ Quiet 42 r.system.world.wire := by
  have hr : ∃ r, run Race.step (Race.start exampleWorld GATTLIB_SUCCESS .test_state)
      (List.replicate 3 (.heartbeat GATTLIB_SUCCESS none) ++ List.replicate 3 .user ++
        List.replicate 2 (.heartbeat GATTLIB_SUCCESS none) ++ List.replicate 2 .user) = .ok r ∧
      r.system.world.wire.length = 2 := by decide +kernel
  obtain ⟨r, h, hl⟩ := hr
  exact ⟨r, h, hl, (quiet_of_guarded h).1 (by decide +kernel)⟩

/-- The heartbeat thread tests the state, the user disconnects, and the thread writes. -/
theorem heartbeat_after_disconnect :
    ∃ r, run Race.step (Race.start exampleWorld GATTLIB_SUCCESS .test_state)
        (.heartbeat GATTLIB_SUCCESS none :: List.replicate 3 .user ++
          List.replicate 4 (.heartbeat GATTLIB_SUCCESS none) ++ List.replicate 2 .user) = .ok r ∧
      r.system.world.wire =
        [⟨P_MODE_CHARACTERISTIC_UUID, disconnectFrame 42, true⟩,
          ⟨P_MODE_CHARACTERISTIC_UUID, stayFrame 42, true⟩] ∧
      r.system.world.maker.state = .DISCONNECTED ∧ ¬Quiet 42 r.system.world.wire := by
  decide +kernel

end JuttaProto
