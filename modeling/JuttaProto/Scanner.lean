import JuttaProto.Calls
import JuttaProto.Slots

namespace JuttaProto
open Run Slots
set_option autoImplicit true

/-- What gattlib reports about one device. -/
structure Discovery where
  addr : CString
  name : Option CString
  deriving DecidableEq, Repr

/-- A mutex is modelled by whether it is held. -/
structure ScanArgs where
  doneMutex : Bool := false
  m : Bool := false
  name : CString := []
  nameRegex : CString → Bool := fun _ => false
  success : Bool := false
  addr : CString := []

inductive ScanFault
  | regex_error
  | nullString
  | doneMutexFree
  | mFree
  deriving DecidableEq, Repr

def mutex_unlock (free : ScanFault) : Bool → Except ScanFault Bool
  | true => .ok false
  | false => .error free

def ScanArgs.accepts (args : ScanArgs) (d : Discovery) : Bool := d.name.any args.nameRegex

/-- What the calls of one scan give: the codes of gattlib, and the names that the regular
expression matches, if it is one. -/
structure ScanReplies where
  adapterOpen : Int
  scanEnable : Int
  nameRegex : Option (CString → Bool)

def exampleScan : ScanReplies := ⟨GATTLIB_SUCCESS, 0, some (· == cstr "TT214H BlueFrog")⟩

def exampleDevice : Discovery := ⟨cstr "AA:BB:CC:DD:EE:01", some (cstr "TT214H BlueFrog")⟩

inductive ScanStep
  | adapter_open
  | set_nameRegex
  | lock_args
  | scan_enable
  | close_failed
  | try_lock
  | unlock_tried
  | test_canceled
  | scan_disable
  | lock_done
  | unlock_done
  | sleep
  | adapter_close
  | test_success
  | returned (found : Bool)
  deriving DecidableEq, Repr

structure Scan where
  args : ScanArgs := {}
  scanning : Bool := false
  canceled : Bool := false
  next : ScanStep := .adapter_open

def Scan.setDone (s : Scan) (held : Bool) (next : ScanStep) : Scan :=
  { s with args := { s.args with doneMutex := held }, next }

/-- One step of `scan_for_device`. A lock that is held by another is waited for. -/
def Scan.advance (g : ScanReplies) (s : Scan) : Except ScanFault Scan :=
  match s.next with
  | .adapter_open =>
    .ok (if g.adapterOpen = GATTLIB_SUCCESS then { s with next := .set_nameRegex }
      else { s with next := .returned false })
  | .set_nameRegex =>
    match g.nameRegex with
    | some nameRegex => .ok { s with args := { nameRegex }, next := .lock_args }
    | none => .error .regex_error
  | .lock_args => .ok (if s.args.doneMutex then s else s.setDone true .scan_enable)
  | .scan_enable =>
    .ok (if g.scanEnable = 0 then { s with scanning := true, next := .try_lock }
      else { s with next := .close_failed })
  | .close_failed => .ok { s with next := .returned false }
  | .try_lock =>
    .ok (if s.args.doneMutex then { s with next := .test_canceled }
      else s.setDone true .unlock_tried)
  | .unlock_tried => do
    let held ← mutex_unlock .doneMutexFree s.args.doneMutex
    return s.setDone held .adapter_close
  | .test_canceled =>
    .ok (if s.canceled then { s with next := .scan_disable } else { s with next := .sleep })
  | .scan_disable => .ok { s with scanning := false, next := .lock_done }
  | .lock_done => .ok (if s.args.doneMutex then s else s.setDone true .unlock_done)
  | .unlock_done => do
    let held ← mutex_unlock .doneMutexFree s.args.doneMutex
    return s.setDone held .adapter_close
  | .sleep => .ok { s with next := .try_lock }
  | .adapter_close => .ok { s with next := .test_success }
  | .test_success => .ok { s with next := .returned s.args.success }
  | .returned _ => .ok s

/-- The callback, taken in one step. -/
def on_device_discovered (d : Discovery) (s : Scan) : Except ScanFault Scan :=
  match d.name with
  | some name =>
    if s.args.nameRegex name then do
      let held ← mutex_unlock .doneMutexFree s.args.doneMutex
      return { s with
        args := { s.args with success := true, name, addr := d.addr, doneMutex := held }
        scanning := false }
    else .ok s
  | none => .ok s

inductive ScanTurn
  | scanner
  | discovered (d : Discovery)
  | cancel
  deriving DecidableEq, Repr

def Scan.turn (g : ScanReplies) (s : Scan) : ScanTurn → Except ScanFault Scan
  | .scanner => s.advance g
  | .discovered d => if s.scanning then on_device_discovered d s else .ok s
  | .cancel => .ok { s with canceled := true }

inductive HandlerStep
  | lock_m
  | test_name
  | set_success
  | set_name
  | set_addr
  | scan_disable
  | unlock_done
  | unlock_m
  | returned
  deriving DecidableEq, Repr

/-- One step of `on_device_discovered`. -/
def HandlerStep.exec (d : Discovery) (s : Scan) :
    HandlerStep → Except ScanFault (Scan × HandlerStep)
  | lock_m =>
    .ok (if s.args.m then (s, .lock_m)
      else ({ s with args := { s.args with m := true } }, .test_name))
  | test_name => .ok (s, if s.args.accepts d then .set_success else .unlock_m)
  | set_success => .ok ({ s with args := { s.args with success := true } }, .set_name)
  | set_name =>
    match d.name with
    | some name => .ok ({ s with args := { s.args with name } }, .set_addr)
    | none => .error .nullString
  | set_addr => .ok ({ s with args := { s.args with addr := d.addr } }, .scan_disable)
  | scan_disable => .ok ({ s with scanning := false }, .unlock_done)
  | unlock_done => do
    let held ← mutex_unlock .doneMutexFree s.args.doneMutex
    return ({ s with args := { s.args with doneMutex := held } }, .unlock_m)
  | unlock_m => do
    let held ← mutex_unlock .mFree s.args.m
    return ({ s with args := { s.args with m := held } }, .returned)
  | returned => .ok (s, .returned)

/-- A report that gattlib has made, and how far its callback has come. -/
structure Callback where
  device : Discovery
  next : HandlerStep
  deriving DecidableEq, Repr

/-- The scanner beside the callbacks of all reports that gattlib has made, the first one first. A
callback that has not begun is a report in the queue. -/
structure ScanSystem where
  scan : Scan := {}
  handlers : List Callback := []

inductive ScanEvent
  | scanner
  | report (d : Discovery)
  | handler (i : Nat)
  | cancel
  deriving DecidableEq, Repr

def ScanSystem.handle (i : Nat) (s : ScanSystem) : Except ScanFault ScanSystem :=
  match s.handlers[i]? with
  | some h =>
    (fun (scan, next) => ⟨scan, s.handlers.set i ⟨h.device, next⟩⟩) <$> h.next.exec h.device s.scan
  | none => .ok s

/-- New reports are made while gattlib is scanning. The callbacks of earlier ones go on after the
scan has been disabled. -/
def ScanSystem.step (g : ScanReplies) (s : ScanSystem) : ScanEvent → Except ScanFault ScanSystem
  | .scanner => (⟨·, s.handlers⟩) <$> s.scan.advance g
  | .report d =>
    .ok (if s.scan.scanning then { s with handlers := s.handlers ++ [⟨d, .lock_m⟩] } else s)
  | .handler i => s.handle i
  | .cancel => .ok { s with scan := { s.scan with canceled := true } }

def HandlerStep.steps (d : Discovery) : Nat → Scan → HandlerStep →
    Except ScanFault (Scan × HandlerStep)
  | 0, s, next => .ok (s, next)
  | n + 1, s, next => do
    let (s, next) ← next.exec d s
    steps d n s next

theorem handle_eq {s : ScanSystem} (hi : s.handlers[i]? = some ⟨d, next⟩) :
    s.handle i = (fun p => ⟨p.1, s.handlers.set i ⟨d, p.2⟩⟩) <$> next.exec d s.scan := by
  rw [ScanSystem.handle, hi]

theorem handle_steps (g : ScanReplies) (n : Nat) {s : ScanSystem}
    (hi : s.handlers[i]? = some ⟨d, next⟩) :
    run (ScanSystem.step g) s (List.replicate n (.handler i)) =
      (fun p => ⟨p.1, s.handlers.set i ⟨d, p.2⟩⟩) <$> next.steps d n s.scan := by
  induction n generalizing s next with
  | zero =>
    change Except.ok s = Except.ok (ScanSystem.mk s.scan (s.handlers.set i ⟨d, next⟩))
    rw [set_of_getElem? hi]
  | succ n ih =>
    rw [List.replicate_succ, run_cons, HandlerStep.steps]
    change (s.handle i >>= _) = _
    rw [handle_eq hi]
    cases next.exec d s.scan with
    | error e => rfl
    | ok p =>
      have hlt : i < s.handlers.length := (List.getElem?_eq_some_iff.1 hi).1
      have hset : (s.handlers.set i ⟨d, p.2⟩)[i]? = some ⟨d, p.2⟩ := List.getElem?_set_self hlt
      refine (ih (s := ⟨p.1, s.handlers.set i ⟨d, p.2⟩⟩) hset).trans ?_
      simp only [List.set_set]
      rfl

theorem steps_uninterrupted (d : Discovery) {s : Scan} (hm : s.args.m = false) :
    HandlerStep.lock_m.steps d 8 s = (·, .returned) <$> on_device_discovered d s := by
  obtain ⟨addr, name⟩ := d
  obtain ⟨⟨doneMutex, m, _, nameRegex, _, _⟩, scanning, canceled, next⟩ := s
  cases hm
  cases name with
  | none => rfl
  | some name =>
    cases hn : nameRegex name with
    | false =>
      simp only [HandlerStep.steps, HandlerStep.exec, ScanArgs.accepts, on_device_discovered, hn,
        Option.any_some, Bool.false_eq_true, ↓reduceIte, ok_bind]
      rfl
    | true =>
      cases doneMutex <;>
        simp only [HandlerStep.steps, HandlerStep.exec, ScanArgs.accepts, on_device_discovered, hn,
          Option.any_some, Bool.false_eq_true, ↓reduceIte, ok_bind] <;>
        rfl

/-- A callback that gets `m` and is not interrupted is the callback taken in one step. -/
theorem handle_uninterrupted (g : ScanReplies) {s : ScanSystem}
    (hi : s.handlers[i]? = some ⟨d, .lock_m⟩) (hm : s.scan.args.m = false) :
    run (ScanSystem.step g) s (List.replicate 8 (.handler i)) =
      (fun scan => ⟨scan, s.handlers.set i ⟨d, .returned⟩⟩) <$> on_device_discovered d s.scan := by
  rw [handle_steps g 8 hi, steps_uninterrupted d hm]
  cases on_device_discovered d s.scan <;> rfl

theorem mutex_unlock_ok (h : mutex_unlock free held = .ok held') : held = true ∧ held' = false := by
  cases held with
  | true =>
    cases h
    exact ⟨rfl, rfl⟩
  | false => cases h

theorem advance_args {s : Scan} (h : s.advance g = .ok s') :
    (s.next = .set_nameRegex ∧ ∃ nameRegex, g.nameRegex = some nameRegex ∧
      s'.args = { nameRegex }) ∨
    s'.args = { s.args with doneMutex := s'.args.doneMutex } := by
  cases hn : s.next <;> simp only [Scan.advance, hn] at h
  case set_nameRegex =>
    split at h
    · rename_i nameRegex hg
      cases h
      exact .inl ⟨rfl, nameRegex, hg, rfl⟩
    · cases h
  case unlock_tried | unlock_done =>
    obtain ⟨held, _, h⟩ := bind_ok h
    cases h
    exact .inr rfl
  case adapter_open | lock_args | scan_enable | try_lock | test_canceled | lock_done =>
    split at h <;> cases h <;> exact .inr rfl
  all_goals
    cases h
    exact .inr rfl

theorem on_device_discovered_m (h : on_device_discovered d s = .ok s') :
    s'.args.m = s.args.m := by
  unfold on_device_discovered at h
  split at h
  · split at h
    · obtain ⟨held, _, h⟩ := bind_ok h
      cases h
      rfl
    · cases h
      rfl
  · cases h
    rfl

def Handled (s : Scan) (t : ScanSystem) : Prop :=
  t.scan = s ∧ s.args.m = false ∧ ∀ h ∈ t.handlers, h.next = .returned

theorem turn_handled {s : Scan} (hs : Handled s t) (h : s.turn g a = .ok s') :
    ∃ events t', run (ScanSystem.step g) t events = .ok t' ∧ Handled s' t' := by
  obtain ⟨scan, handlers⟩ := t
  obtain ⟨rfl, hm, hr⟩ := hs
  cases a with
  | scanner =>
    change scan.advance g = .ok s' at h
    have hm' : s'.args.m = false := by
      rcases advance_args h with ⟨_, _, _, ha⟩ | ha
      · rw [ha]
      · rw [ha]
        exact hm
    refine ⟨[.scanner], ⟨s', handlers⟩, ?_, rfl, hm', hr⟩
    rw [run_single, ScanSystem.step, h]
    rfl
  | discovered d =>
    change (if scan.scanning then on_device_discovered d scan else .ok scan) = .ok s' at h
    split at h
    · rename_i hscan
      have hnew : (handlers ++ [⟨d, .lock_m⟩])[handlers.length]? = some ⟨d, .lock_m⟩ :=
        List.getElem?_concat_length
      have hset := set_append_length handlers ⟨d, .lock_m⟩ ⟨d, .returned⟩ []
      have hrun := handle_uninterrupted g (s := ⟨scan, handlers ++ [⟨d, .lock_m⟩]⟩) hnew hm
      refine ⟨.report d :: List.replicate 8 (.handler handlers.length),
        ⟨s', handlers ++ [⟨d, .returned⟩]⟩, ?_, rfl, (on_device_discovered_m h).trans hm, ?_⟩
      · rw [run_cons, ScanSystem.step, if_pos hscan, ok_bind, hrun, h, hset]
        rfl
      · intro c hc
        rcases List.mem_append.1 hc with hc | hc
        · exact hr c hc
        · rw [List.mem_singleton.1 hc]
    · cases h
      exact ⟨[], _, rfl, rfl, hm, hr⟩
  | cancel =>
    cases h
    exact ⟨[.cancel], _, rfl, rfl, hm, hr⟩

/-- Every run in which the callbacks are taken in one step is a run of the callbacks that go on
step by step. -/
theorem run_handled (h : run (Scan.turn g) {} turns = .ok s) :
    ∃ events t, run (ScanSystem.step g) {} events = .ok t ∧ Handled s t :=
  run_simulated Handled (fun _ _ _ _ hs h => turn_handled hs h)
    ⟨rfl, rfl, fun _ h => absurd h List.not_mem_nil⟩ h

end JuttaProto
