import JuttaProto.ScanLocks

namespace JuttaProto
open Run Slots
set_option autoImplicit true

def ScanReplies.accepts (g : ScanReplies) (d : Discovery) : Bool :=
  g.nameRegex.any fun nameRegex => d.name.any nameRegex

def ScanSystem.hits (g : ScanReplies) (s : ScanSystem) : Nat := s.reports.countP g.accepts

def ScanEvent.hit (g : ScanReplies) : ScanEvent → Bool
  | .report d => g.accepts d
  | _ => false

theorem Compiled.accepts {s : ScanSystem} (hc : Compiled g s)
    (hn : s.scan.next.started = true) : s.scan.args.accepts = g.accepts := by
  have hr : g.nameRegex = some s.scan.args.nameRegex := by
    refine hc.resolve_left fun hmem => ?_
    simp only [List.mem_cons, List.not_mem_nil, or_false] at hmem
    rcases hmem with hm | hm | hm <;> rw [hm] at hn <;> cases hn
  funext d
  rw [ScanReplies.accepts, hr]
  rfl

theorem ScanSystem.releases_le {s : ScanSystem} (hc : Compiled g s)
    (hn : s.scan.next.started = true) : s.releases ≤ s.hits g := by
  rw [releases, hits, reports, List.countP_map, ← hc.accepts hn]
  apply List.countP_mono_left
  intro c _ hr
  exact (Bool.and_eq_true_iff.1 hr).1

theorem ScanStep.Balanced.released {next : ScanStep} (h : next.Balanced s)
    (hn : next.started = true) (hd : s.scan.args.doneMutex = false) : 1 ≤ s.releases := by
  cases next
  case try_lock | test_canceled | scan_disable | lock_done | sleep =>
    simp only [Balanced, hd, Bool.toNat_false] at h
    omega
  case unlock_tried | unlock_done =>
    simp only [Balanced, hd, Bool.toNat_false] at h
    omega
  case adapter_close | test_success => exact Nat.le_of_eq h.2.symm
  case returned found =>
    cases found with
    | false => cases hn
    | true => exact Nat.le_of_eq h.2.symm
  all_goals cases hn

theorem mutex_unlock_error (h : mutex_unlock free held = .error f) :
    held = false ∧ f = free := by
  cases held with
  | true => cases h
  | false =>
    cases h
    exact ⟨rfl, rfl⟩

theorem HandlerStep.exec_error {next : HandlerStep}
    (ha : next.matched = true → s.args.accepts d = true)
    (hm : next.inside = true → s.args.m = true) (h : next.exec d s = .error f) :
    next = .unlock_done ∧ f = .doneMutexFree ∧ s.args.doneMutex = false := by
  cases next
  case set_name =>
    obtain ⟨name, hname, _⟩ := (Option.any_eq_true _ _).1 (ha rfl)
    rw [exec, hname] at h
    cases h
  case unlock_done =>
    rcases bind_error h with h | ⟨_, _, h⟩
    · obtain ⟨hd, hf⟩ := mutex_unlock_error h
      exact ⟨rfl, hf, hd⟩
    · cases h
  case unlock_m =>
    rw [exec, hm rfl] at h
    cases h
  all_goals cases h

/-- A callback that is about to release `doneMutex` is not among those that have done so. -/
theorem ScanSystem.releases_lt {s : ScanSystem} {i : Nat} (hcomp : Compiled g s)
    (hn : s.scan.next.started = true) (hc : s.handlers[i]? = some ⟨d, .unlock_done⟩)
    (ha : s.scan.args.accepts d = true) : s.releases < s.hits g := by
  let t : ScanSystem := ⟨s.scan, s.handlers.set i ⟨d, .unlock_m⟩⟩
  have hcount := countP_set hc (Callback.released s.scan.args) ⟨d, .unlock_m⟩
  have hbefore : Callback.released s.scan.args ⟨d, .unlock_done⟩ = false := Bool.and_false _
  have hafter : Callback.released s.scan.args ⟨d, .unlock_m⟩ = true := by
    rw [Callback.released, ha]
    rfl
  rw [hbefore, hafter] at hcount
  have hle : t.releases ≤ t.hits g := releases_le hcomp hn
  have hhits : t.hits g = s.hits g :=
    congrArg (List.countP g.accepts) (reports_set hc s.scan .unlock_m)
  rw [hhits] at hle
  exact Nat.lt_of_lt_of_le (Nat.lt_of_lt_of_eq (Nat.lt_succ_self _) hcount.symm) hle

theorem LockInv.handle_error {s : ScanSystem} (hi : LockInv s) (hcomp : Compiled g s)
    (h : s.handle i = .error f) : f = .doneMutexFree ∧ 2 ≤ s.hits g := by
  cases hc : s.handlers[i]? with
  | none =>
    rw [ScanSystem.handle, hc] at h
    cases h
  | some c =>
    obtain ⟨d, next⟩ := c
    have hmem : ⟨d, next⟩ ∈ s.handlers := List.mem_of_getElem? hc
    have hm (hin : next.inside = true) : s.scan.args.m = true := by
      have hpos : 0 < s.inside := List.countP_pos_iff.2 ⟨_, hmem, hin⟩
      by_contra hm
      rw [hi.exclusive, Bool.eq_false_iff.2 hm] at hpos
      exact absurd hpos (Nat.lt_irrefl 0)
    rw [handle_eq hc] at h
    cases hx : next.exec d s.scan with
    | ok r =>
      rw [hx] at h
      cases h
    | error e =>
      rw [hx] at h
      cases h
      obtain ⟨rfl, hf, hd⟩ := HandlerStep.exec_error (hi.matched _ hmem) hm hx
      have hstart := hi.started hmem
      have hreleased := hi.scanner.released hstart hd
      have hlt := ScanSystem.releases_lt hcomp hstart hc (hi.matched _ hmem rfl)
      exact ⟨hf, by omega⟩

theorem LockInv.advance_error {s : ScanSystem} (hi : LockInv s) (hcomp : Compiled g s)
    (h : s.scan.advance g = .error f) :
    (f = .regex_error ∧ g.nameRegex = none) ∨ (f = .doneMutexFree ∧ 2 ≤ s.hits g) := by
  have he := hi.scanner
  cases hn : s.scan.next <;> simp only [Scan.advance, hn] at h <;> rw [hn] at he
  case set_nameRegex =>
    split at h <;> cases h
    exact .inl ⟨rfl, ‹_›⟩
  case unlock_tried | unlock_done =>
    rcases bind_error h with h | ⟨_, _, h⟩
    · obtain ⟨hd, hf⟩ := mutex_unlock_error h
      have hle : s.releases ≤ s.hits g := ScanSystem.releases_le hcomp (by rw [hn]; rfl)
      simp only [ScanStep.Balanced, hd, Bool.toNat_false] at he
      exact .inr ⟨hf, by omega⟩
    · cases h
  all_goals cases h

/-- A step fails only on an invalid expression, or because two reports are of a device that the
scan is for. -/
theorem LockInv.step_error {s : ScanSystem} (hi : LockInv s) (hcomp : Compiled g s)
    (h : s.step g e = .error f) :
    (f = .regex_error ∧ g.nameRegex = none) ∨ (f = .doneMutexFree ∧ 2 ≤ s.hits g) := by
  cases e with
  | scanner =>
    cases ha : s.scan.advance g with
    | ok scan =>
      rw [ScanSystem.step, ha] at h
      cases h
    | error e =>
      rw [ScanSystem.step, ha] at h
      cases h
      exact hi.advance_error hcomp ha
  | report d => cases h
  | handler i => exact .inr (hi.handle_error hcomp h)
  | cancel => cases h

theorem ScanSystem.step_reports {s : ScanSystem} (h : s.step g e = .ok s') :
    s'.reports = s.reports ∨ ∃ d, e = .report d ∧ s'.reports = s.reports ++ [d] := by
  cases e with
  | scanner =>
    obtain ⟨scan, _, rfl⟩ := map_ok h
    exact .inl rfl
  | report d =>
    cases h
    split
    · exact .inr ⟨d, rfl, List.map_append⟩
    · exact .inl rfl
  | handler i =>
    change s.handle i = .ok s' at h
    cases hc : s.handlers[i]? with
    | none =>
      rw [handle, hc] at h
      cases h
      exact .inl rfl
    | some c =>
      rw [handle_eq hc] at h
      obtain ⟨⟨scan, next'⟩, _, rfl⟩ := map_ok h
      exact .inl (reports_set hc scan next')
  | cancel =>
    cases h
    exact .inl rfl

theorem ScanSystem.step_hits {s : ScanSystem} (h : s.step g e = .ok s') :
    s'.hits g ≤ s.hits g + (e.hit g).toNat := by
  rcases step_reports h with hr | ⟨d, rfl, hr⟩
  · rw [hits, hits, hr]
    exact Nat.le_add_right _ _
  · rw [hits, hits, hr, List.countP_append, List.countP_singleton]
    apply Nat.add_le_add_left
    rw [ScanEvent.hit]
    cases g.accepts d <;> exact Nat.le_refl _

/-- Callbacks are never two at a time between the lock and the unlock of `m`, which is held exactly
while one of them is there. Apart from an invalid expression, the one fault is the unlock of a free
`doneMutex`. -/
theorem scan_exclusive (g : ScanReplies) (events : List ScanEvent) :
    Within (· ∈ [.regex_error, .doneMutexFree]) (run (ScanSystem.step g) {} events) ∧
      ∀ s, run (ScanSystem.step g) {} events = .ok s → s.inside = s.scan.args.m.toNat := by
  constructor
  · refine (guarded_true _ _ _).within (fun s => LockInv s ∧ Compiled g s)
      (fun _ _ _ hi _ h => ⟨hi.1.step h, hi.2.step h⟩) ?_
      ⟨lockInv_fresh, .inl List.mem_cons_self⟩
    intro s e hi _ f hf
    rcases hi.1.step_error hi.2 hf with ⟨rfl, _⟩ | ⟨rfl, _⟩
    · exact List.mem_cons_self
    · exact List.mem_cons_of_mem _ List.mem_cons_self
  · intro s h
    have hi : LockInv s := run_invariant LockInv (fun _ _ _ hi => hi.step) lockInv_fresh h
    exact hi.exclusive

/-- A device with another name is reported twice beside the one that the scan is for. -/
def crowdedEvents : List ScanEvent :=
  List.replicate 4 .scanner ++
    [.report ⟨cstr "AA:BB:CC:DD:EE:03", some (cstr "TT237W")⟩, .report exampleDevice,
      .report ⟨cstr "AA:BB:CC:DD:EE:03", some (cstr "TT237W")⟩, .handler 2, .handler 2] ++
    List.replicate 4 (.handler 1) ++ List.replicate 8 (.handler 2) ++
    List.replicate 8 (.handler 1) ++ List.replicate 5 .scanner

/-- What a scan returns, it returns on the one release of a callback, and its name and its address
are each that of a report that matches; it returns nothing only if there has been no report. -/
theorem scan_returns_reported (h : run (ScanSystem.step g) {} events = .ok s) :
    (s.scan.next = .returned true → s.releases = 1 ∧
      (∃ d ∈ s.reports, g.accepts d = true ∧ d.name = some s.scan.args.name) ∧
        ∃ d ∈ s.reports, g.accepts d = true ∧ d.addr = s.scan.args.addr) ∧
      (s.scan.next = .returned false → s.reports = []) := by
  have hi : LockInv s := run_invariant LockInv (fun _ _ _ hi => hi.step) lockInv_fresh h
  have hcomp : Compiled g s :=
    run_invariant (Compiled g) (fun _ _ _ hi => hi.step) (.inl List.mem_cons_self) h
  have he := hi.scanner
  constructor
  · intro hn
    rw [hn] at he
    have hreached : s.Reached 1 := by
      apply ScanSystem.reached_of_releases
      rw [he.2]
      exact Nat.one_pos
    rw [← hcomp.accepts (by rw [hn]; rfl)]
    exact ⟨he.2, hi.name (hreached.mono (by decide)), hi.addr (hreached.mono (by decide))⟩
  · intro hn
    rw [hn] at he
    rw [ScanSystem.reports, he.1]
    rfl

theorem scan_returns_reported_example : ∃ s,
    run (ScanSystem.step exampleScan) {} crowdedEvents = .ok s ∧ s.releases = 1 ∧
      (∃ d ∈ s.reports, exampleScan.accepts d = true ∧ d.name = some s.scan.args.name) ∧
        ∃ d ∈ s.reports, exampleScan.accepts d = true ∧ d.addr = s.scan.args.addr := by
  obtain ⟨s, h, hn⟩ : ∃ s, run (ScanSystem.step exampleScan) {} crowdedEvents = .ok s ∧
      s.scan.next = .returned true := by decide +kernel
  exact ⟨s, h, (scan_returns_reported h).1 hn⟩

theorem LockInv.run_safe {s : ScanSystem} (hi : LockInv s) (hcomp : Compiled g s)
    (hone : s.hits g + events.countP (ScanEvent.hit g) ≤ 1) :
    Avoids (· = .doneMutexFree) (run (ScanSystem.step g) s events) := by
  induction events generalizing s with
  | nil => exact avoids_ok _ s
  | cons e events ih =>
    rw [List.countP_cons] at hone
    rw [run_cons, avoids_bind_iff]
    constructor
    · rintro f rfl hf
      rcases hi.step_error hcomp hf with ⟨hr, _⟩ | ⟨_, htwo⟩
      · cases hr
      · omega
    · intro s' h
      have hhits := ScanSystem.step_hits h
      refine ih (hi.step h) (hcomp.step h) ?_
      cases hh : e.hit g <;> simp only [hh, Bool.toNat, cond_true, cond_false, if_true,
        Bool.false_eq_true, if_false] at hhits hone <;> omega

/-- A scan in which one report at most is of a device that it is for never unlocks a free
`doneMutex`, however the callbacks of the others, the scanner and the user interleave with it. -/
theorem one_hit_safe (hone : events.countP (ScanEvent.hit g) ≤ 1) :
    Avoids (· = .doneMutexFree) (run (ScanSystem.step g) {} events) :=
  lockInv_fresh.run_safe (.inl List.mem_cons_self) (by
    rw [show ScanSystem.hits g {} = 0 from rfl, Nat.zero_add]
    exact hone)

theorem one_hit_safe_example :
    Avoids (· = .doneMutexFree) (run (ScanSystem.step exampleScan) {} crowdedEvents) :=
  one_hit_safe (by decide +kernel)

end JuttaProto
