import JuttaProto.ScanInvariant

namespace JuttaProto
open Run Slots
set_option autoImplicit true

/-- A callback tests a matching name only as long as no match has been found. -/
def FirstMatch (s : ScanSystem) : ScanEvent → Prop
  | .handler i =>
    match s.handlers[i]? with
    | some ⟨d, .test_name⟩ => s.scan.args.accepts d = true → s.scan.args.success = false
    | _ => True
  | _ => True

instance : Decidable (FirstMatch s e) := by
  unfold FirstMatch
  split
  · split <;> exact inferInstance
  · exact isTrue trivial

theorem HandlerStep.expects_outside {next : HandlerStep} (hn : next.inside = false) :
    next.Expects s d := by
  cases next
  case lock_m | returned => trivial
  all_goals cases hn

theorem HandlerStep.exec_inside {next : HandlerStep} (h : next.exec d s = .ok (s', next')) :
    (s' = s ∧ next' = next) ∨
    (s.args.m = false ∧ s' = { s with args := { s.args with m := true } } ∧ next' = .test_name) ∨
    (next.inside = true ∧ (next'.inside = true → s'.args.m = s.args.m)) := by
  cases next <;> simp only [HandlerStep.exec] at h
  case lock_m =>
    split at h
    · cases h
      exact .inl ⟨rfl, rfl⟩
    · rename_i hm
      cases h
      exact .inr (.inl ⟨Bool.eq_false_iff.2 hm, rfl, rfl⟩)
  case test_name =>
    split at h <;> cases h <;> exact .inr (.inr ⟨rfl, fun _ => rfl⟩)
  case set_name =>
    split at h <;> cases h
    exact .inr (.inr ⟨rfl, fun _ => rfl⟩)
  case unlock_done =>
    obtain ⟨held, _, h⟩ := bind_ok h
    cases h
    exact .inr (.inr ⟨rfl, fun _ => rfl⟩)
  case unlock_m =>
    obtain ⟨held, _, h⟩ := bind_ok h
    cases h
    exact .inr (.inr ⟨rfl, fun hin => by cases hin⟩)
  case returned =>
    cases h
    exact .inl ⟨rfl, rfl⟩
  all_goals
    cases h
    exact .inr (.inr ⟨rfl, fun _ => rfl⟩)

theorem HandlerStep.exec_frame {next : HandlerStep} (h : next.exec d s = .ok (s', next')) :
    s'.next = s.next ∧ s'.args.nameRegex = s.args.nameRegex := by
  cases next <;> simp only [HandlerStep.exec] at h
  case lock_m | test_name => split at h <;> cases h <;> exact ⟨rfl, rfl⟩
  case set_name =>
    split at h <;> cases h
    exact ⟨rfl, rfl⟩
  case unlock_done | unlock_m =>
    obtain ⟨held, _, h⟩ := bind_ok h
    cases h
    exact ⟨rfl, rfl⟩
  all_goals
    cases h
    exact ⟨rfl, rfl⟩

/-- What a callback that tests a name only before the first match does to the signal. -/
theorem HandlerStep.exec_signal {next : HandlerStep} (he : next.Expects s d)
    (hu : s.args.success = false → s.Unsignalled) (h : next.exec d s = .ok (s', next')) :
    (s'.args.doneMutex = s.args.doneMutex ∧ (¬s.Unsignalled → s.args.SameFind s'.args)) ∨
      (s.Unsignalled ∧ s'.args.doneMutex = false ∧ s'.args.success = true ∧
        s'.args.Names d) := by
  cases next <;> simp only [HandlerStep.exec] at h <;> simp only [HandlerStep.Expects] at he
  case lock_m | test_name =>
    split at h <;> cases h <;> exact .inl ⟨rfl, fun _ => ⟨rfl, rfl, rfl, rfl⟩⟩
  case set_success =>
    cases h
    exact .inl ⟨rfl, fun hn => absurd (hu he.2) hn⟩
  case set_name =>
    split at h <;> cases h
    exact .inl ⟨rfl, fun hn => absurd he.2.2 hn⟩
  case set_addr =>
    cases h
    exact .inl ⟨rfl, fun hn => absurd he.2.2.2 hn⟩
  case unlock_done =>
    obtain ⟨held, hheld, h⟩ := bind_ok h
    obtain ⟨_, rfl⟩ := mutex_unlock_ok hheld
    cases h
    exact .inr ⟨he.2.2, rfl, he.2.1, he.1⟩
  case unlock_m =>
    obtain ⟨held, _, h⟩ := bind_ok h
    cases h
    exact .inl ⟨rfl, fun _ => ⟨rfl, rfl, rfl, rfl⟩⟩
  all_goals
    cases h
    exact .inl ⟨rfl, fun _ => ⟨rfl, rfl, rfl, rfl⟩⟩

theorem HandlerStep.exec_expects {next : HandlerStep} (he : next.Expects s d)
    (hu : s.args.success = false → s.Unsignalled)
    (hg : next = .test_name → s.args.accepts d = true → s.args.success = false)
    (h : next.exec d s = .ok (s', next')) : next'.Expects s' d := by
  cases next <;> simp only [HandlerStep.exec] at h <;> simp only [HandlerStep.Expects] at he
  case lock_m => split at h <;> cases h <;> trivial
  case test_name =>
    split at h <;> cases h
    · rename_i ha
      exact ⟨ha, hg rfl ha⟩
    · trivial
  case set_success =>
    cases h
    exact ⟨he.1, rfl, hu he.2⟩
  case set_name =>
    split at h <;> cases h
    rename_i hname
    exact ⟨he.1, hname, he.2.1, he.2.2⟩
  case set_addr =>
    cases h
    exact ⟨⟨he.1, he.2.1, rfl⟩, he.2.2.1, he.2.2.2⟩
  case scan_disable =>
    cases h
    exact he
  case unlock_done | unlock_m =>
    obtain ⟨held, _, h⟩ := bind_ok h
    cases h
    trivial
  case returned =>
    cases h
    trivial

theorem HandlerStep.exec_ok {next : HandlerStep} (he : next.Expects s d)
    (hm : next.inside = true → s.args.m = true) : ∃ r, next.exec d s = .ok r := by
  cases next <;> simp only [HandlerStep.Expects] at he
  case set_name =>
    obtain ⟨name, hname, _⟩ := (Option.any_eq_true _ _).1 he.1
    exact ⟨_, by rw [HandlerStep.exec, hname]⟩
  case unlock_done => exact ⟨_, by rw [HandlerStep.exec, he.2.2.1, mutex_unlock, ok_bind]; rfl⟩
  case unlock_m => exact ⟨_, by rw [HandlerStep.exec, hm rfl, mutex_unlock, ok_bind]; rfl⟩
  all_goals exact ⟨_, rfl⟩

theorem ScanSystem.inside_set {s : ScanSystem} {scan : Scan}
    (h : ScanSystem.Inside ⟨scan, s.handlers.set i c⟩ j) :
    (j = i ∧ c.next.inside = true) ∨ (j ≠ i ∧ s.Inside j) := by
  obtain ⟨c', hc, hin⟩ := h
  dsimp only at hc
  by_cases hj : i = j
  · rw [List.getElem?_set, if_pos hj] at hc
    split at hc <;> cases hc
    exact .inl ⟨hj.symm, hin⟩
  · rw [List.getElem?_set_ne hj] at hc
    exact .inr ⟨Ne.symm hj, c', hc, hin⟩

theorem ScanSystem.reports_set {s : ScanSystem} (hc : s.handlers[i]? = some ⟨d, next⟩)
    (scan : Scan) (next' : HandlerStep) :
    ScanSystem.reports ⟨scan, s.handlers.set i ⟨d, next'⟩⟩ = s.reports := by
  rw [ScanSystem.reports, List.map_set]
  apply set_of_getElem?
  rw [List.getElem?_map, hc]
  rfl

theorem SignalInv.started (hi : SignalInv s) (hc : c ∈ s.handlers) :
    s.scan.next.started = true := by
  by_contra hn
  rw [(hi.scanner.empty (Bool.eq_false_iff.2 hn)).1] at hc
  cases hc

theorem SignalInv.unsignalled (hi : SignalInv s) (hc : c ∈ s.handlers)
    (hs : s.scan.args.success = false) : s.scan.Unsignalled := by
  by_contra hu
  rw [(hi.found (hi.started hc) hu).1] at hs
  cases hs

theorem SignalInv.handle_exclusive (hi : SignalInv s) (hc : s.handlers[i]? = some ⟨d, next⟩)
    (h : next.exec d s.scan = .ok (scan, next')) :
    Exclusive ⟨scan, s.handlers.set i ⟨d, next'⟩⟩ := by
  rcases HandlerStep.exec_inside h with ⟨rfl, rfl⟩ | ⟨hm, rfl, rfl⟩ | ⟨hin, hm⟩
  · rw [set_of_getElem? hc]
    exact hi.exclusive
  · -- no callback was inside
    have hnone (j : Nat) (hj : s.Inside j) : False := by
      have hm' := (hi.exclusive j hj).1
      rw [hm] at hm'
      cases hm'
    intro j hj
    have hji : j = i := by
      rcases ScanSystem.inside_set hj with ⟨hj, _⟩ | ⟨_, hj⟩
      · exact hj
      · exact (hnone j hj).elim
    refine ⟨rfl, fun k hk => ?_⟩
    rcases ScanSystem.inside_set hk with ⟨hk, _⟩ | ⟨_, hk⟩
    · rw [hk, hji]
    · exact (hnone k hk).elim
  · -- no other callback was inside
    obtain ⟨hmi, hone⟩ := hi.exclusive i ⟨_, hc, hin⟩
    have hself {j : Nat} (hj : ScanSystem.Inside ⟨scan, s.handlers.set i ⟨d, next'⟩⟩ j) :
        j = i ∧ next'.inside = true := by
      rcases ScanSystem.inside_set hj with hj | ⟨hne, hj⟩
      · exact hj
      · exact absurd (hone j hj) hne
    intro j hj
    obtain ⟨rfl, hin'⟩ := hself hj
    exact ⟨(hm hin').trans hmi, fun k hk => (hself hk).1⟩

theorem SignalInv.handle_callbacks (hi : SignalInv s)
    (hc : s.handlers[i]? = some ⟨d, next⟩)
    (hg : next = .test_name → s.scan.args.accepts d = true → s.scan.args.success = false)
    (h : next.exec d s.scan = .ok (scan, next')) :
    ∀ c ∈ s.handlers.set i ⟨d, next'⟩, c.next.Expects scan c.device := by
  have hmem : ⟨d, next⟩ ∈ s.handlers := List.mem_of_getElem? hc
  have hself := HandlerStep.exec_expects (hi.callbacks _ hmem) (hi.unsignalled hmem) hg h
  intro c hcm
  obtain ⟨j, hj⟩ := List.mem_iff_getElem?.1 hcm
  by_cases hij : i = j
  · rw [List.getElem?_set, if_pos hij] at hj
    split at hj <;> cases hj
    exact hself
  · rw [List.getElem?_set_ne hij] at hj
    have hother := hi.callbacks c (List.mem_of_getElem? hj)
    rcases HandlerStep.exec_inside h with ⟨rfl, _⟩ | ⟨_, rfl, _⟩ | ⟨hin, _⟩
    · exact hother
    · exact hother.congr ⟨rfl, rfl, rfl, rfl⟩ fun hu => hu
    · apply HandlerStep.expects_outside
      by_contra hout
      exact hij ((hi.exclusive i ⟨_, hc, hin⟩).2 j ⟨c, hj, Bool.eq_true_of_not_eq_false hout⟩).symm

/-- Once the scan is enabled, the scanner looks at `doneMutex` alone. -/
theorem ScanStep.Expects.congr {next : ScanStep} (h : next.Expects s)
    (hn : next.started = true)
    (hd : s'.scan.args.doneMutex = s.scan.args.doneMutex ∨
      next.took = false ∧ s'.scan.args.doneMutex = false) : next.Expects s' := by
  cases next
  case try_lock | test_canceled | scan_disable | lock_done | sleep => trivial
  case unlock_tried | unlock_done =>
    rcases hd with hd | ⟨ht, _⟩
    · exact hd.trans h
    · cases ht
  case adapter_close | test_success =>
    rcases hd with hd | ⟨_, hd⟩
    · exact hd.trans h
    · exact hd
  case returned found =>
    cases found with
    | false => cases hn
    | true =>
      rcases hd with hd | ⟨_, hd⟩
      · exact hd.trans h
      · exact hd
  all_goals cases hn

theorem SignalInv.handle {s : ScanSystem} (hi : SignalInv s) (hg : FirstMatch s (.handler i))
    (h : s.handle i = .ok s') : SignalInv s' := by
  cases hc : s.handlers[i]? with
  | none =>
    rw [ScanSystem.handle, hc] at h
    cases h
    exact hi
  | some c =>
    obtain ⟨d, next⟩ := c
    rw [handle_eq hc] at h
    obtain ⟨⟨scan, next'⟩, hx, rfl⟩ := map_ok h
    have hmem : ⟨d, next⟩ ∈ s.handlers := List.mem_of_getElem? hc
    have hstart := hi.started hmem
    have hfirst : next = .test_name → s.scan.args.accepts d = true →
        s.scan.args.success = false := by
      rintro rfl
      rw [FirstMatch, hc] at hg
      exact hg
    have hnext := (HandlerStep.exec_frame hx).1
    have hsig := HandlerStep.exec_signal (hi.callbacks _ hmem) (hi.unsignalled hmem) hx
    refine ⟨hi.handle_exclusive hc hx, hi.handle_callbacks hc hfirst hx, ?_, ?_⟩
    · dsimp only
      rw [hnext]
      refine hi.scanner.congr hstart ?_
      rcases hsig with ⟨hd, _⟩ | ⟨hu, hd, _⟩
      · exact .inl hd
      · exact .inr ⟨hu.2, hd⟩
    · intro _ hu
      have hreports := ScanSystem.reports_set hc scan next'
      rcases hsig with ⟨hd, hsame⟩ | ⟨_, _, hs, hnames⟩
      · have hu' : ¬s.scan.Unsignalled := by
          rw [Scan.Unsignalled, ← hd, ← hnext]
          exact hu
        exact (hi.found hstart hu').congr (hsame hu') (hreports ▸ List.Subset.refl _)
      · refine ⟨hs, d, ?_, hnames⟩
        rw [hreports]
        exact List.mem_map_of_mem hmem

theorem SignalInv.report (hi : SignalInv s) (hs : s.scan.scanning = true) (d : Discovery) :
    SignalInv { s with handlers := s.handlers ++ [⟨d, .lock_m⟩] } := by
  have hstart : s.scan.next.started = true := by
    by_contra hn
    rw [(hi.scanner.empty (Bool.eq_false_iff.2 hn)).2] at hs
    cases hs
  have hin {j : Nat}
      (hj : ScanSystem.Inside { s with handlers := s.handlers ++ [⟨d, .lock_m⟩] } j) :
      s.Inside j := by
    obtain ⟨c, hc, hin⟩ := hj
    rw [List.getElem?_append] at hc
    split at hc
    · exact ⟨c, hc, hin⟩
    · rw [List.mem_singleton.1 (List.mem_of_getElem? hc)] at hin
      cases hin
  refine ⟨fun i hi' => ?_, fun c hc => ?_, hi.scanner.congr hstart (.inl rfl), fun _ hu => ?_⟩
  · obtain ⟨hm, hone⟩ := hi.exclusive i (hin hi')
    exact ⟨hm, fun j hj => hone j (hin hj)⟩
  · rcases List.mem_append.1 hc with hc | hc
    · exact hi.callbacks c hc
    · rw [List.mem_singleton.1 hc]
      trivial
  · refine (hi.found hstart hu).congr ⟨rfl, rfl, rfl, rfl⟩ ?_
    exact List.map_subset _ (List.subset_append_left _ _)

theorem SignalInv.step {s : ScanSystem} (hi : SignalInv s) (hg : FirstMatch s e)
    (h : s.step g e = .ok s') : SignalInv s' := by
  cases e with
  | scanner =>
    obtain ⟨scan, ha, rfl⟩ := map_ok h
    exact hi.advance ha
  | report d =>
    cases h
    split
    · exact hi.report ‹_› d
    · exact hi
  | handler i => exact hi.handle hg h
  | cancel =>
    cases h
    exact ⟨hi.exclusive, fun c hc => (hi.callbacks c hc).congr ⟨rfl, rfl, rfl, rfl⟩ fun hu => hu,
      hi.scanner, hi.found⟩

theorem SignalInv.within {s : ScanSystem} (hi : SignalInv s) (g : ScanReplies) (e : ScanEvent) :
    Within (· = .regex_error) (s.step g e) := by
  cases e with
  | scanner => exact hi.advance_within.map _
  | report d => exact within_ok _ _
  | handler i =>
    change Within _ (s.handle i)
    cases hc : s.handlers[i]? with
    | none =>
      rw [ScanSystem.handle, hc]
      exact within_ok _ _
    | some c =>
      obtain ⟨r, hr⟩ := HandlerStep.exec_ok (hi.callbacks c (List.mem_of_getElem? hc))
        fun hin => (hi.exclusive i ⟨c, hc, hin⟩).1
      rw [handle_eq hc, hr]
      exact within_ok _ _
  | cancel => exact within_ok _ _

def Compiled (g : ScanReplies) (s : ScanSystem) : Prop :=
  s.scan.next ∈ [.adapter_open, .set_nameRegex, .returned false] ∨
    g.nameRegex = some s.scan.args.nameRegex

theorem Compiled.step {s : ScanSystem} (hi : Compiled g s) (h : s.step g e = .ok s') :
    Compiled g s' := by
  cases e with
  | scanner =>
    obtain ⟨scan, ha, rfl⟩ := map_ok h
    rcases advance_args ha with ⟨_, nameRegex, hr, hargs⟩ | hargs
    · exact .inr (by rw [hargs, hr])
    · rcases hi with hn | hr
      · simp only [List.mem_cons, List.not_mem_nil, or_false] at hn
        rcases hn with hn | hn | hn <;> simp only [Scan.advance, hn] at ha
        · split at ha <;> cases ha
          · exact .inl (List.mem_cons_of_mem _ List.mem_cons_self)
          · exact .inl (List.mem_cons_of_mem _ (List.mem_cons_of_mem _ List.mem_cons_self))
        · split at ha
          · rename_i hr
            cases ha
            exact .inr hr
          · cases ha
        · cases ha
          exact .inl (by rw [hn]; decide)
      · exact .inr (by rw [hargs, hr])
  | report d =>
    cases h
    split <;> exact hi
  | handler i =>
    change s.handle i = .ok s' at h
    cases hc : s.handlers[i]? with
    | none =>
      rw [ScanSystem.handle, hc] at h
      cases h
      exact hi
    | some c =>
      rw [handle_eq hc] at h
      obtain ⟨⟨scan, next'⟩, hx, rfl⟩ := map_ok h
      obtain ⟨hnext, hregex⟩ := HandlerStep.exec_frame hx
      simp only [Compiled, hnext, hregex]
      exact hi
  | cancel =>
    cases h
    exact hi

/-- If no second match is handled, the scanner is signalled exactly once, and what it returns is
one of the reported devices that match. -/
theorem scan_signalled_once (hg : Guarded (ScanSystem.step g) FirstMatch {} events) :
    Avoids (· = .doneMutexFree) (run (ScanSystem.step g) {} events) ∧
      ∀ s, run (ScanSystem.step g) {} events = .ok s → s.scan.next = .returned true →
        ∃ d ∈ s.reports, ∃ nameRegex, g.nameRegex = some nameRegex ∧
          nameRegex s.scan.args.name = true ∧ d.name = some s.scan.args.name ∧
          d.addr = s.scan.args.addr := by
  have hfresh : SignalInv {} := .of_empty ⟨rfl, rfl⟩ rfl
  constructor
  · refine (hg.within SignalInv (fun _ _ _ hi hg => hi.step hg)
      (fun s e hi _ => hi.within g e) hfresh).avoids ?_
    rintro e rfl he
    cases he
  · intro s h hn
    have hi := hg.invariant SignalInv (fun _ _ _ hi hg => hi.step hg) hfresh h
    have hcompiled : Compiled g s :=
      run_invariant (Compiled g) (fun _ _ _ hi => hi.step) (.inl List.mem_cons_self) h
    have he := hi.scanner
    rw [hn] at he
    obtain ⟨_, d, hd, haccepts, hname, haddr⟩ :=
      hi.found (by rw [hn]; rfl) (not_unsignalled_of_free he)
    refine ⟨d, hd, s.scan.args.nameRegex, ?_, ?_, hname, haddr⟩
    · rw [Compiled, hn] at hcompiled
      exact hcompiled.resolve_left (by decide)
    · rw [ScanArgs.accepts, hname] at haccepts
      exact haccepts

def secondDevice : Discovery := ⟨cstr "AA:BB:CC:DD:EE:02", some (cstr "TT214H BlueFrog")⟩

theorem scan_signalled_once_example : ∃ s, run (ScanSystem.step exampleScan) {}
      (List.replicate 4 .scanner ++ [.report exampleDevice] ++ List.replicate 8 (.handler 0) ++
        List.replicate 4 .scanner) = .ok s ∧
    ∃ d ∈ s.reports, ∃ nameRegex, exampleScan.nameRegex = some nameRegex ∧
      nameRegex s.scan.args.name = true ∧ d.name = some s.scan.args.name ∧
      d.addr = s.scan.args.addr := by
  obtain ⟨s, h, hn⟩ : ∃ s, run (ScanSystem.step exampleScan) {}
      (List.replicate 4 .scanner ++ [.report exampleDevice] ++ List.replicate 8 (.handler 0) ++
        List.replicate 4 .scanner) = .ok s ∧ s.scan.next = .returned true := by decide +kernel
  exact ⟨s, h, (scan_signalled_once (by decide +kernel)).2 s h hn⟩

/-- Two matching devices are reported before the scan is disabled, and the second callback unlocks
`doneMutex` once more. -/
theorem scan_signalled_twice : run (ScanSystem.step exampleScan) {}
      (List.replicate 4 .scanner ++ [.report exampleDevice, .report secondDevice] ++
        List.replicate 8 (.handler 0) ++ List.replicate 7 (.handler 1)) =
    .error .doneMutexFree := by
  rfl

end JuttaProto
