import JuttaProto.Execution
import JuttaProto.ScanFaults

namespace JuttaProto
open Run Slots
set_option autoImplicit true

def ScanSystem.callbacksLeft (s : ScanSystem) : Nat := total (·.next.left) s.handlers

def ScanSystem.Settled (s : ScanSystem) : Prop := ∀ c ∈ s.handlers, c.next = .returned

/-- The turn is that of a callback which need not wait for `m`. -/
def ScanSystem.awaits (s : ScanSystem) (e : ScanEvent) : Prop :=
  ∃ i c, e = .handler i ∧ s.handlers[i]? = some c ∧ c.next ≠ .returned ∧
    (s.scan.args.m = true → c.next.inside = true)

theorem ScanSystem.awaits.congr {s s' : ScanSystem} (h : s.awaits e)
    (hh : s'.handlers = s.handlers) (hm : s'.scan.args.m = s.scan.args.m) : s'.awaits e := by
  obtain ⟨i, c, he, hc, hn, hin⟩ := h
  exact ⟨i, c, he, hh ▸ hc, hn, hm ▸ hin⟩

/-- Of the callbacks that have not returned, one need not wait. -/
theorem LockInv.exists_awaited {s : ScanSystem} (hi : LockInv s) (hs : ¬s.Settled) :
    ∃ i, s.awaits (.handler i) := by
  cases hm : s.scan.args.m with
  | true =>
    have hpos : 0 < s.inside := by
      rw [hi.exclusive, hm]
      exact Nat.one_pos
    obtain ⟨c, hc, hin⟩ := List.countP_pos_iff.1 hpos
    obtain ⟨i, hci⟩ := List.mem_iff_getElem?.1 hc
    refine ⟨i, i, c, rfl, hci, ?_, fun _ => hin⟩
    intro hn
    rw [hn] at hin
    cases hin
  | false =>
    rw [ScanSystem.Settled, Classical.not_forall] at hs
    obtain ⟨c, hs⟩ := hs
    rw [Classical.not_imp] at hs
    obtain ⟨hc, hn⟩ := hs
    obtain ⟨i, hci⟩ := List.mem_iff_getElem?.1 hc
    refine ⟨i, i, c, rfl, hci, hn, fun ht => ?_⟩
    rw [hm] at ht
    cases ht

theorem LockInv.advance_m {s : ScanSystem} (hi : LockInv s) (hs : ¬s.Settled)
    (h : s.scan.advance g = .ok scan) : scan.args.m = s.scan.args.m := by
  rcases advance_args h with ⟨hn, _⟩ | hargs
  · have he := hi.scanner
    rw [hn] at he
    apply absurd _ hs
    intro c hc
    rw [he.1] at hc
    cases hc
  · rw [hargs]

theorem ScanSystem.report_eq {s s' : ScanSystem} (h : s.step g (.report d) = .ok s')
    (hr : s'.reports = s.reports) : s' = s := by
  cases h
  split at hr
  · have hlen := congrArg List.length hr
    rw [reports, reports, List.map_append, List.length_append] at hlen
    exact absurd hlen (Nat.succ_ne_self _)
  · exact if_neg ‹_›

/-- Without a new report, a turn lets a callback go on that need not wait, or changes nothing for
the callbacks. -/
theorem LockInv.callbacks_progress {s s' : ScanSystem} (hi : LockInv s) (hs : ¬s.Settled)
    (hr : s'.reports = s.reports) (h : s.step g e = .ok s') :
    Progress ScanSystem.callbacksLeft ScanSystem.awaits ScanSystem.Settled s e s' := by
  have hsame (hh : s'.handlers = s.handlers) (hm : s'.scan.args.m = s.scan.args.m)
      (hn : ¬s.awaits e) :
      Progress ScanSystem.callbacksLeft ScanSystem.awaits ScanSystem.Settled s e s' := by
    refine .inr (.inr ⟨?_, hn, fun b hb => hb.congr hh hm⟩)
    rw [ScanSystem.callbacksLeft, hh]
    rfl
  cases e with
  | scanner =>
    obtain ⟨scan, ha, rfl⟩ := map_ok h
    apply hsame rfl (hi.advance_m hs ha)
    rintro ⟨i, c, he, _⟩
    cases he
  | report d =>
    have hss := ScanSystem.report_eq h hr
    apply hsame (congrArg _ hss) (congrArg (·.scan.args.m) hss)
    rintro ⟨i, c, he, _⟩
    cases he
  | cancel =>
    cases h
    apply hsame rfl rfl
    rintro ⟨i, c, he, _⟩
    cases he
  | handler i =>
    change s.handle i = .ok s' at h
    cases hc : s.handlers[i]? with
    | none =>
      rw [ScanSystem.handle, hc] at h
      cases h
      apply hsame rfl rfl
      rintro ⟨j, c, he, hj, _⟩
      cases he
      rw [hc] at hj
      cases hj
    | some c =>
      obtain ⟨d, next⟩ := c
      rw [handle_eq hc] at h
      obtain ⟨⟨scan, next'⟩, hx, rfl⟩ := map_ok h
      have hsum := total_set hc (fun c : Callback => c.next.left) ⟨d, next'⟩
      have hlower (hl : next'.left < next.left) :
          ScanSystem.callbacksLeft ⟨scan, s.handlers.set i ⟨d, next'⟩⟩ <
            s.callbacksLeft := by
        rw [ScanSystem.callbacksLeft, ScanSystem.callbacksLeft]
        dsimp only at hsum ⊢
        omega
      rcases HandlerStep.exec_left hx with ⟨rfl, rfl, hwait⟩ | hl | ⟨_, hl⟩
      · apply hsame (set_of_getElem? hc) rfl
        rintro ⟨j, c, he, hj, hn, hin⟩
        cases he
        rw [hc] at hj
        cases hj
        rcases hwait with hret | ⟨hlock, hm⟩
        · exact hn hret
        · have hin := hin hm
          simp only [hlock] at hin
          cases hin
      · exact .inr (.inl (hlower (by omega)))
      · exact .inr (.inl (hlower hl))

theorem ScanSystem.Settled.step {s s' : ScanSystem} (hs : s.Settled)
    (hr : s'.reports = s.reports) (h : s.step g e = .ok s') :
    s'.handlers = s.handlers ∧ (e = .scanner ∧ s.scan.advance g = .ok s'.scan ∨
      e ≠ .scanner ∧ s'.scan.args = s.scan.args ∧ s'.scan.next = s.scan.next) := by
  cases e with
  | scanner =>
    obtain ⟨scan, ha, rfl⟩ := map_ok h
    exact ⟨rfl, .inl ⟨rfl, ha⟩⟩
  | report d =>
    cases ScanSystem.report_eq h hr
    exact ⟨rfl, .inr ⟨ScanEvent.noConfusion, rfl, rfl⟩⟩
  | cancel =>
    cases h
    exact ⟨rfl, .inr ⟨ScanEvent.noConfusion, rfl, rfl⟩⟩
  | handler i =>
    change s.handle i = .ok s' at h
    cases hc : s.handlers[i]? with
    | none =>
      rw [ScanSystem.handle, hc] at h
      cases h
      exact ⟨rfl, .inr ⟨ScanEvent.noConfusion, rfl, rfl⟩⟩
    | some c =>
      obtain ⟨d, next⟩ := c
      cases hs _ (List.mem_of_getElem? hc)
      rw [handle_eq hc] at h
      cases h
      exact ⟨set_of_getElem? hc, .inr ⟨ScanEvent.noConfusion, rfl, rfl⟩⟩

def ScanStep.left : ScanStep → Nat
  | .test_success => 1
  | .adapter_close => 2
  | .unlock_tried | .unlock_done => 3
  | .try_lock | .lock_done => 4
  | .sleep | .scan_disable => 5
  | .test_canceled => 6
  | _ => 0

def ScanSystem.scannerLeft (s : ScanSystem) : Nat := s.scan.next.left

def ScanSystem.Successful (s : ScanSystem) : Prop := s.scan.next = .returned true

def ScanEvent.OfScanner (_ : ScanSystem) (e : ScanEvent) : Prop := e = .scanner

/-- The callbacks have returned, and one of them has released `doneMutex`. -/
structure ScanSystem.Signalled (s : ScanSystem) : Prop where
  inv : LockInv s
  settled : s.Settled
  released : 0 < s.releases

theorem ScanSystem.Signalled.started {s : ScanSystem} (hs : s.Signalled) :
    s.scan.next.started = true := by
  obtain ⟨c, hc, _⟩ := List.countP_pos_iff.1 hs.released
  exact hs.inv.started hc

theorem ScanSystem.Signalled.success {s : ScanSystem} (hs : s.Signalled) :
    s.scan.args.success = true :=
  hs.inv.success ((reached_of_releases hs.released).mono (by decide))

theorem ScanSystem.Signalled.free {s : ScanSystem} (hs : s.Signalled)
    (hb : s.scan.args.doneMutex.toNat + s.releases = 1) : s.scan.args.doneMutex = false := by
  have hr := hs.released
  cases hd : s.scan.args.doneMutex with
  | false => rfl
  | true =>
    rw [hd, Bool.toNat_true] at hb
    omega

theorem ScanSystem.Signalled.advance {s : ScanSystem} {scan : Scan} (hs : s.Signalled)
    (h : s.scan.advance g = .ok scan) :
    scan.next = .returned true ∨ scan.next.left < s.scan.next.left := by
  have he := hs.inv.scanner
  have hstart := hs.started
  cases hn : s.scan.next <;> simp only [Scan.advance, hn] at h <;> rw [hn] at he hstart
  case try_lock =>
    rw [if_neg (Bool.eq_false_iff.1 (hs.free he))] at h
    cases h
    exact .inr (Nat.lt_succ_self _)
  case lock_done =>
    rw [if_neg (Bool.eq_false_iff.1 (hs.free he))] at h
    cases h
    exact .inr (Nat.lt_succ_self _)
  case unlock_tried | unlock_done =>
    obtain ⟨held, _, h⟩ := bind_ok h
    cases h
    exact .inr (Nat.lt_succ_self _)
  case test_canceled => split at h <;> cases h <;> exact .inr (Nat.lt_succ_self _)
  case test_success =>
    cases h
    exact .inl (by rw [hs.success])
  case returned found =>
    cases h
    cases found with
    | false => cases hstart
    | true => exact .inl hn
  case scan_disable | sleep | adapter_close =>
    cases h
    exact .inr (Nat.lt_succ_self _)
  all_goals cases hstart

theorem ScanSystem.Settled.of_handlers {s s' : ScanSystem} (hs : s.Settled)
    (hh : s'.handlers = s.handlers) : s'.Settled := by
  intro c hc
  rw [hh] at hc
  exact hs c hc

theorem ScanSystem.Signalled.step {s s' : ScanSystem} (hs : s.Signalled)
    (hr : s'.reports = s.reports) (h : s.step g e = .ok s') :
    s'.Signalled ∧
      Progress ScanSystem.scannerLeft ScanEvent.OfScanner ScanSystem.Successful s e s' := by
  obtain ⟨hh, hcases⟩ := hs.settled.step hr h
  have hargs : s'.scan.args.nameRegex = s.scan.args.nameRegex := by
    rcases hcases with ⟨_, ha⟩ | ⟨_, ha, _⟩
    · rcases advance_args ha with ⟨hn, _⟩ | hargs
      · have hstart := hs.started
        rw [hn] at hstart
        cases hstart
      · rw [hargs]
    · rw [ha]
  have hreleased : 0 < s'.releases := by
    have hfun : Callback.released s'.scan.args = Callback.released s.scan.args := by
      funext c
      rw [Callback.released, Callback.released, ScanArgs.accepts, ScanArgs.accepts, hargs]
    rw [releases, hfun, hh]
    exact hs.released
  refine ⟨⟨hs.inv.step h, hs.settled.of_handlers hh, hreleased⟩, ?_⟩
  rcases hcases with ⟨_, ha⟩ | ⟨hne, _, hn⟩
  · exact (hs.advance ha).elim .inl fun hl => .inr (.inl hl)
  · exact .inr (.inr ⟨congrArg ScanStep.left hn, hne, fun _ hb => hb⟩)

theorem ScanSystem.Settled.releases_eq {s : ScanSystem} (hs : s.Settled) (hcomp : Compiled g s)
    (hi : LockInv s) : s.releases = s.hits g := by
  rw [releases, hits, reports, List.countP_map]
  apply List.countP_congr
  intro c hc
  rw [Callback.released, hs c hc, hcomp.accepts (hi.started hc)]
  exact iff_of_eq (congrArg (· = true) (Bool.and_true _))

theorem LockInv.names_of_filter {s : ScanSystem} (hi : LockInv s) (hcomp : Compiled g s)
    (hn : s.scan.next = .returned true) (hd : s.reports.filter g.accepts = [d]) :
    d.name = some s.scan.args.name ∧ d.addr = s.scan.args.addr := by
  have he := hi.scanner
  rw [hn] at he
  have hreached : s.Reached 1 := by
    apply ScanSystem.reached_of_releases
    rw [he.2]
    exact Nat.one_pos
  have haccepts := hcomp.accepts (by rw [hn]; rfl)
  have honly {d' : Discovery} (hd' : d' ∈ s.reports) (ha : s.scan.args.accepts d' = true) :
      d' = d := by
    rw [haccepts] at ha
    have hmem := List.mem_filter.2 ⟨hd', ha⟩
    rw [hd] at hmem
    exact List.mem_singleton.1 hmem
  obtain ⟨d₁, hd₁, ha₁, hname⟩ := hi.name (hreached.mono (by decide))
  obtain ⟨d₂, hd₂, ha₂, haddr⟩ := hi.addr (hreached.mono (by decide))
  exact ⟨honly hd₁ ha₁ ▸ hname, honly hd₂ ha₂ ▸ haddr⟩

theorem ScanSystem.step_returned {s s' : ScanSystem} (hn : s.scan.next = .returned found)
    (h : s.step g e = .ok s') : s'.scan.next = .returned found := by
  cases e with
  | scanner =>
    rw [step, Scan.advance, hn] at h
    cases h
    exact hn
  | report d =>
    cases h
    split <;> exact hn
  | cancel =>
    cases h
    exact hn
  | handler i =>
    change s.handle i = .ok s' at h
    cases hc : s.handlers[i]? with
    | none =>
      rw [handle, hc] at h
      cases h
      exact hn
    | some c =>
      obtain ⟨d, next⟩ := c
      rw [handle_eq hc] at h
      obtain ⟨⟨scan, next'⟩, hx, rfl⟩ := map_ok h
      exact (HandlerStep.exec_frame hx).1.trans hn

section Fair
variable {x : Execution (ScanSystem.step g)} {n : Nat}

theorem lockInv_execution (h : x.state 0 = {}) (m : Nat) :
    LockInv (x.state m) ∧ Compiled g (x.state m) := by
  have hstart : LockInv (x.state 0) ∧ Compiled g (x.state 0) := by
    rw [h]
    exact ⟨lockInv_fresh, .inl List.mem_cons_self⟩
  exact x.always (fun s => LockInv s ∧ Compiled g s)
    (fun m _ hi => ⟨hi.1.step (x.step_ok m), hi.2.step (x.step_ok m)⟩) hstart (Nat.zero_le m)

theorem callbacks_return (h : x.state 0 = {}) (hcallbacks : ∀ i, x.Often (· = .handler i))
    (hstop : ∀ m, n ≤ m → (x.state m).reports = (x.state n).reports) :
    ∃ m, n ≤ m ∧ (x.state m).Settled := by
  have hstep (m : Nat) (hm : n ≤ m) (hi : LockInv (x.state m)) (hs : ¬(x.state m).Settled) :
      LockInv (x.state (m + 1)) ∧ Progress ScanSystem.callbacksLeft ScanSystem.awaits
        ScanSystem.Settled (x.state m) (x.turn m) (x.state (m + 1)) := by
    have hr := (hstop (m + 1) (Nat.le_succ_of_le hm)).trans (hstop m hm).symm
    exact ⟨hi.step (x.step_ok m), hi.callbacks_progress hs hr (x.step_ok m)⟩
  have hfair (s : ScanSystem) (hi : LockInv s) (hs : ¬s.Settled) : x.Often s.awaits := by
    obtain ⟨i, hi⟩ := hi.exists_awaited hs
    refine (hcallbacks i).mono fun e he => ?_
    rw [he]
    exact hi
  exact Execution.leads_to hstep hfair (lockInv_execution h n).1

theorem scanner_returns (hs : (x.state n).Signalled) (hscanner : x.Often (· = .scanner))
    (hstop : ∀ m, n ≤ m → (x.state m).reports = (x.state n).reports) :
    ∃ m, n ≤ m ∧ (x.state m).Successful := by
  have hstep (m : Nat) (hm : n ≤ m) (hi : (x.state m).Signalled)
      (_ : ¬(x.state m).Successful) :=
    hi.step ((hstop (m + 1) (Nat.le_succ_of_le hm)).trans (hstop m hm).symm) (x.step_ok m)
  exact Execution.leads_to hstep (fun _ _ _ => hscanner) hs

/-- If all get their turns again and again and the reports stop, then either no report is of a
device that the scan is for, and it never returns one, or exactly one is, and the scan returns it,
whether the user cancels or not. -/
theorem scan_decided (h : x.state 0 = {}) (hscanner : x.Often (· = .scanner))
    (hcallbacks : ∀ i, x.Often (· = .handler i))
    (hstop : ∀ m, n ≤ m → (x.state m).reports = (x.state n).reports) :
    ((∀ d ∈ (x.state n).reports, g.accepts d = false) ∧
        ∀ m, (x.state m).scan.next ≠ .returned true) ∨
      ∃ d m, (x.state n).reports.filter g.accepts = [d] ∧
        (x.state m).scan.next = .returned true ∧ d.name = some (x.state m).scan.args.name ∧
          d.addr = (x.state m).scan.args.addr := by
  obtain ⟨k, hk, hsettled⟩ := callbacks_return h hcallbacks hstop
  have hinv := lockInv_execution h
  have hhits {m : Nat} (hm : n ≤ m) : (x.state m).hits g = (x.state n).hits g :=
    congrArg (List.countP g.accepts) (hstop m hm)
  by_cases hzero : (x.state n).hits g = 0
  · left
    constructor
    · intro d hd
      exact Bool.eq_false_iff.2 (List.countP_eq_zero.1 hzero d hd)
    · intro m hm
      have hlater : (x.state (n + m)).scan.next = .returned true :=
        x.always ScanSystem.Successful (fun j _ hn => ScanSystem.step_returned hn (x.step_ok j)) hm
          (Nat.le_add_left m n)
      obtain ⟨hi, hcomp⟩ := hinv (n + m)
      have he := hi.scanner
      rw [hlater] at he
      have hle := ScanSystem.releases_le hcomp (by rw [hlater]; rfl)
      rw [he.2, hhits (Nat.le_add_right n m), hzero] at hle
      exact absurd hle (by decide)
  · right
    obtain ⟨hi, hcomp⟩ := hinv k
    have hreleased : 0 < (x.state k).releases := by
      rw [hsettled.releases_eq hcomp hi, hhits hk]
      exact Nat.pos_of_ne_zero hzero
    have hstop' (m : Nat) (hm : k ≤ m) : (x.state m).reports = (x.state k).reports :=
      (hstop m (Nat.le_trans hk hm)).trans (hstop k hk).symm
    have hsignalled : (x.state k).Signalled := ⟨hi, hsettled, hreleased⟩
    obtain ⟨m, hm, hreturned⟩ := scanner_returns hsignalled hscanner hstop'
    have hlast : (x.state m).Signalled := x.always ScanSystem.Signalled
      (fun j hj hs => (hs.step ((hstop' _ (Nat.le_succ_of_le hj)).trans (hstop' j hj).symm)
        (x.step_ok j)).1) hsignalled hm
    have he := hlast.inv.scanner
    rw [hreturned] at he
    have hone : ((x.state m).reports.filter g.accepts).length = 1 := by
      rw [← List.countP_eq_length_filter]
      exact (hlast.settled.releases_eq (hinv m).2 hlast.inv).symm.trans he.2
    obtain ⟨d, hd⟩ := List.length_eq_one_iff.1 hone
    obtain ⟨hname, haddr⟩ := hlast.inv.names_of_filter (hinv m).2 hreturned hd
    rw [hstop m (Nat.le_trans hk hm)] at hd
    exact ⟨d, m, hd, hreturned, hname, haddr⟩

end Fair

/-- The scanner starts, a device is reported, and then the scanner and the callbacks take turns,
each callback again and again. -/
def fairTurn (n : Nat) : ScanEvent :=
  if n < 4 then .scanner
  else if n = 4 then .report exampleDevice
  else if n % 2 = 0 then .scanner
  else .handler (Nat.unpair (n / 2)).1

theorem fairTurn_scanner (n : Nat) : ∃ m, n ≤ m ∧ fairTurn m = .scanner := by
  refine ⟨2 * n + 6, by omega, ?_⟩
  have heven : (2 * n + 6) % 2 = 0 := by omega
  rw [fairTurn, if_neg (by omega), if_neg (by omega), if_pos heven]

theorem fairTurn_handler (i n : Nat) : ∃ m, n ≤ m ∧ fairTurn m = .handler i := by
  have hle := Nat.right_le_pair i (n + 4)
  refine ⟨2 * Nat.pair i (n + 4) + 1, by omega, ?_⟩
  have hodd : ¬(2 * Nat.pair i (n + 4) + 1) % 2 = 0 := by omega
  have hhalf : (2 * Nat.pair i (n + 4) + 1) / 2 = Nat.pair i (n + 4) := by omega
  rw [fairTurn, if_neg (by omega), if_neg (by omega), if_neg hodd, hhalf, Nat.unpair_pair]

theorem fairTurn_ok (n : Nat) (s : ScanSystem)
    (h : LockInv s ∧ Compiled exampleScan s ∧ s.hits exampleScan ≤ if n ≤ 4 then 0 else 1) :
    ∃ s', s.step exampleScan (fairTurn n) = .ok s' ∧ LockInv s' ∧ Compiled exampleScan s' ∧
      s'.hits exampleScan ≤ if n + 1 ≤ 4 then 0 else 1 := by
  obtain ⟨hi, hcomp, hhits⟩ := h
  have hle : s.hits exampleScan ≤ 1 := by
    split at hhits <;> omega
  cases hs : s.step exampleScan (fairTurn n) with
  | error f =>
    rcases hi.step_error hcomp hs with ⟨_, hg⟩ | ⟨_, htwo⟩
    · cases hg
    · omega
  | ok s' =>
    refine ⟨s', rfl, hi.step hs, hcomp.step hs, ?_⟩
    have hstep := ScanSystem.step_hits hs
    by_cases hn : n = 4
    · subst hn
      exact Nat.le_trans hstep (Nat.add_le_add_right hhits _)
    · have hnot : (fairTurn n).hit exampleScan = false := by
        rw [fairTurn, if_neg hn]
        split
        · rfl
        · split <;> rfl
      rw [hnot] at hstep
      refine Nat.le_trans hstep (Nat.le_trans hhits ?_)
      split <;> split <;> omega

theorem scan_decided_example : ∃ x : Execution (ScanSystem.step exampleScan),
    x.state 0 = {} ∧ ∃ m, (x.state m).scan.next = .returned true ∧
      exampleDevice.name = some (x.state m).scan.args.name ∧
        exampleDevice.addr = (x.state m).scan.args.addr := by
  obtain ⟨x, h, hturn⟩ := Execution.exists_schedule fairTurn_ok
    ⟨lockInv_fresh, .inl List.mem_cons_self, Nat.le_refl 0⟩
  have hreports : (x.state 5).reports = [exampleDevice] := by
    have hfive := x.run_turns 5
    have hrun : ScanSystem.reports <$>
        run (ScanSystem.step exampleScan) {} ((List.range 5).map fairTurn) =
          .ok [exampleDevice] := by rfl
    rw [h, hturn] at hfive
    rw [hfive] at hrun
    exact Except.ok.inj hrun
  have hstop (m : Nat) (hm : 5 ≤ m) : (x.state m).reports = (x.state 5).reports := by
    refine x.always (fun s => s.reports = (x.state 5).reports) (fun j hj hr => ?_) rfl hm
    rcases ScanSystem.step_reports (x.step_ok j) with hs | ⟨d, hs, _⟩
    · exact hs.trans hr
    · rw [hturn, fairTurn, if_neg (by omega), if_neg (by omega)] at hs
      split at hs <;> cases hs
  have hscanner : x.Often (· = .scanner) := by
    rw [Execution.Often, hturn]
    exact fairTurn_scanner
  have hcallbacks (i : Nat) : x.Often (· = .handler i) := by
    rw [Execution.Often, hturn]
    exact fairTurn_handler i
  refine ⟨x, h, ?_⟩
  rcases scan_decided h hscanner hcallbacks hstop with ⟨hnone, _⟩ | ⟨d, m, hd, hm⟩
  · have hno := hnone exampleDevice (by rw [hreports]; exact List.mem_cons_self)
    cases hno
  · rw [hreports] at hd
    cases hd
    exact ⟨m, hm⟩

end JuttaProto
