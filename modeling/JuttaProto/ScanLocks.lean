import JuttaProto.ScanSignal

namespace JuttaProto
open Run Slots
set_option autoImplicit true

/-- The steps that a callback has left, if its name matches. -/
def HandlerStep.left : HandlerStep → Nat
  | lock_m => 8
  | test_name => 7
  | set_success => 6
  | set_name => 5
  | set_addr => 4
  | scan_disable => 3
  | unlock_done => 2
  | unlock_m => 1
  | returned => 0

def HandlerStep.matched : HandlerStep → Bool
  | set_success | set_name | set_addr | scan_disable | unlock_done => true
  | _ => false

def HandlerStep.past : HandlerStep → Bool
  | unlock_m | returned => true
  | _ => false

def Callback.released (args : ScanArgs) (c : Callback) : Bool :=
  args.accepts c.device && c.next.past

def ScanSystem.releases (s : ScanSystem) : Nat :=
  s.handlers.countP (Callback.released s.scan.args)

def ScanSystem.inside (s : ScanSystem) : Nat := s.handlers.countP (·.next.inside)

/-- A callback for a matching device has at most `k` steps left. -/
def ScanSystem.Reached (s : ScanSystem) (k : Nat) : Prop :=
  ∃ c ∈ s.handlers, s.scan.args.accepts c.device = true ∧ c.next.left ≤ k

def Named (s : ScanSystem) : Prop :=
  ∃ d ∈ s.reports, s.scan.args.accepts d = true ∧ d.name = some s.scan.args.name

def Addressed (s : ScanSystem) : Prop :=
  ∃ d ∈ s.reports, s.scan.args.accepts d = true ∧ d.addr = s.scan.args.addr

/-- `doneMutex` is locked before the scan starts and once more by the scanner, who alone of the two
sides releases what it has locked itself. -/
def ScanStep.Balanced (s : ScanSystem) : ScanStep → Prop
  | .adapter_open | .set_nameRegex | .lock_args | .close_failed | .returned false =>
    s.handlers = [] ∧ s.scan.scanning = false
  | .scan_enable => s.handlers = [] ∧ s.scan.scanning = false ∧ s.scan.args.doneMutex = true
  | .try_lock | .test_canceled | .scan_disable | .lock_done | .sleep =>
    s.scan.args.doneMutex.toNat + s.releases = 1
  | .unlock_tried | .unlock_done => s.scan.args.doneMutex.toNat + s.releases = 2
  | .adapter_close | .test_success | .returned true =>
    s.scan.args.doneMutex = false ∧ s.releases = 1

/-- The invariant of every scan, however many devices match. -/
structure LockInv (s : ScanSystem) : Prop where
  matched : ∀ c ∈ s.handlers, c.next.matched = true → s.scan.args.accepts c.device = true
  exclusive : s.inside = s.scan.args.m.toNat
  scanner : s.scan.next.Balanced s
  success : s.Reached 5 → s.scan.args.success = true
  name : s.Reached 4 → Named s
  addr : s.Reached 3 → Addressed s

theorem ScanStep.Balanced.empty {next : ScanStep} (h : next.Balanced s)
    (hn : next.started = false) : s.handlers = [] ∧ s.scan.scanning = false := by
  cases next
  case adapter_open | set_nameRegex | lock_args | close_failed => exact h
  case scan_enable => exact ⟨h.1, h.2.1⟩
  case returned found =>
    cases found with
    | false => exact h
    | true => cases hn
  all_goals cases hn

theorem LockInv.started (hi : LockInv s) (hc : c ∈ s.handlers) :
    s.scan.next.started = true := by
  by_contra hn
  rw [(hi.scanner.empty (Bool.eq_false_iff.2 hn)).1] at hc
  cases hc

theorem LockInv.of_empty {s : ScanSystem} (he : s.handlers = []) (hm : s.scan.args.m = false)
    (hb : s.scan.next.Balanced s) : LockInv s := by
  have hnone (k : Nat) : ¬s.Reached k := by
    rintro ⟨c, hc, _⟩
    rw [he] at hc
    cases hc
  refine ⟨?_, ?_, hb, fun h => absurd h (hnone _), fun h => absurd h (hnone _),
    fun h => absurd h (hnone _)⟩
  · intro c hc
    rw [he] at hc
    cases hc
  · rw [ScanSystem.inside, he, hm]
    rfl

theorem HandlerStep.exec_accepts {next : HandlerStep} (h : next.exec d s = .ok (s', next'))
    (d' : Discovery) : s'.args.accepts d' = s.args.accepts d' := by
  rw [ScanArgs.accepts, ScanArgs.accepts, (exec_frame h).2]

theorem HandlerStep.exec_matched {next : HandlerStep} (h : next.exec d s = .ok (s', next'))
    (hm : next'.matched = true) : s.args.accepts d = true ∨ next.matched = true := by
  cases next <;> simp only [exec] at h
  case lock_m =>
    split at h <;> cases h <;> cases hm
  case test_name =>
    split at h <;> cases h
    · rename_i ha
      exact .inl ha
    · cases hm
  case unlock_done | unlock_m =>
    obtain ⟨held, _, h⟩ := bind_ok h
    cases h
    cases hm
  case returned =>
    cases h
    cases hm
  all_goals exact .inr rfl

theorem HandlerStep.exec_m {next : HandlerStep} (h : next.exec d s = .ok (s', next')) :
    s'.args.m.toNat + next.inside.toNat = s.args.m.toNat + next'.inside.toNat := by
  cases next <;> simp only [exec] at h
  case lock_m =>
    split at h <;> cases h
    · rfl
    · rename_i hm
      rw [Bool.eq_false_iff.2 hm]
      rfl
  case test_name => split at h <;> cases h <;> rfl
  case set_name =>
    split at h <;> cases h
    rfl
  case unlock_done =>
    obtain ⟨held, _, h⟩ := bind_ok h
    cases h
    rfl
  case unlock_m =>
    obtain ⟨held, hheld, h⟩ := bind_ok h
    obtain ⟨hm, rfl⟩ := mutex_unlock_ok hheld
    cases h
    rw [hm]
    rfl
  all_goals
    cases h
    rfl

theorem HandlerStep.exec_doneMutex {next : HandlerStep}
    (hm : next.matched = true → s.args.accepts d = true)
    (h : next.exec d s = .ok (s', next')) :
    s'.args.doneMutex.toNat + (Callback.released s.args ⟨d, next'⟩).toNat =
      s.args.doneMutex.toNat + (Callback.released s.args ⟨d, next⟩).toNat := by
  cases next <;> simp only [exec] at h
  case lock_m => split at h <;> cases h <;> rfl
  case test_name =>
    split at h <;> cases h
    · rfl
    · rename_i ha
      simp only [Callback.released, Bool.eq_false_iff.2 ha, Bool.false_and]
  case set_name =>
    split at h <;> cases h
    rfl
  case unlock_done =>
    obtain ⟨held, hheld, h⟩ := bind_ok h
    obtain ⟨hd, rfl⟩ := mutex_unlock_ok hheld
    cases h
    simp only [Callback.released, hm rfl, hd]
    rfl
  case unlock_m =>
    obtain ⟨held, _, h⟩ := bind_ok h
    cases h
    rfl
  all_goals
    cases h
    rfl

theorem HandlerStep.exec_releases {next : HandlerStep} (h : next.exec d s = .ok (s', next')) :
    s'.args.doneMutex = s.args.doneMutex ∨ s'.args.doneMutex = false := by
  cases next <;> simp only [exec] at h
  case lock_m | test_name => split at h <;> cases h <;> exact .inl rfl
  case set_name =>
    split at h <;> cases h
    exact .inl rfl
  case unlock_done =>
    obtain ⟨held, hheld, h⟩ := bind_ok h
    obtain ⟨_, rfl⟩ := mutex_unlock_ok hheld
    cases h
    exact .inr rfl
  case unlock_m =>
    obtain ⟨held, _, h⟩ := bind_ok h
    cases h
    exact .inl rfl
  all_goals
    cases h
    exact .inl rfl

/-- What a callback writes about the device, it writes when the name has matched. -/
theorem HandlerStep.exec_writes {next : HandlerStep} (h : next.exec d s = .ok (s', next')) :
    (s.args.success = true → s'.args.success = true) ∧
    (s'.args.name = s.args.name ∨ next.matched = true ∧ d.name = some s'.args.name) ∧
    (s'.args.addr = s.args.addr ∨ next.matched = true ∧ d.addr = s'.args.addr) := by
  cases next <;> simp only [exec] at h
  case lock_m | test_name => split at h <;> cases h <;> exact ⟨id, .inl rfl, .inl rfl⟩
  case set_success =>
    cases h
    exact ⟨fun _ => rfl, .inl rfl, .inl rfl⟩
  case set_name =>
    split at h <;> cases h
    rename_i hn
    exact ⟨id, .inr ⟨rfl, hn⟩, .inl rfl⟩
  case set_addr =>
    cases h
    exact ⟨id, .inl rfl, .inr ⟨rfl, rfl⟩⟩
  case unlock_done | unlock_m =>
    obtain ⟨held, _, h⟩ := bind_ok h
    cases h
    exact ⟨id, .inl rfl, .inl rfl⟩
  all_goals
    cases h
    exact ⟨id, .inl rfl, .inl rfl⟩

theorem HandlerStep.exec_success {next : HandlerStep} (h : next.exec d s = .ok (s', next'))
    (hl : next.left = 6) : s'.args.success = true := by
  cases next <;> cases hl
  cases h
  rfl

theorem HandlerStep.exec_name {next : HandlerStep} (h : next.exec d s = .ok (s', next'))
    (hl : next.left = 5) : d.name = some s'.args.name := by
  cases next <;> cases hl
  simp only [exec] at h
  split at h <;> cases h
  assumption

theorem HandlerStep.exec_addr {next : HandlerStep} (h : next.exec d s = .ok (s', next'))
    (hl : next.left = 4) : d.addr = s'.args.addr := by
  cases next <;> cases hl
  cases h
  rfl

/-- A callback takes one step after the other, and skips some only if the name does not match. -/
theorem HandlerStep.exec_left {next : HandlerStep} (h : next.exec d s = .ok (s', next')) :
    (s' = s ∧ next' = next ∧ (next = .returned ∨ next = .lock_m ∧ s.args.m = true)) ∨
      next'.left + 1 = next.left ∨ (s.args.accepts d = false ∧ next'.left < next.left) := by
  cases next <;> simp only [exec] at h
  case lock_m =>
    split at h <;> cases h
    · rename_i hm
      exact .inl ⟨rfl, rfl, .inr ⟨rfl, hm⟩⟩
    · exact .inr (.inl rfl)
  case test_name =>
    split at h <;> cases h
    · exact .inr (.inl rfl)
    · rename_i ha
      exact .inr (.inr ⟨Bool.eq_false_iff.2 ha, by decide⟩)
  case set_name =>
    split at h <;> cases h
    exact .inr (.inl rfl)
  case unlock_done | unlock_m =>
    obtain ⟨held, _, h⟩ := bind_ok h
    cases h
    exact .inr (.inl rfl)
  case returned =>
    cases h
    exact .inl ⟨rfl, rfl, .inl rfl⟩
  all_goals
    cases h
    exact .inr (.inl rfl)

/-- Where a callback gets to, it gets to by the step before. -/
theorem ScanSystem.reached_set {s : ScanSystem} {scan : Scan}
    (hc : s.handlers[i]? = some ⟨d, next⟩) (hx : next.exec d s.scan = .ok (scan, next'))
    (h : ScanSystem.Reached ⟨scan, s.handlers.set i ⟨d, next'⟩⟩ k) :
    s.Reached k ∨ (s.scan.args.accepts d = true ∧ next.left = k + 1) := by
  obtain ⟨c, hmem, ha, hl⟩ := h
  simp only [HandlerStep.exec_accepts hx] at ha
  rcases List.mem_or_eq_of_mem_set hmem with hmem | rfl
  · exact .inl ⟨c, hmem, ha, hl⟩
  · have hself : ⟨d, next⟩ ∈ s.handlers := List.mem_of_getElem? hc
    rcases HandlerStep.exec_left hx with ⟨_, rfl, _⟩ | hleft | ⟨hna, _⟩
    · exact .inl ⟨_, hself, ha, hl⟩
    · by_cases hk : next.left ≤ k
      · exact .inl ⟨_, hself, ha, hk⟩
      · exact .inr ⟨ha, by simp only at hl; omega⟩
    · rw [hna] at ha
      cases ha

theorem ScanStep.Balanced.congr {next : ScanStep} {s s' : ScanSystem} (h : next.Balanced s)
    (hn : next.started = true)
    (hb : s'.scan.args.doneMutex.toNat + s'.releases = s.scan.args.doneMutex.toNat + s.releases)
    (hd : s'.scan.args.doneMutex = s.scan.args.doneMutex ∨ s'.scan.args.doneMutex = false) :
    next.Balanced s' := by
  have hfree (hf : s.scan.args.doneMutex = false ∧ s.releases = 1) :
      s'.scan.args.doneMutex = false ∧ s'.releases = 1 := by
    have hd' : s'.scan.args.doneMutex = false := hd.elim (·.trans hf.1) id
    rw [hd', hf.1, hf.2] at hb
    exact ⟨hd', by simpa using hb⟩
  cases next
  case try_lock | test_canceled | scan_disable | lock_done | sleep => exact hb.trans h
  case unlock_tried | unlock_done => exact hb.trans h
  case adapter_close | test_success => exact hfree h
  case returned found =>
    cases found with
    | false => cases hn
    | true => exact hfree h
  all_goals cases hn

theorem LockInv.handle {s : ScanSystem} (hi : LockInv s) (h : s.handle i = .ok s') :
    LockInv s' := by
  cases hc : s.handlers[i]? with
  | none =>
    rw [ScanSystem.handle, hc] at h
    cases h
    exact hi
  | some c =>
    obtain ⟨d, next⟩ := c
    rw [handle_eq hc] at h
    obtain ⟨⟨scan, next'⟩, hx, rfl⟩ := map_ok h
    have hmem : ⟨d, next⟩ ∈ s.handlers := List.mem_of_getElem? hc
    have hstart := hi.started hmem
    have haccepts := HandlerStep.exec_accepts hx
    have hreports := ScanSystem.reports_set hc scan next'
    have hd : d ∈ s.reports := List.mem_map_of_mem hmem
    obtain ⟨hsuccess, hname, haddr⟩ := HandlerStep.exec_writes hx
    have hwrote (hw : next.matched = true) : s.scan.args.accepts d = true := hi.matched _ hmem hw
    have hbalance : scan.args.doneMutex.toNat +
        ScanSystem.releases ⟨scan, s.handlers.set i ⟨d, next'⟩⟩ =
          s.scan.args.doneMutex.toNat + s.releases := by
      have hfun : Callback.released scan.args = Callback.released s.scan.args := by
        funext c
        rw [Callback.released, Callback.released, haccepts]
      have hcount := countP_set hc (Callback.released s.scan.args) ⟨d, next'⟩
      have hdone := HandlerStep.exec_doneMutex hwrote hx
      rw [ScanSystem.releases, ScanSystem.releases, hfun]
      dsimp only
      omega
    refine ⟨?_, ?_, ?_, ?_, ?_, ?_⟩
    · intro c hcm hm
      rw [haccepts]
      rcases List.mem_or_eq_of_mem_set hcm with hcm | rfl
      · exact hi.matched c hcm hm
      · exact (HandlerStep.exec_matched hx hm).elim id hwrote
    · have hcount := countP_set hc (fun c : Callback => c.next.inside) ⟨d, next'⟩
      have hm := HandlerStep.exec_m hx
      have he := hi.exclusive
      rw [ScanSystem.inside] at he ⊢
      dsimp only at hcount ⊢
      omega
    · dsimp only
      rw [(HandlerStep.exec_frame hx).1]
      exact hi.scanner.congr hstart hbalance (HandlerStep.exec_releases hx)
    · intro hr
      rcases ScanSystem.reached_set hc hx hr with hr | ⟨_, hl⟩
      · exact hsuccess (hi.success hr)
      · exact HandlerStep.exec_success hx hl
    · intro hr
      rw [Named, hreports]
      simp only [haccepts]
      rcases ScanSystem.reached_set hc hx hr with hr | ⟨ha, hl⟩
      · rcases hname with hname | ⟨hw, hname⟩
        · rw [hname]
          exact hi.name hr
        · exact ⟨d, hd, hwrote hw, hname⟩
      · exact ⟨d, hd, ha, HandlerStep.exec_name hx hl⟩
    · intro hr
      rw [Addressed, hreports]
      simp only [haccepts]
      rcases ScanSystem.reached_set hc hx hr with hr | ⟨ha, hl⟩
      · rcases haddr with haddr | ⟨hw, haddr⟩
        · rw [haddr]
          exact hi.addr hr
        · exact ⟨d, hd, hwrote hw, haddr⟩
      · exact ⟨d, hd, ha, HandlerStep.exec_addr hx hl⟩

theorem LockInv.report {s : ScanSystem} (hi : LockInv s) (hs : s.scan.scanning = true)
    (d : Discovery) : LockInv { s with handlers := s.handlers ++ [⟨d, .lock_m⟩] } := by
  have hstart : s.scan.next.started = true := by
    by_contra hn
    rw [(hi.scanner.empty (Bool.eq_false_iff.2 hn)).2] at hs
    cases hs
  have hreached {k : Nat} (hk : k < 8)
      (hr : ScanSystem.Reached { s with handlers := s.handlers ++ [⟨d, .lock_m⟩] } k) :
      s.Reached k := by
    obtain ⟨c, hc, ha, hl⟩ := hr
    rcases List.mem_append.1 hc with hc | hc
    · exact ⟨c, hc, ha, hl⟩
    · rw [List.mem_singleton.1 hc] at hl
      exact absurd (Nat.lt_of_le_of_lt hl hk) (Nat.lt_irrefl 8)
  have hreports : s.reports ⊆
      ScanSystem.reports { s with handlers := s.handlers ++ [⟨d, .lock_m⟩] } :=
    List.map_subset _ (List.subset_append_left _ _)
  refine ⟨?_, ?_, ?_, fun hr => hi.success (hreached (by decide) hr), ?_, ?_⟩
  · intro c hc hm
    rcases List.mem_append.1 hc with hc | hc
    · exact hi.matched c hc hm
    · rw [List.mem_singleton.1 hc] at hm
      cases hm
  · rw [ScanSystem.inside, List.countP_append]
    exact hi.exclusive
  · refine hi.scanner.congr hstart ?_ (.inl rfl)
    have hnew : Callback.released s.scan.args ⟨d, .lock_m⟩ = false := Bool.and_false _
    rw [ScanSystem.releases, ScanSystem.releases, List.countP_append, List.countP_singleton, hnew]
    rfl
  · intro hr
    obtain ⟨d', hd', hn⟩ := hi.name (hreached (by decide) hr)
    exact ⟨d', hreports hd', hn⟩
  · intro hr
    obtain ⟨d', hd', hn⟩ := hi.addr (hreached (by decide) hr)
    exact ⟨d', hreports hd', hn⟩

theorem ScanSystem.reached_of_releases {s : ScanSystem} (h : 0 < s.releases) : s.Reached 1 := by
  obtain ⟨c, hc, hr⟩ := List.countP_pos_iff.1 h
  obtain ⟨ha, hp⟩ := Bool.and_eq_true_iff.1 hr
  refine ⟨c, hc, ha, ?_⟩
  cases hn : c.next <;> rw [hn] at hp
  case unlock_m | returned => decide
  all_goals cases hp

theorem ScanSystem.Reached.mono {s : ScanSystem} (h : s.Reached k) (hk : k ≤ n) :
    s.Reached n := by
  obtain ⟨c, hc, ha, hl⟩ := h
  exact ⟨c, hc, ha, Nat.le_trans hl hk⟩

/-- The scanner sees `doneMutex` free only after a callback has released it. -/
theorem LockInv.advance_scanner {s : ScanSystem} (hi : LockInv s)
    (h : s.scan.advance g = .ok scan)
    (hr : s.scan.next.started = true → ScanSystem.releases ⟨scan, s.handlers⟩ = s.releases) :
    scan.next.Balanced ⟨scan, s.handlers⟩ := by
  have he := hi.scanner
  cases hn : s.scan.next <;> simp only [Scan.advance, hn] at h <;>
    simp only [ScanStep.Balanced, hn] at he <;> rw [hn] at hr
  case adapter_open => split at h <;> cases h <;> exact he
  case set_nameRegex =>
    split at h <;> cases h
    exact he
  case lock_args =>
    split at h <;> cases h
    · rw [hn]
      exact he
    · exact ⟨he.1, he.2, rfl⟩
  case scan_enable =>
    split at h <;> cases h
    · obtain ⟨hhandlers, _, hd⟩ := he
      change s.scan.args.doneMutex.toNat + List.countP _ s.handlers = 1
      rw [hhandlers, hd]
      rfl
    · exact ⟨he.1, he.2.1⟩
  case close_failed =>
    cases h
    exact he
  case try_lock =>
    split at h <;> cases h
    · exact he
    · rename_i hd
      rw [Bool.eq_false_iff.2 hd] at he
      change 0 + s.releases = 1 at he
      change 1 + ScanSystem.releases _ = 2
      rw [hr rfl]
      omega
  case unlock_tried | unlock_done =>
    obtain ⟨held, hheld, h⟩ := bind_ok h
    obtain ⟨hd, rfl⟩ := mutex_unlock_ok hheld
    cases h
    rw [hd] at he
    refine ⟨rfl, ?_⟩
    rw [hr rfl]
    exact Nat.add_left_cancel he
  case test_canceled => split at h <;> cases h <;> exact he
  case scan_disable | sleep | adapter_close =>
    cases h
    exact he
  case lock_done =>
    split at h <;> cases h
    · rw [hn]
      exact he
    · rename_i hd
      rw [Bool.eq_false_iff.2 hd] at he
      change 0 + s.releases = 1 at he
      change 1 + ScanSystem.releases _ = 2
      rw [hr rfl]
      omega
  case test_success =>
    cases h
    have hreached : s.Reached 1 := by
      apply ScanSystem.reached_of_releases
      rw [he.2]
      exact Nat.one_pos
    rw [hi.success (hreached.mono (by decide))]
    exact he
  case returned found =>
    cases h
    rw [hn]
    exact he

theorem LockInv.advance {s : ScanSystem} (hi : LockInv s) (h : s.scan.advance g = .ok scan) :
    LockInv ⟨scan, s.handlers⟩ := by
  rcases advance_args h with ⟨hn, nameRegex, _, hargs⟩ | hargs
  · have he := hi.scanner
    rw [hn] at he
    have hscanner := hi.advance_scanner h (by rw [hn]; exact fun hf => by cases hf)
    exact .of_empty he.1 (by rw [hargs]) hscanner
  · have haccepts (d : Discovery) : scan.args.accepts d = s.scan.args.accepts d := by
      rw [hargs]
      rfl
    have hreached {k : Nat} (hr : ScanSystem.Reached ⟨scan, s.handlers⟩ k) : s.Reached k := by
      obtain ⟨c, hc, ha, hl⟩ := hr
      exact ⟨c, hc, (haccepts c.device).symm.trans ha, hl⟩
    have hreleases : ScanSystem.releases ⟨scan, s.handlers⟩ = s.releases := by
      rw [ScanSystem.releases, ScanSystem.releases]
      congr 1
      funext c
      rw [Callback.released, Callback.released, haccepts]
    refine ⟨?_, ?_, hi.advance_scanner h fun _ => hreleases, ?_, ?_, ?_⟩
    · intro c hc hm
      exact (haccepts c.device).trans (hi.matched c hc hm)
    · rw [hargs]
      exact hi.exclusive
    · intro hr
      rw [hargs]
      exact hi.success (hreached hr)
    · intro hr
      rw [Named, hargs]
      exact hi.name (hreached hr)
    · intro hr
      rw [Addressed, hargs]
      exact hi.addr (hreached hr)

theorem LockInv.step {s : ScanSystem} (hi : LockInv s) (h : s.step g e = .ok s') :
    LockInv s' := by
  cases e with
  | scanner =>
    obtain ⟨scan, ha, rfl⟩ := map_ok h
    exact hi.advance ha
  | report d =>
    cases h
    split
    · exact hi.report ‹_› d
    · exact hi
  | handler i => exact hi.handle h
  | cancel =>
    cases h
    exact ⟨hi.matched, hi.exclusive, hi.scanner, hi.success, hi.name, hi.addr⟩

theorem lockInv_fresh : LockInv {} := .of_empty rfl rfl ⟨rfl, rfl⟩

end JuttaProto
