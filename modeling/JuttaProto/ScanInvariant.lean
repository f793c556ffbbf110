import JuttaProto.Scanner

namespace JuttaProto
open Run
set_option autoImplicit true

def ScanSystem.reports (s : ScanSystem) : List Discovery := s.handlers.map (·.device)

def HandlerStep.inside : HandlerStep → Bool
  | .lock_m | .returned => false
  | _ => true

def ScanSystem.Inside (s : ScanSystem) (i : Nat) : Prop :=
  ∃ c, s.handlers[i]? = some c ∧ c.next.inside = true

/-- At most one callback is inside, and it holds `m`. -/
def Exclusive (s : ScanSystem) : Prop :=
  ∀ i, s.Inside i → s.scan.args.m = true ∧ ∀ j, s.Inside j → j = i

/-- The scanner has taken `doneMutex` back, and is about to release it. -/
def ScanStep.took : ScanStep → Bool
  | .unlock_tried | .unlock_done => true
  | _ => false

def Scan.Unsignalled (s : Scan) : Prop := s.args.doneMutex = true ∧ s.next.took = false

def ScanArgs.Names (args : ScanArgs) (d : Discovery) : Prop :=
  args.accepts d = true ∧ d.name = some args.name ∧ d.addr = args.addr

/-- What holds when a callback is about to take the step. -/
def HandlerStep.Expects (s : Scan) (d : Discovery) : HandlerStep → Prop
  | .lock_m | .test_name | .unlock_m | .returned => True
  | .set_success => s.args.accepts d = true ∧ s.args.success = false
  | .set_name => s.args.accepts d = true ∧ s.args.success = true ∧ s.Unsignalled
  | .set_addr =>
    s.args.accepts d = true ∧ d.name = some s.args.name ∧ s.args.success = true ∧ s.Unsignalled
  | .scan_disable | .unlock_done => s.args.Names d ∧ s.args.success = true ∧ s.Unsignalled

def ScanStep.started : ScanStep → Bool
  | .adapter_open | .set_nameRegex | .lock_args | .scan_enable | .close_failed
  | .returned false => false
  | _ => true

/-- What holds when the scanner is about to take the step. -/
def ScanStep.Expects (s : ScanSystem) : ScanStep → Prop
  | .adapter_open | .set_nameRegex | .lock_args | .close_failed | .returned false =>
    s.handlers = [] ∧ s.scan.scanning = false
  | .scan_enable => s.handlers = [] ∧ s.scan.scanning = false ∧ s.scan.args.doneMutex = true
  | .try_lock | .test_canceled | .scan_disable | .lock_done | .sleep => True
  | .unlock_tried | .unlock_done => s.scan.args.doneMutex = true
  | .adapter_close | .test_success | .returned true => s.scan.args.doneMutex = false

def Found (s : ScanSystem) : Prop :=
  s.scan.args.success = true ∧ ∃ d ∈ s.reports, s.scan.args.Names d

structure SignalInv (s : ScanSystem) : Prop where
  exclusive : Exclusive s
  callbacks : ∀ c ∈ s.handlers, c.next.Expects s.scan c.device
  scanner : s.scan.next.Expects s
  found : s.scan.next.started = true → ¬s.scan.Unsignalled → Found s

def ScanArgs.SameFind (args args' : ScanArgs) : Prop :=
  args'.nameRegex = args.nameRegex ∧ args'.success = args.success ∧ args'.name = args.name ∧
    args'.addr = args.addr

theorem ScanArgs.SameFind.names {args args' : ScanArgs} (h : args.SameFind args') :
    args'.Names d ↔ args.Names d := by
  obtain ⟨hr, _, hn, ha⟩ := h
  simp only [ScanArgs.Names, ScanArgs.accepts, hr, hn, ha]

theorem HandlerStep.Expects.congr {next : HandlerStep} (h : next.Expects s d)
    (ha : s.args.SameFind s'.args) (hu : s.Unsignalled → s'.Unsignalled) : next.Expects s' d := by
  have hnames := ha.names (d := d)
  obtain ⟨hr, hs, hn, _⟩ := ha
  cases next <;>
    simp only [HandlerStep.Expects, ScanArgs.accepts, hr, hs, hn, hnames] at h ⊢
  case set_success => exact h
  case set_name => exact ⟨h.1, h.2.1, hu h.2.2⟩
  case set_addr => exact ⟨h.1, h.2.1, h.2.2.1, hu h.2.2.2⟩
  case scan_disable | unlock_done => exact ⟨h.1, h.2.1, hu h.2.2⟩

theorem Found.congr {s s' : ScanSystem} (h : Found s) (ha : s.scan.args.SameFind s'.scan.args)
    (hr : s.reports ⊆ s'.reports) : Found s' := by
  obtain ⟨hs, d, hd, hn⟩ := h
  exact ⟨ha.2.1.trans hs, d, hr hd, ha.names.2 hn⟩

theorem ScanStep.Expects.empty {next : ScanStep} (h : next.Expects s)
    (hn : next.started = false) : s.handlers = [] ∧ s.scan.scanning = false := by
  cases next
  case adapter_open | set_nameRegex | lock_args | close_failed => exact h
  case scan_enable => exact ⟨h.1, h.2.1⟩
  case returned found =>
    cases found with
    | false => exact h
    | true => cases hn
  all_goals cases hn

theorem SignalInv.of_empty {s : ScanSystem} (he : s.scan.next.Expects s)
    (hn : s.scan.next.started = false) : SignalInv s where
  exclusive := by
    rintro i ⟨c, hc, _⟩
    rw [(he.empty hn).1] at hc
    cases hc
  callbacks := by
    intro c hc
    rw [(he.empty hn).1] at hc
    cases hc
  scanner := he
  found := by
    intro hstart
    rw [hn] at hstart
    cases hstart

theorem not_unsignalled_of_free {s : Scan} (hd : s.args.doneMutex = false) : ¬s.Unsignalled := by
  rintro ⟨hd', _⟩
  rw [hd] at hd'
  cases hd'

theorem Scan.Unsignalled.advance {s : Scan} (hu : s.Unsignalled) (hn : s.next ≠ .set_nameRegex)
    (h : s.advance g = .ok s') : s'.Unsignalled := by
  obtain ⟨hd, ht⟩ := hu
  cases hs : s.next <;> simp only [Scan.advance, hs, hd, ↓reduceIte] at h
  case set_nameRegex => exact absurd hs hn
  case unlock_tried | unlock_done =>
    rw [hs] at ht
    cases ht
  case adapter_open | scan_enable | test_canceled => split at h <;> cases h <;> exact ⟨hd, rfl⟩
  case lock_args | lock_done | returned =>
    cases h
    exact ⟨hd, ht⟩
  all_goals
    cases h
    exact ⟨hd, rfl⟩

theorem started_of_advance {s : ScanSystem} (he : s.scan.next.Expects s)
    (h : s.scan.advance g = .ok scan) (hstart : scan.next.started = true) :
    s.scan.next.started = true ∨ scan.Unsignalled := by
  cases hn : s.scan.next <;> simp only [Scan.advance, hn] at h
  case adapter_open | set_nameRegex => split at h <;> cases h <;> cases hstart
  case lock_args =>
    split at h
    · cases h
      rw [hn] at hstart
      cases hstart
    · cases h
      cases hstart
  case scan_enable =>
    rw [hn] at he
    split at h
    · cases h
      exact .inr ⟨he.2.2, rfl⟩
    · cases h
      cases hstart
  case close_failed =>
    cases h
    cases hstart
  case returned =>
    cases h
    rw [hn] at hstart
    exact .inl hstart
  all_goals exact .inl rfl

theorem SignalInv.advance_scanner (hi : SignalInv s) (h : s.scan.advance g = .ok scan) :
    scan.next.Expects ⟨scan, s.handlers⟩ := by
  have he := hi.scanner
  have hfound := hi.found
  cases hn : s.scan.next <;> simp only [Scan.advance, hn] at h <;>
    simp only [ScanStep.Expects, hn] at he
  case adapter_open => split at h <;> cases h <;> exact he
  case set_nameRegex =>
    split at h
    · cases h
      exact he
    · cases h
  case lock_args =>
    split at h
    · cases h
      rw [hn]
      exact he
    · cases h
      exact ⟨he.1, he.2, rfl⟩
  case scan_enable =>
    split at h <;> cases h
    · trivial
    · exact ⟨he.1, he.2.1⟩
  case close_failed =>
    cases h
    exact he
  case try_lock =>
    split at h <;> cases h
    · trivial
    · rfl
  case unlock_tried | unlock_done =>
    obtain ⟨held, hheld, h⟩ := bind_ok h
    obtain ⟨_, rfl⟩ := mutex_unlock_ok hheld
    cases h
    rfl
  case test_canceled => split at h <;> cases h <;> trivial
  case scan_disable | sleep =>
    cases h
    trivial
  case lock_done =>
    split at h <;> cases h
    · rw [hn]
      trivial
    · rfl
  case adapter_close =>
    cases h
    exact he
  case test_success =>
    cases h
    obtain ⟨hs, _⟩ := hfound (by rw [hn]; rfl) (not_unsignalled_of_free he)
    rw [hs]
    exact he
  case returned found =>
    cases h
    rw [hn]
    exact he

theorem SignalInv.advance (hi : SignalInv s) (h : s.scan.advance g = .ok scan) :
    SignalInv ⟨scan, s.handlers⟩ := by
  by_cases hr : s.scan.next = .set_nameRegex
  · have he := hi.scanner
    rw [hr] at he
    rw [Scan.advance, hr] at h
    dsimp only at h
    split at h
    · cases h
      exact .of_empty he rfl
    · cases h
  have hargs : scan.args = { s.scan.args with doneMutex := scan.args.doneMutex } := by
    rcases advance_args h with ⟨hn, _⟩ | ha
    · exact absurd hn hr
    · exact ha
  have hsame : s.scan.args.SameFind scan.args := by
    rw [hargs]
    exact ⟨rfl, rfl, rfl, rfl⟩
  have hu (hu : s.scan.Unsignalled) : scan.Unsignalled := hu.advance hr h
  refine ⟨?_, fun c hc => (hi.callbacks c hc).congr hsame hu, ?_, ?_⟩
  · intro i hin
    have he := hi.exclusive i hin
    rw [hargs]
    exact he
  · exact hi.advance_scanner h
  · intro hstart hnot
    have hs := (started_of_advance hi.scanner h hstart).resolve_right hnot
    exact (hi.found hs fun hun => hnot (hu hun)).congr hsame (List.Subset.refl _)

theorem SignalInv.advance_within (hi : SignalInv s) :
    Within (· = .regex_error) (s.scan.advance g) := by
  have he := hi.scanner
  unfold Scan.advance
  cases hn : s.scan.next <;> dsimp only
  case set_nameRegex =>
    split
    · exact within_ok _ _
    · exact within_error rfl
  case unlock_tried | unlock_done =>
    rw [hn] at he
    rw [show s.scan.args.doneMutex = true from he]
    exact within_ok _ _
  all_goals exact within_ok _ _

end JuttaProto
