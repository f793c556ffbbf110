import JuttaProto.Scanner

namespace JuttaProto
open Run
set_option autoImplicit true

/-- The scanner waits for `doneMutex`, which is held, and no report can release it any more. -/
def Stuck (g : ScanReplies) (s : Scan) : Prop :=
  s.next = .lock_done ∧ s.args.doneMutex = true ∧
    ∀ (ds : List Discovery) (s' : Scan),
      run (Scan.turn g) s (ds.map .discovered) = .ok s' → s'.args.doneMutex = true

/-- The scanner disables the scan only after a matching device has been found. -/
def CancelReady (s : Scan) : ScanTurn → Prop
  | .scanner => s.next = .scan_disable → s.args.success = true
  | _ => True

instance : (t : ScanTurn) → Decidable (CancelReady s t)
  | .scanner => inferInstanceAs (Decidable (_ → _))
  | .discovered _ | .cancel => isTrue trivial

def Scan.Open (s : Scan) : Prop :=
  s.args.success = false ∧ s.args.doneMutex = true ∧ s.scanning = true

def Scan.Signalled (s : Scan) : Prop :=
  s.args.success = true ∧ s.args.doneMutex = false ∧ s.scanning = false

def ScanStep.polling : ScanStep → Bool
  | .try_lock | .test_canceled | .scan_disable | .sleep => true
  | _ => false

def CancelInv (s : Scan) : Prop :=
  match s.next with
  | .adapter_open | .set_nameRegex | .close_failed | .adapter_close | .test_success
  | .returned _ => s.scanning = false
  | .lock_args => s.args.success = false ∧ s.args.doneMutex = false ∧ s.scanning = false
  | .scan_enable => s.args.success = false ∧ s.args.doneMutex = true ∧ s.scanning = false
  | .try_lock | .test_canceled | .scan_disable | .sleep => s.Open ∨ s.Signalled
  | .lock_done => s.Signalled
  | .unlock_tried | .unlock_done => s.args.doneMutex = true ∧ s.scanning = false

def Scan.Trapped (s : Scan) : Prop :=
  s.next = .lock_done ∧ s.args.doneMutex = true ∧ s.scanning = false

theorem CancelInv.polling (hi : CancelInv s) (hs : s.scanning = true) : s.next.polling = true := by
  cases hn : s.next <;>
    simp only [CancelInv, Scan.Signalled, hn, hs, Bool.true_eq_false, and_false] at hi <;> rfl

theorem CancelInv.of_polling {s : Scan} (hp : s.next.polling = true) (h : s.Open ∨ s.Signalled) :
    CancelInv s := by
  cases hn : s.next
  case try_lock | test_canceled | scan_disable | sleep =>
    simp only [CancelInv, hn]
    exact h
  all_goals
    rw [hn] at hp
    cases hp

theorem CancelInv.advance {s : Scan} (hi : CancelInv s) (hc : CancelReady s .scanner)
    (h : s.advance g = .ok s') : CancelInv s' := by
  cases hn : s.next <;> simp only [Scan.advance, hn] at h <;> simp only [CancelInv, hn] at hi
  case adapter_open =>
    split at h <;> cases h <;> exact hi
  case set_nameRegex =>
    split at h
    · cases h
      exact ⟨rfl, rfl, hi⟩
    · cases h
  case lock_args =>
    rw [if_neg (by rw [hi.2.1]; exact Bool.false_ne_true)] at h
    cases h
    exact ⟨hi.1, rfl, hi.2.2⟩
  case scan_enable =>
    split at h
    · cases h
      exact .inl ⟨hi.1, hi.2.1, rfl⟩
    · cases h
      exact hi.2.2
  case try_lock =>
    split at h
    · cases h
      exact hi
    · rename_i hd
      cases h
      rcases hi with ho | hs
      · exact absurd ho.2.1 hd
      · exact ⟨rfl, hs.2.2⟩
  case test_canceled =>
    split at h <;> cases h <;> exact hi
  case scan_disable =>
    cases h
    rcases hi with ho | hs
    · exact absurd (hc hn) (by rw [ho.1]; exact Bool.false_ne_true)
    · exact ⟨hs.1, hs.2.1, rfl⟩
  case lock_done =>
    rw [if_neg (by rw [hi.2.1]; exact Bool.false_ne_true)] at h
    cases h
    exact ⟨rfl, hi.2.2⟩
  case unlock_tried | unlock_done =>
    obtain ⟨held, _, h⟩ := bind_ok h
    cases h
    exact hi.2
  case returned =>
    cases h
    simp only [CancelInv, hn]
    exact hi
  all_goals
    cases h
    exact hi

theorem CancelInv.discovered {s : Scan} (hi : CancelInv s) (hs : s.scanning = true)
    (h : on_device_discovered d s = .ok s') : CancelInv s' := by
  have hp := hi.polling hs
  unfold on_device_discovered at h
  split at h
  · split at h
    · obtain ⟨held, hheld, h⟩ := bind_ok h
      obtain ⟨_, rfl⟩ := mutex_unlock_ok hheld
      cases h
      exact .of_polling hp (.inr ⟨rfl, rfl, rfl⟩)
    · cases h
      exact hi
  · cases h
    exact hi

theorem CancelInv.turn {s : Scan} (hi : CancelInv s) (hc : CancelReady s a)
    (h : s.turn g a = .ok s') : CancelInv s' := by
  cases a with
  | scanner => exact hi.advance hc h
  | discovered d =>
    change (if s.scanning then on_device_discovered d s else .ok s) = .ok s' at h
    split at h
    · exact hi.discovered ‹_› h
    · cases h
      exact hi
  | cancel =>
    cases h
    exact hi

theorem CancelInv.trapped {s : Scan} (hi : CancelInv s) (hc : ¬CancelReady s a)
    (h : s.turn g a = .ok s') : s'.Trapped := by
  cases a with
  | scanner =>
    obtain ⟨hn, hs⟩ := Classical.not_imp.1 hc
    simp only [CancelInv, hn] at hi
    change s.advance g = .ok s' at h
    rw [Scan.advance, hn] at h
    cases h
    rcases hi with ho | hs'
    · exact ⟨rfl, ho.2.1, rfl⟩
    · exact absurd hs'.1 hs
  | discovered d => exact absurd trivial hc
  | cancel => exact absurd trivial hc

theorem Scan.Trapped.turn {s : Scan} (ht : s.Trapped) (h : s.turn g a = .ok s') :
    s'.Trapped := by
  obtain ⟨hn, hd, hs⟩ := ht
  cases a with
  | scanner =>
    change s.advance g = .ok s' at h
    rw [Scan.advance, hn] at h
    simp only [hd, ↓reduceIte] at h
    cases h
    exact ⟨hn, hd, hs⟩
  | discovered d =>
    change (if s.scanning then on_device_discovered d s else .ok s) = .ok s' at h
    rw [hs] at h
    cases h
    exact ⟨hn, hd, hs⟩
  | cancel =>
    cases h
    exact ⟨hn, hd, hs⟩

theorem Scan.Trapped.stuck {s : Scan} (ht : s.Trapped) (g : ScanReplies) : Stuck g s :=
  ⟨ht.1, ht.2.1, fun _ _ h => (run_invariant Scan.Trapped (fun _ _ _ => .turn) ht h).2.1⟩

theorem CancelInv.not_stuck {s : Scan} (hi : CancelInv s) (g : ScanReplies) : ¬Stuck g s := by
  rintro ⟨hn, hd, _⟩
  simp only [CancelInv, hn] at hi
  rw [hi.2.1] at hd
  cases hd

/-- The scanner is never stuck exactly when it leaves its loop through the cancel branch only
after a match. -/
theorem scan_stuck_iff (h : run (Scan.turn g) {} turns = .ok s) :
    ¬Stuck g s ↔ Guarded (Scan.turn g) CancelReady {} turns := by
  have hstart : CancelInv {} := rfl
  rcases guarded_or_trapped CancelInv Scan.Trapped (fun _ _ _ => .turn)
      (fun _ _ _ => CancelInv.trapped) (fun _ _ _ => .turn) hstart h with ⟨hg, hi⟩ | ⟨hg, ht⟩
  · exact iff_of_true (hi.not_stuck g) hg
  · exact iff_of_false (fun hn => hn (ht.stuck g)) hg

theorem scan_stuck_iff_example : ∃ s, run (Scan.turn exampleScan) {}
      (List.replicate 5 .scanner ++ [.cancel, .discovered exampleDevice] ++
        List.replicate 6 .scanner) = .ok s ∧
    s.next = .returned true ∧ ¬Stuck exampleScan s := by
  obtain ⟨s, h, hn⟩ : ∃ s, run (Scan.turn exampleScan) {}
      (List.replicate 5 .scanner ++ [.cancel, .discovered exampleDevice] ++
        List.replicate 6 .scanner) = .ok s ∧ s.next = .returned true := by decide +kernel
  exact ⟨s, h, hn, (scan_stuck_iff h).2 (by decide +kernel)⟩

/-- Without a device in reach a scan that is cancelled never returns. -/
theorem scan_cancelled_stuck : ∃ s, run (Scan.turn exampleScan) {}
      (List.replicate 5 .scanner ++ .cancel :: List.replicate 2 .scanner) = .ok s ∧
    Stuck exampleScan s := by
  obtain ⟨s, h, hn, hd, hs⟩ : ∃ s, run (Scan.turn exampleScan) {}
      (List.replicate 5 .scanner ++ .cancel :: List.replicate 2 .scanner) = .ok s ∧
      s.next = .lock_done ∧ s.args.doneMutex = true ∧ s.scanning = false := by decide +kernel
  exact ⟨s, h, Scan.Trapped.stuck ⟨hn, hd, hs⟩ exampleScan⟩

end JuttaProto
