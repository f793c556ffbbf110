import Mathlib.Data.List.Forall2
import Mathlib.Tactic.Basic

namespace Run
set_option autoImplicit true

@[simp] theorem ok_bind (a : α) (f : α → Except ε β) : (Except.ok a >>= f) = f a := rfl

@[simp] theorem error_bind (e : ε) (f : α → Except ε β) :
    (Except.error e >>= f) = .error e := rfl

@[simp] theorem error_map (e : ε) (f : α → β) :
    f <$> (Except.error e : Except ε α) = .error e := rfl

theorem bind_ok {x : Except ε α} {f : α → Except ε β} (h : (x >>= f) = .ok b) :
    ∃ a, x = .ok a ∧ f a = .ok b := by
  cases x with
  | error e => cases h
  | ok a => exact ⟨a, rfl, h⟩

theorem map_ok {x : Except ε α} {f : α → β} (h : f <$> x = .ok b) :
    ∃ a, x = .ok a ∧ f a = b := by
  cases x with
  | error e => cases h
  | ok a =>
    cases h
    exact ⟨a, rfl, rfl⟩

theorem bind_error {x : Except ε α} {f : α → Except ε β} (h : (x >>= f) = .error e) :
    x = .error e ∨ ∃ a, x = .ok a ∧ f a = .error e := by
  cases x with
  | error e' =>
    rw [error_bind] at h
    cases h
    exact .inl rfl
  | ok a => exact .inr ⟨a, rfl, h⟩

instance decidableExistsOk {P : α → Prop} [DecidablePred P] :
    (x : Except ε α) → Decidable (∃ a, x = .ok a ∧ P a)
  | .ok a => decidable_of_iff (P a) ⟨fun h => ⟨a, rfl, h⟩, fun ⟨_, he, h⟩ => by cases he; exact h⟩
  | .error _ => isFalse fun ⟨_, he, _⟩ => by cases he

def Within (S : ε → Prop) (x : Except ε α) : Prop := ∀ e, x = .error e → S e

def Avoids (S : ε → Prop) (x : Except ε α) : Prop := ∀ e, S e → x ≠ .error e

theorem within_ok (S : ε → Prop) (a : α) : Within S (.ok a : Except ε α) := by
  intro e h
  cases h

theorem within_error {S : ε → Prop} (h : S e) : Within S (.error e : Except ε α) := by
  intro e' he
  cases he
  exact h

theorem Within.bind {x : Except ε α} {f : α → Except ε β} (hx : Within S x)
    (hf : ∀ a, x = .ok a → Within S (f a)) : Within S (x >>= f) := by
  intro e h
  rcases bind_error h with he | ⟨a, ha, he⟩
  · exact hx e he
  · exact hf a ha e he

theorem Within.map {x : Except ε α} (hx : Within S x) (f : α → β) : Within S (f <$> x) := by
  cases x with
  | error e => exact within_error (hx e rfl)
  | ok a => exact within_ok S (f a)

theorem Within.mono {x : Except ε α} (hx : Within S x) (h : ∀ e, S e → T e) : Within T x :=
  fun e he => h e (hx e he)

theorem Within.mapM {f : α → Except ε β} (hf : ∀ a, Within S (f a)) (l : List α) :
    Within S (l.mapM f) := by
  induction l with
  | nil => exact within_ok S []
  | cons a l ih =>
    rw [List.mapM_cons]
    exact (hf a).bind fun b _ => ih.bind fun bs _ => within_ok S (b :: bs)

theorem mapM_ok {f : α → Except ε β} {g : α → β} {l : List α} (h : ∀ a ∈ l, f a = .ok (g a)) :
    l.mapM f = .ok (l.map g) := by
  induction l with
  | nil => rfl
  | cons a l ih =>
    obtain ⟨ha, hl⟩ := List.forall_mem_cons.1 h
    rw [List.mapM_cons, ha, ok_bind, ih hl, ok_bind, List.map_cons]
    rfl

theorem mapM_forall₂ {f : α → Except ε β} {l : List α} (h : l.mapM f = .ok bs) :
    List.Forall₂ (fun a b => f a = .ok b) l bs := by
  induction l generalizing bs with
  | nil =>
    cases h
    exact .nil
  | cons a l ih =>
    rw [List.mapM_cons] at h
    obtain ⟨b, hb, h⟩ := bind_ok h
    obtain ⟨bs', hbs, h⟩ := bind_ok h
    cases h
    exact .cons hb (ih hbs)

theorem Within.avoids {x : Except ε α} (hx : Within S x) (h : ∀ e, S e → ¬T e) : Avoids T x :=
  fun e ht he => h e (hx e he) ht

theorem avoids_ok (S : ε → Prop) (a : α) : Avoids S (.ok a : Except ε α) := by
  intro e _ h
  cases h

theorem ok_of_avoids {x : Except ε α} (h : Avoids S x) (hw : Within S x) : ∃ a, x = .ok a := by
  cases x with
  | error e => exact absurd rfl (h e (hw e rfl))
  | ok a => exact ⟨a, rfl⟩

theorem avoids_error_iff {S : ε → Prop} : Avoids S (.error e : Except ε α) ↔ ¬S e := by
  constructor
  · intro h he
    exact h e he rfl
  · intro h e' he' hee
    cases hee
    exact h he'

theorem avoids_bind_iff {x : Except ε α} {f : α → Except ε β} :
    Avoids S (x >>= f) ↔ Avoids S x ∧ ∀ a, x = .ok a → Avoids S (f a) := by
  cases x with
  | error e => simp only [error_bind, avoids_error_iff, reduceCtorEq, false_implies,
      implies_true, and_true]
  | ok a =>
    constructor
    · intro h
      refine ⟨avoids_ok S a, fun b hb => ?_⟩
      cases hb
      exact h
    · intro h
      exact h.2 a rfl

theorem avoids_map_iff {x : Except ε α} {f : α → β} : Avoids S (f <$> x) ↔ Avoids S x := by
  cases x with
  | error e => simp only [error_map, avoids_error_iff]
  | ok a => exact ⟨fun _ => avoids_ok S a, fun _ => avoids_ok S (f a)⟩

/-- A part whose errors all are in `S` avoids them only by succeeding. So if what follows needs the
same condition after every success, the condition can be told beforehand. -/
theorem avoids_seq_iff {x : Except ε α} {f : α → Except ε β} {P : Prop} (hx : Within S x)
    (hf : ∀ a, Avoids S (f a) ↔ P) : Avoids S (x >>= f) ↔ Avoids S x ∧ P := by
  rw [avoids_bind_iff]
  constructor
  · rintro ⟨h, hrest⟩
    obtain ⟨a, ha⟩ := ok_of_avoids h hx
    exact ⟨h, (hf a).1 (hrest a ha)⟩
  · rintro ⟨h, hp⟩
    exact ⟨h, fun a _ => (hf a).2 hp⟩

theorem avoids_mapM_iff {f : α → Except ε β} (hf : ∀ a, Within S (f a)) (l : List α) :
    Avoids S (l.mapM f) ↔ ∀ a ∈ l, Avoids S (f a) := by
  induction l with
  | nil => exact iff_of_true (avoids_ok S []) fun _ ha => absurd ha List.not_mem_nil
  | cons a l ih =>
    have hrest (b : β) : Avoids S (do let bs ← l.mapM f; pure (b :: bs)) ↔
        ∀ a ∈ l, Avoids S (f a) := by
      rw [← ih, avoids_bind_iff]
      exact ⟨fun h => h.1, fun h => ⟨h, fun bs _ => avoids_ok S (b :: bs)⟩⟩
    rw [List.mapM_cons, avoids_seq_iff (hf a) hrest, List.forall_mem_cons]

/-- A run takes one action after the other and stops at the first error. -/
def run (step : σ → α → Except ε σ) (s : σ) (acts : List α) : Except ε σ := acts.foldlM step s

@[simp] theorem run_cons (step : σ → α → Except ε σ) (s : σ) (a : α) (acts : List α) :
    run step s (a :: acts) = step s a >>= fun s' => run step s' acts := rfl

theorem run_single (step : σ → α → Except ε σ) (s : σ) (a : α) : run step s [a] = step s a :=
  bind_pure (step s a)

theorem run_append (step : σ → α → Except ε σ) (s : σ) (acts acts' : List α) :
    run step s (acts ++ acts') = run step s acts >>= fun t => run step t acts' :=
  List.foldlM_append

/-- If a second system follows every step of the first by some run of its own, it follows every
run. -/
theorem run_simulated {step : σ → α → Except ε σ} {step' : τ → β → Except ε' τ} (R : σ → τ → Prop)
    (hstep : ∀ s t a s', R s t → step s a = .ok s' →
      ∃ acts' t', run step' t acts' = .ok t' ∧ R s' t')
    (hs : R s t) (h : run step s acts = .ok s') :
    ∃ acts' t', run step' t acts' = .ok t' ∧ R s' t' := by
  induction acts generalizing s t with
  | nil =>
    cases h
    exact ⟨[], t, rfl, hs⟩
  | cons a acts ih =>
    obtain ⟨s₁, h₁, hr⟩ := bind_ok h
    obtain ⟨acts₁, t₁, ht₁, hs₁⟩ := hstep s t a s₁ hs h₁
    obtain ⟨acts₂, t₂, ht₂, hs₂⟩ := ih hs₁ hr
    exact ⟨acts₁ ++ acts₂, t₂, by rw [run_append, ht₁, ok_bind, ht₂], hs₂⟩

theorem Within.run {step : σ → α → Except ε σ} (h : ∀ s a, Within S (step s a)) (s : σ)
    (acts : List α) : Within S (run step s acts) := by
  induction acts generalizing s with
  | nil => exact within_ok S s
  | cons a acts ih => exact (h s a).bind fun s' _ => ih s'

def Guarded (step : σ → α → Except ε σ) (P : σ → α → Prop) : σ → List α → Prop
  | _, [] => True
  | s, a :: acts => P s a ∧ ∀ s', step s a = .ok s' → Guarded step P s' acts

/-- A run on given actions is taken to find out whether it is guarded. -/
def decideGuarded (step : σ → α → Except ε σ) (P : σ → α → Prop) [∀ s a, Decidable (P s a)] :
    (s : σ) → (acts : List α) → Decidable (Guarded step P s acts)
  | _, [] => isTrue trivial
  | s, a :: acts =>
    match h : step s a with
    | .ok s' =>
      let _ := decideGuarded step P s' acts
      decidable_of_iff (P s a ∧ Guarded step P s' acts)
        ⟨fun hg => ⟨hg.1, fun t ht => by rw [h] at ht; cases ht; exact hg.2⟩,
          fun hg => ⟨hg.1, hg.2 s' h⟩⟩
    | .error _ =>
      decidable_of_iff (P s a)
        ⟨fun hp => ⟨hp, fun t ht => by rw [h] at ht; cases ht⟩, fun hg => hg.1⟩

instance {step : σ → α → Except ε σ} {P : σ → α → Prop} [∀ s a, Decidable (P s a)] :
    Decidable (Guarded step P s acts) := decideGuarded step P s acts

theorem Guarded.invariant {step : σ → α → Except ε σ} {P : σ → α → Prop}
    (hg : Guarded step P s acts) (Inv : σ → Prop)
    (hstep : ∀ s a s', Inv s → P s a → step s a = .ok s' → Inv s')
    (hs : Inv s) (h : run step s acts = .ok s') : Inv s' := by
  induction acts generalizing s with
  | nil =>
    cases h
    exact hs
  | cons a acts ih =>
    obtain ⟨t, ht, hr⟩ := bind_ok h
    exact ih (hg.2 t ht) (hstep s a t hs hg.1 ht) hr

theorem guarded_true (step : σ → α → Except ε σ) (s : σ) (acts : List α) :
    Guarded step (fun _ _ => True) s acts := by
  induction acts generalizing s with
  | nil => trivial
  | cons a acts ih => exact ⟨trivial, fun t _ => ih t⟩

theorem run_invariant {step : σ → α → Except ε σ} (Inv : σ → Prop)
    (hstep : ∀ s a s', Inv s → step s a = .ok s' → Inv s')
    (hs : Inv s) (h : run step s acts = .ok s') : Inv s' :=
  (guarded_true step s acts).invariant Inv (fun s a s' hi _ => hstep s a s' hi) hs h

/-- A run is guarded if every action is, after the run of those before it. -/
theorem guarded_iff {step : σ → α → Except ε σ} {P : σ → α → Prop} :
    Guarded step P s acts ↔ ∀ before a after s', acts = before ++ a :: after →
      run step s before = .ok s' → P s' a := by
  induction acts generalizing s with
  | nil => exact iff_of_true trivial fun before _ _ _ he => by cases before <;> cases he
  | cons a acts ih =>
    constructor
    · intro hg before b after s' he hr
      cases before with
      | nil =>
        cases he
        cases hr
        exact hg.1
      | cons c before =>
        cases he
        obtain ⟨t, ht, hr⟩ := bind_ok hr
        exact ih.1 (hg.2 t ht) before b after s' rfl hr
    · intro h
      refine ⟨h [] a acts s rfl rfl, fun t ht => ih.2 fun before b after s' he hr => ?_⟩
      refine h (a :: before) b after s' (by rw [he]; rfl) ?_
      rw [run_cons, ht]
      exact hr

theorem Guarded.within {step : σ → α → Except ε σ} {P : σ → α → Prop}
    (hg : Guarded step P s acts) (Inv : σ → Prop)
    (hstep : ∀ s a s', Inv s → P s a → step s a = .ok s' → Inv s')
    (hw : ∀ s a, Inv s → P s a → Within S (step s a)) (hs : Inv s) :
    Within S (run step s acts) := by
  induction acts generalizing s with
  | nil => exact within_ok S s
  | cons a acts ih =>
    exact (hw s a hs hg.1).bind fun t ht => ih (hg.2 t ht) (hstep s a t hs hg.1 ht)

/-- If a step that misses the guard leads into a trap, then an unguarded run ends in the trap. -/
theorem guarded_or_trapped {step : σ → α → Except ε σ} {P : σ → α → Prop} (Inv Trap : σ → Prop)
    (hinv : ∀ s a s', Inv s → P s a → step s a = .ok s' → Inv s')
    (hfall : ∀ s a s', Inv s → ¬P s a → step s a = .ok s' → Trap s')
    (htrap : ∀ s a s', Trap s → step s a = .ok s' → Trap s')
    (hs : Inv s) (h : run step s acts = .ok s') :
    (Guarded step P s acts ∧ Inv s') ∨ (¬Guarded step P s acts ∧ Trap s') := by
  induction acts generalizing s with
  | nil =>
    cases h
    exact .inl ⟨trivial, hs⟩
  | cons a acts ih =>
    obtain ⟨t, ht, hr⟩ := bind_ok h
    by_cases hp : P s a
    · have hg : Guarded step P s (a :: acts) ↔ Guarded step P t acts := by
        constructor
        · intro hg
          exact hg.2 t ht
        · intro hg
          refine ⟨hp, fun t' ht' => ?_⟩
          rw [ht] at ht'
          cases ht'
          exact hg
      rw [hg]
      exact ih (hinv s a t hs hp ht) hr
    · exact .inr ⟨fun hg => hp hg.1, run_invariant Trap htrap (hfall s a t hs hp ht) hr⟩

/-- If the guard tells exactly which steps avoid the bad errors, then a run avoids them
exactly when it is guarded. -/
theorem avoids_iff_guarded {step : σ → α → Except ε σ} {P : σ → α → Prop} {Bad : ε → Prop}
    (Inv : σ → Prop) (hstep : ∀ s a s', Inv s → step s a = .ok s' → Inv s')
    (hbad : ∀ s a, Inv s → (Avoids Bad (step s a) ↔ P s a)) (hs : Inv s) :
    Avoids Bad (run step s acts) ↔ Guarded step P s acts := by
  induction acts generalizing s with
  | nil => exact ⟨fun _ => trivial, fun _ => avoids_ok Bad s⟩
  | cons a acts ih =>
    rw [run_cons, avoids_bind_iff, hbad s a hs]
    constructor
    · intro ⟨hp, hr⟩
      exact ⟨hp, fun t ht => (ih (hstep s a t hs ht)).1 (hr t ht)⟩
    · intro ⟨hp, hg⟩
      exact ⟨hp, fun t ht => (ih (hstep s a t hs ht)).2 (hg t ht)⟩

end Run
