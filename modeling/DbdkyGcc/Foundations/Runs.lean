import DbdkyGcc.Foundations.Guarded

/-!
# Runs of a step function

A system is a partial step function on states: an action either takes a state to
the next one or is not enabled there. `Reached` collects the states of the runs
all of whose steps meet a side condition, and `Reached.invariant` is the one
induction that safety proofs need. `Run` is the same for steps that may fault.
-/

namespace DbdkyGcc.Foundations

variable {σ α : Type}

/-- The states reached from an initial one by enabled steps that all meet `allowed`. -/
inductive Reached (step : σ → α → Option σ) (allowed : σ → α → Prop) (init : σ → Prop) :
    σ → Prop
  | start {s : σ} (h : init s) : Reached step allowed init s
  | next {s t : σ} (a : α) (hs : Reached step allowed init s) (ha : allowed s a)
      (ht : step s a = some t) : Reached step allowed init t

variable {step : σ → α → Option σ} {allowed : σ → α → Prop} {init : σ → Prop}

/-- What holds initially and is kept by every allowed step holds throughout. -/
theorem Reached.invariant {I : σ → Prop} (hinit : ∀ s, init s → I s)
    (hstep : ∀ s a t, I s → allowed s a → step s a = some t → I t)
    {s : σ} (h : Reached step allowed init s) : I s := by
  induction h with
  | start h => exact hinit _ h
  | next a _ ha ht ih => exact hstep _ a _ ih ha ht

/-- A list of actions, executed one after another. -/
def exec (step : σ → α → Option σ) (s : σ) (acts : List α) : Option σ :=
  acts.foldlM step s

/-- An executed list of actions extends a run when its steps are allowed anywhere. -/
theorem Reached.of_exec (acts : List α) (hacts : ∀ a ∈ acts, ∀ u, allowed u a) {s t : σ}
    (hs : Reached step allowed init s) (h : exec step s acts = some t) :
    Reached step allowed init t := by
  induction acts generalizing s with
  | nil =>
    cases h
    exact hs
  | cons a acts ih =>
    rw [exec, List.foldlM_cons] at h
    obtain ⟨u, hu, h⟩ := Option.bind_eq_some_iff.mp h
    exact ih (fun b hb => hacts b (by simp [hb])) (.next a hs (hacts a (by simp) s) hu) h

/-- The steps that meet `allowed`. -/
def restrict {τ : Type} (allowed : σ → α → Prop) [∀ s a, Decidable (allowed s a)]
    (step : σ → α → Option τ) (s : σ) (a : α) : Option τ :=
  if allowed s a then step s a else none

/-- A list of actions, executed with each step checked to be allowed, extends a run. -/
theorem Reached.exec [∀ s a, Decidable (allowed s a)] (acts : List α) {s t : σ}
    (hs : Reached step allowed init s)
    (h : Foundations.exec (restrict allowed step) s acts = some t) :
    Reached step allowed init t := by
  induction acts generalizing s with
  | nil =>
    cases h
    exact hs
  | cons a acts ih =>
    rw [Foundations.exec, List.foldlM_cons] at h
    obtain ⟨u, hu, h⟩ := Option.bind_eq_some_iff.mp h
    obtain ⟨ha, hu⟩ := Option.ite_none_right_eq_some.mp hu
    exact ih (.next a hs ha hu) h

/-- `P` holds in every state that the actions lead through. -/
def Always (step : σ → α → Option σ) (P : σ → Prop) : σ → List α → Prop
  | s, [] => P s
  | s, a :: acts => P s ∧ ∀ t, step s a = some t → Always step P t acts

/-- Every step that the actions lead through is allowed. -/
def Meets (step : σ → α → Option σ) (allowed : σ → α → Prop) : σ → List α → Prop
  | _, [] => True
  | s, a :: acts => allowed s a ∧ ∀ t, step s a = some t → Meets step allowed t acts

theorem Always.head {P : σ → Prop} {s : σ} {acts : List α} (h : Always step P s acts) : P s := by
  cases acts with
  | nil => exact h
  | cons a acts => exact h.1

/-- When the steps that keep `P` are exactly the allowed ones, `P` holds throughout a run exactly
when all its steps are allowed. -/
theorem always_iff_meets {I P : σ → Prop} (hI : ∀ s a t, I s → step s a = some t → I t)
    (hP : ∀ s a t, I s → P s → step s a = some t → (P t ↔ allowed s a))
    (hnone : ∀ s a, I s → step s a = none → allowed s a) (acts : List α) {s : σ} (hs : I s)
    (h : P s) : Always step P s acts ↔ Meets step allowed s acts := by
  induction acts generalizing s with
  | nil => exact iff_of_true h trivial
  | cons a acts ih =>
    constructor
    · rintro ⟨-, hrest⟩
      refine ⟨?_, fun t ht => ?_⟩
      · cases ht : step s a with
        | none => exact hnone s a hs ht
        | some t => exact (hP s a t hs h ht).mp (hrest t ht).head
      · exact (ih (hI s a t hs ht) (hrest t ht).head).mp (hrest t ht)
    · rintro ⟨ha, hrest⟩
      refine ⟨h, fun t ht => ?_⟩
      exact (ih (hI s a t hs ht) ((hP s a t hs h ht).mpr ha)).mpr (hrest t ht)

/-- What holds along the allowed steps from a state on. -/
theorem Meets.always {I P : σ → Prop}
    (hI : ∀ s a t, I s → allowed s a → step s a = some t → I t) (hP : ∀ s, I s → P s)
    {acts : List α} {s : σ} (h : Meets step allowed s acts) (hs : I s) :
    Always step P s acts := by
  induction acts generalizing s with
  | nil => exact hP s hs
  | cons a acts ih => exact ⟨hP s hs, fun t ht => ih (h.2 t ht) (hI s a t hs h.1 ht)⟩

section Faults

variable {ε : Type} {step : σ → α → Option (Except ε σ)}

/-- A step that may fault. No action is enabled after a fault. -/
def faulting (step : σ → α → Option (Except ε σ)) : Except ε σ → α → Option (Except ε σ)
  | .ok s, a => step s a
  | .error _, _ => none

/-- What the runs from an initial state lead to, by steps that may fault and that all meet
`allowed`: a state, or the fault of the last step. -/
def Run (step : σ → α → Option (Except ε σ)) (allowed : σ → α → Prop) (init : σ → Prop) :
    Except ε σ → Prop :=
  Reached (faulting step) (fun p a => ∀ s, p = .ok s → allowed s a)
    (fun p => ∃ s, p = .ok s ∧ init s)

/-- What is seen of the state that a step or an execution leads to, if it does not fault. -/
def seen (m : Option (Except ε σ)) (check : σ → Bool) : Bool :=
  (m.bind Except.toOption).any check

theorem exists_of_seen {m : Option (Except ε σ)} {check : σ → Bool} (h : seen m check = true) :
    ∃ t, m = some (.ok t) ∧ check t = true := by
  obtain ⟨t, ht, hcheck⟩ := (Option.any_eq_true _ _).mp h
  obtain ⟨p, rfl, hok⟩ := Option.bind_eq_some_iff.mp ht
  exact ⟨t, congrArg some (eq_ok_of_toOption hok), hcheck⟩

/-- The fault that a step or an execution ends with, if it does. -/
def faultOf : Option (Except ε σ) → Option ε
  | some (.error e) => some e
  | _ => none

theorem eq_error_of_faultOf {m : Option (Except ε σ)} {e : ε} (h : faultOf m = some e) :
    m = some (.error e) := by
  rcases m with _ | f | s
  · cases h
  · cases h
    rfl
  · cases h

theorem Run.start {s : σ} (hs : init s) : Run step allowed init (.ok s) :=
  Reached.start ⟨s, rfl, hs⟩

theorem Run.next {s : σ} {p : Except ε σ} (h : Run step allowed init (.ok s)) (a : α)
    (ha : allowed s a) (hp : step s a = some p) : Run step allowed init p := by
  refine Reached.next a h (fun t ht => ?_) hp
  cases ht
  exact ha

/-- A run with a weaker side condition. -/
theorem Run.mono {allowed' : σ → α → Prop} (hallowed : ∀ s a, allowed s a → allowed' s a)
    {p : Except ε σ} (h : Run step allowed init p) : Run step allowed' init p :=
  Reached.invariant (fun _ hs => Reached.start hs)
    (fun _ a _ hs ha ht => Reached.next a hs (fun s hp => hallowed s a (ha s hp)) ht) h

/-- The same for steps that may fault. -/
theorem Run.exec [∀ s a, Decidable (allowed s a)] (acts : List α) {p₀ p : Except ε σ}
    (hp₀ : Run step allowed init p₀)
    (h : Foundations.exec (faulting (restrict allowed step)) p₀ acts = some p) :
    Run step allowed init p := by
  induction acts generalizing p₀ with
  | nil =>
    cases h
    exact hp₀
  | cons a acts ih =>
    rw [Foundations.exec, List.foldlM_cons] at h
    obtain ⟨p₁, h₁, htail⟩ := Option.bind_eq_some_iff.mp h
    cases p₀ with
    | error e => cases h₁
    | ok s =>
      obtain ⟨ha, h₁⟩ := Option.ite_none_right_eq_some.mp h₁
      exact ih (hp₀.next a ha h₁) htail

/-- Where all steps are allowed, every execution is a run. -/
theorem Run.of_exec (init : σ → Prop) {s : σ} (hs : init s) (acts : List α) {p : Except ε σ}
    (h : Foundations.exec (faulting step) (.ok s) acts = some p) :
    Run step (fun _ _ => True) init p :=
  Reached.of_exec acts (fun _ _ _ _ _ => trivial) (.start ⟨s, rfl, hs⟩) h

/-- What holds initially and is kept by every allowed step that does not fault. -/
theorem Run.invariant {I : σ → Prop} (hinit : ∀ s, init s → I s)
    (hstep : ∀ s a t, I s → allowed s a → step s a = some (.ok t) → I t)
    {p : Except ε σ} (h : Run step allowed init p) : ∀ s, p = .ok s → I s := by
  refine Reached.invariant (I := fun p => ∀ s, p = .ok s → I s) ?_ ?_ h
  · rintro p ⟨s, rfl, hs⟩ t ht
    cases ht
    exact hinit s hs
  · rintro p a q ih ha hq t rfl
    cases p with
    | error e => cases hq
    | ok s => exact hstep s a t (ih s rfl) (ha s rfl) hq

/-- When no allowed step faults under the invariant, no run does. -/
theorem Run.safe {I : σ → Prop} (hinit : ∀ s, init s → I s)
    (hstep : ∀ s a m, I s → allowed s a → step s a = some m → ∃ t, m = .ok t ∧ I t)
    {p : Except ε σ} (h : Run step allowed init p) : ∃ s, p = .ok s ∧ I s := by
  refine Reached.invariant (I := fun p => ∃ s, p = .ok s ∧ I s) ?_ ?_ h
  · rintro p ⟨s, rfl, hs⟩
    exact ⟨s, rfl, hinit s hs⟩
  · rintro p a q ⟨s, rfl, hs⟩ ha hq
    exact hstep s a q hs (ha s rfl) hq

/-- When each step that does not fault is matched by a step of another system, or by none at all,
each run is matched by one of that system. -/
theorem Run.simulated {τ β φ : Type} {step' : τ → β → Option (Except φ τ)}
    {allowed' : τ → β → Prop} {init' : τ → Prop} {R : σ → τ → Prop}
    (hinit : ∀ s, init s → ∃ t, init' t ∧ R s t)
    (hstep : ∀ s a s' t, R s t → allowed s a → step s a = some (.ok s') →
      R s' t ∨ ∃ b t', allowed' t b ∧ step' t b = some (.ok t') ∧ R s' t')
    {s : σ} (h : Run step allowed init (.ok s)) :
    ∃ t, Run step' allowed' init' (.ok t) ∧ R s t := by
  refine h.invariant (I := fun s => ∃ t, Run step' allowed' init' (.ok t) ∧ R s t) ?_ ?_ s rfl
  · intro s hs
    obtain ⟨t, ht, hR⟩ := hinit s hs
    exact ⟨t, .start ht, hR⟩
  · rintro s a s' ⟨t, hrun, hR⟩ ha hs'
    rcases hstep s a s' t hR ha hs' with hR' | ⟨b, t', hb, ht', hR'⟩
    · exact ⟨t, hrun, hR'⟩
    · exact ⟨t', hrun.next b hb ht', hR'⟩

/-- An invariant of the states, together with what is known of the fault a run may end with. -/
theorem Run.sound {I : σ → Prop} {F : ε → Prop} (hinit : ∀ s, init s → I s)
    (hstep : ∀ s a m, I s → allowed s a → step s a = some m →
      (∀ t, m = .ok t → I t) ∧ ∀ e, m = .error e → F e)
    {p : Except ε σ} (h : Run step allowed init p) :
    (∀ s, p = .ok s → I s) ∧ ∀ e, p = .error e → F e := by
  refine Reached.invariant (I := fun p => (∀ s, p = .ok s → I s) ∧ ∀ e, p = .error e → F e) ?_ ?_ h
  · rintro p ⟨s, rfl, hs⟩
    refine ⟨fun t ht => ?_, fun e he => ?_⟩
    · cases ht
      exact hinit s hs
    · cases he
  · rintro p a q ⟨ih, -⟩ ha hq
    cases p with
    | error e => cases hq
    | ok s => exact hstep s a q (ih s rfl) (ha s rfl) hq

/-- When an allowed step can only fail with `e` under the invariant, so can every run. -/
theorem Run.yields {e : ε} {I : σ → Prop} (hinit : ∀ s, init s → I s)
    (hstep : ∀ s a m, I s → allowed s a → step s a = some m → Yields e m I)
    {p : Except ε σ} (h : Run step allowed init p) : Yields e p I := by
  refine Reached.invariant (I := fun p => Yields e p I) ?_ ?_ h
  · rintro p ⟨s, rfl, hs⟩
    exact .ok (hinit s hs)
  · rintro p a q (⟨s, rfl, hs⟩ | rfl) ha hq
    · exact hstep s a q hs (ha s rfl) hq
    · cases hq

end Faults

end DbdkyGcc.Foundations
