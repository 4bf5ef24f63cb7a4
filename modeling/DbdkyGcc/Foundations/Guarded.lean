import Mathlib

/-!
# Computations that may fault

A model of code that can go wrong returns an `Except`. For such a computation
`Guarded m P a` says both when it returns (exactly when `P` holds) and what it
then returns (`a`). The rules below follow the program text: `bind` for
sequencing, `foldlM` for a loop over a list. A loop is guarded by `AllSteps`,
the condition of each step in the state that the earlier steps lead to.
-/

namespace DbdkyGcc.Foundations

variable {ε σ α β : Type}

/-- A value that must be there. -/
def require (e : ε) : Option α → Except ε α
  | some a => .ok a
  | none => .error e

/-- A condition that must hold. -/
def ensure (e : ε) (p : Prop) [Decidable p] : Except ε Unit := if p then .ok () else .error e

theorem ensure_eq_ok {e : ε} {p : Prop} [Decidable p] (h : p) : ensure e p = .ok () := if_pos h

theorem require_eq_ok_iff {e : ε} {o : Option α} {a : α} : require e o = .ok a ↔ o = some a := by
  cases o with
  | none => exact iff_of_false nofun nofun
  | some b =>
    constructor
    · exact fun h => congrArg some (Except.ok.inj h)
    · exact fun h => congrArg Except.ok (Option.some.inj h)

theorem ok_bind (a : α) (k : α → Except ε β) : (Except.ok a >>= k) = k a := rfl

/-- A sequence goes on with what its first part returns. -/
theorem bind_of_ok {m : Except ε α} {a : α} (h : m = .ok a) (k : α → Except ε β) :
    m >>= k = k a := by
  rw [h, ok_bind]

theorem eq_ok_of_toOption {m : Except ε α} {a : α} (h : m.toOption = some a) : m = .ok a := by
  cases m with
  | error e => cases h
  | ok b => exact congrArg Except.ok (Option.some.inj h)

theorem pure_eq_ok_iff {a b : α} : (pure a : Except ε α) = .ok b ↔ b = a :=
  ⟨fun h => (Except.ok.inj h).symm, fun h => congrArg Except.ok h.symm⟩

/-- A sequence returns exactly when both parts do. -/
theorem bind_eq_ok_iff {m : Except ε α} {k : α → Except ε β} {b : β} :
    m >>= k = .ok b ↔ ∃ a, m = .ok a ∧ k a = .ok b := by
  cases m with
  | error e =>
    refine iff_of_false (fun h => ?_) ?_
    · cases h
    · rintro ⟨a, ha, -⟩
      cases ha
  | ok a =>
    constructor
    · exact fun h => ⟨a, rfl, h⟩
    · rintro ⟨_, ha, hb⟩
      cases ha
      exact hb

theorem ensure_bind_eq_ok_iff {e : ε} {p : Prop} [Decidable p] {k : Unit → Except ε β} {b : β} :
    ensure e p >>= k = .ok b ↔ p ∧ k () = .ok b := by
  unfold ensure
  split
  · next hp => exact (and_iff_right hp).symm
  · next hp =>
    refine iff_of_false (fun h => ?_) fun h => hp h.1
    cases h

/-- A sequence fails in its first part or in its second. -/
theorem bind_eq_error_iff {m : Except ε α} {k : α → Except ε β} {e : ε} :
    m >>= k = .error e ↔ m = .error e ∨ ∃ a, m = .ok a ∧ k a = .error e := by
  cases m with
  | error e' =>
    refine ⟨fun h => .inl ?_, ?_⟩
    · cases h
      rfl
    · rintro (h | ⟨a, ha, -⟩)
      · cases h
        rfl
      · cases ha
  | ok a =>
    refine ⟨fun h => .inr ⟨a, rfl, h⟩, ?_⟩
    rintro (h | ⟨_, ha, hb⟩)
    · cases h
    · cases ha
      exact hb

theorem mapM_eq_ok_map {f : α → Except ε β} {g : α → β} (xs : List α)
    (h : ∀ x ∈ xs, f x = .ok (g x)) : xs.mapM f = .ok (xs.map g) := by
  induction xs with
  | nil => rfl
  | cons x xs ih =>
    rw [List.mapM_cons, h x (by simp), ih fun y hy => h y (by simp [hy])]
    rfl

/-- A loop that collects results has got one for each element. -/
theorem forall₂_of_mapM_eq_ok {f : α → Except ε β} {xs : List α} {ys : List β}
    (h : xs.mapM f = .ok ys) : List.Forall₂ (fun x y => f x = .ok y) xs ys := by
  induction xs generalizing ys with
  | nil =>
    cases h
    exact .nil
  | cons x xs ih =>
    rw [List.mapM_cons] at h
    obtain ⟨y, hy, h⟩ := bind_eq_ok_iff.mp h
    obtain ⟨ys', hys, h⟩ := bind_eq_ok_iff.mp h
    cases h
    exact .cons hy (ih hys)

/-- The loop rule for a loop that does not fail: `R` holds of the state and of the elements
still to come. -/
theorem foldlM_eq_ok {f : σ → α → Except ε σ} {R : σ → List α → Prop}
    (hstep : ∀ s x xs, R s (x :: xs) → ∃ t, f s x = .ok t ∧ R t xs) (xs : List α) (s : σ)
    (h : R s xs) : ∃ t, xs.foldlM f s = .ok t ∧ R t [] := by
  induction xs generalizing s with
  | nil => exact ⟨s, rfl, h⟩
  | cons x xs ih =>
    obtain ⟨u, hu, hR⟩ := hstep s x xs h
    obtain ⟨t, ht, hR⟩ := ih u hR
    exact ⟨t, by rw [List.foldlM_cons, hu]; exact ht, hR⟩

/-- `m` returns `a`, unless it fails with the one fault `e`. -/
def OkOr (e : ε) (m : Except ε α) (a : α) : Prop := m = .ok a ∨ m = .error e

theorem OkOr.bind {e : ε} {m : Except ε α} {a : α} {k : α → Except ε β} {b : β}
    (hm : OkOr e m a) (hk : OkOr e (k a) b) : OkOr e (m >>= k) b := by
  rcases hm with h | h
  · rw [h]
    exact hk
  · rw [h]
    exact .inr rfl

/-- `m` returns something that meets `Q`, unless it fails with the one fault `e`. -/
def Yields (e : ε) (m : Except ε α) (Q : α → Prop) : Prop := (∃ a, m = .ok a ∧ Q a) ∨ m = .error e

namespace Yields

variable {e : ε} {m : Except ε α} {Q : α → Prop}

theorem ok {a : α} (h : Q a) : Yields e (.ok a) Q := .inl ⟨a, rfl, h⟩

theorem bind {k : α → Except ε β} {R : β → Prop} (hm : Yields e m Q)
    (hk : ∀ a, Q a → Yields e (k a) R) : Yields e (m >>= k) R := by
  rcases hm with ⟨a, rfl, ha⟩ | rfl
  · exact hk a ha
  · exact .inr rfl

/-- A condition that holds is passed. -/
theorem ensure_bind {f : ε} {p : Prop} [Decidable p] {k : Unit → Except ε α} (hp : p)
    (hk : Yields e (k ()) Q) : Yields e (ensure f p >>= k) Q := by
  rw [ensure_eq_ok hp]
  exact hk

theorem mono {R : α → Prop} (hm : Yields e m Q) (h : ∀ a, Q a → R a) : Yields e m R := by
  rcases hm with ⟨a, rfl, ha⟩ | rfl
  · exact .inl ⟨a, rfl, h a ha⟩
  · exact .inr rfl

/-- The same computation with its faults renamed. -/
theorem mapError {ε' : Type} {f : ε → ε'} (hm : Yields e m Q) : Yields (f e) (m.mapError f) Q := by
  rcases hm with ⟨a, rfl, ha⟩ | rfl
  · exact .inl ⟨a, rfl, ha⟩
  · exact .inr rfl

theorem of_eq_ok {a : α} (hm : Yields e m Q) (h : m = .ok a) : Q a := by
  rcases hm with ⟨b, rfl, hb⟩ | rfl
  · cases h
    exact hb
  · cases h

theorem eq_of_eq_error {f : ε} (hm : Yields e m Q) (h : m = .error f) : f = e := by
  rcases hm with ⟨a, rfl, -⟩ | rfl
  · cases h
  · cases h
    rfl

end Yields

/-- `m` returns `a` when `P` holds, and faults when it does not. -/
def Guarded (m : Except ε α) (P : Prop) (a : α) : Prop :=
  (P → m = .ok a) ∧ (¬P → ∃ e, m = .error e)

/-- The condition of every step of a left fold, each in the state before it. -/
def AllSteps (C : σ → α → Prop) (g : σ → α → σ) : σ → List α → Prop
  | _, [] => True
  | s, x :: xs => C s x ∧ AllSteps C g (g s x) xs

/-- The condition of every step of a search, up to the one that finds something. -/
def UntilFound (C : α → Prop) (g : α → Option β) : List α → Prop
  | [] => True
  | x :: xs => C x ∧ (g x = none → UntilFound C g xs)

theorem allSteps_of_forall {C : σ → α → Prop} {g : σ → α → σ} {xs : List α}
    (h : ∀ x ∈ xs, ∀ s, C s x) (s : σ) : AllSteps C g s xs := by
  induction xs generalizing s with
  | nil => trivial
  | cons x xs ih => exact ⟨h x (by simp) s, ih (fun y hy => h y (by simp [hy])) (g s x)⟩

theorem untilFound_of_forall {C : α → Prop} {g : α → Option β} {xs : List α}
    (h : ∀ x ∈ xs, C x) : UntilFound C g xs := by
  induction xs with
  | nil => trivial
  | cons x xs ih =>
    exact ⟨h x List.mem_cons_self, fun _ => ih fun y hy => h y (List.mem_cons_of_mem _ hy)⟩

theorem allSteps_const (C : α → Prop) (g : σ → α → σ) (s : σ) (xs : List α) :
    AllSteps (fun _ x => C x) g s xs ↔ ∀ x ∈ xs, C x := by
  induction xs generalizing s with
  | nil => simp [AllSteps]
  | cons x xs ih => simp [AllSteps, ih]

/-- A fold whose steps are all conditioned on one unchanging feature `r` of the
state is conditioned on that feature once. -/
theorem allSteps_of_stable {ρ : Type} (r : σ → ρ) (C : ρ → α → Prop) (g : σ → α → σ)
    (hr : ∀ s x, r (g s x) = r s) (s : σ) (xs : List α) :
    AllSteps (fun s x => C (r s) x) g s xs ↔ ∀ x ∈ xs, C (r s) x := by
  induction xs generalizing s with
  | nil => simp [AllSteps]
  | cons x xs ih => simp [AllSteps, ih, hr]

namespace Guarded

variable {m : Except ε α} {P Q : Prop} {a b : α}

theorem ok (a : α) : Guarded (.ok a : Except ε α) True a :=
  ⟨fun _ => rfl, fun h => absurd trivial h⟩

theorem congr (h : Guarded m P a) (hPQ : P ↔ Q) : Guarded m Q a := by
  rwa [propext hPQ] at h

theorem congr_value (h : Guarded m P a) (hab : P → a = b) : Guarded m P b :=
  ⟨fun hp => hab hp ▸ h.1 hp, h.2⟩

/-- The condition is exact: the computation returns if and only if it holds. -/
theorem returns_iff (h : Guarded m P a) : (∃ x, m = .ok x) ↔ P := by
  constructor
  · rintro ⟨x, hx⟩
    by_contra hp
    obtain ⟨e, he⟩ := h.2 hp
    rw [hx] at he
    cases he
  · exact fun hp => ⟨a, h.1 hp⟩

theorem eq_of_ok (h : Guarded m P a) {x : α} (hx : m = .ok x) : x = a := by
  have hp : P := h.returns_iff.mp ⟨x, hx⟩
  rw [h.1 hp] at hx
  exact (Except.ok.inj hx).symm

theorem require (e : ε) (o : Option α) (d : α) :
    Guarded (require e o) (o.isSome = true) (o.getD d) := by
  cases o with
  | none => exact ⟨by simp, fun _ => ⟨e, rfl⟩⟩
  | some x => exact ⟨fun _ => rfl, by simp⟩

theorem bind {c : β} {k : α → Except ε β} (hm : Guarded m P a)
    (hk : P → Guarded (k a) Q c) : Guarded (m >>= k) (P ∧ Q) c := by
  refine ⟨?_, ?_⟩
  · rintro ⟨hp, hq⟩
    rw [hm.1 hp]
    exact (hk hp).1 hq
  · intro hpq
    by_cases hp : P
    · rw [hm.1 hp]
      exact (hk hp).2 fun hq => hpq ⟨hp, hq⟩
    · obtain ⟨e, he⟩ := hm.2 hp
      exact ⟨e, by rw [he]; rfl⟩

/-- The rule for a branch. -/
theorem ite {c : Prop} [Decidable c] {m₁ m₂ : Except ε α} (h₁ : c → Guarded m₁ P a)
    (h₂ : ¬c → Guarded m₂ Q b) :
    Guarded (if c then m₁ else m₂) ((c → P) ∧ (¬c → Q)) (if c then a else b) := by
  by_cases hc : c
  · rw [if_pos hc, if_pos hc]
    exact (h₁ hc).congr (by simp [hc])
  · rw [if_neg hc, if_neg hc]
    exact (h₂ hc).congr (by simp [hc])

/-- The loop rule. -/
theorem foldlM {f : σ → α → Except ε σ} {C : σ → α → Prop} {g : σ → α → σ}
    (hf : ∀ s x, Guarded (f s x) (C s x) (g s x)) (xs : List α) (s : σ) :
    Guarded (xs.foldlM f s) (AllSteps C g s xs) (xs.foldl g s) := by
  induction xs generalizing s with
  | nil => exact ok s
  | cons x xs ih =>
    rw [List.foldlM_cons, List.foldl_cons]
    exact (hf s x).bind fun _ => ih (g s x)

/-- The rule for a search that stops at the first find. -/
theorem findSomeM? {f : α → Except ε (Option β)} {C : α → Prop} {g : α → Option β}
    (hf : ∀ x, Guarded (f x) (C x) (g x)) (xs : List α) :
    Guarded (xs.findSomeM? f) (UntilFound C g xs) (xs.findSome? g) := by
  induction xs with
  | nil => exact ok none
  | cons x xs ih =>
    rw [List.findSomeM?_cons, List.findSome?_cons]
    refine (hf x).bind fun _ => ?_
    cases hg : g x with
    | none => exact ih.congr (by simp)
    | some b => exact (ok (some b)).congr (by simp)

end Guarded

end DbdkyGcc.Foundations
