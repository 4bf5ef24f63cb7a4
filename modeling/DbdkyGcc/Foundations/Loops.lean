import Mathlib

/-!
# Loops that may not end

A while loop is a step function on its state: a turn goes on with the next state or leaves
the loop with a result. `turns` makes a bounded number of turns, and `Ends` says that some
number of them is enough. A loop is shown to end by following its turns, and not to end by
a set of states that no turn leaves.
-/

namespace DbdkyGcc.Foundations

variable {σ ρ : Type}

/-- The result of a loop, if it is left within `fuel` turns. -/
def turns (step : σ → σ ⊕ ρ) : Nat → σ → Option ρ
  | 0, _ => none
  | fuel + 1, s => (step s).elim (turns step fuel) some

/-- The loop entered in `s` is left. -/
def Ends (step : σ → σ ⊕ ρ) (s : σ) : Prop := ∃ fuel r, turns step fuel s = some r

variable {step : σ → σ ⊕ ρ}

theorem turns_eq_iff_of_inr {s : σ} {r r' : ρ} (h : step s = .inr r) :
    (∃ fuel, turns step fuel s = some r') ↔ r = r' := by
  constructor
  · rintro ⟨fuel, hr⟩
    cases fuel with
    | zero => cases hr
    | succ fuel =>
      rw [turns, h] at hr
      exact Option.some.inj hr
  · rintro rfl
    exact ⟨1, by rw [turns, h]; rfl⟩

theorem turns_eq_iff_of_inl {s t : σ} {r : ρ} (h : step s = .inl t) :
    (∃ fuel, turns step fuel s = some r) ↔ ∃ fuel, turns step fuel t = some r := by
  constructor
  · rintro ⟨fuel, hr⟩
    cases fuel with
    | zero => cases hr
    | succ fuel =>
      rw [turns, h] at hr
      exact ⟨fuel, hr⟩
  · rintro ⟨fuel, hr⟩
    refine ⟨fuel + 1, ?_⟩
    rw [turns, h]
    exact hr

theorem Ends.of_inr {s : σ} {r : ρ} (h : step s = .inr r) : Ends step s := by
  obtain ⟨fuel, hr⟩ := (turns_eq_iff_of_inr h).mpr rfl
  exact ⟨fuel, r, hr⟩

/-- A turn that goes on neither adds nor removes an ending. -/
theorem ends_iff_of_inl {s t : σ} (h : step s = .inl t) : Ends step s ↔ Ends step t := by
  simp only [Ends, exists_comm (p := fun (fuel : Nat) (r : ρ) => turns step fuel _ = some r)]
  exact exists_congr fun r => turns_eq_iff_of_inl h

/-- A loop whose turns never lead out of `C` is not left from there. -/
theorem not_ends_of_closed {C : σ → Prop} (hC : ∀ s, C s → ∃ t, step s = .inl t ∧ C t) {s : σ}
    (hs : C s) : ¬Ends step s := by
  rintro ⟨fuel, r, hr⟩
  induction fuel generalizing s with
  | zero => cases hr
  | succ fuel ih =>
    obtain ⟨t, hst, ht⟩ := hC s hs
    rw [turns, hst] at hr
    exact ih ht hr

end DbdkyGcc.Foundations
