import Mathlib

/-!
# The search of `std::lower_bound`

The range is halved until nothing is left of it. On a range that is not sorted the result
need not be a bound; that it stays in the range, and goes beyond a first element that lies
before the value, is so on every range. On a range that the value divides it is where
the range is divided.
-/

namespace DbdkyGcc.Foundations

/-- The search in a range of `len` elements from `first` on; `before` tells whether an element lies
before the value. -/
def lowerBound (before : ℕ → Bool) (first len : ℕ) : ℕ :=
  if len = 0 then first
  else if before (first + len / 2) then
    lowerBound before (first + len / 2 + 1) (len - len / 2 - 1)
  else lowerBound before first (len / 2)
termination_by len

theorem lowerBound_range (before : ℕ → Bool) (first len : ℕ) :
    first ≤ lowerBound before first len ∧ lowerBound before first len ≤ first + len := by
  fun_induction lowerBound before first len with
  | case1 first => exact ⟨le_rfl, le_rfl⟩
  | case2 first len hlen hmid ih => omega
  | case3 first len hlen hmid ih => omega

/-- If every element that is looked at lies behind the value, the first one is among them. -/
theorem lt_lowerBound {before : ℕ → Bool} {first len : ℕ} (hlen : 0 < len)
    (hfirst : before first = true) : first < lowerBound before first len := by
  fun_induction lowerBound before first len with
  | case1 first => omega
  | case2 first len _ hmid ih =>
    have := (lowerBound_range before (first + len / 2 + 1) (len - len / 2 - 1)).1
    omega
  | case3 first len _ hmid ih =>
    refine ih (Nat.pos_of_ne_zero fun hhalf => hmid ?_) hfirst
    rw [hhalf]
    exact hfirst

/-- The search finds the place that divides the range. -/
theorem lowerBound_eq {before : ℕ → Bool} {first len k : ℕ} (h₀ : first ≤ k)
    (h₁ : k ≤ first + len) (hlow : ∀ j, first ≤ j → j < k → before j = true)
    (hhigh : ∀ j, k ≤ j → j < first + len → before j = false) :
    lowerBound before first len = k := by
  fun_induction lowerBound before first len with
  | case1 first => omega
  | case2 first len hlen hmid ih =>
    -- The middle lies before the value, and so before the place.
    have hk : first + len / 2 < k := by
      by_contra hle
      have := hhigh (first + len / 2) (by omega) (by omega)
      rw [hmid] at this
      cases this
    exact ih (by omega) (by omega) (fun j hj => hlow j (by omega))
      (fun j hj hj' => hhigh j hj (by omega))
  | case3 first len hlen hmid ih =>
    have hk : k ≤ first + len / 2 := by
      by_contra hlt
      exact hmid (hlow (first + len / 2) (by omega) (by omega))
    exact ih h₀ hk hlow (fun j hj hj' => hhigh j hj (by omega))

end DbdkyGcc.Foundations
