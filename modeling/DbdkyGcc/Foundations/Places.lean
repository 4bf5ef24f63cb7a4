import Mathlib

/-!
# The places of finitely many threads

Where each of finitely many threads stands is a function of the thread, and a step changes it at one
point. `total` adds up a weight over all threads, so that it counts those at places of a kind;
`Marks` says that a variable names the only thread at a place of a kind.
-/

namespace DbdkyGcc.Foundations

variable {ι α : Type} [Fintype ι] [DecidableEq ι]

section Total

variable (w : α → ℕ) (f : ι → α)

/-- The sum of the weights of all places. -/
def total : ℕ := ∑ i, w (f i)

theorem total_update (i : ι) (a : α) :
    total w (Function.update f i a) + w (f i) = total w f + w a := by
  have hrest : ∑ j ∈ Finset.univ.erase i, w (Function.update f i a j) =
      ∑ j ∈ Finset.univ.erase i, w (f j) := by
    refine Finset.sum_congr rfl fun j hj => ?_
    rw [Function.update_of_ne (Finset.ne_of_mem_erase hj)]
  have hnew := Finset.add_sum_erase Finset.univ (fun j => w (Function.update f i a j))
    (Finset.mem_univ i)
  have hold := Finset.add_sum_erase Finset.univ (fun j => w (f j)) (Finset.mem_univ i)
  simp only [Function.update_self, hrest] at hnew
  unfold total
  omega

variable {w f}

theorem total_update_lt {i : ι} {a : α} (h : w a < w (f i)) :
    total w (Function.update f i a) < total w f := by
  have hsum := total_update w f i a
  omega

theorem total_update_eq {i : ι} {a : α} (h : w a = w (f i)) :
    total w (Function.update f i a) = total w f := by
  have hsum := total_update w f i a
  omega

theorem total_le_update {i : ι} {a : α} (h : w (f i) ≤ w a) :
    total w f ≤ total w (Function.update f i a) := by
  have hsum := total_update w f i a
  omega

omit [DecidableEq ι] in
theorem total_mono {g : ι → α} (h : ∀ i, w (f i) ≤ w (g i)) : total w f ≤ total w g :=
  Finset.sum_le_sum fun i _ => h i

omit [DecidableEq ι] in
theorem total_eq_zero (h : ∀ i, w (f i) = 0) : total w f = 0 :=
  Finset.sum_eq_zero fun i _ => h i

omit [DecidableEq ι] in
/-- If every weight grows by at most `k`, the sum grows by at most `k` for each thread. -/
theorem total_le_add {g : ι → α} {k : ℕ} (h : ∀ i, w (g i) ≤ w (f i) + k) :
    total w g ≤ total w f + Fintype.card ι * k := by
  calc total w g
    _ ≤ ∑ i, (w (f i) + k) := Finset.sum_le_sum fun i _ => h i
    _ = total w f + Fintype.card ι * k := by
      rw [Finset.sum_add_distrib, Finset.sum_const, Finset.card_univ, smul_eq_mul]
      rfl

omit [DecidableEq ι] in
theorem total_congr {g : ι → α} (h : ∀ i, w (g i) = w (f i)) : total w g = total w f :=
  Finset.sum_congr rfl fun i _ => h i

end Total

section Marks

variable {q : α → Bool} {f : ι → α} {m : Option ι} {i : ι} {a : α}

/-- The variable names the thread at a place of the kind, if there is one. -/
def Marks (q : α → Bool) (f : ι → α) (m : Option ι) : Prop := ∀ i, q (f i) = true ↔ m = some i

omit [Fintype ι] in
/-- A thread that stays among the places of the kind, or outside of them. -/
theorem Marks.stay (h : Marks q f m) (ha : q a = q (f i)) : Marks q (Function.update f i a) m := by
  intro j
  by_cases hj : j = i
  · subst hj
    rw [Function.update_self, ha]
    exact h j
  · rw [Function.update_of_ne hj]
    exact h j

omit [Fintype ι] in
theorem Marks.enter (h : Marks q f none) (ha : q a = true) :
    Marks q (Function.update f i a) (some i) := by
  intro j
  by_cases hj : j = i
  · subst hj
    rw [Function.update_self]
    exact iff_of_true ha rfl
  · rw [Function.update_of_ne hj]
    refine iff_of_false (fun hq => ?_) (fun heq => hj (Option.some.inj heq).symm)
    cases (h j).mp hq

omit [Fintype ι] in
theorem Marks.leave (h : Marks q f m) (hi : q (f i) = true) (ha : q a = false) :
    Marks q (Function.update f i a) none := by
  intro j
  by_cases hj : j = i
  · subst hj
    rw [Function.update_self, ha]
    exact iff_of_false Bool.false_ne_true (Option.some_ne_none j).symm
  · rw [Function.update_of_ne hj]
    refine iff_of_false (fun hq => ?_) (Option.some_ne_none j).symm
    have heq : some j = some i := ((h j).mp hq).symm.trans ((h i).mp hi)
    exact hj (Option.some.inj heq)

omit [Fintype ι] [DecidableEq ι] in
/-- Threads that change places within the kind or outside of it. -/
theorem Marks.congr {g : ι → α} (h : Marks q f m) (hg : ∀ i, q (g i) = q (f i)) : Marks q g m := by
  intro j
  rw [hg j]
  exact h j

end Marks

end DbdkyGcc.Foundations
