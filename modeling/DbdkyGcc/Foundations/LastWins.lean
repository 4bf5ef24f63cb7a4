import Mathlib

/-!
# Lists whose last value wins

Some elements of a list give a value, and the last of these counts: `lastSome`. It is what is
left of a variable that is overwritten on the way through the list (`foldl_override`).
-/

namespace DbdkyGcc.Foundations

variable {α β γ σ : Type} {f : α → Option β}

/-- The value of the last element that has one. -/
def lastSome (f : α → Option β) (l : List α) : Option β := l.reverse.findSome? f

@[simp] theorem lastSome_nil : lastSome f [] = none := rfl

theorem lastSome_append (xs ys : List α) :
    lastSome f (xs ++ ys) = (lastSome f ys).or (lastSome f xs) := by
  rw [lastSome, List.reverse_append, List.findSome?_append]
  rfl

theorem lastSome_cons (x : α) (xs : List α) : lastSome f (x :: xs) = (lastSome f xs).or (f x) := by
  rw [← List.singleton_append, lastSome_append]
  congr 1
  rw [lastSome, List.reverse_singleton, List.findSome?_singleton]

theorem lastSome_eq_none {l : List α} (h : ∀ x ∈ l, f x = none) : lastSome f l = none :=
  List.findSome?_eq_none_iff.mpr fun x hx => h x (List.mem_reverse.mp hx)

/-- The value comes from an element behind which none has a value. -/
theorem lastSome_eq_some_iff {l : List α} {b : β} : lastSome f l = some b ↔
    ∃ before x behind, l = before ++ x :: behind ∧ f x = some b ∧ ∀ y ∈ behind, f y = none := by
  rw [lastSome, List.findSome?_eq_some_iff]
  constructor
  · rintro ⟨behind, x, before, hl, hb, hnone⟩
    refine ⟨before.reverse, x, behind.reverse, ?_, hb, fun y hy => hnone y (List.mem_reverse.mp hy)⟩
    rw [← List.reverse_reverse l, hl]
    simp
  · rintro ⟨before, x, behind, rfl, hb, hnone⟩
    refine ⟨behind.reverse, x, before.reverse, ?_, hb, fun y hy => hnone y (List.mem_reverse.mp hy)⟩
    simp

/-- Where all values are the same, the last one is any of them. -/
theorem lastSome_eq_some {l : List α} {b : β} {x : α} (hx : x ∈ l) (hb : f x = some b)
    (h : ∀ y ∈ l, ∀ b', f y = some b' → b' = b) : lastSome f l = some b := by
  cases hlast : lastSome f l with
  | none =>
    have hnone := List.findSome?_eq_none_iff.mp hlast x (List.mem_reverse.mpr hx)
    rw [hb] at hnone
    cases hnone
  | some b' =>
    obtain ⟨y, hy, hb'⟩ := List.exists_of_findSome?_eq_some hlast
    rw [h y (List.mem_reverse.mp hy) b' hb']

/-- Then the order of the list does not matter. -/
theorem lastSome_perm {l l' : List α} (hperm : l'.Perm l)
    (h : ∀ x ∈ l, ∀ y ∈ l, ∀ b b', f x = some b → f y = some b' → b = b') :
    lastSome f l' = lastSome f l := by
  cases hlast : lastSome f l with
  | none =>
    refine lastSome_eq_none fun x hx => ?_
    exact List.findSome?_eq_none_iff.mp hlast x (List.mem_reverse.mpr (hperm.mem_iff.mp hx))
  | some b =>
    obtain ⟨x, hx, hb⟩ := List.exists_of_findSome?_eq_some hlast
    rw [List.mem_reverse] at hx
    refine lastSome_eq_some (hperm.mem_iff.mpr hx) hb fun y hy b' hb' => ?_
    exact h y (hperm.mem_iff.mp hy) x hx b' b hb' hb

theorem lastSome_map_value (g : β → γ) (l : List α) :
    lastSome (fun x => (f x).map g) l = (lastSome f l).map g := by
  rw [lastSome, lastSome, List.map_findSome?]
  rfl

theorem foldl_override {get : σ → β} {step : σ → α → σ}
    (h : ∀ s x, get (step s x) = (f x).getD (get s)) (l : List α) (s : σ) :
    get (l.foldl step s) = (lastSome f l).getD (get s) := by
  induction l generalizing s with
  | nil => rfl
  | cons x l ih =>
    rw [List.foldl_cons, ih, h, lastSome_cons]
    cases lastSome f l with
    | none => rfl
    | some v => rfl

/-- What overwrites every value in the same way is the same. -/
theorem eq_of_forall_getD [Nontrivial β] {a b : Option β} (h : ∀ x, a.getD x = b.getD x) :
    a = b := by
  cases a with
  | none =>
    cases b with
    | none => rfl
    | some y =>
      obtain ⟨x, hx⟩ := exists_ne y
      exact absurd (h x) hx
  | some y =>
    cases b with
    | none =>
      obtain ⟨x, hx⟩ := exists_ne y
      exact absurd (h x).symm hx
    | some z => exact congrArg some (h y)

end DbdkyGcc.Foundations
