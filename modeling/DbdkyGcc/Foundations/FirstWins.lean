import Mathlib

/-!
# Tables whose first writer wins

`upsert m k v f` enters `v` under `k` when the key is free and then lets `f` work on the
entry that stands there; `ExtTreeMap.modify` only works on an entry. Both act at one key
(`ActsAt`), and everything about sequences of such steps follows from what they do to that
entry: two steps commute when they act at different keys or their actions commute
(`ActsAt.comm`), and after many steps an entry is what the steps at its key have made of it
(`getElem?_foldl`). `foldl_comm` lifts commuting steps to commuting blocks of steps.
-/

namespace DbdkyGcc.Foundations

open Std

section Fold

variable {σ α β : Type}

/-- Two blocks of steps commute when every step of the one commutes with every
step of the other. -/
theorem foldl_comm (f : σ → α → σ) (g : σ → β → σ) (xs : List α) (ys : List β)
    (h : ∀ x ∈ xs, ∀ y ∈ ys, ∀ s, g (f s x) y = f (g s y) x) (s : σ) :
    ys.foldl g (xs.foldl f s) = xs.foldl f (ys.foldl g s) := by
  induction xs generalizing s with
  | nil => rfl
  | cons x xs ih =>
    have hx : ∀ t, ys.foldl g (f t x) = f (ys.foldl g t) x := by
      intro t
      have hy : ∀ y ∈ ys, ∀ t, g (f t x) y = f (g t y) x :=
        fun y hy t => h x (by simp) y hy t
      clear ih h
      induction ys generalizing t with
      | nil => rfl
      | cons y ys ihy =>
        rw [List.foldl_cons, List.foldl_cons, hy y (by simp) t]
        exact ihy (g t y) fun z hz => hy z (by simp [hz])
    rw [List.foldl_cons, List.foldl_cons, ih (fun z hz => h z (by simp [hz])), hx]

/-- When all that pass the test are one value, the first that passes is that value. -/
theorem find?_eq_some_iff_of_forall {l : List α} {p : α → Bool} {v : α}
    (h : ∀ b ∈ l, p b = true → b = v) (a : α) :
    l.find? p = some a ↔ (∃ b ∈ l, p b = true) ∧ a = v := by
  constructor
  · intro ha
    have hmem := List.mem_of_find?_eq_some ha
    have hp := List.find?_some ha
    exact ⟨⟨a, hmem, hp⟩, h a hmem hp⟩
  · rintro ⟨hex, rfl⟩
    obtain ⟨c, hc⟩ := Option.isSome_iff_exists.mp (List.find?_isSome.mpr hex)
    rw [hc, h c (List.mem_of_find?_eq_some hc) (List.find?_some hc)]

end Fold

section Table

variable {κ α β : Type} [Ord κ] [TransOrd κ] [DecidableEq κ]

/-- Enter `v` under `k` unless the key is taken, then apply `f` to the entry. -/
def upsert (m : ExtTreeMap κ β) (k : κ) (v : β) (f : β → β) : ExtTreeMap κ β :=
  m.alter k fun o => some (f (o.getD v))

/-- The step changes the entry at `k` by `act` and no other. -/
def ActsAt (step : ExtTreeMap κ β → ExtTreeMap κ β) (k : κ) (act : Option β → Option β) : Prop :=
  ∀ m a, (step m)[a]? = if k = a then act m[a]? else m[a]?

section Lawful

variable [LawfulEqOrd κ]

theorem actsAt_upsert (k : κ) (v : β) (f : β → β) :
    ActsAt (fun m => upsert m k v f) k fun o => some (f (o.getD v)) := by
  intro m a
  by_cases h : k = a
  · subst h
    simp [upsert]
  · simp [upsert, ExtTreeMap.getElem?_alter, h]

theorem actsAt_modify (k : κ) (f : β → β) :
    ActsAt (fun m => m.modify k f) k (Option.map f) := by
  intro m a
  by_cases h : k = a
  · subst h
    simp
  · simp [ExtTreeMap.getElem?_modify, h]

/-- Entering only when the key is free is an `upsert` without work. -/
theorem insertIfNew_eq_upsert (m : ExtTreeMap κ β) (k : κ) (v : β) :
    m.insertIfNew k v = upsert m k v id := by
  apply ExtTreeMap.ext_getElem?
  intro a
  rw [actsAt_upsert k v id m a, ExtTreeMap.getElem?_insertIfNew]
  by_cases h : k = a
  · subst h
    by_cases hk : k ∈ m
    · rw [ExtTreeMap.getElem?_eq_some_getElem hk]
      simp [hk]
    · rw [ExtTreeMap.getElem?_eq_none hk]
      simp [hk]
  · simp [h]

end Lawful

namespace ActsAt

variable {s t : ExtTreeMap κ β → ExtTreeMap κ β} {k l : κ} {f g : Option β → Option β}

/-- One step after another at the same key. -/
theorem comp (ht : ActsAt t k g) (hs : ActsAt s k f) :
    ActsAt (fun m => t (s m)) k fun o => g (f o) := by
  intro m a
  rw [ht, hs]
  split <;> rfl

/-- Steps at different keys commute, and at one key they do when their actions do. -/
theorem comm [LawfulEqOrd κ] (hs : ActsAt s k f) (ht : ActsAt t l g) (h : k = l → ∀ o, g (f o) = f (g o))
    (m : ExtTreeMap κ β) : t (s m) = s (t m) := by
  apply ExtTreeMap.ext_getElem?
  intro a
  rw [ht, hs, hs, ht]
  by_cases hk : k = a
  · by_cases hl : l = a
    · rw [if_pos hk, if_pos hl, if_pos hk, if_pos hl]
      exact h (hk.trans hl.symm) _
    · rw [if_neg hl, if_pos hk, if_pos hk, if_neg hl]
  · rw [if_neg hk, if_neg hk]

/-- A step is determined by its key and its action. -/
theorem ext [LawfulEqOrd κ] (hs : ActsAt s k f) (ht : ActsAt t k g) (h : ∀ o, f o = g o) (m : ExtTreeMap κ β) :
    s m = t m := by
  apply ExtTreeMap.ext_getElem?
  intro a
  rw [hs, ht, h]

end ActsAt

/-- After a list of steps an entry is what the steps at its key have made of it, in order. -/
theorem getElem?_foldl {step : ExtTreeMap κ β → α → ExtTreeMap κ β} {key : α → κ}
    {act : α → Option β → Option β} (h : ∀ x, ActsAt (step · x) (key x) (act x)) (xs : List α)
    (m : ExtTreeMap κ β) (a : κ) :
    (xs.foldl step m)[a]? = (xs.filter fun x => key x = a).foldl (fun o x => act x o) m[a]? := by
  induction xs generalizing m with
  | nil => rfl
  | cons x xs ih =>
    rw [List.foldl_cons, ih, h x m a, List.filter_cons]
    by_cases hx : key x = a
    · simp [hx]
    · simp [hx]

end Table

end DbdkyGcc.Foundations
