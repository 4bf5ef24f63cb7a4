import Mathlib

/-!
# Lists whose elements know their place

A table in which every element records its position can be changed in constant time: a new
element goes to the end, and a removed one is replaced by the last. `Indexed` is the invariant
of the recorded positions.
-/

namespace DbdkyGcc.Foundations

variable {α β : Type}

/-- The places of a list with a new element at its end. -/
theorem getElem?_concat_cases {l : List α} {a x : α} {k : Nat} (h : (l ++ [a])[k]? = some x) :
    l[k]? = some x ∨ k = l.length ∧ x = a := by
  rw [List.getElem?_append] at h
  split at h
  · exact .inl h
  · next hk =>
    obtain ⟨hlt, hx⟩ := List.getElem?_eq_some_iff.mp h
    rw [List.length_singleton] at hlt
    exact .inr ⟨by omega, hx.symm.trans (List.getElem_singleton hlt)⟩

/-- Remove the element at a place by putting the last one there. -/
def swapRemove (l : List α) (i : Nat) : List α :=
  l.getLast?.elim [] fun last => (l.set i last).dropLast

theorem map_swapRemove (f : α → β) (l : List α) (i : Nat) :
    (swapRemove l i).map f = swapRemove (l.map f) i := by
  unfold swapRemove
  rw [List.getLast?_map]
  cases l.getLast? with
  | none => rfl
  | some last => rw [Option.elim_some, Option.map_some, Option.elim_some, List.map_dropLast, List.map_set]

/-- At the last place it only drops. -/
theorem swapRemove_last (l : List α) : swapRemove l (l.length - 1) = l.dropLast := by
  rcases List.eq_nil_or_concat l with rfl | ⟨l, x, rfl⟩
  · rfl
  · simp [swapRemove]

/-- The removed element and the rest make up the list. -/
theorem perm_swapRemove {l : List α} {i : Nat} {x : α} (h : l[i]? = some x) :
    l.Perm (x :: swapRemove l i) := by
  obtain ⟨hi, hx⟩ := List.getElem?_eq_some_iff.mp h
  have hne : l ≠ [] := List.ne_nil_of_length_pos (by omega)
  obtain ⟨last, hlast⟩ : ∃ last, l.getLast? = some last := ⟨_, List.getLast?_eq_some_getLast hne⟩
  obtain ⟨a, b, hl, -, hset⟩ := @List.exists_of_set _ i last l hi
  rw [hx] at hl
  rw [swapRemove, hlast, Option.elim_some, hset]
  rcases List.eq_nil_or_concat' b with rfl | ⟨b, z, rfl⟩
  · rw [List.dropLast_concat, hl]
    exact List.perm_append_singleton x a
  · have hz : z = last := by
      rw [hl, ← List.cons_append, ← List.append_assoc, List.getLast?_concat] at hlast
      exact Option.some.inj hlast
    have hmiddle : (a ++ x :: (b ++ [last])).Perm (x :: (a ++ (b ++ [last]))) := List.perm_middle
    have hlast : (a ++ (b ++ [last])).Perm (last :: (a ++ b)) := by
      rw [← List.append_assoc]
      exact List.perm_append_singleton last (a ++ b)
    have hmoved : (last :: (a ++ b)).Perm (a ++ last :: b) := List.perm_middle.symm
    rw [← List.cons_append, ← List.append_assoc, List.dropLast_concat, hl, hz]
    exact hmiddle.trans ((hlast.trans hmoved).cons x)

theorem mem_swapRemove {l : List α} {i : Nat} {x y : α} (hnodup : l.Nodup) (h : l[i]? = some x) :
    y ∈ swapRemove l i ↔ y ≠ x ∧ y ∈ l := by
  have hperm := perm_swapRemove h
  have hnot : x ∉ swapRemove l i := (List.nodup_cons.mp (hperm.nodup_iff.mp hnodup)).1
  rw [hperm.mem_iff, List.mem_cons]
  constructor
  · intro hy
    exact ⟨fun heq => hnot (heq ▸ hy), .inr hy⟩
  · rintro ⟨hne, hy⟩
    exact hy.resolve_left hne

theorem getElem?_swapRemove {l : List α} {i j : Nat} {x : α} (h : (swapRemove l i)[j]? = some x) :
    j = i ∧ l.getLast? = some x ∨ j < l.length - 1 ∧ l[j]? = some x := by
  unfold swapRemove at h
  cases hlast : l.getLast? with
  | none =>
    rw [hlast] at h
    cases h
  | some last =>
    rw [hlast, Option.elim_some, List.getElem?_dropLast, Option.ite_none_right_eq_some,
      List.getElem?_set] at h
    obtain ⟨hj, h⟩ := h
    rw [List.length_set] at hj
    split at h
    · next hij =>
      obtain ⟨-, h⟩ := Option.ite_none_right_eq_some.mp h
      exact .inl ⟨hij.symm, h⟩
    · exact .inr ⟨hj, h⟩

/-- Every element of the list records where it is. -/
def Indexed (index : α → Int) (l : List α) : Prop := ∀ (i : Nat) x, l[i]? = some x → index x = i

variable {index : α → Int} {l : List α}

theorem Indexed.nodup (h : Indexed index l) : l.Nodup := by
  rw [List.nodup_iff_injective_get]
  intro i j hij
  have hi := h i _ (List.getElem?_eq_getElem i.isLt)
  have hj := h j _ (List.getElem?_eq_getElem j.isLt)
  have hindex : index (l.get i) = index (l.get j) := congrArg index hij
  apply Fin.ext
  exact Int.natCast_inj.mp (hi.symm.trans (hindex.trans hj))

theorem Indexed.exists_getElem? (h : Indexed index l) {x : α} (hx : x ∈ l) :
    ∃ i : Nat, index x = i ∧ l[i]? = some x := by
  obtain ⟨i, hi⟩ := List.mem_iff_getElem?.mp hx
  exact ⟨i, h i x hi, hi⟩

variable [DecidableEq α]

theorem Indexed.append (h : Indexed index l) {x : α} (hx : x ∉ l) :
    Indexed (Function.update index x l.length) (l ++ [x]) := by
  intro i y hy
  rw [List.getElem?_append] at hy
  split at hy
  · rw [Function.update_of_ne]
    · exact h i y hy
    · rintro rfl
      exact hx (List.mem_of_getElem? hy)
  · next hi =>
    obtain ⟨hlt, rfl⟩ := List.getElem?_eq_some_iff.mp hy
    have hlen : i = l.length := by
      rw [List.length_singleton] at hlt
      omega
    rw [List.getElem_singleton, Function.update_self, hlen]

/-- The last element is told its new place. -/
theorem Indexed.swapRemove (h : Indexed index l) {last : α} (hlast : l.getLast? = some last)
    (i : Nat) : Indexed (Function.update index last i) (swapRemove l i) := by
  intro j y hy
  rcases getElem?_swapRemove hy with ⟨rfl, hlast'⟩ | ⟨hj, hy⟩
  · cases hlast.symm.trans hlast'
    exact Function.update_self ..
  · -- an element before the last is not the last
    rw [Function.update_of_ne]
    · exact h j y hy
    · rintro rfl
      rw [List.getLast?_eq_getElem?] at hlast
      have hlength := (h _ y hlast).symm.trans (h j y hy)
      omega

end DbdkyGcc.Foundations
