import Mathlib

/-!
# Cells and their owners

A heap gives the cells that are live, by their addresses. `Owns` says of the addresses that the
variables of a program hold that they name each live cell once: no cell has two owners, none is
held after its deletion, and none is lost. Moving a cell from one variable to another permutes
the list, and deleting cells takes them off it.
-/

namespace DbdkyGcc.Foundations

variable {α : Type} {heap : Nat → Option α} {held held' ps : List Nat} {p : Nat}

/-- Delete some cells; `none` where one of them is not live. -/
def deleteAll (heap : Nat → Option α) : List Nat → Option (Nat → Option α)
  | [] => some heap
  | p :: ps => (heap p).bind fun _ => deleteAll (Function.update heap p none) ps

structure Owns (heap : Nat → Option α) (held : List Nat) : Prop where
  nodup : held.Nodup
  live : ∀ p, p ∈ held ↔ (heap p).isSome = true

namespace Owns

theorem exists_cell (h : Owns heap held) (hp : p ∈ held) : ∃ c, heap p = some c :=
  Option.isSome_iff_exists.mp ((h.live p).mp hp)

theorem not_mem (h : Owns heap held) (hfree : heap p = none) : p ∉ held := by
  rw [h.live, hfree]
  exact Bool.false_ne_true

theorem perm (h : Owns heap held) (hperm : held.Perm held') : Owns heap held' :=
  ⟨hperm.nodup_iff.mp h.nodup, fun p => hperm.mem_iff.symm.trans (h.live p)⟩

theorem allocate (h : Owns heap held) (hfree : heap p = none) (c : α) :
    Owns (Function.update heap p (some c)) (p :: held) := by
  refine ⟨List.nodup_cons.mpr ⟨h.not_mem hfree, h.nodup⟩, fun q => ?_⟩
  by_cases hq : q = p
  · rw [hq, Function.update_self]
    exact iff_of_true List.mem_cons_self rfl
  · rw [Function.update_of_ne hq, List.mem_cons, or_iff_right hq]
    exact h.live q

theorem store (h : Owns heap held) (hp : p ∈ held) (c : α) :
    Owns (Function.update heap p (some c)) held := by
  refine ⟨h.nodup, fun q => ?_⟩
  by_cases hq : q = p
  · rw [hq, Function.update_self]
    exact iff_of_true hp rfl
  · rw [Function.update_of_ne hq]
    exact h.live q

theorem delete (h : Owns heap (p :: held)) : Owns (Function.update heap p none) held := by
  obtain ⟨hnot, hnodup⟩ := List.nodup_cons.mp h.nodup
  refine ⟨hnodup, fun q => ?_⟩
  by_cases hq : q = p
  · rw [hq, Function.update_self]
    exact iff_of_false hnot Bool.false_ne_true
  · rw [Function.update_of_ne hq, ← h.live q, List.mem_cons, or_iff_right hq]

/-- Cells that are held can be deleted, and the others are not touched. -/
theorem deleteAll (h : Owns heap (ps ++ held)) :
    ∃ heap', Foundations.deleteAll heap ps = some heap' ∧ Owns heap' held ∧
      ∀ q ∈ held, heap' q = heap q := by
  induction ps generalizing heap with
  | nil => exact ⟨heap, rfl, h, fun _ _ => rfl⟩
  | cons p ps ih =>
    obtain ⟨c, hc⟩ := h.exists_cell List.mem_cons_self
    obtain ⟨heap', hdelete, howns, hkeep⟩ := ih h.delete
    refine ⟨heap', ?_, howns, fun q hq => (hkeep q hq).trans (Function.update_of_ne ?_ ..)⟩
    · rw [Foundations.deleteAll, hc, Option.bind_some, hdelete]
    · rintro rfl
      exact (List.nodup_cons.mp h.nodup).1 (List.mem_append_right ps hq)

end Owns

end DbdkyGcc.Foundations
