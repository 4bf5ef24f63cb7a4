import Mathlib

/-!
# Writing into the fields of a record

A layout gives every field of a record its own bytes. A write is meant for one field, but
nothing keeps its bytes inside: `Confined` says that it alters no other byte of memory,
whatever memory holds, and `confined_iff` that this is a question of lengths. As long as the
writes are confined, a field holds what was written to it last (`holds_run`).
-/

namespace DbdkyGcc.Foundations

/-- The places of the fields in a record. -/
structure Layout (φ : Type) where
  offset : φ → ℕ
  size : φ → ℕ
  disjoint : ∀ {f g}, f ≠ g → offset f + size f ≤ offset g ∨ offset g + size g ≤ offset f

/-- Bytes that are written for a field, from a place in it on. -/
structure FieldWrite (φ : Type) where
  field : φ
  start : ℕ
  bytes : List UInt8
deriving DecidableEq

namespace Layout

variable {φ : Type} (L : Layout φ)

/-- Memory behind a write. -/
def apply (m : ℕ → UInt8) (w : FieldWrite φ) : ℕ → UInt8 := fun a =>
  if a < L.offset w.field + w.start then m a
  else w.bytes[a - (L.offset w.field + w.start)]?.getD (m a)

/-- Memory behind a sequence of writes. -/
def run (m : ℕ → UInt8) (ws : List (FieldWrite φ)) : ℕ → UInt8 := ws.foldl L.apply m

/-- The write alters no byte outside its field. -/
def Confined (w : FieldWrite φ) : Prop :=
  ∀ (m : ℕ → UInt8) (a : ℕ), a < L.offset w.field ∨ L.offset w.field + L.size w.field ≤ a →
    L.apply m w a = m a

/-- The field begins with these bytes. -/
def Holds (m : ℕ → UInt8) (f : φ) (bytes : List UInt8) : Prop :=
  ∀ i b, bytes[i]? = some b → m (L.offset f + i) = b

theorem apply_of_lt {m : ℕ → UInt8} {w : FieldWrite φ} {a : ℕ}
    (h : a < L.offset w.field + w.start) : L.apply m w a = m a := if_pos h

theorem apply_of_ge {m : ℕ → UInt8} {w : FieldWrite φ} {a : ℕ}
    (h : L.offset w.field + w.start + w.bytes.length ≤ a) : L.apply m w a = m a := by
  rw [apply, if_neg (by omega), List.getElem?_eq_none (by omega)]
  rfl

theorem apply_inside {m : ℕ → UInt8} {w : FieldWrite φ} {i : ℕ} {b : UInt8}
    (h : w.bytes[i]? = some b) : L.apply m w (L.offset w.field + w.start + i) = b := by
  rw [apply, if_neg (by omega), Nat.add_sub_cancel_left, h]
  rfl

/-- A write that is not empty is confined exactly if it ends inside its field. -/
theorem confined_iff {w : FieldWrite φ} (hw : w.bytes ≠ []) :
    L.Confined w ↔ w.start + w.bytes.length ≤ L.size w.field := by
  have hpos := List.length_pos_iff.mpr hw
  constructor
  · intro h
    by_contra hlong
    -- The last byte lies behind the field; memory that held another one is altered there.
    obtain ⟨b, hb⟩ : ∃ b, w.bytes[w.bytes.length - 1]? = some b :=
      ⟨_, List.getElem?_eq_getElem (by omega)⟩
    have hlast := L.apply_inside (m := fun _ => b + 1) hb
    rw [h _ _ (.inr (by omega))] at hlast
    simp at hlast
  · rintro h m a (ha | ha)
    · exact L.apply_of_lt (by omega)
    · exact L.apply_of_ge (by omega)

theorem length_le_of_confined {f : φ} {bytes : List UInt8} (h : L.Confined ⟨f, 0, bytes⟩) :
    bytes.length ≤ L.size f := by
  by_cases hbytes : bytes = []
  · rw [hbytes]
    exact Nat.zero_le _
  · have hend := (L.confined_iff hbytes).mp h
    rwa [Nat.zero_add] at hend

/-- A confined write leaves the other fields alone. -/
theorem holds_apply_of_ne {m : ℕ → UInt8} {w : FieldWrite φ} {f : φ} {bytes : List UInt8}
    (hw : L.Confined w) (hf : f ≠ w.field) (hfit : bytes.length ≤ L.size f)
    (h : L.Holds m f bytes) : L.Holds (L.apply m w) f bytes := by
  intro i b hb
  have hi : i < bytes.length := (List.getElem?_eq_some_iff.mp hb).1
  rw [hw, h i b hb]
  have := L.disjoint hf
  omega

theorem holds_apply_self (m : ℕ → UInt8) (f : φ) (bytes : List UInt8) :
    L.Holds (L.apply m ⟨f, 0, bytes⟩) f bytes := fun _ _ hb => L.apply_inside hb

/-- A field holds what is written to it, if the other writes are confined. -/
theorem holds_run {ws : List (FieldWrite φ)} {f : φ} {bytes : List UInt8}
    (hws : ∀ w ∈ ws, L.Confined w) (hf : ∀ w ∈ ws, w.field = f → w = ⟨f, 0, bytes⟩)
    (hfit : bytes.length ≤ L.size f) {m : ℕ → UInt8}
    (h : L.Holds m f bytes ∨ ⟨f, 0, bytes⟩ ∈ ws) : L.Holds (L.run m ws) f bytes := by
  induction ws generalizing m with
  | nil =>
    rcases h with h | h
    · exact h
    · cases h
  | cons w ws ih =>
    have hrest := ih (fun v hv => hws v (List.mem_cons_of_mem w hv))
      (fun v hv => hf v (List.mem_cons_of_mem w hv)) (m := L.apply m w)
    apply hrest
    by_cases hfield : w.field = f
    · rw [hf w List.mem_cons_self hfield]
      exact .inl (L.holds_apply_self m f bytes)
    · rcases h with h | h
      · exact .inl (L.holds_apply_of_ne (hws w List.mem_cons_self) (Ne.symm hfield) hfit h)
      · refine .inr ((List.mem_cons.mp h).resolve_left fun heq => hfield ?_)
        rw [← heq]

/-- A text that is continued where its terminator stands. -/
theorem apply_append (m : ℕ → UInt8) (f : φ) (xs ys : List UInt8) (z : UInt8) (hy : ys ≠ []) :
    L.apply (L.apply m ⟨f, 0, xs ++ [z]⟩) ⟨f, xs.length, ys⟩ = L.apply m ⟨f, 0, xs ++ ys⟩ := by
  have hpos := List.length_pos_iff.mpr hy
  funext a
  simp only [apply, Nat.add_zero]
  by_cases hfield : a < L.offset f
  · rw [if_pos (by omega), if_pos hfield, if_pos hfield]
  · rw [if_neg hfield]
    by_cases hxs : a < L.offset f + xs.length
    · rw [if_pos hxs, if_neg hfield, List.getElem?_append_left (by omega),
        List.getElem?_append_left (by omega)]
    · rw [if_neg hxs, if_neg hfield, List.getElem?_append_right (by omega : xs.length ≤ _),
        List.getElem?_append_right (by omega : xs.length ≤ _), Nat.sub_sub]
      by_cases hys : a - (L.offset f + xs.length) < ys.length
      · rw [List.getElem?_eq_getElem hys]
        rfl
      · rw [List.getElem?_eq_none (by omega : ys.length ≤ _),
          List.getElem?_eq_none (by rw [List.length_singleton]; omega)]
        rfl

end Layout

end DbdkyGcc.Foundations
