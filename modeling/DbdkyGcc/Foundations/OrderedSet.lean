import Mathlib

/-!
# Ordered sets

A set whose elements are visited in increasing order, kept as the list of its elements.
`below` and `dropBelow` cut a set at a key, where a lower bound of the key is found.
-/

namespace DbdkyGcc.Foundations

/-- A finite set, as the increasing list of its elements. -/
structure OrderedSet (α : Type) [LinearOrder α] where
  toList : List α
  sorted : toList.Pairwise (· < ·)

namespace OrderedSet

variable {α : Type} [LinearOrder α] {a b key : α} {s : OrderedSet α}

instance : Membership α (OrderedSet α) := ⟨fun s a => a ∈ s.toList⟩

instance (a : α) (s : OrderedSet α) : Decidable (a ∈ s) :=
  inferInstanceAs (Decidable (a ∈ s.toList))

instance : EmptyCollection (OrderedSet α) := ⟨⟨[], List.Pairwise.nil⟩⟩

theorem not_mem_empty (a : α) : a ∉ (∅ : OrderedSet α) := List.not_mem_nil

def size (s : OrderedSet α) : Nat := s.toList.length

/-- The least element. -/
def first (s : OrderedSet α) : Option α := s.toList.head?

theorem mem_of_first (h : s.first = some a) : a ∈ s := List.mem_of_head? h

theorem first_eq_none_iff : s.first = none ↔ ∀ a, a ∉ s := by
  rw [first, List.head?_eq_none_iff, List.eq_nil_iff_forall_not_mem]
  rfl

theorem first_le (h : s.first = some a) (hb : b ∈ s) : a ≤ b := by
  obtain ⟨l, hs⟩ := s
  cases l with
  | nil => cases h
  | cons x l =>
    cases h
    rcases List.mem_cons.mp hb with rfl | hb
    · exact le_rfl
    · exact ((List.pairwise_cons.mp hs).1 b hb).le

def insert (a : α) (s : OrderedSet α) : OrderedSet α where
  toList := s.toList.filter (· < a) ++ a :: s.toList.filter (a < ·)
  sorted := by
    rw [List.pairwise_append, List.pairwise_cons]
    refine ⟨s.sorted.filter _, ⟨?_, s.sorted.filter _⟩, ?_⟩
    · intro x hx
      simpa using (List.mem_filter.mp hx).2
    · intro x hx y hy
      have hxa : x < a := by simpa using (List.mem_filter.mp hx).2
      rcases List.mem_cons.mp hy with rfl | hy
      · exact hxa
      · exact hxa.trans (by simpa using (List.mem_filter.mp hy).2)

@[simp] theorem mem_insert : b ∈ s.insert a ↔ b = a ∨ b ∈ s := by
  change b ∈ s.toList.filter (· < a) ++ a :: s.toList.filter (a < ·) ↔ _ ∨ b ∈ s.toList
  rw [List.mem_append, List.mem_cons, List.mem_filter, List.mem_filter]
  rcases lt_trichotomy b a with h | rfl | h
  · simp [h, h.not_gt, or_comm]
  · simp
  · simp [h, h.not_gt]

def erase (a : α) (s : OrderedSet α) : OrderedSet α where
  toList := s.toList.filter (· ≠ a)
  sorted := s.sorted.filter _

@[simp] theorem mem_erase : b ∈ s.erase a ↔ b ≠ a ∧ b ∈ s := by
  change b ∈ s.toList.filter (· ≠ a) ↔ _ ∧ b ∈ s.toList
  rw [List.mem_filter]
  simp [and_comm]

theorem nodup (s : OrderedSet α) : s.toList.Nodup := s.sorted.imp ne_of_lt

theorem size_eq_card (s : OrderedSet α) : s.size = s.toList.toFinset.card :=
  (List.toFinset_card_of_nodup s.nodup).symm

theorem size_insert_of_not_mem (h : a ∉ s) : (s.insert a).size = s.size + 1 := by
  have hset : (s.insert a).toList.toFinset = Insert.insert a s.toList.toFinset := by
    ext b
    rw [List.mem_toFinset, Finset.mem_insert, List.mem_toFinset]
    exact mem_insert
  have ha : a ∉ s.toList.toFinset := fun hmem => h (List.mem_toFinset.mp hmem)
  rw [size_eq_card, size_eq_card, hset, Finset.card_insert_of_notMem ha]

theorem size_erase_of_mem (h : a ∈ s) : (s.erase a).size + 1 = s.size := by
  have hset : (s.erase a).toList.toFinset = s.toList.toFinset.erase a := by
    ext b
    rw [List.mem_toFinset, Finset.mem_erase, List.mem_toFinset]
    exact mem_erase
  have ha : a ∈ s.toList.toFinset := List.mem_toFinset.mpr h
  rw [size_eq_card, size_eq_card, hset, Finset.card_erase_add_one ha]

/-- The elements before the first one that is not below the key. -/
def below (key : α) (s : OrderedSet α) : List α := s.toList.takeWhile (· < key)

/-- The set without these elements. -/
def dropBelow (key : α) (s : OrderedSet α) : OrderedSet α where
  toList := s.toList.dropWhile (· < key)
  sorted := s.sorted.sublist (List.dropWhile_sublist _)

theorem length_below_add_size (key : α) (s : OrderedSet α) :
    (s.below key).length + (s.dropBelow key).size = s.size := by
  rw [below, dropBelow, size, size, ← List.length_append, List.takeWhile_append_dropWhile]

theorem nodup_below (key : α) (s : OrderedSet α) : (s.below key).Nodup :=
  s.nodup.sublist (List.takeWhile_sublist _)

/-- The elements below the key stand first. -/
theorem below_eq_filter (key : α) (s : OrderedSet α) :
    s.below key = s.toList.filter (· < key) := by
  obtain ⟨l, hs⟩ := s
  change l.takeWhile _ = l.filter _
  induction l with
  | nil => rfl
  | cons x l ih =>
    obtain ⟨hx, hl⟩ := List.pairwise_cons.mp hs
    by_cases hkey : x < key
    · rw [List.takeWhile_cons_of_pos (by simpa using hkey),
        List.filter_cons_of_pos (by simpa using hkey), ih hl]
    · rw [List.takeWhile_cons_of_neg (by simpa using hkey), eq_comm, List.filter_eq_nil_iff]
      intro a ha hlt
      rcases List.mem_cons.mp ha with rfl | ha
      · exact hkey (of_decide_eq_true hlt)
      · exact hkey ((hx a ha).trans (of_decide_eq_true hlt))

theorem mem_below : a ∈ s.below key ↔ a ∈ s ∧ a < key := by
  rw [below_eq_filter, List.mem_filter, decide_eq_true_iff]
  rfl

theorem mem_dropBelow : a ∈ s.dropBelow key ↔ a ∈ s ∧ ¬a < key := by
  have happ : s.below key ++ (s.dropBelow key).toList = s.toList := List.takeWhile_append_dropWhile
  have hdisj := List.disjoint_of_nodup_append (happ ▸ s.nodup)
  have hmem : a ∈ s ↔ a ∈ s.below key ∨ a ∈ s.dropBelow key := by
    change a ∈ s.toList ↔ a ∈ s.below key ∨ a ∈ (s.dropBelow key).toList
    rw [← List.mem_append, happ]
  constructor
  · intro h
    refine ⟨hmem.mpr (.inr h), fun hlt => ?_⟩
    exact hdisj (mem_below.mpr ⟨hmem.mpr (.inr h), hlt⟩) h
  · rintro ⟨ha, hlt⟩
    rcases hmem.mp ha with h | h
    · exact absurd (mem_below.mp h).2 hlt
    · exact h

end OrderedSet

end DbdkyGcc.Foundations
