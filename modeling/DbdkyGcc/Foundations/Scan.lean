import Mathlib

/-!
# Searches through memory

Two searches of the standard libraries, with the positions they read: for one element (`memchr`)
and for a pair (`std::search`). Both stop at their first find, and a position outside the memory
ends them.
-/

namespace DbdkyGcc.Foundations

/-- What a search has read, and where it has found something. -/
structure Scan where
  examined : List ℕ
  found : Option ℕ
deriving DecidableEq

/-- The first position from `lo` up to `hi` with the property, if there is one. -/
def IsFirst (p : ℕ → Prop) (lo hi : ℕ) : Option ℕ → Prop
  | none => ∀ i, lo ≤ i → i < hi → ¬p i
  | some i => (lo ≤ i ∧ i < hi ∧ p i) ∧ ∀ j, lo ≤ j → j < i → ¬p j

section IsFirst

variable {p : ℕ → Prop} {lo hi : ℕ}

theorem IsFirst.here (h : p lo) (hlt : lo < hi) : IsFirst p lo hi (some lo) :=
  ⟨⟨le_rfl, hlt, h⟩, fun j hlo hj => absurd hj (by omega)⟩

theorem IsFirst.cons {found : Option ℕ} (hlo : ¬p lo) (h : IsFirst p (lo + 1) hi found) :
    IsFirst p lo hi found := by
  have hstep : ∀ j, lo ≤ j → (lo + 1 ≤ j → ¬p j) → ¬p j := by
    intro j hj hrest
    rcases Nat.eq_or_lt_of_le hj with rfl | hlt
    · exact hlo
    · exact hrest hlt
  cases found with
  | none => exact fun i hi hlt => hstep i hi fun hi => h i hi hlt
  | some i =>
    obtain ⟨⟨hle, hlt, hp⟩, hbefore⟩ := h
    exact ⟨⟨by omega, hlt, hp⟩, fun j hj hji => hstep j hj fun hj => hbefore j hj hji⟩

/-- There is always a first one, or none. -/
theorem exists_isFirst (p : ℕ → Prop) [DecidablePred p] (lo hi : ℕ)
    (h : ∃ i, lo ≤ i ∧ i < hi ∧ p i) : ∃ i, IsFirst p lo hi (some i) := by
  have hspec := Nat.find_spec h
  refine ⟨Nat.find h, hspec, fun j hlo hj hp => Nat.find_min h hj ⟨hlo, ?_, hp⟩⟩
  exact hj.trans hspec.2.1

end IsFirst

variable {α : Type} [DecidableEq α]

/-- `memchr` over `n` positions from `s` on. -/
def memchr (v : List α) (c : α) : ℕ → ℕ → Option Scan
  | _, 0 => some ⟨[], none⟩
  | s, n + 1 => v[s]?.bind fun x =>
    if x = c then some ⟨[s], some s⟩
    else (memchr v c (s + 1) n).map fun r => ⟨s :: r.examined, r.found⟩

/-- `std::search` for the pair `c`, `d` over `n` positions from `s` on. Where there is none it
returns the end. -/
def searchPair (v : List α) (c d : α) : ℕ → ℕ → Option (List ℕ × ℕ)
  | s, 0 => some ([], s)
  | s, n + 1 => v[s]?.bind fun x =>
    if x = c then
      if n = 0 then some ([s], s + 1)
      else v[s + 1]?.bind fun y =>
        if y = d then some ([s, s + 1], s)
        else (searchPair v c d (s + 1) n).map fun r => (s :: (s + 1) :: r.1, r.2)
    else (searchPair v c d (s + 1) n).map fun r => (s :: r.1, r.2)

variable {v : List α} {c d : α} {s n : ℕ}

/-- Inside the memory `memchr` finds the first one and reads no further than it is told. -/
theorem memchr_spec (h : s + n ≤ v.length) :
    ∃ r, memchr v c s n = some r ∧ IsFirst (fun i => v[i]? = some c) s (s + n) r.found ∧
      ∀ i ∈ r.examined, i < s + n := by
  induction n generalizing s with
  | zero => exact ⟨_, rfl, fun i hi hlt => absurd hlt (by omega), by simp⟩
  | succ n ih =>
    have hs : v[s]? = some (v.get ⟨s, by omega⟩) := List.getElem?_eq_getElem (by omega)
    rw [memchr, hs, Option.bind_some]
    by_cases hc : v.get ⟨s, by omega⟩ = c
    · rw [if_pos hc]
      refine ⟨_, rfl, IsFirst.here (by rw [hs, hc]) (by omega), ?_⟩
      simp
    · obtain ⟨r, hr, hfirst, hexamined⟩ := ih (s := s + 1) (by omega)
      rw [if_neg hc, hr, Option.map_some]
      refine ⟨_, rfl, IsFirst.cons (by rw [hs]; simpa using hc) ?_, ?_⟩
      · rwa [Nat.add_right_comm, Nat.add_assoc] at hfirst
      · intro i hi
        rcases List.mem_cons.mp hi with rfl | hi
        · omega
        · have := hexamined i hi
          omega

/-- Before it has come to the end of its count, `memchr` reads no further than its find. -/
theorem memchr_of_isFirst {hi i : ℕ} (h : IsFirst (fun i => v[i]? = some c) s hi (some i))
    (hn : i < s + n) :
    ∃ r, memchr v c s n = some r ∧ r.found = some i ∧ ∀ j ∈ r.examined, j ≤ i := by
  obtain ⟨⟨hsi, hihi, hci⟩, hbefore⟩ := h
  have hlength : i < v.length := (List.getElem?_eq_some_iff.mp hci).1
  induction n generalizing s with
  | zero => omega
  | succ n ih =>
    have hs : v[s]? = some (v.get ⟨s, by omega⟩) := List.getElem?_eq_getElem (by omega)
    rw [memchr, hs, Option.bind_some]
    rcases Nat.eq_or_lt_of_le hsi with rfl | hlt
    · have hc : v.get ⟨s, hlength⟩ = c := by
        rw [hs] at hci
        exact Option.some.inj hci
      rw [if_pos hc]
      exact ⟨_, rfl, rfl, by simp⟩
    · have hc : v.get ⟨s, by omega⟩ ≠ c := by
        intro hc
        exact hbefore s le_rfl hlt (hs.trans (congrArg some hc))
      obtain ⟨r, hr, hfound, hexamined⟩ := ih (by omega) (fun j hj => hbefore j (by omega)) hlt
      rw [if_neg hc, hr, Option.map_some]
      refine ⟨_, rfl, hfound, fun j hj => ?_⟩
      rcases List.mem_cons.mp hj with rfl | hj
      · exact hsi
      · exact hexamined j hj

/-- Where there is nothing to find, `memchr` reads all that it is told to read. -/
theorem mem_examined_memchr {w : ℕ} (hnone : ∀ i, s ≤ i → i < w → v[i]? ≠ some c) (hw : s ≤ w)
    (hn : w < s + n) {r : Scan} (h : memchr v c s n = some r) : w ∈ r.examined := by
  induction n generalizing s r with
  | zero => omega
  | succ n ih =>
    rw [memchr] at h
    obtain ⟨x, hx, h⟩ := Option.bind_eq_some_iff.mp h
    rcases Nat.eq_or_lt_of_le hw with rfl | hlt
    · split at h
      · cases h
        exact List.mem_cons_self
      · obtain ⟨r', -, rfl⟩ := Option.map_eq_some_iff.mp h
        exact List.mem_cons_self
    · rw [if_neg (by rintro rfl; exact hnone s le_rfl hlt hx)] at h
      obtain ⟨r', hr', rfl⟩ := Option.map_eq_some_iff.mp h
      refine List.mem_cons_of_mem _ (ih ?_ hlt (by omega) hr')
      exact fun i hi => hnone i (by omega)

/-- Inside the memory `searchPair` finds the first pair, or returns the end, and reads no
further. -/
theorem searchPair_spec (h : s + n ≤ v.length) :
    ∃ r, searchPair v c d s n = some r ∧
      IsFirst (fun i => i + 1 < s + n ∧ v[i]? = some c ∧ v[i + 1]? = some d) s (s + n)
        (if r.2 = s + n then none else some r.2) ∧
      ∀ i ∈ r.1, i < s + n := by
  induction n generalizing s with
  | zero =>
    refine ⟨_, rfl, ?_, by simp⟩
    simp only [Nat.add_zero, reduceIte]
    exact fun i hi hlt => absurd hlt (by omega)
  | succ n ih =>
    have hs : v[s]? = some (v.get ⟨s, by omega⟩) := List.getElem?_eq_getElem (by omega)
    have hend : s + 1 + n = s + (n + 1) := by omega
    obtain ⟨r, hr, hfirst, hexamined⟩ := ih (s := s + 1) (by omega)
    rw [hend] at hfirst hexamined
    rw [searchPair, hs, Option.bind_some]
    by_cases hc : v.get ⟨s, by omega⟩ = c
    · rw [if_pos hc]
      by_cases hn : n = 0
      · subst hn
        rw [if_pos rfl]
        refine ⟨_, rfl, ?_, by simp⟩
        simp only [if_pos, IsFirst]
        omega
      · have hs' : v[s + 1]? = some (v.get ⟨s + 1, by omega⟩) := List.getElem?_eq_getElem (by omega)
        rw [if_neg hn, hs', Option.bind_some]
        by_cases hd : v.get ⟨s + 1, by omega⟩ = d
        · rw [if_pos hd]
          refine ⟨_, rfl, ?_, ?_⟩
          · rw [if_neg (by simp)]
            exact IsFirst.here ⟨by omega, by rw [hs, hc], by rw [hs', hd]⟩ (by omega)
          · intro i hi
            simp only [List.mem_cons, List.not_mem_nil, or_false] at hi
            omega
        · rw [if_neg hd, hr, Option.map_some]
          refine ⟨_, rfl, IsFirst.cons ?_ hfirst, ?_⟩
          · rw [hs']
            simpa using fun _ _ => hd
          · intro i hi
            simp only [List.mem_cons] at hi
            rcases hi with rfl | rfl | hi
            · omega
            · omega
            · exact hexamined i hi
    · rw [if_neg hc, hr, Option.map_some]
      refine ⟨_, rfl, IsFirst.cons ?_ hfirst, ?_⟩
      · rw [hs]
        simpa using fun _ hc' => absurd hc' hc
      · intro i hi
        rcases List.mem_cons.mp hi with rfl | hi
        · omega
        · exact hexamined i hi

end DbdkyGcc.Foundations
