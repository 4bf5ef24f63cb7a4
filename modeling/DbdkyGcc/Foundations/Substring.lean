import Mathlib

/-!
# Substrings

`findSub` is the position of the first occurrence of a pattern in a text.
-/

namespace DbdkyGcc.Foundations

variable {α : Type} [DecidableEq α]

/-- `text.find(pat)` -/
def findSub (pat : List α) : List α → Option ℕ
  | [] => if pat = [] then some 0 else none
  | c :: text => if pat <+: c :: text then some 0 else (findSub pat text).map (· + 1)

variable {pat text : List α}

theorem findSub_of_prefix (h : pat <+: text) : findSub pat text = some 0 := by
  cases text with
  | nil => rw [findSub, if_pos (List.prefix_nil.mp h)]
  | cons c text => rw [findSub, if_pos h]

/-- A pattern whose first element does not come again in it is found behind any text that does not
hold it: it cannot begin in that text and end behind it. -/
theorem findSub_append {head : α} {tail front : List α} (hhead : head ∉ tail)
    (h : ¬ head :: tail <:+: front) (rest : List α) :
    findSub (head :: tail) (front ++ (head :: tail ++ rest)) = some front.length := by
  induction front with
  | nil => exact findSub_of_prefix (List.prefix_append _ _)
  | cons c front ih =>
    have hnot : ¬ head :: tail <+: c :: front ++ (head :: tail ++ rest) := by
      intro hpat
      rcases List.prefix_or_prefix_of_prefix hpat (List.prefix_append (c :: front) _) with
        hinside | ⟨beyond, hbeyond⟩
      · exact h hinside.isInfix
      · cases beyond with
        | nil =>
          rw [List.append_nil] at hbeyond
          exact h (hbeyond ▸ List.infix_refl _)
        | cons d beyond =>
          have hd : d = head := by
            rw [← hbeyond, List.prefix_append_right_inj, hbeyond] at hpat
            exact (List.cons_prefix_cons.mp hpat).1
          obtain ⟨-, htail⟩ := List.cons.inj hbeyond
          exact hhead (by rw [← htail, ← hd]; simp)
    rw [List.cons_append] at hnot ⊢
    rw [findSub, if_neg hnot, ih fun hinside =>
      h (hinside.trans (List.suffix_cons c front).isInfix)]
    rfl

end DbdkyGcc.Foundations
