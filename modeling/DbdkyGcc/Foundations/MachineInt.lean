import Mathlib

/-!
# Signed machine integers

The value of an expression of a signed type is undefined once one of its
operations has left the range of the type. A `Checked w` is such an expression
over `w` bits: an integer of the range, or nothing. Its operations are those of
the program text, so that a formula can be read against the source; the rules
`cast_add`, `cast_sub`, `cast_mul` and `cast_div` take a formula whose parts all
stay in range to the same formula over the integers.
-/

namespace DbdkyGcc.Foundations

/-- The integers that a signed type of `w` bits holds. -/
def Fits (w : Nat) (x : Int) : Prop := -(2 : Int) ^ (w - 1) ≤ x ∧ x < (2 : Int) ^ (w - 1)

instance (w : Nat) (x : Int) : Decidable (Fits w x) := instDecidableAnd

theorem fits_int {x : Int} : Fits 32 x ↔ -2147483648 ≤ x ∧ x ≤ 2147483647 := by
  show -(2 : Int) ^ 31 ≤ x ∧ x < (2 : Int) ^ 31 ↔ _
  omega

theorem fits_long {x : Int} :
    Fits 64 x ↔ -9223372036854775808 ≤ x ∧ x ≤ 9223372036854775807 := by
  show -(2 : Int) ^ 63 ≤ x ∧ x < (2 : Int) ^ 63 ↔ _
  omega

/-- The low bits of a number in range are the number. -/
theorem bmod_of_fits {w : Nat} {x : Int} (hw : 0 < w) (h : Fits w x) : Int.bmod x (2 ^ w) = x := by
  obtain ⟨k, rfl⟩ : ∃ k, w = k + 1 := ⟨w - 1, by omega⟩
  have hrange : -(2 : Int) ^ k ≤ x ∧ x < (2 : Int) ^ k := h
  have hp : ((2 ^ (k + 1) : Nat) : Int) = 2 * 2 ^ k := by
    push_cast
    ring
  apply Int.bmod_eq_of_le <;> rw [hp] <;> omega

/-- A quotient by more than one is smaller than the number. -/
theorem Fits.tdiv {w : Nat} {x y : Int} (h : Fits w x) (hy : 1 < y) : Fits w (x.tdiv y) := by
  obtain ⟨hlow, hhigh⟩ := h
  have habs : (x.tdiv y).natAbs = x.natAbs / y.natAbs := Int.natAbs_tdiv x y
  have hhalf : x.natAbs / y.natAbs ≤ x.natAbs / 2 := Nat.div_le_div_left (by omega) (by decide)
  have hpow : (0 : Int) < 2 ^ (w - 1) := by positivity
  unfold Fits
  omega

/-- The quotient rounded towards zero is one more than the one rounded down where the remainder is
negative. -/
theorem tdiv_tmod_cases (x : Int) {y : Int} (hy : 0 < y) :
    (0 ≤ x.tmod y ∧ x.tdiv y = x / y ∧ x.tmod y = x % y) ∨
      (x.tmod y < 0 ∧ x.tdiv y = x / y + 1 ∧ x.tmod y = x % y - y) := by
  have hmod₀ := Int.emod_nonneg x (Int.ne_of_gt hy)
  have hmod₁ := Int.emod_lt_of_pos x hy
  rw [Int.tdiv_eq_ediv, Int.tmod_eq_emod]
  by_cases h : 0 ≤ x ∨ y ∣ x
  · rw [if_pos h, if_pos h]
    omega
  · rw [if_neg h, if_neg h, Int.sign_eq_one_of_pos hy]
    omega

/-- A signed expression of `w` bits: its value, or nothing once an operation has overflowed. -/
structure Checked (w : Nat) where
  value : Option Int
  deriving DecidableEq, Repr

namespace Checked

variable {w : Nat}

/-- An integer as a value of the type. -/
def check (x : Int) : Checked w := ⟨if Fits w x then some x else none⟩

instance : IntCast (Checked w) := ⟨check⟩

instance (n : Nat) : OfNat (Checked w) n := ⟨check n⟩

/-- A binary operation, defined where `ok` allows its operands and its result is in range. -/
def op (ok : Int → Int → Bool) (f : Int → Int → Int) (e e' : Checked w) : Checked w :=
  ⟨e.value.bind fun x => e'.value.bind fun y =>
    if ok x y then (check (w := w) (f x y)).value else none⟩

instance : Add (Checked w) := ⟨op (fun _ _ => true) (· + ·)⟩

instance : Sub (Checked w) := ⟨op (fun _ _ => true) (· - ·)⟩

instance : Mul (Checked w) := ⟨op (fun _ _ => true) (· * ·)⟩

instance : Div (Checked w) := ⟨op (fun _ y => y ≠ 0) Int.tdiv⟩

/-- The remainder is defined where the quotient is. -/
instance : Mod (Checked w) := ⟨op (fun x y => y ≠ 0 && Fits w (x.tdiv y)) Int.tmod⟩

/-- The conversion to a type of `v` bits, which keeps the low bits. -/
def convert (v : Nat) (e : Checked w) : Checked v :=
  ⟨e.value.map fun x => Int.bmod x (2 ^ v)⟩

theorem value_cast {x : Int} (h : Fits w x) : (x : Checked w).value = some x := if_pos h

theorem ofNat_eq (n : Nat) [n.AtLeastTwo] :
    (OfNat.ofNat n : Checked w) = ((OfNat.ofNat n : Int) : Checked w) := rfl

theorem one_eq : (1 : Checked w) = ((1 : Int) : Checked w) := rfl

theorem op_cast {ok : Int → Int → Bool} {f : Int → Int → Int} {x y : Int} (hx : Fits w x)
    (hy : Fits w y) (hok : ok x y) :
    op ok f (x : Checked w) (y : Checked w) = ((f x y : Int) : Checked w) := by
  unfold op
  rw [value_cast hx, value_cast hy, Option.bind_some, Option.bind_some, if_pos hok]
  rfl

theorem cast_add {x y : Int} (hx : Fits w x) (hy : Fits w y) :
    (x : Checked w) + (y : Checked w) = ((x + y : Int) : Checked w) := op_cast hx hy rfl

theorem cast_sub {x y : Int} (hx : Fits w x) (hy : Fits w y) :
    (x : Checked w) - (y : Checked w) = ((x - y : Int) : Checked w) := op_cast hx hy rfl

theorem cast_mul {x y : Int} (hx : Fits w x) (hy : Fits w y) :
    (x : Checked w) * (y : Checked w) = ((x * y : Int) : Checked w) := op_cast hx hy rfl

theorem cast_tdiv {x y : Int} (hx : Fits w x) (hy : Fits w y) (h : y ≠ 0) :
    (x : Checked w) / (y : Checked w) = ((x.tdiv y : Int) : Checked w) :=
  op_cast hx hy (decide_eq_true h)

theorem cast_tmod {x y : Int} (hx : Fits w x) (hy : Fits w y) (h : y ≠ 0)
    (hq : Fits w (x.tdiv y)) :
    (x : Checked w) % (y : Checked w) = ((x.tmod y : Int) : Checked w) :=
  op_cast hx hy (by simp [h, hq])

theorem value_add {x y : Int} (hx : Fits w x) (hy : Fits w y) (h : Fits w (x + y)) :
    ((x : Checked w) + (y : Checked w)).value = some (x + y) := by
  rw [cast_add hx hy, value_cast h]

theorem value_sub {x y : Int} (hx : Fits w x) (hy : Fits w y) (h : Fits w (x - y)) :
    ((x : Checked w) - (y : Checked w)).value = some (x - y) := by
  rw [cast_sub hx hy, value_cast h]

/-- Of a number that is not negative the quotient is rounded down. -/
theorem cast_div {x y : Int} (hx : Fits w x) (hy : Fits w y) (hx₀ : 0 ≤ x) (h : y ≠ 0) :
    (x : Checked w) / (y : Checked w) = ((x / y : Int) : Checked w) := by
  rw [cast_tdiv hx hy h, Int.tdiv_eq_ediv_of_nonneg hx₀]

/-- A number that the narrower type holds is kept by the conversion. -/
theorem convert_cast {v : Nat} {x : Int} (hw : Fits w x) (hv : Fits v x) (h₀ : 0 < v) :
    convert v (x : Checked w) = (x : Checked v) := by
  show Checked.mk ((x : Checked w).value.map _) = ⟨if Fits v x then some x else none⟩
  rw [value_cast hw, if_pos hv, Option.map_some, bmod_of_fits h₀ hv]

end Checked

end DbdkyGcc.Foundations
