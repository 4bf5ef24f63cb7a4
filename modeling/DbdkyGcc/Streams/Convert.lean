import DbdkyGcc.Foundations.MachineInt
import DbdkyGcc.Foundations.Text

/-!
# Integers as text

`convert` takes the digits of a number from the last one on, with a remainder that is negative for
a negative number, and looks each up in a table that is mirrored at zero. So it never negates the
number, and the least number of a type is written like any other. `convertHex` is the same loop to
the base 16 for an address.
-/

namespace DbdkyGcc.Streams

open Foundations

/-- What the loop uses of an integer type of the language, and what its values stand for. -/
class Integral (T : Type) extends Mod T, Div T, LT T where
  literal : ℕ → T
  toInt : T → Int
  toInt_literal : ∀ {n}, n < 2 ^ 31 → toInt (literal n) = n
  toInt_injective : Function.Injective toInt
  toInt_mod : ∀ {a b : T}, 1 < toInt b → toInt (a % b) = (toInt a).tmod (toInt b)
  toInt_div : ∀ {a b : T}, 1 < toInt b → toInt (a / b) = (toInt a).tdiv (toInt b)
  lt_iff : ∀ {a b : T}, a < b ↔ toInt a < toInt b
  range : ∀ a : T, -2 ^ 63 ≤ toInt a ∧ toInt a < 2 ^ 64

open Integral

@[simp] theorem toInt_zero {T : Type} [Integral T] : toInt (literal 0 : T) = 0 :=
  toInt_literal (by decide)

@[simp] theorem toInt_ten {T : Type} [Integral T] : toInt (literal 10 : T) = 10 :=
  toInt_literal (by decide)

theorem natAbs_tdiv_lt {a b : Int} (hb : 1 < b) (hne : a.tdiv b ≠ 0) :
    (a.tdiv b).natAbs < a.natAbs := by
  rw [Int.natAbs_tdiv]
  refine Nat.div_lt_self ?_ (by omega)
  rw [Int.natAbs_pos]
  rintro rfl
  exact hne (Int.zero_tdiv b)

section Loop

variable {T : Type} [Integral T] [DecidableEq T]

/-- The loop of both functions: the characters in the order in which `p` goes over them. -/
def putDigits (table : Int → Option UInt8) (base : T) (hbase : 1 < toInt base) (i : T) :
    Option (List UInt8) := do
  let lsd := toInt (i % base)
  let c ← table lsd
  if _h : i / base ≠ literal 0 then
    let rest ← putDigits table base hbase (i / base)
    return c :: rest
  else return [c]
termination_by (toInt i).natAbs
decreasing_by
  rw [toInt_div hbase]
  refine natAbs_tdiv_lt hbase fun hzero => _h (toInt_injective ?_)
  rw [toInt_div hbase, hzero, toInt_zero]

omit [DecidableEq T] in
theorem div_ne_zero_iff {base : T} (hbase : 1 < toInt base) (i : T) :
    i / base ≠ literal 0 ↔ (toInt base).natAbs ≤ (toInt i).natAbs := by
  have hzero : i / base = literal 0 ↔ (toInt i).natAbs / (toInt base).natAbs = 0 := by
    rw [← toInt_injective.eq_iff, toInt_div hbase, toInt_zero, ← Int.natAbs_eq_zero,
      Int.natAbs_tdiv]
    rfl
  rw [Ne, hzero, Nat.div_eq_zero_iff]
  omega

/-- If the table has the digits, the loop leaves the digits of the number from the last one on. -/
theorem putDigits_eq {table : Int → Option UInt8} {base : T} (hbase : 1 < toInt base)
    (render : Char → UInt8) (htable : ∀ j : T, table (toInt (j % base)) =
      some (render (Nat.digitChar (toInt (j % base)).natAbs))) (i : T) :
    putDigits table base hbase i =
      some (((Nat.toDigits (toInt base).natAbs (toInt i).natAbs).map render).reverse) := by
  -- The number of digits that are left decreases with the absolute value.
  induction hn : (toInt i).natAbs using Nat.strong_induction_on generalizing i with
  | _ n ih =>
    subst hn
    have hone : 1 < (toInt base).natAbs := by omega
    have hlsd : (toInt (i % base)).natAbs = (toInt i).natAbs % (toInt base).natAbs := by
      rw [toInt_mod hbase, Int.natAbs_tmod]
    have hdiv := div_ne_zero_iff hbase i
    rw [putDigits, htable i, hlsd, Nat.toDigits_eq_if hone]
    by_cases hq : i / base ≠ literal 0
    · have hle := hdiv.mp hq
      have hquot : (toInt (i / base)).natAbs = (toInt i).natAbs / (toInt base).natAbs := by
        rw [toInt_div hbase, Int.natAbs_tdiv]
        rfl
      have hlt : (toInt i).natAbs / (toInt base).natAbs < (toInt i).natAbs :=
        Nat.div_lt_self (by omega) hone
      rw [Option.bind_eq_bind, Option.bind_some, dif_pos hq, if_neg (not_lt.mpr hle),
        ih _ hlt (i / base) hquot]
      simp
    · have hlt : (toInt i).natAbs < (toInt base).natAbs := not_le.mp (hdiv.not.mp hq)
      rw [Option.bind_eq_bind, Option.bind_some, dif_neg hq, if_pos hlt, Nat.mod_eq_of_lt hlt]
      rfl

end Loop

instance : Integral Int32 where
  literal := Int32.ofNat
  toInt := Int32.toInt
  toInt_literal := by
    intro n hn
    exact Int32.toInt_ofNat_of_lt (by omega)
  toInt_injective := fun _ _ => Int32.toInt_inj.mp
  toInt_mod := fun _ => Int32.toInt_mod _ _
  toInt_div := fun {a b} hb =>
    (Int32.toInt_div a b).trans
      (bmod_of_fits (by decide) (Fits.tdiv ⟨a.le_toInt, a.toInt_lt⟩ hb))
  lt_iff := Int32.lt_iff_toInt_lt
  range := by
    intro a
    have := a.le_toInt
    have := a.toInt_lt
    omega

instance : Integral Int64 where
  literal := Int64.ofNat
  toInt := Int64.toInt
  toInt_literal := by
    intro n hn
    exact Int64.toInt_ofNat_of_lt (by omega)
  toInt_injective := fun _ _ => Int64.toInt_inj.mp
  toInt_mod := fun _ => Int64.toInt_mod _ _
  toInt_div := fun {a b} hb =>
    (Int64.toInt_div a b).trans
      (bmod_of_fits (by decide) (Fits.tdiv ⟨a.le_toInt, a.toInt_lt⟩ hb))
  lt_iff := Int64.lt_iff_toInt_lt
  range := by
    intro a
    have := a.le_toInt
    have := a.toInt_lt
    omega

instance : Integral UInt32 where
  literal := UInt32.ofNat
  toInt a := a.toNat
  toInt_literal := by
    intro n hn
    rw [UInt32.toNat_ofNat_of_lt' (hn.trans (by decide))]
  toInt_injective := fun _ _ h => UInt32.toNat_inj.mp (Int.ofNat.inj h)
  toInt_mod := by
    intro a b _
    rw [UInt32.toNat_mod]
    rfl
  toInt_div := by
    intro a b _
    rw [UInt32.toNat_div]
    rfl
  lt_iff := by
    intro a b
    rw [UInt32.lt_iff_toNat_lt, Int.ofNat_lt]
  range := by
    intro a
    have := a.toNat_lt
    omega

instance : Integral UInt64 where
  literal := UInt64.ofNat
  toInt a := a.toNat
  toInt_literal := by
    intro n hn
    rw [UInt64.toNat_ofNat_of_lt' (hn.trans (by decide))]
  toInt_injective := fun _ _ h => UInt64.toNat_inj.mp (Int.ofNat.inj h)
  toInt_mod := by
    intro a b _
    rw [UInt64.toNat_mod]
    rfl
  toInt_div := by
    intro a b _
    rw [UInt64.toNat_div]
    rfl
  lt_iff := by
    intro a b
    rw [UInt64.lt_iff_toNat_lt, Int.ofNat_lt]
  range := by
    intro a
    have := a.toNat_lt
    omega

section Functions

/-- What stands at `buf` when a function returns, and what it returns. -/
structure Rendered where
  buf : List UInt8
  length : ℕ
  deriving DecidableEq, Repr

/-- The end of both functions: the terminator, and the characters in reverse. -/
def terminate (p : List UInt8) : Rendered :=
  let buf := p ++ [0]
  { buf := (buf.take p.length).reverse ++ buf.drop p.length
    length := p.length }

/-- An element of an array, if it has one at the index. -/
def index (array : List UInt8) (i : Int) : Option UInt8 :=
  if 0 ≤ i then array[i.toNat]? else none

def digits : List UInt8 := chars "9876543210123456789".toList

/-- The array that begins in the middle of `digits`. -/
def zero (lsd : Int) : Option UInt8 := index digits (9 + lsd)

def digitsHex : List UInt8 := chars "0123456789ABCDEF".toList

variable {T : Type} [Integral T] [DecidableEq T] [DecidableLT T]

def convert (value : T) : Option Rendered := do
  let p ← putDigits zero (literal 10) (by simp) value
  let p := if value < literal 0 then p ++ [0x2d] else p
  return terminate p

/-- A `uintptr_t` has 64 bits. -/
def convertHex (value : UInt64) : Option Rendered := do
  let p ← putDigits (index digitsHex) (16 : UInt64) (by decide) value
  return terminate p

/-- The text has been written with its terminator, its length is returned, and it has taken up no
more than 21 bytes. -/
def Renders (r : Option Rendered) (text : List Char) : Prop :=
  ∃ w, r = some w ∧ w.buf = chars text ++ [0] ∧ w.length = text.length ∧ w.buf.length ≤ 21

theorem terminate_reverse (text : List UInt8) :
    terminate text.reverse = ⟨text ++ [0], text.length⟩ := by
  simp [terminate]

theorem renders_terminate {text : List Char} (h : text.length ≤ 20) :
    Renders (some (terminate (chars text).reverse)) text := by
  refine ⟨_, rfl, ?_, ?_, ?_⟩
  · rw [terminate_reverse]
  · rw [terminate_reverse, length_chars]
  · rw [terminate_reverse, List.length_append, length_chars]
    exact Nat.succ_le_succ h

/-- The table has the digit of a remainder on both sides of its middle. -/
theorem zero_eq {d : Int} (h : d.natAbs < 10) :
    zero d = some (UInt8.ofNat (Nat.digitChar d.natAbs).toNat) := by
  have h₀ : -9 ≤ d := by omega
  have h₁ : d ≤ 9 := by omega
  interval_cases d <;> decide

theorem digitsHex_eq {d : Int} (h : d.natAbs < 16) (h₀ : 0 ≤ d) :
    index digitsHex d = some (UInt8.ofNat (Nat.digitChar d.natAbs).toUpper.toNat) := by
  have h₁ : d ≤ 15 := by omega
  interval_cases d <;> decide

theorem signed_of_nonneg {v : Int} (h : 0 ≤ v) : signed v = decimal v.natAbs := by
  obtain ⟨n, rfl⟩ := Int.eq_ofNat_of_zero_le h
  rfl

theorem signed_of_neg {v : Int} (h : v < 0) : signed v = '-' :: decimal v.natAbs := by
  obtain ⟨n, rfl⟩ := Int.eq_negSucc_of_lt_zero h
  rfl

/-- Of 64 bits no more than 20 characters come. -/
theorem length_signed_le {v : Int} (h : -2 ^ 63 ≤ v ∧ v < 2 ^ 64) : (signed v).length ≤ 20 := by
  by_cases hneg : v < 0
  · rw [signed_of_neg hneg, List.length_cons]
    have := length_decimal_le (n := v.natAbs) (k := 19) (by decide) (by omega)
    omega
  · rw [signed_of_nonneg (not_lt.mp hneg)]
    exact length_decimal_le (by decide) (by omega)

/-- The decimal text of the value is written, whatever the type. -/
theorem renders_convert (value : T) : Renders (convert value) (signed (toInt value)) := by
  have hdigits : putDigits zero (literal 10 : T) (by simp) value =
      some (chars (decimal (toInt value).natAbs)).reverse := by
    rw [putDigits_eq _ fun c => UInt8.ofNat c.toNat, toInt_ten]
    · rfl
    · intro j
      refine zero_eq ?_
      rw [toInt_mod (by simp), Int.natAbs_tmod, toInt_ten]
      exact Nat.mod_lt _ (by decide)
  have htext : (if value < literal 0 then (chars (decimal (toInt value).natAbs)).reverse ++ [0x2d]
      else (chars (decimal (toInt value).natAbs)).reverse) =
      (chars (signed (toInt value))).reverse := by
    by_cases hneg : value < literal 0
    · rw [if_pos hneg, signed_of_neg (by rwa [lt_iff, toInt_zero] at hneg)]
      simp [chars]
    · rw [if_neg hneg, signed_of_nonneg (by rwa [lt_iff, toInt_zero, not_lt] at hneg)]
  have hconvert : convert value = some (terminate (chars (signed (toInt value))).reverse) := by
    rw [convert, hdigits, Option.bind_eq_bind, Option.bind_some, htext]
    rfl
  rw [hconvert]
  exact renders_terminate (length_signed_le (range value))

theorem renders_convertHex (value : UInt64) :
    Renders (convertHex value) (upperHex value.toNat) := by
  have hdigits : putDigits (index digitsHex) (16 : UInt64) (by decide) value =
      some (chars (upperHex value.toNat)).reverse := by
    rw [putDigits_eq _ fun c => UInt8.ofNat c.toUpper.toNat]
    · rw [chars, upperHex, List.map_map]
      rfl
    · intro j
      have hlt : (j % 16).toNat < 16 := by
        rw [UInt64.toNat_mod]
        exact Nat.mod_lt _ (by decide)
      exact digitsHex_eq hlt (Int.natCast_nonneg _)
  have hlength : (upperHex value.toNat).length ≤ 20 := by
    rw [upperHex, List.length_map, Nat.length_toDigits_le_iff (by decide) (by decide)]
    have := value.toNat_lt
    omega
  rw [convertHex, hdigits]
  exact renders_terminate hlength

end Functions

/-- Every value of the four types is written in decimal, with a leading minus if it is negative, and
every address in hexadecimal. -/
theorem integer_rendering :
    (∀ v : Int32, Renders (convert v) (signed v.toInt)) ∧
    (∀ v : UInt32, Renders (convert v) (decimal v.toNat)) ∧
    (∀ v : Int64, Renders (convert v) (signed v.toInt)) ∧
    (∀ v : UInt64, Renders (convert v) (decimal v.toNat)) ∧
    ∀ v : UInt64, Renders (convertHex v) (upperHex v.toNat) :=
  ⟨renders_convert, renders_convert, renders_convert, renders_convert, renders_convertHex⟩

end DbdkyGcc.Streams
