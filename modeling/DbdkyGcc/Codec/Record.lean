import DbdkyGcc.Foundations.Guarded
import DbdkyGcc.Codec.Crc

/-!
# The record a codec fills, and what it is computed with

`DbInsertDatatype` is `DB_INSERT_DATATYPE` of `CodecBase.h`. A field is `none` until
it is written, as in the record `listen` declares without an initialiser. The C
library and the `float` type are parameters (`CRuntime`): nothing below depends on
how a time zone, a rounding or a decimal point is chosen. A `std::string` is a
`String` with one character per byte.
-/

namespace DbdkyGcc.Codec

open Foundations

/-- What the code does outside the rules of the language. -/
inductive Fault
  /-- `read` stores outside `read_buf` -/
  | readOverflow
  /-- `memcpy` is given more bytes than the array holds -/
  | memcpyCount
  /-- `sprintf` or `strcpy` writes past its array -/
  | textOverflow
  /-- a field of the record is used before it is written -/
  | unwrittenField
deriving DecidableEq

def parseSuccess : Int := 0
def parseErrorLengthShort : Int := 1
def parseErrorOther : Int := 3

def typeInteger : Int := 0
def typeReal : Int := 1
def typeUtc : Int := 3

/-- `IEC61850MODELLEN`, the size of every text field. -/
abbrev modelLen : ℕ := 128

/-- `MAXITEMSIZE`, the number of items in every array of texts. -/
abbrev maxItemSize : ℕ := 50

structure DbInsertDatatype where
  repID : Option String
  lnInstArray : Vector (Option String) maxItemSize
  lnIDArraySize : Option Int
  dataArray : Vector (Option String) maxItemSize
  typeArray : Vector (Option Int) modelLen
  fieldArray : Vector (Option String) maxItemSize
  paramSize : Option Int
deriving DecidableEq

/-- `DB_INSERT_DATATYPE out;` -/
def DbInsertDatatype.unwritten : DbInsertDatatype where
  repID := none
  lnInstArray := .replicate _ none
  lnIDArraySize := none
  dataArray := .replicate _ none
  typeArray := .replicate _ none
  fieldArray := .replicate _ none
  paramSize := none

/-- The fields of `struct tm` that the codecs set. -/
structure Tm where
  year : Int
  mon : Int
  mday : Int
  hour : Int
  min : Int
  sec : Int
deriving DecidableEq

/-- `boost::lexical_cast<int>`, with no value where it throws `bad_lexical_cast`. -/
structure LexicalCastInt where
  lexicalCastInt : String → Option Int
  lexicalCastInt_range : ∀ s n, lexicalCastInt s = some n → -2 ^ 31 ≤ n ∧ n < 2 ^ 31

/-- The C library and the type `float`, as far as the codecs use them. `%f` prints
at most 39 digits before the point, six after it, the point and a sign. -/
structure CRuntime (F : Type) extends LexicalCastInt where
  mktime : Tm → Int
  one : F
  ofInt : Int → F
  mul : F → F → F
  sprintfF : F → String
  sprintfF_length : ∀ x, (sprintfF x).length ≤ 47
  /-- `boost::lexical_cast<float>`, `none` when it throws -/
  lexicalCastFloat : String → Option F

/-- `"%d"` -/
def sprintfD (i : Int) : String := toString i

/-- `"%02d"` on a byte -/
def sprintf02D (b : UInt8) : String :=
  if b.toNat < 10 then "0" ++ toString b.toNat else toString b.toNat

def isSpace (c : Char) : Bool := c = ' ' || (9 ≤ c.toNat && c.toNat ≤ 13)

def atoiDigits (cs : List Char) : Int :=
  (cs.takeWhile Char.isDigit).foldl (fun a c => 10 * a + (c.toNat - 48 : ℕ)) 0

def atoi (s : String) : Int :=
  match s.toList.dropWhile isSpace with
  | '-' :: cs => -atoiDigits cs
  | '+' :: cs => atoiDigits cs
  | cs => atoiDigits cs

/-- A conversion to evaluate the model with: a sign, then digits to the end of the text, in the range
of `int`. -/
def LexicalCastInt.digits : LexicalCastInt where
  lexicalCastInt s :=
    let signed : Int × List Char := match s.toList with
      | '-' :: cs => (-1, cs)
      | '+' :: cs => (1, cs)
      | cs => (1, cs)
    let v := signed.1 * atoiDigits signed.2
    if signed.2 ≠ [] ∧ signed.2.all Char.isDigit ∧ -2 ^ 31 ≤ v ∧ v < 2 ^ 31 then some v else none
  lexicalCastInt_range s n h := by
    extract_lets signed v at h
    split_ifs at h with hrange
    rw [← Option.some.inj h]
    exact hrange.2.2

/-- The conversion of a `time_t` to `int`. -/
def toInt (t : Int) : Int := t.bmod (2 ^ 32)

/-- Days from 1970-01-01 to a Gregorian date. -/
def daysFromCivil (y m d : Int) : Int :=
  let y := if m ≤ 2 then y - 1 else y
  let era := y.fdiv 400
  let yoe := y - era * 400
  let doy := (153 * (m + (if m > 2 then -3 else 9)) + 2) / 5 + d - 1
  era * 146097 + (yoe * 365 + yoe / 4 - yoe / 100 + doy) - 719468

/-- A runtime to evaluate the model with: the clock eight hours east of Greenwich, and
whole numbers for `float`, which are exact on the small values used here. -/
def CRuntime.whole : CRuntime ℤ where
  toLexicalCastInt := .digits
  mktime tm := daysFromCivil (tm.year + 1900) (tm.mon + 1) tm.mday * 86400 +
    tm.hour * 3600 + tm.min * 60 + tm.sec - 8 * 3600
  one := 1
  ofInt i := i
  mul a b := a * b
  sprintfF x := String.ofList ((toString x ++ ".000000").toList.take 47)
  sprintfF_length x := by
    rw [String.length_ofList, List.length_take]
    omega
  lexicalCastFloat := LexicalCastInt.digits.lexicalCastInt

/-- A text that must fit `cap` bytes with its terminator. -/
def putText (cap : ℕ) (s : String) : Except Fault String :=
  if s.length < cap then .ok s else .error .textOverflow

/-- `memcpy` into an array of 128 bytes that holds `dst`. The count is converted to
`size_t`, so a negative one asks for more than the array holds. -/
def memcpy (dst src : Buffer) (count : Int) : Except Fault Buffer :=
  if 0 ≤ count ∧ count ≤ 128 then
    .ok fun i => if (i : Int) < count then src i else dst i
  else .error .memcpyCount

/-- The first entries of an array are written one after another. -/
def putAll {α : Type} {n : ℕ} (v : Vector (Option α) n) (xs : List α) : Vector (Option α) n :=
  Vector.ofFn fun i => xs[i.val]?.or v[i]

/-- The record after `lnInst` and the items (name, type, value) have been copied in. -/
def DbInsertDatatype.filled (out : DbInsertDatatype) (lnInst : String)
    (items : List (String × Int × String)) : DbInsertDatatype where
  repID := some ("COMDATA/" ++ lnInst)
  lnInstArray := putAll out.lnInstArray [lnInst]
  lnIDArraySize := some 1
  dataArray := putAll out.dataArray (items.map fun it => it.2.2)
  typeArray := putAll out.typeArray (items.map fun it => it.2.1)
  fieldArray := putAll out.fieldArray (items.map fun it => it.1)
  paramSize := some items.length

/-- How both parsers write their record: the logical node, the report it belongs to
and the items. -/
def DbInsertDatatype.fill (out : DbInsertDatatype) (lnInst : String)
    (items : List (String × Int × String)) : Except Fault DbInsertDatatype := do
  let lnInst ← putText modelLen lnInst
  let _ ← putText modelLen ("COMDATA/" ++ lnInst)
  .ok (out.filled lnInst items)

/-- Every field that `listen` uses has been written. -/
structure DbInsertDatatype.Complete (r : DbInsertDatatype) : Prop where
  repID : ∃ s, r.repID = some s
  nodes : ∃ n : ℕ, r.lnIDArraySize = some (n : Int) ∧
    ∀ i < n, ∃ s, r.lnInstArray[i]? = some (some s)
  items : ∃ n : ℕ, r.paramSize = some (n : Int) ∧
    ∀ i < n, (∃ s, r.dataArray[i]? = some (some s)) ∧ (∃ t, r.typeArray[i]? = some (some t)) ∧
      ∃ s, r.fieldArray[i]? = some (some s)

theorem putText_guarded (cap : ℕ) (s : String) :
    Guarded (putText cap s) (s.length < cap) s := by
  rw [putText]
  split
  · exact ⟨fun _ => rfl, by simp_all⟩
  · exact ⟨by simp_all, fun _ => ⟨_, rfl⟩⟩

theorem putText_okOr (cap : ℕ) (s : String) : OkOr .textOverflow (putText cap s) s := by
  rw [putText]
  split
  · exact .inl rfl
  · exact .inr rfl

theorem getElem?_putAll {α : Type} {n : ℕ} (v : Vector (Option α) n) (xs : List α) {i : ℕ}
    (hi : i < xs.length) (hn : i < n) : (putAll v xs)[i]? = some (some xs[i]) := by
  rw [putAll, Vector.getElem?_eq_getElem hn, Vector.getElem_ofFn]
  simp [List.getElem?_eq_getElem hi]

namespace DbInsertDatatype

/-- The report text is the longer of the two, so it alone decides. -/
theorem fill_guarded (out : DbInsertDatatype) (lnInst : String)
    (items : List (String × Int × String)) :
    Guarded (out.fill lnInst items) (lnInst.length < 120) (out.filled lnInst items) := by
  rw [fill]
  refine ((putText_guarded _ _).bind fun _ => (putText_guarded _ _).bind fun _ =>
    Guarded.ok (out.filled lnInst items)).congr ?_
  have hlen : ("COMDATA/" ++ lnInst).length = 8 + lnInst.length := by
    rw [String.length_append]
    rfl
  rw [hlen, modelLen]
  constructor
  · rintro ⟨-, h, -⟩
    omega
  · intro h
    exact ⟨by omega, by omega, trivial⟩

theorem fill_okOr (out : DbInsertDatatype) (lnInst : String)
    (items : List (String × Int × String)) :
    OkOr .textOverflow (out.fill lnInst items) (out.filled lnInst items) :=
  (putText_okOr _ _).bind ((putText_okOr _ _).bind (.inl rfl))

theorem filled_complete (out : DbInsertDatatype) (lnInst : String)
    (items : List (String × Int × String)) (h : items.length ≤ maxItemSize) :
    (out.filled lnInst items).Complete where
  repID := ⟨_, rfl⟩
  nodes := by
    refine ⟨1, rfl, fun i hi => ⟨lnInst, ?_⟩⟩
    obtain rfl : i = 0 := by omega
    exact getElem?_putAll out.lnInstArray [lnInst] (by simp) (by decide)
  items := by
    refine ⟨items.length, rfl, fun i hi => ?_⟩
    have hmax : i < maxItemSize := lt_of_lt_of_le hi h
    have hlen : i < modelLen := lt_of_lt_of_le hmax (by decide)
    exact ⟨⟨_, getElem?_putAll out.dataArray _ (by simpa using hi) hmax⟩,
      ⟨_, getElem?_putAll out.typeArray _ (by simpa using hi) hlen⟩,
      ⟨_, getElem?_putAll out.fieldArray _ (by simpa using hi) hmax⟩⟩

theorem unwritten_not_complete : ¬ unwritten.Complete := by
  rintro ⟨⟨s, hs⟩, -, -⟩
  cases hs

end DbInsertDatatype

end DbdkyGcc.Codec
