import Mathlib

/-!
# Numbers as text

What the conversions of the `printf` family write, with the facts that decide
whether two texts can coincide: the digits of a number determine it, and how
many there are is bounded by its size.
-/

namespace DbdkyGcc.Foundations

/-- `%u`, and `%d` of a number that is not negative. -/
def decimal (n : Nat) : List Char := Nat.toDigits 10 n

theorem decimal_injective : Function.Injective decimal := by
  intro m n h
  have hvalue := congrArg (fun l => Nat.ofDigitChars 10 l 0) h
  simp only [decimal, Nat.ofDigitChars_ten_toDigits] at hvalue
  exact hvalue

theorem length_decimal_le {n k : Nat} (hk : 0 < k) (hn : n < 10 ^ k) : (decimal n).length ≤ k :=
  (Nat.length_toDigits_le_iff (by decide) hk).mpr hn

theorem dash_notMem_decimal (n : Nat) : '-' ∉ decimal n := fun h =>
  absurd (Nat.isDigit_of_mem_toDigits (by decide) (by decide) h) (by decide)

/-- `%d`. -/
def signed : Int → List Char
  | .ofNat n => decimal n
  | .negSucc n => '-' :: decimal (n + 1)

theorem signed_injective : Function.Injective signed := by
  -- Only the text of a negative number begins with a dash.
  rintro (m | m) (n | n) h
  · exact congrArg Int.ofNat (decimal_injective h)
  · refine absurd ?_ (dash_notMem_decimal m)
    change decimal m = '-' :: decimal (n + 1) at h
    simp [h]
  · refine absurd ?_ (dash_notMem_decimal n)
    change '-' :: decimal (m + 1) = decimal n at h
    simp [← h]
  · have hdigits := decimal_injective (List.cons.inj h).2
    exact congrArg Int.negSucc (Nat.succ.inj hdigits)

/-- `%02d` of a number below 100. -/
def twoDigits (n : Nat) : List Char := [Nat.digitChar (n / 10), Nat.digitChar (n % 10)]

theorem twoDigits_injOn : Set.InjOn twoDigits {n | n < 100} := by
  have hvalue : ∀ n < 100, Nat.ofDigitChars 10 (twoDigits n) 0 = n := by decide
  intro m hm n hn h
  rw [← hvalue m hm, ← hvalue n hn, h]

/-- The digits of a number to the base 16, with capital letters. -/
def upperHex (n : Nat) : List Char := (Nat.toDigits 16 n).map Char.toUpper

/-- The bytes of a text, of which all characters are in one byte. -/
def chars (text : List Char) : List UInt8 := text.map fun c => UInt8.ofNat c.toNat

@[simp] theorem length_chars (text : List Char) : (chars text).length = text.length :=
  List.length_map _

/-- A text filled up to a width at its front. -/
def padded (c : Char) (width : Nat) (text : List Char) : List Char :=
  List.replicate (width - text.length) c ++ text

/-- `%5d` and the like. -/
def spacePadded (width : Nat) (v : Int) : List Char := padded ' ' width (signed v)

/-- `%02d` and the like; the zeros come behind the sign. -/
def zeroPadded (width : Nat) (v : Int) : List Char :=
  if v < 0 then '-' :: padded '0' (width - 1) (decimal v.natAbs)
  else padded '0' width (decimal v.natAbs)

theorem length_padded {c : Char} {width : Nat} {text : List Char} (h : text.length ≤ width) :
    (padded c width text).length = width := by
  rw [padded, List.length_append, List.length_replicate]
  omega

/-- A character of one byte that is no terminator. -/
def Ascii (c : Char) : Prop := 0 < c.toNat ∧ c.toNat < 128

instance (c : Char) : Decidable (Ascii c) := instDecidableAnd

theorem ascii_of_isDigit {c : Char} (h : c.isDigit = true) : Ascii c := by
  rw [Char.isDigit_iff_toNat] at h
  exact ⟨lt_of_lt_of_le (by decide) h.1, lt_of_le_of_lt h.2 (by decide)⟩

theorem ascii_decimal (n : Nat) : ∀ c ∈ decimal n, Ascii c := fun _ hc =>
  ascii_of_isDigit (Nat.isDigit_of_mem_toDigits (by decide) (by decide) hc)

theorem ascii_signed (v : Int) : ∀ c ∈ signed v, Ascii c := by
  cases v with
  | ofNat n => exact ascii_decimal n
  | negSucc n => exact List.forall_mem_cons.mpr ⟨by decide, ascii_decimal (n + 1)⟩

theorem ascii_padded {c : Char} (hc : Ascii c) (width : Nat) {text : List Char}
    (h : ∀ d ∈ text, Ascii d) : ∀ d ∈ padded c width text, Ascii d := by
  intro d hd
  rcases List.mem_append.mp hd with hd | hd
  · rwa [List.eq_of_mem_replicate hd]
  · exact h d hd

theorem ascii_zeroPadded (width : Nat) (v : Int) : ∀ c ∈ zeroPadded width v, Ascii c := by
  unfold zeroPadded
  split
  · exact List.forall_mem_cons.mpr ⟨by decide, ascii_padded (by decide) _ (ascii_decimal _)⟩
  · exact ascii_padded (by decide) _ (ascii_decimal _)

theorem nul_notMem_chars {text : List Char} (h : ∀ c ∈ text, Ascii c) : 0 ∉ chars text := by
  intro hmem
  obtain ⟨c, hc, hzero⟩ := List.mem_map.mp hmem
  have hrange := h c hc
  have hvalue := congrArg UInt8.toNat hzero
  rw [UInt8.toNat_ofNat_of_lt' (lt_trans hrange.2 (by decide))] at hvalue
  exact absurd hvalue (Nat.ne_of_gt hrange.1)

/-- The text that `snprintf` leaves in a buffer of `size` bytes. -/
def snprintf (size : Nat) (text : List Char) : List Char := text.take (size - 1)

end DbdkyGcc.Foundations
