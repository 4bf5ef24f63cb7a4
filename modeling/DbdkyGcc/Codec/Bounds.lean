import DbdkyGcc.Codec.Parsers

/-!
# What a parser reads and what it writes

A parser that gets as far as the `memcpy` trusts the length byte of the frame. The
outcome is a function of the bytes that were received exactly when that byte stays
between what is decoded and what was received.
-/

namespace DbdkyGcc.Codec

open Foundations

variable {F : Type}

namespace CodecKind

/-- The place in the buffer from which the frame is copied. -/
def copyOffset : CodecKind → ℕ
  | zsar => 5
  | mmxn => 3

def copyCount : CodecKind → Buffer → Int
  | zsar => CodecZSAR.copyCount
  | mmxn => CodecMMXN.copyCount

/-- The number of bytes of `data` that are decoded. -/
def decoded : CodecKind → ℕ
  | zsar => CodecZSAR.decoded
  | mmxn => CodecMMXN.decoded

/-- Whether `data` is declared with an initialiser. -/
def initialised : CodecKind → Bool
  | zsar => true
  | mmxn => false

/-- The smallest length byte for which the copy leaves nothing undefined. -/
def minLength : CodecKind → ℕ
  | zsar => 2
  | mmxn => 8

/-- The array `data` before the copy. -/
def initial (kind : CodecKind) (stack : Buffer) : Buffer :=
  if kind.initialised then fun _ => 0 else stack

/-- The array `data` behind the copy. -/
def copied (kind : CodecKind) (stack buffer : Buffer) : Buffer :=
  fun i => if (i : Int) < kind.copyCount buffer then buffer (kind.copyOffset + i)
    else kind.initial stack i

/-- What is made of `data`. -/
def store (rt : CRuntime F) (c : CodecState F) :
    CodecKind → Buffer → DbInsertDatatype → Except Fault DbInsertDatatype
  | zsar => fun data => CodecZSAR.record rt c (CodecZSAR.decode data)
  | mmxn => fun data => CodecMMXN.record rt c (CodecMMXN.decode data)

theorem parser_eq (rt : CRuntime F) (kind : CodecKind) (c : CodecState F) (stack b : Buffer)
    (len : Int) (out : DbInsertDatatype) :
    kind.parser rt c stack b len out = copyAndStore (kind.reject b len) (kind.initial stack)
      (fun i => b (kind.copyOffset + i)) (kind.copyCount b) (kind.store rt c) out := by
  cases kind <;> rfl

theorem store_congr (rt : CRuntime F) (c : CodecState F) (kind : CodecKind) {d d' : Buffer}
    (h : ∀ i < kind.decoded, d i = d' i) : kind.store rt c d = kind.store rt c d' := by
  cases kind
  · exact congrArg (CodecZSAR.record rt c) (CodecZSAR.decode_congr h)
  · exact congrArg (CodecMMXN.record rt c) (CodecMMXN.decode_congr h)

/-- The items that are made of `data`. -/
def items (rt : CRuntime F) (c : CodecState F) :
    CodecKind → Buffer → List (String × Int × String)
  | zsar => fun data => CodecZSAR.items rt c (CodecZSAR.decode data)
  | mmxn => fun data => CodecMMXN.items rt c (CodecMMXN.decode data)

theorem items_length_le (rt : CRuntime F) (c : CodecState F) (kind : CodecKind) (data : Buffer) :
    (kind.items rt c data).length ≤ maxItemSize := by
  cases kind
  · show 5 ≤ 50
    decide
  · show 2 ≤ 50
    decide

theorem store_okOr (rt : CRuntime F) (c : CodecState F) (kind : CodecKind) (data : Buffer)
    (out : DbInsertDatatype) :
    OkOr .textOverflow (kind.store rt c data out)
      (out.filled c.lnInst (kind.items rt c data)) := by
  cases kind
  · exact (putText_okOr _ _).bind ((putText_okOr _ _).bind (DbInsertDatatype.fill_okOr _ _ _))
  · exact (putText_okOr _ _).bind (DbInsertDatatype.fill_okOr _ _ _)

/-- Everything a call of a parser can do: return early, fail in the copy or in a text, or
fill the record. -/
theorem parser_cases (rt : CRuntime F) (kind : CodecKind) (c : CodecState F) (stack b : Buffer)
    (len : Int) (out : DbInsertDatatype) :
    (∃ code, kind.reject b len = some code ∧ kind.parser rt c stack b len out = .ok (code, out)) ∨
    (kind.reject b len = none ∧ (kind.parser rt c stack b len out = .error .memcpyCount ∨
      OkOr .textOverflow (kind.parser rt c stack b len out)
        (parseSuccess, out.filled c.lnInst (kind.items rt c (kind.copied stack b))))) := by
  rw [parser_eq]
  cases hr : kind.reject b len with
  | some code => exact .inl ⟨code, rfl, rfl⟩
  | none =>
    refine .inr ⟨rfl, ?_⟩
    by_cases hc : 0 ≤ kind.copyCount b ∧ kind.copyCount b ≤ 128
    · right
      simp only [copyAndStore, memcpy, if_pos hc]
      exact (store_okOr rt c kind (kind.copied stack b) out).bind (.inl rfl)
    · left
      simp only [copyAndStore, memcpy, if_neg hc]
      rfl

/-- The texts made of `data` fit their arrays. -/
def Printable (rt : CRuntime F) (c : CodecState F) : CodecKind → Buffer → Prop
  | zsar => fun data => (CodecZSAR.strTotA rt c (CodecZSAR.decode data)).length < 32 ∧
      (CodecZSAR.strRisA rt c (CodecZSAR.decode data)).length < 32 ∧ c.lnInst.length < 120
  | mmxn => fun _ => c.lnInst.length < 120

theorem parser_guarded (rt : CRuntime F) (kind : CodecKind) (c : CodecState F) (stack : Buffer)
    {b : Buffer} {len : Int} (h : kind.reject b len = none) (out : DbInsertDatatype) :
    Guarded (kind.parser rt c stack b len out)
      ((0 ≤ kind.copyCount b ∧ kind.copyCount b ≤ 128) ∧
        kind.Printable rt c (kind.copied stack b))
      (parseSuccess, out.filled c.lnInst (kind.items rt c (kind.copied stack b))) := by
  cases kind
  · exact CodecZSAR.parser_guarded rt c h out
  · exact CodecMMXN.parser_guarded rt c stack h out

theorem reject_eq_none_iff (kind : CodecKind) (buffer : Buffer) (len : Int) :
    kind.reject buffer len = none ↔ (kind.frameLength : Int) ≤ len ∧
      crcMatches buffer (kind.frameLength - 2) = true ∧ kind.length buffer ≤ 128 := by
  cases kind
  · simp only [reject, frameLength, length, CodecZSAR.reject]
    grind
  · simp only [reject, frameLength, length, CodecMMXN.reject]
    grind

/-- The early returns look at one frame only. -/
theorem reject_congr (kind : CodecKind) {b b' : Buffer} {len len' : Int}
    (hlen : len < kind.frameLength ↔ len' < kind.frameLength)
    (h : kind.frameLength ≤ len → ∀ i < kind.frameLength, b i = b' i) :
    kind.reject b len = kind.reject b' len' := by
  by_cases hs : len < kind.frameLength
  · have hs' := hlen.mp hs
    cases kind
    · exact (if_pos hs).trans (if_pos hs').symm
    · exact (if_pos hs).trans (if_pos hs').symm
  · have hs' : ¬ len' < kind.frameLength := fun hn => hs (hlen.mpr hn)
    have hb := h (by omega)
    cases kind
    · have hcrc : crcMatches b 23 = crcMatches b' 23 := crcMatches_congr hb
      have hl : CodecZSAR.length b = CodecZSAR.length b' :=
        congrArg UInt8.toNat (hb 2 (by decide))
      exact ((if_neg hs).trans (by rw [hcrc, hl])).trans (if_neg hs').symm
    · have hcrc : crcMatches b 19 = crcMatches b' 19 := crcMatches_congr hb
      have hl : CodecMMXN.length b = CodecMMXN.length b' :=
        congrArg UInt8.toNat (hb 2 (by decide))
      exact ((if_neg hs).trans (by rw [hcrc, hl])).trans (if_neg hs').symm

/-- Behind the early returns only the copied bytes count. -/
theorem parser_congr (rt : CRuntime F) (kind : CodecKind) (c : CodecState F)
    {stack stack' b b' : Buffer} {len len' : Int}
    (hrej : kind.reject b len = kind.reject b' len')
    (hcount : kind.reject b len = none → kind.copyCount b = kind.copyCount b')
    (hdata : kind.reject b len = none →
      ∀ i < kind.decoded, kind.copied stack b i = kind.copied stack' b' i)
    (out : DbInsertDatatype) :
    kind.parser rt c stack b len out = kind.parser rt c stack' b' len' out := by
  rw [parser_eq, parser_eq, ← hrej]
  cases hr : kind.reject b len with
  | some code => rfl
  | none =>
    have hstore := store_congr rt c kind (hdata hr)
    unfold copied at hstore
    rw [← hcount hr] at hstore ⊢
    by_cases hc : 0 ≤ kind.copyCount b ∧ kind.copyCount b ≤ 128
    · simp only [copyAndStore, memcpy, if_pos hc]
      exact congrArg (fun f => f out >>= fun out => .ok (parseSuccess, out)) hstore
    · simp only [copyAndStore, memcpy, if_neg hc]

/-- The copy stays inside `data` and inside the bytes that were received, and nothing is
decoded that neither it nor an initialiser has written. -/
structure CopySafe (kind : CodecKind) (buffer : Buffer) (len : Int) : Prop where
  nonneg : 0 ≤ kind.copyCount buffer
  fits : kind.copyCount buffer ≤ 128
  received : ∀ i : ℕ, (i : Int) < kind.copyCount buffer → ((kind.copyOffset + i : ℕ) : Int) < len
  defined : ∀ i < kind.decoded, kind.initialised = true ∨ (i : Int) < kind.copyCount buffer

theorem copySafe_iff (kind : CodecKind) {buffer : Buffer} {len : Int}
    (h : kind.reject buffer len = none) :
    CopySafe kind buffer len ↔
      kind.minLength ≤ kind.length buffer ∧ (3 + kind.length buffer : ℕ) ≤ len := by
  obtain ⟨hlen, -, hmax⟩ := (reject_eq_none_iff kind buffer len).mp h
  cases kind
  · have hcount : zsar.copyCount buffer = zsar.length buffer - 2 := rfl
    simp only [frameLength, minLength] at hlen ⊢
    constructor
    · intro hs
      have h0 := hs.nonneg
      refine ⟨by omega, ?_⟩
      by_cases hz : zsar.length buffer = 2
      · omega
      · have hlast := hs.received (zsar.length buffer - 3) (by omega)
        simp only [copyOffset] at hlast
        omega
    · rintro ⟨hmin, hrec⟩
      refine ⟨by omega, by omega, fun i hi => ?_, fun i _ => Or.inl rfl⟩
      simp only [copyOffset]
      omega
  · have hcount : mmxn.copyCount buffer = mmxn.length buffer := rfl
    simp only [frameLength, minLength] at hlen ⊢
    constructor
    · intro hs
      have h7 : (7 : Int) < mmxn.copyCount buffer := (hs.defined 7 (by decide)).resolve_left (by decide)
      have hlast := hs.received (mmxn.length buffer - 1) (by omega)
      simp only [copyOffset] at hlast
      exact ⟨by omega, by omega⟩
    · rintro ⟨hmin, hrec⟩
      refine ⟨by omega, by omega, fun i hi => ?_, fun i hi => Or.inr ?_⟩
      · simp only [copyOffset]
        omega
      · have : i < 8 := hi
        omega

/-- A safe copy decodes the same bytes from every buffer with the received bytes in it. -/
theorem copied_congr (kind : CodecKind) {stack stack' b b' : Buffer} {len : Int}
    (hs : CopySafe kind b len) (hcount : kind.copyCount b = kind.copyCount b')
    (hb : ∀ i : ℕ, (i : Int) < len → b i = b' i) {i : ℕ} (hi : i < kind.decoded) :
    kind.copied stack b i = kind.copied stack' b' i := by
  simp only [copied, ← hcount]
  split
  · next hin => exact hb _ (hs.received i hin)
  · next hout =>
    have hinit := (hs.defined i hi).resolve_right hout
    simp [initial, hinit]

/-- The outcome of a parser whose copy, if any, is safe depends on the received bytes
alone. -/
theorem parser_congr_of_copySafe (rt : CRuntime F) (kind : CodecKind) (c : CodecState F)
    {b b' : Buffer} {len : Int} (hsafe : kind.reject b len = none → CopySafe kind b len)
    (hb : ∀ i : ℕ, (i : Int) < len → b i = b' i) (stack stack' : Buffer)
    (out : DbInsertDatatype) :
    kind.parser rt c stack b len out = kind.parser rt c stack' b' len out := by
  have hframe : (kind.frameLength : Int) ≤ len → ∀ i < kind.frameLength, b i = b' i :=
    fun hl i hi => hb i (by omega)
  have hcount : kind.reject b len = none → kind.copyCount b = kind.copyCount b' := by
    intro hr
    have h2 : b 2 = b' 2 :=
      hframe ((kind.reject_eq_none_iff b len).mp hr).1 2 (by cases kind <;> decide)
    cases kind
    · simp only [copyCount, CodecZSAR.copyCount, CodecZSAR.length, h2]
    · simp only [copyCount, CodecMMXN.copyCount, CodecMMXN.length, h2]
  exact kind.parser_congr rt c (kind.reject_congr Iff.rfl hframe) hcount
    (fun hr i hi => kind.copied_congr (hsafe hr) (hcount hr) hb hi) out

end CodecKind

/-- What is asked of a parser at a buffer with `len` received bytes: the outcome depends
on those bytes alone, and a copy that is made is safe. -/
def Confined (rt : CRuntime F) (kind : CodecKind) (c : CodecState F) (buffer : Buffer)
    (len : Int) : Prop :=
  (∀ (stack stack' buffer' : Buffer) (out : DbInsertDatatype),
    (∀ i : ℕ, (i : Int) < len → buffer i = buffer' i) →
    kind.parser rt c stack buffer len out = kind.parser rt c stack' buffer' len out) ∧
  (kind.reject buffer len = none → kind.CopySafe buffer len)

/-- A frame with a correct check sum is handled safely exactly when its length byte lies
between the bytes that are decoded and the bytes that were received. -/
theorem parser_confined_iff (rt : CRuntime F) (kind : CodecKind) (c : CodecState F)
    (buffer : Buffer) (len : Int) :
    Confined rt kind c buffer len ↔
      ((kind.frameLength : Int) ≤ len ∧ crcMatches buffer (kind.frameLength - 2) = true ∧
        kind.length buffer ≤ 128 →
        kind.minLength ≤ kind.length buffer ∧ (3 + kind.length buffer : ℕ) ≤ len) := by
  rw [← kind.reject_eq_none_iff]
  constructor
  · rintro ⟨-, hsafe⟩ hr
    exact (kind.copySafe_iff hr).mp (hsafe hr)
  · intro hcond
    have hsafe : kind.reject buffer len = none → kind.CopySafe buffer len :=
      fun hr => (kind.copySafe_iff hr).mpr (hcond hr)
    exact ⟨fun stack stack' buffer' out hb =>
      kind.parser_congr_of_copySafe rt c hsafe hb stack stack' out, hsafe⟩

/-- The query of device 2 answered with the length byte 1, zeros and a correct check sum. -/
def lengthOne : Buffer :=
  storeAt (fun _ => 0) 0 ([2, 4, 1] ++ List.replicate 20 0 ++ [134, 160])

/-- Its length byte makes the count of the copy negative. -/
theorem zsar_copies_minus_one_bytes :
    ¬ Confined CRuntime.whole .zsar ⟨"ZSAR1", ∅⟩ lengthOne 25 := by
  rintro ⟨-, hsafe⟩
  have hr : CodecKind.zsar.reject lengthOne 25 = none := by decide +kernel
  exact absurd (hsafe hr).nonneg (by decide +kernel)

end DbdkyGcc.Codec
