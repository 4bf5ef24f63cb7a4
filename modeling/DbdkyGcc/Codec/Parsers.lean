import DbdkyGcc.Codec.Record

/-!
# The codecs ZSAR and MMXN

`makeQueryCmd`, `setConfig` and `parser` of `CodecZSAR.cpp` and `CodecMMXN.cpp`. Each
parser is cut at the two places where it can leave: `reject` is everything before the
`memcpy` and gives the code of an early return, `decode` reads the copied bytes in
order, and `record` prints what was read. `Codec.parser` is the virtual call.
-/

namespace DbdkyGcc.Codec

open Foundations

variable {F : Type}

/-- `m_param_precisions` and `lnInst_`, alike in both classes. -/
structure CodecState (F : Type) where
  lnInst : String
  paramPrecisions : Std.ExtTreeMap String F

/-- `setConfig` enters every given precision and keeps the others. -/
def CodecState.setConfig (c : CodecState F) (lnInst : String)
    (paramsProp : Std.ExtTreeMap String F) : CodecState F where
  lnInst := lnInst
  paramPrecisions :=
    paramsProp.toList.foldl (fun m it => m.insert it.1 it.2) c.paramPrecisions

/-- The precision of a parameter, `1.0` where none was configured. -/
def CodecState.precision (rt : CRuntime F) (c : CodecState F) (name : String) : F :=
  c.paramPrecisions[name]?.getD rt.one

/-- Bytes stored from an offset on. -/
def storeAt (p : Buffer) (off : ℕ) (bytes : List UInt8) : Buffer :=
  fun i => if i < off then p i else bytes[i - off]?.getD (p i)

/-- Both query builders: the return value, the buffer and the length. -/
def makeQueryCmd (startLo countLo : UInt8) (id : UInt8) (out : Buffer) (len : Int) :
    Int × Buffer × Int :=
  if len < 8 then (0, out, len)
  else
    let out := storeAt out 0 [id, 0x04, 0x00, startLo, 0x00, countLo]
    let uCRC := (CRC16 out 6).toNat
    (1, storeAt out 6 [UInt8.ofNat (uCRC >>> 8), UInt8.ofNat uCRC], 8)

/-- The check that both parsers make on the first `n` bytes and the two behind them. -/
def crcMatches (buffer : Buffer) (n : ℕ) : Bool :=
  let uCRC := (CRC16 buffer n).toNat
  UInt8.ofNat (uCRC >>> 8) == buffer n && UInt8.ofNat uCRC == buffer (n + 1)

/-- The six bytes of a time stamp, each printed and read back by `atoi`. -/
def decodeTm (data : Buffer) (off : ℕ) : Tm where
  year := atoi ("20" ++ sprintf02D (data off)) - 1900
  mon := atoi (sprintfD (data (off + 1)).toNat) - 1
  mday := atoi (sprintfD (data (off + 2)).toNat)
  hour := atoi (sprintfD (data (off + 3)).toNat)
  min := atoi (sprintfD (data (off + 4)).toNat)
  sec := atoi (sprintfD (data (off + 5)).toNat)

/-- A byte is put into an unsigned variable of `w` bits, shifted left by eight and the
next byte is added. -/
def accumulate (w : ℕ) (high low : UInt8) : ℕ :=
  (((high.toNat % 2 ^ w) <<< 8) % 2 ^ w + low.toNat) % 2 ^ w

/-- A raw value above 1000 is stored as it is, any other is scaled. -/
def scale (rt : CRuntime F) (raw : ℕ) (precision : F) : F :=
  if raw > 1000 then rt.ofInt raw else rt.mul (rt.ofInt raw) precision

/-- The sample time, eight hours on, as a decimal `int`. -/
def sampleTime (rt : CRuntime F) (tm : Tm) : String :=
  sprintfD (toInt (rt.mktime tm + 8 * 60 * 60))

/-- The skeleton of both parsers: an early return, or `memcpy` and what is made of the
copied bytes. -/
def copyAndStore (early : Option Int) (dst src : Buffer) (count : Int)
    (store : Buffer → DbInsertDatatype → Except Fault DbInsertDatatype)
    (out : DbInsertDatatype) : Except Fault (Int × DbInsertDatatype) :=
  match early with
  | some code => .ok (code, out)
  | none => do
    let data ← memcpy dst src count
    let out ← store data out
    .ok (parseSuccess, out)

namespace CodecZSAR

def makeQueryCmd : UInt8 → Buffer → Int → Int × Buffer × Int :=
  Codec.makeQueryCmd 0x20 0x0A

/-- The length field `pRs485Data->length`. -/
def length (buffer : Buffer) : ℕ := (buffer 2).toNat

/-- The early returns. The test for a null pointer behind the check sum is left out:
`CRC16` has read through the pointer by then. -/
def reject (buffer : Buffer) (len : Int) : Option Int :=
  if len < 25 then some parseErrorLengthShort
  else if !crcMatches buffer 23 then some parseErrorOther
  else if length buffer > 128 then some parseErrorOther
  else none

/-- The number of bytes copied: two bytes of warning flags are skipped. -/
def copyCount (buffer : Buffer) : Int := length buffer - 2

/-- What the parser reads out of the copied bytes. -/
structure Readings where
  smpTm : Tm
  totaData : ℕ
  risaData : ℕ
  optcntData : ℕ
  lastOpTm : Tm

/-- The accumulators are declared `unsigned char`. -/
def decode (data : Buffer) : Readings where
  smpTm := decodeTm data 0
  totaData := accumulate 8 (data 6) (data 7)
  risaData := accumulate 8 (data 8) (data 9)
  optcntData := accumulate 8 (data 10) (data 11)
  lastOpTm := decodeTm data 12

/-- The number of bytes of `data` that `decode` reads. -/
def decoded : ℕ := 18

/-- A `mktime` that fails is stored as zero. -/
def lastOpTime (rt : CRuntime F) (tm : Tm) : String :=
  let nLastOpTm := toInt (rt.mktime tm)
  sprintfD (if nLastOpTm = -1 then 0 else nLastOpTm)

def strTotA (rt : CRuntime F) (c : CodecState F) (r : Readings) : String :=
  rt.sprintfF (scale rt r.totaData (c.precision rt "TotA"))

def strRisA (rt : CRuntime F) (c : CodecState F) (r : Readings) : String :=
  rt.sprintfF (scale rt r.risaData (c.precision rt "RisA"))

/-- The items of the record: name, type and value. -/
def items (rt : CRuntime F) (c : CodecState F) (r : Readings) : List (String × Int × String) :=
  [("SmpTm", typeUtc, sampleTime rt r.smpTm),
   ("TotA", typeReal, strTotA rt c r),
   ("RisA", typeReal, strRisA rt c r),
   ("OpCnt", typeInteger, sprintfD r.optcntData),
   ("LastOpTm", typeUtc, lastOpTime rt r.lastOpTm)]

/-- The two scaled values are printed into arrays of 32 bytes. -/
def record (rt : CRuntime F) (c : CodecState F) (r : Readings) (out : DbInsertDatatype) :
    Except Fault DbInsertDatatype := do
  let _ ← putText 32 (strTotA rt c r)
  let _ ← putText 32 (strRisA rt c r)
  out.fill c.lnInst (items rt c r)

/-- `data` is declared with an initialiser, so what `memcpy` leaves is zero. -/
def parser (rt : CRuntime F) (c : CodecState F) (buffer : Buffer) (len : Int)
    (out : DbInsertDatatype) : Except Fault (Int × DbInsertDatatype) :=
  copyAndStore (reject buffer len) (fun _ => 0) (fun i => buffer (5 + i)) (copyCount buffer)
    (fun data => record rt c (decode data)) out

end CodecZSAR

namespace CodecMMXN

def makeQueryCmd : UInt8 → Buffer → Int → Int × Buffer × Int :=
  Codec.makeQueryCmd 0x21 0x08

def length (buffer : Buffer) : ℕ := (buffer 2).toNat

/-- The early returns. A length above 128 is answered by `return 0`; the same test with
`PARSE_ERROR_OTHER` behind it is never reached. -/
def reject (buffer : Buffer) (len : Int) : Option Int :=
  if len < 21 then some parseErrorLengthShort
  else if !crcMatches buffer 19 then some parseErrorOther
  else if length buffer > 128 then some 0
  else none

def copyCount (buffer : Buffer) : Int := length buffer

structure Readings where
  smpTm : Tm
  ampData : ℕ

/-- The accumulator is declared `unsigned short`. -/
def decode (data : Buffer) : Readings where
  smpTm := decodeTm data 0
  ampData := accumulate 16 (data 6) (data 7)

def decoded : ℕ := 8

def strAmp (rt : CRuntime F) (c : CodecState F) (r : Readings) : String :=
  rt.sprintfF (scale rt r.ampData (c.precision rt "Amp"))

def items (rt : CRuntime F) (c : CodecState F) (r : Readings) : List (String × Int × String) :=
  [("SmpTm", typeUtc, sampleTime rt r.smpTm),
   ("Amp", typeReal, strAmp rt c r)]

def record (rt : CRuntime F) (c : CodecState F) (r : Readings) (out : DbInsertDatatype) :
    Except Fault DbInsertDatatype := do
  let _ ← putText 128 (strAmp rt c r)
  out.fill c.lnInst (items rt c r)

/-- `data` has no initialiser: what `memcpy` leaves is what was on the stack. -/
def parser (rt : CRuntime F) (c : CodecState F) (stack buffer : Buffer) (len : Int)
    (out : DbInsertDatatype) : Except Fault (Int × DbInsertDatatype) :=
  copyAndStore (reject buffer len) stack (fun i => buffer (3 + i)) (copyCount buffer)
    (fun data => record rt c (decode data)) out

end CodecMMXN

/-- The classes derived from `CodecBase`. -/
inductive CodecKind
  | zsar
  | mmxn
deriving DecidableEq

namespace CodecKind

/-- The number of bytes of a whole reply. -/
def frameLength : CodecKind → ℕ
  | zsar => 25
  | mmxn => 21

/-- The parameters that are scaled by a configured precision. -/
def scaled : CodecKind → List String
  | zsar => ["TotA", "RisA"]
  | mmxn => ["Amp"]

def makeQueryCmd : CodecKind → UInt8 → Buffer → Int → Int × Buffer × Int
  | zsar => CodecZSAR.makeQueryCmd
  | mmxn => CodecMMXN.makeQueryCmd

def length : CodecKind → Buffer → ℕ
  | zsar => CodecZSAR.length
  | mmxn => CodecMMXN.length

def reject : CodecKind → Buffer → Int → Option Int
  | zsar => CodecZSAR.reject
  | mmxn => CodecMMXN.reject

/-- The virtual call of `parser`. -/
def parser (rt : CRuntime F) (kind : CodecKind) (c : CodecState F) (stack buffer : Buffer)
    (len : Int) (out : DbInsertDatatype) : Except Fault (Int × DbInsertDatatype) :=
  match kind with
  | zsar => CodecZSAR.parser rt c buffer len out
  | mmxn => CodecMMXN.parser rt c stack buffer len out

end CodecKind

/-- A codec object: its class and its members. -/
structure CodecObject (F : Type) where
  kind : CodecKind
  state : CodecState F

theorem memcpy_guarded (dst src : Buffer) (count : Int) :
    Guarded (memcpy dst src count) (0 ≤ count ∧ count ≤ 128)
      (fun i => if (i : Int) < count then src i else dst i) := by
  rw [memcpy]
  split
  · exact ⟨fun _ => rfl, by simp_all⟩
  · exact ⟨by simp_all, fun _ => ⟨_, rfl⟩⟩

theorem copyAndStore_none {dst src : Buffer} {count : Int}
    {store : Buffer → DbInsertDatatype → Except Fault DbInsertDatatype}
    {out out' : DbInsertDatatype} {P : Prop}
    (h : Guarded (store (fun i => if (i : Int) < count then src i else dst i) out) P out') :
    Guarded (copyAndStore none dst src count store out)
      ((0 ≤ count ∧ count ≤ 128) ∧ P) (parseSuccess, out') := by
  rw [copyAndStore]
  refine ((memcpy_guarded dst src count).bind fun _ =>
    h.bind fun _ => Guarded.ok (parseSuccess, out')).congr ?_
  rw [and_true]

theorem decodeTm_congr {d d' : Buffer} (off : ℕ) (h : ∀ i < 6, d (off + i) = d' (off + i)) :
    decodeTm d off = decodeTm d' off := by
  have h0 := h 0 (by omega)
  have h1 := h 1 (by omega)
  have h2 := h 2 (by omega)
  have h3 := h 3 (by omega)
  have h4 := h 4 (by omega)
  have h5 := h 5 (by omega)
  rw [Nat.add_zero] at h0
  simp only [decodeTm, h0, h1, h2, h3, h4, h5]

theorem crcMatches_congr {b b' : Buffer} {n : ℕ} (h : ∀ i < n + 2, b i = b' i) :
    crcMatches b n = crcMatches b' n := by
  have hmsg : bytesAt b n = bytesAt b' n := bytesAt_congr fun i hi => h i (by omega)
  simp only [crcMatches, CRC16, hmsg, h n (by omega), h (n + 1) (by omega)]

/-- The check succeeds exactly on a body followed by the running bytes of its check sum. -/
theorem crcMatches_iff (b : Buffer) (n : ℕ) :
    crcMatches b n = true ↔ b n = (crcLoop (bytesAt b n)).uchCRCHi ∧
      b (n + 1) = (crcLoop (bytesAt b n)).uchCRCLo := by
  obtain ⟨hhi, hlo⟩ := CRC16_bytes b n
  simp only [crcMatches, hhi, hlo, Bool.and_eq_true, beq_iff_eq]
  exact and_congr eq_comm eq_comm

namespace CodecZSAR

theorem decode_congr {d d' : Buffer} (h : ∀ i < decoded, d i = d' i) : decode d = decode d' := by
  rw [decoded] at h
  have ht := decodeTm_congr 0 fun i hi => by simpa using h i (by omega)
  have hl := decodeTm_congr 12 fun i hi => h (12 + i) (by omega)
  simp only [decode, ht, hl, h 6 (by omega), h 7 (by omega), h 8 (by omega), h 9 (by omega),
    h 10 (by omega), h 11 (by omega)]

theorem record_guarded (rt : CRuntime F) (c : CodecState F) (r : Readings)
    (out : DbInsertDatatype) :
    Guarded (record rt c r out)
      ((strTotA rt c r).length < 32 ∧ (strRisA rt c r).length < 32 ∧ c.lnInst.length < 120)
      (out.filled c.lnInst (items rt c r)) := by
  rw [record]
  exact (putText_guarded _ _).bind fun _ => (putText_guarded _ _).bind fun _ =>
    DbInsertDatatype.fill_guarded _ _ _

/-- The array `data` behind the copy. -/
def copied (buffer : Buffer) : Buffer :=
  fun i => if (i : Int) < copyCount buffer then buffer (5 + i) else 0

/-- What the parser reads out of an accepted buffer. -/
def readings (buffer : Buffer) : Readings := decode (copied buffer)

theorem parser_guarded (rt : CRuntime F) (c : CodecState F) {buffer : Buffer} {len : Int}
    (h : reject buffer len = none) (out : DbInsertDatatype) :
    Guarded (parser rt c buffer len out)
      ((0 ≤ copyCount buffer ∧ copyCount buffer ≤ 128) ∧
        (strTotA rt c (readings buffer)).length < 32 ∧
        (strRisA rt c (readings buffer)).length < 32 ∧ c.lnInst.length < 120)
      (parseSuccess, out.filled c.lnInst (items rt c (readings buffer))) := by
  rw [parser, h]
  exact copyAndStore_none (record_guarded rt c (readings buffer) out)

end CodecZSAR

namespace CodecMMXN

theorem decode_congr {d d' : Buffer} (h : ∀ i < decoded, d i = d' i) : decode d = decode d' := by
  rw [decoded] at h
  have ht := decodeTm_congr 0 fun i hi => by simpa using h i (by omega)
  simp only [decode, ht, h 6 (by omega), h 7 (by omega)]

/-- Every `%f` fits the array of 128 bytes. -/
theorem record_guarded (rt : CRuntime F) (c : CodecState F) (r : Readings)
    (out : DbInsertDatatype) :
    Guarded (record rt c r out) (c.lnInst.length < 120)
      (out.filled c.lnInst (items rt c r)) := by
  rw [record]
  refine ((putText_guarded _ _).bind fun _ => DbInsertDatatype.fill_guarded _ _ _).congr ?_
  have := rt.sprintfF_length (scale rt r.ampData (c.precision rt "Amp"))
  exact and_iff_right (by unfold strAmp; omega)

def copied (stack buffer : Buffer) : Buffer :=
  fun i => if (i : Int) < copyCount buffer then buffer (3 + i) else stack i

def readings (stack buffer : Buffer) : Readings := decode (copied stack buffer)

theorem parser_guarded (rt : CRuntime F) (c : CodecState F) (stack : Buffer) {buffer : Buffer}
    {len : Int} (h : reject buffer len = none) (out : DbInsertDatatype) :
    Guarded (parser rt c stack buffer len out)
      ((0 ≤ copyCount buffer ∧ copyCount buffer ≤ 128) ∧ c.lnInst.length < 120)
      (parseSuccess, out.filled c.lnInst (items rt c (readings stack buffer))) := by
  rw [parser, h]
  exact copyAndStore_none (record_guarded rt c (readings stack buffer) out)

end CodecMMXN

end DbdkyGcc.Codec
