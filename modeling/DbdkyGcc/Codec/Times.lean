import DbdkyGcc.Codec.Commands
import DbdkyGcc.Foundations.Text

/-!
# Time stamps

Both parsers print the six bytes of a time stamp, read them back with `atoi` and give the
result to `mktime`. The year is printed behind `20`, with at least two digits, and the
seconds are printed as an `int`. The decoder of the last operation time in `CodecZSAR` is a
copy of the one of the sample time, without the eight hours.
-/

namespace DbdkyGcc.Codec

open Foundations

variable {F : Type}

-- ════════════════════════════════════════════════════════════════════════
-- Printing and reading back
-- ════════════════════════════════════════════════════════════════════════

theorem toList_sprintfD (i : Int) : (sprintfD i).toList = signed i := by
  cases i with
  | ofNat n =>
    change (toString n).toList = decimal n
    rw [Nat.toString_eq_ofList_toDigits, String.toList_ofList, decimal]
  | negSucc n =>
    change ("-" ++ toString (n + 1)).toList = '-' :: decimal (n + 1)
    rw [String.toList_append, Nat.toString_eq_ofList_toDigits (n := n + 1)]
    simp [decimal]

theorem sprintfD_injective : Function.Injective sprintfD := by
  intro i j h
  have hlist := congrArg String.toList h
  rw [toList_sprintfD, toList_sprintfD] at hlist
  exact signed_injective hlist

theorem toNat_of_isDigit {c : Char} (h : c.isDigit = true) : 48 ≤ c.toNat ∧ c.toNat ≤ 57 := by
  simp only [Char.isDigit, Bool.and_eq_true, decide_eq_true_eq] at h
  exact h

/-- `atoi` of a text that has digits only. -/
theorem atoi_of_digits {s : String} (h : ∀ c ∈ s.toList, c.isDigit = true) :
    atoi s = (Nat.ofDigitChars 10 s.toList 0 : ℕ) := by
  have hfold : ∀ (cs : List Char) (a : ℕ),
      cs.foldl (fun (a : Int) c => 10 * a + (c.toNat - 48 : ℕ)) a =
        (Nat.ofDigitChars 10 cs a : ℕ) := by
    intro cs
    induction cs with
    | nil => exact fun _ => rfl
    | cons c cs ih => exact fun a => ih (10 * a + (c.toNat - 48))
  have hdigits : atoiDigits s.toList = (Nat.ofDigitChars 10 s.toList 0 : ℕ) := by
    rw [atoiDigits, List.takeWhile_eq_self_iff.mpr h]
    exact hfold s.toList 0
  rw [← hdigits, atoi]
  cases hs : s.toList with
  | nil => rfl
  | cons c cs =>
    obtain ⟨h48, h57⟩ := toNat_of_isDigit (h c (by simp [hs]))
    have hspace : ¬ isSpace c = true := by
      have h32 : c ≠ ' ' := by
        rintro rfl
        exact absurd h48 (by decide)
      simp [isSpace, h32]
      omega
    rw [List.dropWhile_cons_of_neg hspace]
    split
    · next heq =>
      rw [(List.cons.inj heq).1] at h48
      exact absurd h48 (by decide)
    · next heq =>
      rw [(List.cons.inj heq).1] at h48
      exact absurd h48 (by decide)
    · rfl

theorem isDigit_decimal {n : ℕ} {c : Char} (h : c ∈ decimal n) : c.isDigit = true :=
  Nat.isDigit_of_mem_toDigits (by decide) (by decide) h

theorem atoi_sprintfD (n : ℕ) : atoi (sprintfD n) = n := by
  have hlist : (sprintfD n).toList = decimal n := toList_sprintfD n
  rw [atoi_of_digits (by rw [hlist]; exact fun c hc => isDigit_decimal hc), hlist]
  exact congrArg Int.ofNat Nat.ofDigitChars_ten_toDigits

theorem length_decimal_le_iff {n k : ℕ} (hk : 0 < k) : (decimal n).length ≤ k ↔ n < 10 ^ k :=
  Nat.length_toDigits_le_iff (by decide) hk

/-- `%02d` prints two digits of a byte below 100 and three of any other. -/
theorem sprintf02D_digits (b : UInt8) :
    (∀ c ∈ (sprintf02D b).toList, c.isDigit = true) ∧
      Nat.ofDigitChars 10 (sprintf02D b).toList 0 = b.toNat ∧
      (sprintf02D b).toList.length = if b.toNat < 100 then 2 else 3 := by
  have hdec : (toString b.toNat).toList = decimal b.toNat := toList_sprintfD b.toNat
  have hval : Nat.ofDigitChars 10 (decimal b.toNat) 0 = b.toNat := Nat.ofDigitChars_ten_toDigits
  have hpos : 0 < (decimal b.toNat).length := Nat.length_toDigits_pos
  have h1 := length_decimal_le_iff (n := b.toNat) (k := 1) (by decide)
  have h2 := length_decimal_le_iff (n := b.toNat) (k := 2) (by decide)
  have h3 := length_decimal_le_iff (n := b.toNat) (k := 3) (by decide)
  have hb := b.toNat_lt
  by_cases h10 : b.toNat < 10
  · have hlist : (sprintf02D b).toList = '0' :: decimal b.toNat := by
      rw [sprintf02D, if_pos h10, String.toList_append, hdec]
      rfl
    rw [hlist, if_pos (by omega)]
    refine ⟨?_, hval, ?_⟩
    · rw [List.forall_mem_cons]
      exact ⟨by decide, fun c hc => isDigit_decimal hc⟩
    · rw [List.length_cons]
      omega
  · rw [sprintf02D, if_neg h10, hdec]
    refine ⟨fun c hc => isDigit_decimal hc, hval, ?_⟩
    split <;> omega

/-- A byte of three digits makes a year of five. -/
theorem atoi_year (b : UInt8) : atoi ("20" ++ sprintf02D b) =
    if b.toNat < 100 then 2000 + (b.toNat : Int) else 20000 + (b.toNat : Int) := by
  obtain ⟨hdigit, hvalue, hlength⟩ := sprintf02D_digits b
  have hlist : ("20" ++ sprintf02D b).toList = '2' :: '0' :: (sprintf02D b).toList :=
    String.toList_append
  have hall : ∀ c ∈ ("20" ++ sprintf02D b).toList, c.isDigit = true := by
    rw [hlist, List.forall_mem_cons, List.forall_mem_cons]
    exact ⟨by decide, by decide, hdigit⟩
  have htwenty : Nat.ofDigitChars 10 ('2' :: '0' :: (sprintf02D b).toList) 0 =
      Nat.ofDigitChars 10 (sprintf02D b).toList 20 := rfl
  rw [atoi_of_digits hall, hlist, htwenty, Nat.ofDigitChars_eq_ofDigitChars_zero, hvalue, hlength]
  split <;> norm_num

theorem toInt_eq_iff (t : Int) : toInt t = t ↔ -2 ^ 31 ≤ t ∧ t < 2 ^ 31 := by
  rw [toInt, Int.bmod_def]
  split <;> omega

-- ════════════════════════════════════════════════════════════════════════
-- The sample time
-- ════════════════════════════════════════════════════════════════════════

/-- The six bytes of a time, in the order of `makeThetimeCmd`. -/
def timeBytes (tm : Tm) : List UInt8 :=
  [yearByte tm, monthByte tm, dayByte tm, hourByte tm, minByte tm, secByte tm]

/-- The bytes stand in the command from its seventh byte on. -/
theorem CodecKind.build_theTime_field (kind : CodecKind) (tm : Tm) (id : UInt8)
    (codedata : Buffer) {i : ℕ} (hi : i < 6) :
    (timeBytes tm)[i]? = some ((kind.build .theTime tm id codedata 14).2.1 (6 + i)) := by
  obtain ⟨frame, hr, hbytes, -⟩ :=
    kind.build_bytes (show (Command.theTime.frameLength : Int) ≤ 14 from le_rfl) tm id codedata
  have hframe : (bytesAt frame 14)[6 + i]? = some (frame (6 + i)) :=
    getElem?_bytesAt frame (by omega)
  have hbody : kind.body .theTime tm id = [id, 0x10, 0x00, 0x05, 0x00, 0x03] ++ timeBytes tm := by
    cases kind <;> rfl
  change bytesAt frame 14 = _ at hbytes
  rw [hbytes, hbody, Modbus.withCrc, List.append_assoc, ← List.getElem?_drop] at hframe
  change (timeBytes tm ++ _)[i]? = _ at hframe
  rw [List.getElem?_append_left hi] at hframe
  rw [hr, hframe]

/-- The seconds from the beginning of 1970 to a calendar time, both in Greenwich. -/
def utcSeconds (tm : Tm) : Int :=
  daysFromCivil (tm.year + 1900) (tm.mon + 1) tm.mday * 86400 + tm.hour * 3600 + tm.min * 60 +
    tm.sec

/-- `mktime` is the conversion of the C library with a `time_t` of 64 bits: it does not fail on
a calendar time, and the local clock is at most a day away from that of Greenwich. -/
def CRuntime.Converts (rt : CRuntime F) : Prop :=
  ∀ tm : Tm, tm.Calendar →
    utcSeconds tm - 86400 ≤ rt.mktime tm ∧ rt.mktime tm ≤ utcSeconds tm + 86400

theorem daysFromCivil_ge {y m d : Int} (hy : 2000 ≤ y) (hy' : y ≤ 2255) (hm : 1 ≤ m) (hm' : m ≤ 12)
    (hd : 1 ≤ d) : 10957 ≤ daysFromCivil y m d ∧ (2100 ≤ y → 47482 ≤ daysFromCivil y m d) := by
  rw [daysFromCivil]
  simp only [Int.fdiv_eq_ediv_of_nonneg _ (by decide : (0 : Int) ≤ 400)]
  -- The year begins in March here: January and February belong to the year before.
  by_cases hm2 : m ≤ 2
  · rw [if_pos hm2, if_neg (by omega)]
    omega
  · rw [if_neg hm2, if_pos (by omega)]
    omega

/-- The decoder gets the calendar time back if its year has two digits. -/
theorem decodeTm_bytes {tm : Tm} (h : tm.Calendar) (data : Buffer) (off : ℕ)
    (hdata : ∀ i < 6, (timeBytes tm)[i]? = some (data (off + i))) :
    decodeTm data off =
      { tm with year := if tm.year < 200 then tm.year else tm.year + 18000 } := by
  obtain ⟨hyear, hmon, hmday, hhour, hmin, hsec⟩ := h.bytes
  have h0 := Option.some.inj (hdata 0 (by decide))
  have h1 := Option.some.inj (hdata 1 (by decide))
  have h2 := Option.some.inj (hdata 2 (by decide))
  have h3 := Option.some.inj (hdata 3 (by decide))
  have h4 := Option.some.inj (hdata 4 (by decide))
  have h5 := Option.some.inj (hdata 5 (by decide))
  rw [Nat.add_zero] at h0
  simp only [decodeTm, ← h0, ← h1, ← h2, ← h3, ← h4, ← h5, atoi_sprintfD, atoi_year]
  rw [Tm.mk.injEq]
  refine ⟨?_, by omega, hmday, hhour, hmin, hsec⟩
  split <;> split <;> omega

theorem utcSeconds_ge {tm : Tm} (h : tm.Calendar) :
    946684800 ≤ utcSeconds tm ∧ (200 ≤ tm.year → 4102444800 ≤ utcSeconds tm) := by
  obtain ⟨hyear, hmon, hmday, hhour, hmin, hsec⟩ := h
  obtain ⟨hall, hlate⟩ := daysFromCivil_ge (y := tm.year + 1900) (m := tm.mon + 1) (d := tm.mday)
    (by omega) (by omega) (by omega) (by omega) (by omega)
  rw [utcSeconds]
  constructor
  · omega
  · intro h200
    have := hlate (by omega)
    omega

/-- What the decoder makes of the bytes of a calendar time is right exactly if the seconds are
an `int`. From the year 2100 on the decoded year is wrong, but no `int` would be right. -/
theorem sampleTime_eq_iff (rt : CRuntime F) (hrt : rt.Converts) {tm : Tm} (h : tm.Calendar)
    {data : Buffer} {off : ℕ} (hdata : ∀ i < 6, (timeBytes tm)[i]? = some (data (off + i))) :
    sampleTime rt (decodeTm data off) = sprintfD (rt.mktime tm + 28800) ↔
      rt.mktime tm + 28800 < 2 ^ 31 := by
  obtain ⟨hlow, -⟩ := hrt tm h
  obtain ⟨hall, hlate⟩ := utcSeconds_ge h
  rw [decodeTm_bytes h data off hdata, sampleTime, sprintfD_injective.eq_iff]
  by_cases h200 : tm.year < 200
  · rw [if_pos h200]
    change toInt (rt.mktime tm + 28800) = _ ↔ _
    rw [toInt_eq_iff]
    omega
  · have hbig := hlate (by omega)
    constructor
    · intro heq
      have hint : ∀ t, toInt t < 2 ^ 31 := fun t => Int.bmod_lt (by decide)
      have := hint (rt.mktime { tm with year := if tm.year < 200 then tm.year
        else tm.year + 18000 } + 8 * 60 * 60)
      omega
    · intro hsmall
      omega

theorem filled_dataArray (out : DbInsertDatatype) (lnInst : String)
    {items : List (String × Int × String)} {i : ℕ} {it : String × Int × String}
    (h : items[i]? = some it) (hi : i < maxItemSize) :
    (out.filled lnInst items).dataArray[i]? = some (some it.2.2) := by
  obtain ⟨hlt, rfl⟩ := List.getElem?_eq_some_iff.mp h
  have hmap : i < (items.map fun it => it.2.2).length := by rwa [List.length_map]
  have hput := getElem?_putAll out.dataArray _ hmap hi
  rw [List.getElem_map] at hput
  exact hput

theorem CodecKind.items_head (rt : CRuntime F) (c : CodecState F) (kind : CodecKind)
    (data : Buffer) :
    (kind.items rt c data)[0]? = some ("SmpTm", typeUtc, sampleTime rt (decodeTm data 0)) := by
  cases kind <;> rfl

/-- For every accepted frame that carries the bytes of `makeThetimeCmd` as its sample time, the
record has the seconds of that time exactly if these are an `int`. -/
theorem sample_time_round_trip_iff (rt : CRuntime F) (hrt : rt.Converts) (kind : CodecKind)
    (c : CodecState F) (stack buffer : Buffer) (len : Int) (out : DbInsertDatatype) (tm : Tm)
    (htm : tm.Calendar) (id : UInt8) (codedata : Buffer)
    (haccepted : kind.reject buffer len = none) (hcopied : 6 ≤ kind.copyCount buffer)
    (hfield : ∀ i < 6, buffer (kind.copyOffset + i) =
      (kind.build .theTime tm id codedata 14).2.1 (6 + i)) :
    ∃ record, Guarded (kind.parser rt c stack buffer len out)
        (kind.Printable rt c (kind.copied stack buffer)) (parseSuccess, record) ∧
      (record.dataArray[0]? = some (some (sprintfD (rt.mktime tm + 28800))) ↔
        rt.mktime tm + 28800 < 2 ^ 31) := by
  have hlength := ((kind.reject_eq_none_iff buffer len).mp haccepted).2.2
  have hcount : kind.copyCount buffer ≤ 128 := by
    cases kind
    · exact le_trans (Int.sub_le_self _ (by decide)) (Int.ofNat_le.mpr hlength)
    · exact Int.ofNat_le.mpr hlength
  have hdata : ∀ i < 6, (timeBytes tm)[i]? = some (kind.copied stack buffer (0 + i)) := by
    intro i hi
    have hsmall : ((0 + i : ℕ) : Int) < kind.copyCount buffer := by omega
    rw [kind.build_theTime_field tm id codedata hi, ← hfield i hi, CodecKind.copied, if_pos hsmall,
      Nat.zero_add]
  refine ⟨_, (kind.parser_guarded rt c stack haccepted out).congr ?_, ?_⟩
  · exact and_iff_right ⟨by omega, hcount⟩
  · rw [filled_dataArray out c.lnInst (kind.items_head rt c _) (by decide), Option.some.injEq,
      Option.some.injEq]
    exact sampleTime_eq_iff rt hrt htm hdata

theorem whole_converts : CRuntime.whole.Converts := by
  intro tm _
  change _ ≤ utcSeconds tm - 8 * 3600 ∧ utcSeconds tm - 8 * 3600 ≤ _
  omega

/-- A reply of an MMXN unit with a sample time. -/
def sampledAt (tm : Tm) : Buffer :=
  storeAt (fun _ => 0) 0 (Modbus.withCrc
    ([1, 0x04, 16] ++ timeBytes tm ++ List.replicate 10 0))

theorem sample_time_round_trip_2014 : ∃ record : DbInsertDatatype,
    CodecKind.mmxn.parser CRuntime.whole ⟨"MMXN1", ∅⟩ (fun _ => 0)
      (sampledAt ⟨114, 5, 1, 12, 0, 0⟩) 21 .unwritten = .ok (parseSuccess, record) ∧
    record.dataArray[0]? = some (some "1401624000") := by
  have htm : (⟨114, 5, 1, 12, 0, 0⟩ : Tm).Calendar :=
    ⟨by decide, by decide, by decide, by decide, by decide, by decide⟩
  obtain ⟨record, hparser, htime⟩ := sample_time_round_trip_iff CRuntime.whole whole_converts .mmxn
    ⟨"MMXN1", ∅⟩ (fun _ => 0) (sampledAt ⟨114, 5, 1, 12, 0, 0⟩) 21 .unwritten
    ⟨114, 5, 1, 12, 0, 0⟩ htm 1 (fun _ => 0) (by decide +kernel) (by decide +kernel)
    (by decide +kernel)
  have hname : "MMXN1".length < 120 := by decide
  exact ⟨record, hparser.1 hname, htime.mpr (by decide)⟩

/-- Two years later than 2038 the seconds have wrapped; in 2100 the year is read as 20100. -/
theorem sample_times_wrap :
    (CodecKind.mmxn.parser CRuntime.whole ⟨"MMXN1", ∅⟩ (fun _ => 0)
        (sampledAt ⟨140, 0, 1, 0, 0, 0⟩) 21 .unwritten).toOption.bind
      (fun r => r.2.dataArray[0]?) = some (some "-2085978496") ∧
    CRuntime.whole.mktime ⟨140, 0, 1, 0, 0, 0⟩ + 28800 = 2208988800 ∧
    (decodeTm (fun i => sampledAt ⟨200, 0, 1, 0, 0, 0⟩ (3 + i)) 0).year + 1900 = 20100 := by
  refine ⟨by decide +kernel, by decide, by decide +kernel⟩

-- ════════════════════════════════════════════════════════════════════════
-- The time of the last operation
-- ════════════════════════════════════════════════════════════════════════

namespace CodecZSAR

/-- The number that is printed for the last operation. -/
def lastOpSeconds (t : Int) : Int := if toInt t = -1 then 0 else toInt t

/-- Eight hours are not a whole number of turns of an `int`. -/
theorem toInt_add_ne (t : Int) : toInt (t + 28800) ≠ lastOpSeconds t := by
  simp only [lastOpSeconds, toInt, Int.bmod_def]
  split_ifs <;> omega

/-- The two stamps of a record agree exactly if the sample was taken eight hours before the last
operation, as far as an `int` tells. So they never agree on the same bytes. -/
theorem time_stamps_agree_iff (rt : CRuntime F) (c : CodecState F) (buffer : Buffer) (len : Int)
    (out : DbInsertDatatype) (haccepted : reject buffer len = none) :
    ∃ record, Guarded (parser rt c buffer len out)
        ((0 ≤ copyCount buffer ∧ copyCount buffer ≤ 128) ∧
          CodecKind.zsar.Printable rt c (copied buffer)) (parseSuccess, record) ∧
      (record.dataArray[0]? = record.dataArray[4]? ↔
        toInt (rt.mktime (decodeTm (copied buffer) 0) + 28800) =
          lastOpSeconds (rt.mktime (decodeTm (copied buffer) 12))) ∧
      ((∀ i < 6, copied buffer (12 + i) = copied buffer i) →
        record.dataArray[0]? ≠ record.dataArray[4]?) := by
  have hsmp : (items rt c (readings buffer))[0]? =
      some ("SmpTm", typeUtc, sampleTime rt (decodeTm (copied buffer) 0)) := rfl
  have hlast : (items rt c (readings buffer))[4]? =
      some ("LastOpTm", typeUtc, lastOpTime rt (decodeTm (copied buffer) 12)) := rfl
  have hiff : (out.filled c.lnInst (items rt c (readings buffer))).dataArray[0]? =
      (out.filled c.lnInst (items rt c (readings buffer))).dataArray[4]? ↔
      toInt (rt.mktime (decodeTm (copied buffer) 0) + 28800) =
        lastOpSeconds (rt.mktime (decodeTm (copied buffer) 12)) := by
    rw [filled_dataArray out c.lnInst hsmp (by decide),
      filled_dataArray out c.lnInst hlast (by decide), Option.some.injEq, Option.some.injEq]
    exact sprintfD_injective.eq_iff
  refine ⟨_, parser_guarded rt c haccepted out, hiff, ?_⟩
  intro hsame
  have hdecode : decodeTm (fun i => copied buffer (12 + i)) 0 = decodeTm (copied buffer) 0 :=
    decodeTm_congr 0 fun i hi => by simpa using hsame i hi
  change decodeTm (copied buffer) 12 = _ at hdecode
  rw [Ne, hiff, hdecode]
  exact toInt_add_ne _

/-- A reply of a ZSAR unit in which both time fields hold the same bytes. -/
def stampedTwice (tm : Tm) : Buffer :=
  storeAt (fun _ => 0) 0 (Modbus.withCrc
    ([1, 0x04, 20, 0, 0] ++ timeBytes tm ++ List.replicate 6 0 ++ timeBytes tm))

/-- The same bytes never give the same text. -/
theorem time_stamps_differ_on_equal_bytes : ∃ record : DbInsertDatatype,
    parser CRuntime.whole ⟨"ZSAR1", ∅⟩ (stampedTwice ⟨114, 5, 1, 12, 0, 0⟩) 25 .unwritten =
      .ok (parseSuccess, record) ∧ record.dataArray[0]? ≠ record.dataArray[4]? := by
  obtain ⟨record, hparser, -, hdiffer⟩ := time_stamps_agree_iff CRuntime.whole ⟨"ZSAR1", ∅⟩
    (stampedTwice ⟨114, 5, 1, 12, 0, 0⟩) 25 .unwritten (by decide +kernel)
  refine ⟨record, hparser.1 ⟨by decide +kernel, ?_⟩, hdiffer (by decide +kernel)⟩
  exact ⟨by decide +kernel, by decide +kernel, by decide⟩

theorem time_stamps_differ_2014 :
    (reject (stampedTwice ⟨114, 5, 1, 12, 0, 0⟩) 25 = none) ∧
    (∀ i < 6, copied (stampedTwice ⟨114, 5, 1, 12, 0, 0⟩) (12 + i) =
      copied (stampedTwice ⟨114, 5, 1, 12, 0, 0⟩) i) ∧
    ((parser CRuntime.whole ⟨"ZSAR1", ∅⟩ (stampedTwice ⟨114, 5, 1, 12, 0, 0⟩) 25
        .unwritten).toOption.map fun r => (r.2.dataArray[0]?, r.2.dataArray[4]?)) =
      some (some (some "1401624000"), some (some "1401595200")) := by
  refine ⟨by decide +kernel, by decide +kernel, by decide +kernel⟩

end CodecZSAR

end DbdkyGcc.Codec
