import DbdkyGcc.Foundations.ErrorDetection
import DbdkyGcc.Codec.Bounds
import DbdkyGcc.Codec.Replies

/-!
# The check sum of a whole frame

`CRC16` is the Modbus register with its bytes swapped. The check of the parsers is that
the register is zero behind the whole frame, so whatever the Modbus check sum detects,
the parsers reject.
-/

namespace DbdkyGcc.Codec

open Foundations

variable {F : Type}

theorem byte_pair_split (high low : UInt8) :
    (256 * high.toNat + low.toNat) / 256 = high.toNat ∧
      (256 * high.toNat + low.toNat) % 256 = low.toNat := by
  have := low.toNat_lt
  omega

theorem byte_pair_inj {high low high' low' : UInt8} :
    (high.toBitVec ++ low.toBitVec : BitVec 16) = high'.toBitVec ++ low'.toBitVec ↔
      high = high' ∧ low = low' := by
  constructor
  · intro h
    have hnat := congrArg BitVec.toNat h
    have := byte_pair_split high low
    have := byte_pair_split high' low'
    rw [toNat_byte_pair, toNat_byte_pair] at hnat
    exact ⟨UInt8.toNat_inj.mp (by omega), UInt8.toNat_inj.mp (by omega)⟩
  · rintro ⟨rfl, rfl⟩
    rfl

theorem toNat_CRC16 (p : Buffer) (n : ℕ) :
    (CRC16 p n).toNat =
      256 * (crcLoop (bytesAt p n)).uchCRCHi.toNat + (crcLoop (bytesAt p n)).uchCRCLo.toNat := by
  obtain ⟨hhi, hlo⟩ := CRC16_bytes p n
  have hlt := (CRC16 p n).toNat_lt
  rw [← hhi, ← hlo, UInt8.toNat_ofNat', UInt8.toNat_ofNat', Nat.shiftRight_eq_div_pow]
  omega

/-- The table-driven loops compute the register of the bit-by-bit check sum, high and low
byte exchanged. -/
theorem CRC16_swaps_crc16 (msg : List UInt8) (hlen : msg.length < 65536) (puchMsg : Buffer)
    (hmsg : bytesAt puchMsg msg.length = msg) :
    (CRC16 puchMsg msg.length).toNat / 256 = (Modbus.crc16 msg).toNat % 256 ∧
      (CRC16 puchMsg msg.length).toNat % 256 = (Modbus.crc16 msg).toNat / 256 ∧
      crc16 puchMsg (UInt16.ofNat msg.length) = CRC16 puchMsg msg.length := by
  obtain ⟨hhi, hlo⟩ := byte_pair_split (crcLoop msg).uchCRCHi (crcLoop msg).uchCRCLo
  obtain ⟨hlo', hhi'⟩ := byte_pair_split (crcLoop msg).uchCRCLo (crcLoop msg).uchCRCHi
  rw [toNat_CRC16, hmsg, toNat_crc16, hhi, hlo, hhi', hlo', crc16, UInt16.toNat_ofNat',
    Nat.mod_eq_of_lt hlen]
  exact ⟨rfl, rfl, rfl⟩

theorem CRC16_swaps_crc16_query :
    (CRC16 (storeAt (fun _ => 0) 0 [0x01, 0x04, 0x00, 0x20, 0x00, 0x0A]) 6).toNat / 256 =
      (Modbus.crc16 [0x01, 0x04, 0x00, 0x20, 0x00, 0x0A]).toNat % 256 :=
  (CRC16_swaps_crc16 [0x01, 0x04, 0x00, 0x20, 0x00, 0x0A] (by decide) _
    (bytesAt_storeAt _ _)).1

theorem bytesAt_add_two (b : Buffer) (n : ℕ) :
    bytesAt b (n + 2) = bytesAt b n ++ [b n, b (n + 1)] := by
  simp [bytesAt, List.range_succ]

/-- The check of the parsers is the check of every Modbus receiver. -/
theorem crcMatches_iff_residue (b : Buffer) (n : ℕ) :
    crcMatches b n = true ↔ Modbus.crc16 (bytesAt b (n + 2)) = 0 := by
  rw [bytesAt_add_two, Modbus.crc16_append_pair, crcMatches_iff, ← reg_crcLoop, reg,
    byte_pair_inj, and_comm]
  exact and_congr eq_comm eq_comm

theorem CRC16_eq_zero {b : Buffer} {n : ℕ} (h : Modbus.crc16 (bytesAt b n) = 0) :
    CRC16 b n = 0 := by
  have hzero := toNat_crc16 (bytesAt b n)
  rw [h] at hzero
  have hnat : (0 : BitVec 16).toNat = 0 := rfl
  apply UInt16.toNat_inj.mp
  rw [toNat_CRC16, show (0 : UInt16).toNat = 0 from rfl]
  omega

-- ════════════════════════════════════════════════════════════════════════
-- Corrupted replies
-- ════════════════════════════════════════════════════════════════════════

/-- A corrupted frame does not end in its check sum any more. -/
theorem crcMatches_of_corrupts {b b' : Buffer} {n : ℕ} (hb : crcMatches b n = true)
    (h : Modbus.Corrupts (bytesAt b (n + 2)) (bytesAt b' (n + 2))) : crcMatches b' n = false := by
  rw [← Bool.not_eq_true]
  intro hb'
  rw [crcMatches_iff_residue] at hb hb'
  exact Modbus.crc16_ne_of_corrupts h (hb.trans hb'.symm)

namespace CodecKind

theorem frameLength_eq (kind : CodecKind) : kind.frameLength - 2 + 2 = kind.frameLength := by
  cases kind <;> rfl

theorem parser_of_reject (rt : CRuntime F) (kind : CodecKind) (c : CodecState F)
    (stack : Buffer) {b : Buffer} {len code : Int} (h : kind.reject b len = some code)
    (out : DbInsertDatatype) : kind.parser rt c stack b len out = .ok (code, out) := by
  rw [parser_eq, h]
  rfl

theorem reject_of_short (kind : CodecKind) {b : Buffer} {len : Int}
    (hlen : len < kind.frameLength) : kind.reject b len = some parseErrorLengthShort := by
  cases kind
  · exact if_pos hlen
  · exact if_pos hlen

theorem reject_of_not_crcMatches (kind : CodecKind) {b : Buffer} {len : Int}
    (hlen : (kind.frameLength : Int) ≤ len) (hb : crcMatches b (kind.frameLength - 2) = false) :
    kind.reject b len = some parseErrorOther := by
  cases kind
  · exact (if_neg (not_lt.mpr hlen)).trans (if_pos (congrArg not hb))
  · exact (if_neg (not_lt.mpr hlen)).trans (if_pos (congrArg not hb))

/-- A parser answers with success only if a whole frame is there and the check succeeds. -/
theorem crcMatches_of_success (rt : CRuntime F) (kind : CodecKind) {c : CodecState F}
    {stack b : Buffer} {len : Int} {out out' : DbInsertDatatype}
    (h : kind.parser rt c stack b len out = .ok (parseSuccess, out')) :
    (kind.frameLength : Int) ≤ len ∧ crcMatches b (kind.frameLength - 2) = true := by
  have hcode : ∀ code, kind.reject b len = some code → code = parseSuccess := by
    intro code hr
    rw [kind.parser_of_reject rt c stack hr out] at h
    exact congrArg Prod.fst (Except.ok.inj h)
  have hlen : (kind.frameLength : Int) ≤ len := by
    by_contra hshort
    exact absurd (hcode _ (kind.reject_of_short (not_le.mp hshort))) (by decide)
  refine ⟨hlen, ?_⟩
  by_contra hb
  rw [Bool.not_eq_true] at hb
  exact absurd (hcode _ (kind.reject_of_not_crcMatches hlen hb)) (by decide)

end CodecKind

/-- A frame that ends in its check sum does not do so any more when an odd number of bits, or
bits within sixteen consecutive places of the line, are wrong; and no parser accepts what
such an error makes of a frame that it accepts. Bodies from 65536 bytes on are longer than the
`usDataLen` of the source can say. -/
theorem corrupted_frames_rejected (b b' : Buffer) :
    (∀ n, 1 ≤ n → crcMatches b n = true →
      Modbus.Corrupts (bytesAt b (n + 2)) (bytesAt b' (n + 2)) → crcMatches b' n = false) ∧
    ∀ (rt : CRuntime F) (kind : CodecKind) (c c' : CodecState F) (stack stack' : Buffer)
      (len : Int) (out out' stored : DbInsertDatatype),
      kind.parser rt c stack b len out = .ok (parseSuccess, stored) →
      Modbus.Corrupts (bytesAt b kind.frameLength) (bytesAt b' kind.frameLength) →
      kind.parser rt c' stack' b' len out' = .ok (parseErrorOther, out') := by
  refine ⟨fun n _ hb h => crcMatches_of_corrupts hb h, ?_⟩
  intro rt kind c c' stack stack' len out out' stored hok h
  obtain ⟨hlen, hcrc⟩ := kind.crcMatches_of_success rt hok
  rw [← kind.frameLength_eq] at h
  have hbad := kind.reject_of_not_crcMatches hlen (crcMatches_of_corrupts hcrc h)
  exact kind.parser_of_reject rt c' stack' hbad out'

/-- A reply of an MMXN unit, and the same with the lowest bit of its address wrong. -/
def soundReply : Buffer := storeAt (fun _ => 0) 0 (Modbus.reply 1 (List.replicate 8 0x0101))

def flippedReply : Buffer := storeAt soundReply 0 [0]

theorem flippedReply_corrupts :
    Modbus.Corrupts (bytesAt soundReply 21) (bytesAt flippedReply 21) where
  length_eq := by rw [bytesAt_length, bytesAt_length]
  nonempty := by decide +kernel
  pattern := .inl (by decide +kernel)

theorem soundReply_accepted (out : DbInsertDatatype) :
    ∃ stored, CodecKind.mmxn.parser CRuntime.whole ⟨"MMXN1", ∅⟩ (fun _ => 0) soundReply 21 out =
      .ok (parseSuccess, stored) := by
  have hrej : CodecKind.mmxn.reject soundReply 21 = none := by decide +kernel
  have hname : "MMXN1".length < 120 := by decide
  exact ⟨_, (CodecKind.mmxn.parser_guarded _ ⟨"MMXN1", ∅⟩ (fun _ => 0) hrej out).1
    ⟨by decide +kernel, hname⟩⟩

theorem flippedReply_rejected :
    crcMatches flippedReply 19 = false ∧
    CodecKind.mmxn.parser CRuntime.whole ⟨"MMXN1", ∅⟩ (fun _ => 0) flippedReply 21 .unwritten =
      .ok (parseErrorOther, .unwritten) := by
  obtain ⟨stored, hstored⟩ := soundReply_accepted .unwritten
  obtain ⟨hcrc, hparser⟩ := corrupted_frames_rejected (F := ℤ) soundReply flippedReply
  exact ⟨hcrc 19 (by decide) (by decide +kernel) flippedReply_corrupts,
    hparser _ .mmxn _ _ _ _ 21 _ _ _ hstored flippedReply_corrupts⟩

end DbdkyGcc.Codec
