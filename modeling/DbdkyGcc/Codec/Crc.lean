import DbdkyGcc.Foundations.Modbus

/-!
# The table-driven check sum

`CRC16` of `CodecZSAR.cpp` and `CodecMMXN.cpp` with the tables of `crc.h`. The two
running bytes are the low and the high byte of the Modbus register, in this order
(`reg_crcLoop`), so the frame the codecs check or send ends in the standard check
sum, low byte first (`withCrc_eq`).
-/

namespace DbdkyGcc.Codec

open Foundations

/-- Memory from a pointer on. -/
abbrev Buffer := ℕ → UInt8

/-- The `n` bytes a pointer points at. -/
def bytesAt (p : Buffer) (n : ℕ) : List UInt8 := (List.range n).map p

def auchCRCHi : List UInt8 := [
    0x00, 0xC1, 0x81, 0x40, 0x01, 0xC0, 0x80, 0x41, 0x01, 0xC0, 0x80, 0x41, 0x00, 0xC1, 0x81, 0x40,
    0x01, 0xC0, 0x80, 0x41, 0x00, 0xC1, 0x81, 0x40, 0x00, 0xC1, 0x81, 0x40, 0x01, 0xC0, 0x80, 0x41,
    0x01, 0xC0, 0x80, 0x41, 0x00, 0xC1, 0x81, 0x40, 0x00, 0xC1, 0x81, 0x40, 0x01, 0xC0, 0x80, 0x41,
    0x00, 0xC1, 0x81, 0x40, 0x01, 0xC0, 0x80, 0x41, 0x01, 0xC0, 0x80, 0x41, 0x00, 0xC1, 0x81, 0x40,
    0x01, 0xC0, 0x80, 0x41, 0x00, 0xC1, 0x81, 0x40, 0x00, 0xC1, 0x81, 0x40, 0x01, 0xC0, 0x80, 0x41,
    0x00, 0xC1, 0x81, 0x40, 0x01, 0xC0, 0x80, 0x41, 0x01, 0xC0, 0x80, 0x41, 0x00, 0xC1, 0x81, 0x40,
    0x00, 0xC1, 0x81, 0x40, 0x01, 0xC0, 0x80, 0x41, 0x01, 0xC0, 0x80, 0x41, 0x00, 0xC1, 0x81, 0x40,
    0x01, 0xC0, 0x80, 0x41, 0x00, 0xC1, 0x81, 0x40, 0x00, 0xC1, 0x81, 0x40, 0x01, 0xC0, 0x80, 0x41,
    0x01, 0xC0, 0x80, 0x41, 0x00, 0xC1, 0x81, 0x40, 0x00, 0xC1, 0x81, 0x40, 0x01, 0xC0, 0x80, 0x41,
    0x00, 0xC1, 0x81, 0x40, 0x01, 0xC0, 0x80, 0x41, 0x01, 0xC0, 0x80, 0x41, 0x00, 0xC1, 0x81, 0x40,
    0x00, 0xC1, 0x81, 0x40, 0x01, 0xC0, 0x80, 0x41, 0x01, 0xC0, 0x80, 0x41, 0x00, 0xC1, 0x81, 0x40,
    0x01, 0xC0, 0x80, 0x41, 0x00, 0xC1, 0x81, 0x40, 0x00, 0xC1, 0x81, 0x40, 0x01, 0xC0, 0x80, 0x41,
    0x00, 0xC1, 0x81, 0x40, 0x01, 0xC0, 0x80, 0x41, 0x01, 0xC0, 0x80, 0x41, 0x00, 0xC1, 0x81, 0x40,
    0x01, 0xC0, 0x80, 0x41, 0x00, 0xC1, 0x81, 0x40, 0x00, 0xC1, 0x81, 0x40, 0x01, 0xC0, 0x80, 0x41,
    0x01, 0xC0, 0x80, 0x41, 0x00, 0xC1, 0x81, 0x40, 0x00, 0xC1, 0x81, 0x40, 0x01, 0xC0, 0x80, 0x41,
    0x00, 0xC1, 0x81, 0x40, 0x01, 0xC0, 0x80, 0x41, 0x01, 0xC0, 0x80, 0x41, 0x00, 0xC1, 0x81, 0x40]

def auchCRCLo : List UInt8 := [
    0x00, 0xC0, 0xC1, 0x01, 0xC3, 0x03, 0x02, 0xC2, 0xC6, 0x06, 0x07, 0xC7, 0x05, 0xC5, 0xC4, 0x04,
    0xCC, 0x0C, 0x0D, 0xCD, 0x0F, 0xCF, 0xCE, 0x0E, 0x0A, 0xCA, 0xCB, 0x0B, 0xC9, 0x09, 0x08, 0xC8,
    0xD8, 0x18, 0x19, 0xD9, 0x1B, 0xDB, 0xDA, 0x1A, 0x1E, 0xDE, 0xDF, 0x1F, 0xDD, 0x1D, 0x1C, 0xDC,
    0x14, 0xD4, 0xD5, 0x15, 0xD7, 0x17, 0x16, 0xD6, 0xD2, 0x12, 0x13, 0xD3, 0x11, 0xD1, 0xD0, 0x10,
    0xF0, 0x30, 0x31, 0xF1, 0x33, 0xF3, 0xF2, 0x32, 0x36, 0xF6, 0xF7, 0x37, 0xF5, 0x35, 0x34, 0xF4,
    0x3C, 0xFC, 0xFD, 0x3D, 0xFF, 0x3F, 0x3E, 0xFE, 0xFA, 0x3A, 0x3B, 0xFB, 0x39, 0xF9, 0xF8, 0x38,
    0x28, 0xE8, 0xE9, 0x29, 0xEB, 0x2B, 0x2A, 0xEA, 0xEE, 0x2E, 0x2F, 0xEF, 0x2D, 0xED, 0xEC, 0x2C,
    0xE4, 0x24, 0x25, 0xE5, 0x27, 0xE7, 0xE6, 0x26, 0x22, 0xE2, 0xE3, 0x23, 0xE1, 0x21, 0x20, 0xE0,
    0xA0, 0x60, 0x61, 0xA1, 0x63, 0xA3, 0xA2, 0x62, 0x66, 0xA6, 0xA7, 0x67, 0xA5, 0x65, 0x64, 0xA4,
    0x6C, 0xAC, 0xAD, 0x6D, 0xAF, 0x6F, 0x6E, 0xAE, 0xAA, 0x6A, 0x6B, 0xAB, 0x69, 0xA9, 0xA8, 0x68,
    0x78, 0xB8, 0xB9, 0x79, 0xBB, 0x7B, 0x7A, 0xBA, 0xBE, 0x7E, 0x7F, 0xBF, 0x7D, 0xBD, 0xBC, 0x7C,
    0xB4, 0x74, 0x75, 0xB5, 0x77, 0xB7, 0xB6, 0x76, 0x72, 0xB2, 0xB3, 0x73, 0xB1, 0x71, 0x70, 0xB0,
    0x50, 0x90, 0x91, 0x51, 0x93, 0x53, 0x52, 0x92, 0x96, 0x56, 0x57, 0x97, 0x55, 0x95, 0x94, 0x54,
    0x9C, 0x5C, 0x5D, 0x9D, 0x5F, 0x9F, 0x9E, 0x5E, 0x5A, 0x9A, 0x9B, 0x5B, 0x99, 0x59, 0x58, 0x98,
    0x88, 0x48, 0x49, 0x89, 0x4B, 0x8B, 0x8A, 0x4A, 0x4E, 0x8E, 0x8F, 0x4F, 0x8D, 0x4D, 0x4C, 0x8C,
    0x44, 0x84, 0x85, 0x45, 0x87, 0x47, 0x46, 0x86, 0x82, 0x42, 0x43, 0x83, 0x41, 0x81, 0x80, 0x40]

/-- The running bytes `uchCRCHi` and `uchCRCLo` of the loop. -/
structure CrcBytes where
  uchCRCHi : UInt8
  uchCRCLo : UInt8
deriving DecidableEq

/-- The body of `while (usDataLen--)`. -/
def crcStep (s : CrcBytes) (b : UInt8) : CrcBytes :=
  let uIndex := (s.uchCRCHi ^^^ b).toNat
  ⟨s.uchCRCLo ^^^ auchCRCHi.getD uIndex 0, auchCRCLo.getD uIndex 0⟩

def crcLoop (msg : List UInt8) : CrcBytes := msg.foldl crcStep ⟨0xFF, 0xFF⟩

/-- Of the codecs. The count is an `unsigned short` in the source, so that it means something below
65536 only; all calls there have constants below 24. -/
def CRC16 (puchMsg : Buffer) (usDataLen : ℕ) : UInt16 :=
  let s := crcLoop (bytesAt puchMsg usDataLen)
  UInt16.ofNat (s.uchCRCHi.toNat <<< 8 ||| s.uchCRCLo.toNat)

/-- `crc16` of `crc.h`: the same loop over a count of sixteen bits. -/
def crc16 (puchMsg : Buffer) (usDataLen : UInt16) : UInt16 := CRC16 puchMsg usDataLen.toNat

theorem bytesAt_length (p : Buffer) (n : ℕ) : (bytesAt p n).length = n := by
  simp [bytesAt]

theorem bytesAt_congr {p q : Buffer} {n : ℕ} (h : ∀ i < n, p i = q i) :
    bytesAt p n = bytesAt q n := by
  apply List.map_congr_left
  intro i hi
  exact h i (List.mem_range.mp hi)

/-- The bytes `CRCOut[0]` and `CRCOut[1]` that the codecs take out of the result. -/
theorem CRC16_bytes (p : Buffer) (n : ℕ) :
    UInt8.ofNat ((CRC16 p n).toNat >>> 8) = (crcLoop (bytesAt p n)).uchCRCHi ∧
      UInt8.ofNat (CRC16 p n).toNat = (crcLoop (bytesAt p n)).uchCRCLo := by
  have hsplit : ∀ a b : UInt8, a.toNat <<< 8 ||| b.toNat = 256 * a.toNat + b.toNat := by
    intro a b
    rw [Nat.shiftLeft_eq, Nat.mul_comm]
    exact (Nat.two_pow_add_eq_or_of_lt b.toNat_lt _).symm
  have hfit : ∀ a b : UInt8, 256 * a.toNat + b.toNat < 65536 := by
    intro a b
    have := a.toNat_lt
    have := b.toNat_lt
    omega
  simp only [CRC16, hsplit]
  generalize (crcLoop (bytesAt p n)).uchCRCHi = a
  generalize (crcLoop (bytesAt p n)).uchCRCLo = b
  have hn : (UInt16.ofNat (256 * a.toNat + b.toNat)).toNat = 256 * a.toNat + b.toNat := by
    rw [UInt16.toNat_ofNat']
    exact Nat.mod_eq_of_lt (hfit a b)
  have := a.toNat_lt
  have := b.toNat_lt
  rw [hn, Nat.shiftRight_eq_div_pow]
  constructor
  · apply UInt8.toNat_inj.mp
    rw [UInt8.toNat_ofNat']
    omega
  · apply UInt8.toNat_inj.mp
    rw [UInt8.toNat_ofNat']
    omega

/-- The Modbus register held by the running bytes. -/
def reg (s : CrcBytes) : BitVec 16 := s.uchCRCLo.toBitVec ++ s.uchCRCHi.toBitVec

/-- The table of register words spread over the two byte tables. -/
def word (i : BitVec 8) : BitVec 16 :=
  (auchCRCLo.getD i.toNat 0).toBitVec ++ (auchCRCHi.getD i.toNat 0).toBitVec

/-- Both byte tables of `crc.h` are right in all their entries. -/
theorem tables_eq : auchCRCLo.zipWith (fun lo hi => lo.toBitVec ++ hi.toBitVec) auchCRCHi =
    (List.range 256).map fun k => Modbus.clocks 8 (BitVec.ofNat 16 k) := by
  decide +kernel

theorem word_eq (i : BitVec 8) : word i = Modbus.clocks 8 (i.setWidth 16) := by
  have hi : i.toNat < 256 := i.isLt
  have hlo : i.toNat < auchCRCLo.length := by
    rw [show auchCRCLo.length = 256 by decide +kernel]
    exact hi
  have hhi : i.toNat < auchCRCHi.length := by
    rw [show auchCRCHi.length = 256 by decide +kernel]
    exact hi
  have h := congrArg (fun l => l[i.toNat]?) tables_eq
  simp only [List.getElem?_zipWith, List.getElem?_map, List.getElem?_eq_getElem hlo,
    List.getElem?_eq_getElem hhi, List.getElem?_range hi, Option.map_some, Option.some.injEq] at h
  rw [word, List.getD_eq_getElem _ _ hlo, List.getD_eq_getElem _ _ hhi]
  exact h.trans (congrArg (Modbus.clocks 8) (BitVec.ofNat_toNat 16 i))

theorem getLsbD_bytes (x y : BitVec 8) (i : ℕ) :
    (x ++ y : BitVec 16).getLsbD i = if i < 8 then y.getLsbD i else x.getLsbD (i - 8) :=
  BitVec.getLsbD_append

theorem reg_crcStep (s : CrcBytes) (b : UInt8) :
    reg (crcStep s b) = Modbus.tableByte word (reg s) b := by
  have hlow : (reg s).setWidth 8 ^^^ b.toBitVec = (s.uchCRCHi ^^^ b).toBitVec := by
    apply BitVec.eq_of_getLsbD_eq
    intro i hi
    rw [BitVec.getLsbD_xor, BitVec.getLsbD_setWidth, reg, getLsbD_bytes, if_pos hi]
    simp [hi]
  rw [Modbus.tableByte, hlow]
  apply BitVec.eq_of_getLsbD_eq
  intro i hi
  rw [BitVec.getLsbD_xor, BitVec.getLsbD_ushiftRight, word, reg, reg, getLsbD_bytes,
    getLsbD_bytes, getLsbD_bytes, if_neg (by omega : ¬ 8 + i < 8), Nat.add_sub_cancel_left]
  by_cases h : i < 8
  · simp [crcStep, h]
  · simp [crcStep, h, BitVec.getLsbD_of_ge s.uchCRCLo.toBitVec i (by omega)]

theorem reg_crcLoop (msg : List UInt8) : reg (crcLoop msg) = Modbus.crc16 msg := by
  have h : ∀ (l : List UInt8) (s : CrcBytes),
      reg (l.foldl crcStep s) = l.foldl (Modbus.tableByte word) (reg s) := by
    intro l
    induction l with
    | nil => exact fun _ => rfl
    | cons b l ih => exact fun s => by rw [List.foldl_cons, List.foldl_cons, ih, reg_crcStep]
  rw [crcLoop, h, ← Modbus.crc16_eq_table word word_eq]
  rfl

theorem toNat_byte_pair (high low : UInt8) :
    (high.toBitVec ++ low.toBitVec : BitVec 16).toNat = 256 * high.toNat + low.toNat := by
  rw [BitVec.toNat_append, Nat.shiftLeft_eq, Nat.mul_comm]
  exact (Nat.two_pow_add_eq_or_of_lt low.toNat_lt _).symm

theorem toNat_crc16 (msg : List UInt8) :
    (Modbus.crc16 msg).toNat =
      256 * (crcLoop msg).uchCRCLo.toNat + (crcLoop msg).uchCRCHi.toNat := by
  rw [← reg_crcLoop]
  exact toNat_byte_pair _ _

/-- A sealed frame ends in the two bytes that `CRC16` computes for its body. -/
theorem withCrc_eq (body : List UInt8) :
    Modbus.withCrc body = body ++ [(crcLoop body).uchCRCHi, (crcLoop body).uchCRCLo] := by
  have hh := (crcLoop body).uchCRCHi.toNat_lt
  have hl := (crcLoop body).uchCRCLo.toNat_lt
  rw [Modbus.withCrc, toNat_crc16]
  congr 1
  congr 1
  · apply UInt8.toNat_inj.mp
    rw [UInt8.toNat_ofNat']
    omega
  · congr 1
    apply UInt8.toNat_inj.mp
    rw [UInt8.toNat_ofNat']
    omega

end DbdkyGcc.Codec
