import Mathlib

/-!
# Modbus RTU frames

The check sum and the exchanges of the Modbus RTU line that a master needs which reads
input registers and sets single registers. `crc16` is the bit-by-bit CRC-16 (reflected polynomial
`0xA001`, register preset to ones); `crc16_eq_table` is the reason why a table of
256 words computes it, because a shift of the register is linear in exclusive or.
`serve` and `write` are a slave: it answers a well-formed read request that carries its
own address with the requested registers, and obeys a write of one register.
-/

namespace DbdkyGcc.Foundations.Modbus

/-- One shift of the register. -/
def clock (r : BitVec 16) : BitVec 16 :=
  if r.getLsbD 0 then (r >>> 1) ^^^ 0xA001#16 else r >>> 1

/-- `n` shifts of the register. -/
def clocks : ℕ → BitVec 16 → BitVec 16
  | 0, r => r
  | n + 1, r => clock (clocks n r)

/-- One message byte enters the low end of the register. -/
def crcByte (r : BitVec 16) (b : UInt8) : BitVec 16 :=
  clocks 8 (r ^^^ b.toBitVec.setWidth 16)

def crc16 (msg : List UInt8) : BitVec 16 := msg.foldl crcByte 0xFFFF#16

theorem clock_xor (a b : BitVec 16) : clock (a ^^^ b) = clock a ^^^ clock b := by
  have hcancel : ∀ p x y : BitVec 16, x ^^^ p ^^^ (y ^^^ p) = x ^^^ y := by
    intro p x y
    rw [BitVec.xor_comm y p, ← BitVec.xor_assoc, BitVec.xor_assoc x p p, BitVec.xor_self,
      BitVec.xor_zero]
  unfold clock
  rw [BitVec.getLsbD_xor, BitVec.ushiftRight_xor_distrib]
  cases a.getLsbD 0 <;> cases b.getLsbD 0
  · simp
  · simp [BitVec.xor_assoc]
  · simp only [Bool.xor_false, if_true, Bool.false_eq_true, if_false]
    rw [BitVec.xor_assoc, BitVec.xor_comm (b >>> 1), ← BitVec.xor_assoc]
  · simp only [bne_self_eq_false, Bool.false_eq_true, if_false, if_true]
    exact (hcancel _ _ _).symm

theorem clocks_xor (n : ℕ) (a b : BitVec 16) :
    clocks n (a ^^^ b) = clocks n a ^^^ clocks n b := by
  induction n with
  | zero => rfl
  | succ n ih => rw [clocks, ih, clock_xor, clocks, clocks]

/-- While only zeros leave the register, shifting is plain shifting. -/
theorem clocks_of_low_zero (r : BitVec 16) (n : ℕ) (h : ∀ i < n, r.getLsbD i = false) :
    clocks n r = r >>> n := by
  induction n with
  | zero => simp [clocks]
  | succ n ih =>
    have hn : (r >>> n).getLsbD 0 = false := by simpa using h n (by omega)
    rw [clocks, ih (fun i hi => h i (by omega)), clock, hn, BitVec.shiftRight_add]
    rfl

theorem split_low_byte (r : BitVec 16) :
    r = (r.setWidth 8).setWidth 16 ^^^ (r >>> 8 <<< 8) := by
  apply BitVec.eq_of_getLsbD_eq
  intro i hi
  by_cases h : i < 8
  · simp [h, hi]
  · simp [h, hi, BitVec.getLsbD_setWidth, show 8 + (i - 8) = i by omega]

/-- Eight shifts: those of the low byte, and the high byte moved down. -/
theorem clocks_eight (r : BitVec 16) :
    clocks 8 r = (r >>> 8) ^^^ clocks 8 ((r.setWidth 8).setWidth 16) := by
  have hhigh : clocks 8 (r >>> 8 <<< 8) = r >>> 8 := by
    rw [clocks_of_low_zero _ 8 (fun i hi => by simp [hi])]
    apply BitVec.eq_of_getLsbD_eq
    intro i hi
    by_cases h : 8 + i < 16
    · simp [h]
    · simp [h, BitVec.getLsbD_of_ge r (8 + i) (by omega)]
  conv_lhs => rw [split_low_byte r]
  rw [clocks_xor, hhigh, BitVec.xor_comm]

/-- The register step that looks the low byte up in a table. -/
def tableByte (table : BitVec 8 → BitVec 16) (r : BitVec 16) (b : UInt8) : BitVec 16 :=
  (r >>> 8) ^^^ table (r.setWidth 8 ^^^ b.toBitVec)

theorem tableByte_eq_crcByte (table : BitVec 8 → BitVec 16)
    (htable : ∀ i : BitVec 8, table i = clocks 8 (i.setWidth 16)) (r : BitVec 16) (b : UInt8) :
    tableByte table r b = crcByte r b := by
  have hlow : (r ^^^ b.toBitVec.setWidth 16).setWidth 8 = r.setWidth 8 ^^^ b.toBitVec := by
    apply BitVec.eq_of_getLsbD_eq
    intro i hi
    simp [hi, show i < 16 by omega]
  have hhigh : (r ^^^ b.toBitVec.setWidth 16) >>> 8 = r >>> 8 := by
    apply BitVec.eq_of_getLsbD_eq
    intro i hi
    simp
  rw [crcByte, clocks_eight, hlow, hhigh, tableByte, htable]

/-- Any table of the eight-fold shifts computes the check sum. -/
theorem crc16_eq_table (table : BitVec 8 → BitVec 16)
    (htable : ∀ i : BitVec 8, table i = clocks 8 (i.setWidth 16)) (msg : List UInt8) :
    msg.foldl (tableByte table) 0xFFFF#16 = crc16 msg := by
  rw [crc16, funext₂ (tableByte_eq_crcByte table htable)]

/-- The high and the low byte of a register, as it stands on the wire. -/
def wire (r : UInt16) : List UInt8 :=
  [UInt8.ofNat (r.toNat / 256), UInt8.ofNat (r.toNat % 256)]

theorem wire_length (r : UInt16) : (wire r).length = 2 := rfl

/-- A frame is closed by its check sum, low byte first. -/
def withCrc (body : List UInt8) : List UInt8 :=
  body ++ [UInt8.ofNat ((crc16 body).toNat % 256), UInt8.ofNat ((crc16 body).toNat / 256)]

/-- The reply to a read of input registers. -/
def reply (id : UInt8) (regs : List UInt16) : List UInt8 :=
  withCrc (id :: 0x04 :: UInt8.ofNat (2 * regs.length) :: regs.flatMap wire)

/-- A slave with address `id` and input registers `regs`: it answers only a sealed
read request for its own address. -/
def serve (id : UInt8) (regs : ℕ → UInt16) (query : List UInt8) : Option (List UInt8) :=
  match query with
  | [a, code, startHi, startLo, countHi, countLo, _, _] =>
    if a = id ∧ code = 0x04 ∧ query = withCrc [a, code, startHi, startLo, countHi, countLo] then
      some (reply id ((List.range (256 * countHi.toNat + countLo.toNat)).map fun i =>
        regs (256 * startHi.toNat + startLo.toNat + i)))
    else none
  | _ => none

/-- A slave with address `id` and holding registers `regs`: it obeys only a sealed write of
one register for its own address. -/
def write (id : UInt8) (regs : ℕ → UInt16) (cmd : List UInt8) : ℕ → UInt16 :=
  match cmd with
  | [a, code, regHi, regLo, high, low, _, _] =>
    if a = id ∧ code = 0x06 ∧ cmd = withCrc [a, code, regHi, regLo, high, low] then
      Function.update regs (256 * regHi.toNat + regLo.toNat)
        (UInt16.ofNat (256 * high.toNat + low.toNat))
    else regs
  | _ => regs

theorem write_withCrc (id regHi regLo high low : UInt8) (regs : ℕ → UInt16) :
    write id regs (withCrc [id, 0x06, regHi, regLo, high, low]) =
      Function.update regs (256 * regHi.toNat + regLo.toNat)
        (UInt16.ofNat (256 * high.toNat + low.toNat)) :=
  if_pos ⟨rfl, rfl, rfl⟩

theorem length_flatMap_wire (regs : List UInt16) :
    (regs.flatMap wire).length = 2 * regs.length := by
  induction regs with
  | nil => rfl
  | cons r rs ih =>
    rw [List.flatMap_cons, List.length_append, ih, wire_length, List.length_cons]
    omega

/-- Register `k` stands on the wire as bytes `2 k` and `2 k + 1`. -/
theorem getElem?_flatMap_wire (regs : List UInt16) (k : ℕ) :
    (regs.flatMap wire)[2 * k]? = regs[k]?.map (fun r => UInt8.ofNat (r.toNat / 256)) ∧
      (regs.flatMap wire)[2 * k + 1]? = regs[k]?.map (fun r => UInt8.ofNat (r.toNat % 256)) := by
  induction regs generalizing k with
  | nil => simp
  | cons r rs ih =>
    cases k with
    | zero => simp [wire]
    | succ k =>
      rw [show 2 * (k + 1) = 2 * k + 2 by omega]
      simpa [wire] using ih k

theorem wire_value (r : UInt16) :
    256 * (UInt8.ofNat (r.toNat / 256)).toNat + (UInt8.ofNat (r.toNat % 256)).toNat = r.toNat := by
  have := r.toNat_lt
  simp only [UInt8.toNat_ofNat']
  omega

theorem reply_length (id : UInt8) (regs : List UInt16) :
    (reply id regs).length = 2 * regs.length + 5 := by
  simp only [reply, withCrc, List.length_append, List.length_cons, List.length_nil,
    length_flatMap_wire]

end DbdkyGcc.Foundations.Modbus
