import DbdkyGcc.Foundations.Modbus

/-!
# What the Modbus check sum detects

The register is followed bit by bit, in the order of the line: bytes in order, least
significant bit first. A frame is sealed exactly when the register is zero behind its
last byte (`crc16_append_pair`), so two sealed frames differ by a string of bits that
takes the zero register back to zero. No string of odd weight does, because a shift
keeps the parity of the register, and none whose ones lie within sixteen places,
because the register then still holds the whole string.
-/

namespace DbdkyGcc.Foundations.Modbus

/-- One bit of the line enters the low end of the register. -/
def crcBit (r : BitVec 16) (b : Bool) : BitVec 16 :=
  clock (r ^^^ (BitVec.ofBool b).setWidth 16)

/-- The register behind a string of bits. -/
def feed (r : BitVec 16) (bits : List Bool) : BitVec 16 := bits.foldl crcBit r

/-- The bits of a byte in the order of the line. -/
def byteBits (b : UInt8) : List Bool := (List.range 8).map b.toBitVec.getLsbD

/-- Bit `i` of a frame in the order of the line. -/
def lineBit (f : List UInt8) (i : ℕ) : Bool := (f.getD (i / 8) 0).toBitVec.getLsbD (i % 8)

def lineBits (f : List UInt8) : List Bool := (List.range (8 * f.length)).map (lineBit f)

/-- The places on the line in which two frames differ. -/
def errors (f f' : List UInt8) : Finset ℕ :=
  (Finset.range (8 * f.length)).filter fun i => lineBit f i ≠ lineBit f' i

/-- A frame of the same length with an odd number of wrong bits, or with all its wrong
bits within sixteen consecutive places. -/
structure Corrupts (f f' : List UInt8) : Prop where
  length_eq : f'.length = f.length
  nonempty : (errors f f').Nonempty
  pattern : Odd (errors f f').card ∨ ∃ k, ∀ i ∈ errors f f', k ≤ i ∧ i < k + 16

-- ════════════════════════════════════════════════════════════════════════
-- Shifting loses nothing
-- ════════════════════════════════════════════════════════════════════════

theorem clocks_succ (n : ℕ) (r : BitVec 16) : clocks (n + 1) r = clocks n (clock r) := by
  induction n with
  | zero => rfl
  | succ n ih => rw [clocks, ih, clocks]

/-- The feedback sets the top bit, which a plain shift leaves clear. -/
theorem clock_eq_zero {r : BitVec 16} (h : clock r = 0) : r = 0 := by
  rw [clock] at h
  split at h
  · have htop := congrArg (BitVec.getLsbD · 15) h
    simp at htop
  · next hlow =>
    apply BitVec.eq_of_getLsbD_eq
    intro i hi
    cases i with
    | zero => simpa using hlow
    | succ i =>
      have hbit := congrArg (BitVec.getLsbD · i) h
      rw [BitVec.getLsbD_ushiftRight, Nat.add_comm] at hbit
      simpa using hbit

theorem clocks_eq_zero {n : ℕ} {r : BitVec 16} (h : clocks n r = 0) : r = 0 := by
  induction n with
  | zero => exact h
  | succ n ih => exact ih (clock_eq_zero h)

theorem clocks_zero (n : ℕ) : clocks n 0 = 0 := by
  induction n with
  | zero => rfl
  | succ n ih =>
    rw [clocks, ih]
    rfl

-- ════════════════════════════════════════════════════════════════════════
-- Bits entering the register
-- ════════════════════════════════════════════════════════════════════════

theorem feed_append (r : BitVec 16) (bs cs : List Bool) :
    feed r (bs ++ cs) = feed (feed r bs) cs := List.foldl_append

/-- The register is linear in what it held and in what entered. -/
theorem feed_xor {bs cs : List Bool} (hlen : bs.length = cs.length) (r s : BitVec 16) :
    feed (r ^^^ s) (List.zipWith xor bs cs) = feed r bs ^^^ feed s cs := by
  induction bs generalizing cs r s with
  | nil =>
    rw [List.length_nil] at hlen
    rw [List.length_eq_zero_iff.mp hlen.symm]
    rfl
  | cons b bs ih =>
    obtain ⟨c, cs, rfl⟩ := List.exists_cons_of_length_eq_add_one hlen.symm
    have hbit : crcBit (r ^^^ s) (b ^^ c) = crcBit r b ^^^ crcBit s c := by
      rw [crcBit, crcBit, crcBit, ← clock_xor]
      congr 1
      have hb : (BitVec.ofBool (b ^^ c)).setWidth 16 =
          (BitVec.ofBool b).setWidth 16 ^^^ (BitVec.ofBool c).setWidth 16 := by
        cases b <;> cases c <;> rfl
      rw [hb]
      ac_rfl
    have hrest : bs.length = cs.length := by simpa using hlen
    exact (congrArg (feed · (List.zipWith xor bs cs)) hbit).trans (ih hrest _ _)

theorem feed_of_all_false {bs : List Bool} (h : ∀ b ∈ bs, b = false) (r : BitVec 16) :
    feed r bs = clocks bs.length r := by
  induction bs generalizing r with
  | nil => rfl
  | cons b bs ih =>
    obtain ⟨rfl, hbs⟩ := List.forall_mem_cons.mp h
    have hbit : crcBit r false = clock r := by
      rw [crcBit]
      congr 1
      simp
    rw [List.length_cons, clocks_succ, ← hbit]
    exact ih hbs _

/-- The register that holds a string of at most sixteen bits, the first one lowest. -/
def wordOf : List Bool → BitVec 16
  | [] => 0
  | b :: bs => (wordOf bs <<< 1) ^^^ (BitVec.ofBool b).setWidth 16

theorem getLsbD_wordOf (bs : List Bool) {i : ℕ} (hi : i < 16) :
    (wordOf bs).getLsbD i = bs.getD i false := by
  induction bs generalizing i with
  | nil => simp [wordOf]
  | cons b bs ih =>
    rw [wordOf, BitVec.getLsbD_xor, BitVec.getLsbD_shiftLeft, BitVec.getLsbD_setWidth]
    cases i with
    | zero => simp
    | succ i => simp [hi, ih (by omega : i < 16)]

/-- Up to sixteen bits can be put into the register at once, before it is shifted. -/
theorem feed_eq_clocks {bs : List Bool} (hlen : bs.length ≤ 16) (r : BitVec 16) :
    feed r bs = clocks bs.length (r ^^^ wordOf bs) := by
  induction bs generalizing r with
  | nil => simp [feed, wordOf, clocks]
  | cons b bs ih =>
    rw [List.length_cons] at hlen
    have htop : (wordOf bs).getLsbD 15 = false := by
      rw [getLsbD_wordOf bs (by omega), List.getD_eq_default _ _ (by omega)]
    have hshift : clock (wordOf bs <<< 1) = wordOf bs := by
      rw [clock, if_neg (by simp)]
      apply BitVec.eq_of_getLsbD_eq
      intro i hi
      by_cases h15 : i = 15
      · rw [h15, htop]
        simp
      · rw [BitVec.getLsbD_ushiftRight, BitVec.getLsbD_shiftLeft]
        simp [show 1 + i < 16 by omega]
    have hstep : clock (r ^^^ wordOf (b :: bs)) = crcBit r b ^^^ wordOf bs := by
      rw [crcBit, wordOf, BitVec.xor_comm (wordOf bs <<< 1), ← BitVec.xor_assoc, clock_xor, hshift]
    rw [List.length_cons, clocks_succ, hstep]
    exact ih (by omega) _

theorem crcByte_eq_feed (r : BitVec 16) (b : UInt8) : crcByte r b = feed r (byteBits b) := by
  have hlen : (byteBits b).length = 8 := by simp [byteBits]
  rw [crcByte, feed_eq_clocks (by omega), hlen]
  congr 2
  apply BitVec.eq_of_getLsbD_eq
  intro i hi
  rw [getLsbD_wordOf _ hi, BitVec.getLsbD_setWidth, List.getD_eq_getElem?_getD, byteBits,
    List.getElem?_map]
  by_cases h : i < 8
  · rw [List.getElem?_range h]
    simp [hi]
  · rw [List.getElem?_eq_none (by simpa using h), BitVec.getLsbD_of_ge _ _ (by omega)]
    simp

theorem lineBits_cons (b : UInt8) (f : List UInt8) :
    lineBits (b :: f) = byteBits b ++ lineBits f := by
  rw [lineBits, List.length_cons, show 8 * (f.length + 1) = 8 + 8 * f.length by ring,
    List.range_add, List.map_append, List.map_map]
  have hfirst : (List.range 8).map (lineBit (b :: f)) = byteBits b := by
    apply List.map_congr_left
    intro i hi
    have hi : i < 8 := List.mem_range.mp hi
    rw [lineBit, Nat.div_eq_of_lt hi, Nat.mod_eq_of_lt hi]
    rfl
  have hrest : (List.range (8 * f.length)).map (lineBit (b :: f) ∘ fun x => 8 + x) =
      lineBits f := by
    apply List.map_congr_left
    intro i _
    rw [Function.comp_apply, lineBit, lineBit, Nat.add_div_left i (by omega), Nat.add_mod_left]
    rfl
  rw [hfirst, hrest]

theorem foldl_crcByte (f : List UInt8) (r : BitVec 16) :
    f.foldl crcByte r = feed r (lineBits f) := by
  induction f generalizing r with
  | nil => rfl
  | cons b f ih => rw [List.foldl_cons, ih, lineBits_cons, feed_append, crcByte_eq_feed]

-- ════════════════════════════════════════════════════════════════════════
-- The residue
-- ════════════════════════════════════════════════════════════════════════

theorem foldl_crcByte_pair (r : BitVec 16) (x y : UInt8) :
    [x, y].foldl crcByte r = clocks 16 (r ^^^ (y.toBitVec ++ x.toBitVec : BitVec 16)) := by
  rw [foldl_crcByte, feed_eq_clocks (by simp [lineBits])]
  congr 2
  apply BitVec.eq_of_getLsbD_eq
  intro i hi
  rw [getLsbD_wordOf _ hi, List.getD_eq_getElem?_getD, lineBits, List.getElem?_map,
    List.getElem?_range (by simpa using hi)]
  have happ : (y.toBitVec ++ x.toBitVec : BitVec 16).getLsbD i =
      if i < 8 then x.toBitVec.getLsbD i else y.toBitVec.getLsbD (i - 8) := BitVec.getLsbD_append
  rw [happ, Option.map_some, Option.getD_some, lineBit]
  by_cases h : i < 8
  · rw [if_pos h, Nat.div_eq_of_lt h, Nat.mod_eq_of_lt h]
    rfl
  · rw [if_neg h, show i / 8 = 1 by omega, show i % 8 = i - 8 by omega]
    rfl

/-- The register is zero behind a frame exactly if the frame ends in the check sum of
the rest, low byte first. -/
theorem crc16_append_pair (body : List UInt8) (x y : UInt8) :
    crc16 (body ++ [x, y]) = 0 ↔ crc16 body = y.toBitVec ++ x.toBitVec := by
  rw [crc16, List.foldl_append, foldl_crcByte_pair, ← crc16]
  constructor
  · intro h
    exact BitVec.xor_eq_zero_iff.mp (clocks_eq_zero h)
  · intro h
    rw [h, BitVec.xor_self]
    exact clocks_zero 16

-- ════════════════════════════════════════════════════════════════════════
-- Parity
-- ════════════════════════════════════════════════════════════════════════

/-- The parity of the lowest `n` bits. -/
def parity : ℕ → BitVec 16 → Bool
  | 0, _ => false
  | n + 1, r => parity n r ^^ r.getLsbD n

theorem parity_xor (n : ℕ) (r s : BitVec 16) : parity n (r ^^^ s) = (parity n r ^^ parity n s) := by
  induction n with
  | zero => rfl
  | succ n ih =>
    rw [parity, parity, parity, ih, BitVec.getLsbD_xor]
    cases parity n r <;> cases parity n s <;> cases r.getLsbD n <;> cases s.getLsbD n <;> rfl

theorem parity_zero (n : ℕ) : parity n 0 = false := by
  induction n with
  | zero => rfl
  | succ n ih =>
    rw [parity, ih]
    simp

theorem parity_shift (n : ℕ) (r : BitVec 16) :
    (r.getLsbD 0 ^^ parity n (r >>> 1)) = parity (n + 1) r := by
  induction n with
  | zero => simp [parity]
  | succ n ih =>
    rw [parity, ← Bool.xor_assoc, ih, BitVec.getLsbD_ushiftRight, Nat.add_comm 1 n]
    rfl

/-- The polynomial has three terms below the top one, so what leaves at the low end comes
back as an odd number of ones. -/
theorem parity_clock (r : BitVec 16) : parity 16 (clock r) = parity 16 r := by
  have hshift : (r.getLsbD 0 ^^ parity 16 (r >>> 1)) = parity 16 r := by
    rw [parity_shift, parity, BitVec.getLsbD_of_ge r 16 (by omega), Bool.xor_false]
  rw [clock, ← hshift]
  split
  · next hlow =>
    rw [parity_xor, hlow, Bool.xor_comm]
    rfl
  · next hlow =>
    rw [Bool.not_eq_true] at hlow
    rw [hlow, Bool.false_xor]

theorem parity_feed (bs : List Bool) (r : BitVec 16) :
    parity 16 (feed r bs) = (parity 16 r ^^ decide (Odd (bs.count true))) := by
  induction bs generalizing r with
  | nil => simp [feed]
  | cons b bs ih =>
    have hbit : parity 16 (crcBit r b) = (parity 16 r ^^ b) := by
      rw [crcBit, parity_clock, parity_xor]
      cases b <;> rfl
    have hstep : feed r (b :: bs) = feed (crcBit r b) bs := rfl
    rw [hstep, ih, hbit]
    cases b with
    | false => simp
    | true =>
      rw [List.count_cons_self, Bool.xor_assoc, Bool.true_xor, ← decide_not]
      simp only [Nat.odd_add_one]

-- ════════════════════════════════════════════════════════════════════════
-- Detection
-- ════════════════════════════════════════════════════════════════════════

/-- The wrong bits, as a string that enters the register. -/
def errorBits (f f' : List UInt8) : List Bool :=
  (List.range (8 * f.length)).map fun i => lineBit f i ^^ lineBit f' i

theorem crc16_xor {f f' : List UInt8} (hlen : f'.length = f.length) :
    crc16 f ^^^ crc16 f' = feed 0 (errorBits f f') := by
  have hbits : errorBits f f' = List.zipWith xor (lineBits f) (lineBits f') := by
    rw [errorBits, lineBits, lineBits, hlen, List.zipWith_map, List.zipWith_self]
  rw [crc16, crc16, foldl_crcByte, foldl_crcByte, hbits, ← feed_xor (by simp [lineBits, hlen]),
    BitVec.xor_self]
  rfl

theorem count_errorBits (f f' : List UInt8) :
    (errorBits f f').count true = (errors f f').card := by
  rw [errors, ← Nat.count_eq_card_filter_range, errorBits, List.count_eq_countP, List.countP_map,
    Nat.count]
  apply List.countP_congr
  intro i _
  simp

theorem mem_errors {f f' : List UInt8} {i : ℕ} :
    i ∈ errors f f' ↔ (errorBits f f')[i]? = some true := by
  rw [errors, Finset.mem_filter, Finset.mem_range, errorBits, List.getElem?_map]
  by_cases h : i < 8 * f.length
  · rw [List.getElem?_range h]
    simp [h]
  · rw [List.getElem?_eq_none (by simpa using h)]
    simp [h]

/-- A string whose ones lie within sixteen places, if it has any, does not take the zero
register back to zero: the window can be put into the register at once. -/
theorem feed_zero_ne {bs : List Bool} {k i : ℕ} (hi : bs[i]? = some true)
    (hwindow : ∀ j, bs[j]? = some true → k ≤ j ∧ j < k + 16) : feed 0 bs ≠ 0 := by
  have hclear : ∀ m, (∀ j, bs[j]? = some true → j < m) → ∀ b ∈ bs.drop m, b = false := by
    intro m hm b hb
    obtain ⟨j, hj⟩ := List.getElem?_of_mem hb
    rw [List.getElem?_drop] at hj
    cases b with
    | false => rfl
    | true =>
      have := hm _ hj
      omega
  have hbefore : ∀ b ∈ bs.take k, b = false := by
    intro b hb
    obtain ⟨j, hj⟩ := List.getElem?_of_mem hb
    rw [List.getElem?_take] at hj
    split at hj
    · cases b with
      | false => rfl
      | true =>
        have := (hwindow j hj).1
        omega
    · exact absurd hj (by simp)
  have hsplit : bs = bs.take k ++ ((bs.drop k).take 16 ++ bs.drop (k + 16)) := by
    rw [← List.drop_drop, List.take_append_drop, List.take_append_drop]
  have hlen : ((bs.drop k).take 16).length ≤ 16 := List.length_take_le _ _
  rw [hsplit, feed_append, feed_append, feed_of_all_false hbefore, clocks_zero,
    feed_of_all_false (hclear _ fun j hj => (hwindow j hj).2), feed_eq_clocks hlen]
  intro h
  have hword : wordOf ((bs.drop k).take 16) = 0 := by
    simpa using clocks_eq_zero (clocks_eq_zero h)
  obtain ⟨hki, hik⟩ := hwindow i hi
  have hbit := getLsbD_wordOf ((bs.drop k).take 16) (show i - k < 16 by omega)
  rw [hword, List.getD_eq_getElem?_getD, List.getElem?_take_of_lt (by omega), List.getElem?_drop,
    Nat.add_sub_cancel' hki, hi] at hbit
  simp at hbit

/-- Two frames that differ in such a pattern do not leave the same register. -/
theorem crc16_ne_of_corrupts {f f' : List UInt8} (h : Corrupts f f') : crc16 f ≠ crc16 f' := by
  intro heq
  have hzero : feed 0 (errorBits f f') = 0 := by
    rw [← crc16_xor h.length_eq, heq]
    exact BitVec.xor_self
  rcases h.pattern with hodd | ⟨k, hk⟩
  · have hpar := parity_feed (errorBits f f') 0
    rw [hzero, count_errorBits, decide_eq_true hodd, parity_zero] at hpar
    exact absurd hpar (by decide)
  · obtain ⟨i, hi⟩ := h.nonempty
    exact feed_zero_ne (mem_errors.mp hi) (fun j hj => hk j (mem_errors.mpr hj)) hzero

end DbdkyGcc.Foundations.Modbus
