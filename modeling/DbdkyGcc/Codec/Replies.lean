import DbdkyGcc.Codec.Parsers

/-!
# Query and reply, end to end

The registers that `makeQueryCmd` names come back in the reply of a Modbus slave, and
the parser accepts that reply. What it makes of a register is decided by the width of
the accumulator: sixteen bits keep the register, eight bits keep its low byte only.
-/

namespace DbdkyGcc.Codec

open Foundations

variable {F : Type}

-- ════════════════════════════════════════════════════════════════════════
-- Bytes in a buffer
-- ════════════════════════════════════════════════════════════════════════

theorem getElem?_bytesAt (b : Buffer) {n i : ℕ} (h : i < n) : (bytesAt b n)[i]? = some (b i) := by
  rw [bytesAt, List.getElem?_map, List.getElem?_range h, Option.map_some]

theorem byte_of_bytesAt {b : Buffer} {n i : ℕ} {l : List UInt8} {x : UInt8}
    (hb : bytesAt b n = l) (hi : i < n) (hx : l[i]? = some x) : b i = x := by
  have h := getElem?_bytesAt b hi
  rw [hb, hx] at h
  exact (Option.some.inj h).symm

theorem bytesAt_take (b : Buffer) {m n : ℕ} (h : m ≤ n) :
    (bytesAt b n).take m = bytesAt b m := by
  rw [bytesAt, bytesAt, ← List.map_take, List.take_range, Nat.min_eq_left h]

theorem bytesAt_storeAt (p : Buffer) (l : List UInt8) :
    bytesAt (storeAt p 0 l) l.length = l := by
  apply List.ext_getElem?
  intro i
  by_cases hi : i < l.length
  · rw [getElem?_bytesAt _ hi, storeAt, List.getElem?_eq_getElem hi]
    simp [List.getElem?_eq_getElem hi]
  · rw [List.getElem?_eq_none (by rw [bytesAt_length]; omega), List.getElem?_eq_none (by omega)]

theorem storeAt_append (p : Buffer) (l m : List UInt8) :
    storeAt (storeAt p 0 l) l.length m = storeAt p 0 (l ++ m) := by
  funext i
  by_cases hi : i < l.length
  · simp [storeAt, hi, List.getElem?_append_left hi]
  · simp [storeAt, hi, List.getElem?_append_right (by omega : l.length ≤ i)]

/-- The check succeeds on every sealed frame. -/
theorem crcMatches_withCrc {b : Buffer} {body : List UInt8}
    (h : bytesAt b (body.length + 2) = Modbus.withCrc body) :
    crcMatches b body.length = true := by
  rw [withCrc_eq] at h
  have hbody : bytesAt b body.length = body := by
    rw [← bytesAt_take b (Nat.le_add_right _ 2), h, List.take_left]
  rw [crcMatches_iff, hbody]
  constructor
  · exact byte_of_bytesAt h (by omega) (by simp)
  · exact byte_of_bytesAt h (by omega) (by simp)

-- ════════════════════════════════════════════════════════════════════════
-- The query
-- ════════════════════════════════════════════════════════════════════════

/-- What a builder stores is its body, sealed. -/
theorem bytesAt_sealed (out : Buffer) (body : List UInt8) :
    bytesAt (storeAt (storeAt out 0 body) body.length
      [UInt8.ofNat ((CRC16 (storeAt out 0 body) body.length).toNat >>> 8),
        UInt8.ofNat (CRC16 (storeAt out 0 body) body.length).toNat]) (body.length + 2) =
      Modbus.withCrc body := by
  obtain ⟨hhi, hlo⟩ := CRC16_bytes (storeAt out 0 body) body.length
  rw [hhi, hlo, bytesAt_storeAt, storeAt_append, withCrc_eq]
  have hlen : body.length + 2 =
      (body ++ [(crcLoop body).uchCRCHi, (crcLoop body).uchCRCLo]).length := by
    rw [List.length_append]
    rfl
  rw [hlen, bytesAt_storeAt]

/-- The bytes of a query are sealed and do not depend on what the buffer held. -/
theorem makeQueryCmd_bytes (startLo countLo id : UInt8) (out : Buffer) {len : Int} (h : 8 ≤ len) :
    (makeQueryCmd startLo countLo id out len).1 = 1 ∧
      (makeQueryCmd startLo countLo id out len).2.2 = 8 ∧
      bytesAt (makeQueryCmd startLo countLo id out len).2.1 8 =
        Modbus.withCrc [id, 0x04, 0x00, startLo, 0x00, countLo] := by
  rw [makeQueryCmd, if_neg (by omega)]
  exact ⟨rfl, rfl, bytesAt_sealed out [id, 0x04, 0x00, startLo, 0x00, countLo]⟩

namespace CodecKind

/-- The first of the input registers a codec asks for, and how many. -/
def registers : CodecKind → ℕ × ℕ
  | zsar => (0x20, 10)
  | mmxn => (0x21, 8)

/-- The query that `onQueryDataTimer` writes: it offers a buffer of 14 bytes. -/
def query (kind : CodecKind) (id : UInt8) (codedata : Buffer) : List UInt8 :=
  let r := kind.makeQueryCmd id codedata 14
  bytesAt r.2.1 r.2.2.toNat

/-- The contents of the registers a codec asks for. -/
def requested (kind : CodecKind) (regs : ℕ → UInt16) : List UInt16 :=
  (List.range kind.registers.2).map fun i => regs (kind.registers.1 + i)

/-- A slave answers the query with exactly the requested registers. -/
theorem serve_query (kind : CodecKind) (id : UInt8) (regs : ℕ → UInt16) (codedata : Buffer) :
    Modbus.serve id regs (kind.query id codedata) =
      some (Modbus.reply id (kind.requested regs)) := by
  cases kind with
  | zsar =>
    obtain ⟨-, hlen, hq⟩ := makeQueryCmd_bytes 0x20 0x0A id codedata (by decide : (8 : Int) ≤ 14)
    have hquery : zsar.query id codedata = Modbus.withCrc [id, 0x04, 0x00, 0x20, 0x00, 0x0A] := by
      simp only [query, makeQueryCmd, CodecZSAR.makeQueryCmd, hlen]
      exact hq
    rw [hquery]
    simp [Modbus.withCrc, Modbus.serve, requested, registers]
  | mmxn =>
    obtain ⟨-, hlen, hq⟩ := makeQueryCmd_bytes 0x21 0x08 id codedata (by decide : (8 : Int) ≤ 14)
    have hquery : mmxn.query id codedata = Modbus.withCrc [id, 0x04, 0x00, 0x21, 0x00, 0x08] := by
      simp only [query, makeQueryCmd, CodecMMXN.makeQueryCmd, hlen]
      exact hq
    rw [hquery]
    simp [Modbus.withCrc, Modbus.serve, requested, registers]

end CodecKind

-- ════════════════════════════════════════════════════════════════════════
-- The reply
-- ════════════════════════════════════════════════════════════════════════

theorem accumulate_eight (high low : UInt8) : accumulate 8 high low = low.toNat := by
  have := low.toNat_lt
  rw [accumulate, Nat.shiftLeft_eq]
  omega

theorem accumulate_sixteen (high low : UInt8) :
    accumulate 16 high low = 256 * high.toNat + low.toNat := by
  have := high.toNat_lt
  have := low.toNat_lt
  rw [accumulate, Nat.shiftLeft_eq]
  omega

/-- The two bytes of register `k` of a reply. -/
theorem reply_register {b : Buffer} {id : UInt8} {regs : List UInt16}
    (hb : bytesAt b (2 * regs.length + 5) = Modbus.reply id regs) {k : ℕ} {r : UInt16}
    (hk : regs[k]? = some r) :
    b (3 + 2 * k) = UInt8.ofNat (r.toNat / 256) ∧ b (4 + 2 * k) = UInt8.ofNat (r.toNat % 256) := by
  have hlt : k < regs.length := (List.getElem?_eq_some_iff.mp hk).1
  obtain ⟨hhi, hlo⟩ := Modbus.getElem?_flatMap_wire regs k
  rw [hk, Option.map_some] at hhi hlo
  have hbody : ∀ i, i < 2 * regs.length → (Modbus.reply id regs)[3 + i]? =
      (regs.flatMap Modbus.wire)[i]? := by
    intro i hi
    rw [Modbus.reply, Modbus.withCrc, List.getElem?_append_left
      (by simp only [List.length_cons, Modbus.length_flatMap_wire]; omega), Nat.add_comm]
    rfl
  constructor
  · exact byte_of_bytesAt hb (by omega) ((hbody _ (by omega)).trans hhi)
  · rw [show 4 + 2 * k = 3 + (2 * k + 1) by omega]
    exact byte_of_bytesAt hb (by omega) ((hbody _ (by omega)).trans hlo)

/-- The length field and the check sum of a reply are right. -/
theorem reply_header {b : Buffer} {id : UInt8} {regs : List UInt16}
    (hb : bytesAt b (2 * regs.length + 5) = Modbus.reply id regs) :
    b 0 = id ∧ b 2 = UInt8.ofNat (2 * regs.length) ∧
      crcMatches b (2 * regs.length + 3) = true := by
  refine ⟨byte_of_bytesAt hb (by omega) rfl, byte_of_bytesAt hb (by omega) rfl, ?_⟩
  have hlen : (id :: 0x04 :: UInt8.ofNat (2 * regs.length) ::
      regs.flatMap Modbus.wire).length = 2 * regs.length + 3 := by
    simp only [List.length_cons, Modbus.length_flatMap_wire]
  rw [← hlen]
  apply crcMatches_withCrc
  rw [hlen]
  exact hb

namespace CodecZSAR

/-- A reply passes every early return, and 18 bytes are copied. -/
theorem reject_reply {b : Buffer} {id : UInt8} {regs : List UInt16} (hlen : regs.length = 10)
    (hb : bytesAt b 25 = Modbus.reply id regs) : reject b 25 = none ∧ copyCount b = 18 := by
  have hb' : bytesAt b (2 * regs.length + 5) = Modbus.reply id regs := by rw [hlen]; exact hb
  obtain ⟨-, h2, hcrc⟩ := reply_header hb'
  rw [hlen] at h2 hcrc
  have hl : length b = 20 := by rw [length, h2]; rfl
  rw [reject, copyCount, hl, hcrc]
  exact ⟨rfl, rfl⟩

/-- Of the registers with the three measurements only the low bytes are read. -/
theorem readings_reply {b : Buffer} {id : UInt8} {regs : List UInt16} (hlen : regs.length = 10)
    (hb : bytesAt b 25 = Modbus.reply id regs) {tota risa opcnt : UInt16}
    (htota : regs[4]? = some tota) (hrisa : regs[5]? = some risa) (hopcnt : regs[6]? = some opcnt) :
    (readings b).totaData = tota.toNat % 256 ∧ (readings b).risaData = risa.toNat % 256 ∧
      (readings b).optcntData = opcnt.toNat % 256 := by
  have hb' : bytesAt b (2 * regs.length + 5) = Modbus.reply id regs := by rw [hlen]; exact hb
  have hcount := (reject_reply hlen hb).2
  have hlow : ∀ (k : ℕ) (r : UInt16), k < 9 → regs[k + 1]? = some r →
      (copied b (2 * k + 1)).toNat = r.toNat % 256 := by
    intro k r hk hr
    rw [copied, hcount, if_pos (by omega), show 5 + (2 * k + 1) = 4 + 2 * (k + 1) by omega,
      (reply_register hb' hr).2, UInt8.toNat_ofNat']
    omega
  simp only [readings, decode, accumulate_eight]
  exact ⟨hlow 3 tota (by omega) htota, hlow 4 risa (by omega) hrisa, hlow 5 opcnt (by omega) hopcnt⟩

/-- The end-to-end contract: the slave's answer is accepted, the three measurements are
the contents of their registers and the record is printed from them. -/
def Delivers (rt : CRuntime F) (c : CodecState F) (id : UInt8) (regs : ℕ → UInt16) : Prop :=
  ∀ (codedata buffer : Buffer) (out : DbInsertDatatype) (frame : List UInt8),
    Modbus.serve id regs (CodecKind.zsar.query id codedata) = some frame →
    bytesAt buffer frame.length = frame →
    (readings buffer).totaData = (regs 0x24).toNat ∧
      (readings buffer).risaData = (regs 0x25).toNat ∧
      (readings buffer).optcntData = (regs 0x26).toNat ∧
      ∃ out', parser rt c buffer frame.length out = .ok (parseSuccess, out') ∧
        out' = out.filled c.lnInst (items rt c (readings buffer)) ∧
        out'.dataArray[3]? = some (some (sprintfD (regs 0x26).toNat))

/-- The texts of a record fit: the logical node in the report name, the two scaled values
in their arrays of 32 bytes. -/
def TextsFit (rt : CRuntime F) (c : CodecState F) (tota risa : ℕ) : Prop :=
  (rt.sprintfF (scale rt tota (c.precision rt "TotA"))).length < 32 ∧
    (rt.sprintfF (scale rt risa (c.precision rt "RisA"))).length < 32 ∧ c.lnInst.length < 120

theorem delivers_iff (rt : CRuntime F) (c : CodecState F) (id : UInt8) (regs : ℕ → UInt16) :
    Delivers rt c id regs ↔
      ((regs 0x24).toNat < 256 ∧ (regs 0x25).toNat < 256 ∧ (regs 0x26).toNat < 256) ∧
        TextsFit rt c (regs 0x24).toNat (regs 0x25).toNat := by
  have hlen : (CodecKind.zsar.requested regs).length = 10 := by
    simp [CodecKind.requested, CodecKind.registers]
  have hframe : (Modbus.reply id (CodecKind.zsar.requested regs)).length = 25 := by
    rw [Modbus.reply_length, hlen]
  have hread : ∀ {b : Buffer}, bytesAt b 25 = Modbus.reply id (CodecKind.zsar.requested regs) →
      (readings b).totaData = (regs 0x24).toNat % 256 ∧
        (readings b).risaData = (regs 0x25).toNat % 256 ∧
        (readings b).optcntData = (regs 0x26).toNat % 256 :=
    fun hb => readings_reply hlen hb rfl rfl rfl
  constructor
  · intro h
    let b : Buffer := storeAt (fun _ => 0) 0 (Modbus.reply id (CodecKind.zsar.requested regs))
    have hb : bytesAt b 25 = Modbus.reply id (CodecKind.zsar.requested regs) := by
      rw [← hframe]
      exact bytesAt_storeAt _ _
    obtain ⟨h1, h2, h3, out', hp, -, -⟩ := h (fun _ => 0) b .unwritten _
      (CodecKind.serve_query .zsar id regs _) (by rw [hframe]; exact hb)
    obtain ⟨r1, r2, r3⟩ := hread hb
    obtain ⟨hrej, -⟩ := reject_reply hlen hb
    rw [hframe] at hp
    obtain ⟨-, hfit⟩ := (parser_guarded rt c hrej _).returns_iff.mp ⟨_, hp⟩
    rw [strTotA, strRisA, h1, h2] at hfit
    exact ⟨⟨by omega, by omega, by omega⟩, hfit⟩
  · rintro ⟨⟨h1, h2, h3⟩, hfit⟩ codedata buffer out frame hserve hb
    rw [CodecKind.serve_query] at hserve
    obtain rfl := Option.some.inj hserve
    rw [hframe] at hb ⊢
    obtain ⟨r1, r2, r3⟩ := hread hb
    rw [Nat.mod_eq_of_lt h1] at r1
    rw [Nat.mod_eq_of_lt h2] at r2
    rw [Nat.mod_eq_of_lt h3] at r3
    obtain ⟨hrej, hcount⟩ := reject_reply hlen hb
    refine ⟨r1, r2, r3, _, (parser_guarded rt c hrej out).1 ⟨?_, ?_⟩, rfl, ?_⟩
    · rw [hcount]
      decide
    · rw [strTotA, strRisA, r1, r2]
      exact hfit
    · rw [← r3]
      exact getElem?_putAll out.dataArray _ (i := 3) (by simp [items]) (by decide)

end CodecZSAR

namespace CodecMMXN

theorem reject_reply {b : Buffer} {id : UInt8} {regs : List UInt16} (hlen : regs.length = 8)
    (hb : bytesAt b 21 = Modbus.reply id regs) : reject b 21 = none ∧ copyCount b = 16 := by
  have hb' : bytesAt b (2 * regs.length + 5) = Modbus.reply id regs := by rw [hlen]; exact hb
  obtain ⟨-, h2, hcrc⟩ := reply_header hb'
  rw [hlen] at h2 hcrc
  have hl : length b = 16 := by rw [length, h2]; rfl
  rw [reject, copyCount, hl, hcrc]
  exact ⟨rfl, rfl⟩

/-- The whole register with the measurement is read. -/
theorem readings_reply (stack : Buffer) {b : Buffer} {id : UInt8} {regs : List UInt16}
    (hlen : regs.length = 8) (hb : bytesAt b 21 = Modbus.reply id regs) {amp : UInt16}
    (hamp : regs[3]? = some amp) : (readings stack b).ampData = amp.toNat := by
  have hb' : bytesAt b (2 * regs.length + 5) = Modbus.reply id regs := by rw [hlen]; exact hb
  have hcount := (reject_reply hlen hb).2
  obtain ⟨hhi, hlo⟩ := reply_register hb' hamp
  simp only [readings, decode, accumulate_sixteen, copied, hcount]
  rw [if_pos (by decide), if_pos (by decide), hhi, hlo]
  exact Modbus.wire_value amp

def Delivers (rt : CRuntime F) (c : CodecState F) (id : UInt8) (regs : ℕ → UInt16) : Prop :=
  ∀ (codedata stack buffer : Buffer) (out : DbInsertDatatype) (frame : List UInt8),
    Modbus.serve id regs (CodecKind.mmxn.query id codedata) = some frame →
    bytesAt buffer frame.length = frame →
    (readings stack buffer).ampData = (regs 0x24).toNat ∧
      ∃ out', parser rt c stack buffer frame.length out = .ok (parseSuccess, out') ∧
        out' = out.filled c.lnInst (items rt c (readings stack buffer))

theorem delivers_iff (rt : CRuntime F) (c : CodecState F) (id : UInt8) (regs : ℕ → UInt16) :
    Delivers rt c id regs ↔ c.lnInst.length < 120 := by
  have hlen : (CodecKind.mmxn.requested regs).length = 8 := by
    simp [CodecKind.requested, CodecKind.registers]
  have hframe : (Modbus.reply id (CodecKind.mmxn.requested regs)).length = 21 := by
    rw [Modbus.reply_length, hlen]
  constructor
  · intro h
    let b : Buffer := storeAt (fun _ => 0) 0 (Modbus.reply id (CodecKind.mmxn.requested regs))
    have hb : bytesAt b 21 = Modbus.reply id (CodecKind.mmxn.requested regs) := by
      rw [← hframe]
      exact bytesAt_storeAt _ _
    obtain ⟨-, out', hp, -⟩ := h (fun _ => 0) (fun _ => 0) b .unwritten _
      (CodecKind.serve_query .mmxn id regs _) (by rw [hframe]; exact hb)
    rw [hframe] at hp
    exact ((parser_guarded rt c _ (reject_reply hlen hb).1 _).returns_iff.mp ⟨_, hp⟩).2
  · intro hfit codedata stack buffer out frame hserve hb
    rw [CodecKind.serve_query] at hserve
    obtain rfl := Option.some.inj hserve
    rw [hframe] at hb ⊢
    obtain ⟨hrej, hcount⟩ := reject_reply hlen hb
    refine ⟨readings_reply stack hlen hb rfl, _,
      (parser_guarded rt c stack hrej out).1 ⟨?_, hfit⟩, rfl⟩
    rw [hcount]
    decide

end CodecMMXN

/-- The ZSAR codec delivers what the slave holds exactly when its three measurements are below 256
and the texts of the record fit their arrays, and the MMXN codec exactly when the texts fit. -/
theorem codecs_deliver_iff (rt : CRuntime F) (zsar mmxn : CodecState F) (id : UInt8)
    (regs : ℕ → UInt16) :
    (CodecZSAR.Delivers rt zsar id regs ↔
      ((regs 0x24).toNat < 256 ∧ (regs 0x25).toNat < 256 ∧ (regs 0x26).toNat < 256) ∧
        CodecZSAR.TextsFit rt zsar (regs 0x24).toNat (regs 0x25).toNat) ∧
    (CodecMMXN.Delivers rt mmxn id regs ↔ mmxn.lnInst.length < 120) :=
  ⟨CodecZSAR.delivers_iff rt zsar id regs, CodecMMXN.delivers_iff rt mmxn id regs⟩

/-- A leakage current of 300 is read as 44. -/
theorem zsar_reads_three_hundred_as_forty_four :
    ¬ CodecZSAR.Delivers CRuntime.whole ⟨"ZSAR1", ∅⟩ 2 (fun _ => 300) := by
  rw [CodecZSAR.delivers_iff]
  rintro ⟨⟨h, -, -⟩, -⟩
  exact absurd h (by decide)

end DbdkyGcc.Codec
