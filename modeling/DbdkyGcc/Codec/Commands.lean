import DbdkyGcc.Codec.Residue

/-!
# The commands

The ten command builders of `CodecZSAR.cpp` and `CodecMMXN.cpp`. Whatever a builder puts
into a frame, it seals the frame and stays inside it. The clock of a unit is set by three
commands, each with a reading of the clock of its own; what the unit then holds is put
together from the three readings.
-/

namespace DbdkyGcc.Codec

open Foundations

/-- A number goes into an `unsigned short` and from there into a byte of the frame. -/
def toByte (x : Int) : UInt8 := (UInt16.ofInt x).toUInt8

def yearByte (tmCur : Tm) : UInt8 := toByte (tmCur.year + 1900 - 2000)
def monthByte (tmCur : Tm) : UInt8 := toByte (tmCur.mon + 1)
def dayByte (tmCur : Tm) : UInt8 := toByte tmCur.mday
def hourByte (tmCur : Tm) : UInt8 := toByte tmCur.hour
def minByte (tmCur : Tm) : UInt8 := toByte tmCur.min
def secByte (tmCur : Tm) : UInt8 := toByte tmCur.sec

/-- What all builders do: the body is stored, then the check sum of its first `span` bytes
from `pos` on. The result is the return value, the buffer and the length. -/
def buildCmd (minLen : Int) (body : List UInt8) (span pos : ℕ) (newLen : Int) (out : Buffer)
    (len : Int) : Int × Buffer × Int :=
  if len < minLen then (0, out, len)
  else
    let out := storeAt out 0 body
    let uCRC := (CRC16 out span).toNat
    (1, storeAt out pos [UInt8.ofNat (uCRC >>> 8), UInt8.ofNat uCRC], newLen)

namespace CodecZSAR

/-- The reading `tmCur` of the clock is what `localtime` makes of `time(NULL)`. -/
def makeYearMonthCmd (tmCur : Tm) (id : UInt8) : Buffer → Int → Int × Buffer × Int :=
  buildCmd 8 [id, 0x06, 0x00, 0x05, yearByte tmCur, monthByte tmCur] 6 6 8

def makeDayHourCmd (tmCur : Tm) (id : UInt8) : Buffer → Int → Int × Buffer × Int :=
  buildCmd 8 [id, 0x06, 0x00, 0x06, dayByte tmCur, hourByte tmCur] 6 6 8

def makeMinSecCmd (tmCur : Tm) (id : UInt8) : Buffer → Int → Int × Buffer × Int :=
  buildCmd 8 [id, 0x06, 0x00, 0x07, minByte tmCur, secByte tmCur] 6 6 8

def makeThetimeCmd (tmCur : Tm) (id : UInt8) : Buffer → Int → Int × Buffer × Int :=
  buildCmd 14 [id, 0x10, 0x00, 0x05, 0x00, 0x03, yearByte tmCur, monthByte tmCur, dayByte tmCur,
    hourByte tmCur, minByte tmCur, secByte tmCur] 12 12 14

end CodecZSAR

namespace CodecMMXN

/-- `MMXN_SET_TIME_REG_CMD_LEN` -/
def setTimeRegCmdLen : ℕ := 8

/-- `MMXN_MKTIME_CMD_LEN` -/
def mktimeCmdLen : ℕ := 14

def makeYearMonthCmd (tmCur : Tm) (id : UInt8) : Buffer → Int → Int × Buffer × Int :=
  buildCmd setTimeRegCmdLen [id, 0x06, 0x00, 0x05, yearByte tmCur, monthByte tmCur] 6 6
    setTimeRegCmdLen

def makeDayHourCmd (tmCur : Tm) (id : UInt8) : Buffer → Int → Int × Buffer × Int :=
  buildCmd setTimeRegCmdLen [id, 0x06, 0x00, 0x06, dayByte tmCur, hourByte tmCur] 6 6
    setTimeRegCmdLen

def makeMinSecCmd (tmCur : Tm) (id : UInt8) : Buffer → Int → Int × Buffer × Int :=
  buildCmd setTimeRegCmdLen [id, 0x06, 0x00, 0x07, minByte tmCur, secByte tmCur] 6 6
    setTimeRegCmdLen

def makeThetimeCmd (tmCur : Tm) (id : UInt8) : Buffer → Int → Int × Buffer × Int :=
  buildCmd mktimeCmdLen [id, 0x10, 0x00, 0x05, 0x00, 0x03, yearByte tmCur, monthByte tmCur,
    dayByte tmCur, hourByte tmCur, minByte tmCur, secByte tmCur] (mktimeCmdLen - 2) 12
    mktimeCmdLen

end CodecMMXN

/-- The commands of a codec. -/
inductive Command
  | yearMonth
  | dayHour
  | minSec
  | theTime
  | query
deriving DecidableEq

/-- The number of bytes of a command. -/
def Command.frameLength : Command → ℕ
  | .theTime => 14
  | _ => 8

namespace CodecKind

/-- The virtual calls of the builders; a query does not read the clock. -/
def build : CodecKind → Command → Tm → UInt8 → Buffer → Int → Int × Buffer × Int
  | zsar, .yearMonth => CodecZSAR.makeYearMonthCmd
  | zsar, .dayHour => CodecZSAR.makeDayHourCmd
  | zsar, .minSec => CodecZSAR.makeMinSecCmd
  | zsar, .theTime => CodecZSAR.makeThetimeCmd
  | zsar, .query => fun _ => CodecZSAR.makeQueryCmd
  | mmxn, .yearMonth => CodecMMXN.makeYearMonthCmd
  | mmxn, .dayHour => CodecMMXN.makeDayHourCmd
  | mmxn, .minSec => CodecMMXN.makeMinSecCmd
  | mmxn, .theTime => CodecMMXN.makeThetimeCmd
  | mmxn, .query => fun _ => CodecMMXN.makeQueryCmd

/-- What a command says, without its check sum. -/
def body (kind : CodecKind) (cmd : Command) (tm : Tm) (id : UInt8) : List UInt8 :=
  match cmd with
  | .yearMonth => [id, 0x06, 0x00, 0x05, yearByte tm, monthByte tm]
  | .dayHour => [id, 0x06, 0x00, 0x06, dayByte tm, hourByte tm]
  | .minSec => [id, 0x06, 0x00, 0x07, minByte tm, secByte tm]
  | .theTime => [id, 0x10, 0x00, 0x05, 0x00, 0x03, yearByte tm, monthByte tm, dayByte tm,
      hourByte tm, minByte tm, secByte tm]
  | .query => [id, 0x04, 0x00, UInt8.ofNat kind.registers.1, 0x00, UInt8.ofNat kind.registers.2]

/-- The literals of the ten builders fit together. -/
theorem build_eq (kind : CodecKind) (cmd : Command) (tm : Tm) (id : UInt8) (out : Buffer)
    (len : Int) :
    kind.build cmd tm id out len =
      buildCmd ((kind.body cmd tm id).length + 2 : ℕ) (kind.body cmd tm id)
        (kind.body cmd tm id).length (kind.body cmd tm id).length
        ((kind.body cmd tm id).length + 2 : ℕ) out len := by
  cases kind <;> cases cmd <;> rfl

theorem length_body (kind : CodecKind) (cmd : Command) (tm : Tm) (id : UInt8) :
    (kind.body cmd tm id).length + 2 = cmd.frameLength := by
  cases cmd <;> rfl

theorem body_head (kind : CodecKind) (cmd : Command) (tm : Tm) (id : UInt8) :
    (kind.body cmd tm id)[0]? = some id := by
  cases cmd <;> rfl

theorem build_short (kind : CodecKind) {cmd : Command} {len : Int} (h : len < cmd.frameLength)
    (tm : Tm) (id : UInt8) (out : Buffer) : kind.build cmd tm id out len = (0, out, len) := by
  rw [build_eq, length_body]
  exact if_pos h

/-- What is stored: the body, sealed, and nothing behind it. -/
theorem build_bytes (kind : CodecKind) {cmd : Command} {len : Int}
    (h : (cmd.frameLength : Int) ≤ len) (tm : Tm) (id : UInt8) (out : Buffer) :
    ∃ frame : Buffer, kind.build cmd tm id out len = (1, frame, (cmd.frameLength : Int)) ∧
      bytesAt frame cmd.frameLength = Modbus.withCrc (kind.body cmd tm id) ∧
      ∀ i, cmd.frameLength ≤ i → frame i = out i := by
  rw [build_eq]
  rw [← kind.length_body cmd tm id] at h ⊢
  refine ⟨_, if_neg (not_lt.mpr h), bytesAt_sealed out _, ?_⟩
  intro i hi
  rw [storeAt_append]
  simp only [storeAt, Nat.not_lt_zero, if_false, Nat.sub_zero]
  rw [List.getElem?_eq_none, Option.getD_none]
  simpa using hi

end CodecKind

theorem crc16_withCrc (body : List UInt8) : Modbus.crc16 (Modbus.withCrc body) = 0 := by
  rw [withCrc_eq, Modbus.crc16_append_pair, ← reg_crcLoop]
  rfl

/-- A builder that refuses leaves buffer and length alone, and the length was too small; one
that succeeds stays inside the given length and stores a frame that begins with the address
and leaves no residue in the check sum. -/
theorem commands_sealed (kind : CodecKind) (cmd : Command) (tm : Tm) (id : UInt8) (out : Buffer)
    (len : Int) :
    let r := kind.build cmd tm id out len
    (r.1 = 0 ∨ r.1 = 1) ∧
    (r.1 = 0 → r.2.1 = out ∧ r.2.2 = len ∧ len < cmd.frameLength) ∧
    (r.1 = 1 → r.2.2 ≤ len ∧ (∀ i : ℕ, r.2.2 ≤ i → r.2.1 i = out i) ∧ r.2.1 0 = id ∧
      CRC16 r.2.1 r.2.2.toNat = 0 ∧ crcMatches r.2.1 (r.2.2.toNat - 2) = true ∧
      Modbus.crc16 (bytesAt r.2.1 r.2.2.toNat) = 0) := by
  by_cases h : len < cmd.frameLength
  · rw [kind.build_short h]
    exact ⟨.inl rfl, fun _ => ⟨rfl, rfl, h⟩, fun h1 => absurd h1 zero_ne_one⟩
  · rw [not_lt] at h
    obtain ⟨frame, hr, hbytes, hframe⟩ := kind.build_bytes h tm id out
    have hres : Modbus.crc16 (bytesAt frame cmd.frameLength) = 0 := by
      rw [hbytes, crc16_withCrc]
    have hlen : cmd.frameLength - 2 + 2 = cmd.frameLength := by
      rw [← kind.length_body cmd tm id, Nat.add_sub_cancel]
    have hhead : frame 0 = id := by
      apply byte_of_bytesAt hbytes (by omega)
      rw [Modbus.withCrc, List.getElem?_append_left (by cases cmd <;> exact Nat.succ_pos _)]
      exact kind.body_head cmd tm id
    rw [hr]
    refine ⟨.inr rfl, fun h0 => absurd h0 one_ne_zero, fun _ => ⟨h, ?_, hhead, ?_, ?_, hres⟩⟩
    · exact fun i hi => hframe i (Int.ofNat_le.mp hi)
    · exact CRC16_eq_zero hres
    · rw [crcMatches_iff_residue]
      change Modbus.crc16 (bytesAt frame (cmd.frameLength - 2 + 2)) = 0
      rw [hlen, hres]

theorem commands_sealed_theTime :
    CRC16 (CodecMMXN.makeThetimeCmd ⟨114, 11, 31, 23, 59, 59⟩ 3 (fun _ => 0) 20).2.1 14 = 0 :=
  ((commands_sealed .mmxn .theTime ⟨114, 11, 31, 23, 59, 59⟩ 3 (fun _ => 0) 20).2.2 rfl).2.2.2.1

-- ════════════════════════════════════════════════════════════════════════
-- Setting the clock of a unit
-- ════════════════════════════════════════════════════════════════════════

def isLeap (year : Int) : Bool := year % 4 = 0 && (year % 100 ≠ 0 || year % 400 = 0)

def daysInMonth (year month : Int) : Int :=
  if month = 2 then if isLeap year then 29 else 28
  else if month = 4 ∨ month = 6 ∨ month = 9 ∨ month = 11 then 30
  else 31

/-- A calendar time of the years 2000 to 2255, which a byte can tell apart. -/
structure Tm.Calendar (tm : Tm) : Prop where
  year : 2000 ≤ tm.year + 1900 ∧ tm.year + 1900 ≤ 2255
  mon : 0 ≤ tm.mon ∧ tm.mon ≤ 11
  mday : 1 ≤ tm.mday ∧ tm.mday ≤ daysInMonth (tm.year + 1900) (tm.mon + 1)
  hour : 0 ≤ tm.hour ∧ tm.hour ≤ 23
  min : 0 ≤ tm.min ∧ tm.min ≤ 59
  sec : 0 ≤ tm.sec ∧ tm.sec ≤ 60

theorem daysInMonth_le (year month : Int) : daysInMonth year month ≤ 31 := by
  unfold daysInMonth
  split_ifs <;> omega

theorem toNat_toByte {x : Int} (h₀ : 0 ≤ x) (h₁ : x ≤ 255) : ((toByte x).toNat : Int) = x := by
  rw [toByte, UInt16.toNat_toUInt8, UInt16.ofInt, UInt16.toNat_ofNat']
  omega

/-- The three registers in which a unit keeps its time. -/
def Tm.yearMonth (tm : Tm) : ℤ ×ₗ ℤ := toLex (tm.year, tm.mon)
def Tm.dayHour (tm : Tm) : ℤ ×ₗ ℤ := toLex (tm.mday, tm.hour)
def Tm.minSec (tm : Tm) : ℤ ×ₗ ℤ := toLex (tm.min, tm.sec)

/-- Calendar times are ordered by the year, then by the month, and so on. -/
def Tm.stamp (tm : Tm) : (ℤ ×ₗ ℤ) ×ₗ (ℤ ×ₗ ℤ) ×ₗ (ℤ ×ₗ ℤ) :=
  toLex (tm.yearMonth, toLex (tm.dayHour, tm.minSec))

/-- The calendar time that stands in registers 5, 6 and 7. -/
def held (regs : ℕ → UInt16) : Tm where
  year := 2000 + ((regs 5).toNat / 256 : ℕ) - 1900
  mon := ((regs 5).toNat % 256 : ℕ) - 1
  mday := ((regs 6).toNat / 256 : ℕ)
  hour := ((regs 6).toNat % 256 : ℕ)
  min := ((regs 7).toNat / 256 : ℕ)
  sec := ((regs 7).toNat % 256 : ℕ)

/-- A command is built at the time `tm` and written to the unit. -/
def CodecKind.send (kind : CodecKind) (cmd : Command) (id : UInt8) (codedata : Buffer) (len : Int)
    (tm : Tm) (regs : ℕ → UInt16) : ℕ → UInt16 :=
  let r := kind.build cmd tm id codedata len
  Modbus.write id regs (bytesAt r.2.1 r.2.2.toNat)

/-- The three commands, built at the times `t₁`, `t₂` and `t₃`. -/
def CodecKind.setClock (kind : CodecKind) (id : UInt8) (codedata : Buffer) (len : Int)
    (t₁ t₂ t₃ : Tm) (regs : ℕ → UInt16) : ℕ → UInt16 :=
  kind.send .minSec id codedata len t₃
    (kind.send .dayHour id codedata len t₂ (kind.send .yearMonth id codedata len t₁ regs))

/-- A write of one register arrives. -/
theorem CodecKind.send_eq (kind : CodecKind) {cmd : Command} {id : UInt8} (codedata : Buffer)
    {len : Int} (hlen : 8 ≤ len) {tm : Tm} {regLo high low : UInt8}
    (hcmd : cmd.frameLength = 8) (hbody : kind.body cmd tm id = [id, 0x06, 0x00, regLo, high, low])
    (regs : ℕ → UInt16) :
    kind.send cmd id codedata len tm regs =
      Function.update regs regLo.toNat (UInt16.ofNat (256 * high.toNat + low.toNat)) := by
  obtain ⟨frame, hr, hbytes, -⟩ :=
    kind.build_bytes (show (cmd.frameLength : Int) ≤ len by rw [hcmd]; exact hlen) tm id codedata
  have hwrite := Modbus.write_withCrc id 0x00 regLo high low regs
  rw [show 256 * (0x00 : UInt8).toNat + regLo.toNat = regLo.toNat from Nat.zero_add _] at hwrite
  rw [send, hr, ← hwrite, ← hbody, ← hbytes]
  rfl

theorem toNat_register (high low : UInt8) :
    (UInt16.ofNat (256 * high.toNat + low.toNat)).toNat / 256 = high.toNat ∧
      (UInt16.ofNat (256 * high.toNat + low.toNat)).toNat % 256 = low.toNat := by
  have hhigh := high.toNat_lt
  have hlow := low.toNat_lt
  rw [UInt16.toNat_ofNat', Nat.mod_eq_of_lt (by omega)]
  exact byte_pair_split high low

/-- The registers behind the three commands. -/
theorem setClock_registers (kind : CodecKind) (id : UInt8) (codedata : Buffer) {len : Int}
    (hlen : 8 ≤ len) (t₁ t₂ t₃ : Tm) (regs : ℕ → UInt16) :
    kind.setClock id codedata len t₁ t₂ t₃ regs 5 =
        UInt16.ofNat (256 * (yearByte t₁).toNat + (monthByte t₁).toNat) ∧
      kind.setClock id codedata len t₁ t₂ t₃ regs 6 =
        UInt16.ofNat (256 * (dayByte t₂).toNat + (hourByte t₂).toNat) ∧
      kind.setClock id codedata len t₁ t₂ t₃ regs 7 =
        UInt16.ofNat (256 * (minByte t₃).toNat + (secByte t₃).toNat) := by
  have hyear : kind.body .yearMonth t₁ id = [id, 0x06, 0x00, 0x05, yearByte t₁, monthByte t₁] := rfl
  have hday : kind.body .dayHour t₂ id = [id, 0x06, 0x00, 0x06, dayByte t₂, hourByte t₂] := rfl
  have hmin : kind.body .minSec t₃ id = [id, 0x06, 0x00, 0x07, minByte t₃, secByte t₃] := rfl
  rw [CodecKind.setClock, kind.send_eq codedata hlen rfl hyear, kind.send_eq codedata hlen rfl hday,
    kind.send_eq codedata hlen rfl hmin]
  exact ⟨rfl, rfl, rfl⟩

/-- The bytes of a calendar time say what the calendar time is. -/
theorem Tm.Calendar.bytes {tm : Tm} (h : tm.Calendar) :
    ((yearByte tm).toNat : Int) = tm.year + 1900 - 2000 ∧
      ((monthByte tm).toNat : Int) = tm.mon + 1 ∧
      ((dayByte tm).toNat : Int) = tm.mday ∧ ((hourByte tm).toNat : Int) = tm.hour ∧
      ((minByte tm).toNat : Int) = tm.min ∧ ((secByte tm).toNat : Int) = tm.sec := by
  obtain ⟨hyear, hmon, hmday, hhour, hmin, hsec⟩ := h
  have h31 := daysInMonth_le (tm.year + 1900) (tm.mon + 1)
  exact ⟨toNat_toByte (by omega) (by omega), toNat_toByte (by omega) (by omega),
    toNat_toByte (by omega) (by omega), toNat_toByte (by omega) (by omega),
    toNat_toByte (by omega) (by omega), toNat_toByte (by omega) (by omega)⟩

/-- The unit holds year and month of the first reading, day and hour of the second, minute and
second of the third. -/
theorem held_setClock (kind : CodecKind) (id : UInt8) (codedata : Buffer) {len : Int}
    (hlen : 8 ≤ len) {t₁ t₂ t₃ : Tm} (h₁ : t₁.Calendar) (h₂ : t₂.Calendar) (h₃ : t₃.Calendar)
    (regs : ℕ → UInt16) :
    held (kind.setClock id codedata len t₁ t₂ t₃ regs) =
      ⟨t₁.year, t₁.mon, t₂.mday, t₂.hour, t₃.min, t₃.sec⟩ := by
  obtain ⟨r5, r6, r7⟩ := setClock_registers kind id codedata hlen t₁ t₂ t₃ regs
  obtain ⟨hyear, hmon, -⟩ := h₁.bytes
  obtain ⟨-, -, hmday, hhour, -⟩ := h₂.bytes
  obtain ⟨-, -, -, -, hmin, hsec⟩ := h₃.bytes
  have hy : (2000 : Int) + (t₁.year + 1900 - 2000) - 1900 = t₁.year := by ring
  simp only [held, r5, r6, r7, toNat_register, hyear, hmon, hmday, hhour, hmin, hsec, hy,
    add_sub_cancel_right]

section Torn

variable {α β γ : Type} [LinearOrder α] [LinearOrder β] [LinearOrder γ]

/-- A reading put together from an earlier high part and later low parts is not late. -/
theorem torn_le {a₁ a₂ a₃ : α} {b₁ b₂ b₃ : β} {c₁ c₂ c₃ : γ}
    (h₁₂ : toLex (a₁, toLex (b₁, c₁)) ≤ toLex (a₂, toLex (b₂, c₂)))
    (h₂₃ : toLex (a₂, toLex (b₂, c₂)) ≤ toLex (a₃, toLex (b₃, c₃))) :
    toLex (a₁, toLex (b₂, c₃)) ≤ toLex (a₃, toLex (b₃, c₃)) := by
  simp only [Prod.Lex.toLex_le_toLex] at *
  rcases h₁₂ with h | ⟨rfl, -⟩
  · rcases h₂₃ with h' | ⟨rfl, -⟩
    · exact .inl (h.trans h')
    · exact .inl h
  · rcases h₂₃ with h' | ⟨rfl, hb⟩
    · exact .inl h'
    · refine .inr ⟨rfl, ?_⟩
      rcases hb with hb | ⟨rfl, -⟩
      · exact .inl hb
      · exact .inr ⟨rfl, le_rfl⟩

/-- It is not early exactly if the middle part has gone forward, or stands still and the low
part is not behind. -/
theorem le_torn_iff {a : α} {b₁ b₂ : β} {c₁ c₃ : γ} :
    toLex (a, toLex (b₁, c₁)) ≤ toLex (a, toLex (b₂, c₃)) ↔ b₁ < b₂ ∨ b₁ = b₂ ∧ c₁ ≤ c₃ := by
  simp only [Prod.Lex.toLex_le_toLex, lt_self_iff_false, false_or, true_and]

end Torn

/-- The unit holds a time between the first and the last reading exactly if day and hour go
forward from the first reading to the second, or stand still while minute and second of the
third are not behind those of the first. -/
theorem clock_set_between_iff (kind : CodecKind) (id : UInt8) (codedata : Buffer) (len : Int)
    (hlen : 8 ≤ len) (regs : ℕ → UInt16) (t₁ t₂ t₃ : Tm) (h₁ : t₁.Calendar) (h₂ : t₂.Calendar)
    (h₃ : t₃.Calendar) (h₁₂ : t₁.stamp ≤ t₂.stamp) (h₂₃ : t₂.stamp ≤ t₃.stamp) :
    (t₁.stamp ≤ (held (kind.setClock id codedata len t₁ t₂ t₃ regs)).stamp ∧
      (held (kind.setClock id codedata len t₁ t₂ t₃ regs)).stamp ≤ t₃.stamp) ↔
    t₁.dayHour < t₂.dayHour ∨ t₁.dayHour = t₂.dayHour ∧ t₁.minSec ≤ t₃.minSec := by
  rw [held_setClock kind id codedata hlen h₁ h₂ h₃ regs]
  exact (and_iff_left (torn_le h₁₂ h₂₃)).trans le_torn_iff

theorem clock_set_between_hour :
    (⟨114, 5, 1, 12, 0, 59⟩ : Tm).stamp ≤
      (held (CodecKind.zsar.setClock 1 (fun _ => 0) 8 ⟨114, 5, 1, 12, 0, 59⟩
        ⟨114, 5, 1, 13, 1, 0⟩ ⟨114, 5, 1, 13, 1, 0⟩ fun _ => 0)).stamp :=
  have h₁ : (⟨114, 5, 1, 12, 0, 59⟩ : Tm).Calendar :=
    ⟨by decide, by decide, by decide, by decide, by decide, by decide⟩
  have h₂ : (⟨114, 5, 1, 13, 1, 0⟩ : Tm).Calendar :=
    ⟨by decide, by decide, by decide, by decide, by decide, by decide⟩
  ((clock_set_between_iff .zsar 1 (fun _ => 0) 8 (by decide) (fun _ => 0) _ _ _ h₁ h₂ h₂
    (by decide) (by decide)).mpr (.inl (by decide))).1

/-- The year changes between the first command and the second: the unit is set back by a
month. -/
theorem clock_set_back_at_new_year :
    (⟨114, 11, 31, 23, 59, 59⟩ : Tm).stamp ≤ (⟨115, 0, 1, 0, 0, 0⟩ : Tm).stamp ∧
    held (CodecKind.zsar.setClock 1 (fun _ => 0) 8 ⟨114, 11, 31, 23, 59, 59⟩
      ⟨115, 0, 1, 0, 0, 0⟩ ⟨115, 0, 1, 0, 0, 0⟩ fun _ => 0) = ⟨114, 11, 1, 0, 0, 0⟩ ∧
    (⟨114, 11, 1, 0, 0, 0⟩ : Tm).stamp < (⟨114, 11, 31, 23, 59, 59⟩ : Tm).stamp := by
  refine ⟨by decide, by decide +kernel, by decide⟩

end DbdkyGcc.Codec
