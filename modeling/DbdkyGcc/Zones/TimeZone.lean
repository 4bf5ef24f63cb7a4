import DbdkyGcc.Foundations.Bytes
import DbdkyGcc.Foundations.Decoding

/-!
# Reading a time zone file

`readTimeZoneFile` is meant to fill the tables of a `TimeZone` from a file in the
first version of the TZif format. Whatever goes wrong is thrown as a
`logic_error`, caught at the end and printed, so that the caller sees the same
result in every case.

The tables behind the head are read as they should be. But the test of the head
is followed by a stray semicolon, so that every file is rejected there and the
tables stay as they are.
-/

namespace DbdkyGcc.Zones

open Foundations Decoder

/-- `detail::Transition`. -/
structure Transition where
  gmttime : Int
  localtime : Int
  localtimeIdx : Nat
  deriving DecidableEq, Repr

/-- `detail::Localtime`. -/
structure Localtime where
  gmtOffset : Int
  isDst : Bool
  arrbIdx : Nat
  deriving DecidableEq, Repr

/-- `TimeZone::Data`. -/
structure Data where
  transitions : List Transition
  localtimes : List Localtime
  abbreviation : List UInt8
  deriving DecidableEq, Repr

def Data.empty : Data := ⟨[], [], []⟩

/-- The exceptions of class `logic_error`, to which the `length_error` of `reserve` belongs. -/
inductive LogicError
  | noEnoughData
  | badInt32
  | badUInt8
  | badHead
  | vectorReserve
  deriving DecidableEq, Repr

def LogicError.what : LogicError → String
  | .noEnoughData => "no enough data"
  | .badInt32 => "bad int32_t data"
  | .badUInt8 => "bad uint8_t data"
  | .badHead => "bad head"
  | .vectorReserve => "vector::reserve"

/-- A negative size of an array or an index out of the bounds of a vector has no defined
behaviour. -/
inductive Thrown
  | logicError (e : LogicError)
  | undefined
  deriving DecidableEq, Repr

/-- The statements of `readTimeZoneFile` read from the file and work on `*data`. -/
abbrev Reading := Decoder Thrown Data

/-- `::fread` of `n` bytes, and the exception for the case that there are fewer. -/
def fread (n : Nat) (short : LogicError) : Reading (List UInt8) := takeBytes n (.logicError short)

def readBytes (n : Int) : Reading (List UInt8) :=
  if n < 0 then throw .undefined else fread n.toNat .noEnoughData

/-- The bytes that are copied to the memory of `x` are converted by `be32toh`. -/
def readInt32 (e : Endian) : Reading Int := do
  let x ← fread 4 .badInt32
  pure (BitVec.ofNat 32 (e.betoh 4 (e.ofMemory x))).toInt

def readUInt8 : Reading UInt8 := do
  let x ← fread 1 .badUInt8
  pure (x.headD 0)

/-- The test of the head has an empty body, and what looks like its body follows it. -/
def readHead : Reading Unit := do
  let head ← readBytes 4
  if head ≠ [0x54, 0x5a, 0x69, 0x66] then pure ()
  throw (.logicError .badHead)

def readLocaltime (e : Endian) : Reading Unit := do
  let gmtoff ← readInt32 e
  let isdst ← readUInt8
  let abbrind ← readUInt8
  modifyState fun data =>
    { data with localtimes := data.localtimes ++ [⟨gmtoff, isdst ≠ 0, abbrind.toNat⟩] }

/-- The loop over the transitions, by the two vectors it goes through. -/
def pushTransitions : List Int → List UInt8 → Reading Unit
  | t :: ts, localIdx :: localtimes => do
    let data ← getState
    match data.localtimes[localIdx.toNat]? with
    | none => throw .undefined
    | some l =>
      modifyState fun data =>
        { data with
          transitions := data.transitions ++ [⟨t, t + l.gmtOffset, localIdx.toNat⟩] }
      pushTransitions ts localtimes
  | _, _ => pure ()

/-- `trans.reserve(n)`, where a negative number becomes a size above `max_size()`. -/
def reserve (n : Int) : Reading Unit :=
  if n < 0 then throw (.logicError .vectorReserve) else pure ()

/-- What follows the head. The loop over the leap seconds reads nothing. -/
def readTables (e : Endian) : Reading Unit := do
  let _version ← readBytes 1
  let _ ← readBytes 15
  let _isgmtcnt ← readInt32 e
  let _isstdcnt ← readInt32 e
  let _leapcnt ← readInt32 e
  let timecnt ← readInt32 e
  let typecnt ← readInt32 e
  let charcnt ← readInt32 e
  reserve timecnt
  let trans ← readList (readInt32 e) timecnt.toNat
  let localtimes ← readList readUInt8 timecnt.toNat
  loop (readLocaltime e) typecnt.toNat
  pushTransitions trans localtimes
  let abbreviation ← readBytes charcnt
  modifyState fun data => { data with abbreviation := abbreviation }

/-- What `readTimeZoneFile` leaves and returns, and the text it prints for an exception. -/
structure Loaded where
  data : Data
  result : Bool
  printed : Option String
  deriving DecidableEq

/-- The file may be missing. -/
def readTimeZoneFile (e : Endian) (zonefile : Option (List UInt8)) (data : Data) :
    Except Thrown Loaded :=
  match zonefile with
  | none => .ok ⟨data, true, none⟩
  | some content =>
    match (do readHead; readTables e : Reading Unit) ⟨content, data⟩ with
    | .ok _ s => .ok ⟨s.state, true, none⟩
    | .error (.logicError ex) s => .ok ⟨s.state, true, some ex.what⟩
    | .error .undefined _ => .error .undefined

/-! ### The format -/

/-- A local time type of the format. -/
structure ZoneType where
  gmtoff : BitVec 32
  isdst : Bool
  abbrind : UInt8

/-- A zone: the times of its transitions with the numbers of the types that begin there, the types,
and the text in which their abbreviations are found. All indices are in range, and each count is
an `int32_t`. -/
structure Zone where
  transitions : List (BitVec 32 × UInt8)
  types : List ZoneType
  abbreviation : List UInt8
  index_lt : ∀ t ∈ transitions, t.2.toNat < types.length
  abbrind_lt : ∀ l ∈ types, l.abbrind.toNat < abbreviation.length
  timecnt_lt : transitions.length < 2 ^ 31
  typecnt_lt : types.length < 2 ^ 31
  charcnt_lt : abbreviation.length < 2 ^ 31

/-- The parts of a file that the tables do not depend on: the version, the reserved bytes, the
counts of what may follow the tables, and what follows them. -/
structure Header where
  version : UInt8
  reserved : List UInt8
  isgmtcnt : BitVec 32
  isstdcnt : BitVec 32
  leapcnt : BitVec 32
  trailing : List UInt8
  reserved_length : reserved.length = 15

/-- Four bytes, the most significant one first. -/
def encodeInt32 (x : BitVec 32) : List UInt8 := bigEndian 4 x.toNat

def ZoneType.encode (l : ZoneType) : List UInt8 :=
  encodeInt32 l.gmtoff ++ ([if l.isdst then 1 else 0] ++ [l.abbrind])

def ZoneType.localtime (l : ZoneType) : Localtime := ⟨l.gmtoff.toInt, l.isdst, l.abbrind.toNat⟩

namespace Zone

/-- What follows the head, up to the abbreviations. -/
def encodeTables (z : Zone) (h : Header) : List UInt8 :=
  [h.version] ++ (h.reserved ++ (encodeInt32 h.isgmtcnt ++ (encodeInt32 h.isstdcnt ++
    (encodeInt32 h.leapcnt ++ (encodeInt32 (BitVec.ofNat 32 z.transitions.length) ++
    (encodeInt32 (BitVec.ofNat 32 z.types.length) ++
    (encodeInt32 (BitVec.ofNat 32 z.abbreviation.length) ++
    (z.transitions.flatMap (fun t => encodeInt32 t.1) ++
    (z.transitions.flatMap (fun t => [t.2]) ++
    (z.types.flatMap ZoneType.encode ++ z.abbreviation))))))))))

def encode (z : Zone) (h : Header) : List UInt8 :=
  [0x54, 0x5a, 0x69, 0x66] ++ (z.encodeTables h ++ h.trailing)

/-- The offset of the type with that number. -/
def offset (z : Zone) (i : UInt8) : Int := (z.types[i.toNat]?.map (·.gmtoff.toInt)).getD 0

/-- The tables of the zone. -/
def data (z : Zone) : Data :=
  { transitions := z.transitions.map fun t =>
      ⟨t.1.toInt, t.1.toInt + z.offset t.2, t.2.toNat⟩
    localtimes := z.types.map ZoneType.localtime
    abbreviation := z.abbreviation }

end Zone

/-! ### The tables are read as they were written -/

variable (e : Endian)

theorem decodes_readBytes {n : Int} {w : List UInt8} (hn : w.length = n) (s : Data) :
    Decodes (readBytes n) s w w s := by
  have hpos : ¬ n < 0 := by omega
  rw [readBytes, if_neg hpos]
  exact decodes_takeBytes (by omega) _ s

theorem length_encodeInt32 (x : BitVec 32) : (encodeInt32 x).length = 4 := length_bigEndian 4 _

theorem toInt_betoh (x : BitVec 32) :
    (BitVec.ofNat 32 (e.betoh 4 (e.ofMemory (encodeInt32 x)))).toInt = x.toInt := by
  have hvalue := e.betoh_ofMemory (encodeInt32 x)
  rw [length_encodeInt32] at hvalue
  have hlt : x.toNat < 256 ^ 4 := x.isLt
  rw [hvalue, encodeInt32, ofBigEndian_bigEndian, Nat.mod_eq_of_lt hlt, BitVec.ofNat_toNat,
    BitVec.setWidth_eq]

theorem decodes_readInt32 (x : BitVec 32) (s : Data) :
    Decodes (readInt32 e) s (encodeInt32 x) x.toInt s := by
  have hbytes : Decodes (fread 4 .badInt32) s (encodeInt32 x) (encodeInt32 x) s :=
    decodes_takeBytes (length_encodeInt32 x) _ s
  rw [← toInt_betoh e x]
  exact hbytes.pure fun w => (BitVec.ofNat 32 (e.betoh 4 (e.ofMemory w))).toInt

theorem toInt_ofNat_count {n : Nat} (hn : n < 2 ^ 31) : (BitVec.ofNat 32 n).toInt = n := by
  have hnat : (BitVec.ofNat 32 n).toNat = n := by
    rw [BitVec.toNat_ofNat]
    exact Nat.mod_eq_of_lt (by omega)
  rw [BitVec.toInt_eq_toNat_of_lt (by omega), hnat]

/-- A count of the header. -/
theorem decodes_count {n : Nat} (hn : n < 2 ^ 31) (s : Data) :
    Decodes (readInt32 e) s (encodeInt32 (BitVec.ofNat 32 n)) n s := by
  rw [← toInt_ofNat_count hn]
  exact decodes_readInt32 e _ s

theorem decodes_readUInt8 (b : UInt8) (s : Data) : Decodes readUInt8 s [b] b s := by
  have hbyte : Decodes (fread 1 .badUInt8) s [b] [b] s :=
    decodes_takeBytes (w := [b]) rfl _ s
  exact hbyte.pure fun w => w.headD 0

theorem decodes_reserve (n : Nat) (s : Data) : Decodes (reserve n) s [] () s := by
  rw [reserve, if_neg (by omega)]
  exact decodes_pure () s

theorem decodes_readLocaltime (l : ZoneType) (s : Data) :
    Decodes (readLocaltime e) s l.encode ()
      { s with localtimes := s.localtimes ++ [l.localtime] } := by
  obtain ⟨gmtoff, isdst, abbrind⟩ := l
  refine (decodes_readInt32 e gmtoff s).bind ((decodes_readUInt8 _ s).bind ?_)
  cases isdst with
  | false => exact (decodes_readUInt8 abbrind s).bind (decodes_modifyState _ s)
  | true => exact (decodes_readUInt8 abbrind s).bind (decodes_modifyState _ s)

theorem foldl_localtimes (types : List ZoneType) (s : Data) :
    types.foldl (fun s l => { s with localtimes := s.localtimes ++ [l.localtime] }) s =
      { s with localtimes := s.localtimes ++ types.map ZoneType.localtime } := by
  induction types generalizing s with
  | nil => simp
  | cons l types ih =>
    rw [List.foldl_cons, ih]
    simp

/-- The loop reads nothing more. -/
theorem decodes_pushTransitions (transitions : List (BitVec 32 × UInt8)) {offset : UInt8 → Int}
    (s : Data) (hoffset : ∀ t ∈ transitions, ∃ l, s.localtimes[t.2.toNat]? = some l ∧
      l.gmtOffset = offset t.2) :
    Decodes (pushTransitions (transitions.map (·.1.toInt)) (transitions.map (·.2))) s [] ()
      { s with
        transitions := s.transitions ++ transitions.map fun t =>
          ⟨t.1.toInt, t.1.toInt + offset t.2, t.2.toNat⟩ } := by
  induction transitions generalizing s with
  | nil =>
    simp only [List.map_nil, List.append_nil]
    exact decodes_pure () s
  | cons t transitions ih =>
    obtain ⟨l, hl, hgmt⟩ := hoffset t (by simp)
    have htail := ih
      { s with transitions := s.transitions ++ [⟨t.1.toInt, t.1.toInt + offset t.2, t.2.toNat⟩] }
      fun u hu => hoffset u (by simp [hu])
    simp only [List.append_assoc, List.singleton_append] at htail
    refine (decodes_getState s).skip ?_
    simp only [hl, hgmt, List.map_cons]
    exact (decodes_modifyState _ s).skip htail

/-- The types that the indices refer to have been read when the transitions are made. -/
theorem Zone.exists_localtime (z : Zone) (abbreviation : List UInt8) :
    ∀ t ∈ z.transitions, ∃ l,
      (Data.mk [] (z.types.map ZoneType.localtime) abbreviation).localtimes[t.2.toNat]? = some l ∧
        l.gmtOffset = z.offset t.2 := by
  intro t ht
  have hlt := z.index_lt t ht
  refine ⟨z.types[t.2.toNat].localtime, ?_, ?_⟩
  · rw [List.getElem?_map, List.getElem?_eq_getElem hlt]
    rfl
  · rw [Zone.offset, List.getElem?_eq_getElem hlt]
    rfl

/-- Behind the head, a zone is read as it was written. -/
theorem Zone.decodes_readTables (z : Zone) (h : Header) :
    Decodes (readTables e) Data.empty (z.encodeTables h) () z.data := by
  have htimes := decodes_readList (fun t : BitVec 32 × UInt8 =>
    decodes_readInt32 e t.1 Data.empty) z.transitions
  have hindices := decodes_readList (fun t : BitVec 32 × UInt8 =>
    decodes_readUInt8 t.2 Data.empty) z.transitions
  have htypes := decodes_loop (decodes_readLocaltime e) z.types Data.empty
  rw [foldl_localtimes] at htypes
  have htransitions := decodes_pushTransitions z.transitions _ (z.exists_localtime [])
  unfold readTables
  refine (decodes_readBytes (n := 1) (w := [h.version]) rfl _).bind ?_
  refine (decodes_readBytes (n := 15) (by rw [h.reserved_length]; rfl) _).bind ?_
  refine (decodes_readInt32 e _ _).bind ?_
  refine (decodes_readInt32 e _ _).bind ?_
  refine (decodes_readInt32 e _ _).bind ?_
  refine (decodes_count e z.timecnt_lt _).bind ?_
  refine (decodes_count e z.typecnt_lt _).bind ?_
  refine (decodes_count e z.charcnt_lt _).bind ?_
  refine (decodes_reserve _ _).skip ?_
  simp only [Int.toNat_natCast]
  refine htimes.bind (hindices.bind (htypes.bind (htransitions.skip ?_)))
  have habbreviation := (decodes_readBytes (n := z.abbreviation.length) rfl
    { z.data with abbreviation := [] }).bind
    (f := fun a => modifyState fun data => { data with abbreviation := a })
    (decodes_modifyState _ _)
  rw [List.append_nil] at habbreviation
  exact habbreviation

/-! ### The head -/

/-- No file passes the test of the head. -/
theorem readHead_throws (s : Source Data) :
    ∃ ex rest, readHead s = .error (.logicError ex) ⟨rest, s.state⟩ := by
  have hbytes : readBytes 4 = takeBytes 4 (.logicError .noEnoughData) := rfl
  by_cases hlength : 4 ≤ s.rest.length
  · refine ⟨.badHead, s.rest.drop 4, ?_⟩
    rw [readHead, hbytes]
    change EStateM.bind (takeBytes 4 _) _ s = _
    rw [EStateM.bind, takeBytes, if_pos hlength]
    -- Both ways through the test lead to the exception.
    dsimp only
    split <;> rfl
  · refine ⟨.noEnoughData, [], ?_⟩
    rw [readHead, hbytes]
    change EStateM.bind (takeBytes 4 _) _ s = _
    rw [EStateM.bind, takeBytes, if_neg hlength]

theorem readTimeZoneFile_keeps (zonefile : Option (List UInt8)) (data : Data) :
    ∃ printed, readTimeZoneFile e zonefile data = .ok ⟨data, true, printed⟩ := by
  cases zonefile with
  | none => exact ⟨none, rfl⟩
  | some content =>
    obtain ⟨ex, rest, hhead⟩ := readHead_throws ⟨content, data⟩
    refine ⟨some ex.what, ?_⟩
    have hall : (do readHead; readTables e : Reading Unit) ⟨content, data⟩ =
        .error (.logicError ex) ⟨rest, data⟩ := by
      change EStateM.bind readHead (fun _ => readTables e) _ = _
      rw [EStateM.bind, hhead]
    rw [readTimeZoneFile, hall]

/-- A zone is loaded only if its tables are empty. -/
theorem loads_zone_iff (z : Zone) (h : Header) :
    (∃ l, readTimeZoneFile e (some (z.encode h)) Data.empty = .ok l ∧ l.data = z.data) ↔
      z.transitions = [] ∧ z.types = [] ∧ z.abbreviation = [] := by
  obtain ⟨printed, hloaded⟩ := readTimeZoneFile_keeps e (some (z.encode h)) Data.empty
  constructor
  · rintro ⟨l, hl, hdata⟩
    rw [hloaded] at hl
    cases hl
    simp only [Data.empty, Zone.data, Data.mk.injEq, List.nil_eq, List.map_eq_nil_iff] at hdata
    exact hdata
  · rintro ⟨htransitions, htypes, habbreviation⟩
    refine ⟨_, hloaded, ?_⟩
    simp [Zone.data, Data.empty, htransitions, htypes, habbreviation]

/-- Coordinated universal time, with a transition at the beginning of 1970. -/
def utc : Zone where
  transitions := [(0, 0)]
  types := [⟨0, false, 0⟩]
  abbreviation := [0x55, 0x54, 0x43, 0]
  index_lt := by
    intro t ht
    rw [List.mem_singleton] at ht
    subst ht
    exact Nat.one_pos
  abbrind_lt := by
    intro l hl
    rw [List.mem_singleton] at hl
    subst hl
    exact Nat.succ_pos 3
  timecnt_lt := by simp
  typecnt_lt := by simp
  charcnt_lt := by simp

/-- Its file is rejected as one that is not a time zone file, and the tables stay empty. -/
theorem rejects_utc :
    readTimeZoneFile .little
        (some (utc.encode ⟨0x32, List.replicate 15 0, 0, 0, 0, [], rfl⟩)) Data.empty =
      .ok ⟨Data.empty, true, some "bad head"⟩ ∧ utc.data ≠ Data.empty := by
  constructor
  · rfl
  · decide

end DbdkyGcc.Zones
