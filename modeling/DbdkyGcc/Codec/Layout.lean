import DbdkyGcc.Foundations.Layout
import DbdkyGcc.Codec.Configuration
import DbdkyGcc.Codec.Times
import DbdkyGcc.Device.Load

/-!
# The record in memory

`DB_INSERT_DATATYPE` byte by byte, and what the parsers copy into it. A text takes its
characters and a terminator. `Record` models a text that does not fit as a fault; here it is
copied all the same, as `strcpy` does. Where all copies stay in their fields the bytes are
those of the record that `fill` makes (`writes_represent`); the name of the logical node is
the only text whose length nothing bounds.
-/

namespace DbdkyGcc.Codec

open Foundations

variable {F : Type}

/-- The fields of the record. -/
inductive Field
  | repID
  | lnInstArray (i : Fin maxItemSize)
  | lnIDArraySize
  | dataArray (i : Fin maxItemSize)
  | typeArray (i : Fin modelLen)
  | fieldArray (i : Fin maxItemSize)
  | paramSize
deriving DecidableEq

/-- The layout of the structure: texts of 128 bytes and integers of four, without gaps. -/
def recordLayout : Layout Field where
  offset
    | .repID => 0
    | .lnInstArray i => 128 + 128 * i
    | .lnIDArraySize => 6528
    | .dataArray i => 6532 + 128 * i
    | .typeArray i => 12932 + 4 * i
    | .fieldArray i => 13444 + 128 * i
    | .paramSize => 19844
  size
    | .repID | .lnInstArray _ | .dataArray _ | .fieldArray _ => 128
    | .lnIDArraySize | .typeArray _ | .paramSize => 4
  disjoint := by
    intro f g h
    have hitems : maxItemSize = 50 := rfl
    have htypes : modelLen = 128 := rfl
    cases f <;> cases g <;>
      simp only [ne_eq, reduceCtorEq, not_true_eq_false, Field.lnInstArray.injEq,
        Field.dataArray.injEq, Field.typeArray.injEq, Field.fieldArray.injEq,
        Fin.ext_iff] at h ⊢ <;>
      omega

/-- A text with its terminator. -/
def cstring (s : String) : List UInt8 := s.toList.map (fun c => UInt8.ofNat c.toNat) ++ [0]

/-- An `int`, low byte first. -/
def intBytes (x : Int) : List UInt8 :=
  (List.range 4).map fun k => UInt8.ofNat (x / 256 ^ k % 256).toNat

theorem length_cstring (s : String) : (cstring s).length = s.length + 1 := by
  rw [cstring, List.length_append, List.length_map, String.length_toList]
  rfl

theorem cstring_ne_nil (s : String) : cstring s ≠ [] := by
  rw [cstring]
  simp

theorem cstring_append (s t : String) :
    cstring (s ++ t) = s.toList.map (fun c => UInt8.ofNat c.toNat) ++ cstring t := by
  rw [cstring, cstring, String.toList_append, List.map_append, List.append_assoc]

/-- The copies of the logical node: `strcat` goes on where `strcpy` has put its terminator. -/
def nodeWrites (lnInst : String) : List (FieldWrite Field) :=
  [⟨.lnInstArray 0, 0, cstring lnInst⟩, ⟨.repID, 0, cstring "COMDATA/"⟩,
    ⟨.repID, "COMDATA/".length, cstring lnInst⟩]

/-- One write for each item of the record. -/
def itemWrites (items : List (String × Int × String))
    (write : Fin maxItemSize → String × Int × String → FieldWrite Field) :
    List (FieldWrite Field) :=
  (List.finRange maxItemSize).filterMap fun i => items[i.val]?.map (write i)

def fieldWrites (items : List (String × Int × String)) : List (FieldWrite Field) :=
  itemWrites items fun i it => ⟨.fieldArray i, 0, cstring it.1⟩

def typeWrites (items : List (String × Int × String)) : List (FieldWrite Field) :=
  itemWrites items fun i it => ⟨.typeArray (i.castLE (by decide)), 0, intBytes it.2.1⟩

def dataWrites (items : List (String × Int × String)) : List (FieldWrite Field) :=
  itemWrites items fun i it => ⟨.dataArray i, 0, cstring it.2.2⟩

/-- The counts of the record: one logical node, and the items. -/
def countWrites (items : List (String × Int × String)) : List (FieldWrite Field) :=
  [⟨.lnIDArraySize, 0, intBytes 1⟩, ⟨.paramSize, 0, intBytes items.length⟩]

namespace CodecKind

/-- What a parser writes into the record, in the order of each source. -/
def writes (lnInst : String) (items : List (String × Int × String)) :
    CodecKind → List (FieldWrite Field)
  | zsar => nodeWrites lnInst ++ countWrites items ++ fieldWrites items ++ typeWrites items ++
      dataWrites items
  | mmxn => nodeWrites lnInst ++ countWrites items ++ dataWrites items ++ typeWrites items ++
      fieldWrites items

/-- The scaled values are printed into arrays of the parser before. -/
def printScaled (rt : CRuntime F) (c : CodecState F) (data : Buffer) : CodecKind → Except Fault Unit
  | zsar => do
    let _ ← putText 32 (CodecZSAR.strTotA rt c (CodecZSAR.decode data))
    let _ ← putText 32 (CodecZSAR.strRisA rt c (CodecZSAR.decode data))
    .ok ()
  | mmxn => do
    let _ ← putText 128 (CodecMMXN.strAmp rt c (CodecMMXN.decode data))
    .ok ()

/-- A call of a parser: its return value and its writes into the record. -/
def parserWrites (rt : CRuntime F) (kind : CodecKind) (c : CodecState F) (stack buffer : Buffer)
    (len : Int) : Except Fault (Int × List (FieldWrite Field)) :=
  match kind.reject buffer len with
  | some code => .ok (code, [])
  | none => do
    let data ← memcpy (kind.initial stack) (fun i => buffer (kind.copyOffset + i))
      (kind.copyCount buffer)
    kind.printScaled rt c data
    .ok (parseSuccess, kind.writes c.lnInst (kind.items rt c data))

end CodecKind

-- ════════════════════════════════════════════════════════════════════════
-- Which copies stay in their fields
-- ════════════════════════════════════════════════════════════════════════

theorem confined_cstring {f : Field} {start : ℕ} {s : String} :
    recordLayout.Confined ⟨f, start, cstring s⟩ ↔ start + s.length < recordLayout.size f := by
  rw [recordLayout.confined_iff (cstring_ne_nil s), length_cstring]
  rfl

theorem confined_intBytes {f : Field} {x : Int} (h : recordLayout.size f = 4) :
    recordLayout.Confined ⟨f, 0, intBytes x⟩ :=
  (recordLayout.confined_iff (List.cons_ne_nil _ _)).mpr (by rw [h]; exact le_rfl)

/-- The limit of the report is the narrower one: its text is eight characters longer. -/
theorem nodeWrites_confined_iff (lnInst : String) :
    (∀ w ∈ nodeWrites lnInst, recordLayout.Confined w) ↔ lnInst.length < 120 := by
  have hprefix : "COMDATA/".length = 8 := by decide
  simp only [nodeWrites, List.forall_mem_cons, confined_cstring, hprefix]
  change (0 + lnInst.length < 128 ∧ 0 + 8 < 128 ∧ 8 + lnInst.length < 128 ∧ _) ↔ _
  constructor
  · rintro ⟨-, -, h, -⟩
    omega
  · intro h
    exact ⟨by omega, by omega, by omega, fun w hw => absurd hw List.not_mem_nil⟩

theorem mem_itemWrites {items : List (String × Int × String)}
    {write : Fin maxItemSize → String × Int × String → FieldWrite Field} {w : FieldWrite Field} :
    w ∈ itemWrites items write ↔ ∃ i it, items[i.val]? = some it ∧ write i it = w := by
  simp only [itemWrites, List.mem_filterMap, List.mem_finRange, true_and, Option.map_eq_some_iff]

/-- The texts of the items fit their fields. -/
structure ItemsFit (items : List (String × Int × String)) : Prop where
  length_le : items.length ≤ maxItemSize
  names : ∀ it ∈ items, it.1.length < modelLen
  values : ∀ it ∈ items, it.2.2.length < modelLen

theorem ItemsFit.fieldWrites_confined {items : List (String × Int × String)} (h : ItemsFit items) :
    ∀ w ∈ fieldWrites items, recordLayout.Confined w := by
  intro w hw
  obtain ⟨i, it, hit, rfl⟩ := mem_itemWrites.mp hw
  rw [confined_cstring, Nat.zero_add]
  exact h.names it (List.mem_of_getElem? hit)

theorem ItemsFit.dataWrites_confined {items : List (String × Int × String)} (h : ItemsFit items) :
    ∀ w ∈ dataWrites items, recordLayout.Confined w := by
  intro w hw
  obtain ⟨i, it, hit, rfl⟩ := mem_itemWrites.mp hw
  rw [confined_cstring, Nat.zero_add]
  exact h.values it (List.mem_of_getElem? hit)

theorem typeWrites_confined (items : List (String × Int × String)) :
    ∀ w ∈ typeWrites items, recordLayout.Confined w := by
  intro w hw
  obtain ⟨i, it, -, rfl⟩ := mem_itemWrites.mp hw
  exact confined_intBytes rfl

theorem countWrites_confined (items : List (String × Int × String)) :
    ∀ w ∈ countWrites items, recordLayout.Confined w := by
  intro w hw
  simp only [countWrites, List.mem_cons, List.not_mem_nil, or_false] at hw
  rcases hw with rfl | rfl
  · exact confined_intBytes rfl
  · exact confined_intBytes rfl

/-- Both parsers make the same writes, in different orders. -/
theorem CodecKind.mem_writes {kind : CodecKind} {lnInst : String}
    {items : List (String × Int × String)} {w : FieldWrite Field} :
    w ∈ kind.writes lnInst items ↔ w ∈ nodeWrites lnInst ∨ w ∈ countWrites items ∨
      w ∈ fieldWrites items ∨ w ∈ typeWrites items ∨ w ∈ dataWrites items := by
  cases kind <;> simp only [writes, List.mem_append] <;> tauto

theorem CodecKind.writes_confined_iff (kind : CodecKind) (lnInst : String)
    {items : List (String × Int × String)} (h : ItemsFit items) :
    (∀ w ∈ kind.writes lnInst items, recordLayout.Confined w) ↔ lnInst.length < 120 := by
  rw [← nodeWrites_confined_iff]
  constructor
  · exact fun hall w hw => hall w (mem_writes.mpr (.inl hw))
  · intro hnode w hw
    rcases mem_writes.mp hw with hw | hw | hw | hw | hw
    · exact hnode w hw
    · exact countWrites_confined items w hw
    · exact h.fieldWrites_confined w hw
    · exact typeWrites_confined items w hw
    · exact h.dataWrites_confined w hw

/-- `%d` of an `int`. -/
theorem length_sprintfD_le {x : Int} (h₀ : -10 ^ 10 < x) (h₁ : x < 10 ^ 10) :
    (sprintfD x).length ≤ 11 := by
  rw [← String.length_toList, toList_sprintfD]
  cases x with
  | ofNat n =>
    rw [Int.ofNat_eq_natCast] at h₁
    have := length_decimal_le (n := n) (k := 10) (by decide) (by omega)
    exact le_trans this (by decide)
  | negSucc n =>
    have := length_decimal_le (n := n + 1) (k := 10) (by decide) (by omega)
    exact Nat.succ_le_succ this

theorem toInt_range (t : Int) : -2 ^ 31 ≤ toInt t ∧ toInt t < 2 ^ 31 :=
  ⟨Int.le_bmod (by decide), Int.bmod_lt (by decide)⟩

/-- The only texts of a record that grow with their values are those of `%f` and `%d`. -/
theorem CodecKind.items_fit (rt : CRuntime F) (c : CodecState F) (kind : CodecKind)
    (data : Buffer) : ItemsFit (kind.items rt c data) := by
  have hfloat : ∀ x, (rt.sprintfF x).length < modelLen := fun x =>
    lt_of_le_of_lt (rt.sprintfF_length x) (by decide)
  have hint : ∀ x : Int, -2 ^ 31 ≤ x → x < 2 ^ 31 → (sprintfD x).length < modelLen := fun x h₀ h₁ =>
    lt_of_le_of_lt (length_sprintfD_le (by omega) (by omega)) (by decide)
  have hsmp : ∀ tm, (sampleTime rt tm).length < modelLen := fun tm =>
    hint _ (toInt_range _).1 (toInt_range _).2
  have hlast : ∀ tm, (CodecZSAR.lastOpTime rt tm).length < modelLen := by
    intro tm
    have := toInt_range (rt.mktime tm)
    rw [CodecZSAR.lastOpTime]
    apply hint <;> split <;> omega
  have hcount : ∀ high low, (sprintfD (accumulate 8 high low : ℕ)).length < modelLen := by
    intro high low
    rw [accumulate_eight]
    have := low.toNat_lt
    exact hint _ (by omega) (by omega)
  refine ⟨kind.items_length_le rt c data, ?_, ?_⟩
  · cases kind with
    | zsar =>
      simp only [items, CodecZSAR.items, List.forall_mem_cons]
      decide
    | mmxn =>
      simp only [items, CodecMMXN.items, List.forall_mem_cons]
      decide
  · cases kind with
    | zsar =>
      simp only [items, CodecZSAR.items, List.forall_mem_cons]
      exact ⟨hsmp _, hfloat _, hfloat _, hcount _ _, hlast _, fun it h => absurd h List.not_mem_nil⟩
    | mmxn =>
      simp only [items, CodecMMXN.items, List.forall_mem_cons]
      exact ⟨hsmp _, hfloat _, fun it h => absurd h List.not_mem_nil⟩

/-- The writes of a run that gets to the end. -/
theorem CodecKind.parserWrites_accepted {rt : CRuntime F} {kind : CodecKind} {c : CodecState F}
    {stack buffer : Buffer} {len code : Int} {ws : List (FieldWrite Field)}
    (haccepted : kind.reject buffer len = none)
    (h : kind.parserWrites rt c stack buffer len = .ok (code, ws)) :
    ws = kind.writes c.lnInst (kind.items rt c (kind.copied stack buffer)) := by
  rw [parserWrites, haccepted] at h
  obtain ⟨data, hdata, h⟩ := bind_eq_ok_iff.mp h
  obtain ⟨-, -, h⟩ := bind_eq_ok_iff.mp h
  have hcopied : kind.copied stack buffer = data := by
    rw [memcpy] at hdata
    split at hdata
    · exact Except.ok.inj hdata
    · cases hdata
  rw [hcopied]
  exact (congrArg Prod.snd (Except.ok.inj h)).symm

/-- Whatever id a unit's measure point has, a successful run writes only inside the fields it means
exactly if the id is shorter than 120 characters. -/
theorem record_writes_confined_iff (rt : CRuntime F) (kind : CodecKind) (c : CodecState F)
    (id : String) (paramsProp : Std.ExtTreeMap String F) (stack buffer : Buffer) (len : Int)
    (ws : List (FieldWrite Field)) (haccepted : kind.reject buffer len = none)
    (hrun : kind.parserWrites rt (c.setConfig id paramsProp) stack buffer len =
      .ok (parseSuccess, ws)) :
    (∀ w ∈ ws, recordLayout.Confined w) ↔ id.length < 120 := by
  rw [CodecKind.parserWrites_accepted haccepted hrun]
  exact kind.writes_confined_iff id (kind.items_fit rt _ _)

theorem record_writes_confined_mmxn : ∃ ws,
    CodecKind.mmxn.parserWrites CRuntime.whole (CodecState.fresh.setConfig "MMXN1" ∅) (fun _ => 0)
      (sampledAt ⟨114, 5, 1, 12, 0, 0⟩) 21 = .ok (parseSuccess, ws) ∧
    ∀ w ∈ ws, recordLayout.Confined w := by
  have hcode : (CodecKind.mmxn.parserWrites CRuntime.whole (CodecState.fresh.setConfig "MMXN1" ∅)
      (fun _ => 0) (sampledAt ⟨114, 5, 1, 12, 0, 0⟩) 21).toOption.map Prod.fst =
        some parseSuccess := by decide +kernel
  cases hrun : CodecKind.mmxn.parserWrites CRuntime.whole (CodecState.fresh.setConfig "MMXN1" ∅)
      (fun _ => 0) (sampledAt ⟨114, 5, 1, 12, 0, 0⟩) 21 with
  | error e =>
    rw [hrun] at hcode
    cases hcode
  | ok r =>
    rw [hrun] at hcode
    obtain ⟨code, ws⟩ := r
    obtain rfl := Option.some.inj hcode
    refine ⟨ws, rfl, ?_⟩
    exact (record_writes_confined_iff CRuntime.whole .mmxn .fresh "MMXN1" ∅ (fun _ => 0)
      (sampledAt ⟨114, 5, 1, 12, 0, 0⟩) 21 ws (by decide +kernel) hrun).mpr (by decide)

/-- A document with one MMXN unit, whose measure point has an id. -/
def mmxnDocument (id : String) : Device.XmlDocument :=
  [.element "package" []
    [.element "RS485" [("name", "COM1"), ("desc", "")] [],
     .element "MonitorUnit" [("name", "transformer"), ("interval", "60000"),
       ("protocolname", "MMXN"), ("port", "COM1"), ("manufacturer", ""), ("cycleid", "1"),
       ("mac", "1"), ("ytime", "")]
      [.element "MeasurePoint" [("deviceid", "D1"), ("IEDName", "IED"), ("id", id),
        ("checktime", "")] []]]]

/-- The id of the unit of `mmxnDocument`, as a poll gets it. -/
def loadedId (doc : Device.XmlDocument) : Option String :=
  (Device.loadDocuments none [some doc]).toOption.bind fun ports =>
    ports["COM1"]?.bind fun p => p.monitorUnitList["MMXN1"]?.bind fun u =>
      u.getFirstMeasurePoint.map Device.MeasurePoint.id

/-- The loader takes an id of 120 characters; the terminator of the report then ends the name of
the logical node before its first character. -/
theorem long_id_overruns :
    loadedId (mmxnDocument (String.ofList (List.replicate 120 'N'))) =
      some (String.ofList (List.replicate 120 'N')) ∧
    (CodecKind.mmxn.parserWrites CRuntime.whole
        (CodecState.fresh.setConfig (String.ofList (List.replicate 120 'N')) ∅) (fun _ => 0)
        (sampledAt ⟨114, 5, 1, 12, 0, 0⟩) 21).toOption.map
      (fun r => (r.1, recordLayout.run (fun _ => 1) r.2 (recordLayout.offset (.lnInstArray 0)))) =
        some (parseSuccess, 0) := by
  refine ⟨by decide +kernel, by decide +kernel⟩

-- ════════════════════════════════════════════════════════════════════════
-- The bytes and the record
-- ════════════════════════════════════════════════════════════════════════

/-- The bytes of a field that has been written. -/
def DbInsertDatatype.content (r : DbInsertDatatype) : Field → Option (List UInt8)
  | .repID => r.repID.map cstring
  | .lnInstArray i => r.lnInstArray[i].map cstring
  | .lnIDArraySize => r.lnIDArraySize.map intBytes
  | .dataArray i => r.dataArray[i].map cstring
  | .typeArray i => r.typeArray[i].map intBytes
  | .fieldArray i => r.fieldArray[i].map cstring
  | .paramSize => r.paramSize.map intBytes

/-- Memory holds the record: every field that is written fits, and has its bytes. -/
def Represents (m : Buffer) (r : DbInsertDatatype) : Prop :=
  ∀ f bytes, r.content f = some bytes →
    bytes.length ≤ recordLayout.size f ∧ recordLayout.Holds m f bytes

/-- The same writes with the report in one piece. -/
def CodecKind.wholeWrites (kind : CodecKind) (lnInst : String)
    (items : List (String × Int × String)) : List (FieldWrite Field) :=
  ⟨.lnInstArray 0, 0, cstring lnInst⟩ :: ⟨.repID, 0, cstring ("COMDATA/" ++ lnInst)⟩ ::
    (kind.writes lnInst items).drop 3

theorem CodecKind.run_writes (kind : CodecKind) (lnInst : String)
    (items : List (String × Int × String)) (m : Buffer) :
    recordLayout.run m (kind.writes lnInst items) =
      recordLayout.run m (kind.wholeWrites lnInst items) := by
  have hsplit : kind.writes lnInst items =
      nodeWrites lnInst ++ (kind.writes lnInst items).drop 3 := by
    cases kind <;> rfl
  have happend := recordLayout.apply_append
    (recordLayout.apply m ⟨.lnInstArray 0, 0, cstring lnInst⟩) .repID
    ("COMDATA/".toList.map fun c => UInt8.ofNat c.toNat) (cstring lnInst) 0
    (cstring_ne_nil lnInst)
  rw [← cstring_append] at happend
  rw [hsplit, wholeWrites]
  exact congrArg (fun m => recordLayout.run m ((kind.writes lnInst items).drop 3)) happend

theorem CodecKind.mem_wholeWrites {kind : CodecKind} {lnInst : String}
    {items : List (String × Int × String)} {w : FieldWrite Field} :
    w ∈ kind.wholeWrites lnInst items ↔ w = ⟨.lnInstArray 0, 0, cstring lnInst⟩ ∨
      w = ⟨.repID, 0, cstring ("COMDATA/" ++ lnInst)⟩ ∨ w ∈ countWrites items ∨
      w ∈ fieldWrites items ∨ w ∈ typeWrites items ∨ w ∈ dataWrites items := by
  have hrest : w ∈ (kind.writes lnInst items).drop 3 ↔ w ∈ countWrites items ∨
      w ∈ fieldWrites items ∨ w ∈ typeWrites items ∨ w ∈ dataWrites items := by
    cases kind with
    | zsar =>
      change w ∈ countWrites items ++ fieldWrites items ++ typeWrites items ++ dataWrites items ↔ _
      simp only [List.mem_append, or_assoc]
    | mmxn =>
      change w ∈ countWrites items ++ dataWrites items ++ typeWrites items ++ fieldWrites items ↔ _
      simp only [List.mem_append]
      tauto
  rw [wholeWrites, List.mem_cons, List.mem_cons, hrest]

/-- The entry of an array behind a loop that writes its first entries. -/
theorem get_putAll {α : Type} {n : ℕ} (v : Vector (Option α) n) (xs : List α) (i : Fin n) :
    (putAll v xs).get i = xs[i.val]?.or (v.get i) := by
  rw [putAll, Vector.get_ofFn]
  rfl

section Entries

variable {α : Type} {n : ℕ} {v : Vector (Option α) n} {xs : List α} {i : Fin n}
  {enc : α → List UInt8}

theorem entry_written {x : α} (h : xs[i.val]? = some x) :
    ((putAll v xs).get i).map enc = some (enc x) := by
  rw [get_putAll, h]
  rfl

theorem entry_cases {bytes : List UInt8} (h : ((putAll v xs).get i).map enc = some bytes) :
    (∃ x, xs[i.val]? = some x ∧ enc x = bytes) ∨ (v.get i).map enc = some bytes := by
  rw [get_putAll] at h
  cases hx : xs[i.val]? with
  | none =>
    rw [hx] at h
    exact .inr h
  | some x =>
    rw [hx] at h
    exact .inl ⟨x, rfl, Option.some.inj h⟩

/-- The entries that are written for the items of a record. -/
theorem item_written {items : List (String × Int × String)} {it : String × Int × String}
    {g : String × Int × String → α} (h : items[i.val]? = some it) :
    ((putAll v (items.map g)).get i).map enc = some (enc (g it)) := by
  apply entry_written
  rw [List.getElem?_map, h]
  rfl

theorem item_cases {items : List (String × Int × String)} {g : String × Int × String → α}
    {bytes : List UInt8} (h : ((putAll v (items.map g)).get i).map enc = some bytes) :
    (∃ it, items[i.val]? = some it ∧ enc (g it) = bytes) ∨ (v.get i).map enc = some bytes := by
  refine (entry_cases h).imp_left ?_
  rintro ⟨x, hx, rfl⟩
  rw [List.getElem?_map, Option.map_eq_some_iff] at hx
  obtain ⟨it, hit, rfl⟩ := hx
  exact ⟨it, hit, rfl⟩

end Entries

/-- Every write puts the bytes of its field into it. -/
theorem CodecKind.content_of_mem_wholeWrites {kind : CodecKind} {lnInst : String}
    {items : List (String × Int × String)} {w : FieldWrite Field}
    (hw : w ∈ kind.wholeWrites lnInst items) (out : DbInsertDatatype) :
    w.start = 0 ∧ (out.filled lnInst items).content w.field = some w.bytes := by
  rcases mem_wholeWrites.mp hw with rfl | rfl | hw | hw | hw | hw
  · refine ⟨rfl, ?_⟩
    simp only [DbInsertDatatype.content, DbInsertDatatype.filled]
    exact entry_written List.getElem?_cons_zero
  · exact ⟨rfl, rfl⟩
  · simp only [countWrites, List.mem_cons, List.not_mem_nil, or_false] at hw
    rcases hw with rfl | rfl
    · exact ⟨rfl, rfl⟩
    · exact ⟨rfl, rfl⟩
  all_goals
    obtain ⟨i, it, hit, rfl⟩ := mem_itemWrites.mp hw
    refine ⟨rfl, ?_⟩
    simp only [DbInsertDatatype.content, DbInsertDatatype.filled]
    exact item_written hit

/-- Every field of the record is written, or is as it was. -/
theorem CodecKind.mem_wholeWrites_or {kind : CodecKind} {lnInst : String}
    {items : List (String × Int × String)} (hitems : items.length ≤ maxItemSize)
    {out : DbInsertDatatype} {f : Field} {bytes : List UInt8}
    (h : (out.filled lnInst items).content f = some bytes) :
    ⟨f, 0, bytes⟩ ∈ kind.wholeWrites lnInst items ∨ out.content f = some bytes := by
  simp only [mem_wholeWrites]
  cases f with
  | repID =>
    obtain rfl := Option.some.inj h
    exact .inl (.inr (.inl rfl))
  | lnIDArraySize =>
    obtain rfl := Option.some.inj h
    exact .inl (.inr (.inr (.inl List.mem_cons_self)))
  | paramSize =>
    obtain rfl := Option.some.inj h
    exact .inl (.inr (.inr (.inl (List.mem_cons_of_mem _ List.mem_cons_self))))
  | lnInstArray i =>
    simp only [DbInsertDatatype.content, DbInsertDatatype.filled] at h ⊢
    refine (entry_cases h).imp_left ?_
    rintro ⟨x, hx, rfl⟩
    obtain ⟨hi, rfl⟩ := List.getElem?_eq_some_iff.mp hx
    obtain rfl : i = 0 := Fin.ext (by simpa using hi)
    exact .inl rfl
  | dataArray i =>
    simp only [DbInsertDatatype.content, DbInsertDatatype.filled] at h ⊢
    refine (item_cases h).imp_left ?_
    rintro ⟨it, hit, rfl⟩
    exact .inr (.inr (.inr (.inr (.inr (mem_itemWrites.mpr ⟨i, it, hit, rfl⟩)))))
  | fieldArray i =>
    simp only [DbInsertDatatype.content, DbInsertDatatype.filled] at h ⊢
    refine (item_cases h).imp_left ?_
    rintro ⟨it, hit, rfl⟩
    exact .inr (.inr (.inr (.inl (mem_itemWrites.mpr ⟨i, it, hit, rfl⟩))))
  | typeArray i =>
    simp only [DbInsertDatatype.content, DbInsertDatatype.filled] at h ⊢
    refine (item_cases h).imp_left ?_
    rintro ⟨it, hit, rfl⟩
    have hi : i.val < maxItemSize :=
      lt_of_lt_of_le (List.getElem?_eq_some_iff.mp hit).1 hitems
    exact .inr (.inr (.inr (.inr (.inl (mem_itemWrites.mpr ⟨⟨i.val, hi⟩, it, hit, rfl⟩)))))

theorem CodecKind.wholeWrites_confined (kind : CodecKind) {lnInst : String}
    {items : List (String × Int × String)} (hfit : ItemsFit items) (hln : lnInst.length < 120) :
    ∀ w ∈ kind.wholeWrites lnInst items, recordLayout.Confined w := by
  intro w hw
  rcases mem_wholeWrites.mp hw with rfl | rfl | hw
  · exact confined_cstring.mpr (show 0 + lnInst.length < 128 by omega)
  · have hlen : ("COMDATA/" ++ lnInst).length = 8 + lnInst.length :=
      String.length_append _ _
    exact confined_cstring.mpr (show 0 + _ < 128 by omega)
  · exact (kind.writes_confined_iff lnInst hfit).mpr hln w (mem_writes.mpr (.inr hw))

/-- As long as the copies stay in their fields, the bytes in memory are those of the record that
`fill` makes. -/
theorem CodecKind.writes_represent (kind : CodecKind) {lnInst : String}
    {items : List (String × Int × String)} (hfit : ItemsFit items) (hln : lnInst.length < 120)
    {m : Buffer} {out : DbInsertDatatype} (h : Represents m out) :
    Represents (recordLayout.run m (kind.writes lnInst items)) (out.filled lnInst items) := by
  have hconfined := kind.wholeWrites_confined hfit hln
  intro f bytes hcontent
  rw [kind.run_writes]
  have hsame : ∀ w ∈ kind.wholeWrites lnInst items, w.field = f → w = ⟨f, 0, bytes⟩ := by
    rintro ⟨g, start, bs⟩ hw rfl
    obtain ⟨hstart, hbytes⟩ := content_of_mem_wholeWrites hw out
    rw [hcontent] at hbytes
    rw [Option.some.inj hbytes, ← hstart]
  rcases mem_wholeWrites_or hfit.length_le hcontent with hw | hold
  · have hlen := recordLayout.length_le_of_confined (hconfined _ hw)
    exact ⟨hlen, recordLayout.holds_run hconfined hsame hlen (.inr hw)⟩
  · obtain ⟨hlen, hholds⟩ := h f bytes hold
    exact ⟨hlen, recordLayout.holds_run hconfined hsame hlen (.inl hholds)⟩

theorem CodecKind.store_eq (rt : CRuntime F) (c : CodecState F) (kind : CodecKind) (data : Buffer)
    (out : DbInsertDatatype) :
    kind.store rt c data out =
      kind.printScaled rt c data >>= fun _ => out.fill c.lnInst (kind.items rt c data) := by
  cases kind with
  | zsar =>
    simp only [store, printScaled, CodecZSAR.record, items, bind_assoc]
    rfl
  | mmxn =>
    simp only [store, printScaled, CodecMMXN.record, items, bind_assoc]
    rfl

/-- The parser on records is the parser on bytes: as long as it does not fault, it leaves the
bytes of its record. -/
theorem CodecKind.parser_represents {rt : CRuntime F} {kind : CodecKind} {c : CodecState F}
    {stack buffer : Buffer} {len code : Int} {out out' : DbInsertDatatype}
    (h : kind.parser rt c stack buffer len out = .ok (code, out')) :
    ∃ ws, kind.parserWrites rt c stack buffer len = .ok (code, ws) ∧
      ∀ m, Represents m out → Represents (recordLayout.run m ws) out' := by
  rw [parser_eq] at h
  rw [parserWrites]
  cases hr : kind.reject buffer len with
  | some early =>
    rw [hr, copyAndStore] at h
    obtain ⟨rfl, rfl⟩ := Prod.mk.inj (Except.ok.inj h)
    exact ⟨[], rfl, fun m hm => hm⟩
  | none =>
    rw [hr, copyAndStore] at h
    obtain ⟨data, hdata, h⟩ := bind_eq_ok_iff.mp h
    obtain ⟨record, hstore, h⟩ := bind_eq_ok_iff.mp h
    obtain ⟨rfl, rfl⟩ := Prod.mk.inj (Except.ok.inj h)
    rw [store_eq] at hstore
    obtain ⟨printed, hprint, hfill⟩ := bind_eq_ok_iff.mp hstore
    have hguard := DbInsertDatatype.fill_guarded out c.lnInst (kind.items rt c data)
    have hname := hguard.returns_iff.mp ⟨record, hfill⟩
    rw [hguard.1 hname] at hfill
    obtain rfl := Except.ok.inj hfill
    refine ⟨_, ?_, fun m hm => kind.writes_represent (kind.items_fit rt c data) hname hm⟩
    exact bind_eq_ok_iff.mpr ⟨data, hdata, bind_eq_ok_iff.mpr ⟨printed, hprint, rfl⟩⟩

end DbdkyGcc.Codec
