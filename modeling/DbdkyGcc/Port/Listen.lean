import DbdkyGcc.Codec.Bounds

/-!
# The receiving loop of a serial port

`SerialPort::listen`: the bytes of `read` are appended to `read_buf`, the parser of the
current codec is called on all that is held, and its answer decides whether the record is
stored and the buffer is emptied. `received` and `assigned` are history: the bytes that
arrived since the buffer was emptied, and whether `n` was ever given a value.
-/

namespace DbdkyGcc.Port

open Foundations Codec

/-- What `StoreData` is told: its counted arrays, up to their counts. -/
structure StoreCall where
  repID : String
  /-- `none` is a null pointer -/
  measurePoints : List (Option String)
  values : List String
  types : List Int
  names : List String
deriving DecidableEq

/-- A field of the record that is used. -/
def written {α : Type} (o : Option α) : Except Fault α := require .unwrittenField o

/-- The first `count` entries of an array of the record. -/
def firstEntries {α : Type} {n : ℕ} (v : Vector (Option α) n) (count : Int) :
    Except Fault (List α) :=
  (List.range count.toNat).mapM fun i => written (v[i]?.getD none)

/-- The turn of the store loop for the logical node `i`: the nodes behind it are still
null. -/
def storeTurn (p : DbInsertDatatype) (repID : String) (nMesurePointNum : Int) (i : ℕ) :
    Except Fault StoreCall := do
  let nodes ← firstEntries p.lnInstArray (i + 1 : ℕ)
  let paramSize ← written p.paramSize
  let values ← firstEntries p.dataArray paramSize
  let types ← firstEntries p.typeArray paramSize
  let names ← firstEntries p.fieldArray paramSize
  .ok { repID := repID
        measurePoints := nodes.map some ++ List.replicate (nMesurePointNum.toNat - (i + 1)) none
        values := values
        types := types
        names := names }

/-- The store loop calls `StoreData` once per logical node. -/
def storeCalls (p : DbInsertDatatype) : Except Fault (List StoreCall) := do
  let repID ← written p.repID
  let nMesurePointNum ← written p.lnIDArraySize
  (List.range nMesurePointNum.toNat).mapM (storeTurn p repID nMesurePointNum)

structure ListenState where
  readBuf : Buffer
  n : Int
  assigned : Bool
  received : ℕ

namespace ListenState

/-- At the head of the loop for the first time: the buffer is zero, and `n` is whatever
its declaration left in it. -/
def entry (n : Int) : ListenState where
  readBuf := fun _ => 0
  n := n
  assigned := false
  received := 0

/-- `n = 0` and `bzero`. -/
def reset : ListenState where
  readBuf := fun _ => 0
  n := 0
  assigned := true
  received := 0

end ListenState

/-- `sizeof(read_buf)`, both the size of the buffer and the count that `read` is given. -/
def readBufSize : ℕ := 256

/-- The virtual function `parser` of a codec object, in the state the object has when it
is called. -/
abbrev ParserFn : Type :=
  Buffer → Int → DbInsertDatatype → Except Fault (Int × DbInsertDatatype)

namespace ListenState

/-- `read` has delivered `bytes` to `read_buf + n`. -/
def receive (s : ListenState) (bytes : List UInt8) : Except Fault ListenState :=
  if 0 ≤ s.n ∧ s.n + bytes.length ≤ readBufSize then
    .ok { s with
      readBuf := storeAt s.readBuf s.n.toNat bytes
      n := s.n + bytes.length
      received := s.received + bytes.length }
  else .error .readOverflow

/-- The rest of the turn, with the codec that `codec_` points to. -/
def parse (s : ListenState) : Option ParserFn → Except Fault (ListenState × List StoreCall)
  | none => .ok (reset, [])
  | some parser => do
    let (retcode, out) ← parser s.readBuf s.n .unwritten
    if retcode = parseSuccess then
      let calls ← storeCalls out
      .ok (reset, calls)
    else if retcode = parseErrorLengthShort then .ok (s, [])
    else .ok (reset, [])

end ListenState

/-- What one turn of the loop meets: the bytes of `read`, at most as many as it was asked
for and none when it returns zero or an error, and the codec of the port. -/
structure Turn where
  bytes : List UInt8
  asked : bytes.length ≤ readBufSize
  codec : Option ParserFn

def listenTurn (s : ListenState) (t : Turn) : Except Fault (ListenState × List StoreCall) :=
  if t.bytes = [] then .ok (s, [])
  else do
    let s ← s.receive t.bytes
    s.parse t.codec

/-- Turn after turn, with all calls of `StoreData`. -/
def listenRun : ListenState → List Turn → Except Fault (ListenState × List StoreCall)
  | s, [] => .ok (s, [])
  | s, t :: ts => do
    let (s, calls) ← listenTurn s t
    let (s, later) ← listenRun s ts
    .ok (s, calls ++ later)

/-- What `listen` finds before the loop: the entry point of the data base, if it was loaded
before, and otherwise where to load it from. -/
structure Loader where
  storeDataPtr : Bool
  abspath : String
  dlopen : String → Bool
  dlsym : String → Bool

/-- Whether `listen` gets to its loop. -/
def Loader.entersLoop (env : Loader) : Bool :=
  env.storeDataPtr ||
    (env.abspath ≠ "" && env.dlopen (env.abspath ++ "libServerDataInput.so") &&
      env.dlsym "StoreData")

theorem parse_of_error {s : ListenState} {parser : ParserFn} {e : Fault}
    (h : parser s.readBuf s.n .unwritten = .error e) : s.parse (some parser) = .error e := by
  rw [ListenState.parse, h]
  rfl

theorem parse_of_ok {s : ListenState} {parser : ParserFn} {retcode : Int} {out : DbInsertDatatype}
    (h : parser s.readBuf s.n .unwritten = .ok (retcode, out)) :
    s.parse (some parser) =
      if retcode = parseSuccess then storeCalls out >>= fun calls => .ok (.reset, calls)
      else if retcode = parseErrorLengthShort then .ok (s, [])
      else .ok (.reset, []) := by
  rw [ListenState.parse, h]
  rfl

/-- The codec finds the held bytes too short. -/
def AnswersShort (codec : Option ParserFn) (readBuf : Buffer) (n : Int) : Prop :=
  ∃ parser out, codec = some parser ∧
    parser readBuf n .unwritten = .ok (parseErrorLengthShort, out)

/-- How a turn that received something can end. -/
theorem parse_cases {s s' : ListenState} {codec : Option ParserFn} {calls : List StoreCall}
    (h : s.parse codec = .ok (s', calls)) :
    (s' = .reset ∧ ¬ AnswersShort codec s.readBuf s.n ∧
      (calls = [] ∨ ∃ parser out, codec = some parser ∧
        parser s.readBuf s.n .unwritten = .ok (parseSuccess, out) ∧ storeCalls out = .ok calls)) ∨
    (s' = s ∧ calls = [] ∧ AnswersShort codec s.readBuf s.n) := by
  cases codec with
  | none =>
    cases h
    refine .inl ⟨rfl, ?_, .inl rfl⟩
    rintro ⟨_, _, h, -⟩
    cases h
  | some parser =>
    obtain ⟨⟨retcode, out⟩, hp, h⟩ := bind_eq_ok_iff.mp h
    have hshort : AnswersShort (some parser) s.readBuf s.n → retcode = parseErrorLengthShort := by
      rintro ⟨_, out', heq, hp'⟩
      cases heq
      rw [hp] at hp'
      exact congrArg Prod.fst (Except.ok.inj hp')
    dsimp only at h
    split at h
    · next hcode =>
      obtain ⟨cs, hc, h⟩ := bind_eq_ok_iff.mp h
      cases h
      refine .inl ⟨rfl, fun hs => ?_, .inr ⟨parser, out, rfl, by rw [hp, hcode], hc⟩⟩
      exact absurd (hcode.symm.trans (hshort hs)) (by decide)
    · split at h
      · next hcode =>
        cases h
        exact .inr ⟨rfl, rfl, parser, out, rfl, by rw [hp, hcode]⟩
      · next hcode =>
        cases h
        exact .inl ⟨rfl, fun hs => hcode (hshort hs), .inl rfl⟩

theorem listenRun_concat_ok {s s₂ : ListenState} {pre : List Turn} {t : Turn}
    {calls : List StoreCall} :
    listenRun s (pre ++ [t]) = .ok (s₂, calls) ↔ ∃ s₁ before now,
      listenRun s pre = .ok (s₁, before) ∧ listenTurn s₁ t = .ok (s₂, now) ∧
        calls = before ++ now := by
  induction pre generalizing s s₂ calls with
  | nil =>
    simp only [List.nil_append, listenRun, bind_eq_ok_iff, Prod.exists, Except.ok.injEq,
      Prod.mk.injEq]
    constructor
    · rintro ⟨s₁, now, ht, _, _, ⟨rfl, rfl⟩, rfl, rfl⟩
      exact ⟨s, [], _, ⟨rfl, rfl⟩, ht, by simp⟩
    · rintro ⟨_, _, now, ⟨rfl, rfl⟩, ht, rfl⟩
      exact ⟨s₂, calls, ht, s₂, [], ⟨rfl, rfl⟩, rfl, by simp⟩
  | cons u pre ih =>
    simp only [List.cons_append, listenRun, bind_eq_ok_iff, Prod.exists, Except.ok.injEq,
      Prod.mk.injEq, ih]
    constructor
    · rintro ⟨s₁, first, hu, _, _, ⟨s', before, now, hpre, ht, rfl⟩, rfl, rfl⟩
      exact ⟨s', first ++ before, now, ⟨s₁, first, hu, s', before, hpre, rfl, rfl⟩, ht, by simp⟩
    · rintro ⟨s', _, now, ⟨s₁, first, hu, _, before, hpre, rfl, rfl⟩, ht, rfl⟩
      exact ⟨s₁, first, hu, s₂, before ++ now, ⟨_, before, now, hpre, ht, rfl⟩, rfl, by simp⟩

/-- A run fails in the first turn that fails. -/
theorem listenRun_error_iff {s : ListenState} {ts : List Turn} {e : Fault} :
    listenRun s ts = .error e ↔ ∃ pre t s₁ before, pre ++ [t] <+: ts ∧
      listenRun s pre = .ok (s₁, before) ∧ listenTurn s₁ t = .error e := by
  induction ts generalizing s with
  | nil => simp [listenRun]
  | cons u ts ih =>
    simp only [listenRun, bind_eq_error_iff, Prod.exists, ih]
    constructor
    · rintro (hu | ⟨s₁, now, hu, ⟨pre, t, s₂, before, hpre, hrun, ht⟩ | ⟨_, _, _, h⟩⟩)
      · exact ⟨[], u, s, [], by simp, rfl, hu⟩
      · refine ⟨u :: pre, t, s₂, now ++ before, by simpa using hpre, ?_, ht⟩
        simp only [listenRun, hu, hrun, bind, Except.bind]
      · cases h
    · rintro ⟨pre, t, s₂, before, hpre, hrun, ht⟩
      cases pre with
      | nil =>
        cases hrun
        obtain ⟨rfl, -⟩ := by simpa using hpre
        exact .inl ht
      | cons v pre =>
        rw [List.cons_append, List.cons_prefix_cons] at hpre
        obtain ⟨rfl, hpre⟩ := hpre
        simp only [listenRun, bind_eq_ok_iff, Prod.exists, Except.ok.injEq, Prod.mk.injEq] at hrun
        obtain ⟨s₁, now, hu, _, later, hrun, rfl, rfl⟩ := hrun
        exact .inr ⟨s₁, now, hu, .inl ⟨pre, t, _, later, hpre, hrun, ht⟩⟩

theorem firstEntries_putAll {α : Type} {n : ℕ} (v : Vector (Option α) n) (xs : List α)
    (h : xs.length ≤ n) : firstEntries (putAll v xs) xs.length = .ok xs := by
  cases xs with
  | nil => rfl
  | cons x xs =>
    have hget : ∀ i ∈ List.range (x :: xs).length,
        written ((putAll v (x :: xs))[i]?.getD none) = .ok ((x :: xs)[i]?.getD x) := by
      intro i hi
      have hi := List.mem_range.mp hi
      rw [getElem?_putAll v _ hi (lt_of_lt_of_le hi h), List.getElem?_eq_getElem hi]
      rfl
    show (List.range (x :: xs).length).mapM _ = _
    rw [mapM_eq_ok_map _ hget]
    refine congrArg Except.ok (List.ext_getElem (by simp) fun i h1 h2 => ?_)
    rw [List.getElem_map, List.getElem_range, List.getElem?_eq_getElem h2]
    rfl

/-- The one call that is made for the record of a codec. -/
def storeCall (lnInst : String) (items : List (String × Int × String)) : StoreCall where
  repID := "COMDATA/" ++ lnInst
  measurePoints := [some lnInst]
  values := items.map fun it => it.2.2
  types := items.map fun it => it.2.1
  names := items.map fun it => it.1

theorem storeCalls_filled (out : DbInsertDatatype) (lnInst : String)
    (items : List (String × Int × String)) (h : items.length ≤ maxItemSize) :
    storeCalls (out.filled lnInst items) = .ok [storeCall lnInst items] := by
  have hnodes : firstEntries (putAll out.lnInstArray [lnInst]) (0 + 1 : ℕ) = .ok [lnInst] :=
    firstEntries_putAll _ [lnInst] (show 1 ≤ 50 by decide)
  have hvalues := firstEntries_putAll out.dataArray (items.map fun it => it.2.2) (by simpa using h)
  have htypes := firstEntries_putAll out.typeArray (items.map fun it => it.2.1)
    (by simpa using h.trans (by decide))
  have hnames := firstEntries_putAll out.fieldArray (items.map fun it => it.1) (by simpa using h)
  rw [List.length_map] at hvalues htypes hnames
  have hturn : storeTurn (out.filled lnInst items) ("COMDATA/" ++ lnInst) 1 0 =
      .ok (storeCall lnInst items) := by
    simp only [storeTurn, DbInsertDatatype.filled, written, require, bind, Except.bind, hnodes, hvalues,
      htypes, hnames]
    rfl
  have hrep : (out.filled lnInst items).repID = some ("COMDATA/" ++ lnInst) := rfl
  have hsize : (out.filled lnInst items).lnIDArraySize = some 1 := rfl
  simp only [storeCalls, hrep, hsize, written, require, bind, Except.bind]
  rw [show (1 : Int).toNat = 1 from rfl, List.range_one, List.mapM_cons, hturn]
  rfl

end DbdkyGcc.Port
