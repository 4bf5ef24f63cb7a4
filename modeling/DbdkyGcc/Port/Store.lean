import DbdkyGcc.Port.Listen

/-!
# The store loop

The arrays that `listen` hands to `StoreData` are declared outside its endless loop and
used again for every record. `Listen` models a call by the texts it shows; here the
arrays are modelled themselves, as pointers into the record, and the calls of `storeCalls`
are what the pointers show (`storeLoop_reads`).
-/

namespace DbdkyGcc.Port

open Foundations Codec

/-- An entry of one of the pointer arrays. -/
inductive Ptr
  /-- not initialised, or into a record of an earlier turn -/
  | stray
  | null
  | lnInstArray (i : ℕ)
  | dataArray (i : ℕ)
  | fieldArray (i : ℕ)
deriving DecidableEq

/-- The arrays of `listen`, of 64 and 512 entries: the counts of a record, at most 50, do not lead
out of them. A type is `none` when the record has left it indeterminate. -/
@[ext] structure StoreArrays where
  measurePointArrayPtr : ℕ → Ptr
  dataSetValuePtr : ℕ → Ptr
  dataSetTypeINT : ℕ → Option Int
  dataSetParamNamePtr : ℕ → Ptr

/-- The arguments of a call of `StoreData`, apart from the report. -/
structure StoreArgs where
  arrays : StoreArrays
  nMesurePointNum : Int
  paramSize : Int

namespace StoreArrays

/-- Before the loop all pointers are set to null; the types keep their values. -/
def clear (a : StoreArrays) : StoreArrays where
  measurePointArrayPtr i := if i < 64 then .null else a.measurePointArrayPtr i
  dataSetValuePtr j := if j < 512 then .null else a.dataSetValuePtr j
  dataSetTypeINT := a.dataSetTypeINT
  dataSetParamNamePtr j := if j < 512 then .null else a.dataSetParamNamePtr j

/-- The body of the inner loop. -/
def copyParam (p : DbInsertDatatype) (a : StoreArrays) (i : ℕ) : StoreArrays :=
  { a with
    dataSetValuePtr := Function.update a.dataSetValuePtr i (.dataArray i)
    dataSetTypeINT := Function.update a.dataSetTypeINT i (p.typeArray[i]?.getD none)
    dataSetParamNamePtr := Function.update a.dataSetParamNamePtr i (.fieldArray i) }

/-- A turn of the outer loop, up to the call. The index of the inner loop hides the outer one. -/
def nodeTurn (p : DbInsertDatatype) (a : StoreArrays) (i : ℕ) (paramSize : Int) : StoreArrays :=
  (List.range paramSize.toNat).foldl (copyParam p)
    { a with measurePointArrayPtr := Function.update a.measurePointArrayPtr i (.lnInstArray i) }

end StoreArrays

/-- The store loop for a record with the counts `nMesurePointNum` and `paramSize`: the arrays
afterwards, and the calls. -/
def storeLoop (p : DbInsertDatatype) (nMesurePointNum paramSize : Int) (a : StoreArrays) :
    StoreArrays × List StoreArgs :=
  (List.range nMesurePointNum.toNat).foldl
    (fun s i =>
      let a := s.1.nodeTurn p i paramSize
      (a, s.2 ++ [⟨a, nMesurePointNum, paramSize⟩]))
    (a.clear, [])

/-- What `listen` does with a record: it reads the counts and runs the loop. -/
def storeRecord (p : DbInsertDatatype) (a : StoreArrays) :
    Except Fault (StoreArrays × List StoreArgs) := do
  let nMesurePointNum ← written p.lnIDArraySize
  let paramSize ← written p.paramSize
  .ok (storeLoop p nMesurePointNum paramSize a)

theorem storeRecord_eq {p : DbInsertDatatype} {nMesurePointNum paramSize : Int}
    (hn : p.lnIDArraySize = some nMesurePointNum) (hk : p.paramSize = some paramSize)
    (a : StoreArrays) : storeRecord p a = .ok (storeLoop p nMesurePointNum paramSize a) := by
  rw [storeRecord, hn, hk]
  rfl

-- ════════════════════════════════════════════════════════════════════════
-- What the loops leave in the arrays
-- ════════════════════════════════════════════════════════════════════════

/-- An array that is filled from the front gets its next entry. -/
theorem update_filled {β : Type} (f g : ℕ → β) (k : ℕ) :
    Function.update (fun j => if j < k then f j else g j) k (f k) =
      fun j => if j < k + 1 then f j else g j := by
  funext j
  by_cases h : j = k
  · subst h
    rw [Function.update_self, if_pos (Nat.lt_succ_self j)]
  · rw [Function.update_of_ne h]
    exact if_congr (by omega) rfl rfl

namespace StoreArrays

theorem foldl_copyParam (p : DbInsertDatatype) (a : StoreArrays) (k : ℕ) :
    (List.range k).foldl (copyParam p) a =
      { a with
        dataSetValuePtr := fun j => if j < k then .dataArray j else a.dataSetValuePtr j
        dataSetTypeINT := fun j =>
          if j < k then p.typeArray[j]?.getD none else a.dataSetTypeINT j
        dataSetParamNamePtr := fun j =>
          if j < k then .fieldArray j else a.dataSetParamNamePtr j } := by
  induction k with
  | zero => simp
  | succ k ih =>
    rw [List.range_succ, List.foldl_append, ih, List.foldl_cons, List.foldl_nil, copyParam]
    simp only [update_filled Ptr.dataArray, update_filled Ptr.fieldArray,
      update_filled (fun j => p.typeArray[j]?.getD none)]

/-- The arrays behind `m` turns. -/
def afterTurns (p : DbInsertDatatype) (a : StoreArrays) (paramSize : Int) (m : ℕ) :
    StoreArrays where
  measurePointArrayPtr i := if i < m then .lnInstArray i else a.clear.measurePointArrayPtr i
  dataSetValuePtr j :=
    if 0 < m ∧ j < paramSize.toNat then .dataArray j else a.clear.dataSetValuePtr j
  dataSetTypeINT j :=
    if 0 < m ∧ j < paramSize.toNat then p.typeArray[j]?.getD none else a.dataSetTypeINT j
  dataSetParamNamePtr j :=
    if 0 < m ∧ j < paramSize.toNat then .fieldArray j else a.clear.dataSetParamNamePtr j

theorem nodeTurn_afterTurns (p : DbInsertDatatype) (a : StoreArrays) (paramSize : Int) (m : ℕ) :
    (afterTurns p a paramSize m).nodeTurn p m paramSize = afterTurns p a paramSize (m + 1) := by
  have hagain : ∀ {β : Type} (j : ℕ) (x y : β),
      (if j < paramSize.toNat then x else if 0 < m ∧ j < paramSize.toNat then x else y) =
        if 0 < m + 1 ∧ j < paramSize.toNat then x else y := by
    intro β j x y
    by_cases hj : j < paramSize.toNat
    · rw [if_pos hj, if_pos ⟨Nat.succ_pos m, hj⟩]
    · rw [if_neg hj, if_neg fun h => hj h.2, if_neg fun h => hj h.2]
  rw [nodeTurn, foldl_copyParam]
  apply StoreArrays.ext
  · exact update_filled Ptr.lnInstArray _ m
  · funext j
    exact hagain j _ _
  · funext j
    exact hagain j _ _
  · funext j
    exact hagain j _ _

/-- After any turn the first entries of the other arrays are those of the record. -/
theorem afterTurns_params (p : DbInsertDatatype) (a : StoreArrays) {paramSize : Int} {m j : ℕ}
    (hm : 0 < m) (hj : j < paramSize.toNat) :
    (a.afterTurns p paramSize m).dataSetValuePtr j = .dataArray j ∧
      (a.afterTurns p paramSize m).dataSetTypeINT j = p.typeArray[j]?.getD none ∧
      (a.afterTurns p paramSize m).dataSetParamNamePtr j = .fieldArray j :=
  ⟨if_pos ⟨hm, hj⟩, if_pos ⟨hm, hj⟩, if_pos ⟨hm, hj⟩⟩

theorem afterTurns_zero (p : DbInsertDatatype) (a : StoreArrays) (paramSize : Int) :
    a.afterTurns p paramSize 0 = a.clear := by
  rw [StoreArrays.ext_iff]
  simp only [afterTurns, Nat.not_lt_zero, false_and, if_false]
  exact ⟨trivial, trivial, rfl, trivial⟩

end StoreArrays

/-- The loop makes a call in every turn, with the arrays as the turns so far have left them. -/
theorem storeLoop_eq (p : DbInsertDatatype) (nMesurePointNum paramSize : Int) (a : StoreArrays) :
    storeLoop p nMesurePointNum paramSize a =
      (a.afterTurns p paramSize nMesurePointNum.toNat,
        (List.range nMesurePointNum.toNat).map fun i =>
          ⟨a.afterTurns p paramSize (i + 1), nMesurePointNum, paramSize⟩) := by
  rw [storeLoop]
  generalize nMesurePointNum.toNat = n
  induction n with
  | zero => rw [List.range_zero, List.foldl_nil, StoreArrays.afterTurns_zero, List.map_nil]
  | succ n ih =>
    rw [List.range_succ, List.foldl_append, ih, List.foldl_cons, List.foldl_nil, List.map_append]
    dsimp only
    rw [StoreArrays.nodeTurn_afterTurns]
    rfl

-- ════════════════════════════════════════════════════════════════════════
-- What the calls show
-- ════════════════════════════════════════════════════════════════════════

/-- The text that a pointer shows. -/
def deref (p : DbInsertDatatype) : Ptr → Option String
  | .lnInstArray i => p.lnInstArray[i]?.getD none
  | .dataArray i => p.dataArray[i]?.getD none
  | .fieldArray i => p.fieldArray[i]?.getD none
  | .null => none
  | .stray => none

/-- `StoreData` sees the call through the pointers it is given. -/
structure StoreArgs.Reads (p : DbInsertDatatype) (args : StoreArgs) (call : StoreCall) : Prop where
  repID : p.repID = some call.repID
  measurePoints : call.measurePoints = (List.range args.nMesurePointNum.toNat).map fun i =>
    deref p (args.arrays.measurePointArrayPtr i)
  values : call.values.map some = (List.range args.paramSize.toNat).map fun j =>
    deref p (args.arrays.dataSetValuePtr j)
  types : call.types.map some = (List.range args.paramSize.toNat).map args.arrays.dataSetTypeINT
  names : call.names.map some = (List.range args.paramSize.toNat).map fun j =>
    deref p (args.arrays.dataSetParamNamePtr j)

theorem written_eq_ok {α : Type} {o : Option α} {x : α} (h : written o = .ok x) : o = some x := by
  cases o with
  | none => cases h
  | some y => rw [Except.ok.inj h]

theorem firstEntries_eq_ok {α : Type} {n : ℕ} {v : Vector (Option α) n} {count : Int}
    {l : List α} (h : firstEntries v count = .ok l) :
    l.map some = (List.range count.toNat).map fun i => v[i]?.getD none := by
  have hentries := forall₂_of_mapM_eq_ok h
  clear h
  generalize List.range count.toNat = is at hentries
  induction hentries with
  | nil => rfl
  | cons hx _ ih => rw [List.map_cons, List.map_cons, ih, written_eq_ok hx]

/-- The nodes of the turns so far, and null pointers behind them. -/
theorem map_afterTurns (p : DbInsertDatatype) (a : StoreArrays) (paramSize : Int) {i n : ℕ}
    (hi : i < n) (h64 : n ≤ 64) :
    (List.range n).map (fun j => deref p ((a.afterTurns p paramSize (i + 1)).measurePointArrayPtr j))
      = ((List.range (i + 1)).map fun j => p.lnInstArray[j]?.getD none) ++
        List.replicate (n - (i + 1)) none := by
  obtain ⟨m, rfl⟩ := Nat.exists_eq_add_of_lt hi
  rw [show i + m + 1 = i + 1 + m by ring, Nat.add_sub_cancel_left, List.range_add, List.map_append,
    List.map_map]
  congr 1
  · apply List.map_congr_left
    intro j hj
    have hj : j < i + 1 := List.mem_range.mp hj
    simp only [StoreArrays.afterTurns, if_pos hj, deref]
  · rw [List.map_eq_replicate_iff.mpr, List.length_range]
    intro j hj
    have hj : j < m := List.mem_range.mp hj
    have hnull : (a.afterTurns p paramSize (i + 1)).measurePointArrayPtr (i + 1 + j) = .null := by
      simp only [StoreArrays.afterTurns, StoreArrays.clear]
      rw [if_neg (by omega), if_pos (by omega)]
    rw [Function.comp_apply, hnull, deref]

/-- The turn of `storeTurn` and the turn of the loop. -/
theorem storeTurn_reads {p : DbInsertDatatype} {repID : String} {n paramSize : Int} {i : ℕ}
    {call : StoreCall} (hrep : p.repID = some repID) (hk : p.paramSize = some paramSize)
    (hi : i < n.toNat) (h64 : n ≤ 64) (h : storeTurn p repID n i = .ok call) (a : StoreArrays) :
    StoreArgs.Reads p ⟨a.afterTurns p paramSize (i + 1), n, paramSize⟩ call := by
  rw [storeTurn, hk] at h
  obtain ⟨nodes, hnodes, h⟩ := bind_eq_ok_iff.mp h
  obtain ⟨k, hparam, h⟩ := bind_eq_ok_iff.mp h
  obtain rfl : paramSize = k := Except.ok.inj hparam
  obtain ⟨values, hvalues, h⟩ := bind_eq_ok_iff.mp h
  obtain ⟨types, htypes, h⟩ := bind_eq_ok_iff.mp h
  obtain ⟨names, hnames, h⟩ := bind_eq_ok_iff.mp h
  cases h
  have hparams := fun j (hj : j ∈ List.range paramSize.toNat) =>
    a.afterTurns_params p (Nat.succ_pos i) (List.mem_range.mp hj)
  refine ⟨hrep, ?_, ?_, ?_, ?_⟩
  · rw [map_afterTurns p a paramSize hi (by omega)]
    exact congrArg (· ++ _) (firstEntries_eq_ok hnodes)
  · rw [firstEntries_eq_ok hvalues]
    exact List.map_congr_left fun j hj => congrArg (deref p) (hparams j hj).1.symm
  · rw [firstEntries_eq_ok htypes]
    exact List.map_congr_left fun j hj => (hparams j hj).2.1.symm
  · rw [firstEntries_eq_ok hnames]
    exact List.map_congr_left fun j hj => congrArg (deref p) (hparams j hj).2.2.symm

/-- The calls of `storeCalls` are what the pointers of the loop show. -/
theorem storeLoop_reads {p : DbInsertDatatype} {n paramSize : Int}
    (hn : p.lnIDArraySize = some n) (hk : p.paramSize = some paramSize) (h64 : n ≤ 64)
    {calls : List StoreCall} (h : storeCalls p = .ok calls) (a : StoreArrays) :
    List.Forall₂ (StoreArgs.Reads p) (storeLoop p n paramSize a).2 calls := by
  rw [storeCalls, hn] at h
  obtain ⟨repID, hrep, h⟩ := bind_eq_ok_iff.mp h
  obtain ⟨m, hm, h⟩ := bind_eq_ok_iff.mp h
  obtain rfl : n = m := Except.ok.inj hm
  have hturns := (List.forall₂_and_left _ _).mpr
    ⟨fun i hi => List.mem_range.mp hi, forall₂_of_mapM_eq_ok h⟩
  rw [storeLoop_eq, List.forall₂_map_left_iff]
  exact hturns.imp fun i call hturn =>
    storeTurn_reads (written_eq_ok hrep) hk hturn.1 h64 hturn.2 a

-- ════════════════════════════════════════════════════════════════════════
-- One call for a record
-- ════════════════════════════════════════════════════════════════════════

/-- What a call should hand over: all logical nodes of the record and all its parameters. -/
structure StoreArgs.Shows (args : StoreArgs) (p : DbInsertDatatype) : Prop where
  nodes : ∀ i < args.nMesurePointNum.toNat, args.arrays.measurePointArrayPtr i = .lnInstArray i
  values : ∀ j < args.paramSize.toNat, args.arrays.dataSetValuePtr j = .dataArray j
  types : ∀ j < args.paramSize.toNat, args.arrays.dataSetTypeINT j = p.typeArray[j]?.getD none
  names : ∀ j < args.paramSize.toNat, args.arrays.dataSetParamNamePtr j = .fieldArray j

/-- The last call of a loop hands over the whole record. -/
theorem shows_afterTurns (p : DbInsertDatatype) (n paramSize : Int) (a : StoreArrays)
    (hn : 0 < n.toNat) :
    StoreArgs.Shows ⟨a.afterTurns p paramSize n.toNat, n, paramSize⟩ p where
  nodes _ hi := if_pos hi
  values _ hj := (a.afterTurns_params p hn hj).1
  types _ hj := (a.afterTurns_params p hn hj).2.1
  names _ hj := (a.afterTurns_params p hn hj).2.2

/-- Whatever the arrays held, a record is stored by one call that hands over all of it exactly if
it has at most one logical node. -/
theorem record_stored_once_iff (p : DbInsertDatatype) (nMesurePointNum paramSize : Int)
    (hn : p.lnIDArraySize = some nMesurePointNum) (hk : p.paramSize = some paramSize)
    (a : StoreArrays) :
    ∃ r, storeRecord p a = .ok r ∧
      ((1 ≤ nMesurePointNum → ∃ args : StoreArgs, r.2 = [args] ∧
        args.nMesurePointNum = nMesurePointNum ∧ args.paramSize = paramSize ∧ args.Shows p) ↔
      nMesurePointNum ≤ 1) := by
  refine ⟨storeLoop p nMesurePointNum paramSize a, storeRecord_eq hn hk a, ?_⟩
  rw [storeLoop_eq]
  constructor
  · intro h
    by_contra hlarge
    obtain ⟨args, hcalls, -⟩ := h (by omega)
    have hlen := congrArg List.length hcalls
    rw [List.length_map, List.length_range, List.length_singleton] at hlen
    omega
  · intro hle hge
    obtain rfl : nMesurePointNum = 1 := le_antisymm hle hge
    exact ⟨_, rfl, rfl, rfl, shows_afterTurns p 1 paramSize a (by decide)⟩

/-- A record as the codecs make them. -/
def oneNode : DbInsertDatatype := DbInsertDatatype.unwritten.filled "MMXN1" [("Amp", 1, "3.000000")]

/-- The arrays as they are declared. -/
def strayArrays : StoreArrays where
  measurePointArrayPtr _ := .stray
  dataSetValuePtr _ := .stray
  dataSetTypeINT _ := some 0
  dataSetParamNamePtr _ := .stray

theorem record_stored_once_amp :
    ∃ r args, storeRecord oneNode strayArrays = .ok r ∧ r.2 = [args] := by
  obtain ⟨r, hr, hiff⟩ := record_stored_once_iff oneNode 1 1 rfl rfl strayArrays
  obtain ⟨args, hcalls, -⟩ := hiff.mpr le_rfl le_rfl
  exact ⟨r, args, hr, hcalls⟩

/-- A record with two logical nodes. -/
def twoNodes : DbInsertDatatype :=
  { oneNode with
    lnInstArray := putAll oneNode.lnInstArray ["MMXN1", "MMXN2"]
    lnIDArraySize := some 2 }

/-- It is stored twice, the first time with a null pointer for its second node. -/
theorem two_nodes_stored_twice :
    (storeRecord twoNodes strayArrays).toOption.map (fun r => r.2.map fun args =>
      (args.nMesurePointNum, args.arrays.measurePointArrayPtr 0,
        args.arrays.measurePointArrayPtr 1)) =
      some [(2, .lnInstArray 0, .null), (2, .lnInstArray 0, .lnInstArray 1)] := by
  decide +kernel

end DbdkyGcc.Port
