import DbdkyGcc.Codec.Bounds

/-!
# The configuration of a codec

A codec object lives as long as the program and is configured again and again, for one unit
after another. `setConfig` replaces the logical node, but it merges the precisions: what an
earlier call has given and the latest one does not stays in force. A run of the parser
depends on the members only through the logical node and the precisions it scales by.
-/

namespace DbdkyGcc.Codec

open Foundations

variable {F : Type}

theorem foldl_insert_eq_insertMany (l : List (String × F)) (m : Std.ExtTreeMap String F) :
    l.foldl (fun m it => m.insert it.1 it.2) m = m.insertMany l := by
  induction l generalizing m with
  | nil => rfl
  | cons it l ih => rw [List.foldl_cons, ih, ← Std.ExtTreeMap.insertMany_cons]

/-- `setConfig` keeps the precisions that it is not given. -/
theorem precision_setConfig (rt : CRuntime F) (c : CodecState F) (lnInst : String)
    (m : Std.ExtTreeMap String F) (name : String) :
    (c.setConfig lnInst m).precision rt name = m[name]?.getD (c.precision rt name) := by
  rw [CodecState.precision, CodecState.setConfig, foldl_insert_eq_insertMany]
  cases hm : m[name]? with
  | none =>
    have habsent : (m.toList.map Prod.fst).contains name = false := by
      rw [List.contains_eq_any_beq, List.any_eq_false]
      intro k hk heq
      obtain ⟨⟨k, v⟩, hkv, rfl⟩ := List.mem_map.mp hk
      obtain rfl : name = k := by simpa using heq
      rw [Std.ExtTreeMap.mem_toList_iff_getElem?_eq_some, hm] at hkv
      cases hkv
    rw [Std.ExtTreeMap.getElem?_insertMany_list_of_contains_eq_false habsent]
    rfl
  | some v =>
    rw [Std.ExtTreeMap.getElem?_insertMany_list_of_mem (Std.ReflCmp.compare_self (a := name))
      Std.ExtTreeMap.distinct_keys_toList
      (Std.ExtTreeMap.mem_toList_iff_getElem?_eq_some.mpr hm)]
    rfl

/-- A codec object as the factory makes it. -/
def CodecState.fresh : CodecState F where
  lnInst := ""
  paramPrecisions := ∅

/-- The arguments of a call of `setConfig`. -/
structure ConfigCall (F : Type) where
  lnInst : String
  paramsProp : Std.ExtTreeMap String F

/-- A codec object behind a sequence of calls of `setConfig`. -/
def configured (calls : List (ConfigCall F)) : CodecState F :=
  calls.foldl (fun c call => c.setConfig call.lnInst call.paramsProp) .fresh

/-- The precision that the latest call with the parameter has given it. -/
def latestPrecision (calls : List (ConfigCall F)) (name : String) :
    Option F :=
  calls.reverse.findSome? fun call => call.paramsProp[name]?

theorem configured_append (calls : List (ConfigCall F))
    (call : ConfigCall F) :
    configured (calls ++ [call]) = (configured calls).setConfig call.lnInst call.paramsProp := by
  rw [configured, List.foldl_append]
  rfl

/-- The precision in force is the latest that was given, however long ago. -/
theorem precision_configured (rt : CRuntime F) (calls : List (ConfigCall F))
    (name : String) :
    (configured calls).precision rt name = (latestPrecision calls name).getD rt.one := by
  induction calls using List.reverseRecOn with
  | nil =>
    rw [configured, List.foldl_nil, CodecState.precision, CodecState.fresh,
      Std.ExtTreeMap.getElem?_empty]
    rfl
  | append_singleton calls call ih =>
    have hlatest : latestPrecision (calls ++ [call]) name =
        call.paramsProp[name]?.or (latestPrecision calls name) := by
      rw [latestPrecision, List.reverse_append, List.reverse_singleton, List.singleton_append,
        List.findSome?_cons]
      cases call.paramsProp[name]? with
      | none => rfl
      | some v => rfl
    rw [configured_append, precision_setConfig, ih, hlatest, Option.getD_or]

/-- The items of a record depend on the members only through the precisions. -/
theorem CodecKind.items_config_congr (rt : CRuntime F) (kind : CodecKind) {c c' : CodecState F}
    (hprec : ∀ name ∈ kind.scaled, c.precision rt name = c'.precision rt name) (data : Buffer) :
    kind.items rt c data = kind.items rt c' data := by
  cases kind with
  | zsar =>
    have htota := hprec "TotA" (by simp [scaled])
    have hrisa := hprec "RisA" (by simp [scaled])
    simp only [items, CodecZSAR.items, CodecZSAR.strTotA, CodecZSAR.strRisA, htota, hrisa]
  | mmxn =>
    have hamp := hprec "Amp" (by simp [scaled])
    simp only [items, CodecMMXN.items, CodecMMXN.strAmp, hamp]

/-- A run of a parser reads the logical node and the precisions of the scaled parameters. -/
theorem CodecKind.parser_config_congr (rt : CRuntime F) (kind : CodecKind) {c c' : CodecState F}
    (hln : c.lnInst = c'.lnInst)
    (hprec : ∀ name ∈ kind.scaled, c.precision rt name = c'.precision rt name)
    (stack buffer : Buffer) (len : Int) (out : DbInsertDatatype) :
    kind.parser rt c stack buffer len out = kind.parser rt c' stack buffer len out := by
  have hstore : kind.store rt c = kind.store rt c' := by
    funext data out
    cases kind with
    | zsar =>
      have htota := hprec "TotA" (by simp [scaled])
      have hrisa := hprec "RisA" (by simp [scaled])
      simp only [store, CodecZSAR.record, CodecZSAR.items, CodecZSAR.strTotA, CodecZSAR.strRisA,
        hln, htota, hrisa]
    | mmxn =>
      have hamp := hprec "Amp" (by simp [scaled])
      simp only [store, CodecMMXN.record, CodecMMXN.items, CodecMMXN.strAmp, hln, hamp]
  rw [parser_eq, parser_eq, hstore]

/-- The object scales as if the latest call were the only one. -/
structure Latest (rt : CRuntime F) (kind : CodecKind) (c : CodecState F) (lnInst : String)
    (paramsProp : Std.ExtTreeMap String F) : Prop where
  lnInst_eq : c.lnInst = lnInst
  precision_eq : ∀ name ∈ kind.scaled, c.precision rt name = paramsProp[name]?.getD rt.one

theorem Latest.parser_eq {rt : CRuntime F} {kind : CodecKind} {c : CodecState F} {lnInst : String}
    {paramsProp : Std.ExtTreeMap String F} (h : Latest rt kind c lnInst paramsProp)
    (stack buffer : Buffer) (len : Int) (out : DbInsertDatatype) :
    kind.parser rt c stack buffer len out =
      kind.parser rt ⟨lnInst, paramsProp⟩ stack buffer len out :=
  kind.parser_config_congr rt h.lnInst_eq h.precision_eq stack buffer len out

/-- The record of a successful run carries the logical node of the object. -/
theorem CodecKind.parser_lnInst (rt : CRuntime F) (kind : CodecKind) {c : CodecState F}
    {stack buffer : Buffer} {len : Int} {out out' : DbInsertDatatype}
    (haccepted : kind.reject buffer len = none)
    (h : kind.parser rt c stack buffer len out = .ok (parseSuccess, out')) :
    out'.lnInstArray[0]? = some (some c.lnInst) := by
  have hg := kind.parser_guarded rt c stack haccepted out
  have hrecord := (hg.1 (hg.returns_iff.mp ⟨_, h⟩)).symm.trans h
  obtain rfl := congrArg Prod.snd (Except.ok.inj hrecord)
  exact getElem?_putAll out.lnInstArray [c.lnInst] (by simp) (by decide)

/-- Behind any sequence of calls a record carries the latest logical node, and the parser scales
by the latest configuration exactly if every scaled parameter that the latest call does not
give was given `1.0` last, or never; then its runs are those of an object that was configured
once. -/
theorem latest_configuration_iff (rt : CRuntime F) (kind : CodecKind)
    (calls : List (ConfigCall F)) (lnInst : String) (paramsProp : Std.ExtTreeMap String F) :
    let c := configured (calls ++ [⟨lnInst, paramsProp⟩])
    (∀ stack buffer len out out', kind.reject buffer len = none →
      kind.parser rt c stack buffer len out = .ok (parseSuccess, out') →
      out'.lnInstArray[0]? = some (some lnInst)) ∧
    (Latest rt kind c lnInst paramsProp ↔ ∀ name ∈ kind.scaled, paramsProp[name]? = none →
      (latestPrecision calls name).getD rt.one = rt.one) ∧
    (Latest rt kind c lnInst paramsProp → ∀ stack buffer len out,
      kind.parser rt c stack buffer len out =
        kind.parser rt ⟨lnInst, paramsProp⟩ stack buffer len out) := by
  have hprec : ∀ name, (configured (calls ++ [⟨lnInst, paramsProp⟩])).precision rt name =
      paramsProp[name]?.getD ((latestPrecision calls name).getD rt.one) := by
    intro name
    rw [configured_append, precision_setConfig, precision_configured]
  have hln : (configured (calls ++ [⟨lnInst, paramsProp⟩])).lnInst = lnInst := by
    rw [configured_append]
    rfl
  refine ⟨?_, ⟨?_, ?_⟩, fun h => h.parser_eq⟩
  · intro stack buffer len out out' haccepted h
    rw [kind.parser_lnInst rt haccepted h, hln]
  · rintro ⟨-, h⟩ name hname hnone
    have heq := h name hname
    rw [hprec, hnone] at heq
    exact heq
  · intro h
    refine ⟨hln, fun name hname => ?_⟩
    rw [hprec]
    cases hv : paramsProp[name]? with
    | none => exact h name hname hv
    | some v => rfl

/-- The second unit gives the precision that the first one gave. -/
theorem latest_configuration_given_again :
    let first : Std.ExtTreeMap String ℤ := (∅ : Std.ExtTreeMap String ℤ).insert "TotA" 2
    let second : Std.ExtTreeMap String ℤ := (∅ : Std.ExtTreeMap String ℤ).insert "TotA" 3
    Latest CRuntime.whole .zsar (configured [⟨"ZSAR1", first⟩, ⟨"ZSAR2", second⟩]) "ZSAR2" second :=
  (latest_configuration_iff CRuntime.whole .zsar [⟨"ZSAR1", _⟩] "ZSAR2" _).2.1.mpr
    (by decide +kernel)

/-- A reply of a ZSAR unit with a leakage current of three. -/
def threeTotA : Buffer :=
  storeAt (fun _ => 0) 0 (Modbus.withCrc ([1, 0x04, 20] ++ List.replicate 8 0 ++ [0, 3] ++
    List.replicate 10 0))

/-- The second unit has no precision for `TotA`, and is scaled by that of the first. -/
theorem precision_left_over :
    (CodecZSAR.parser CRuntime.whole
        (configured [⟨"ZSAR1", (∅ : Std.ExtTreeMap String ℤ).insert "TotA" 2⟩, ⟨"ZSAR2", ∅⟩])
        threeTotA 25 .unwritten).toOption.bind
      (fun r => r.2.dataArray[1]?) = some (some "6.000000") ∧
    (CodecZSAR.parser CRuntime.whole ⟨"ZSAR2", ∅⟩ threeTotA 25 .unwritten).toOption.bind
      (fun r => r.2.dataArray[1]?) = some (some "3.000000") := by
  refine ⟨by decide +kernel, by decide +kernel⟩

end DbdkyGcc.Codec
