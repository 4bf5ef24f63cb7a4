import DbdkyGcc.Foundations.LastWins
import DbdkyGcc.Foundations.Substring
import DbdkyGcc.Polling.System

/-!
# From libraries to codecs

`CodecFactory` loads every file of a directory that has `.so` in its name, and enters the codec under
what stands in the name between `lib` and `.so`. The files come in the order of the directory, which
is no order at all, and a later file replaces an earlier one with the same protocol.
-/

namespace DbdkyGcc.Polling.CodecFactory

open Foundations Codec

/-- An entry of the directory. `d_name` has room for 255 characters. -/
structure DirEntry where
  name : String
  isDirectory : Bool
  fits : name.length ≤ 255

def DirEntry.isLibrary (entry : DirEntry) : Bool :=
  !entry.isDirectory && (findSub ".so".toList entry.name.toList).isSome

/-- `getCodecLibraries` -/
def getCodecLibraries (entries : List DirEntry) : List String :=
  (entries.filter DirEntry.isLibrary).map DirEntry.name

/-- `text.substr(pos, len)`, with an `int` for a length -/
def substr (text : String) (pos : ℕ) (len : Int) : String :=
  .ofList ((text.toList.drop pos).take (len % 2 ^ 64).toNat)

/-- `pname`, for a file that has one -/
def protocolOf (file : String) : Option String :=
  match findSub "lib".toList file.toList, findSub ".so".toList file.toList with
  | some index1, some index2 =>
    if index1 < index2 then some (substr file (index1 + 3) (index2 - index1 - 3)) else none
  | _, _ => none

/-- The constructor; `load` is what `dlopen`, `dlsym` and the `getInstance` of the library make of a
file. -/
def codecList (load : String → Option CodecKind) (entries : List DirEntry) :
    Std.ExtTreeMap String CodecKind :=
  (getCodecLibraries entries).foldl (fun codecs file =>
    match load file, protocolOf file with
    | some codec, some pname => codecs.insert pname codec
    | _, _ => codecs) ∅

/-- The codec that a file has for a protocol. -/
def codecFor (load : String → Option CodecKind) (pname file : String) : Option CodecKind :=
  if protocolOf file = some pname then load file else none

variable {load : String → Option CodecKind} {entries : List DirEntry} {pname : String}

/-- The last file counts. -/
theorem getElem?_codecList : (codecList load entries)[pname]? =
    lastSome (codecFor load pname) (getCodecLibraries entries) := by
  have hturn (codecs : Std.ExtTreeMap String CodecKind) (file : String) :
      (match load file, protocolOf file with
        | some codec, some pname => codecs.insert pname codec
        | _, _ => codecs)[pname]? =
      ((codecFor load pname file).map some).getD codecs[pname]? := by
    rw [codecFor]
    cases hload : load file with
    | none => simp
    | some codec =>
      cases hname : protocolOf file with
      | none => simp
      | some name =>
        by_cases h : name = pname
        · subst h
          simp
        · simp [Std.ExtTreeMap.getElem?_insert, h]
  have h := @foldl_override _ _ _ (fun file => (codecFor load pname file).map some)
    (fun codecs : Std.ExtTreeMap String CodecKind => codecs[pname]?) _ hturn
    (getCodecLibraries entries) ∅
  rw [lastSome_map_value, Std.ExtTreeMap.getElem?_empty] at h
  refine h.trans ?_
  cases lastSome (codecFor load pname) (getCodecLibraries entries) <;> rfl

theorem getCodecLibraries_perm {entries' : List DirEntry} (h : entries'.Perm entries) :
    (getCodecLibraries entries').Perm (getCodecLibraries entries) :=
  (h.filter _).map _

/-- Whichever file comes last in the directory wins. -/
theorem exists_perm_last {file : String} (hfile : file ∈ getCodecLibraries entries)
    {codec : CodecKind} (hcodec : codecFor load pname file = some codec) :
    ∃ entries', entries'.Perm entries ∧ (codecList load entries')[pname]? = some codec := by
  obtain ⟨entry, hentry, rfl⟩ := List.mem_map.mp hfile
  obtain ⟨hmem, hlibrary⟩ := List.mem_filter.mp hentry
  obtain ⟨before, behind, rfl⟩ := List.append_of_mem hmem
  refine ⟨before ++ behind ++ [entry], ?_, ?_⟩
  · rw [List.append_assoc]
    exact List.perm_append_singleton entry behind |>.append_left before
  · rw [getElem?_codecList, getCodecLibraries, List.filter_append, List.map_append,
      List.filter_cons_of_pos hlibrary, lastSome_append]
    show (lastSome _ [entry.name]).or _ = _
    rw [lastSome_cons, hcodec, lastSome_nil, Option.none_or, Option.some_or]

/-- A protocol has the codec of the last file in the directory that has one for it. The codecs do not
depend on the order of the directory if and only if no two libraries with different codecs have one
protocol. -/
theorem codecList_order_iff (load : String → Option CodecKind) (entries : List DirEntry) :
    (∀ pname codec, (codecList load entries)[pname]? = some codec ↔
      ∃ before file behind, getCodecLibraries entries = before ++ file :: behind ∧
        protocolOf file = some pname ∧ load file = some codec ∧
        ∀ later ∈ behind, protocolOf later = some pname → load later = none) ∧
    ((∀ entries' : List DirEntry, entries'.Perm entries →
      codecList load entries' = codecList load entries) ↔
    ∀ file ∈ getCodecLibraries entries, ∀ file' ∈ getCodecLibraries entries, ∀ pname codec codec',
      protocolOf file = some pname → protocolOf file' = some pname →
      load file = some codec → load file' = some codec' → codec = codec') := by
  refine ⟨fun pname codec => ?_, ?_, ?_⟩
  · rw [getElem?_codecList, lastSome_eq_some_iff]
    simp only [codecFor, Option.ite_none_right_eq_some, ite_eq_right_iff, and_assoc]
  · intro h file hfile file' hfile' pname codec codec' hname hname' hload hload'
    have hcodec : codecFor load pname file = some codec := (if_pos hname).trans hload
    have hcodec' : codecFor load pname file' = some codec' := (if_pos hname').trans hload'
    obtain ⟨l, hl, hlast⟩ := exists_perm_last hfile hcodec
    obtain ⟨l', hl', hlast'⟩ := exists_perm_last hfile' hcodec'
    rw [h l hl] at hlast
    rw [h l' hl', hlast] at hlast'
    exact Option.some.inj hlast'
  · intro h entries' hperm
    refine Std.ExtTreeMap.ext_getElem? fun pname => ?_
    rw [getElem?_codecList, getElem?_codecList]
    refine lastSome_perm (getCodecLibraries_perm hperm) ?_
    intro file hfile file' hfile' codec codec' hcodec hcodec'
    obtain ⟨hname, hload⟩ := Option.ite_none_right_eq_some.mp hcodec
    obtain ⟨hname', hload'⟩ := Option.ite_none_right_eq_some.mp hcodec'
    exact h file hfile file' hfile' pname codec codec' hname hname' hload hload'

/-- Two versions of a library have the same protocol. -/
example : protocolOf "libZSAR.so" = some "ZSAR" ∧ protocolOf "libZSAR.so.1" = some "ZSAR" := by
  decide +kernel

/-! ## The usual names -/

/-- The file that the codec of a protocol is usually in. -/
def libraryOf (pname : String) : String := "lib" ++ pname ++ ".so"

theorem protocolOf_libraryOf (hfits : (libraryOf pname).length ≤ 255)
    (hso : ¬ ".so".toList <:+: pname.toList) : protocolOf (libraryOf pname) = some pname := by
  have hfile : (libraryOf pname).toList = "lib".toList ++ pname.toList ++ ".so".toList := by
    rw [libraryOf, String.toList_append, String.toList_append]
  have hlib : findSub "lib".toList (libraryOf pname).toList = some 0 := by
    rw [hfile, List.append_assoc]
    exact findSub_of_prefix (List.prefix_append _ _)
  have hfront : ¬ ['.', 's', 'o'] <:+: 'l' :: 'i' :: 'b' :: pname.toList := by
    simpa [List.infix_cons_iff] using hso
  have hdot : findSub ".so".toList (libraryOf pname).toList = some (pname.length + 3) := by
    rw [hfile, ← List.append_nil ".so".toList]
    refine (findSub_append (by decide) hfront []).trans ?_
    rw [List.length_cons, List.length_cons, List.length_cons, String.length_toList]
  have hlength : pname.length < 2 ^ 64 := by
    rw [libraryOf, String.length_append, String.length_append] at hfits
    omega
  have hsub : substr (libraryOf pname) (0 + 3) ((pname.length + 3 : ℕ) - (0 : ℕ) - 3) = pname := by
    have hlen : ((((pname.length + 3 : ℕ) : Int) - (0 : ℕ) - 3) % 2 ^ 64).toNat =
        pname.toList.length := by
      rw [String.length_toList]
      omega
    rw [substr, hlen, hfile]
    show String.ofList ((pname.toList ++ ".so".toList).take pname.toList.length) = pname
    rw [List.take_left, String.ofList_toList]
  rw [protocolOf, hlib, hdot]
  show (if 0 < pname.length + 3 then _ else _) = _
  rw [if_pos (by omega), hsub]

theorem length_le_of_mem {file : String} (h : file ∈ getCodecLibraries entries) :
    file.length ≤ 255 := by
  obtain ⟨entry, -, rfl⟩ := List.mem_map.mp h
  exact entry.fits

/-- Where all libraries have usual names, whatever their order, the codec of a protocol is the one of
its library, and `getCodec` finds it if and only if that library is there and can be loaded. -/
theorem getCodec_finds_iff {F : Type} (load : String → Option CodecKind) (entries : List DirEntry)
    (hnames : ∀ file ∈ getCodecLibraries entries,
      ∃ pname, file = libraryOf pname ∧ ¬ ".so".toList <:+: pname.toList)
    (pname : String) (hso : ¬ ".so".toList <:+: pname.toList) (hne : pname ≠ "")
    (entries' : List DirEntry) (hperm : entries'.Perm entries) :
    (codecList load entries')[pname]? =
      (if libraryOf pname ∈ getCodecLibraries entries then load (libraryOf pname) else none) ∧
    (getCodec (System.start (codecList load entries') : System F).codecList pname = some pname ↔
      libraryOf pname ∈ getCodecLibraries entries ∧ (load (libraryOf pname)).isSome) := by
  have hlibs := getCodecLibraries_perm hperm
  -- no other library has the protocol
  have hfile (file : String) (hmem : file ∈ getCodecLibraries entries') (codec : CodecKind)
      (hcodec : codecFor load pname file = some codec) :
      file = libraryOf pname ∧ load (libraryOf pname) = some codec := by
    obtain ⟨hname, hload⟩ := Option.ite_none_right_eq_some.mp hcodec
    obtain ⟨q, rfl, hq⟩ := hnames file (hlibs.mem_iff.mp hmem)
    rw [protocolOf_libraryOf (length_le_of_mem hmem) hq] at hname
    obtain rfl := Option.some.inj hname
    exact ⟨rfl, hload⟩
  have hcodec : (codecList load entries')[pname]? =
      if libraryOf pname ∈ getCodecLibraries entries then load (libraryOf pname) else none := by
    rw [getElem?_codecList]
    by_cases hmem : libraryOf pname ∈ getCodecLibraries entries
    · rw [if_pos hmem]
      have hmem' := hlibs.mem_iff.mpr hmem
      cases hload : load (libraryOf pname) with
      | none =>
        refine lastSome_eq_none fun file hmem => Option.eq_none_iff_forall_ne_some.mpr ?_
        intro codec hcodec
        rw [(hfile file hmem codec hcodec).2] at hload
        cases hload
      | some codec =>
        refine lastSome_eq_some hmem' ?_ fun file hmem codec' hcodec => ?_
        · rw [codecFor, if_pos (protocolOf_libraryOf (length_le_of_mem hmem') hso), hload]
        · rw [(hfile file hmem codec' hcodec).2] at hload
          exact Option.some.inj hload
    · rw [if_neg hmem]
      refine lastSome_eq_none fun file hmem' => Option.eq_none_iff_forall_ne_some.mpr ?_
      intro codec hcodec
      obtain ⟨rfl, -⟩ := hfile file hmem' codec hcodec
      exact hmem (hlibs.mem_iff.mp hmem')
  refine ⟨hcodec, ?_⟩
  rw [getCodec, Device.lookup, if_neg hne, System.start, Std.ExtTreeMap.getElem?_map, hcodec]
  split
  · next hmem => cases load (libraryOf pname) <;> simp [hmem]
  · next hmem => simp [hmem]

/-- A directory with the two libraries, of which one cannot be loaded, and a file that is none. -/
theorem getCodec_finds_zsar :
    let load : String → Option CodecKind := fun file =>
      if file = "libZSAR.so" then some .zsar else none
    let entries : List DirEntry := [⟨"libMMXN.so", false, by decide⟩, ⟨"readme", false, by decide⟩,
      ⟨"libZSAR.so", false, by decide⟩]
    getCodec (System.start (codecList load entries) : System ℚ).codecList "ZSAR" = some "ZSAR" ∧
      ¬ getCodec (System.start (codecList load entries) : System ℚ).codecList "MMXN" =
        some "MMXN" := by
  intro load entries
  have hlibs : getCodecLibraries entries = ["libMMXN.so", "libZSAR.so"] := by decide +kernel
  have hnames : ∀ file ∈ getCodecLibraries entries,
      ∃ pname, file = libraryOf pname ∧ ¬ ".so".toList <:+: pname.toList := by
    rw [hlibs]
    simp only [List.mem_cons, List.not_mem_nil, or_false, forall_eq_or_imp, forall_eq]
    exact ⟨⟨"MMXN", by decide, by decide⟩, ⟨"ZSAR", by decide, by decide⟩⟩
  constructor
  · have h := getCodec_finds_iff (F := ℚ) load entries hnames "ZSAR" (by decide) (by decide) entries
      (.refl _)
    refine h.2.mpr ?_
    rw [hlibs]
    decide
  · have h := getCodec_finds_iff (F := ℚ) load entries hnames "MMXN" (by decide) (by decide) entries
      (.refl _)
    refine mt h.2.mp ?_
    rw [hlibs]
    decide

end DbdkyGcc.Polling.CodecFactory
