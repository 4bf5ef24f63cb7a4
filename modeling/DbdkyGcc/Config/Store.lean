import DbdkyGcc.Config.Save

/-!
# The configuration file as a store

A file whose `configs` element has items only, no two with one name, is a map from names to texts,
and `saveItem2File` is an assignment to it: it changes the text under a name that is there, and
nothing otherwise. After any number of assignments `updateConfigs` reads the texts that were
assigned last, as long as the library reads each document back that it saves.
-/

namespace DbdkyGcc.Config

open Foundations Device

/-- The items of the `configs` element, when it has nothing but items. -/
def FileHolds (nodes : XmlDocument) (l : List Item) : Prop :=
  ∃ tag as children after,
    XmlNode.firstChild nodes "configs" = some (.element tag as children, after) ∧
    (∀ n ∈ children, isItem n = true ∧ n.value = "item") ∧ children.map itemOf = l

/-- The assignment to the first item with a name. -/
def put (l : List Item) (item : Item) : List Item :=
  match l with
  | [] => []
  | old :: rest => if old.1 = item.1 then item :: rest else old :: put rest item

/-- What `saveItem2File` is told to save. -/
def saved (item : Item) : Item := (item.1, cStr item.2)

/-- Every document that the calls save is read back as it was saved. -/
def SavesKept (lib : XmlLibrary) (file : lib.File) : List Item → Prop
  | [] => True
  | item :: saves => ∀ nodes, changeItem item.1 item.2 (lib.loadFile file) = .ok (some nodes) →
      lib.Keeps file nodes ∧ SavesKept lib (lib.saveFile file nodes) saves

/-- The text that the last of the assignments to a name gives it. -/
def lastPut (name : String) (puts : List Item) : Option String :=
  lastSome (fun item => if item.1 = name then some item.2 else none) puts

/-! ## The map -/

theorem lookup_put (l : List Item) (item : Item) (name : String) :
    (put l item).lookup name =
      (l.lookup name).map fun text => if item.1 = name then item.2 else text := by
  induction l with
  | nil => rfl
  | cons old rest ih =>
    rw [put]
    by_cases hold : old.1 = item.1
    · rw [if_pos hold, lookup_cons, lookup_cons, hold]
      by_cases hname : name = item.1
      · rw [if_pos hname, if_pos hname, Option.map_some, if_pos hname.symm]
      · rw [if_neg hname, if_neg hname]
        simp [Ne.symm hname]
    · rw [if_neg hold, lookup_cons, lookup_cons, ih]
      by_cases hname : name = old.1
      · rw [if_pos hname, if_pos hname, Option.map_some, if_neg (by rw [hname]; exact Ne.symm hold)]
      · rw [if_neg hname, if_neg hname]

theorem map_fst_put (l : List Item) (item : Item) : (put l item).map Prod.fst = l.map Prod.fst := by
  induction l with
  | nil => rfl
  | cons old rest ih =>
    rw [put]
    split
    · next hold => rw [List.map_cons, List.map_cons, hold]
    · rw [List.map_cons, List.map_cons, ih]

theorem lastPut_cons (name : String) (item : Item) (puts : List Item) :
    lastPut name (item :: puts) =
      (lastPut name puts).or (if item.1 = name then some item.2 else none) :=
  lastSome_cons item puts

/-- The last assignment to a name counts, and one to a name that is not there is dropped. -/
theorem lookup_puts (puts : List Item) (l : List Item) (name : String) :
    (puts.foldl put l).lookup name =
      (l.lookup name).map fun text => (lastPut name puts).getD text := by
  induction puts generalizing l with
  | nil => simp [lastPut]
  | cons item puts ih =>
    rw [List.foldl_cons, ih, lookup_put, Option.map_map, lastPut_cons]
    congr 1
    funext text
    show (lastPut name puts).getD (if item.1 = name then item.2 else text) = _
    cases lastPut name puts with
    | none =>
      rw [Option.getD_none, Option.none_or]
      split <;> rfl
    | some v => rfl

theorem map_fst_puts (puts : List Item) (l : List Item) :
    (puts.foldl put l).map Prod.fst = l.map Prod.fst := by
  induction puts generalizing l with
  | nil => rfl
  | cons item puts ih => rw [List.foldl_cons, ih, map_fst_put]

/-- Where no two items have one name, the last item of a setting is its only one. -/
theorem lastValue_of_nodup (boost : LexicalCast) (k : Setting) {l : List Item}
    (h : (l.map Prod.fst).Nodup) :
    k.lastValue boost l = (l.lookup k.itemName).bind (k.convert boost) := by
  induction l with
  | nil => rfl
  | cons item rest ih =>
    obtain ⟨hnot, hrest⟩ := List.nodup_cons.mp h
    rw [Setting.lastValue, lastSome_cons, lookup_cons]
    by_cases hname : k.itemName = item.1
    · have hnone : lastSome (k.given boost) rest = none := by
        refine lastSome_eq_none fun other hother => if_neg fun heq => hnot ?_
        rw [← hname, ← heq]
        exact List.mem_map_of_mem hother
      rw [hnone, if_pos hname, Option.none_or, Setting.given, if_pos hname.symm, Option.bind_some]
    · rw [if_neg hname, Setting.given, if_neg (Ne.symm hname), Option.or_none]
      exact ih hrest

/-! ## The file -/

theorem saveItem_put (itemName itemValue : String) {children : List XmlNode}
    (h : ∀ n ∈ children, isItem n = true ∧ n.value = "item") :
    ∃ children', saveItem itemName itemValue children = .ok children' ∧
      (∀ n ∈ children', isItem n = true ∧ n.value = "item") ∧
      children'.map itemOf = put (children.map itemOf) (itemName, cStr itemValue) := by
  induction children with
  | nil => exact ⟨[], rfl, by simp, rfl⟩
  | cons n rest ih =>
    obtain ⟨hn, hvalue⟩ := h n List.mem_cons_self
    have hrest : ∀ m ∈ rest, isItem m = true ∧ m.value = "item" :=
      fun m hm => h m (List.mem_cons_of_mem _ hm)
    rw [saveItem, (attr_of_isItem hn).1, (attr_of_isItem hn).2, ok_bind, ok_bind, List.map_cons, put]
    by_cases hname : itemName = n.attrD "name"
    · have hfirst : (itemOf n).1 = itemName := hname.symm
      rw [if_pos hname, if_pos hfirst]
      refine ⟨_, rfl, ?_, ?_⟩
      · intro m hm
        rcases List.mem_cons.mp hm with rfl | hm
        · exact ⟨isItem_setAttribute hn _, (value_setAttribute n _ _).trans hvalue⟩
        · exact hrest m hm
      · rw [List.map_cons, itemOf_setAttribute (isElement_of_isItem hn), ← hname]
    · obtain ⟨children', hsave, hitems, hmap⟩ := ih hrest
      have hother : (itemOf n).1 ≠ itemName := Ne.symm hname
      rw [if_neg hname, if_neg hother, hsave]
      refine ⟨n :: children', rfl, ?_, ?_⟩
      · intro m hm
        rcases List.mem_cons.mp hm with rfl | hm
        · exact ⟨hn, hvalue⟩
        · exact hitems m hm
      · rw [List.map_cons, hmap]

/-- One assignment. -/
theorem FileHolds.change {nodes : XmlDocument} {l : List Item} (h : FileHolds nodes l)
    (item : Item) : ∃ nodes', changeItem item.1 item.2 nodes = .ok (some nodes') ∧
      FileHolds nodes' (put l (saved item)) := by
  obtain ⟨tag, as, children, after, hconfigs, hitems, rfl⟩ := h
  obtain ⟨children', hsave, hitems', hmap⟩ := saveItem_put item.1 item.2 hitems
  obtain ⟨nodes', hchange, hconfigs'⟩ := changeItem_eq hconfigs (fun n hn => (hitems n hn).2) hsave
  exact ⟨nodes', hchange, tag, as, children', after, hconfigs', hitems', hmap⟩

/-- Any number of them. -/
theorem FileHolds.saves {lib : XmlLibrary} {file : lib.File} {l : List Item}
    (h : FileHolds (lib.loadFile file) l) {saves : List Item} (hkept : SavesKept lib file saves) :
    ∃ file', saves.foldlM (fun file item => saveItem2File lib item.1 item.2 file) (some file) =
        .ok (some file') ∧
      FileHolds (lib.loadFile file') ((saves.map saved).foldl put l) := by
  induction saves generalizing file l with
  | nil => exact ⟨file, rfl, h⟩
  | cons item saves ih =>
    obtain ⟨nodes, hchange, hnodes⟩ := h.change item
    obtain ⟨hkeeps, hrest⟩ := hkept nodes hchange
    have hsaved : FileHolds (lib.loadFile (lib.saveFile file nodes)) (put l (saved item)) := by
      rw [hkeeps]
      exact hnodes
    obtain ⟨file', hsaves, hfile'⟩ := ih hsaved hrest
    refine ⟨file', ?_, hfile'⟩
    rw [List.foldlM_cons, (saveItem2File_of_keeps hchange hkeeps).1, ok_bind, hsaves]

/-- What `updateConfigs` reads. -/
theorem FileHolds.updateConfigs (boost : LexicalCast) {nodes : XmlDocument} {l : List Item}
    (h : FileHolds nodes l) (hnodup : (l.map Prod.fst).Nodup) (tmpLastUpload : UInt64)
    (c : ConfUtil) :
    ∃ fuel c', updateConfigs boost tmpLastUpload fuel (some nodes) c = some (.ok c') ∧
      ∀ k, k ≠ .lastUploadTime →
        c'.get k = ((l.lookup k.itemName).bind (k.convert boost)).getD (c.get k) := by
  obtain ⟨tag, as, children, after, hconfigs, hitems, rfl⟩ := h
  obtain ⟨fuel, hread⟩ := (updateConfigs_eq_iff (some nodes) c _).mpr
    ⟨children, itemNodes_of_items hconfigs hitems, rfl⟩
  refine ⟨fuel, _, hread, fun k hk => ?_⟩
  rw [get_setItems, lastSome_stored hk, lastValue_of_nodup boost k hnodup]

/-- After any sequence of saves every setting is read with the text that was saved last under its
name, or with the one that was there before. A name that is not in the file cannot be saved. -/
theorem saves_read_back (boost : LexicalCast) (lib : XmlLibrary) {file : lib.File} {l : List Item}
    (h : FileHolds (lib.loadFile file) l) (hnodup : (l.map Prod.fst).Nodup) {saves : List Item}
    (hkept : SavesKept lib file saves) (tmpLastUpload : UInt64) (c : ConfUtil) :
    ∃ file', saves.foldlM (fun file item => saveItem2File lib item.1 item.2 file) (some file) =
        .ok (some file') ∧
      ∃ fuel c', updateConfigs boost tmpLastUpload fuel (some (lib.loadFile file')) c =
          some (.ok c') ∧
        ∀ k, k ≠ .lastUploadTime → c'.get k =
          (((l.lookup k.itemName).map fun text =>
            (lastPut k.itemName (saves.map saved)).getD text).bind (k.convert boost)).getD
              (c.get k) := by
  obtain ⟨file', hsaves, hfile'⟩ := h.saves hkept
  have hnodup' : (((saves.map saved).foldl put l).map Prod.fst).Nodup := by
    rw [map_fst_puts]
    exact hnodup
  obtain ⟨fuel, c', hread, hget⟩ := hfile'.updateConfigs boost hnodup' tmpLastUpload c
  refine ⟨file', hsaves, fuel, c', hread, fun k hk => ?_⟩
  rw [hget k hk, lookup_puts]

/-- The tick is saved twice, and an address that is not in the file. -/
theorem saves_read_back_last :
    ∃ file' : XmlDocument, [("system_tick", "5"), ("db_name", "test"), ("system_tick", "9"),
        ("proxy_ip", "10.0.0.1")].foldlM (fun file item => saveItem2File .trees item.1 item.2 file)
        (some [.element "configs" []
          [.element "item" [("name", "system_tick"), ("value", "1")] [],
            .element "item" [("name", "db_name"), ("value", "omsdb")] []]]) = .ok (some file') ∧
      ∃ fuel c', updateConfigs .digits 7 fuel (some file') (.default 0) = some (.ok c') ∧
        c'.get .systemTick = 9 ∧ c'.get .dbName = "test" ∧ c'.get .proxyIP = "127.0.0.1" := by
  have hfile : FileHolds [.element "configs" []
      [.element "item" [("name", "system_tick"), ("value", "1")] [],
        .element "item" [("name", "db_name"), ("value", "omsdb")] []]]
      [("system_tick", "1"), ("db_name", "omsdb")] :=
    ⟨_, _, _, _, rfl, by simp [isItem, XmlNode.isElement, XmlNode.getAttribute,
      XmlNode.value], rfl⟩
  have hkept : ∀ (saves : List Item) (file : XmlDocument),
      SavesKept .trees file saves := by
    intro saves
    induction saves with
    | nil => exact fun _ => trivial
    | cons item saves ih => exact fun _ _ _ => ⟨rfl, ih _⟩
  obtain ⟨file', hsaves, fuel, c', hread, hget⟩ := saves_read_back .digits .trees hfile (by decide)
    (hkept [("system_tick", "5"), ("db_name", "test"), ("system_tick", "9"),
      ("proxy_ip", "10.0.0.1")] _) 7 (.default 0)
  refine ⟨file', hsaves, fuel, c', hread, ?_, ?_, ?_⟩
  · rw [hget .systemTick (by decide)]
    decide +kernel
  · rw [hget .dbName (by decide)]
    decide +kernel
  · rw [hget .proxyIP (by decide)]
    decide +kernel

end DbdkyGcc.Config
