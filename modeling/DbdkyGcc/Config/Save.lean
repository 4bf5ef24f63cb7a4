import DbdkyGcc.Config.Settings

/-!
# Saving a setting

`ConfUtil::saveItem2File` changes the first item with the name of the setting; `updateConfigs`
takes the last one. A saved value is read back when no item behind the changed one gives the
setting another value, and the library reads the document back that it wrote.
-/

namespace DbdkyGcc.Config

open Foundations Device

/-- `SetAttribute` on the list of attributes: it changes the value that is there, or adds one. -/
def setAttributes (name value : String) : List (String × String) → List (String × String)
  | [] => [(name, value)]
  | a :: as => if a.1 = name then (name, value) :: as else a :: setAttributes name value as

/-- `SetAttribute(name, value)`, on an element. -/
def setAttribute (n : XmlNode) (name value : String) : XmlNode :=
  match n with
  | .element tag as children => .element tag (setAttributes name value as) children
  | n => n

/-- What is left of a text behind `c_str()`. -/
def cStr (text : String) : String := .ofList (text.toList.takeWhile (· ≠ '\x00'))

/-- The loop of `saveItem2File`: it is left at the first item with the name. -/
def saveItem (itemName itemValue : String) : List XmlNode → Except NullAccess (List XmlNode)
  | [] => .ok []
  | inside :: rest => do
    let iName ← inside.attr "name"
    let _ ← inside.attr "value"
    if itemName = iName then
      return setAttribute inside "value" (cStr itemValue) :: rest
    return inside :: (← saveItem itemName itemValue rest)

/-- A library for XML files: the tree that `LoadFile` builds from a file, and the file that `SaveFile`
writes for a document that was loaded from a file and has this tree now. -/
structure XmlLibrary where
  File : Type
  loadFile : File → XmlDocument
  saveFile : File → XmlDocument → File

/-- The library whose files are the trees themselves. -/
def XmlLibrary.trees : XmlLibrary where
  File := XmlDocument
  loadFile := id
  saveFile _ nodes := nodes

/-- The document is read back as it was saved. -/
def XmlLibrary.Keeps (lib : XmlLibrary) (file : lib.File) (nodes : XmlDocument) : Prop :=
  lib.loadFile (lib.saveFile file nodes) = nodes

/-- What `saveItem2File` makes of the tree, where it does not return before. The nodes in front of
`configs`, and in front of its first item, stay. -/
def changeItem (itemName itemValue : String) (nodes : XmlDocument) :
    Except NullAccess (Option XmlDocument) :=
  match nodes.dropWhile fun n => n.value ≠ "configs" with
  | .element tag as children :: after => do
    let inside ← saveItem itemName itemValue (children.dropWhile fun n => n.value ≠ "item")
    return some (nodes.takeWhile (fun n => n.value ≠ "configs") ++
      .element tag as (children.takeWhile (fun n => n.value ≠ "item") ++ inside) :: after)
  | _ => .ok none

/-- `saveItem2File`: the file that it leaves behind. -/
def saveItem2File (lib : XmlLibrary) (itemName itemValue : String) (file : Option lib.File) :
    Except NullAccess (Option lib.File) :=
  match file with
  | none => .ok none
  | some file => do
    let changed ← changeItem itemName itemValue (lib.loadFile file)
    return some (changed.elim file (lib.saveFile file))

theorem lookup_cons (a : String × String) (as : List (String × String)) (name : String) :
    (a :: as).lookup name = if name = a.1 then some a.2 else as.lookup name := by
  rw [List.lookup_cons]
  by_cases h : name = a.1
  · rw [if_pos h, beq_iff_eq.mpr h]
  · rw [if_neg h, beq_eq_false_iff_ne.mpr h]

theorem lookup_setAttributes (name value other : String) (as : List (String × String)) :
    (setAttributes name value as).lookup other =
      if other = name then some value else as.lookup other := by
  induction as with
  | nil => rw [setAttributes, lookup_cons]
  | cons a as ih =>
    rw [setAttributes]
    by_cases ha : a.1 = name
    · rw [if_pos ha, lookup_cons, lookup_cons, ha]
      split <;> rfl
    · rw [if_neg ha, lookup_cons, lookup_cons, ih]
      by_cases ho : other = name
      · rw [if_pos ho, if_pos ho, if_neg (by rw [ho]; exact Ne.symm ha)]
      · rw [if_neg ho, if_neg ho]

theorem getAttribute_setAttribute {n : XmlNode} (hn : n.isElement = true)
    (name value other : String) :
    (setAttribute n name value).getAttribute other =
      if other = name then some value else n.getAttribute other := by
  cases n with
  | element tag as children => exact lookup_setAttributes name value other as
  | text v => cases hn
  | comment v => cases hn
  | other v => cases hn

/-- The changed item. -/
theorem itemOf_setAttribute {n : XmlNode} (hn : n.isElement = true) (value : String) :
    itemOf (setAttribute n "value" value) = (n.attrD "name", value) := by
  simp only [itemOf, XmlNode.attrD, getAttribute_setAttribute hn, String.reduceEq, reduceIte,
    Option.getD_some]

theorem isElement_setAttribute (n : XmlNode) (name value : String) :
    (setAttribute n name value).isElement = n.isElement := by
  cases n <;> rfl

theorem value_setAttribute (n : XmlNode) (name value : String) :
    (setAttribute n name value).value = n.value := by
  cases n <;> rfl

theorem isItem_setAttribute {n : XmlNode} (hn : isItem n = true) (value : String) :
    isItem (setAttribute n "value" value) = true := by
  simp only [isItem, Bool.and_eq_true] at hn ⊢
  simp only [isElement_setAttribute, getAttribute_setAttribute hn.1.1, String.reduceEq, reduceIte,
    hn.1.1, hn.1.2, Option.isSome_some, and_self]

theorem attr_of_isItem {n : XmlNode} (hn : isItem n = true) :
    n.attr "name" = .ok (n.attrD "name") ∧ n.attr "value" = .ok (n.attrD "value") := by
  simp only [isItem, Bool.and_eq_true] at hn
  exact ⟨(n.attr_guarded "name").1 ⟨hn.1.1, hn.1.2⟩, (n.attr_guarded "value").1 ⟨hn.1.1, hn.2⟩⟩

/-- The loop changes the first item with the name. -/
theorem saveItem_eq {itemName : String} (itemValue : String) {before : List XmlNode}
    (hbefore : ∀ n ∈ before, isItem n = true ∧ n.attrD "name" ≠ itemName) {n : XmlNode}
    (hn : isItem n = true) (hname : n.attrD "name" = itemName) (rest : List XmlNode) :
    saveItem itemName itemValue (before ++ n :: rest) =
      .ok (before ++ setAttribute n "value" (cStr itemValue) :: rest) := by
  induction before with
  | nil =>
    rw [List.nil_append, saveItem, (attr_of_isItem hn).1, (attr_of_isItem hn).2, hname]
    exact if_pos rfl
  | cons m before ih =>
    obtain ⟨hm, hne⟩ := hbefore m List.mem_cons_self
    rw [List.cons_append, saveItem, (attr_of_isItem hm).1, (attr_of_isItem hm).2,
      ih fun m hm => hbefore m (List.mem_cons_of_mem _ hm)]
    exact if_neg (Ne.symm hne)

theorem firstChild_cons (n : XmlNode) (nodes : List XmlNode) (name : String) :
    XmlNode.firstChild (n :: nodes) name =
      if n.value = name then if n.isElement then some (n, nodes) else none
      else XmlNode.firstChild nodes name := by
  by_cases h : n.value = name
  · rw [XmlNode.firstChild, List.dropWhile_cons_of_neg (by simp [h]), if_pos h]
  · rw [XmlNode.firstChild, List.dropWhile_cons_of_pos (by simp [h]), if_neg h,
      XmlNode.firstChild]

theorem firstChild_append {before : List XmlNode} {name : String}
    (hbefore : ∀ n ∈ before, n.value ≠ name) (element : XmlNode) (he : element.isElement = true)
    (hname : element.value = name) (after : List XmlNode) :
    XmlNode.firstChild (before ++ element :: after) name = some (element, after) := by
  induction before with
  | nil => rw [List.nil_append, firstChild_cons, if_pos hname, if_pos he]
  | cons n before ih =>
    rw [List.cons_append, firstChild_cons, if_neg (hbefore n List.mem_cons_self)]
    exact ih fun m hm => hbefore m (List.mem_cons_of_mem _ hm)

/-- The nodes in front of the child that `FirstChild` finds have other names. -/
theorem exists_of_firstChild {nodes : List XmlNode} {name : String} {element : XmlNode}
    {after : List XmlNode} (h : XmlNode.firstChild nodes name = some (element, after)) :
    element.isElement = true ∧ element.value = name ∧
      ∃ before, (∀ n ∈ before, n.value ≠ name) ∧ nodes = before ++ element :: after := by
  induction nodes with
  | nil => cases h
  | cons n nodes ih =>
    rw [firstChild_cons] at h
    by_cases hname : n.value = name
    · rw [if_pos hname] at h
      by_cases he : n.isElement = true
      · rw [if_pos he] at h
        cases h
        exact ⟨he, hname, [], by simp, rfl⟩
      · rw [if_neg he] at h
        cases h
    · rw [if_neg hname] at h
      obtain ⟨he, hvalue, before, hbefore, rfl⟩ := ih h
      refine ⟨he, hvalue, n :: before, ?_, rfl⟩
      simpa [hname] using hbefore

/-- An element that is not the first node with its name is not found at all. -/
theorem firstChild_of_find {nodes : List XmlNode} {name : String} {element : XmlNode}
    (h : (nodes.find? fun n => n.isElement && n.value = name) = some element) :
    (∃ after, XmlNode.firstChild nodes name = some (element, after)) ∨
      XmlNode.firstChild nodes name = none := by
  cases hfirst : XmlNode.firstChild nodes name with
  | none => exact .inr rfl
  | some found =>
    obtain ⟨found, after⟩ := found
    obtain ⟨he, hname, before, hbefore, rfl⟩ := exists_of_firstChild hfirst
    have hnone : (before.find? fun n => n.isElement && n.value = name) = none := by
      rw [List.find?_eq_none]
      intro n hn
      simp [hbefore n hn]
    rw [List.find?_append, hnone, List.find?_cons_of_pos (by simp [he, hname])] at h
    cases h
    exact .inl ⟨after, rfl⟩

/-- Among items only, the walk begins at the first node. -/
theorem dropWhile_items {nodes : List XmlNode} (h : ∀ n ∈ nodes, n.value = "item") :
    nodes.dropWhile (fun n => n.value ≠ "item") = nodes ∧
      nodes.takeWhile (fun n => n.value ≠ "item") = [] := by
  cases nodes with
  | nil => exact ⟨rfl, rfl⟩
  | cons n nodes =>
    have hn : n.value = "item" := h n List.mem_cons_self
    simp [hn]

theorem start_eq {nodes : XmlDocument} {element : XmlNode} {after : List XmlNode}
    (h : XmlNode.firstChild nodes "configs" = some (element, after))
    (hitems : ∀ n ∈ element.children, n.value = "item") :
    start (some nodes) = some (element.children, after) := by
  simp only [start, Option.bind_eq_bind, Option.bind_some, h, Option.pure_def]
  rw [(dropWhile_items hitems).1]

theorem visited_of_elements (after : List XmlNode) {nodes : List XmlNode}
    (h : ∀ n ∈ nodes, n.isElement = true) :
    visited after nodes = if nodes.all isItem then some nodes else none := by
  induction nodes with
  | nil => rfl
  | cons n nodes ih =>
    rw [visited, ih fun m hm => h m (List.mem_cons_of_mem _ hm), List.all_cons,
      if_pos (h n List.mem_cons_self)]
    cases isItem n with
    | false => simp
    | true =>
      rw [if_pos rfl, Bool.true_and]
      split <;> rfl

/-- The tree that is saved when all children of `configs` are items. -/
theorem changeItem_eq {nodes : XmlDocument} {tag : String} {as : List (String × String)}
    {children after : List XmlNode} {itemName itemValue : String} {saved : List XmlNode}
    (hconfigs : XmlNode.firstChild nodes "configs" = some (.element tag as children, after))
    (hitems : ∀ n ∈ children, n.value = "item")
    (hsave : saveItem itemName itemValue children = .ok saved) :
    ∃ doc, changeItem itemName itemValue nodes = .ok (some doc) ∧
      XmlNode.firstChild doc "configs" = some (.element tag as saved, after) := by
  obtain ⟨-, hname, before, hbefore, rfl⟩ := exists_of_firstChild hconfigs
  have hdrop : ((before ++ .element tag as children :: after).dropWhile
      fun n => n.value ≠ "configs") = .element tag as children :: after := by
    rw [List.dropWhile_append_of_pos (by simpa using hbefore),
      List.dropWhile_cons_of_neg (by simp [hname])]
  have htake : ((before ++ .element tag as children :: after).takeWhile
      fun n => n.value ≠ "configs") = before := by
    rw [List.takeWhile_append_of_pos (by simpa using hbefore),
      List.takeWhile_cons_of_neg (by simp [hname]), List.append_nil]
  refine ⟨before ++ .element tag as saved :: after, ?_, ?_⟩
  · simp only [changeItem, hdrop, htake]
    rw [(dropWhile_items hitems).1, (dropWhile_items hitems).2, hsave]
    rfl
  · exact firstChild_append hbefore (.element tag as saved) rfl hname after

theorem changeItem_of_none {nodes : XmlDocument}
    (h : XmlNode.firstChild nodes "configs" = none) (itemName itemValue : String) :
    changeItem itemName itemValue nodes = .ok none := by
  rw [XmlNode.firstChild] at h
  rw [changeItem]
  cases hdrop : nodes.dropWhile fun n => n.value ≠ "configs" with
  | nil => rfl
  | cons n rest =>
    rw [hdrop] at h
    cases n with
    | element tag as children => cases h
    | text v => rfl
    | comment v => rfl
    | other v => rfl

/-- A file that is read back as it was saved holds the changed tree. -/
theorem saveItem2File_of_keeps {lib : XmlLibrary} {file : lib.File} {itemName itemValue : String}
    {doc : XmlDocument} (hchange : changeItem itemName itemValue (lib.loadFile file) = .ok (some doc))
    (hkeeps : lib.Keeps file doc) :
    saveItem2File lib itemName itemValue (some file) = .ok (some (lib.saveFile file doc)) ∧
      (some (lib.saveFile file doc)).map lib.loadFile = some doc := by
  refine ⟨?_, congrArg some hkeeps⟩
  rw [saveItem2File, hchange]
  rfl

theorem saveItem2File_of_none {lib : XmlLibrary} {file : lib.File} {itemName itemValue : String}
    (hchange : changeItem itemName itemValue (lib.loadFile file) = .ok none) :
    saveItem2File lib itemName itemValue (some file) = .ok (some file) := by
  rw [saveItem2File, hchange]
  rfl

variable {boost : LexicalCast}

/-- `updateConfigs` returns from `c` with `c'`. -/
def Updates (boost : LexicalCast) (tmpLastUpload : UInt64) (doc : Option XmlDocument)
    (c c' : ConfUtil) : Prop :=
  ∃ fuel, updateConfigs boost tmpLastUpload fuel doc c = some (.ok c')

/-- From the saved document the setting is read with its value, and every other setting as from
the document before. -/
def ReadBack (boost : LexicalCast) (doc saved : Option XmlDocument) (k : Setting)
    (x : k.Value) : Prop :=
  ∀ tmpLastUpload tmpLastUpload' c, ∃ before after,
    Updates boost tmpLastUpload doc c before ∧ Updates boost tmpLastUpload' saved c after ∧
    after.get k = x ∧ ∀ k' ≠ k, after.get k' = before.get k'

/-- Reading back, in terms of the items of the two documents. -/
theorem readBack_iff {doc saved : Option XmlDocument} {l l' : List XmlNode}
    (hdoc : itemNodes doc = some l) (hsaved : itemNodes saved = some l') {k : Setting}
    {x : k.Value} :
    ReadBack boost doc saved k x ↔
      (∀ tmpLastUpload, lastSome (k.stored boost tmpLastUpload) (l'.map itemOf) = some x) ∧
      ∀ tmpLastUpload tmpLastUpload' (k' : Setting), k' ≠ k →
        lastSome (k'.stored boost tmpLastUpload') (l'.map itemOf) =
          lastSome (k'.stored boost tmpLastUpload) (l.map itemOf) := by
  constructor
  · intro h
    have hget : ∀ tmpLastUpload tmpLastUpload' (c : ConfUtil),
        (lastSome (k.stored boost tmpLastUpload') (l'.map itemOf)).getD (c.get k) = x ∧
        ∀ k' : Setting, k' ≠ k →
          (lastSome (k'.stored boost tmpLastUpload') (l'.map itemOf)).getD (c.get k') =
            (lastSome (k'.stored boost tmpLastUpload) (l.map itemOf)).getD (c.get k') := by
      intro tmpLastUpload tmpLastUpload' c
      obtain ⟨before, after, hbefore, hafter, hx, hother⟩ := h tmpLastUpload tmpLastUpload' c
      obtain ⟨m, hm, rfl⟩ := (updateConfigs_eq_iff doc c before).mp hbefore
      obtain ⟨m', hm', rfl⟩ := (updateConfigs_eq_iff saved c after).mp hafter
      obtain rfl : m = l := Option.some.inj (hm.symm.trans hdoc)
      obtain rfl : m' = l' := Option.some.inj (hm'.symm.trans hsaved)
      simp only [get_setItems] at hx hother
      exact ⟨hx, hother⟩
    constructor
    · intro tmpLastUpload
      refine eq_of_forall_getD fun y => ?_
      obtain ⟨c, rfl⟩ := ConfUtil.get_surjective k y
      exact (hget 0 tmpLastUpload c).1
    · intro tmpLastUpload tmpLastUpload' k' hk'
      refine eq_of_forall_getD fun y => ?_
      obtain ⟨c, rfl⟩ := ConfUtil.get_surjective k' y
      exact (hget tmpLastUpload tmpLastUpload' c).2 k' hk'
  · rintro ⟨hx, hother⟩ tmpLastUpload tmpLastUpload' c
    refine ⟨_, _, (updateConfigs_eq_iff doc c _).mpr ⟨l, hdoc, rfl⟩,
      (updateConfigs_eq_iff saved c _).mpr ⟨l', hsaved, rfl⟩, ?_, fun k' hk' => ?_⟩
    · rw [get_setItems, hx, Option.getD_some]
    · rw [get_setItems, get_setItems, hother tmpLastUpload tmpLastUpload' k' hk']

theorem Setting.itemName_injective : Function.Injective Setting.itemName := by
  intro k k' h
  cases k <;> cases k' <;> first | rfl | simp [itemName] at h

theorem stored_of_ne {k : Setting} {item : Item} (h : item.1 ≠ k.itemName)
    (tmpLastUpload : UInt64) : k.stored boost tmpLastUpload item = none := by
  cases k <;> simp only [Setting.stored, Setting.given, if_neg h, Option.map_none]

section Change

variable {k : Setting} {before : List Item} (hbefore : ∀ item ∈ before, item.1 ≠ k.itemName)
  (old new : String) (behind : List Item)

/-- Another value in an item of `k` does not change any other setting. -/
theorem lastSome_stored_change {k' : Setting} (hk' : k' ≠ k) (tmpLastUpload : UInt64) :
    lastSome (k'.stored boost tmpLastUpload) (before ++ (k.itemName, new) :: behind) =
      lastSome (k'.stored boost tmpLastUpload) (before ++ (k.itemName, old) :: behind) := by
  have hname : k.itemName ≠ k'.itemName := fun h => hk' (Setting.itemName_injective h.symm)
  rw [lastSome_append, lastSome_append, lastSome_cons, lastSome_cons, stored_of_ne hname,
    stored_of_ne hname]

include hbefore in
theorem lastValue_change :
    k.lastValue boost (before ++ (k.itemName, new) :: behind) =
      (k.lastValue boost behind).or (k.convert boost new) := by
  have hnone : lastSome (k.given boost) before = none :=
    lastSome_eq_none fun item hitem => if_neg (hbefore item hitem)
  rw [Setting.lastValue, lastSome_append, lastSome_cons, hnone, Option.or_none]
  rw [Setting.given, if_pos rfl]
  rfl

include hbefore in
/-- The items after the change give `k` its value, and every other setting the value that it had
before, exactly when the items behind it agree and no time of the last upload is read. -/
theorem change_iff {x : k.Value} :
    ((∀ tmpLastUpload, lastSome (k.stored boost tmpLastUpload)
          (before ++ (k.itemName, new) :: behind) = some x) ∧
      ∀ tmpLastUpload tmpLastUpload' (k' : Setting), k' ≠ k →
        lastSome (k'.stored boost tmpLastUpload') (before ++ (k.itemName, new) :: behind) =
          lastSome (k'.stored boost tmpLastUpload) (before ++ (k.itemName, old) :: behind)) ↔
      k ≠ .lastUploadTime ∧
      Setting.lastValue boost .lastUploadTime (before ++ (k.itemName, old) :: behind) = none ∧
      (k.lastValue boost behind).or (k.convert boost new) = some x := by
  constructor
  · rintro ⟨hx, hother⟩
    have hk : k ≠ .lastUploadTime := by
      rintro rfl
      have hnone := lastValue_lastUploadTime_eq_none ((hx 0).trans (hx 1).symm)
      have h0 := hx 0
      rw [lastSome_stored_lastUploadTime, hnone] at h0
      cases h0
    refine ⟨hk, ?_, ?_⟩
    · refine lastValue_lastUploadTime_eq_none ?_
      rw [← hother 0 0 _ (Ne.symm hk), hother 1 0 _ (Ne.symm hk)]
    · rw [← lastValue_change hbefore, ← lastSome_stored hk, hx 0]
  · rintro ⟨hk, hnone, hx⟩
    refine ⟨fun tmpLastUpload => ?_, fun tmpLastUpload tmpLastUpload' k' hk' => ?_⟩
    · rw [lastSome_stored hk, lastValue_change hbefore, hx]
    · rw [lastSome_stored_change old new behind hk']
      by_cases hlast : k' = .lastUploadTime
      · subst hlast
        rw [lastSome_stored_lastUploadTime, lastSome_stored_lastUploadTime, hnone]
        rfl
      · rw [lastSome_stored hlast, lastSome_stored hlast]

end Change

/-- The items behind the first one of a setting. -/
def Setting.behind (k : Setting) (items : List Item) : List Item :=
  (items.dropWhile fun item => item.1 ≠ k.itemName).tail

theorem items_eq {nodes : XmlDocument} {element : XmlNode}
    (hconfigs : (nodes.find? fun n => n.isElement && n.value = "configs") = some element)
    (hchildren : ∀ n ∈ element.children, isItem n = true ∧ n.value = "item") :
    items (some nodes) = element.children.map itemOf := by
  have hfilter : (element.children.filter fun n => isItem n && n.value = "item") =
      element.children := by
    rw [List.filter_eq_self]
    intro n hn
    simp [hchildren n hn]
  rw [items, Option.getD_some, hconfigs, Option.elim_some, hfilter]

/-- A walk over elements reads all of them, or ends at one that it cannot read. -/
theorem itemNodes_of_elements {nodes : XmlDocument} {element : XmlNode} {after : List XmlNode}
    (h : XmlNode.firstChild nodes "configs" = some (element, after))
    (hchildren : ∀ n ∈ element.children, n.isElement = true ∧ n.value = "item") :
    itemNodes (some nodes) =
      if element.children.all isItem then some element.children else none := by
  rw [itemNodes, start_eq h fun n hn => (hchildren n hn).2]
  exact visited_of_elements after fun n hn => (hchildren n hn).1

theorem isElement_of_isItem {n : XmlNode} (h : isItem n = true) : n.isElement = true := by
  simp only [isItem, Bool.and_eq_true] at h
  exact h.1.1

theorem itemNodes_of_items {nodes : XmlDocument} {element : XmlNode} {after : List XmlNode}
    (h : XmlNode.firstChild nodes "configs" = some (element, after))
    (hchildren : ∀ n ∈ element.children, isItem n = true ∧ n.value = "item") :
    itemNodes (some nodes) = some element.children := by
  rw [itemNodes_of_elements h fun n hn =>
    ⟨isElement_of_isItem (hchildren n hn).1, (hchildren n hn).2⟩]
  exact if_pos (List.all_eq_true.mpr fun n hn => (hchildren n hn).1)

theorem exists_first_item {children : List XmlNode} {itemName : String}
    (h : ∃ n ∈ children, n.getAttribute "name" = some itemName) :
    ∃ before n behind, (∀ m ∈ before, m.attrD "name" ≠ itemName) ∧ n.attrD "name" = itemName ∧
      children = before ++ n :: behind := by
  obtain ⟨n, hn, hname⟩ := h
  have hfound : (children.find? fun m => m.attrD "name" = itemName).isSome = true := by
    rw [List.find?_isSome]
    exact ⟨n, hn, by simp [XmlNode.attrD, hname]⟩
  obtain ⟨m, hm⟩ := Option.isSome_iff_exists.mp hfound
  obtain ⟨hm, before, behind, hsplit, hbefore⟩ := List.find?_eq_some_iff_append.mp hm
  exact ⟨before, m, behind, by simpa using hbefore, by simpa using hm, hsplit⟩

theorem forall_map_itemOf {itemName : String} {nodes : List XmlNode}
    (h : ∀ n ∈ nodes, n.attrD "name" ≠ itemName) :
    ∀ item ∈ nodes.map itemOf, item.1 ≠ itemName := by
  intro item hitem
  obtain ⟨n, hn, rfl⟩ := List.mem_map.mp hitem
  exact h n hn

theorem behind_eq {k : Setting} {before : List Item}
    (hbefore : ∀ item ∈ before, item.1 ≠ k.itemName) (value : String) (behind : List Item) :
    k.behind (before ++ (k.itemName, value) :: behind) = behind := by
  rw [Setting.behind, List.dropWhile_append_of_pos (by simpa using hbefore),
    List.dropWhile_cons_of_neg (by simp), List.tail_cons]

/-- Items that can all be read, with the first one of `k` among them: the tree that is saved, and
what is read from it. -/
theorem changeItem_read_back_split (boost : LexicalCast) {nodes : XmlDocument} {tag : String}
    {as : List (String × String)} {before behind after : List XmlNode} {n : XmlNode}
    (hfirst : XmlNode.firstChild nodes "configs" =
      some (.element tag as (before ++ n :: behind), after))
    (hchildren : ∀ m ∈ before ++ n :: behind, isItem m = true ∧ m.value = "item") {k : Setting}
    (hbefore : ∀ m ∈ before, m.attrD "name" ≠ k.itemName) (hn : n.attrD "name" = k.itemName)
    (v : String) (x : k.Value) :
    ∃ doc, changeItem k.itemName v nodes = .ok (some doc) ∧
      (ReadBack boost (some nodes) (some doc) k x ↔
        k ≠ .lastUploadTime ∧
        Setting.lastValue boost .lastUploadTime ((before ++ n :: behind).map itemOf) = none ∧
        (k.lastValue boost (behind.map itemOf)).or (k.convert boost (cStr v)) = some x) := by
  have hitem := (hchildren n (by simp)).1
  have hloop := saveItem_eq v (fun m hm => ⟨(hchildren m (by simp [hm])).1, hbefore m hm⟩) hitem hn
    behind
  obtain ⟨doc, hsave, hfirst'⟩ := changeItem_eq hfirst (fun m hm => (hchildren m hm).2) hloop
  have hsaved : ∀ m ∈ before ++ setAttribute n "value" (cStr v) :: behind,
      isItem m = true ∧ m.value = "item" := by
    intro m hm
    rw [List.mem_append, List.mem_cons] at hm
    rcases hm with hm | rfl | hm
    · exact hchildren m (by simp [hm])
    · exact ⟨isItem_setAttribute hitem _,
        (value_setAttribute _ _ _).trans (hchildren n (by simp)).2⟩
    · exact hchildren m (by simp [hm])
  have hnodes : itemNodes (some nodes) = some (before ++ n :: behind) :=
    itemNodes_of_items hfirst hchildren
  have hnodes' : itemNodes (some doc) =
      some (before ++ setAttribute n "value" (cStr v) :: behind) :=
    itemNodes_of_items hfirst' hsaved
  have hitemOf : itemOf n = (k.itemName, n.attrD "value") := by rw [itemOf, hn]
  have hitemOf' : itemOf (setAttribute n "value" (cStr v)) = (k.itemName, cStr v) := by
    rw [itemOf_setAttribute (isElement_of_isItem hitem), hn]
  refine ⟨doc, hsave, ?_⟩
  rw [List.map_append, List.map_cons, hitemOf,
    ← change_iff (forall_map_itemOf hbefore) _ (cStr v), ← hitemOf,
    ← hitemOf', ← List.map_cons, ← List.map_append, ← List.map_cons, ← List.map_append,
    ← readBack_iff hnodes hnodes']

/-- A value that converts is read back from the file, and every other setting is read as before,
exactly when `configs` is the first node with its name, all its items can be read, no time of the
last upload is saved or read, and behind the changed item none gives the setting another value.
The value ends at its first zero character. The library is taken to read the document back that it
saves here. -/
theorem saveItem2File_read_back_iff (boost : LexicalCast) (lib : XmlLibrary) (file : lib.File)
    {element : XmlNode}
    (hconfigs : ((lib.loadFile file).find? fun n => n.isElement && n.value = "configs") = some element)
    (hchildren : ∀ n ∈ element.children, n.isElement = true ∧ n.value = "item") {k : Setting}
    (hk : ∃ n ∈ element.children, n.getAttribute "name" = some k.itemName) {v : String}
    {x : k.Value} (hx : k.convert boost v = some x)
    (hkeeps : ∀ doc, changeItem k.itemName v (lib.loadFile file) = .ok (some doc) →
      lib.Keeps file doc) :
    (∃ saved, saveItem2File lib k.itemName v (some file) = .ok saved ∧
        ReadBack boost (some (lib.loadFile file)) (saved.map lib.loadFile) k x) ↔
      (∃ after, XmlNode.firstChild (lib.loadFile file) "configs" = some (element, after)) ∧
      (∀ n ∈ element.children, isItem n = true) ∧ k ≠ .lastUploadTime ∧
      Setting.lastValue boost .lastUploadTime (items (some (lib.loadFile file))) = none ∧
      (k.lastValue boost (k.behind (items (some (lib.loadFile file))))).or
          (k.convert boost (cStr v)) = k.convert boost v := by
  rcases firstChild_of_find hconfigs with ⟨after, hfirst⟩ | hfirst
  · by_cases hall : ∀ n ∈ element.children, isItem n = true
    · have hitem : ∀ n ∈ element.children, isItem n = true ∧ n.value = "item" := fun n hn =>
        ⟨hall n hn, (hchildren n hn).2⟩
      obtain ⟨before, n, behind, hbefore, hn, hsplit⟩ := exists_first_item hk
      obtain ⟨tag, as, children, rfl⟩ : ∃ tag as children, element = .element tag as children := by
        cases element with
        | element tag as children => exact ⟨tag, as, children, rfl⟩
        | text v => cases (exists_of_firstChild hfirst).1
        | comment v => cases (exists_of_firstChild hfirst).1
        | other v => cases (exists_of_firstChild hfirst).1
      obtain rfl : children = before ++ n :: behind := hsplit
      have hbehind : k.behind ((before ++ n :: behind).map itemOf) = behind.map itemOf := by
        rw [List.map_append, List.map_cons, itemOf, hn, behind_eq (forall_map_itemOf hbefore)]
      obtain ⟨doc, hchange, hread⟩ :=
        changeItem_read_back_split boost hfirst hitem hbefore hn v x
      obtain ⟨hsave, hload⟩ := saveItem2File_of_keeps hchange (hkeeps doc hchange)
      have hsaved : (∃ saved, saveItem2File lib k.itemName v (some file) = .ok saved ∧
          ReadBack boost (some (lib.loadFile file)) (saved.map lib.loadFile) k x) ↔
          ReadBack boost (some (lib.loadFile file)) (some doc) k x := by
        rw [hsave]
        constructor
        · rintro ⟨saved, hsaved, hread⟩
          cases hsaved
          rwa [hload] at hread
        · exact fun hread => ⟨_, rfl, hload.symm ▸ hread⟩
      rw [hsaved, hread, items_eq hconfigs hitem, hx]
      simp only [XmlNode.children]
      rw [hbehind]
      exact ⟨fun h => ⟨⟨after, hfirst⟩, hall, h⟩, fun h => h.2.2⟩
    · -- the file cannot be read at all
      have hnone := itemNodes_of_elements hfirst hchildren
      rw [if_neg (by simpa using hall)] at hnone
      refine iff_of_false ?_ fun h => hall h.2.1
      rintro ⟨saved, -, hread⟩
      obtain ⟨c', -, hupdate, -⟩ := hread 0 0 (.default 0)
      obtain ⟨l, hl, -⟩ := (updateConfigs_eq_iff _ _ _).mp hupdate
      rw [hnone] at hl
      cases hl
  · -- another node with the name stands in front, and nothing is saved or read
    have hnodes : itemNodes (some (lib.loadFile file)) = some [] := by
      rw [itemNodes, start]
      simp [hfirst]
    rw [saveItem2File_of_none (changeItem_of_none hfirst _ _), hfirst]
    refine iff_of_false ?_ (by simp)
    rintro ⟨saved, hsaved, hread⟩
    cases hsaved
    cases ((readBack_iff hnodes hnodes).mp hread).1 0

/-- A tick that is saved in a file with two items is read back. -/
theorem saveItem2File_reads_back_tick :
    let doc : XmlDocument := [.element "configs" []
      [.element "item" [("name", "system_tick"), ("value", "1")] [],
        .element "item" [("name", "db_name"), ("value", "vmsdb")] []]]
    ∃ saved, saveItem2File .trees "system_tick" "5" (some doc) = .ok saved ∧
      ReadBack .digits (some doc) saved .systemTick 5 := by
  intro doc
  obtain ⟨saved, hsave, hread⟩ :=
    (saveItem2File_read_back_iff .digits .trees doc (k := .systemTick) rfl
      (by simp [XmlNode.children, XmlNode.isElement, XmlNode.value])
      ⟨_, List.mem_cons_self, rfl⟩ (show Setting.convert .digits .systemTick "5" = some 5 by
        decide +kernel) fun _ _ => rfl).mpr
    ⟨⟨[], rfl⟩, by simp [XmlNode.children, isItem, XmlNode.isElement, XmlNode.getAttribute],
      by decide, by decide +kernel, by decide +kernel⟩
  have hload : saved.map XmlLibrary.trees.loadFile = saved := Option.map_id_apply
  rw [hload] at hread
  exact ⟨saved, hsave, hread⟩

/-- Of two items with one name the first is changed and the last one read; and a time of the last
upload is never read back. -/
theorem saveItem2File_loses_to_later_item :
    let doc : XmlDocument := [.element "configs" []
      [.element "item" [("name", "db_name"), ("value", "omsdb")] [],
        .element "item" [("name", "db_name"), ("value", "vmsdb")] [],
        .element "item" [("name", "last_upload"), ("value", "1378782958537087")] []]]
    (∃ saved c', saveItem2File .trees "db_name" "test" (some doc) = .ok saved ∧
      updateConfigs .digits 7 4 saved (.default 0) = some (.ok c') ∧ c'.dbName = "vmsdb") ∧
    ∃ saved c', saveItem2File .trees "last_upload" "1378782958537088" (some doc) = .ok saved ∧
      updateConfigs .digits 7 4 saved (.default 0) = some (.ok c') ∧ c'.lastUploadTime = 7 := by
  intro doc
  exact ⟨⟨_, _, rfl, rfl, rfl⟩, ⟨_, _, rfl, rfl, rfl⟩⟩

end DbdkyGcc.Config
