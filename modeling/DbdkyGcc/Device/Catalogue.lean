import DbdkyGcc.Device.Readable

/-!
# The parameters of the device catalogue

The three loops of `getFullParams` are one search through the catalogue in document order: a
device or a measure point that has no such parameter does not end it, and later ones with the same
name are searched as well.
-/

namespace DbdkyGcc.Device

open Foundations

/-- A parameter of the catalogue, in its measure point and its device. -/
structure CatalogueEntry where
  device : XmlNode
  point : XmlNode
  param : XmlNode

/-- The parameters under a substation, in document order. -/
def catalogueEntries (nodes : List XmlNode) : List CatalogueEntry :=
  nodes.flatMap fun device => device.children.flatMap fun point =>
    point.children.map fun param => ⟨device, point, param⟩

/-- The entry is a parameter of that name in a measure point and a device of those names. -/
def CatalogueEntry.Named (e : CatalogueEntry) (deviceid id paramname : String) : Prop :=
  (e.device.value = "Device" ∧ e.device.getAttribute "id" = some deviceid) ∧
  (e.point.value = "MeasurePoint" ∧ e.point.getAttribute "name" = some id) ∧
  e.param.value = "param" ∧ e.param.getAttribute "name" = some paramname

instance CatalogueEntry.decidableNamed (e : CatalogueEntry) (deviceid id paramname : String) :
    Decidable (e.Named deviceid id paramname) := by
  unfold CatalogueEntry.Named
  infer_instance

/-- The nodes under a substation carry the attributes that the search reads. -/
def CatalogueComplete (nodes : List XmlNode) : Prop :=
  ∀ device ∈ nodes, device.Has ["id"] ∧
  ∀ point ∈ device.children, (point.value = "MeasurePoint" → point.Has ["name"]) ∧
  ∀ param ∈ point.children, param.value = "param" → param.Has ("name" :: catalogueAttributes)

instance CatalogueComplete.decidable (nodes : List XmlNode) :
    Decidable (CatalogueComplete nodes) := by
  unfold CatalogueComplete XmlNode.Has
  infer_instance

theorem getAttribute_eq_some_iff {n : XmlNode} {a : String} (h : n.Has [a]) (text : String) :
    n.getAttribute a = some text ↔ n.attrD a = text := by
  obtain ⟨value, hvalue⟩ := Option.isSome_iff_exists.mp ((n.has_singleton a).mp h).2
  rw [XmlNode.attrD, hvalue, Option.some.injEq, Option.getD_some]

theorem findSome?_congr {α β : Type} {f g : α → Option β} {l : List α}
    (h : ∀ x ∈ l, f x = g x) : l.findSome? f = l.findSome? g := by
  rw [← List.head?_filterMap, ← List.head?_filterMap, List.filterMap_congr h]

theorem map_find?_eq_findSome? {α β : Type} (p : α → Bool) (f : α → β) (l : List α) :
    (l.find? p).map f = l.findSome? fun x => if p x then some (f x) else none := by
  rw [List.find?_eq_findSome?_guard, List.map_findSome?]
  refine findSome?_congr fun x _ => ?_
  cases h : p x <;> simp [Option.guard, h]

/-- The search for an entry, loop by loop. -/
theorem find_catalogueEntries (nodes : List XmlNode) (p : CatalogueEntry → Bool) {β : Type}
    (f : CatalogueEntry → β) :
    ((catalogueEntries nodes).find? p).map f =
      nodes.findSome? fun device => device.children.findSome? fun point =>
        point.children.findSome? fun param =>
          if p ⟨device, point, param⟩ then some (f ⟨device, point, param⟩) else none := by
  simp only [catalogueEntries, List.find?_flatMap, List.map_findSome?, List.find?_map]
  refine findSome?_congr fun device _ => ?_
  rw [Function.comp_apply, List.map_findSome?]
  refine findSome?_congr fun point _ => ?_
  rw [Function.comp_apply, Option.map_map, map_find?_eq_findSome?]
  rfl

variable {deviceid id paramname : String} {param : Param}

/-- What an entry of these nodes adds to the parameter, if it has the names. -/
def CatalogueEntry.found (e : CatalogueEntry) (deviceid id paramname : String) (param : Param) :
    Option Param :=
  if e.Named deviceid id paramname then some (fullParam param e.param) else none

theorem foundParam_eq {device point n : XmlNode}
    (hdevice : device.value = "Device" ∧ device.getAttribute "id" = some deviceid)
    (hpoint : point.value = "MeasurePoint" ∧ point.getAttribute "name" = some id)
    (h : n.value = "param" → n.Has ("name" :: catalogueAttributes)) :
    foundParam paramname param n =
      CatalogueEntry.found ⟨device, point, n⟩ deviceid id paramname param := by
  refine if_congr ?_ rfl rfl
  rw [CatalogueEntry.Named, and_iff_right hdevice, and_iff_right hpoint]
  refine and_congr_right fun hvalue => ?_
  have hname := ((n.has_cons _ _).mp (h hvalue)).1
  exact (getAttribute_eq_some_iff ((n.has_singleton _).mpr hname) _).symm

theorem foundInMeasurePoint_eq {device point : XmlNode}
    (hdevice : device.value = "Device" ∧ device.getAttribute "id" = some deviceid)
    (hname : point.value = "MeasurePoint" → point.Has ["name"])
    (hparams : ∀ n ∈ point.children, n.value = "param" → n.Has ("name" :: catalogueAttributes)) :
    foundInMeasurePoint id paramname param point =
      point.children.findSome? fun n =>
        CatalogueEntry.found ⟨device, point, n⟩ deviceid id paramname param := by
  have hiff : point.value = "MeasurePoint" ∧ point.attrD "name" = id ↔
      point.value = "MeasurePoint" ∧ point.getAttribute "name" = some id :=
    and_congr_right fun hvalue => (getAttribute_eq_some_iff (hname hvalue) id).symm
  rw [foundInMeasurePoint]
  by_cases hpoint : point.value = "MeasurePoint" ∧ point.attrD "name" = id
  · rw [if_pos hpoint]
    exact findSome?_congr fun n hn => foundParam_eq hdevice (hiff.mp hpoint) (hparams n hn)
  · rw [if_neg hpoint, eq_comm, List.findSome?_eq_none_iff]
    intro n _
    exact if_neg fun h => hpoint (hiff.mpr h.2.1)

theorem foundInDevice_eq {device : XmlNode} (hid : device.Has ["id"])
    (hpoints : ∀ point ∈ device.children, (point.value = "MeasurePoint" → point.Has ["name"]) ∧
      ∀ n ∈ point.children, n.value = "param" → n.Has ("name" :: catalogueAttributes)) :
    foundInDevice deviceid id paramname param device =
      device.children.findSome? fun point => point.children.findSome? fun n =>
        CatalogueEntry.found ⟨device, point, n⟩ deviceid id paramname param := by
  have hiff : device.value = "Device" ∧ deviceid = device.attrD "id" ↔
      device.value = "Device" ∧ device.getAttribute "id" = some deviceid :=
    and_congr_right fun _ => (eq_comm.trans (getAttribute_eq_some_iff hid deviceid).symm)
  rw [foundInDevice]
  by_cases hdevice : device.value = "Device" ∧ deviceid = device.attrD "id"
  · rw [if_pos hdevice]
    exact findSome?_congr fun point hpoint =>
      foundInMeasurePoint_eq (hiff.mp hdevice) (hpoints point hpoint).1 (hpoints point hpoint).2
  · rw [if_neg hdevice, eq_comm, List.findSome?_eq_none_iff]
    intro point _
    rw [List.findSome?_eq_none_iff]
    intro n _
    exact if_neg fun h => hdevice (hiff.mpr h.1)

/-- The three loops find the first entry with the names. -/
theorem findSome?_foundInDevice {nodes : List XmlNode} (h : CatalogueComplete nodes) :
    nodes.findSome? (foundInDevice deviceid id paramname param) =
      ((catalogueEntries nodes).find? fun e => e.Named deviceid id paramname).map
        fun e => fullParam param e.param := by
  rw [find_catalogueEntries]
  simp only [decide_eq_true_eq]
  exact findSome?_congr fun device hdevice =>
    foundInDevice_eq (h device hdevice).1 (h device hdevice).2

theorem CatalogueComplete.has {nodes : List XmlNode} (h : CatalogueComplete nodes)
    {e : CatalogueEntry} (he : e ∈ catalogueEntries nodes) (hparam : e.param.value = "param") :
    e.param.Has catalogueAttributes := by
  simp only [catalogueEntries, List.mem_flatMap, List.mem_map] at he
  obtain ⟨device, hdevice, point, hpoint, n, hn, rfl⟩ := he
  exact ((n.has_cons _ _).mp (((h device hdevice).2 point hpoint).2 n hn hparam)).2

theorem map_getAttribute {n : XmlNode} {names : List String} (h : n.Has names) :
    names.map n.getAttribute = (names.map n.attrD).map some := by
  rw [List.map_map]
  refine List.map_congr_left fun a ha => ?_
  obtain ⟨value, hvalue⟩ := Option.isSome_iff_exists.mp (h.2 a ha)
  rw [Function.comp_apply, XmlNode.attrD, hvalue, Option.getD_some]

/-- Nothing that the search comes to read is absent. -/
theorem catalogueReadable_of_complete {catalogue : Option XmlDocument}
    (h : CatalogueComplete (substation catalogue)) :
    CatalogueReadable catalogue deviceid id paramname param := by
  refine untilFound_of_forall fun device hdevice => ⟨(h device hdevice).1, fun _ => ?_⟩
  refine untilFound_of_forall fun point hpoint hvalue => ?_
  obtain ⟨hname, hparams⟩ := (h device hdevice).2 point hpoint
  refine ⟨hname hvalue, fun _ => untilFound_of_forall fun n hn hparam => ?_⟩
  obtain ⟨hself, hrest⟩ := (n.has_cons _ _).mp (hparams n hn hparam)
  exact ⟨(n.has_singleton _).mpr hself, fun _ => hrest⟩

/-- `getFullParams` takes the seven attributes from the first parameter in document order that has
the name and lies in a measure point and a device of those names; without one the parameter stays
as it is. Its name and its register count stay in any case. -/
theorem getFullParams_finds_first {catalogue : Option XmlDocument}
    (h : CatalogueComplete (substation catalogue)) (deviceid id paramname : String)
    (param : Param) :
    ∃ param', getFullParams catalogue deviceid id paramname param = .ok param' ∧
      param'.name = param.name ∧ param'.registernum = param.registernum ∧
      (∀ e, ((catalogueEntries (substation catalogue)).find?
          fun e => e.Named deviceid id paramname) = some e →
        catalogueAttributes.map e.param.getAttribute = [param'.desc, param'.unit,
          param'.precision, param'.range, param'.filter, param'.addresslen,
          param'.address].map some) ∧
      ((∀ e ∈ catalogueEntries (substation catalogue), ¬e.Named deviceid id paramname) →
        param' = param) := by
  refine ⟨_, (getFullParams_guarded catalogue deviceid id paramname param).1
    (catalogueReadable_of_complete h), ?_⟩
  rw [fullParams, findSome?_foundInDevice h]
  cases hfind : (catalogueEntries (substation catalogue)).find?
      fun e => e.Named deviceid id paramname with
  | none =>
    exact ⟨rfl, rfl, by simp, fun _ => rfl⟩
  | some e =>
    have hmem := List.mem_of_find?_eq_some hfind
    have hnamed : e.Named deviceid id paramname := by simpa using List.find?_some hfind
    refine ⟨rfl, rfl, ?_, fun hnone => absurd hnamed (hnone e hmem)⟩
    rintro _ ⟨⟩
    exact map_getAttribute (h.has hmem hnamed.2.2.1)

/-- Of two devices with one id, and two measure points with one name in the second, the last
measure point is the one that has the parameter. -/
theorem getFullParams_finds_in_later_point :
    let param : XmlNode := .element "param" [("name", "H2"), ("desc", "hydrogen"), ("unit", "ppm"),
      ("precision", "1"), ("range", "0"), ("filter", "0"), ("addresslen", "2"), ("address", "4")] []
    let catalogue : XmlDocument := [.element "DataConfig" [] [.element "Substation" []
      [.element "Device" [("id", "7")] [.element "MeasurePoint" [("name", "oil")] []],
        .element "Device" [("id", "7")] [.element "MeasurePoint" [("name", "oil")] [],
          .element "MeasurePoint" [("name", "oil")] [param]]]]]
    CatalogueComplete (substation (some catalogue)) ∧
    ∃ param', getFullParams (some catalogue) "7" "oil" "H2" { name := "H2" } = .ok param' ∧
      param'.name = "H2" ∧ param'.desc = "hydrogen" ∧ param'.address = "4" := by
  intro param catalogue
  have hcomplete : CatalogueComplete (substation (some catalogue)) := by decide +kernel
  obtain ⟨param', hget, hname, -, hattributes, -⟩ :=
    getFullParams_finds_first hcomplete "7" "oil" "H2" { name := "H2" }
  have h := hattributes ⟨.element "Device" [("id", "7")]
    [.element "MeasurePoint" [("name", "oil")] [],
      .element "MeasurePoint" [("name", "oil")] [param]],
    .element "MeasurePoint" [("name", "oil")] [param], param⟩ rfl
  simp only [catalogueAttributes, List.map_cons, List.map_nil, List.cons.injEq] at h
  exact ⟨hcomplete, param', hget, hname, Option.some.inj h.1.symm,
    Option.some.inj h.2.2.2.2.2.2.1.symm⟩

end DbdkyGcc.Device
