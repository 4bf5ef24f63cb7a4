import DbdkyGcc.Device.Identity

/-!
# Measure points of one unit

A measure point is declared by its device id and its id, and its parameters are looked up in
the catalogue under both. The map of a unit has the device id alone for a key: the first
child under a device id decides the object, and the parameters of all of them are entered
there.
-/

namespace DbdkyGcc.Device

open Foundations

/-- The same device id and the same id. -/
def SamePair (pt pt' : PointSpec) : Prop := pt.deviceid = pt'.deviceid ∧ pt.id = pt'.id

instance (pt pt' : PointSpec) : Decidable (SamePair pt pt') := inferInstanceAs (Decidable (_ ∧ _))

/-- The object for the pair of `pt`: the attributes of the first child with the pair, and
exactly the parameters named under the pair, with what the catalogue says for it. -/
def IsPointOf (catalogue : Option XmlDocument) (pts : List PointSpec) (pt : PointSpec)
    (mp : MeasurePoint) : Prop :=
  (∀ first, pts.find? (fun x => SamePair x pt) = some first → mp.attributes = first.measurePoint) ∧
    ∀ (name : String) (a : Param), mp.paramList[name]? = some a ↔
      name ≠ "" ∧ (∃ x ∈ pts, SamePair x pt ∧ ∃ b ∈ x.params, b.name = name) ∧
        a = fullParams catalogue pt.deviceid pt.id name { name := name }

/-- One object for each pair, and no other. -/
structure OnePerPair (catalogue : Option XmlDocument) (u : MonitorUnit) (pts : List PointSpec) :
    Prop where
  each : ∀ pt ∈ pts, pt.deviceid ≠ "" →
    ∃ (d : String) (mp : MeasurePoint), u.measurePointList[d]? = some mp ∧
      IsPointOf catalogue pts pt mp
  only : ∀ (d : String) (mp : MeasurePoint), u.measurePointList[d]? = some mp →
    ∃ pt ∈ pts, pt.deviceid ≠ "" ∧ mp.deviceid = pt.deviceid ∧ mp.id = pt.id
  one : ∀ (d d' : String) (mp mp' : MeasurePoint), u.measurePointList[d]? = some mp →
    u.measurePointList[d']? = some mp' → mp.deviceid = mp'.deviceid → mp.id = mp'.id → d = d'

/-- No two children under one device id differ in their id. -/
def OneIdPerDevice (pts : List PointSpec) : Prop :=
  ∀ pt ∈ pts, ∀ pt' ∈ pts, pt.deviceid = pt'.deviceid → pt.deviceid ≠ "" → pt.id = pt'.id

instance (pts : List PointSpec) : Decidable (OneIdPerDevice pts) :=
  inferInstanceAs (Decidable (∀ pt ∈ pts, ∀ pt' ∈ pts, _ → _ → _))

/-- What stands under a device id. -/
theorem measurePoint_cases {pts : List PointSpec} {s : UnitSpec} {d : String} {mp : MeasurePoint}
    (h : (pts.foldl MonitorUnit.addPoint s.monitorUnit).measurePointList[d]? = some mp) :
    d ≠ "" ∧ ∃ pt, (underDevice pts d).head? = some pt ∧ pt ∈ pts ∧ pt.deviceid = d ∧
      mp = ((underDevice pts d).flatMap PointSpec.params).foldl MeasurePoint.insertParam
        pt.measurePoint := by
  rw [getElem?_foldl_addPoint] at h
  split at h
  · cases h
  · next hd =>
    obtain ⟨pt, hpt, rfl⟩ := Option.map_eq_some_iff.mp h
    obtain ⟨hmem, hdev⟩ := List.mem_filter.mp (List.mem_of_head? hpt)
    exact ⟨hd, pt, hpt, hmem, by simpa using hdev, rfl⟩

theorem deviceid_of_attributes {mp : MeasurePoint} {pt : PointSpec}
    (h : mp.attributes = pt.measurePoint) : mp.deviceid = pt.deviceid ∧ mp.id = pt.id :=
  ⟨congrArg MeasurePoint.deviceid h, congrArg MeasurePoint.id h⟩

/-- With one id per device id, what stands there is the object for the pair. -/
theorem isPointOf_underDevice {catalogue : Option XmlDocument} {pts : List PointSpec}
    (hc : ∀ pt ∈ pts, pt.FromCatalogue catalogue) {pt first : PointSpec}
    (hsame : ∀ x ∈ pts, x.deviceid = pt.deviceid → x.id = pt.id)
    (hfirst : (underDevice pts pt.deviceid).head? = some first) :
    IsPointOf catalogue pts pt (((underDevice pts pt.deviceid).flatMap PointSpec.params).foldl
      MeasurePoint.insertParam first.measurePoint) := by
  have hpair : ∀ x ∈ pts, (x.deviceid = pt.deviceid ↔ SamePair x pt) :=
    fun x hx => ⟨fun h => ⟨h, hsame x hx h⟩, fun h => h.1⟩
  have hmem : ∀ x, x ∈ underDevice pts pt.deviceid ↔ x ∈ pts ∧ SamePair x pt := by
    intro x
    rw [underDevice, List.mem_filter, decide_eq_true_iff]
    exact and_congr_right (hpair x)
  refine ⟨fun first' hfirst' => ?_, fun name a => ?_⟩
  · have hfilter : underDevice pts pt.deviceid = pts.filter fun x => SamePair x pt :=
      List.filter_congr fun x hx => decide_eq_decide.mpr (hpair x hx)
    rw [hfilter, List.head?_filter, hfirst'] at hfirst
    obtain rfl := Option.some.inj hfirst
    exact foldl_insertParam_attributes _ _
  · have hvalue : ∀ b ∈ (underDevice pts pt.deviceid).flatMap PointSpec.params,
        decide (b.name = name) = true →
          b = fullParams catalogue pt.deviceid pt.id name { name := name } := by
      intro b hb hname
      obtain rfl : b.name = name := by simpa using hname
      obtain ⟨x, hx, hb⟩ := List.mem_flatMap.mp hb
      obtain ⟨hx, hdev, hid⟩ := (hmem x).mp hx
      rw [← hdev, ← hid]
      exact hc x hx b hb
    have hnamed : (∃ b ∈ (underDevice pts pt.deviceid).flatMap PointSpec.params,
        decide (b.name = name) = true) ↔
          ∃ x ∈ pts, SamePair x pt ∧ ∃ b ∈ x.params, b.name = name := by
      simp only [List.mem_flatMap, hmem, decide_eq_true_iff]
      grind
    rw [getElem?_foldl_insertParam]
    by_cases hname : name = ""
    · simp [hname]
    · rw [if_neg hname, find?_eq_some_iff_of_forall hvalue, hnamed]
      exact (and_iff_right hname).symm

theorem onePerPair_iff {catalogue : Option XmlDocument} {pts : List PointSpec} (s : UnitSpec)
    (hc : ∀ pt ∈ pts, pt.FromCatalogue catalogue) :
    OnePerPair catalogue (pts.foldl MonitorUnit.addPoint s.monitorUnit) pts ↔
      OneIdPerDevice pts := by
  have hkey : ∀ {d : String} {mp : MeasurePoint},
      (pts.foldl MonitorUnit.addPoint s.monitorUnit).measurePointList[d]? = some mp →
      mp.deviceid = d := by
    intro d mp h
    obtain ⟨-, pt, -, -, hd, rfl⟩ := measurePoint_cases h
    exact (deviceid_of_attributes (foldl_insertParam_attributes _ _)).1.trans hd
  constructor
  · intro h pt hpt pt' hpt' hd hne
    -- The objects for the two pairs stand under the one device id, so they are the same.
    have hid : ∀ x ∈ pts, x.deviceid = pt.deviceid → ∃ mp,
        (pts.foldl MonitorUnit.addPoint s.monitorUnit).measurePointList[pt.deviceid]? = some mp ∧
          mp.id = x.id := by
      intro x hx hxd
      obtain ⟨d, mp, hmp, hattributes, -⟩ := h.each x hx (hxd ▸ hne)
      obtain ⟨first, hfirst⟩ : ∃ first, pts.find? (fun y => decide (SamePair y x)) = some first :=
        Option.isSome_iff_exists.mp (List.find?_isSome.mpr ⟨x, hx, by simp [SamePair]⟩)
      have hpair : SamePair first x := by simpa using List.find?_some hfirst
      obtain ⟨hmpd, hmpid⟩ := deviceid_of_attributes (hattributes first hfirst)
      have hd : d = pt.deviceid := (hkey hmp).symm.trans (hmpd.trans (hpair.1.trans hxd))
      exact ⟨mp, hd ▸ hmp, hmpid.trans hpair.2⟩
    obtain ⟨mp, hmp, hmpid⟩ := hid pt hpt rfl
    obtain ⟨mp', hmp', hmpid'⟩ := hid pt' hpt' hd.symm
    rw [hmp] at hmp'
    rw [← hmpid, ← hmpid', Option.some.inj hmp']
  · intro h
    refine ⟨fun pt hpt hne => ?_, fun d mp hmp => ?_, fun d d' mp mp' hmp hmp' hd _ => ?_⟩
    · have hmem : pt ∈ underDevice pts pt.deviceid := List.mem_filter.mpr ⟨hpt, by simp⟩
      obtain ⟨first, hfirst⟩ : ∃ first, (underDevice pts pt.deviceid).head? = some first :=
        Option.isSome_iff_exists.mp (List.isSome_head?.mpr (List.ne_nil_of_mem hmem))
      refine ⟨pt.deviceid, _, ?_, isPointOf_underDevice hc
        (fun x hx hxd => h x hx pt hpt hxd (hxd ▸ hne)) hfirst⟩
      rw [getElem?_foldl_addPoint, if_neg hne, hfirst, Option.map_some]
    · obtain ⟨hd, pt, -, hpt, hptd, rfl⟩ := measurePoint_cases hmp
      exact ⟨pt, hpt, hptd ▸ hd, deviceid_of_attributes (foldl_insertParam_attributes _ _)⟩
    · rw [← hkey hmp, ← hkey hmp', hd]

theorem attached_fromCatalogue {catalogue : Option XmlDocument} {docs : List (Option XmlDocument)}
    {port : String} {s : UnitSpec}
    (hs : s ∈ attached (docs.filterMap (documentSpec catalogue)) port) :
    ∀ pt ∈ s.points, pt.FromCatalogue catalogue := by
  obtain ⟨d, hd, hs⟩ := List.mem_flatMap.mp hs
  obtain ⟨doc, -, hdoc⟩ := List.mem_filterMap.mp ((List.dropWhile_suffix _).subset hd)
  exact documentSpec_fromCatalogue hdoc s (List.mem_filter.mp hs).1

theorem mem_of_mem_reaching {units : List UnitSpec} {key : String} {s : UnitSpec}
    (hs : s ∈ reaching units key) : s ∈ units :=
  (List.mem_filter.mp ((List.dropWhile_suffix _).subset hs)).1

/-- The unit of a named element has one object for each pair of its children exactly when the
device ids alone tell the pairs apart. -/
theorem measurePoints_one_per_pair_iff (catalogue : Option XmlDocument)
    (docs : List (Option XmlDocument)) (ports : PortList)
    (hload : loadDocuments catalogue docs = .ok ports) (port : String) (p : SerialPort)
    (hp : ports[port]? = some p) (units : List UnitSpec)
    (hunits : units = attached (docs.filterMap (documentSpec catalogue)) port) (e : UnitSpec)
    (he : e ∈ units) (hn : e.Named) :
    ∃ u, p.getMonitorUnitByName e.key = some u ∧
      (OnePerPair catalogue u (reachingPoints units e.key) ↔
        OneIdPerDevice (reachingPoints units e.key)) := by
  obtain ⟨config, rfl⟩ := loaded_port hload hp
  obtain ⟨s, rest, hs⟩ : ∃ s rest, reaching units e.key = s :: rest :=
    List.exists_cons_of_ne_nil (List.ne_nil_of_mem (mem_reaching he hn))
  refine ⟨(reachingPoints units e.key).foldl MonitorUnit.addPoint s.monitorUnit, ?_,
    onePerPair_iff s fun pt hpt => ?_⟩
  · rw [← hunits, getMonitorUnitByName_foldl, hs]
    rfl
  · obtain ⟨v, hv, hpt⟩ := List.mem_flatMap.mp hpt
    exact attached_fromCatalogue (hunits ▸ mem_of_mem_reaching hv) pt hpt

/-- A catalogue with a device of two measure points. -/
def twoPointCatalogue : XmlDocument :=
  let param (precision : String) : XmlNode := .element "param" [("name", "TotA"), ("desc", ""),
    ("unit", "mA"), ("precision", precision), ("range", ""), ("filter", ""), ("addresslen", ""),
    ("address", "")] []
  [.element "DataConfig" [] [.element "Substation" [] [.element "Device" [("id", "D1")]
    [.element "MeasurePoint" [("name", "a")] [param "0.1"],
     .element "MeasurePoint" [("name", "b")] [param "0.01"]]]]]

/-- Two devices. -/
theorem measurePoints_of_two_devices :
    let doc := com1Units [unitElement "ZSAR" "1"
      [pointElement "D1" "a" ["TotA"], pointElement "D2" "a" ["TotA"]]]
    let units := attached ([some doc].filterMap (documentSpec (some twoPointCatalogue))) "COM1"
    ∃ ports p, loadDocuments (some twoPointCatalogue) [some doc] = .ok ports ∧
      ports["COM1"]? = some p ∧ ∃ e u, units = [e] ∧ reachingPoints units e.key = e.points ∧
        p.getMonitorUnitByName e.key = some u ∧ OnePerPair (some twoPointCatalogue) u e.points := by
  intro doc units
  obtain ⟨ports, p, hload, hp, -⟩ :=
    exists_port (some twoPointCatalogue) doc (fun _ => ()) () (by decide +kernel)
  have hone : ∃ e ∈ units, units = [e] ∧ e.Named ∧ reaching units e.key = [e] ∧
      OneIdPerDevice e.points := by
    decide +kernel
  obtain ⟨e, he, hunits, hn, halone, hids⟩ := hone
  obtain ⟨u, hu, hiff⟩ := measurePoints_one_per_pair_iff (some twoPointCatalogue) [some doc] ports hload
    "COM1" p hp units rfl e he hn
  have hpts := reachingPoints_of_alone halone
  rw [hpts] at hiff
  exact ⟨ports, p, hload, hp, e, u, hunits, hpts, hu, hiff.mpr hids⟩

/-- The measure points of a unit, each with its device id, its id and its precisions. -/
def MonitorUnit.outline (u : MonitorUnit) : List (List String) :=
  u.measurePointList.toList.map fun entry =>
    entry.1 :: entry.2.id :: entry.2.paramList.toList.map fun a => a.2.precision

/-- Of two measure points of one device the second is dropped; its parameter is entered at the
first, with the precision of the second. -/
theorem sibling_merged_into_first :
    let doc := com1Units [unitElement "ZSAR" "1"
      [pointElement "D1" "a" [], pointElement "D1" "b" ["TotA"]]]
    let units := attached ([some doc].filterMap (documentSpec (some twoPointCatalogue))) "COM1"
    ∃ ports p, loadDocuments (some twoPointCatalogue) [some doc] = .ok ports ∧
      ports["COM1"]? = some p ∧ ∃ e u, units = [e] ∧ p.getMonitorUnitByName e.key = some u ∧
        u.outline = [["D1", "a", "0.01"]] ∧
        ¬ OnePerPair (some twoPointCatalogue) u e.points := by
  intro doc units
  obtain ⟨ports, p, hload, hp, houtline⟩ := exists_port (some twoPointCatalogue) doc
    (fun p => (p.getMonitorUnitByName "ZSAR1").map MonitorUnit.outline)
    (some [["D1", "a", "0.01"]]) (by decide +kernel)
  obtain ⟨u, hu, houtline⟩ := Option.map_eq_some_iff.mp houtline
  have hone : ∃ e ∈ units, units = [e] ∧ e.key = "ZSAR1" ∧ ∃ pt ∈ e.points, pt.deviceid ≠ "" ∧
      (e.points.find? fun x => SamePair x pt) = some pt ∧ pt.id = "b" := by
    decide +kernel
  obtain ⟨e, -, hunits, hkey, pt, hpt, hd, hfirst, hid⟩ := hone
  refine ⟨ports, p, hload, hp, e, u, hunits, hkey ▸ hu, houtline, fun h => ?_⟩
  obtain ⟨d, mp, hmp, hattributes, -⟩ := h.each pt hpt hd
  have hb : mp.id = "b" := (deviceid_of_attributes (hattributes pt hfirst)).2.trans hid
  have hmem : d :: mp.id :: (mp.paramList.toList.map fun a => a.2.precision) ∈ u.outline :=
    List.mem_map.mpr ⟨(d, mp), Std.ExtTreeMap.mem_toList_iff_getElem?_eq_some.mpr hmp, rfl⟩
  simp [houtline, hb] at hmem

end DbdkyGcc.Device
