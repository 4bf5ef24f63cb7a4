import DbdkyGcc.Device.Order

/-!
# Which element an object comes from

After loading, a port holds what the units attached to it have made, a unit what the
elements under its key have made, and a measure point what the children under its device id
have made. The keys are coarser than the elements: `protocolname` and `mac` are joined
without a separator, and the `id` of a measure point is no part of its key.
-/

namespace DbdkyGcc.Device

open Foundations

-- ════════════════════════════════════════════════════════════════════════
-- What reaches an object
-- ════════════════════════════════════════════════════════════════════════

/-- The units attached to a port: those that name it in the documents from the first one on
that declares it. -/
def attached (specs : List DocumentSpec) (port : String) : List UnitSpec :=
  (specs.dropWhile fun d => d.config.name ≠ port).flatMap fun d => d.unitsOn port

/-- The elements whose measure points reach the unit under a key: from the first one on that
creates it. -/
def reaching (units : List UnitSpec) (key : String) : List UnitSpec :=
  (units.filter fun s => s.key = key).dropWhile fun s => ¬ s.Named

def reachingPoints (units : List UnitSpec) (key : String) : List PointSpec :=
  (reaching units key).flatMap UnitSpec.points

theorem foldl_act_some (specs : List DocumentSpec) (port : String) (p : SerialPort) :
    specs.foldl (fun o d => d.act port o) (some p) =
      some ((specs.flatMap fun d => d.unitsOn port).foldl SerialPort.addUnit p) := by
  induction specs generalizing p with
  | nil => rfl
  | cons d specs ih =>
    have hact : d.act port (some p) = some ((d.unitsOn port).foldl SerialPort.addUnit p) := by
      rw [DocumentSpec.act]
      split <;> rfl
    rw [List.foldl_cons, hact, ih, List.flatMap_cons, List.foldl_append]

theorem foldl_act_none (specs : List DocumentSpec) (port : String) :
    specs.foldl (fun o d => d.act port o) none =
      (specs.find? fun d => d.config.name = port).map fun d =>
        (attached specs port).foldl SerialPort.addUnit { config := d.config } := by
  induction specs with
  | nil => rfl
  | cons d specs ih =>
    rw [List.foldl_cons, List.find?_cons, attached, List.dropWhile_cons]
    by_cases hd : d.config.name = port
    · have hact : d.act port none =
          some ((d.unitsOn port).foldl SerialPort.addUnit { config := d.config }) := by
        simp [DocumentSpec.act, hd]
      simp only [hd, decide_true, ne_eq, not_true, decide_false, Bool.false_eq_true, if_false,
        Option.map_some, hact, foldl_act_some, List.flatMap_cons, List.foldl_append]
    · have hact : d.act port none = none := by simp [DocumentSpec.act, hd]
      simp only [hd, decide_false, ne_eq, not_false_eq_true, decide_true, if_true, hact, ih]
      rfl

theorem getElem?_foldl_addDocument (specs : List DocumentSpec) (port : String) (ports : PortList) :
    (specs.foldl addDocument ports)[port]? =
      if port = "" then ports[port]? else specs.foldl (fun o d => d.act port o) ports[port]? := by
  induction specs generalizing ports with
  | nil => simp
  | cons d specs ih =>
    rw [List.foldl_cons, List.foldl_cons, ih, getElem?_addDocument]
    split <;> rfl

/-- A loaded port is what the units attached to it have made. -/
theorem loaded_port {catalogue : Option XmlDocument} {docs : List (Option XmlDocument)}
    {ports : PortList} (hload : loadDocuments catalogue docs = .ok ports) {port : String}
    {p : SerialPort} (h : ports[port]? = some p) :
    ∃ config, p = (attached (docs.filterMap (documentSpec catalogue)) port).foldl
      SerialPort.addUnit { config := config } := by
  rw [(loadDocuments_guarded catalogue docs).eq_of_ok hload, loaded,
    getElem?_foldl_addDocument] at h
  split at h
  · simp at h
  · rw [Std.ExtTreeMap.getElem?_empty, foldl_act_none, Option.map_eq_some_iff] at h
    obtain ⟨d, -, hp⟩ := h
    exact ⟨d.config, hp.symm⟩

-- ════════════════════════════════════════════════════════════════════════
-- The units of a port
-- ════════════════════════════════════════════════════════════════════════

theorem foldl_portAddUnit (units : List UnitSpec) (p : SerialPort) :
    units.foldl SerialPort.addUnit p = { p with
      monitorUnitList := units.foldl (fun m s => s.enter m) p.monitorUnitList } := by
  induction units generalizing p with
  | nil => rfl
  | cons s units ih => rw [List.foldl_cons, ih, portAddUnit_eq]; rfl

/-- The units under one key create the object with the first named one, and all from there
on enter their measure points. -/
theorem foldl_unitAct_some (units : List UnitSpec) (u : MonitorUnit) :
    units.foldl (fun o s => if s.Named then some (s.fill (o.getD s.monitorUnit))
      else Option.map s.fill o) (some u) =
      some ((units.flatMap UnitSpec.points).foldl MonitorUnit.addPoint u) := by
  induction units generalizing u with
  | nil => rfl
  | cons s units ih =>
    rw [List.foldl_cons, List.flatMap_cons, List.foldl_append]
    have hstep : (if s.Named then some (s.fill ((some u).getD s.monitorUnit))
        else Option.map s.fill (some u)) = some (s.fill u) := by split <;> rfl
    rw [hstep, ih]
    rfl

theorem foldl_unitAct_none (units : List UnitSpec) :
    units.foldl (fun o s => if s.Named then some (s.fill (o.getD s.monitorUnit))
      else Option.map s.fill o) none =
      (units.dropWhile fun s => ¬ s.Named).head?.map fun s =>
        ((units.dropWhile fun s => ¬ s.Named).flatMap UnitSpec.points).foldl MonitorUnit.addPoint
          s.monitorUnit := by
  induction units with
  | nil => rfl
  | cons s units ih =>
    rw [List.foldl_cons, List.dropWhile_cons]
    by_cases hs : s.Named
    · simp only [hs, if_true, Option.getD_none, foldl_unitAct_some, not_true, decide_false,
        Bool.false_eq_true, if_false, List.head?_cons, Option.map_some, List.flatMap_cons,
        List.foldl_append]
      rfl
    · simp only [hs, if_false, Option.map_none, ih, not_false_eq_true, decide_true, if_true]

theorem getMonitorUnitByName_foldl (units : List UnitSpec) (config : ComConfig) (key : String) :
    (units.foldl SerialPort.addUnit { config := config }).getMonitorUnitByName key =
      (reaching units key).head?.map fun s =>
        (reachingPoints units key).foldl MonitorUnit.addPoint s.monitorUnit := by
  rw [foldl_portAddUnit, SerialPort.getMonitorUnitByName, lookup]
  by_cases hkey : key = ""
  · have hnone : reaching units key = [] := by
      refine List.dropWhile_eq_nil_iff.mpr fun s hs => ?_
      have hs : s.key = key := by simpa using (List.mem_filter.mp hs).2
      simpa using fun hnamed : s.Named => hnamed.key_ne (hs.trans hkey)
    rw [if_pos hkey, hnone]
    rfl
  · rw [if_neg hkey]
    show (units.foldl (fun m s => s.enter m) ∅)[key]? = _
    rw [getElem?_foldl actsAt_enterUnit, Std.ExtTreeMap.getElem?_empty, reachingPoints, reaching,
      ← foldl_unitAct_none]
    refine List.foldl_ext _ _ _ fun o s hs => ?_
    have hs : s.key = key := by simpa using (List.mem_filter.mp hs).2
    rw [hs]
    simp only [if_neg hkey]
    split <;> rfl

-- ════════════════════════════════════════════════════════════════════════
-- The measure points of a unit
-- ════════════════════════════════════════════════════════════════════════

/-- A unit without its measure points. -/
def MonitorUnit.attributes (u : MonitorUnit) : MonitorUnit := { u with measurePointList := ∅ }

/-- A measure point without its parameters. -/
def MeasurePoint.attributes (p : MeasurePoint) : MeasurePoint := { p with paramList := ∅ }

theorem foldl_addPoint (pts : List PointSpec) (u : MonitorUnit) :
    pts.foldl MonitorUnit.addPoint u = { u with
      measurePointList := pts.foldl (fun m pt => pt.enter m) u.measurePointList } := by
  induction pts generalizing u with
  | nil => rfl
  | cons pt pts ih => rw [List.foldl_cons, ih, addPoint_eq]; rfl

theorem foldl_pointAct_some (pts : List PointSpec) (p : MeasurePoint) :
    pts.foldl (fun o pt => some (pt.fill (o.getD pt.measurePoint))) (some p) =
      some ((pts.flatMap PointSpec.params).foldl MeasurePoint.insertParam p) := by
  induction pts generalizing p with
  | nil => rfl
  | cons pt pts ih =>
    rw [List.foldl_cons, List.flatMap_cons, List.foldl_append]
    exact ih (pt.fill p)

/-- The children under one device id. -/
def underDevice (pts : List PointSpec) (deviceid : String) : List PointSpec :=
  pts.filter fun pt => pt.deviceid = deviceid

/-- Under a device id stands the object of the first child with that id, with the parameters
of all of them. -/
theorem getElem?_foldl_addPoint (pts : List PointSpec) (s : UnitSpec) (deviceid : String) :
    (pts.foldl MonitorUnit.addPoint s.monitorUnit).measurePointList[deviceid]? =
      if deviceid = "" then none else (underDevice pts deviceid).head?.map fun pt =>
        ((underDevice pts deviceid).flatMap PointSpec.params).foldl MeasurePoint.insertParam
          pt.measurePoint := by
  rw [foldl_addPoint]
  show (pts.foldl (fun m pt => pt.enter m) ∅)[deviceid]? = _
  rw [getElem?_foldl actsAt_enterPoint, Std.ExtTreeMap.getElem?_empty]
  have hstep : ∀ (o : Option MeasurePoint), ∀ pt ∈ underDevice pts deviceid,
      (if pt.deviceid = "" then id else fun o => some (pt.fill (o.getD pt.measurePoint))) o =
        if deviceid = "" then o else some (pt.fill (o.getD pt.measurePoint)) := by
    intro o pt hpt
    have hpt : pt.deviceid = deviceid := by simpa using (List.mem_filter.mp hpt).2
    rw [hpt]
    split <;> rfl
  show (underDevice pts deviceid).foldl _ none = _
  rw [List.foldl_ext _ _ _ hstep]
  by_cases hd : deviceid = ""
  · simp only [hd, if_true]
    exact List.foldl_fixed _
  · simp only [hd, if_false]
    cases underDevice pts deviceid with
    | nil => rfl
    | cons pt rest =>
      rw [List.foldl_cons, foldl_pointAct_some, List.head?_cons, Option.map_some,
        List.flatMap_cons, List.foldl_append]
      rfl

theorem foldl_insertParam (ps : List Param) (p : MeasurePoint) :
    ps.foldl MeasurePoint.insertParam p = { p with
      paramList := ps.foldl (fun m a => if a.name = "" then m else upsert m a.name a id)
        p.paramList } := by
  induction ps generalizing p with
  | nil => rfl
  | cons a ps ih => rw [List.foldl_cons, ih, insertParam_eq]; rfl

theorem foldl_insertParam_attributes (ps : List Param) (pt : PointSpec) :
    (ps.foldl MeasurePoint.insertParam pt.measurePoint).attributes = pt.measurePoint := by
  rw [foldl_insertParam]
  rfl

theorem actsAt_enterParam (a : Param) :
    ActsAt (fun m => if a.name = "" then m else upsert m a.name a id) a.name
      (if a.name = "" then id else fun o => some (o.getD a)) := by
  intro m name
  by_cases ha : a.name = ""
  · simp [ha]
  · simp only [if_neg ha]
    exact actsAt_upsert _ _ id m name

/-- Under a name stands the first parameter of that name. -/
theorem getElem?_foldl_insertParam (ps : List Param) (pt : PointSpec) (name : String) :
    (ps.foldl MeasurePoint.insertParam pt.measurePoint).paramList[name]? =
      if name = "" then none else ps.find? fun a => a.name = name := by
  rw [foldl_insertParam]
  show (ps.foldl _ ∅)[name]? = _
  rw [getElem?_foldl actsAt_enterParam, Std.ExtTreeMap.getElem?_empty]
  have hstep : ∀ (o : Option Param), ∀ a ∈ ps.filter (fun a => decide (a.name = name)),
      (if a.name = "" then id else fun o => some (o.getD a)) o =
        if name = "" then o else some (o.getD a) := by
    intro o a ha
    have ha : a.name = name := by simpa using (List.mem_filter.mp ha).2
    rw [ha]
    split <;> rfl
  rw [List.foldl_ext _ _ _ hstep, ← List.head?_filter]
  by_cases hname : name = ""
  · simp only [hname, if_true]
    exact List.foldl_fixed _
  · simp only [hname, if_false]
    have hkeep : ∀ (as : List Param) (b : Param),
        as.foldl (fun o a => some (o.getD a)) (some b) = some b := by
      intro as b
      induction as with
      | nil => rfl
      | cons a as ih => exact ih
    cases ps.filter fun a => decide (a.name = name) with
    | nil => rfl
    | cons a as => exact hkeep as a

-- ════════════════════════════════════════════════════════════════════════
-- Units with different protocols or addresses
-- ════════════════════════════════════════════════════════════════════════

/-- A measure point of an element with the same protocol and address as `e`. -/
def IsOwnPoint (units : List UnitSpec) (e : UnitSpec) (attributes : MeasurePoint) : Prop :=
  ∃ v ∈ units, v.protocolname = e.protocolname ∧ v.mac = e.mac ∧
    ∃ pt ∈ v.points, attributes = pt.measurePoint

/-- The element is found under its key with its own attributes, and only with measure points
of its own. -/
def KeptAsOwn (units : List UnitSpec) (p : SerialPort) (e : UnitSpec) : Prop :=
  ∃ u, p.getMonitorUnitByName e.key = some u ∧ u.attributes = e.monitorUnit ∧
    ∀ (d : String) (mp : MeasurePoint), u.measurePointList[d]? = some mp →
      IsOwnPoint units e mp.attributes

/-- Both elements are kept, as two objects. -/
def KeptApart (units : List UnitSpec) (p : SerialPort) (e₁ e₂ : UnitSpec) : Prop :=
  e₁.key ≠ e₂.key ∧ KeptAsOwn units p e₁ ∧ KeptAsOwn units p e₂

/-- The first element that creates the unit under the key of `e` has the attributes of `e`,
and the first measure point under each device id that reaches it is one of its own. -/
def FirstUnderKey (units : List UnitSpec) (e : UnitSpec) : Prop :=
  (∀ s, (reaching units e.key).head? = some s → s.monitorUnit = e.monitorUnit) ∧
    ∀ (d : String) (pt : PointSpec), d ≠ "" →
      (underDevice (reachingPoints units e.key) d).head? = some pt →
      IsOwnPoint units e pt.measurePoint

/-- A named element reaches the unit under its key. -/
theorem mem_reaching {units : List UnitSpec} {e : UnitSpec} (he : e ∈ units) (hn : e.Named) :
    e ∈ reaching units e.key := by
  have hmem : e ∈ units.filter fun s => s.key = e.key := List.mem_filter.mpr ⟨he, by simp⟩
  rw [reaching]
  generalize units.filter (fun s => decide (s.key = e.key)) = l at hmem
  induction l with
  | nil => cases hmem
  | cons s l ih =>
    rw [List.dropWhile_cons]
    by_cases hs : s.Named
    · simpa [hs] using hmem
    · simp only [hs, not_false_eq_true, decide_true, if_true]
      refine ih ((List.mem_cons.mp hmem).resolve_left ?_)
      rintro rfl
      exact hs hn

theorem keptAsOwn_iff {units : List UnitSpec} (config : ComConfig) {e : UnitSpec} (he : e ∈ units)
    (hn : e.Named) :
    KeptAsOwn units (units.foldl SerialPort.addUnit { config := config }) e ↔
      FirstUnderKey units e := by
  obtain ⟨s, rest, hs⟩ : ∃ s rest, reaching units e.key = s :: rest :=
    List.exists_cons_of_ne_nil (List.ne_nil_of_mem (mem_reaching he hn))
  have hfound : (units.foldl SerialPort.addUnit { config := config }).getMonitorUnitByName e.key =
      some ((reachingPoints units e.key).foldl MonitorUnit.addPoint s.monitorUnit) := by
    rw [getMonitorUnitByName_foldl, hs]
    rfl
  have hattributes : ((reachingPoints units e.key).foldl MonitorUnit.addPoint
      s.monitorUnit).attributes = s.monitorUnit := by
    rw [foldl_addPoint]
    rfl
  rw [KeptAsOwn, FirstUnderKey]
  rw [hfound, hs]
  simp only [Option.some.injEq, exists_eq_left', hattributes, List.head?_cons, forall_eq']
  refine and_congr_right fun _ => ?_
  constructor
  · intro h d pt hd hpt
    have hentry := getElem?_foldl_addPoint (reachingPoints units e.key) s d
    rw [if_neg hd, hpt, Option.map_some] at hentry
    have hown := h d _ hentry
    rwa [foldl_insertParam_attributes] at hown
  · intro h d mp hmp
    rw [getElem?_foldl_addPoint] at hmp
    split at hmp
    · cases hmp
    · next hd =>
      obtain ⟨pt, hpt, rfl⟩ := Option.map_eq_some_iff.mp hmp
      rw [foldl_insertParam_attributes]
      exact h d pt hd hpt

/-- An element that is alone under its key. -/
theorem reachingPoints_of_alone {units : List UnitSpec} {e : UnitSpec}
    (h : reaching units e.key = [e]) : reachingPoints units e.key = e.points := by
  rw [reachingPoints, h, List.flatMap_singleton]

theorem firstUnderKey_of_alone {units : List UnitSpec} {e : UnitSpec} (he : e ∈ units)
    (h : reaching units e.key = [e]) : FirstUnderKey units e := by
  refine ⟨fun s hs => ?_, fun d pt _ hpt => ?_⟩
  · rw [h, List.head?_cons] at hs
    rw [← Option.some.inj hs]
  · rw [reachingPoints_of_alone h] at hpt
    exact ⟨e, he, rfl, rfl, pt, (List.mem_filter.mp (List.mem_of_head? hpt)).1, rfl⟩

/-- Two named elements on one port are kept apart exactly when their joined keys differ and
each is the first under its key. -/
theorem units_kept_apart_iff (catalogue : Option XmlDocument) (docs : List (Option XmlDocument))
    (ports : PortList) (hload : loadDocuments catalogue docs = .ok ports) (port : String)
    (p : SerialPort) (hp : ports[port]? = some p) (units : List UnitSpec)
    (hunits : units = attached (docs.filterMap (documentSpec catalogue)) port)
    (e₁ e₂ : UnitSpec) (he₁ : e₁ ∈ units) (he₂ : e₂ ∈ units) (hn₁ : e₁.Named) (hn₂ : e₂.Named) :
    KeptApart units p e₁ e₂ ↔
      e₁.key ≠ e₂.key ∧ FirstUnderKey units e₁ ∧ FirstUnderKey units e₂ := by
  obtain ⟨config, rfl⟩ := loaded_port hload hp
  subst hunits
  rw [KeptApart, keptAsOwn_iff config he₁ hn₁, keptAsOwn_iff config he₂ hn₂]

/-- A document that declares `COM1`, with units behind it. -/
def com1Units (units : List XmlNode) : XmlDocument :=
  [.element "package" [] (.element "RS485" [("name", "COM1"), ("desc", "")] [] :: units)]

def unitElement (protocolname mac : String) (points : List XmlNode) : XmlNode :=
  .element "MonitorUnit" [("name", "unit"), ("interval", "60000"), ("protocolname", protocolname),
    ("port", "COM1"), ("manufacturer", ""), ("cycleid", "1"), ("mac", mac), ("ytime", "")] points

def pointElement (deviceid id : String) (params : List String) : XmlNode :=
  .element "MeasurePoint" [("deviceid", deviceid), ("IEDName", ""), ("id", id), ("checktime", "")]
    (params.map fun name => .element "param" [("name", name)] [])

/-- The port that is loaded from one document. -/
theorem exists_port (catalogue : Option XmlDocument) (doc : XmlDocument) {α : Type}
    (f : SerialPort → α) (a : α)
    (h : ((loadDocuments catalogue [some doc]).toOption.bind fun ports => ports["COM1"]?).map f =
      some a) :
    ∃ ports p, loadDocuments catalogue [some doc] = .ok ports ∧ ports["COM1"]? = some p ∧
      f p = a := by
  obtain ⟨p, hp, hf⟩ := Option.map_eq_some_iff.mp h
  obtain ⟨ports, hports, hp⟩ := Option.bind_eq_some_iff.mp hp
  exact ⟨ports, p, eq_ok_of_toOption hports, hp, hf⟩

/-- Two addresses of one protocol. -/
theorem units_kept_apart_two_addresses :
    let doc := com1Units [unitElement "ZSAR" "1" [pointElement "D1" "a" []],
      unitElement "ZSAR" "2" [pointElement "D1" "a" []]]
    let units := attached ([some doc].filterMap (documentSpec none)) "COM1"
    ∃ ports p, loadDocuments none [some doc] = .ok ports ∧ ports["COM1"]? = some p ∧
      ∃ e₁ e₂, units = [e₁, e₂] ∧ KeptApart units p e₁ e₂ := by
  intro doc units
  obtain ⟨ports, p, hload, hp, -⟩ := exists_port none doc (fun _ => ()) () (by decide +kernel)
  have halone : ∃ e₁ ∈ units, ∃ e₂ ∈ units, units = [e₁, e₂] ∧ e₁.Named ∧ e₂.Named ∧
      e₁.key ≠ e₂.key ∧ reaching units e₁.key = [e₁] ∧ reaching units e₂.key = [e₂] := by
    decide +kernel
  obtain ⟨e₁, he₁, e₂, he₂, hunits, hn₁, hn₂, hkey, h₁, h₂⟩ := halone
  exact ⟨ports, p, hload, hp, e₁, e₂, hunits,
    (units_kept_apart_iff none [some doc] ports hload "COM1" p hp units rfl e₁ e₂ he₁ he₂ hn₁
      hn₂).mpr ⟨hkey, firstUnderKey_of_alone he₁ h₁, firstUnderKey_of_alone he₂ h₂⟩⟩

/-- `ZSAR1` at address 2 and `ZSAR` at address 12 have one key: the second unit is dropped, and
its measure point is entered at the first. -/
theorem joined_keys_collide :
    let doc := com1Units [unitElement "ZSAR1" "2" [],
      unitElement "ZSAR" "12" [pointElement "D1" "a" []]]
    let units := attached ([some doc].filterMap (documentSpec none)) "COM1"
    ∃ ports p, loadDocuments none [some doc] = .ok ports ∧ ports["COM1"]? = some p ∧
      (p.monitorUnitList.toList.map fun entry =>
        (entry.1, entry.2.protocolname, entry.2.mac, entry.2.measurePointList.keys)) =
          [("ZSAR12", "ZSAR1", "2", ["D1"])] ∧
      ∃ e₁ ∈ units, ∃ e₂ ∈ units, e₁.Named ∧ e₂.Named ∧
        (e₁.protocolname, e₁.mac) ≠ (e₂.protocolname, e₂.mac) ∧ ¬ KeptApart units p e₁ e₂ := by
  intro doc units
  obtain ⟨ports, p, hload, hp, hlist⟩ := exists_port none doc
    (fun p => p.monitorUnitList.toList.map fun entry =>
      (entry.1, entry.2.protocolname, entry.2.mac, entry.2.measurePointList.keys))
    [("ZSAR12", "ZSAR1", "2", ["D1"])] (by decide +kernel)
  refine ⟨ports, p, hload, hp, hlist, ?_⟩
  have hcollide : ∃ e₁ ∈ units, ∃ e₂ ∈ units, e₁.Named ∧ e₂.Named ∧
      (e₁.protocolname, e₁.mac) ≠ (e₂.protocolname, e₂.mac) ∧ e₁.key = e₂.key := by decide +kernel
  obtain ⟨e₁, he₁, e₂, he₂, hn₁, hn₂, hne, hkey⟩ := hcollide
  exact ⟨e₁, he₁, e₂, he₂, hn₁, hn₂, hne, fun h => h.1 hkey⟩

end DbdkyGcc.Device
