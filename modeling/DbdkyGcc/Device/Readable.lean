import DbdkyGcc.Device.Load

/-!
# When loading returns, and with what

Every function of `Device.Load` is paired with a total one, which takes an absent attribute
for the empty text, and with the exact condition under which it returns: every attribute
and text that it comes to read is there. Which ones it comes to read depends on what it has
found before, in the catalogue and in the model built so far.
-/

namespace DbdkyGcc.Device

open Foundations

-- ════════════════════════════════════════════════════════════════════════
-- The device catalogue
-- ════════════════════════════════════════════════════════════════════════

/-- The parameter with what the node of the catalogue adds to it. -/
def fullParam (param : Param) (n : XmlNode) : Param :=
  { param with
    desc := n.attrD "desc", unit := n.attrD "unit", precision := n.attrD "precision"
    range := n.attrD "range", filter := n.attrD "filter", addresslen := n.attrD "addresslen"
    address := n.attrD "address" }

def foundParam (paramname : String) (param : Param) (n : XmlNode) : Option Param :=
  if n.value = "param" ∧ n.attrD "name" = paramname then some (fullParam param n) else none

def foundInMeasurePoint (id paramname : String) (param : Param) (n : XmlNode) : Option Param :=
  if n.value = "MeasurePoint" ∧ n.attrD "name" = id then
    n.children.findSome? (foundParam paramname param)
  else none

def foundInDevice (deviceid id paramname : String) (param : Param) (n : XmlNode) : Option Param :=
  if n.value = "Device" ∧ deviceid = n.attrD "id" then
    n.children.findSome? (foundInMeasurePoint id paramname param)
  else none

/-- `getFullParams`, with absent attributes empty. -/
def fullParams (catalogue : Option XmlDocument) (deviceid id paramname : String) (param : Param) :
    Param :=
  ((substation catalogue).findSome? (foundInDevice deviceid id paramname param)).getD param

def ParamReadable (paramname : String) (n : XmlNode) : Prop :=
  n.value = "param" → n.Has ["name"] ∧ (n.attrD "name" = paramname → n.Has catalogueAttributes)

def MeasurePointReadable (id paramname : String) (param : Param) (n : XmlNode) : Prop :=
  n.value = "MeasurePoint" → n.Has ["name"] ∧ (n.attrD "name" = id →
    UntilFound (ParamReadable paramname) (foundParam paramname param) n.children)

def DeviceReadable (deviceid id paramname : String) (param : Param) (n : XmlNode) : Prop :=
  n.Has ["id"] ∧ (n.value = "Device" ∧ deviceid = n.attrD "id" →
    UntilFound (MeasurePointReadable id paramname param) (foundInMeasurePoint id paramname param)
      n.children)

/-- All that the search for a parameter comes to read is there. -/
def CatalogueReadable (catalogue : Option XmlDocument) (deviceid id paramname : String)
    (param : Param) : Prop :=
  UntilFound (DeviceReadable deviceid id paramname param)
    (foundInDevice deviceid id paramname param) (substation catalogue)

namespace XmlNode

@[simp] theorem has_nil (n : XmlNode) : n.Has [] ↔ n.isElement = true := by
  simp [Has]

theorem has_cons (n : XmlNode) (a : String) (as : List String) :
    n.Has (a :: as) ↔ (n.isElement = true ∧ (n.getAttribute a).isSome = true) ∧ n.Has as := by
  simp only [Has, List.forall_mem_cons]
  tauto

theorem has_singleton (n : XmlNode) (a : String) :
    n.Has [a] ↔ n.isElement = true ∧ (n.getAttribute a).isSome = true := by
  simp [Has]

end XmlNode

theorem readParam_guarded (param : Param) (n : XmlNode) :
    Guarded (readParam param n) (n.Has catalogueAttributes) (fullParam param n) := by
  refine ((n.attr_guarded "desc").bind fun _ => (n.attr_guarded "unit").bind fun _ =>
    (n.attr_guarded "precision").bind fun _ => (n.attr_guarded "range").bind fun _ =>
    (n.attr_guarded "filter").bind fun _ => (n.attr_guarded "addresslen").bind fun _ =>
    (n.attr_guarded "address").bind fun _ => Guarded.ok (fullParam param n)).congr ?_
  simp only [catalogueAttributes, XmlNode.has_cons, XmlNode.has_nil]
  tauto

theorem searchParam_guarded (paramname : String) (param : Param) (n : XmlNode) :
    Guarded (searchParam paramname param n) (ParamReadable paramname n)
      (foundParam paramname param n) := by
  rw [searchParam]
  refine ((Guarded.ite (fun _ => Guarded.ok none) fun _ => (n.attr_guarded "name").bind fun _ =>
    Guarded.ite (fun _ => Guarded.ok none) fun _ => (readParam_guarded param n).bind fun _ =>
      Guarded.ok (some (fullParam param n))).congr ?_).congr_value fun _ => ?_
  · simp only [ParamReadable, XmlNode.has_singleton, not_not]
    tauto
  · rw [foundParam]
    by_cases h : n.value = "param" <;> by_cases h' : n.attrD "name" = paramname <;> simp [h, h']

theorem searchMeasurePoint_guarded (id paramname : String) (param : Param) (n : XmlNode) :
    Guarded (searchMeasurePoint id paramname param n) (MeasurePointReadable id paramname param n)
      (foundInMeasurePoint id paramname param n) := by
  rw [searchMeasurePoint]
  refine ((Guarded.ite (fun _ => Guarded.ok none) fun _ => (n.attr_guarded "name").bind fun _ =>
    Guarded.ite (fun _ => Guarded.ok none) fun _ =>
      Guarded.findSomeM? (searchParam_guarded paramname param) n.children).congr ?_).congr_value
        fun _ => ?_
  · simp only [MeasurePointReadable, XmlNode.has_singleton, not_not]
    tauto
  · rw [foundInMeasurePoint]
    by_cases h : n.value = "MeasurePoint" <;> by_cases h' : n.attrD "name" = id <;> simp [h, h']

theorem searchDevice_guarded (deviceid id paramname : String) (param : Param) (n : XmlNode) :
    Guarded (searchDevice deviceid id paramname param n) (DeviceReadable deviceid id paramname param n)
      (foundInDevice deviceid id paramname param n) := by
  rw [searchDevice]
  refine (((n.attr_guarded "id").bind fun _ => Guarded.ite (fun _ => Guarded.ok none) fun _ =>
    Guarded.findSomeM? (searchMeasurePoint_guarded id paramname param) n.children).congr
      ?_).congr_value fun _ => ?_
  · simp only [DeviceReadable, XmlNode.has_singleton, not_or, not_not]
    tauto
  · rw [foundInDevice]
    by_cases h : n.value = "Device" <;> by_cases h' : deviceid = n.attrD "id" <;> simp [h, h']

theorem getFullParams_guarded (catalogue : Option XmlDocument) (deviceid id paramname : String)
    (param : Param) :
    Guarded (getFullParams catalogue deviceid id paramname param)
      (CatalogueReadable catalogue deviceid id paramname param)
      (fullParams catalogue deviceid id paramname param) := by
  rw [getFullParams]
  refine ((Guarded.findSomeM? (searchDevice_guarded deviceid id paramname param)
    (substation catalogue)).bind fun _ =>
      Guarded.ok (fullParams catalogue deviceid id paramname param)).congr ?_
  rw [and_true, CatalogueReadable]

-- ════════════════════════════════════════════════════════════════════════
-- What a document says
-- ════════════════════════════════════════════════════════════════════════

structure PointSpec where
  deviceid : String
  IEDName : String
  id : String
  checktime : String
  params : List Param
deriving DecidableEq

structure UnitSpec where
  name : String
  interval : String
  protocolname : String
  port : String
  manufacturer : String
  cycleid : String
  mac : String
  ytime : String
  points : List PointSpec
deriving DecidableEq

structure DocumentSpec where
  config : ComConfig
  units : List UnitSpec
deriving DecidableEq

/-- The parameter a node names, with what the catalogue says of it. -/
def paramSpec (catalogue : Option XmlDocument) (deviceid id : String) (n : XmlNode) :
    Option Param :=
  if isNode "param" n then
    some (fullParams catalogue deviceid id (n.attrD "name") { name := n.attrD "name" })
  else none

def pointOf (catalogue : Option XmlDocument) (n : XmlNode) : PointSpec where
  deviceid := n.attrD "deviceid"
  IEDName := n.attrD "IEDName"
  id := n.attrD "id"
  checktime := n.attrD "checktime"
  params := n.children.filterMap (paramSpec catalogue (n.attrD "deviceid") (n.attrD "id"))

def pointSpec (catalogue : Option XmlDocument) (n : XmlNode) : Option PointSpec :=
  if isNode "MeasurePoint" n then some (pointOf catalogue n) else none

def unitOf (catalogue : Option XmlDocument) (n : XmlNode) : UnitSpec where
  name := n.attrD "name"
  interval := n.attrD "interval"
  protocolname := n.attrD "protocolname"
  port := n.attrD "port"
  manufacturer := n.attrD "manufacturer"
  cycleid := n.attrD "cycleid"
  mac := n.attrD "mac"
  ytime := n.attrD "ytime"
  points := n.children.filterMap (pointSpec catalogue)

def unitSpec (catalogue : Option XmlDocument) (n : XmlNode) : Option UnitSpec :=
  if isNode "MonitorUnit" n then some (unitOf catalogue n) else none

def configSpec (inside : XmlNode) : ComConfig :=
  inside.children.foldl (fun c n => c.setElement n.value n.textD)
    { name := inside.attrD "name", desc := inside.attrD "desc" }

/-- A document without a named `RS485` element says nothing. -/
def documentSpec (catalogue : Option XmlDocument) (doc : Option XmlDocument) :
    Option DocumentSpec :=
  match rs485 doc with
  | none => none
  | some (inside, rest) =>
    if inside.attrD "name" = "" then none
    else some { config := configSpec inside, units := rest.filterMap (unitSpec catalogue) }

-- ════════════════════════════════════════════════════════════════════════
-- What is made of it
-- ════════════════════════════════════════════════════════════════════════

def MonitorUnit.addPoint (u : MonitorUnit) (pt : PointSpec) : MonitorUnit :=
  pt.params.foldl (fun u param => u.addParam pt.deviceid param)
    (u.insertMeasurePoint pt.deviceid pt.IEDName pt.id pt.checktime)

/-- The key that insertion, `load` and the timers build. -/
def UnitSpec.key (s : UnitSpec) : String := s.protocolname ++ s.mac

def SerialPort.addPoint (key : String) (p : SerialPort) (pt : PointSpec) : SerialPort :=
  match p.getMonitorUnitByName key with
  | none => p
  | some u => { p with monitorUnitList := p.monitorUnitList.insert key (u.addPoint pt) }

def SerialPort.insertUnit (p : SerialPort) (s : UnitSpec) : SerialPort :=
  p.insertMonitorUnit s.name s.interval s.protocolname s.mac s.manufacturer s.cycleid s.ytime

def SerialPort.addUnit (p : SerialPort) (s : UnitSpec) : SerialPort :=
  s.points.foldl (SerialPort.addPoint s.key) (p.insertUnit s)

def addUnit (ports : PortList) (s : UnitSpec) : PortList :=
  match getSerialPortByName ports s.port with
  | none => ports
  | some p => ports.insert s.port (p.addUnit s)

def addDocument (ports : PortList) (d : DocumentSpec) : PortList :=
  d.units.foldl addUnit (insertSerialPort ports d.config)

/-- What `load` builds. -/
def loaded (catalogue : Option XmlDocument) (docs : List (Option XmlDocument)) : PortList :=
  (docs.filterMap (documentSpec catalogue)).foldl addDocument ∅

-- ════════════════════════════════════════════════════════════════════════
-- When it is built
-- ════════════════════════════════════════════════════════════════════════

def unitAttributes : List String :=
  ["name", "interval", "protocolname", "port", "manufacturer", "cycleid", "mac", "ytime"]

def pointAttributes : List String := ["deviceid", "IEDName", "id", "checktime"]

def ParamNodeReadable (catalogue : Option XmlDocument) (deviceid id : String) (n : XmlNode) :
    Prop :=
  isNode "param" n = true → n.Has ["name"] ∧
    CatalogueReadable catalogue deviceid id (n.attrD "name") { name := n.attrD "name" }

/-- The parameters are only looked at when the unit was found. -/
def PointNodeReadable (catalogue : Option XmlDocument) (found : Bool) (n : XmlNode) : Prop :=
  isNode "MeasurePoint" n = true → n.Has pointAttributes ∧ (found = true →
    ∀ c ∈ n.children, ParamNodeReadable catalogue (n.attrD "deviceid") (n.attrD "id") c)

/-- The measure points are only looked at when the port is known. -/
def UnitNodeReadable (catalogue : Option XmlDocument) (ports : PortList) (n : XmlNode) : Prop :=
  isNode "MonitorUnit" n = true → n.Has unitAttributes ∧
    ∀ p, getSerialPortByName ports (n.attrD "port") = some p → ∀ c ∈ n.children,
      PointNodeReadable catalogue ((p.insertUnit (unitOf catalogue n)).getMonitorUnitByName
        (unitOf catalogue n).key).isSome c

/-- One step of the loop over the nodes behind `RS485`. -/
def addUnitNode (catalogue : Option XmlDocument) (ports : PortList) (n : XmlNode) : PortList :=
  (unitSpec catalogue n).elim ports (addUnit ports)

def DocumentReadable (catalogue : Option XmlDocument) (ports : PortList)
    (doc : Option XmlDocument) : Prop :=
  ∀ inside rest, rs485 doc = some (inside, rest) → inside.Has ["name"] ∧
    (inside.attrD "name" ≠ "" → inside.Has ["desc"] ∧
      (∀ c ∈ inside.children, c.isElement = true ∧ c.getText.isSome = true) ∧
      AllSteps (UnitNodeReadable catalogue) (addUnitNode catalogue)
        (insertSerialPort ports (configSpec inside)) rest)

/-- One step of the loop over the files. -/
def addDocumentNode (catalogue : Option XmlDocument) (ports : PortList)
    (doc : Option XmlDocument) : PortList :=
  (documentSpec catalogue doc).elim ports (addDocument ports)

/-- All that `load` comes to read is there. -/
def Readable (catalogue : Option XmlDocument) (docs : List (Option XmlDocument)) : Prop :=
  AllSteps (DocumentReadable catalogue) (addDocumentNode catalogue) ∅ docs

theorem readConfigElement_guarded (c : ComConfig) (n : XmlNode) :
    Guarded (readConfigElement c n) (n.isElement = true ∧ n.getText.isSome = true)
      (c.setElement n.value n.textD) := by
  rw [readConfigElement]
  exact (n.getString_guarded.bind fun _ => Guarded.ok (c.setElement n.value n.textD)).congr
    (and_iff_left trivial)

/-- One step of the loop over the nodes of a measure point. -/
def MonitorUnit.addParamNode (catalogue : Option XmlDocument) (deviceid id : String)
    (u : MonitorUnit) (n : XmlNode) : MonitorUnit :=
  (paramSpec catalogue deviceid id n).elim u (u.addParam deviceid)

theorem loadParam_guarded (catalogue : Option XmlDocument) (deviceid id : String)
    (u : MonitorUnit) (n : XmlNode) :
    Guarded (loadParam catalogue deviceid id u n) (ParamNodeReadable catalogue deviceid id n)
      (u.addParamNode catalogue deviceid id n) := by
  rw [loadParam]
  refine ((Guarded.ite (fun _ => (n.attr_guarded "name").bind fun _ =>
    (getFullParams_guarded catalogue deviceid id (n.attrD "name") { name := n.attrD "name" }).bind
      fun _ => Guarded.ok (u.addParam deviceid (fullParams catalogue deviceid id (n.attrD "name")
        { name := n.attrD "name" }))) fun _ => Guarded.ok u).congr ?_).congr_value fun _ => ?_
  · simp only [ParamNodeReadable, XmlNode.has_singleton]
    tauto
  · rw [MonitorUnit.addParamNode, paramSpec]
    by_cases h : isNode "param" n = true <;> simp [h]

/-- A loop that skips what says nothing is the loop over what is said. -/
theorem foldl_elim_eq {α β σ : Type} (f : α → Option β) (g : σ → β → σ) (xs : List α) (s : σ) :
    xs.foldl (fun s x => (f x).elim s (g s)) s = (xs.filterMap f).foldl g s := by
  rw [List.foldl_filterMap]
  congr
  funext s x
  cases f x <;> rfl

/-- One step of the loop over the nodes of a unit. -/
def SerialPort.addPointNode (catalogue : Option XmlDocument) (key : String) (p : SerialPort)
    (n : XmlNode) : SerialPort :=
  (pointSpec catalogue n).elim p (p.addPoint key)

theorem attachMeasurePoint_guarded (catalogue : Option XmlDocument) (key : String) (p : SerialPort)
    (n : XmlNode) :
    Guarded (attachMeasurePoint catalogue key p n.children (n.attrD "deviceid") (n.attrD "IEDName")
        (n.attrD "id") (n.attrD "checktime"))
      ((p.getMonitorUnitByName key).isSome = true →
        ∀ c ∈ n.children, ParamNodeReadable catalogue (n.attrD "deviceid") (n.attrD "id") c)
      (p.addPoint key (pointOf catalogue n)) := by
  rw [attachMeasurePoint, SerialPort.addPoint]
  cases hu : p.getMonitorUnitByName key with
  | none => exact (Guarded.ok p).congr (by simp)
  | some u =>
    have hvalue : n.children.foldl (MonitorUnit.addParamNode catalogue (n.attrD "deviceid")
        (n.attrD "id")) (u.insertMeasurePoint (n.attrD "deviceid") (n.attrD "IEDName")
          (n.attrD "id") (n.attrD "checktime")) = u.addPoint (pointOf catalogue n) :=
      foldl_elim_eq _ _ _ _
    have hparams := Guarded.foldlM (loadParam_guarded catalogue (n.attrD "deviceid")
      (n.attrD "id")) n.children (u.insertMeasurePoint (n.attrD "deviceid") (n.attrD "IEDName")
        (n.attrD "id") (n.attrD "checktime"))
    rw [allSteps_const, hvalue] at hparams
    let entered := p.monitorUnitList.insert key (u.addPoint (pointOf catalogue n))
    refine (hparams.bind fun _ => Guarded.ok { p with monitorUnitList := entered }).congr ?_
    simp

theorem loadMeasurePoint_guarded (catalogue : Option XmlDocument) (key : String) (p : SerialPort)
    (n : XmlNode) :
    Guarded (loadMeasurePoint catalogue key p n)
      (PointNodeReadable catalogue (p.getMonitorUnitByName key).isSome n)
      (p.addPointNode catalogue key n) := by
  rw [loadMeasurePoint]
  refine ((Guarded.ite (fun _ => (n.attr_guarded "deviceid").bind fun _ =>
    (n.attr_guarded "IEDName").bind fun _ => (n.attr_guarded "id").bind fun _ =>
    (n.attr_guarded "checktime").bind fun _ => attachMeasurePoint_guarded catalogue key p n)
    fun _ => Guarded.ok p).congr ?_).congr_value fun _ => ?_
  · simp only [PointNodeReadable, pointAttributes, XmlNode.has_cons, XmlNode.has_nil]
    constructor
    · rintro ⟨h, -⟩ hn
      obtain ⟨h1, h2, h3, h4, hparams⟩ := h hn
      exact ⟨⟨h1, h2, h3, h4, h1.1⟩, hparams⟩
    · refine fun h => ⟨fun hn => ?_, fun _ => trivial⟩
      obtain ⟨⟨h1, h2, h3, h4, -⟩, hparams⟩ := h hn
      exact ⟨h1, h2, h3, h4, hparams⟩
  · rw [SerialPort.addPointNode, pointSpec]
    by_cases h : isNode "MeasurePoint" n = true <;> simp [h]

/-- Whether a unit is there does not change while measure points are added. -/
theorem isSome_getMonitorUnitByName_addPointNode (catalogue : Option XmlDocument) (key : String)
    (p : SerialPort) (n : XmlNode) :
    ((p.addPointNode catalogue key n).getMonitorUnitByName key).isSome =
      (p.getMonitorUnitByName key).isSome := by
  rw [SerialPort.addPointNode]
  cases pointSpec catalogue n with
  | none => rfl
  | some pt =>
    rw [Option.elim_some, SerialPort.addPoint]
    cases hu : p.getMonitorUnitByName key with
    | none => rw [hu]
    | some u =>
      have hkey : key ≠ "" := by
        rintro rfl
        cases hu
      simp [SerialPort.getMonitorUnitByName, lookup, hkey]

theorem attachMonitorUnit_guarded (catalogue : Option XmlDocument) (ports : PortList)
    (n : XmlNode) :
    Guarded (attachMonitorUnit catalogue ports n.children (n.attrD "name") (n.attrD "interval")
        (n.attrD "protocolname") (n.attrD "port") (n.attrD "manufacturer") (n.attrD "cycleid")
        (n.attrD "mac") (n.attrD "ytime"))
      (∀ p, getSerialPortByName ports (n.attrD "port") = some p → ∀ c ∈ n.children,
        PointNodeReadable catalogue ((p.insertUnit (unitOf catalogue n)).getMonitorUnitByName
          (unitOf catalogue n).key).isSome c)
      (addUnit ports (unitOf catalogue n)) := by
  rw [attachMonitorUnit, addUnit]
  show Guarded (match getSerialPortByName ports (n.attrD "port") with | none => _ | some p => _) _
    (match getSerialPortByName ports (n.attrD "port") with | none => _ | some p => _)
  cases hp : getSerialPortByName ports (n.attrD "port") with
  | none => exact (Guarded.ok ports).congr (by simp)
  | some p =>
    have hvalue : n.children.foldl (SerialPort.addPointNode catalogue (unitOf catalogue n).key)
        (p.insertUnit (unitOf catalogue n)) = p.addUnit (unitOf catalogue n) :=
      foldl_elim_eq _ _ _ _
    have hpoints := Guarded.foldlM (loadMeasurePoint_guarded catalogue (unitOf catalogue n).key)
      n.children (p.insertUnit (unitOf catalogue n))
    rw [allSteps_of_stable (fun p : SerialPort =>
      (p.getMonitorUnitByName (unitOf catalogue n).key).isSome) (PointNodeReadable catalogue) _
      (isSome_getMonitorUnitByName_addPointNode catalogue _), hvalue] at hpoints
    refine (hpoints.bind fun _ => Guarded.ok
      (ports.insert (n.attrD "port") (p.addUnit (unitOf catalogue n)))).congr ?_
    simp

theorem loadMonitorUnit_guarded (catalogue : Option XmlDocument) (ports : PortList)
    (n : XmlNode) :
    Guarded (loadMonitorUnit catalogue ports n) (UnitNodeReadable catalogue ports n)
      (addUnitNode catalogue ports n) := by
  rw [loadMonitorUnit]
  refine ((Guarded.ite (fun _ => (n.attr_guarded "name").bind fun _ =>
    (n.attr_guarded "interval").bind fun _ => (n.attr_guarded "protocolname").bind fun _ =>
    (n.attr_guarded "port").bind fun _ => (n.attr_guarded "manufacturer").bind fun _ =>
    (n.attr_guarded "cycleid").bind fun _ => (n.attr_guarded "mac").bind fun _ =>
    (n.attr_guarded "ytime").bind fun _ => attachMonitorUnit_guarded catalogue ports n)
    fun _ => Guarded.ok ports).congr ?_).congr_value fun _ => ?_
  · simp only [UnitNodeReadable, unitAttributes, XmlNode.has_cons, XmlNode.has_nil]
    constructor
    · rintro ⟨h, -⟩ hn
      obtain ⟨h1, h2, h3, h4, h5, h6, h7, h8, hpoints⟩ := h hn
      exact ⟨⟨h1, h2, h3, h4, h5, h6, h7, h8, h1.1⟩, hpoints⟩
    · refine fun h => ⟨fun hn => ?_, fun _ => trivial⟩
      obtain ⟨⟨h1, h2, h3, h4, h5, h6, h7, h8, -⟩, hpoints⟩ := h hn
      exact ⟨h1, h2, h3, h4, h5, h6, h7, h8, hpoints⟩
  · rw [addUnitNode, unitSpec]
    by_cases h : isNode "MonitorUnit" n = true <;> simp [h]

theorem loadDocument_guarded (catalogue : Option XmlDocument) (ports : PortList)
    (doc : Option XmlDocument) :
    Guarded (loadDocument catalogue ports doc) (DocumentReadable catalogue ports doc)
      (addDocumentNode catalogue ports doc) := by
  rw [loadDocument, addDocumentNode, documentSpec, DocumentReadable]
  cases hdoc : rs485 doc with
  | none => exact (Guarded.ok ports).congr (by simp)
  | some r =>
    obtain ⟨inside, rest⟩ := r
    have hconfig := Guarded.foldlM readConfigElement_guarded inside.children
      { name := inside.attrD "name", desc := inside.attrD "desc" }
    rw [allSteps_const] at hconfig
    have hunits := Guarded.foldlM (loadMonitorUnit_guarded catalogue) rest
      (insertSerialPort ports (configSpec inside))
    refine (((inside.attr_guarded "name").bind fun _ => Guarded.ite (fun _ => Guarded.ok ports)
      fun _ => (inside.attr_guarded "desc").bind fun _ => hconfig.bind fun _ => hunits).congr
        ?_).congr_value fun _ => ?_
    · simp only [XmlNode.has_singleton, Option.some.injEq, Prod.mk.injEq]
      constructor
      · rintro ⟨hname, -, hrest⟩ _ _ ⟨rfl, rfl⟩
        exact ⟨hname, hrest⟩
      · intro h
        obtain ⟨hname, hrest⟩ := h inside rest ⟨rfl, rfl⟩
        exact ⟨hname, fun _ => trivial, hrest⟩
    · by_cases h : inside.attrD "name" = ""
      · simp [h]
      · simp only [h, if_false]
        exact foldl_elim_eq _ _ _ _

theorem loadDocuments_guarded (catalogue : Option XmlDocument) (docs : List (Option XmlDocument)) :
    Guarded (loadDocuments catalogue docs) (Readable catalogue docs) (loaded catalogue docs) := by
  have h := Guarded.foldlM (loadDocument_guarded catalogue) docs ∅
  exact h.congr_value fun _ => foldl_elim_eq _ _ _ _

/-- Neither function meets a null pointer exactly when every attribute and text that it comes
to read is there. -/
theorem load_returns_iff (catalogue : Option XmlDocument) (deviceid id paramname : String)
    (param : Param) (readlink : Option String) (files : String → Option XmlDocument)
    (d : DeviceManager) :
    ((∃ p, getFullParams catalogue deviceid id paramname param = .ok p) ↔
      CatalogueReadable catalogue deviceid id paramname param) ∧
    ((∃ d', d.load readlink files = .ok d') ↔
      ∀ path, readlink.bind (beforeLast "dbdky_gcc") = some path →
        Readable (files (path ++ d.devicetotalname))
          (d.configfiles.map fun f => files (path ++ f))) := by
  refine ⟨(getFullParams_guarded catalogue deviceid id paramname param).returns_iff, ?_⟩
  rw [DeviceManager.load]
  cases readlink.bind (beforeLast "dbdky_gcc") with
  | none => simp
  | some path =>
    simp only [bind_eq_ok_iff, Option.some.injEq, forall_eq',
      ← (loadDocuments_guarded _ _).returns_iff]
    constructor
    · rintro ⟨_, ports, hports, -⟩
      exact ⟨ports, hports⟩
    · rintro ⟨ports, hports⟩
      exact ⟨_, ports, hports, rfl⟩

/-- A document with a comment in front of the settings of its port. -/
def commentedDocument : XmlDocument :=
  [.element "package" [] [.element "RS485" [("name", "COM1"), ("desc", "")]
    [.comment "settings", .element "PortName" [] [.text "/dev/ttyS1"]]]]

/-- The text of the comment is asked of a null element. -/
theorem load_reads_comment_as_element :
    ¬ ∃ d', DeviceManager.load (some "/opt/dbdky_gcc")
      (fun f => if f = "/opt/com1.xml" then some commentedDocument else none)
      { devicetotalname := "DeviceTotal_v1.0.xml", deviceconfigpath := "./"
        configfiles := ["com1.xml"], serialPortList := ∅ } = .ok d' := by
  rintro ⟨d', h⟩
  have hnull : (DeviceManager.load (some "/opt/dbdky_gcc")
      (fun f => if f = "/opt/com1.xml" then some commentedDocument else none)
      { devicetotalname := "DeviceTotal_v1.0.xml", deviceconfigpath := "./"
        configfiles := ["com1.xml"], serialPortList := ∅ }).toOption.isNone = true := by
    decide +kernel
  rw [h] at hnull
  cases hnull

end DbdkyGcc.Device
