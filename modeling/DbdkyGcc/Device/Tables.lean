import DbdkyGcc.Device.Readable

/-!
# Loading as writing into tables

Each level of the model is a table whose first writer wins. This module says so: entering a
measure point, a unit or a document is a step that acts at one key of its table, and what
it does there is to enter the object unless there is one, and to work on it.
-/

namespace DbdkyGcc.Device

open Foundations

section WriteBack

variable {α β : Type}

/-- An object is found, changed and stays where it is; nothing happens when it is not
found. -/
def writeBack (m : Std.ExtTreeMap String β) (k : String) (f : β → β) : Std.ExtTreeMap String β :=
  match lookup m k with
  | none => m
  | some b => m.insert k (f b)

theorem actsAt_writeBack (k : String) (f : β → β) :
    ActsAt (fun m => writeBack m k f) k (if k = "" then id else Option.map f) := by
  intro m a
  unfold writeBack lookup
  by_cases hk : k = ""
  · simp [hk]
  · simp only [if_neg hk]
    cases hm : m[k]? with
    | none =>
      by_cases ha : k = a
      · subst ha
        simp [hm]
      · simp [ha]
    | some b =>
      by_cases ha : k = a
      · subst ha
        simp [hm]
      · simp [Std.ExtTreeMap.getElem?_insert, ha]

/-- Changes of one object, one after another. -/
theorem foldl_writeBack (k : String) (f : α → β → β) (xs : List α) (m : Std.ExtTreeMap String β) :
    xs.foldl (fun m x => writeBack m k (f x)) m =
      writeBack m k fun b => xs.foldl (fun b x => f x b) b := by
  induction xs generalizing m with
  | nil =>
    refine (ActsAt.ext (actsAt_writeBack k _) (t := id) (k := k) (g := id) ?_ ?_ m).symm
    · intro m a
      simp
    · intro o
      by_cases hk : k = "" <;> simp [hk]
  | cons x xs ih =>
    rw [List.foldl_cons, ih]
    refine ActsAt.ext ((actsAt_writeBack k _).comp (actsAt_writeBack k _))
      (actsAt_writeBack k _) (fun o => ?_) m
    by_cases hk : k = "" <;> simp [hk, Function.comp_def]

/-- Entering an object unless it is there and then changing it. -/
theorem writeBack_insertIfNew {k : String} (hk : k ≠ "") (v : β) (f : β → β)
    (m : Std.ExtTreeMap String β) : writeBack (m.insertIfNew k v) k f = upsert m k v f := by
  rw [insertIfNew_eq_upsert]
  refine ActsAt.ext ((actsAt_writeBack k f).comp (actsAt_upsert k v id)) (actsAt_upsert k v f)
    (fun o => ?_) m
  simp [hk]

theorem foldl_optionMap (f : α → β → β) (xs : List α) (o : Option β) :
    xs.foldl (fun o x => o.map (f x)) o = o.map fun b => xs.foldl (fun b x => f x b) b := by
  induction xs generalizing o with
  | nil => simp
  | cons x xs ih => rw [List.foldl_cons, ih, Option.map_map]; rfl

end WriteBack

/-- The object that is created for a measure point. -/
def PointSpec.measurePoint (pt : PointSpec) : MeasurePoint where
  deviceid := pt.deviceid
  IEDName := pt.IEDName
  id := pt.id
  checktime := pt.checktime

/-- The parameters entered into a measure point. -/
def PointSpec.fill (pt : PointSpec) (p : MeasurePoint) : MeasurePoint :=
  pt.params.foldl MeasurePoint.insertParam p

def PointSpec.enter (pt : PointSpec) (m : Std.ExtTreeMap String MeasurePoint) :
    Std.ExtTreeMap String MeasurePoint :=
  if pt.deviceid = "" then m else upsert m pt.deviceid pt.measurePoint pt.fill

theorem addParam_eq (u : MonitorUnit) (deviceid : String) (param : Param) :
    u.addParam deviceid param = { u with
      measurePointList := writeBack u.measurePointList deviceid (·.insertParam param) } := by
  rw [MonitorUnit.addParam, MonitorUnit.getMeasurePointByDeviceid, writeBack]
  cases lookup u.measurePointList deviceid <;> rfl

theorem addPoint_eq (u : MonitorUnit) (pt : PointSpec) :
    u.addPoint pt = { u with measurePointList := pt.enter u.measurePointList } := by
  have hfold : ∀ (ps : List Param) (u : MonitorUnit),
      ps.foldl (fun u param => u.addParam pt.deviceid param) u = { u with
        measurePointList := ps.foldl
          (fun m param => writeBack m pt.deviceid (·.insertParam param)) u.measurePointList } := by
    intro ps
    induction ps with
    | nil => intro u; rfl
    | cons p ps ih => intro u; rw [List.foldl_cons, ih, addParam_eq]; rfl
  rw [MonitorUnit.addPoint, hfold, foldl_writeBack]
  rw [MonitorUnit.insertMeasurePoint, PointSpec.enter]
  by_cases hd : pt.deviceid = ""
  · simp [hd, writeBack, lookup]
  · rw [if_neg hd, if_neg hd]
    congr 1
    exact writeBack_insertIfNew hd pt.measurePoint pt.fill u.measurePointList

/-- The guard of `insertMonitorUnit`. -/
def UnitSpec.Named (s : UnitSpec) : Prop := s.name ≠ "" ∧ s.protocolname ≠ "" ∧ s.mac ≠ ""

instance (s : UnitSpec) : Decidable s.Named := inferInstanceAs (Decidable (_ ∧ _ ∧ _))

/-- The object that is created for a monitor unit. -/
def UnitSpec.monitorUnit (s : UnitSpec) : MonitorUnit where
  name := s.name
  interval := s.interval
  protocolname := s.protocolname
  mac := s.mac
  manufacturer := s.manufacturer
  cycleid := s.cycleid
  ytime := s.ytime

/-- The measure points entered into a unit. -/
def UnitSpec.fill (s : UnitSpec) (u : MonitorUnit) : MonitorUnit :=
  s.points.foldl MonitorUnit.addPoint u

def UnitSpec.enter (s : UnitSpec) (m : Std.ExtTreeMap String MonitorUnit) :
    Std.ExtTreeMap String MonitorUnit :=
  if s.Named then upsert m s.key s.monitorUnit s.fill else writeBack m s.key s.fill

theorem UnitSpec.Named.key_ne {s : UnitSpec} (h : s.Named) : s.key ≠ "" := by
  intro hk
  have hlen := congrArg String.length hk
  rw [UnitSpec.key, String.length_append] at hlen
  exact h.2.1 (String.length_eq_zero_iff.mp (by simpa using (Nat.add_eq_zero_iff.mp hlen).1))

theorem portAddPoint_eq (key : String) (p : SerialPort) (pt : PointSpec) :
    p.addPoint key pt = { p with
      monitorUnitList := writeBack p.monitorUnitList key (·.addPoint pt) } := by
  rw [SerialPort.addPoint, SerialPort.getMonitorUnitByName, writeBack]
  cases lookup p.monitorUnitList key <;> rfl

theorem portAddUnit_eq (p : SerialPort) (s : UnitSpec) :
    p.addUnit s = { p with monitorUnitList := s.enter p.monitorUnitList } := by
  have hfold : ∀ (pts : List PointSpec) (p : SerialPort),
      pts.foldl (SerialPort.addPoint s.key) p = { p with
        monitorUnitList := pts.foldl (fun m pt => writeBack m s.key (·.addPoint pt))
          p.monitorUnitList } := by
    intro pts
    induction pts with
    | nil => intro p; rfl
    | cons pt pts ih => intro p; rw [List.foldl_cons, ih, portAddPoint_eq]; rfl
  rw [SerialPort.addUnit, hfold, foldl_writeBack]
  rw [SerialPort.insertUnit, SerialPort.insertMonitorUnit, UnitSpec.enter]
  by_cases hs : s.Named
  · rw [if_neg (by unfold UnitSpec.Named at hs; tauto), if_pos hs]
    congr 1
    exact writeBack_insertIfNew hs.key_ne s.monitorUnit s.fill p.monitorUnitList
  · rw [if_pos (by unfold UnitSpec.Named at hs; tauto), if_neg hs]
    rfl

theorem addUnit_eq (ports : PortList) (s : UnitSpec) :
    addUnit ports s = writeBack ports s.port (·.addUnit s) := by
  rw [addUnit, getSerialPortByName, writeBack]
  cases lookup ports s.port <;> rfl

/-- The units of a document that name the port. -/
def DocumentSpec.unitsOn (d : DocumentSpec) (port : String) : List UnitSpec :=
  d.units.filter fun s => s.port = port

/-- What a document does to one port: declare it, if it is its own, and enter its units. -/
def DocumentSpec.act (d : DocumentSpec) (port : String) (o : Option SerialPort) :
    Option SerialPort :=
  (if d.config.name = port then some (o.getD { config := d.config }) else o).map fun p =>
    (d.unitsOn port).foldl SerialPort.addUnit p

theorem actsAt_addUnit (s : UnitSpec) :
    ActsAt (addUnit · s) s.port (if s.port = "" then id else Option.map (·.addUnit s)) := by
  simp only [addUnit_eq]
  exact actsAt_writeBack _ _

theorem getElem?_insertSerialPort (ports : PortList) (config : ComConfig) (port : String) :
    (insertSerialPort ports config)[port]? =
      if config.name = port ∧ port ≠ "" then some (ports[port]?.getD { config := config })
      else ports[port]? := by
  rw [insertSerialPort]
  by_cases hname : config.name = ""
  · rw [if_pos hname, if_neg]
    rintro ⟨rfl, h⟩
    exact h hname
  · rw [if_neg hname, insertIfNew_eq_upsert, actsAt_upsert _ _ id ports port]
    by_cases hport : config.name = port
    · subst hport
      simp [hname]
    · simp [hport]

/-- Every port is changed by what the document does to it; none is entered under the empty
name. -/
theorem getElem?_addDocument (ports : PortList) (d : DocumentSpec) (port : String) :
    (addDocument ports d)[port]? = if port = "" then ports[port]? else d.act port ports[port]? := by
  rw [addDocument, getElem?_foldl actsAt_addUnit, getElem?_insertSerialPort]
  have hstep : ∀ (o : Option SerialPort), ∀ s ∈ d.units.filter (fun s => decide (s.port = port)),
      (if s.port = "" then id else Option.map (·.addUnit s)) o =
        if port = "" then o else o.map (·.addUnit s) := by
    intro o s hs
    have hs : s.port = port := by simpa using (List.mem_filter.mp hs).2
    rw [hs]
    split <;> rfl
  rw [List.foldl_ext _ _ _ hstep]
  by_cases hport : port = ""
  · simp only [hport, ne_eq, not_true, and_false, if_false, if_true]
    exact List.foldl_fixed _
  · simp only [hport, ne_eq, not_false_eq_true, and_true, if_false, foldl_optionMap]
    rfl

end DbdkyGcc.Device
