import DbdkyGcc.Device.Tables

/-!
# The order of the files

The directory is read in no particular order. Since the first writer wins at every level,
two documents may be exchanged when they would create the same objects wherever they meet
(`Agree`), and then the whole list may be permuted.
-/

namespace DbdkyGcc.Device

open Foundations

/-- Two measure points under one device id create the same object. -/
def PointSpec.Agrees (pt pt' : PointSpec) : Prop :=
  pt.deviceid = pt'.deviceid → pt.deviceid ≠ "" → pt.measurePoint = pt'.measurePoint

/-- Two units under one key of one port create the same object, and so do their measure
points. -/
def UnitSpec.Agrees (s s' : UnitSpec) : Prop :=
  s.port = s'.port → s.key = s'.key → s.monitorUnit = s'.monitorUnit ∧
    ∀ pt ∈ s.points, ∀ pt' ∈ s'.points, pt.Agrees pt'

/-- Two documents that declare one port declare it alike, neither has a unit on a port that
only the other declares, and their units agree. -/
structure Agree (d d' : DocumentSpec) : Prop where
  config : d.config.name = d'.config.name → d.config = d'.config
  own : ∀ s ∈ d.units, s.port = d'.config.name → s.port = d.config.name
  own' : ∀ s ∈ d'.units, s.port = d.config.name → s.port = d'.config.name
  units : ∀ s ∈ d.units, ∀ s' ∈ d'.units, s.Agrees s'

/-- The parameters are what the catalogue says for the device, the id and the name. -/
def PointSpec.FromCatalogue (catalogue : Option XmlDocument) (pt : PointSpec) : Prop :=
  ∀ a ∈ pt.params, a = fullParams catalogue pt.deviceid pt.id a.name { name := a.name }

theorem findSome?_inv {α β : Type} {f : α → Option β} {P : β → Prop}
    (h : ∀ x b, f x = some b → P b) {xs : List α} {b : β} (hb : xs.findSome? f = some b) : P b := by
  obtain ⟨x, -, hx⟩ := List.exists_of_findSome?_eq_some hb
  exact h x b hx

/-- The catalogue does not change the name of a parameter. -/
theorem fullParams_name (catalogue : Option XmlDocument) (deviceid id paramname : String)
    (param : Param) : (fullParams catalogue deviceid id paramname param).name = param.name := by
  have hparam : ∀ n b, foundParam paramname param n = some b → b.name = param.name := by
    intro n b h
    rw [foundParam] at h
    split at h
    · cases h
      rfl
    · cases h
  have hpoint : ∀ n b, foundInMeasurePoint id paramname param n = some b → b.name = param.name := by
    intro n b h
    rw [foundInMeasurePoint] at h
    split at h
    · exact findSome?_inv hparam h
    · cases h
  have hdevice : ∀ n b, foundInDevice deviceid id paramname param n = some b →
      b.name = param.name := by
    intro n b h
    rw [foundInDevice] at h
    split at h
    · exact findSome?_inv hpoint h
    · cases h
  rw [fullParams]
  cases h : (substation catalogue).findSome? (foundInDevice deviceid id paramname param) with
  | none => rfl
  | some b => exact findSome?_inv hdevice h

theorem pointOf_fromCatalogue (catalogue : Option XmlDocument) (n : XmlNode) :
    (pointOf catalogue n).FromCatalogue catalogue := by
  intro a ha
  obtain ⟨c, -, hc⟩ := List.mem_filterMap.mp ha
  rw [paramSpec] at hc
  split at hc
  · cases hc
    rw [fullParams_name]
    rfl
  · cases hc

/-- The table of the parameters behind an insertion. -/
theorem insertParam_eq (p : MeasurePoint) (a : Param) :
    p.insertParam a = { p with
      paramList := if a.name = "" then p.paramList else upsert p.paramList a.name a id } := by
  rw [MeasurePoint.insertParam]
  split
  · rfl
  · rw [insertIfNew_eq_upsert]

theorem insertParam_comm (p : MeasurePoint) {a b : Param} (h : a.name = b.name → a = b) :
    (p.insertParam a).insertParam b = (p.insertParam b).insertParam a := by
  simp only [insertParam_eq]
  congr 1
  by_cases ha : a.name = ""
  · simp [ha]
  by_cases hb : b.name = ""
  · simp [hb]
  simp only [if_neg ha, if_neg hb]
  refine (actsAt_upsert a.name a id).comm (actsAt_upsert b.name b id) (fun hname o => ?_) _
  obtain rfl := h hname
  rfl

theorem fill_comm {catalogue : Option XmlDocument} {pt pt' : PointSpec}
    (hc : pt.FromCatalogue catalogue) (hc' : pt'.FromCatalogue catalogue)
    (h : pt.measurePoint = pt'.measurePoint) (p : MeasurePoint) :
    pt'.fill (pt.fill p) = pt.fill (pt'.fill p) := by
  refine foldl_comm MeasurePoint.insertParam MeasurePoint.insertParam pt.params pt'.params
    (fun a ha b hb p => insertParam_comm p fun hname => ?_) p
  have hd : pt.deviceid = pt'.deviceid := congrArg MeasurePoint.deviceid h
  have hid : pt.id = pt'.id := congrArg MeasurePoint.id h
  rw [hc a ha, hc' b hb, hname, hd, hid]

theorem actsAt_enterPoint (pt : PointSpec) : ActsAt pt.enter pt.deviceid
    (if pt.deviceid = "" then id else fun o => some (pt.fill (o.getD pt.measurePoint))) := by
  intro m a
  rw [PointSpec.enter]
  by_cases hd : pt.deviceid = ""
  · simp [hd]
  · rw [if_neg hd, if_neg hd]
    exact actsAt_upsert _ _ _ m a

theorem addPoint_comm {catalogue : Option XmlDocument} {pt pt' : PointSpec}
    (hc : pt.FromCatalogue catalogue) (hc' : pt'.FromCatalogue catalogue) (h : pt.Agrees pt')
    (u : MonitorUnit) : (u.addPoint pt).addPoint pt' = (u.addPoint pt').addPoint pt := by
  simp only [addPoint_eq]
  congr 1
  refine (actsAt_enterPoint pt).comm (actsAt_enterPoint pt') (fun hd o => ?_) _
  rw [← hd]
  by_cases he : pt.deviceid = ""
  · simp [he]
  · have hsame := h hd he
    simp only [if_neg he, Option.getD_some, ← hsame]
    exact congrArg some (fill_comm hc hc' hsame _)

theorem actsAt_enterUnit (s : UnitSpec) : ActsAt s.enter s.key
    (if s.Named then fun o => some (s.fill (o.getD s.monitorUnit))
      else if s.key = "" then id else Option.map s.fill) := by
  intro m a
  rw [UnitSpec.enter]
  by_cases hs : s.Named
  · rw [if_pos hs, if_pos hs]
    exact actsAt_upsert _ _ _ m a
  · rw [if_neg hs, if_neg hs]
    exact actsAt_writeBack _ _ m a

theorem addUnit_comm {catalogue : Option XmlDocument} {s s' : UnitSpec}
    (hc : ∀ pt ∈ s.points, pt.FromCatalogue catalogue)
    (hc' : ∀ pt ∈ s'.points, pt.FromCatalogue catalogue) (hport : s.port = s'.port)
    (h : s.Agrees s') (p : SerialPort) : (p.addUnit s).addUnit s' = (p.addUnit s').addUnit s := by
  simp only [portAddUnit_eq]
  congr 1
  refine (actsAt_enterUnit s).comm (actsAt_enterUnit s') (fun hkey o => ?_) _
  obtain ⟨hunit, hpoints⟩ := h hport hkey
  have hfill : ∀ u, s'.fill (s.fill u) = s.fill (s'.fill u) := foldl_comm _ _ _ _
    fun pt hpt pt' hpt' u => addPoint_comm (hc pt hpt) (hc' pt' hpt') (hpoints pt hpt pt' hpt') u
  have hnamed : s.Named ↔ s'.Named := by
    unfold UnitSpec.Named
    rw [show s.name = s'.name from congrArg MonitorUnit.name hunit,
      show s.protocolname = s'.protocolname from congrArg MonitorUnit.protocolname hunit,
      show s.mac = s'.mac from congrArg MonitorUnit.mac hunit]
  rw [← hkey]
  by_cases hs : s.Named
  · simp only [if_pos hs, if_pos (hnamed.mp hs), Option.getD_some, ← hunit, hfill]
  · simp only [if_neg hs, if_neg fun hs' => hs (hnamed.mpr hs')]
    by_cases hk : s.key = ""
    · simp [hk]
    · simp [hk, Function.comp_def, hfill]

/-- All points of a document come from the catalogue. -/
def DocumentSpec.FromCatalogue (catalogue : Option XmlDocument) (d : DocumentSpec) : Prop :=
  ∀ s ∈ d.units, ∀ pt ∈ s.points, pt.FromCatalogue catalogue

theorem documentSpec_fromCatalogue {catalogue : Option XmlDocument} {doc : Option XmlDocument}
    {d : DocumentSpec} (h : documentSpec catalogue doc = some d) : d.FromCatalogue catalogue := by
  rw [documentSpec] at h
  split at h
  · cases h
  · split at h
    · cases h
    · cases h
      intro s hs pt hpt
      obtain ⟨n, -, hn⟩ := List.mem_filterMap.mp hs
      rw [unitSpec] at hn
      split at hn
      · cases hn
        obtain ⟨c, -, hc⟩ := List.mem_filterMap.mp hpt
        rw [pointSpec] at hc
        split at hc
        · cases hc
          exact pointOf_fromCatalogue catalogue c
        · cases hc
      · cases hn

theorem act_comm {catalogue : Option XmlDocument} {d d' : DocumentSpec}
    (hc : d.FromCatalogue catalogue) (hc' : d'.FromCatalogue catalogue) (h : Agree d d')
    (port : String) (o : Option SerialPort) :
    d'.act port (d.act port o) = d.act port (d'.act port o) := by
  have hwork : ∀ p, (d'.unitsOn port).foldl SerialPort.addUnit
      ((d.unitsOn port).foldl SerialPort.addUnit p) =
      (d.unitsOn port).foldl SerialPort.addUnit ((d'.unitsOn port).foldl SerialPort.addUnit p) := by
    refine foldl_comm _ _ _ _ fun s hs s' hs' p => ?_
    obtain ⟨hmem, hport⟩ := List.mem_filter.mp hs
    obtain ⟨hmem', hport'⟩ := List.mem_filter.mp hs'
    have hports : s.port = s'.port := (by simpa using hport : s.port = port).trans
      (by simpa using hport' : s'.port = port).symm
    exact addUnit_comm (hc s hmem) (hc' s' hmem') hports (h.units s hmem s' hmem') p
  -- A document that does not declare a port of the other one has no units on it.
  have hnone : ∀ {e e' : DocumentSpec}, (∀ s ∈ e.units, s.port = e'.config.name →
      s.port = e.config.name) → e'.config.name = port → e.config.name ≠ port →
      e.unitsOn port = [] := by
    intro e e' hown hname hne
    refine List.filter_eq_nil_iff.mpr fun s hs hport => ?_
    have hport : s.port = port := by simpa using hport
    exact hne ((hown s hs (hport.trans hname.symm)).symm.trans hport)
  unfold DocumentSpec.act
  by_cases hd : d.config.name = port <;> by_cases hd' : d'.config.name = port
  · rw [← h.config (hd.trans hd'.symm)]
    simp [hd, hwork]
  · simp [hd, hd', hnone h.own' hd hd']
  · simp [hd, hd', hnone h.own hd' hd]
  · simp [hd, hd', Function.comp_def, hwork]

theorem addDocument_comm {catalogue : Option XmlDocument} {d d' : DocumentSpec}
    (hc : d.FromCatalogue catalogue) (hc' : d'.FromCatalogue catalogue) (h : Agree d d')
    (ports : PortList) :
    addDocument (addDocument ports d) d' = addDocument (addDocument ports d') d := by
  apply Std.ExtTreeMap.ext_getElem?
  intro port
  simp only [getElem?_addDocument]
  by_cases hport : port = ""
  · simp [hport]
  · simp only [if_neg hport]
    exact act_comm hc hc' h port _

/-- Every attribute and text that `load` may come to read is there. -/
def WellFormed (catalogue : Option XmlDocument) (doc : Option XmlDocument) : Prop :=
  ∀ inside rest, rs485 doc = some (inside, rest) → inside.Has ["name", "desc"] ∧
    (∀ c ∈ inside.children, c.isElement = true ∧ c.getText.isSome = true) ∧
    ∀ n ∈ rest, isNode "MonitorUnit" n = true → n.Has unitAttributes ∧
      ∀ c ∈ n.children, PointNodeReadable catalogue true c

theorem WellFormed.readable {catalogue : Option XmlDocument} {doc : Option XmlDocument}
    (h : WellFormed catalogue doc) (ports : PortList) : DocumentReadable catalogue ports doc := by
  intro inside rest hdoc
  obtain ⟨⟨helement, hattrs⟩, htexts, hunits⟩ := h inside rest hdoc
  refine ⟨⟨helement, by simpa using (List.forall_mem_cons.mp hattrs).1⟩, fun _ =>
    ⟨⟨helement, by simpa using (List.forall_mem_cons.mp hattrs).2⟩, htexts,
      allSteps_of_forall (fun n hn ports hnode => ?_) _⟩⟩
  obtain ⟨hunit, hpoints⟩ := hunits n hn hnode
  refine ⟨hunit, fun p _ c hc hpoint => ?_⟩
  obtain ⟨hpt, hparams⟩ := hpoints c hc hpoint
  exact ⟨hpt, fun _ => hparams rfl⟩

theorem loadDocuments_of_wellFormed {catalogue : Option XmlDocument}
    {docs : List (Option XmlDocument)} (h : ∀ doc ∈ docs, WellFormed catalogue doc) :
    loadDocuments catalogue docs = .ok (loaded catalogue docs) :=
  (loadDocuments_guarded catalogue docs).1 (allSteps_of_forall (fun doc hdoc => (h doc hdoc).readable) ∅)

theorem loaded_perm {catalogue : Option XmlDocument} {docs docs' : List (Option XmlDocument)}
    (hperm : docs.Perm docs')
    (hagree : ∀ d ∈ docs.filterMap (documentSpec catalogue),
      ∀ d' ∈ docs.filterMap (documentSpec catalogue), d ≠ d' → Agree d d') :
    loaded catalogue docs = loaded catalogue docs' := by
  have hsource : ∀ d ∈ docs.filterMap (documentSpec catalogue), d.FromCatalogue catalogue := by
    intro d hd
    obtain ⟨doc, -, hdoc⟩ := List.mem_filterMap.mp hd
    exact documentSpec_fromCatalogue hdoc
  refine (hperm.filterMap (documentSpec catalogue)).foldl_eq' (fun d hd d' hd' ports => ?_) ∅
  by_cases heq : d = d'
  · rw [heq]
  · exact addDocument_comm (hsource d hd) (hsource d' hd') (hagree d hd d' hd' heq) ports

/-- Well formed documents that agree with each other are loaded to the same model in every
order. -/
theorem load_order_irrelevant (catalogue : Option XmlDocument)
    (docs docs' : List (Option XmlDocument)) (hperm : docs.Perm docs')
    (hform : ∀ doc ∈ docs, WellFormed catalogue doc)
    (hagree : ∀ d ∈ docs.filterMap (documentSpec catalogue),
      ∀ d' ∈ docs.filterMap (documentSpec catalogue), d ≠ d' → Agree d d') :
    ∃ ports, loadDocuments catalogue docs = .ok ports ∧
      loadDocuments catalogue docs' = .ok ports := by
  refine ⟨loaded catalogue docs, loadDocuments_of_wellFormed hform, ?_⟩
  rw [loaded_perm hperm hagree]
  exact loadDocuments_of_wellFormed fun doc hdoc => hform doc (hperm.mem_iff.mpr hdoc)

/-- A document that declares `COM1` with a baud rate and has one unit on it. -/
def com1Document (baudrate mac : String) : XmlDocument :=
  [.element "package" []
    [.element "RS485" [("name", "COM1"), ("desc", "")]
      [.element "PortName" [] [.text "/dev/ttyS1"], .element "BaudRate" [] [.text baudrate]],
     .element "MonitorUnit" [("name", "arrester"), ("interval", "60000"), ("protocolname", "ZSAR"),
       ("port", "COM1"), ("manufacturer", ""), ("cycleid", "1"), ("mac", mac), ("ytime", "")]
      [.element "MeasurePoint" [("deviceid", "D1"), ("IEDName", "IED"), ("id", "ZSAR1"),
        ("checktime", "")] [.element "param" [("name", "TotA")] []]]]]

def com1Spec (baudrate mac : String) : DocumentSpec where
  config := { name := "COM1", portname := "/dev/ttyS1", baudrate := baudrate }
  units := [
    { name := "arrester", interval := "60000", protocolname := "ZSAR", port := "COM1"
      manufacturer := "", cycleid := "1", mac := mac, ytime := ""
      points := [
        { deviceid := "D1", IEDName := "IED", id := "ZSAR1", checktime := ""
          params := [{ name := "TotA" }] }] }]

theorem com1Document_spec (baudrate mac : String) :
    documentSpec none (some (com1Document baudrate mac)) = some (com1Spec baudrate mac) := rfl

theorem com1Document_wellFormed (baudrate mac : String) :
    WellFormed none (some (com1Document baudrate mac)) := by
  intro inside rest h
  obtain ⟨rfl, rfl⟩ : _ = inside ∧ _ = rest := by
    simpa [rs485, XmlNode.firstChild, com1Document, XmlNode.value, XmlNode.isElement,
      XmlNode.children] using h
  refine ⟨⟨rfl, List.all_eq_true.mp rfl⟩, ?_, List.forall_mem_singleton.mpr fun _ => ?_⟩
  · simp [XmlNode.children, XmlNode.isElement, XmlNode.getText]
  · refine ⟨⟨rfl, List.all_eq_true.mp rfl⟩, List.forall_mem_singleton.mpr fun _ => ?_⟩
    refine ⟨⟨rfl, List.all_eq_true.mp rfl⟩, fun _ => List.forall_mem_singleton.mpr fun _ => ?_⟩
    exact ⟨⟨rfl, List.all_eq_true.mp rfl⟩, trivial⟩

/-- Two units on one port, declared alike in two files. -/
theorem load_order_irrelevant_com1 :
    ∃ ports, loadDocuments none [some (com1Document "9600" "1"), some (com1Document "9600" "2")] =
        .ok ports ∧
      loadDocuments none [some (com1Document "9600" "2"), some (com1Document "9600" "1")] =
        .ok ports := by
  have hagree : ∀ m m' : String, "ZSAR" ++ m ≠ "ZSAR" ++ m' →
      Agree (com1Spec "9600" m) (com1Spec "9600" m') := by
    intro m m' hm
    refine ⟨fun _ => rfl, ?_, ?_, ?_⟩
    · exact List.forall_mem_singleton.mpr fun _ => rfl
    · exact List.forall_mem_singleton.mpr fun _ => rfl
    · exact List.forall_mem_singleton.mpr (List.forall_mem_singleton.mpr fun _ hkey =>
        absurd hkey hm)
  refine load_order_irrelevant none _ _ (List.Perm.swap _ _ []) ?_ ?_
  · exact List.forall_mem_cons.mpr ⟨com1Document_wellFormed _ _,
      List.forall_mem_singleton.mpr (com1Document_wellFormed _ _)⟩
  · intro d hd d' hd' hne
    simp only [List.filterMap_cons, com1Document_spec, List.filterMap_nil, List.mem_cons,
      List.not_mem_nil, or_false] at hd hd'
    obtain rfl | rfl := hd <;> obtain rfl | rfl := hd'
    · exact absurd rfl hne
    · exact hagree _ _ (by decide)
    · exact hagree _ _ (by decide)
    · exact absurd rfl hne

/-- With two baud rates for one port the first file decides. -/
theorem load_order_decides_baudrate :
    loadDocuments none [some (com1Document "9600" "1"), some (com1Document "19200" "2")] ≠
      loadDocuments none [some (com1Document "19200" "2"), some (com1Document "9600" "1")] := by
  intro h
  have hrate := congrArg (fun r : Except NullAccess PortList =>
    r.toOption.bind fun ports => ports["COM1"]?.map fun p => p.config.baudrate) h
  exact absurd hrate (by decide +kernel)

end DbdkyGcc.Device
