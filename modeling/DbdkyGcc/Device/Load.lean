import DbdkyGcc.Device.Xml
import DbdkyGcc.Device.Model

/-!
# Loading the configuration

`DeviceManager::load` and `getFullParams`, statement by statement: a string that is built
from a null pointer is a fault, and what the code skips is skipped. Documents are given as
trees; `none` stands for a file that cannot be opened.
-/

namespace DbdkyGcc.Device

open Foundations

/-- The attributes of a parameter that the catalogue adds. -/
def catalogueAttributes : List String :=
  ["desc", "unit", "precision", "range", "filter", "addresslen", "address"]

def readParam (param : Param) (n : XmlNode) : Except NullAccess Param := do
  let pdesc ← n.attr "desc"
  let punit ← n.attr "unit"
  let pprecision ← n.attr "precision"
  let prange ← n.attr "range"
  let pfilter ← n.attr "filter"
  let paddresslen ← n.attr "addresslen"
  let paddress ← n.attr "address"
  .ok { param with
    desc := pdesc, unit := punit, precision := pprecision, range := prange, filter := pfilter
    addresslen := paddresslen, address := paddress }

/-- The innermost loop, over the nodes of a measure point. -/
def searchParam (paramname : String) (param : Param) (n : XmlNode) :
    Except NullAccess (Option Param) :=
  if n.value ≠ "param" then .ok none
  else do
    let name ← n.attr "name"
    if name ≠ paramname then .ok none
    else do
      let param ← readParam param n
      .ok (some param)

/-- The loop over the nodes of a device. -/
def searchMeasurePoint (id paramname : String) (param : Param) (n : XmlNode) :
    Except NullAccess (Option Param) :=
  if n.value ≠ "MeasurePoint" then .ok none
  else do
    let name ← n.attr "name"
    if name ≠ id then .ok none
    else n.children.findSomeM? (searchParam paramname param)

/-- The loop over the nodes of the substation. The id is read before the kind of the node
is looked at. -/
def searchDevice (deviceid id paramname : String) (param : Param) (n : XmlNode) :
    Except NullAccess (Option Param) := do
  let devid ← n.attr "id"
  if n.value ≠ "Device" ∨ deviceid ≠ devid then .ok none
  else n.children.findSomeM? (searchMeasurePoint id paramname param)

/-- The nodes under the first substation of the catalogue. -/
def substation (catalogue : Option XmlDocument) : List XmlNode :=
  match catalogue with
  | none => []
  | some doc =>
    match XmlNode.firstChild doc "DataConfig" with
    | none => []
    | some (dataConfig, _) =>
      match XmlNode.firstChild dataConfig.children "Substation" with
      | none => []
      | some (node, _) => node.children

def getFullParams (catalogue : Option XmlDocument) (deviceid id paramname : String)
    (param : Param) : Except NullAccess Param := do
  let found ← (substation catalogue).findSomeM? (searchDevice deviceid id paramname param)
  .ok (found.getD param)

def ComConfig.setElement (config : ComConfig) (elementName elementValue : String) : ComConfig :=
  if elementName = "PortName" then { config with portname := elementValue }
  else if elementName = "BaudRate" then { config with baudrate := elementValue }
  else if elementName = "DataBits" then { config with databits := elementValue }
  else if elementName = "StopBits" then { config with stopbits := elementValue }
  else if elementName = "Parity" then { config with parity := elementValue }
  else if elementName = "TotalTimeOut" then { config with totaltimeout := elementValue }
  else if elementName = "IntervalTimeOut" then { config with intervaltimeout := elementValue }
  else if elementName = "InBufferSize" then { config with inbuffersize := elementValue }
  else if elementName = "OutBufferSize" then { config with outbuffersize := elementValue }
  else config

def readConfigElement (config : ComConfig) (n : XmlNode) : Except NullAccess ComConfig := do
  let elementValue ← n.getString
  .ok (config.setElement n.value elementValue)

/-- A node of the wanted name that is an element; the loops of `load` skip all others. -/
def isNode (name : String) (n : XmlNode) : Bool := n.value = name && n.isElement

/-- A parameter is entered under the measure point of that device id, if there is one. -/
def MonitorUnit.addParam (u : MonitorUnit) (deviceid : String) (param : Param) : MonitorUnit :=
  match u.getMeasurePointByDeviceid deviceid with
  | none => u
  | some p => { u with measurePointList := u.measurePointList.insert deviceid (p.insertParam param) }

def loadParam (catalogue : Option XmlDocument) (pointDeviceid pointid : String) (u : MonitorUnit)
    (n : XmlNode) : Except NullAccess MonitorUnit :=
  if isNode "param" n then do
    let paramName ← n.attr "name"
    let tmpParam ← getFullParams catalogue pointDeviceid pointid paramName { name := paramName }
    .ok (u.addParam pointDeviceid tmpParam)
  else .ok u

/-- What `load` does with a measure point once its attributes are read. -/
def attachMeasurePoint (catalogue : Option XmlDocument) (tmpKey : String) (p : SerialPort)
    (nodes : List XmlNode) (pointDeviceid pointIEDName pointid pointchecktime : String) :
    Except NullAccess SerialPort :=
  match p.getMonitorUnitByName tmpKey with
  | none => .ok p
  | some u => do
    let u ← nodes.foldlM (loadParam catalogue pointDeviceid pointid)
      (u.insertMeasurePoint pointDeviceid pointIEDName pointid pointchecktime)
    .ok { p with monitorUnitList := p.monitorUnitList.insert tmpKey u }

def loadMeasurePoint (catalogue : Option XmlDocument) (tmpKey : String) (p : SerialPort)
    (n : XmlNode) : Except NullAccess SerialPort :=
  if isNode "MeasurePoint" n then do
    let pointDeviceid ← n.attr "deviceid"
    let pointIEDName ← n.attr "IEDName"
    let pointid ← n.attr "id"
    let pointchecktime ← n.attr "checktime"
    attachMeasurePoint catalogue tmpKey p n.children pointDeviceid pointIEDName pointid
      pointchecktime
  else .ok p

/-- What `load` does with a monitor unit once its attributes are read. -/
def attachMonitorUnit (catalogue : Option XmlDocument) (ports : PortList) (nodes : List XmlNode)
    (name interval protocolname port manufacturer cycleid mac ytime : String) :
    Except NullAccess PortList :=
  match getSerialPortByName ports port with
  | none => .ok ports
  | some p => do
    let p ← nodes.foldlM (loadMeasurePoint catalogue (protocolname ++ mac))
      (p.insertMonitorUnit name interval protocolname mac manufacturer cycleid ytime)
    .ok (ports.insert port p)

def loadMonitorUnit (catalogue : Option XmlDocument) (ports : PortList) (n : XmlNode) :
    Except NullAccess PortList :=
  if isNode "MonitorUnit" n then do
    let name ← n.attr "name"
    let interval ← n.attr "interval"
    let protocolname ← n.attr "protocolname"
    let port ← n.attr "port"
    let manufacturer ← n.attr "manufacturer"
    let cycleid ← n.attr "cycleid"
    let mac ← n.attr "mac"
    let ytime ← n.attr "ytime"
    attachMonitorUnit catalogue ports n.children name interval protocolname port manufacturer
      cycleid mac ytime
  else .ok ports

/-- The element `RS485` of a document, and the nodes behind it. -/
def rs485 (doc : Option XmlDocument) : Option (XmlNode × List XmlNode) :=
  match doc with
  | none => none
  | some doc =>
    match XmlNode.firstChild doc "package" with
    | none => none
    | some (package, _) => XmlNode.firstChild package.children "RS485"

/-- The body of the loop over the files. -/
def loadDocument (catalogue : Option XmlDocument) (ports : PortList) (doc : Option XmlDocument) :
    Except NullAccess PortList :=
  match rs485 doc with
  | none => .ok ports
  | some (inside, rest) => do
    let rs485name ← inside.attr "name"
    if rs485name = "" then .ok ports
    else do
      let desc ← inside.attr "desc"
      let comconfig ← inside.children.foldlM readConfigElement { name := rs485name, desc := desc }
      rest.foldlM (loadMonitorUnit catalogue) (insertSerialPort ports comconfig)

/-- The loop over the files. -/
def loadDocuments (catalogue : Option XmlDocument) (docs : List (Option XmlDocument)) :
    Except NullAccess PortList :=
  docs.foldlM (loadDocument catalogue) ∅

structure DeviceManager where
  devicetotalname : String
  deviceconfigpath : String
  configfiles : List String
  serialPortList : PortList

/-- What stands before the last occurrence of a text. -/
def beforeLast (text : String) (path : String) : Option String :=
  ((List.range (path.length + 1)).reverse.find? fun i =>
    text.toList.isPrefixOf (path.toList.drop i)).map fun i => String.ofList (path.toList.take i)

/-- `load`, with the link that `readlink` finds (none when it fails or does not fit) and the
files that can be opened. -/
def DeviceManager.load (readlink : Option String) (files : String → Option XmlDocument)
    (d : DeviceManager) : Except NullAccess DeviceManager :=
  match readlink.bind (beforeLast "dbdky_gcc") with
  | none => .ok { d with serialPortList := ∅ }
  | some filepath1 => do
    let ports ← loadDocuments (files (filepath1 ++ d.devicetotalname))
      (d.configfiles.map fun f => files (filepath1 ++ f))
    .ok { d with deviceconfigpath := filepath1, serialPortList := ports }

end DbdkyGcc.Device
