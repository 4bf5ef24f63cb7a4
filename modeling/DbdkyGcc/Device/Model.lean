import DbdkyGcc.Foundations.FirstWins

/-!
# The device model

Serial ports, the monitor units on them, the measure points of a unit and the parameters
of a measure point: four levels of objects, each held in a `std::map` of the level above.
Every insertion leaves an entry that is already there alone.
-/

namespace DbdkyGcc.Device

open Foundations

structure Param where
  name : String
  desc : String := ""
  unit : String := ""
  precision : String := ""
  range : String := ""
  filter : String := ""
  addresslen : String := ""
  address : String := ""
  registernum : String := ""
deriving DecidableEq

structure MeasurePoint where
  deviceid : String
  IEDName : String
  id : String
  checktime : String
  paramList : Std.ExtTreeMap String Param := ∅

structure MonitorUnit where
  name : String
  interval : String
  protocolname : String
  mac : String
  manufacturer : String
  cycleid : String
  ytime : String
  measurePointList : Std.ExtTreeMap String MeasurePoint := ∅

structure ComConfig where
  name : String := ""
  desc : String := ""
  portname : String := ""
  baudrate : String := ""
  databits : String := ""
  stopbits : String := ""
  parity : String := ""
  totaltimeout : String := ""
  intervaltimeout : String := ""
  inbuffersize : String := ""
  outbuffersize : String := ""
deriving DecidableEq

structure SerialPort where
  config : ComConfig
  monitorUnitList : Std.ExtTreeMap String MonitorUnit := ∅

/-- `serialPortList_` -/
abbrev PortList : Type := Std.ExtTreeMap String SerialPort

/-- A `find` in one of the maps; the empty name is never looked up. -/
def lookup {α : Type} (m : Std.ExtTreeMap String α) (name : String) : Option α :=
  if name = "" then none else m[name]?

namespace MeasurePoint

def insertParam (p : MeasurePoint) (param : Param) : MeasurePoint :=
  if param.name = "" then p
  else { p with paramList := p.paramList.insertIfNew param.name param }

end MeasurePoint

namespace MonitorUnit

def insertMeasurePoint (u : MonitorUnit) (deviceid IEDName id checktime : String) : MonitorUnit :=
  if deviceid = "" then u
  else { u with
    measurePointList := u.measurePointList.insertIfNew deviceid
      { deviceid := deviceid, IEDName := IEDName, id := id, checktime := checktime } }

def getMeasurePointByDeviceid (u : MonitorUnit) (deviceid : String) : Option MeasurePoint :=
  lookup u.measurePointList deviceid

/-- The first measure point in the order of the map, the order of the device ids. -/
def getFirstMeasurePoint (u : MonitorUnit) : Option MeasurePoint :=
  u.measurePointList.toList.head?.map Prod.snd

end MonitorUnit

namespace SerialPort

def insertMonitorUnit (p : SerialPort) (name interval protocolname mac manufacturer cycleid
    ytime : String) : SerialPort :=
  if name = "" ∨ protocolname = "" ∨ mac = "" then p
  else { p with
    monitorUnitList := p.monitorUnitList.insertIfNew (protocolname ++ mac)
      { name := name, interval := interval, protocolname := protocolname, mac := mac,
        manufacturer := manufacturer, cycleid := cycleid, ytime := ytime } }

def getMonitorUnitByName (p : SerialPort) (name : String) : Option MonitorUnit :=
  lookup p.monitorUnitList name

end SerialPort

def getSerialPortByName (ports : PortList) (name : String) : Option SerialPort :=
  lookup ports name

def insertSerialPort (ports : PortList) (config : ComConfig) : PortList :=
  if config.name = "" then ports else ports.insertIfNew config.name { config := config }

end DbdkyGcc.Device
