import DbdkyGcc.Foundations.Runs
import DbdkyGcc.Port.Reassembly
import DbdkyGcc.Device.Model

/-!
# Polling

All ports together. One thread runs the timers of all units, `onQueryDataTimer` after
`onQueryDataTimer`; each port has a thread of its own in `listen`. The threads share the
member `codec_` of a port and, through it, the objects of the codec factory: one object for
each protocol, whatever the number of units. A poll takes the steps `getCodec`, `setConfig`,
`makeQueryCmd` and `write`, and a turn of `listen` the steps `read`, `fetch` and `parse`;
steps of different threads come in any order.

The devices are slaves: a query that was written is answered at any later time, or never,
and the answer comes in one read. `held`, `polls` and `stored` are history.
-/

namespace DbdkyGcc.Polling

open Foundations Codec Port Device

variable {F : Type}

/-- `MonitorUnit::getParamConfigList`: the precisions that are numbers; where two measure
points have a parameter of one name, the later one counts. -/
def getParamConfigList (rt : CRuntime F) (unit : MonitorUnit) : Std.ExtTreeMap String F :=
  (unit.measurePointList.toList.flatMap fun point => point.2.paramList.toList.map Prod.snd).foldl
    (fun ret param =>
      match rt.lexicalCastFloat param.precision with
      | some precision => ret.insert param.name precision
      | none => ret) ∅

/-- A poll: the unit it was made for and the query that was written. -/
structure Exchange where
  unit : MonitorUnit
  query : List UInt8

/-- Where `listen` stands in its loop. -/
inductive ListenPc
  /-- at `read` -/
  | reading
  /-- the bytes are in the buffer -/
  | received
  /-- `pcodec` is a copy of `codec_` -/
  | fetched (pcodec : Option String)

/-- A port at run time. A pointer to a codec is the name of its entry in `codecList_`. -/
structure PortState where
  codec : Option String := none
  listen : ListenState := .entry 0
  pc : ListenPc := .reading
  /-- the queries without an answer so far -/
  outstanding : List Exchange := []
  /-- the exchanges whose answers are in the buffer -/
  held : List Exchange := []

/-- Where the thread of the timers stands. -/
inductive TimerPc
  | idle
  /-- `codec_` of the port is set -/
  | fetched (port : String) (unit : MonitorUnit)
  /-- the codec is configured -/
  | configured (port : String) (unit : MonitorUnit)
  /-- the query stands in `codedata` -/
  | built (port : String) (exchange : Exchange)

/-- A record that was handed to `StoreData`: the port, the bytes that were decoded and whose
answers they are, the codec object as it was then, and the calls. -/
structure Stored (F : Type) where
  port : String
  held : List Exchange
  bytes : List UInt8
  codec : String
  object : CodecObject F
  calls : List StoreCall

structure System (F : Type) where
  codecList : Std.ExtTreeMap String (CodecObject F)
  timer : TimerPc
  ports : String → PortState
  polls : List (String × Exchange)
  stored : List (Stored F)

/-- `CodecFactory::getCodec` -/
def CodecFactory.getCodec (codecList : Std.ExtTreeMap String (CodecObject F))
    (protocolname : String) : Option String :=
  (lookup codecList protocolname).map fun _ => protocolname

/-- The unit that the callback of a timer is about. -/
def polledUnit (serialPortList : PortList) (port key : String) : Option MonitorUnit :=
  serialPortList[port]?.bind fun p => p.getMonitorUnitByName key

namespace System

/-- The factory has loaded its libraries, and no timer has fired. The indeterminate `n` of
`listen` is taken to be zero. -/
def start (libraries : Std.ExtTreeMap String CodecKind) : System F where
  codecList := libraries.map fun _ kind => ⟨kind, ⟨"", ∅⟩⟩
  timer := .idle
  ports := fun _ => {}
  polls := []
  stored := []

/-- A timer fires: `codec_` is set, also to null. -/
def getCodec (serialPortList : PortList) (s : System F) (port key : String) :
    Option (System F) :=
  match s.timer with
  | .idle =>
    match polledUnit serialPortList port key with
    | none => some s
    | some unit =>
      let codec := CodecFactory.getCodec s.codecList unit.protocolname
      some { s with
        timer := if codec.isSome then .fetched port unit else .idle
        ports := Function.update s.ports port { s.ports port with codec := codec } }
  | _ => none

/-- The object behind `codec_` is configured for the unit. -/
def setConfig (rt : CRuntime F) (s : System F) : Option (System F) :=
  match s.timer with
  | .fetched port unit =>
    match unit.getFirstMeasurePoint with
    | none => some { s with timer := .idle }
    | some mp =>
      (s.ports port).codec.map fun name => { s with
        timer := .configured port unit
        codecList := s.codecList.modify name fun o =>
          { o with state := o.state.setConfig mp.id (getParamConfigList rt unit) } }
  | _ => none

/-- `codedata` has room for 14 bytes and is not initialised. -/
def makeQueryCmd (rt : CRuntime F) (s : System F) (codedata : Buffer) : Option (System F) :=
  match s.timer with
  | .configured port unit =>
    match rt.lexicalCastInt unit.mac with
    | none => some { s with timer := .idle }
    | some mac =>
      ((s.ports port).codec.bind fun name => s.codecList[name]?).map fun o =>
        let r := o.kind.makeQueryCmd (UInt8.ofInt mac) codedata 14
        if r.1 = 0 then { s with timer := .idle }
        else { s with timer := .built port ⟨unit, bytesAt r.2.1 r.2.2.toNat⟩ }
  | _ => none

def write (s : System F) : Option (System F) :=
  match s.timer with
  | .built port exchange =>
    some { s with
      timer := .idle
      ports := Function.update s.ports port
        { s.ports port with outstanding := (s.ports port).outstanding ++ [exchange] }
      polls := s.polls ++ [(port, exchange)] }
  | _ => none

/-- The device with address `id` answers the query number `i`, and `read` delivers the
answer. -/
def read (s : System F) (port : String) (i : ℕ) (id : UInt8) (regs : ℕ → UInt16) :
    Option (System F) :=
  let p := s.ports port
  match p.pc with
  | .reading => do
    let w ← p.outstanding[i]?
    let bytes ← Modbus.serve id regs w.query
    let listen ← (p.listen.receive bytes).toOption
    some { s with
      ports := Function.update s.ports port { p with
        listen := listen
        pc := .received
        outstanding := p.outstanding.eraseIdx i
        held := p.held ++ [w] } }
  | _ => none

/-- `pcodec = codec_`, under the lock. -/
def fetch (s : System F) (port : String) : Option (System F) :=
  let p := s.ports port
  match p.pc with
  | .received =>
    some { s with ports := Function.update s.ports port { p with pc := .fetched p.codec } }
  | _ => none

/-- The entry of `stored` for a turn that called `StoreData`. -/
def record (s : System F) (port : String) (pcodec : Option String) (calls : List StoreCall) :
    List (Stored F) :=
  match pcodec.bind fun name => s.codecList[name]?.map fun o => (name, o) with
  | some (name, object) =>
    if calls = [] then []
    else [⟨port, (s.ports port).held,
      bytesAt (s.ports port).listen.readBuf (s.ports port).listen.n.toNat, name, object, calls⟩]
  | none => []

/-- The rest of the turn. A turn that fails ends the run. -/
def parse (rt : CRuntime F) (s : System F) (port : String) (stack : Buffer) :
    Option (System F) :=
  let p := s.ports port
  match p.pc with
  | .fetched pcodec => do
    let codec := pcodec.bind fun name => s.codecList[name]?
    let (listen, calls) ← (p.listen.parse (codec.map fun o =>
      o.kind.parser rt o.state stack)).toOption
    some { s with
      ports := Function.update s.ports port { p with
        listen := listen
        pc := .reading
        held := if listen.received = 0 then [] else p.held }
      stored := s.stored ++ s.record port pcodec calls }
  | _ => none

end System

inductive Action
  | getCodec (port key : String)
  | setConfig
  | makeQueryCmd (codedata : Buffer)
  | write
  | read (port : String) (i : ℕ) (id : UInt8) (regs : ℕ → UInt16)
  | fetch (port : String)
  | parse (port : String) (stack : Buffer)

def step (rt : CRuntime F) (serialPortList : PortList) (s : System F) :
    Action → Option (System F)
  | .getCodec port key => s.getCodec serialPortList port key
  | .setConfig => s.setConfig rt
  | .makeQueryCmd codedata => s.makeQueryCmd rt codedata
  | .write => s.write
  | .read port i id regs => s.read port i id regs
  | .fetch port => s.fetch port
  | .parse port stack => s.parse rt port stack

end DbdkyGcc.Polling
