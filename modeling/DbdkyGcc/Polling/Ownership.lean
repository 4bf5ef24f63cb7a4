import DbdkyGcc.Codec.Configuration
import DbdkyGcc.Polling.System

/-!
# Whose record is stored

A record belongs to the unit whose query its bytes answer: it was polled on that port, the
codec is that of its protocol, and the logical node and the precisions are its own. What
another poll can break is `codec_` of a port and the one object of a protocol, between the
write of a query and the use of its answer. `Undisturbed` says that a step does not: under
it every record that is ever stored belongs to its unit.
-/

namespace DbdkyGcc.Polling

open Foundations Codec Port Device

variable {F : Type}

/-- The precision a unit asks for, `1.0` where it has none. -/
def unitPrecision (rt : CRuntime F) (unit : MonitorUnit) (name : String) : F :=
  (getParamConfigList rt unit)[name]?.getD rt.one

/-- The codec object stands as if the unit alone had configured it. -/
structure SetFor (rt : CRuntime F) (o : CodecObject F) (unit : MonitorUnit) : Prop where
  lnInst : unit.getFirstMeasurePoint.map MeasurePoint.id = some o.state.lnInst
  precision : ∀ name ∈ o.kind.scaled, o.state.precision rt name = unitPrecision rt unit name

/-- The record was decoded from the answer to the poll `w`, by the codec of its unit and with
the configuration of its unit. -/
structure Stored.Own (rt : CRuntime F) (polls : List (String × Exchange)) (e : Stored F)
    (w : Exchange) : Prop where
  polled : (e.port, w) ∈ polls
  held : e.held = [w]
  answered : ∃ id regs, Modbus.serve id regs w.query = some e.bytes
  address : ∃ mac, rt.lexicalCastInt w.unit.mac = some mac ∧ e.bytes.head? = some (UInt8.ofInt mac)
  codec : e.codec = w.unit.protocolname
  config : SetFor rt e.object w.unit
  calls : ∀ mp, w.unit.getFirstMeasurePoint = some mp →
    e.calls = [replyCall rt e.object.kind ⟨mp.id, getParamConfigList rt w.unit⟩ e.bytes]

/-- The exchanges whose answers `codec_` will be fetched for. -/
def PortState.awaiting (p : PortState) : List Exchange :=
  match p.pc with
  | .received => p.outstanding ++ p.held
  | _ => p.outstanding

/-- The exchanges whose answers are still to be decoded. -/
def PortState.inFlight (p : PortState) : List Exchange := p.outstanding ++ p.held

/-- What the two units want of a codec is the same. -/
def SameConfig (rt : CRuntime F) (kind : CodecKind) (unit unit' : MonitorUnit) : Prop :=
  unit.getFirstMeasurePoint.map MeasurePoint.id = unit'.getFirstMeasurePoint.map MeasurePoint.id ∧
    ∀ name ∈ kind.scaled, unitPrecision rt unit name = unitPrecision rt unit' name

/-- The step does not take the codec or its configuration away from an answer in flight, and
what it leaves in the codec is the configuration of its unit. -/
def Undisturbed (rt : CRuntime F) (serialPortList : PortList) (s : System F) : Action → Prop
  | .getCodec port key => ∀ unit, polledUnit serialPortList port key = some unit →
      (CodecFactory.getCodec s.codecList unit.protocolname).isSome →
      ∀ w ∈ (s.ports port).awaiting, w.unit.protocolname = unit.protocolname
  | .setConfig => ∀ port unit o, s.timer = .fetched port unit →
      unit.getFirstMeasurePoint.isSome → s.codecList[unit.protocolname]? = some o →
      (∀ q, ∀ w ∈ (s.ports q).inFlight, w.unit.protocolname = unit.protocolname →
        SameConfig rt o.kind w.unit unit) ∧
      ∀ name ∈ o.kind.scaled, (getParamConfigList rt unit)[name]? = none →
        o.state.precision rt name = rt.one
  | _ => True

/-- Replies are decoded alike under configurations that agree on what is scaled. -/
theorem replyCall_congr (rt : CRuntime F) {kind : CodecKind} {c c' : CodecState F}
    (hln : c.lnInst = c'.lnInst)
    (hprec : ∀ name ∈ kind.scaled, c.precision rt name = c'.precision rt name) (f : List UInt8) :
    replyCall rt kind c f = replyCall rt kind c' f := by
  simp only [replyCall, hln, kind.items_config_congr rt hprec]

theorem SetFor.replyCall_eq {rt : CRuntime F} {o : CodecObject F} {unit : MonitorUnit}
    (h : SetFor rt o unit) {mp : MeasurePoint} (hmp : unit.getFirstMeasurePoint = some mp)
    (f : List UInt8) :
    replyCall rt o.kind o.state f =
      replyCall rt o.kind ⟨mp.id, getParamConfigList rt unit⟩ f := by
  have hln := h.lnInst
  rw [hmp, Option.map_some] at hln
  exact replyCall_congr rt (Option.some.inj hln).symm h.precision f

theorem SetFor.of_sameConfig {rt : CRuntime F} {o : CodecObject F} {unit unit' : MonitorUnit}
    (h : SetFor rt o unit) (hsame : SameConfig rt o.kind unit' unit) : SetFor rt o unit' where
  lnInst := hsame.1.trans h.lnInst
  precision name hname := (h.precision name hname).trans (hsame.2 name hname).symm

/-- Without leftovers `setConfig` sets the codec up for the unit. -/
theorem setFor_setConfig {rt : CRuntime F} {o : CodecObject F} {unit : MonitorUnit}
    {mp : MeasurePoint} (hmp : unit.getFirstMeasurePoint = some mp)
    (hfresh : ∀ name ∈ o.kind.scaled, (getParamConfigList rt unit)[name]? = none →
      o.state.precision rt name = rt.one) :
    SetFor rt { o with state := o.state.setConfig mp.id (getParamConfigList rt unit) } unit where
  lnInst := by
    rw [hmp]
    rfl
  precision name hname := by
    show (o.state.setConfig mp.id (getParamConfigList rt unit)).precision rt name = _
    rw [precision_setConfig, unitPrecision]
    cases hm : (getParamConfigList rt unit)[name]? with
    | none => exact hfresh name hname hm
    | some v => rfl

/-- The query was built for the unit by the codec of its protocol, and the codec is set up for
the unit. -/
def Ready (rt : CRuntime F) (codecList : Std.ExtTreeMap String (CodecObject F)) (w : Exchange) :
    Prop :=
  ∃ o, codecList[w.unit.protocolname]? = some o ∧ SetFor rt o w.unit ∧
    ∃ mac codedata, rt.lexicalCastInt w.unit.mac = some mac ∧
      w.query = o.kind.query (UInt8.ofInt mac) codedata

/-- The buffer holds the answer to `w` and nothing else. -/
structure HoldsAnswer (held : List Exchange) (listen : ListenState) (w : Exchange) : Prop where
  held : held = [w]
  answer : ∃ id regs f, Modbus.serve id regs w.query = some f ∧ Holds listen f

def ListenInv (held : List Exchange) (listen : ListenState) : ListenPc → Prop
  | .reading => held = [] ∧ Empty listen
  | .received => ∃ w, HoldsAnswer held listen w
  | .fetched pcodec => ∃ w, HoldsAnswer held listen w ∧
      ∀ name, pcodec = some name → name = w.unit.protocolname

structure PortInv (rt : CRuntime F) (codecList : Std.ExtTreeMap String (CodecObject F))
    (polls : List (String × Exchange)) (port : String) (p : PortState) : Prop where
  ready : ∀ w ∈ p.inFlight, Ready rt codecList w
  polled : ∀ w ∈ p.inFlight, (port, w) ∈ polls
  codec : ∀ w ∈ p.awaiting, ∀ name, p.codec = some name → name = w.unit.protocolname
  listen : ListenInv p.held p.listen p.pc

/-- Nobody else writes `codec_` while a poll goes on. -/
def TimerInv (rt : CRuntime F) (codecList : Std.ExtTreeMap String (CodecObject F))
    (codec : String → Option String) : TimerPc → Prop
  | .idle => True
  | .fetched port unit => codec port = some unit.protocolname ∧
      ∃ o, codecList[unit.protocolname]? = some o
  | .configured port unit => codec port = some unit.protocolname ∧
      ∃ o, codecList[unit.protocolname]? = some o ∧ SetFor rt o unit
  | .built port w => codec port = some w.unit.protocolname ∧ Ready rt codecList w

structure Inv (rt : CRuntime F) (s : System F) : Prop where
  timer : TimerInv rt s.codecList (fun q => (s.ports q).codec) s.timer
  ports : ∀ q, PortInv rt s.codecList s.polls q (s.ports q)
  stored : ∀ e ∈ s.stored, ∃ w, e.Own rt s.polls w

theorem Inv.timer_eq {rt : CRuntime F} {s : System F} (h : Inv rt s) {pc : TimerPc}
    (hpc : s.timer = pc) : TimerInv rt s.codecList (fun q => (s.ports q).codec) pc :=
  hpc ▸ h.timer

theorem PortInv.listen_eq {rt : CRuntime F} {codecList : Std.ExtTreeMap String (CodecObject F)}
    {polls : List (String × Exchange)} {port : String} {p : PortState}
    (h : PortInv rt codecList polls port p) {pc : ListenPc} (hpc : p.pc = pc) :
    ListenInv p.held p.listen pc :=
  hpc ▸ h.listen

theorem Stored.Own.mono {rt : CRuntime F} {polls polls' : List (String × Exchange)} {e : Stored F}
    {w : Exchange} (h : e.Own rt polls w) (hsub : polls ⊆ polls') : e.Own rt polls' w :=
  { h with polled := hsub h.polled }

theorem PortInv.mono {rt : CRuntime F} {codecList : Std.ExtTreeMap String (CodecObject F)}
    {polls polls' : List (String × Exchange)} {port : String} {p : PortState}
    (h : PortInv rt codecList polls port p) (hsub : polls ⊆ polls') :
    PortInv rt codecList polls' port p :=
  { h with polled := fun w hw => hsub (h.polled w hw) }

/-- A change of one port. -/
theorem portInv_update {rt : CRuntime F} {codecList : Std.ExtTreeMap String (CodecObject F)}
    {polls : List (String × Exchange)} {ports : String → PortState}
    (h : ∀ q, PortInv rt codecList polls q (ports q)) {port : String} {p : PortState}
    (hp : PortInv rt codecList polls port p) (q : String) :
    PortInv rt codecList polls q (Function.update ports port p q) := by
  by_cases hq : q = port
  · subst hq
    rw [Function.update_self]
    exact hp
  · rw [Function.update_of_ne hq]
    exact h q

/-- A change of one port that leaves its codec alone. -/
theorem codec_update {ports : String → PortState} {port : String} {p : PortState}
    (hp : p.codec = (ports port).codec) :
    (fun q => (Function.update ports port p q).codec) = fun q => (ports q).codec := by
  funext q
  by_cases hq : q = port
  · subst hq
    rw [Function.update_self, hp]
  · rw [Function.update_of_ne hq]

theorem getCodec_eq_some {codecList : Std.ExtTreeMap String (CodecObject F)}
    {protocolname name : String} (h : CodecFactory.getCodec codecList protocolname = some name) :
    name = protocolname ∧ ∃ o, codecList[protocolname]? = some o := by
  obtain ⟨o, ho, rfl⟩ := Option.map_eq_some_iff.mp h
  rw [lookup] at ho
  split at ho
  · cases ho
  · exact ⟨rfl, o, ho⟩

/-- A slave answers nothing but its own address. -/
theorem head?_of_serve {id : UInt8} {regs : ℕ → UInt16} {query f : List UInt8}
    (h : Modbus.serve id regs query = some f) : query.head? = some id ∧ f.head? = some id := by
  unfold Modbus.serve at h
  split at h
  · split at h
    · next hquery =>
      cases h
      exact ⟨congrArg some hquery.1, rfl⟩
    · cases h
  · cases h

/-- The answer to a poll is a whole reply of the device that was asked. -/
theorem Ready.answer {rt : CRuntime F} {codecList : Std.ExtTreeMap String (CodecObject F)}
    {w : Exchange} (h : Ready rt codecList w) {id : UInt8} {regs : ℕ → UInt16} {f : List UInt8}
    (hf : Modbus.serve id regs w.query = some f) :
    ∃ o, codecList[w.unit.protocolname]? = some o ∧ SetFor rt o w.unit ∧ ValidReply o.kind f ∧
      ∃ mac, rt.lexicalCastInt w.unit.mac = some mac ∧ f.head? = some (UInt8.ofInt mac) := by
  obtain ⟨o, ho, hset, mac, codedata, hmac, hquery⟩ := h
  have hserve := o.kind.serve_query (UInt8.ofInt mac) regs codedata
  rw [← hquery] at hserve
  obtain rfl : UInt8.ofInt mac = id := by
    have := (head?_of_serve hserve).1.symm.trans (head?_of_serve hf).1
    exact Option.some.inj this
  rw [hserve] at hf
  obtain rfl := Option.some.inj hf
  refine ⟨o, ho, hset, ⟨_, _, ?_, rfl⟩, mac, hmac, rfl⟩
  simp [CodecKind.requested]

end DbdkyGcc.Polling
