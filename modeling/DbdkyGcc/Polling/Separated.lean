import DbdkyGcc.Polling.Addresses

/-!
# Installations in which no poll disturbs another

`Undisturbed` is a condition on a run. Here is one on the configuration: each port has units of one
protocol only, units of one protocol want the same of its codec, and there is a codec for every
protocol. Then no order of the steps disturbs an answer, and every poll that is answered is
stored once, for its own unit.
-/

namespace DbdkyGcc.Polling

open Foundations Codec Port Device

variable {F : Type}

/-- The unit is one that a timer of the port can be about. -/
def Polled (ports : PortList) (port : String) (unit : MonitorUnit) : Prop :=
  ∃ key, polledUnit ports port key = some unit

structure Separated (rt : CRuntime F) (libraries : Std.ExtTreeMap String CodecKind)
    (ports : PortList) : Prop where
  loaded : ∀ port unit, Polled ports port unit → (lookup libraries unit.protocolname).isSome
  protocol : ∀ port unit unit', Polled ports port unit → Polled ports port unit' →
    unit.protocolname = unit'.protocolname
  config : ∀ port port' unit unit' kind, Polled ports port unit → Polled ports port' unit' →
    unit.protocolname = unit'.protocolname → libraries[unit.protocolname]? = some kind →
    unit.getFirstMeasurePoint.isSome → unit'.getFirstMeasurePoint.isSome →
    SameConfig rt kind unit unit'

/-- The steps by what they change. -/
inductive PollNext (rt : CRuntime F) (ports : PortList) (s : System F) : System F → Prop
  | timer (pc : TimerPc) : PollNext rt ports s { s with timer := pc }
  | getCodec {port : String} {unit : MonitorUnit} (hunit : Polled ports port unit) (pc : TimerPc) :
    PollNext rt ports s { s with
      timer := pc
      ports := Function.update s.ports port
        { s.ports port with codec := CodecFactory.getCodec s.codecList unit.protocolname } }
  | setConfig {port name : String} {unit : MonitorUnit} {mp : MeasurePoint}
    (htimer : s.timer = .fetched port unit) (hmp : unit.getFirstMeasurePoint = some mp)
    (hname : (s.ports port).codec = some name) :
    PollNext rt ports s { s with
      timer := .configured port unit
      codecList := s.codecList.modify name fun o =>
        { o with state := o.state.setConfig mp.id (getParamConfigList rt unit) } }
  | write {port : String} {w : Exchange} (htimer : s.timer = .built port w) :
    PollNext rt ports s { s with
      timer := .idle
      ports := Function.update s.ports port
        { s.ports port with outstanding := (s.ports port).outstanding ++ [w] }
      polls := s.polls ++ [(port, w)] }
  | read {port : String} {i : ℕ} {w : Exchange} (hw : (s.ports port).outstanding[i]? = some w)
    (listen : ListenState) :
    PollNext rt ports s { s with
      ports := Function.update s.ports port { s.ports port with
        listen := listen
        pc := .received
        outstanding := (s.ports port).outstanding.eraseIdx i
        held := (s.ports port).held ++ [w] } }
  | fetch {port : String} (hpc : (s.ports port).pc = .received) :
    PollNext rt ports s { s with
      ports := Function.update s.ports port
        { s.ports port with pc := .fetched (s.ports port).codec } }
  | parse {port : String} {pcodec : Option String} {stack : Buffer} {listen : ListenState}
    {calls : List StoreCall} (hpc : (s.ports port).pc = .fetched pcodec)
    (hparse : (s.ports port).listen.parse ((pcodec.bind fun name => s.codecList[name]?).map fun o =>
      o.kind.parser rt o.state stack) = .ok (listen, calls)) :
    PollNext rt ports s { s with
      ports := Function.update s.ports port { s.ports port with
        listen := listen
        pc := .reading
        held := if listen.received = 0 then [] else (s.ports port).held }
      stored := s.stored ++ s.record port pcodec calls }

variable {rt : CRuntime F} {libraries : Std.ExtTreeMap String CodecKind} {ports : PortList}
  {s t : System F}

theorem pollNext_of_step {a : Action} (h : step rt ports s a = some t) : PollNext rt ports s t := by
  cases a with
  | getCodec port key =>
    rw [step, System.getCodec] at h
    split at h
    · next htimer =>
      split at h
      · cases h
        exact .timer s.timer
      · next unit hunit =>
        cases h
        exact .getCodec ⟨key, hunit⟩ _
    · cases h
  | setConfig =>
    rw [step, System.setConfig] at h
    split at h
    · next port unit htimer =>
      split at h
      · cases h
        exact .timer _
      · next mp hmp =>
        obtain ⟨name, hname, rfl⟩ := Option.map_eq_some_iff.mp h
        exact .setConfig htimer hmp hname
    · cases h
  | makeQueryCmd codedata =>
    rw [step, System.makeQueryCmd] at h
    split at h
    · split at h
      · cases h
        exact .timer _
      · obtain ⟨o, -, rfl⟩ := Option.map_eq_some_iff.mp h
        dsimp only
        split
        · exact .timer _
        · exact .timer _
    · cases h
  | write =>
    rw [step, System.write] at h
    split at h
    · next port w htimer =>
      cases h
      exact .write htimer
    · cases h
  | read port i id regs =>
    rw [step, System.read] at h
    split at h
    · simp only [Option.bind_eq_bind, Option.bind_eq_some_iff, Option.some.injEq] at h
      obtain ⟨w, hw, bytes, -, listen, -, rfl⟩ := h
      exact .read hw listen
    · cases h
  | fetch port =>
    rw [step, System.fetch] at h
    split at h
    · next hpc =>
      cases h
      exact .fetch hpc
    · cases h
  | parse port stack =>
    rw [step, System.parse] at h
    split at h
    · next pcodec hpc =>
      simp only [Option.bind_eq_bind, Option.bind_eq_some_iff, Option.some.injEq] at h
      obtain ⟨⟨listen, calls⟩, hparse, rfl⟩ := h
      exact .parse hpc (eq_ok_of_toOption hparse)
    · cases h

/-- The codecs are those of the libraries, and what `setConfig` has left in them is what every unit
of their protocol wants. -/
structure Configured (rt : CRuntime F) (libraries : Std.ExtTreeMap String CodecKind)
    (ports : PortList) (s : System F) : Prop where
  kind : ∀ name : String, s.codecList[name]?.map CodecObject.kind = libraries[name]?
  precision : ∀ o port unit, s.codecList[unit.protocolname]? = some o → Polled ports port unit →
    unit.getFirstMeasurePoint.isSome → ∀ name ∈ o.kind.scaled,
    o.state.precision rt name = rt.one ∨ o.state.precision rt name = unitPrecision rt unit name

/-- A port that waits for an answer has a codec. -/
structure Equipped (p : PortState) : Prop where
  codec : p.codec = none → p.inFlight = []
  fetched : p.pc ≠ .fetched none

/-- The polls of a port: each of them is stored or in flight. -/
def Accounted (s : System F) (port : String) : Prop :=
  ((s.polls.filter fun poll => poll.1 = port).map Prod.snd).Perm
    ((s.stored.filter fun e => e.port = port).flatMap Stored.held ++ (s.ports port).inFlight)

theorem Configured.start : Configured rt libraries ports (System.start libraries) where
  kind name := by
    rw [System.start, Std.ExtTreeMap.getElem?_map, Option.map_map]
    exact Option.map_id'
  precision o port unit ho _ _ name _ := by
    rw [System.start, Std.ExtTreeMap.getElem?_map] at ho
    obtain ⟨kind, -, rfl⟩ := Option.map_eq_some_iff.mp ho
    left
    show ((∅ : Std.ExtTreeMap String F)[name]?).getD rt.one = rt.one
    rw [Std.ExtTreeMap.getElem?_empty, Option.getD_none]

theorem Configured.kind_eq (h : Configured rt libraries ports s) {name : String} {o : CodecObject F}
    (ho : s.codecList[name]? = some o) : libraries[name]? = some o.kind := by
  rw [← h.kind, ho, Option.map_some]

theorem Configured.setConfig (h : Configured rt libraries ports s)
    (hsep : Separated rt libraries ports) {port : String} {unit : MonitorUnit} {mp : MeasurePoint}
    (hunit : Polled ports port unit) (hmp : unit.getFirstMeasurePoint = some mp) (pc : TimerPc) :
    Configured rt libraries ports { s with
      timer := pc
      codecList := s.codecList.modify unit.protocolname fun o =>
        { o with state := o.state.setConfig mp.id (getParamConfigList rt unit) } } := by
  refine ⟨fun name => ?_, fun o port' unit' ho hunit' hmp' name hname => ?_⟩
  · rw [actsAt_modify]
    split
    · next heq =>
      subst heq
      rw [Option.map_map]
      exact h.kind _
    · exact h.kind name
  · rw [actsAt_modify] at ho
    split at ho
    · next heq =>
      rw [← heq] at ho
      obtain ⟨o', ho', rfl⟩ := Option.map_eq_some_iff.mp ho
      have hsame := hsep.config port port' unit unit' o'.kind hunit hunit' heq (h.kind_eq ho')
        (by rw [hmp]; rfl) hmp'
      show (o'.state.setConfig mp.id (getParamConfigList rt unit)).precision rt name = _ ∨
        (o'.state.setConfig mp.id (getParamConfigList rt unit)).precision rt name = _
      rw [precision_setConfig, ← hsame.2 name hname]
      cases hparam : (getParamConfigList rt unit)[name]? with
      | none =>
        rw [Option.getD_none, hsame.2 name hname]
        exact h.precision o' port' unit' (heq ▸ ho') hunit' hmp' name hname
      | some precision =>
        right
        rw [unitPrecision, hparam, Option.getD_some, Option.getD_some]
    · exact h.precision o port' unit' ho hunit' hmp' name hname

theorem Configured.next (h : Configured rt libraries ports s) (hsep : Separated rt libraries ports)
    (hinv : Inv rt s) (haddressed : AllAddressed rt ports s) (hnext : PollNext rt ports s t) :
    Configured rt libraries ports t := by
  cases hnext with
  | setConfig htimer hmp hname =>
    have hcodec := (hinv.timer_eq htimer).1
    obtain rfl := Option.some.inj (hname.symm.trans hcodec)
    exact h.setConfig hsep (haddressed.timer_eq htimer) hmp _
  | timer | getCodec | write | read | fetch | parse => exact ⟨h.kind, h.precision⟩

/-- In a separated installation `getCodec` finds a codec for every unit. -/
theorem Configured.getCodec_isSome (h : Configured rt libraries ports s)
    (hsep : Separated rt libraries ports) {port : String} {unit : MonitorUnit}
    (hunit : Polled ports port unit) :
    CodecFactory.getCodec s.codecList unit.protocolname ≠ none := by
  have hloaded := hsep.loaded port unit hunit
  rw [CodecFactory.getCodec, Ne, Option.map_eq_none_iff]
  rw [lookup] at hloaded ⊢
  split
  · next hempty =>
    rw [if_pos hempty] at hloaded
    cases hloaded
  · next hne =>
    rw [if_neg hne, ← h.kind, Option.isSome_map] at hloaded
    exact Option.isSome_iff_ne_none.mp hloaded

theorem Equipped.update (h : ∀ q, Equipped (s.ports q)) {port : String} {p : PortState}
    (hp : Equipped p) : ∀ q, Equipped (Function.update s.ports port p q) :=
  (Function.forall_update_iff s.ports (p := fun _ p => Equipped p)).mpr ⟨hp, fun q _ => h q⟩

theorem Equipped.next (h : ∀ q, Equipped (s.ports q)) (hsep : Separated rt libraries ports)
    (hinv : Inv rt s) (hconfigured : Configured rt libraries ports s)
    (hnext : PollNext rt ports s t) : ∀ q, Equipped (t.ports q) := by
  cases hnext with
  | timer | setConfig => exact h
  | @getCodec port unit hunit =>
    exact Equipped.update h ⟨fun hnone => absurd hnone (hconfigured.getCodec_isSome hsep hunit),
      (h port).fetched⟩
  | @write port w htimer =>
    have hcodec : (s.ports port).codec = some w.unit.protocolname := (hinv.timer_eq htimer).1
    refine Equipped.update h ⟨fun hnone => ?_, (h port).fetched⟩
    rw [hcodec] at hnone
    cases hnone
  | @read port i w hw listen =>
    refine Equipped.update h ⟨fun hnone => ?_, nofun⟩
    have hmem : w ∈ (s.ports port).inFlight := List.mem_append_left _ (List.mem_of_getElem? hw)
    rw [(h port).codec hnone] at hmem
    cases hmem
  | @fetch port hpc =>
    refine Equipped.update h ⟨(h port).codec, fun hfetched => ?_⟩
    obtain ⟨w, hw⟩ := (hinv.ports port).listen_eq hpc
    have hmem : w ∈ (s.ports port).inFlight :=
      List.mem_append_right _ (by rw [hw.held]; exact List.mem_singleton_self w)
    rw [(h port).codec (ListenPc.fetched.inj hfetched)] at hmem
    cases hmem
  | @parse port pcodec stack listen calls hpc hparse =>
    refine Equipped.update h ⟨fun hnone => ?_, nofun⟩
    obtain ⟨hout, hheld⟩ := List.append_eq_nil_iff.mp ((h port).codec hnone)
    rw [PortState.inFlight, hout, hheld, ite_self]
    rfl

theorem Accounted.of_perm {q : String} (h : Accounted s q) (hpolls : t.polls = s.polls)
    (hstored : t.stored = s.stored) (hflight : ((t.ports q).inFlight).Perm (s.ports q).inFlight) :
    Accounted t q := by
  rw [Accounted, hpolls, hstored]
  exact h.trans (hflight.symm.append_left _)

/-- A change of one port that leaves alone what is in flight there. -/
theorem inFlight_update {ports : String → PortState} {port : String} {p : PortState}
    (hp : (p.inFlight).Perm (ports port).inFlight) (q : String) :
    ((Function.update ports port p q).inFlight).Perm (ports q).inFlight := by
  by_cases hq : q = port
  · subst hq
    rw [Function.update_self]
    exact hp
  · rw [Function.update_of_ne hq]

/-- The answer in the buffer is stored. -/
theorem record_answer {port : String} (hp : PortInv rt s.codecList s.polls port (s.ports port))
    {name : String} (hpc : (s.ports port).pc = .fetched (some name)) {stack : Buffer}
    {listen : ListenState} {calls : List StoreCall}
    (h : (s.ports port).listen.parse (((some name).bind fun name => s.codecList[name]?).map fun o =>
      o.kind.parser rt o.state stack) = .ok (listen, calls)) :
    ∃ e, s.record port (some name) calls = [e] ∧ e.port = port ∧ e.held = (s.ports port).held := by
  obtain ⟨w, ⟨hheld, id, regs, f, hf, hholds⟩, hname⟩ := hp.listen_eq hpc
  obtain rfl := hname name rfl
  have hw : w ∈ (s.ports port).inFlight := List.mem_append_right _ (by rw [hheld]; simp)
  obtain ⟨o, ho, -, hvalid, -⟩ := (hp.ready w hw).answer hf
  rw [Option.bind_some, ho, Option.map_some,
    hholds.parse_long rt o.state stack hvalid.length.ge] at h
  obtain ⟨calls', hdecode, h⟩ := bind_eq_ok_iff.mp h
  cases h
  obtain rfl := hvalid.eq_replyCall_of_ok hdecode
  rw [System.record, Option.bind_some, ho, Option.map_some]
  exact ⟨_, if_neg (List.cons_ne_nil _ _), rfl, rfl⟩

theorem Accounted.write {port q : String} {w : Exchange} (h : Accounted s q) :
    Accounted { s with
      timer := .idle
      ports := Function.update s.ports port
        { s.ports port with outstanding := (s.ports port).outstanding ++ [w] }
      polls := s.polls ++ [(port, w)] } q := by
  rw [Accounted] at h ⊢
  dsimp only
  rw [List.filter_append, List.map_append]
  by_cases hq : q = port
  · subst hq
    rw [Function.update_self, List.filter_cons_of_pos (by simp)]
    refine (h.append_right _).trans ?_
    rw [PortState.inFlight, PortState.inFlight, List.append_assoc, List.append_assoc,
      List.append_assoc]
    exact (List.perm_append_comm.append_left _).append_left _
  · rw [Function.update_of_ne hq, List.filter_cons_of_neg (by simpa using Ne.symm hq)]
    simpa using h

theorem Accounted.parse {port q name : String} {stack : Buffer} {listen : ListenState}
    {calls : List StoreCall} (h : Accounted s q)
    (hp : PortInv rt s.codecList s.polls port (s.ports port))
    (hpc : (s.ports port).pc = .fetched (some name))
    (hparse : (s.ports port).listen.parse (((some name).bind fun name => s.codecList[name]?).map
      fun o => o.kind.parser rt o.state stack) = .ok (listen, calls)) :
    Accounted { s with
      ports := Function.update s.ports port { s.ports port with
        listen := listen
        pc := .reading
        held := if listen.received = 0 then [] else (s.ports port).held }
      stored := s.stored ++ s.record port (some name) calls } q := by
  obtain ⟨rfl, -⟩ := parse_answer hp hpc hparse
  obtain ⟨e, he, hport, hheld⟩ := record_answer hp hpc hparse
  rw [Accounted] at h ⊢
  dsimp only
  rw [he, List.filter_append, List.flatMap_append]
  by_cases hq : q = port
  · subst hq
    rw [Function.update_self, List.filter_cons_of_pos (by simpa using hport), List.filter_nil,
      List.flatMap_singleton, hheld, List.append_assoc]
    refine h.trans (List.Perm.append_left _ ?_)
    rw [PortState.inFlight, PortState.inFlight]
    show List.Perm _ ((s.ports q).held ++ ((s.ports q).outstanding ++ []))
    rw [List.append_nil]
    exact List.perm_append_comm
  · rw [Function.update_of_ne hq, List.filter_cons_of_neg (by simpa [hport] using Ne.symm hq)]
    simpa using h

theorem Accounted.next {q : String} (h : Accounted s q) (hinv : Inv rt s)
    (hequipped : ∀ q, Equipped (s.ports q)) (hnext : PollNext rt ports s t) : Accounted t q := by
  cases hnext with
  | timer | setConfig => exact h.of_perm rfl rfl (.refl _)
  | getCodec | fetch =>
    refine h.of_perm rfl rfl (inFlight_update ?_ q)
    exact .refl _
  | write => exact h.write
  | @read port i w hw listen =>
    refine h.of_perm rfl rfl (inFlight_update ?_ q)
    obtain ⟨hi, rfl⟩ := List.getElem?_eq_some_iff.mp hw
    calc (s.ports port).outstanding.eraseIdx i ++
          ((s.ports port).held ++ [(s.ports port).outstanding[i]])
      _ = (s.ports port).outstanding.eraseIdx i ++ (s.ports port).held ++
          [(s.ports port).outstanding[i]] := (List.append_assoc ..).symm
      _ |>.Perm ((s.ports port).outstanding[i] :: (s.ports port).outstanding.eraseIdx i ++
          (s.ports port).held) := List.perm_append_comm
      _ |>.Perm (s.ports port).inFlight := (List.getElem_cons_eraseIdx_perm hi).append_right _
  | @parse port pcodec stack listen calls hpc hparse =>
    cases pcodec with
    | none => exact absurd hpc (hequipped port).fetched
    | some name => exact h.parse (hinv.ports port) hpc hparse

/-- All that holds between two steps. -/
structure Orderly (rt : CRuntime F) (libraries : Std.ExtTreeMap String CodecKind)
    (ports : PortList) (s : System F) : Prop where
  inv : Inv rt s
  addressed : AllAddressed rt ports s
  configured : Configured rt libraries ports s
  equipped : ∀ q, Equipped (s.ports q)
  accounted : ∀ q, Accounted s q

theorem Orderly.polled (h : Orderly rt libraries ports s) {port : String} {w : Exchange}
    (hw : w ∈ (s.ports port).inFlight) : Polled ports port w.unit :=
  (h.addressed.polls _ ((h.inv.ports port).polled w hw)).1

/-- Whatever comes next, it does not disturb an answer. -/
theorem Orderly.undisturbed (h : Orderly rt libraries ports s)
    (hsep : Separated rt libraries ports) (a : Action) : Undisturbed rt ports s a := by
  cases a with
  | getCodec port key =>
    intro unit hunit _ w hw
    have hmem : w ∈ (s.ports port).inFlight := by
      rw [PortState.awaiting] at hw
      split at hw
      · exact hw
      · exact List.mem_append_left _ hw
    exact hsep.protocol port w.unit unit (h.polled hmem) ⟨key, hunit⟩
  | setConfig =>
    intro port unit o htimer hmp ho
    have hunit : Polled ports port unit := h.addressed.timer_eq htimer
    refine ⟨fun q w hw hprotocol => ?_, fun name hname hnone => ?_⟩
    · obtain ⟨o', -, hset, -⟩ := (h.inv.ports q).ready w hw
      have hmp' : w.unit.getFirstMeasurePoint.isSome := by
        rw [← Option.isSome_map, hset.lnInst]
        rfl
      exact hsep.config q port w.unit unit o.kind (h.polled hw) hunit hprotocol
        (hprotocol ▸ h.configured.kind_eq ho) hmp' hmp
    · have hprecision := h.configured.precision o port unit ho hunit hmp name hname
      rwa [unitPrecision, hnone, Option.getD_none, or_self] at hprecision
  | makeQueryCmd | write | read | fetch | parse => trivial

theorem Orderly.step (h : Orderly rt libraries ports s) (hsep : Separated rt libraries ports)
    {a : Action} (hs : Polling.step rt ports s a = some t) : Orderly rt libraries ports t := by
  have hnext := pollNext_of_step hs
  exact {
    inv := h.inv.step (h.undisturbed hsep a) hs
    addressed := h.addressed.step hs
    configured := h.configured.next hsep h.inv h.addressed hnext
    equipped := Equipped.next h.equipped hsep h.inv h.configured hnext
    accounted := fun q => (h.accounted q).next h.inv h.equipped hnext }

end DbdkyGcc.Polling
