import DbdkyGcc.Polling.Ownership

/-!
# Polls and answers in any order

Each step of the two kinds of threads keeps the invariant of `Polling.Ownership`, the two
that write shared state under the condition `Undisturbed`; so does every run. Without the
condition two timers that fire in one batch are enough to store a measurement under another
unit.
-/

namespace DbdkyGcc.Polling

open Foundations Codec Port Device

variable {F : Type}

-- ════════════════════════════════════════════════════════════════════════
-- The steps of a poll
-- ════════════════════════════════════════════════════════════════════════

theorem Inv.getCodec {rt : CRuntime F} {serialPortList : PortList} {s t : System F}
    (h : Inv rt s) {port key : String} (ha : Undisturbed rt serialPortList s (.getCodec port key))
    (hs : s.getCodec serialPortList port key = some t) : Inv rt t := by
  rw [System.getCodec] at hs
  split at hs
  · split at hs
    · cases hs
      exact h
    · next unit hunit =>
      have hkept := ha unit hunit
      cases hs
      refine ⟨?_, portInv_update h.ports ?_, h.stored⟩
      · dsimp only
        cases hc : CodecFactory.getCodec s.codecList unit.protocolname with
        | none => exact trivial
        | some name =>
          obtain ⟨rfl, ho⟩ := getCodec_eq_some hc
          rw [Option.isSome_some, if_pos rfl]
          refine ⟨?_, ho⟩
          show (Function.update s.ports port _ port).codec = _
          rw [Function.update_self]
      · have hp := h.ports port
        refine ⟨hp.ready, hp.polled, fun w hw name hname => ?_, hp.listen⟩
        have hc : CodecFactory.getCodec s.codecList unit.protocolname = some name := hname
        rw [(getCodec_eq_some hc).1, hkept (by rw [hc]; rfl) w hw]
  · cases hs

/-- The configuration of the unit is the one that the answers in flight are waiting for. -/
theorem Ready.setConfig {rt : CRuntime F} {codecList : Std.ExtTreeMap String (CodecObject F)}
    {unit : MonitorUnit} {mp : MeasurePoint} (hmp : unit.getFirstMeasurePoint = some mp)
    {o : CodecObject F} (ho : codecList[unit.protocolname]? = some o)
    (hfresh : ∀ name ∈ o.kind.scaled, (getParamConfigList rt unit)[name]? = none →
      o.state.precision rt name = rt.one) {w : Exchange} (h : Ready rt codecList w)
    (hsame : w.unit.protocolname = unit.protocolname → SameConfig rt o.kind w.unit unit) :
    Ready rt (codecList.modify unit.protocolname fun o =>
      { o with state := o.state.setConfig mp.id (getParamConfigList rt unit) }) w := by
  obtain ⟨o', ho', hset, hquery⟩ := h
  by_cases hw : unit.protocolname = w.unit.protocolname
  · have hoo : o = o' := by
      rw [← hw, ho] at ho'
      exact Option.some.inj ho'
    subst hoo
    refine ⟨_, ?_, (setFor_setConfig hmp hfresh).of_sameConfig (hsame hw.symm), hquery⟩
    rw [actsAt_modify, if_pos hw, ho', Option.map_some]
  · refine ⟨o', ?_, hset, hquery⟩
    rw [actsAt_modify, if_neg hw, ho']

theorem Inv.setConfig {rt : CRuntime F} {serialPortList : PortList} {s t : System F}
    (h : Inv rt s) (ha : Undisturbed rt serialPortList s .setConfig)
    (hs : s.setConfig rt = some t) : Inv rt t := by
  rw [System.setConfig] at hs
  split at hs
  · next port unit htimer =>
    split at hs
    · cases hs
      exact ⟨trivial, h.ports, h.stored⟩
    · next mp hmp =>
      obtain ⟨hcodec, o, ho⟩ := h.timer_eq htimer
      obtain ⟨hsame, hfresh⟩ := ha port unit o htimer (by rw [hmp]; rfl) ho
      dsimp only at hcodec
      rw [hcodec, Option.map_some] at hs
      cases hs
      refine ⟨⟨hcodec, _, ?_, setFor_setConfig hmp hfresh⟩, fun q => ?_, h.stored⟩
      · rw [actsAt_modify, if_pos rfl, ho, Option.map_some]
      · have hq := h.ports q
        exact { hq with
          ready := fun w hw => (hq.ready w hw).setConfig hmp ho hfresh (hsame q w hw) }
  · cases hs

theorem Inv.makeQueryCmd {rt : CRuntime F} {s t : System F} (h : Inv rt s) {codedata : Buffer}
    (hs : s.makeQueryCmd rt codedata = some t) : Inv rt t := by
  rw [System.makeQueryCmd] at hs
  split at hs
  · next port unit htimer =>
    split at hs
    · cases hs
      exact ⟨trivial, h.ports, h.stored⟩
    · next mac hmac =>
      obtain ⟨hcodec, o, ho, hset⟩ := h.timer_eq htimer
      dsimp only at hcodec
      rw [hcodec, Option.bind_some, ho, Option.map_some] at hs
      dsimp only at hs
      split at hs
      · cases hs
        exact ⟨trivial, h.ports, h.stored⟩
      · cases hs
        exact ⟨⟨hcodec, o, ho, hset, mac, codedata, hmac, rfl⟩, h.ports, h.stored⟩
  · cases hs

theorem PortInv.write {rt : CRuntime F} {codecList : Std.ExtTreeMap String (CodecObject F)}
    {polls : List (String × Exchange)} {port : String} {p : PortState}
    (h : PortInv rt codecList polls port p) {w : Exchange} (hready : Ready rt codecList w)
    (hpolled : (port, w) ∈ polls) (hcodec : p.codec = some w.unit.protocolname) :
    PortInv rt codecList polls port { p with outstanding := p.outstanding ++ [w] } := by
  have hflight : ∀ v, v ∈ PortState.inFlight { p with outstanding := p.outstanding ++ [w] } →
      v ∈ p.inFlight ∨ v = w := by
    intro v hv
    simp only [PortState.inFlight, List.mem_append, List.mem_singleton] at hv ⊢
    tauto
  have hawait : ∀ v, v ∈ PortState.awaiting { p with outstanding := p.outstanding ++ [w] } →
      v ∈ p.awaiting ∨ v = w := by
    intro v hv
    unfold PortState.awaiting at hv ⊢
    dsimp only at hv
    split at hv
    · next hpc =>
      simp only [List.mem_append, List.mem_singleton] at hv ⊢
      tauto
    · next hpc =>
      simp only [List.mem_append, List.mem_singleton] at hv ⊢
      exact hv
  refine ⟨fun v hv => ?_, fun v hv => ?_, fun v hv name hname => ?_, ?_⟩
  · obtain hv | rfl := hflight v hv
    · exact h.ready v hv
    · exact hready
  · obtain hv | rfl := hflight v hv
    · exact h.polled v hv
    · exact hpolled
  · obtain hv | rfl := hawait v hv
    · exact h.codec v hv name hname
    · exact Option.some.inj (hname.symm.trans hcodec)
  · exact h.listen

theorem Inv.write {rt : CRuntime F} {s t : System F} (h : Inv rt s) (hs : s.write = some t) :
    Inv rt t := by
  rw [System.write] at hs
  split at hs
  · next port w htimer =>
    cases hs
    obtain ⟨hcodec, hready⟩ := h.timer_eq htimer
    have hsub : s.polls ⊆ s.polls ++ [(port, w)] := List.subset_append_left _ _
    refine ⟨trivial, portInv_update (fun q => (h.ports q).mono hsub)
      (((h.ports port).mono hsub).write hready (by simp) hcodec), fun e he => ?_⟩
    obtain ⟨v, hv⟩ := h.stored e he
    exact ⟨v, hv.mono hsub⟩
  · cases hs

-- ════════════════════════════════════════════════════════════════════════
-- The steps of a turn
-- ════════════════════════════════════════════════════════════════════════

/-- A step of `listen` changes its port and may store. -/
theorem Inv.updatePort {rt : CRuntime F} {s : System F} (h : Inv rt s) {port : String}
    {p : PortState} (hp : PortInv rt s.codecList s.polls port p)
    (hcodec : p.codec = (s.ports port).codec) {stored : List (Stored F)}
    (hstored : ∀ e ∈ stored, ∃ w, e.Own rt s.polls w) :
    Inv rt { s with ports := Function.update s.ports port p, stored := stored } := by
  refine ⟨?_, portInv_update h.ports hp, hstored⟩
  show TimerInv rt s.codecList (fun q => (Function.update s.ports port p q).codec) s.timer
  rw [codec_update hcodec]
  exact h.timer

theorem Inv.read {rt : CRuntime F} {s t : System F} (h : Inv rt s) {port : String} {i : ℕ}
    {id : UInt8} {regs : ℕ → UInt16} (hs : s.read port i id regs = some t) : Inv rt t := by
  have hp := h.ports port
  rw [System.read] at hs
  split at hs
  · next hpc =>
    obtain ⟨w, hw, hs⟩ := Option.bind_eq_some_iff.mp hs
    obtain ⟨bytes, hbytes, hs⟩ := Option.bind_eq_some_iff.mp hs
    obtain ⟨listen, hlisten, hs⟩ := Option.bind_eq_some_iff.mp hs
    cases hs
    obtain ⟨hheld, hempty⟩ := hp.listen_eq hpc
    have hwmem : w ∈ (s.ports port).outstanding := List.mem_of_getElem? hw
    -- Of what is in flight afterwards, all was outstanding before.
    have hflight : ∀ v ∈ (s.ports port).outstanding.eraseIdx i ++ ((s.ports port).held ++ [w]),
        v ∈ (s.ports port).outstanding := by
      intro v hv
      rw [hheld, List.nil_append, List.mem_append, List.mem_singleton] at hv
      obtain hv | rfl := hv
      · exact List.mem_of_mem_eraseIdx hv
      · exact hwmem
    have hawait : (s.ports port).awaiting = (s.ports port).outstanding := by
      rw [PortState.awaiting, hpc]
    have hin : ∀ v ∈ (s.ports port).outstanding, v ∈ (s.ports port).inFlight :=
      fun v hv => List.mem_append_left _ hv
    have hholds : Holds listen bytes := by
      obtain ⟨o, -, -, hvalid, -⟩ := (hp.ready w (hin w hwmem)).answer hbytes
      have hfit : ([] : List UInt8).length + bytes.length ≤ readBufSize := by
        rw [hvalid.length]
        cases o.kind <;> decide
      obtain ⟨l, hl, hholds⟩ := hempty.holds.receive hfit
      rw [hl] at hlisten
      obtain rfl := Option.some.inj hlisten
      exact hholds
    have hnext : PortInv rt s.codecList s.polls port { s.ports port with
        listen := listen, pc := .received, outstanding := (s.ports port).outstanding.eraseIdx i
        held := (s.ports port).held ++ [w] } :=
      ⟨fun v hv => hp.ready v (hin v (hflight v hv)), fun v hv => hp.polled v (hin v (hflight v hv)),
        fun v hv => hp.codec v (hawait ▸ hflight v hv), w, by rw [hheld, List.nil_append],
        id, regs, bytes, hbytes, hholds⟩
    exact h.updatePort hnext rfl h.stored
  · cases hs

theorem Inv.fetch {rt : CRuntime F} {s t : System F} (h : Inv rt s) {port : String}
    (hs : s.fetch port = some t) : Inv rt t := by
  have hp := h.ports port
  rw [System.fetch] at hs
  split at hs
  · next hpc =>
    cases hs
    obtain ⟨w, hw⟩ := hp.listen_eq hpc
    have hawait : (s.ports port).awaiting = (s.ports port).outstanding ++ (s.ports port).held := by
      rw [PortState.awaiting, hpc]
    have hnext : PortInv rt s.codecList s.polls port
        { s.ports port with pc := .fetched (s.ports port).codec } :=
      ⟨hp.ready, hp.polled, fun v hv => hp.codec v (hawait ▸ List.mem_append_left _ hv), w, hw,
        hp.codec w (by rw [hawait, hw.held]; simp)⟩
    exact h.updatePort hnext rfl h.stored
  · cases hs

/-- After a turn that emptied the buffer only the outstanding queries are in flight. -/
theorem PortInv.emptied {rt : CRuntime F} {codecList : Std.ExtTreeMap String (CodecObject F)}
    {polls : List (String × Exchange)} {port : String} {p : PortState}
    (h : PortInv rt codecList polls port p) {pcodec : Option String} (hpc : p.pc = .fetched pcodec) :
    PortInv rt codecList polls port { p with listen := .reset, pc := .reading, held := [] } := by
  have hflight : ∀ v ∈ PortState.inFlight { p with listen := .reset, pc := .reading, held := [] },
      v ∈ p.inFlight := by
    intro v hv
    rw [PortState.inFlight, List.append_nil] at hv
    exact List.mem_append_left _ hv
  have hawait : p.awaiting = p.outstanding := by rw [PortState.awaiting, hpc]
  exact ⟨fun v hv => h.ready v (hflight v hv), fun v hv => h.polled v (hflight v hv),
    fun v hv => h.codec v (hawait ▸ hv), rfl, rfl, rfl, rfl⟩

theorem bytesAt_of_holds {s : ListenState} {f : List UInt8} (h : Holds s f) :
    bytesAt s.readBuf s.n.toNat = f := by
  rw [h.readBuf, h.n, Int.toNat_natCast]
  exact bytesAt_storeAt _ _

/-- With the codec of the protocol, or with none, the answer is used up. -/
theorem parse_answer {rt : CRuntime F} {s : System F} {port : String}
    (hp : PortInv rt s.codecList s.polls port (s.ports port)) {pcodec : Option String}
    (hpc : (s.ports port).pc = .fetched pcodec) {stack : Buffer} {listen : ListenState}
    {calls : List StoreCall}
    (h : (s.ports port).listen.parse ((pcodec.bind fun name => s.codecList[name]?).map fun o =>
      o.kind.parser rt o.state stack) = .ok (listen, calls)) :
    listen = .reset ∧ ∀ e ∈ s.record port pcodec calls, ∃ w, e.Own rt s.polls w := by
  obtain ⟨w, ⟨hheld, id, regs, f, hf, hholds⟩, hname⟩ := hp.listen_eq hpc
  have hw : w ∈ (s.ports port).inFlight := List.mem_append_right _ (by rw [hheld]; simp)
  obtain ⟨o, ho, hset, hvalid, haddress⟩ := (hp.ready w hw).answer hf
  cases pcodec with
  | none =>
    cases h
    exact ⟨rfl, fun e he => absurd he (by simp [System.record])⟩
  | some name =>
    obtain rfl := hname name rfl
    rw [Option.bind_some, ho, Option.map_some,
      hholds.parse_long rt o.state stack hvalid.length.ge] at h
    obtain ⟨calls', hdecode, h⟩ := bind_eq_ok_iff.mp h
    cases h
    obtain rfl := hvalid.eq_replyCall_of_ok hdecode
    refine ⟨rfl, fun e he => ⟨w, ?_⟩⟩
    rw [System.record, Option.bind_some, ho, Option.map_some] at he
    simp only [List.cons_ne_nil, if_false, List.mem_singleton, bytesAt_of_holds hholds] at he
    subst he
    exact {
      polled := hp.polled w hw
      held := hheld
      answered := ⟨id, regs, hf⟩
      address := haddress
      codec := rfl
      config := hset
      calls := fun mp hmp => by rw [← hset.replyCall_eq hmp] }

theorem Inv.parse {rt : CRuntime F} {s t : System F} (h : Inv rt s) {port : String}
    {stack : Buffer} (hs : s.parse rt port stack = some t) : Inv rt t := by
  rw [System.parse] at hs
  split at hs
  · next pcodec hpc =>
    obtain ⟨⟨listen, calls⟩, hparse, hs⟩ := Option.bind_eq_some_iff.mp hs
    cases hs
    obtain ⟨rfl, hnew⟩ := parse_answer (h.ports port) hpc (eq_ok_of_toOption hparse)
    have hstored : ∀ e ∈ s.stored ++ s.record port pcodec calls, ∃ w, e.Own rt s.polls w := by
      intro e he
      obtain he | he := List.mem_append.mp he
      · exact h.stored e he
      · exact hnew e he
    have hnext := (h.ports port).emptied hpc
    exact h.updatePort hnext rfl hstored
  · cases hs

-- ════════════════════════════════════════════════════════════════════════
-- Every run
-- ════════════════════════════════════════════════════════════════════════

theorem inv_start (rt : CRuntime F) (libraries : Std.ExtTreeMap String CodecKind) :
    Inv rt (System.start libraries) where
  timer := trivial
  ports _ := ⟨nofun, nofun, nofun, rfl, rfl, rfl, rfl⟩
  stored := nofun

theorem Inv.step {rt : CRuntime F} {serialPortList : PortList} {s t : System F} {a : Action}
    (h : Inv rt s) (ha : Undisturbed rt serialPortList s a)
    (hs : Polling.step rt serialPortList s a = some t) : Inv rt t := by
  cases a with
  | getCodec port key => exact h.getCodec ha hs
  | setConfig => exact h.setConfig ha hs
  | makeQueryCmd codedata => exact h.makeQueryCmd hs
  | write => exact h.write hs
  | read port i id regs => exact h.read hs
  | fetch port => exact h.fetch hs
  | parse port stack => exact h.parse hs

theorem inv_of_reached {rt : CRuntime F} {serialPortList : PortList}
    {libraries : Std.ExtTreeMap String CodecKind} {s : System F}
    (h : Reached (step rt serialPortList) (Undisturbed rt serialPortList)
      (fun s => s = System.start libraries) s) : Inv rt s := by
  refine h.invariant (fun s hs => ?_) fun s a t hi ha ht => hi.step ha ht
  rw [hs]
  exact inv_start rt libraries

/-- In every run of undisturbed steps, over any units and ports, every record that is stored
belongs to the unit whose query was answered. -/
theorem stored_records_own (rt : CRuntime F) (serialPortList : PortList)
    (libraries : Std.ExtTreeMap String CodecKind) (s : System F)
    (h : Reached (step rt serialPortList) (Undisturbed rt serialPortList)
      (fun s => s = System.start libraries) s) :
    ∀ e ∈ s.stored, ∃ w, e.Own rt s.polls w :=
  (inv_of_reached h).stored

/-- A surge arrester with a measure point of its own. -/
def arrester (mac : String) : MonitorUnit where
  name := "arrester"
  interval := "60000"
  protocolname := "ZSAR"
  mac := mac
  manufacturer := ""
  cycleid := "1"
  ytime := ""
  measurePointList := (∅ : Std.ExtTreeMap String MeasurePoint).insert "D"
    { deviceid := "D", IEDName := "", id := "ZSAR" ++ mac, checktime := "" }

/-- Two arresters on one line. -/
def twoArresters : PortList :=
  (∅ : PortList).insert "COM1" {
    config := { name := "COM1" }
    monitorUnitList := ((∅ : Std.ExtTreeMap String MonitorUnit).insert "ZSAR1"
      (arrester "1")).insert "ZSAR2" (arrester "2") }

def zsarLibrary : Std.ExtTreeMap String CodecKind :=
  (∅ : Std.ExtTreeMap String CodecKind).insert "ZSAR" .zsar

/-- A whole poll on `COM1`. -/
def pollOf (key : String) : List Action :=
  [.getCodec "COM1" key, .setConfig, .makeQueryCmd fun _ => 0, .write]

/-- The first outstanding query is answered with 30 in every register, and the answer is
decoded. -/
def answerOf (id : UInt8) : List Action :=
  [.read "COM1" 0 id fun _ => 30, .fetch "COM1", .parse "COM1" fun _ => 0]

/-- The logical nodes of the polled units, then those that were stored. -/
def Stored.outline (e : Stored F) : List (Option String) :=
  e.held.map (fun w => w.unit.getFirstMeasurePoint.map MeasurePoint.id) ++
    e.calls.flatMap StoreCall.measurePoints

/-- What the first step of a poll leaves alone. -/
theorem getCodec_frame {serialPortList : PortList} {s t : System F} {port key : String}
    (hs : s.getCodec serialPortList port key = some t) :
    t.codecList = s.codecList ∧ ∀ q, (t.ports q).inFlight = (s.ports q).inFlight := by
  rw [System.getCodec] at hs
  split at hs
  · split at hs
    · cases hs
      exact ⟨rfl, fun _ => rfl⟩
    · cases hs
      refine ⟨rfl, fun q => ?_⟩
      by_cases hq : q = port
      · subst hq
        dsimp only
        rw [Function.update_self]
        rfl
      · dsimp only
        rw [Function.update_of_ne hq]
  · cases hs

/-- No answer is on its way, and no codec scales. -/
structure Calm (rt : CRuntime F) (s : System F) : Prop where
  flight : ∀ poll ∈ s.polls, (s.ports poll.1).inFlight = []
  codecs : ∀ entry ∈ s.codecList.toList, ∀ name ∈ entry.2.kind.scaled,
    entry.2.state.precision rt name = rt.one

theorem calm_start (rt : CRuntime F) (libraries : Std.ExtTreeMap String CodecKind) :
    Calm rt (System.start libraries) := by
  refine ⟨nofun, fun entry hentry name _ => ?_⟩
  have ho := Std.ExtTreeMap.mem_toList_iff_getElem?_eq_some.mp hentry
  rw [System.start, Std.ExtTreeMap.getElem?_map] at ho
  obtain ⟨kind, -, heq⟩ := Option.map_eq_some_iff.mp ho
  rw [← heq]
  show ((∅ : Std.ExtTreeMap String F)[name]?).getD rt.one = rt.one
  rw [Std.ExtTreeMap.getElem?_empty, Option.getD_none]

/-- A poll that begins when all is calm disturbs nobody. -/
theorem Calm.reached_of_poll {rt : CRuntime F} {serialPortList : PortList}
    {libraries : Std.ExtTreeMap String CodecKind} {s₀ : System F} (hcalm : Calm rt s₀)
    (hs₀ : Reached (step rt serialPortList) (Undisturbed rt serialPortList)
      (fun s => s = System.start libraries) s₀)
    {port key : String} {acts : List Action}
    (hacts : ∀ a ∈ acts, ∀ u, Undisturbed rt serialPortList u a) {s : System F}
    (h : exec (step rt serialPortList) s₀ (.getCodec port key :: .setConfig :: acts) = some s) :
    Reached (step rt serialPortList) (Undisturbed rt serialPortList)
      (fun s => s = System.start libraries) s := by
  have hinv := inv_of_reached hs₀
  -- what is in flight has been polled
  have hnone (q : String) : (s₀.ports q).inFlight = [] := by
    refine List.eq_nil_iff_forall_not_mem.mpr fun w hw => ?_
    rw [hcalm.flight _ ((hinv.ports q).polled w hw)] at hw
    cases hw
  rw [exec, List.foldlM_cons] at h
  obtain ⟨s₁, h₁, h⟩ := Option.bind_eq_some_iff.mp h
  rw [List.foldlM_cons] at h
  obtain ⟨s₂, h₂, h⟩ := Option.bind_eq_some_iff.mp h
  have hr₁ : Reached (step rt serialPortList) (Undisturbed rt serialPortList)
      (fun s => s = System.start libraries) s₁ := by
    refine .next (.getCodec port key) hs₀ (fun _ _ _ w hw => ?_) h₁
    have hflight : w ∈ (s₀.ports port).inFlight := by
      rw [PortState.awaiting] at hw
      split at hw
      · exact hw
      · exact List.mem_append_left _ hw
    rw [hnone port] at hflight
    cases hflight
  have hget : s₀.getCodec serialPortList port key = some s₁ := h₁
  obtain ⟨hlist, hflight⟩ := getCodec_frame hget
  refine .of_exec acts hacts (.next .setConfig hr₁ ?_ h₂) h
  intro p unit o _ _ ho
  refine ⟨fun q w hw => ?_, fun name hname _ => ?_⟩
  · rw [hflight q, hnone q] at hw
    cases hw
  · rw [hlist] at ho
    exact hcalm.codecs _ (Std.ExtTreeMap.mem_toList_iff_getElem?_eq_some.mpr ho) name hname

/-- Two units are polled one after the other, each answered before the next poll. -/
theorem stored_records_of_two_polls :
    ∃ s, exec (step CRuntime.whole twoArresters) (System.start zsarLibrary)
        ((pollOf "ZSAR1" ++ answerOf 1) ++ (pollOf "ZSAR2" ++ answerOf 2)) = some s ∧
      s.stored.map Stored.outline =
        [[some "ZSAR1", some "ZSAR1"], [some "ZSAR2", some "ZSAR2"]] ∧
      ∀ e ∈ s.stored, ∃ w, e.Own CRuntime.whole s.polls w := by
  have hrun : (exec (step CRuntime.whole twoArresters) (System.start zsarLibrary)
      (pollOf "ZSAR1" ++ answerOf 1)).any (fun s =>
        decide ((∀ poll ∈ s.polls, (s.ports poll.1).inFlight = []) ∧
          ∀ entry ∈ s.codecList.toList, ∀ name ∈ entry.2.kind.scaled,
            entry.2.state.precision CRuntime.whole name = CRuntime.whole.one) &&
        (exec (step CRuntime.whole twoArresters) s (pollOf "ZSAR2" ++ answerOf 2)).any fun s =>
          decide (s.stored.map Stored.outline =
            [[some "ZSAR1", some "ZSAR1"], [some "ZSAR2", some "ZSAR2"]])) = true := by
    decide +kernel
  obtain ⟨s₁, hs₁, hrest⟩ := (Option.any_eq_true _ _).mp hrun
  obtain ⟨hcalm, hrest⟩ := Bool.and_eq_true_iff.mp hrest
  obtain ⟨s, hs, houtline⟩ := (Option.any_eq_true _ _).mp hrest
  have hacts (id : UInt8) : ∀ a ∈ [.makeQueryCmd fun _ => 0, .write] ++ answerOf id, ∀ u,
      Undisturbed CRuntime.whole twoArresters u a := by
    simp [Undisturbed, answerOf]
  have hr₁ := (calm_start _ _).reached_of_poll (.start rfl) (hacts 1) hs₁
  have hcalm : Calm CRuntime.whole s₁ := ⟨(of_decide_eq_true hcalm).1, (of_decide_eq_true hcalm).2⟩
  have hr := hcalm.reached_of_poll hr₁ (hacts 2) hs
  refine ⟨s, ?_, of_decide_eq_true houtline,
    stored_records_own CRuntime.whole twoArresters zsarLibrary s hr⟩
  rw [exec, List.foldlM_append]
  exact Option.bind_eq_some_iff.mpr ⟨s₁, hs₁, hs⟩

/-- Two timers fire before the first answer comes: what arrester 1 measured is stored under the
logical node of arrester 2. -/
theorem polls_in_one_batch_mix_units :
    ∃ s, Reached (step CRuntime.whole twoArresters) (fun _ _ => True)
        (fun s => s = System.start zsarLibrary) s ∧
      ∃ e ∈ s.stored, e.outline = [some "ZSAR1", some "ZSAR2"] ∧
        ∀ w, ¬ e.Own CRuntime.whole s.polls w := by
  have hrun : (exec (step CRuntime.whole twoArresters) (System.start zsarLibrary)
      (pollOf "ZSAR1" ++ pollOf "ZSAR2" ++ answerOf 1)).map (fun s => s.stored.map Stored.outline) =
        some [[some "ZSAR1", some "ZSAR2"]] := by
    decide +kernel
  obtain ⟨s, hs, houtline⟩ := Option.map_eq_some_iff.mp hrun
  obtain ⟨e, he, heq⟩ : ∃ e ∈ s.stored, e.outline = [some "ZSAR1", some "ZSAR2"] :=
    List.mem_map.mp (by rw [houtline]; simp)
  refine ⟨s, .of_exec _ (fun _ _ _ => trivial) (.start rfl) hs, e, he, heq, fun w hw => ?_⟩
  -- The first entry is the logical node of the one polled unit, the second what was stored.
  have hnode := hw.config.lnInst
  rw [Stored.outline, hw.held] at heq
  obtain ⟨mp, hmp, -⟩ := Option.map_eq_some_iff.mp hnode
  rw [hw.calls mp hmp] at heq
  obtain ⟨h₁, h₂⟩ : mp.id = "ZSAR1" ∧ mp.id = "ZSAR2" := by
    simpa [hmp, replyCall, storeCall] using heq
  exact absurd (h₁.symm.trans h₂) (by decide)

end DbdkyGcc.Polling
