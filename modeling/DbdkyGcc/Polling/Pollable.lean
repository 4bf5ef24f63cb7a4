import DbdkyGcc.Polling.Addresses

/-!
# Units that can be polled

`onQueryDataTimer` gives up without a query when the protocol of the unit has no codec, when the
unit has no measure point and when its address is no number. Nothing else stops it: a poll of any
other unit ends with a query.
-/

namespace DbdkyGcc.Polling

open Foundations Codec Port Device

variable {F : Type}

/-- The name under which a unit is bound to its timer. -/
def keyName (unit : MonitorUnit) : String := unit.protocolname ++ unit.mac

/-- The poll that the thread of the timers is in: the port and the name of the unit. -/
def TimerPc.poll : TimerPc → Option (String × String)
  | .idle => none
  | .fetched port unit | .configured port unit => some (port, keyName unit)
  | .built port w => some (port, keyName w.unit)

/-- What `onQueryDataTimer` needs of a unit: its protocol has been loaded, it has a measure point,
and its address is a number. -/
structure Pollable (rt : CRuntime F) (libraries : Std.ExtTreeMap String CodecKind)
    (unit : MonitorUnit) : Prop where
  library : (lookup libraries unit.protocolname).isSome
  point : unit.getFirstMeasurePoint.isSome
  address : (rt.lexicalCastInt unit.mac).isSome

/-- What is known of the unit of the current poll. -/
def TimerPc.Checked (rt : CRuntime F) (libraries : Std.ExtTreeMap String CodecKind) :
    TimerPc → Prop
  | .idle => True
  | .fetched _ unit => (lookup libraries unit.protocolname).isSome
  | .configured _ unit =>
    (lookup libraries unit.protocolname).isSome ∧ unit.getFirstMeasurePoint.isSome
  | .built _ w => Pollable rt libraries w.unit

/-- The factory keeps the codecs it has loaded, and only units that can be polled are. -/
structure AllPollable (rt : CRuntime F) (libraries : Std.ExtTreeMap String CodecKind)
    (s : System F) : Prop where
  loaded : ∀ name, (lookup s.codecList name).isSome = (lookup libraries name).isSome
  timer : s.timer.Checked rt libraries
  polls : ∀ poll ∈ s.polls, Pollable rt libraries poll.2.unit

theorem makeQueryCmd_ne_zero (kind : CodecKind) (id : UInt8) (codedata : Buffer) :
    (kind.makeQueryCmd id codedata 14).1 ≠ 0 := by
  cases kind with
  | zsar =>
    have h := (makeQueryCmd_bytes 0x20 0x0A id codedata (by decide : (8 : Int) ≤ 14)).1
    simp [CodecKind.makeQueryCmd, CodecZSAR.makeQueryCmd, h]
  | mmxn =>
    have h := (makeQueryCmd_bytes 0x21 0x08 id codedata (by decide : (8 : Int) ≤ 14)).1
    simp [CodecKind.makeQueryCmd, CodecMMXN.makeQueryCmd, h]

/-- What a step after `getCodec` does to the poll: it goes on, the query is written, or there is
something amiss with the unit. -/
inductive Turn (rt : CRuntime F) (libraries : Std.ExtTreeMap String CodecKind) (s t : System F) :
    Prop
  | stays (hpoll : t.timer.poll = s.timer.poll) (hpolls : t.polls = s.polls)
  | writes {port : String} {w : Exchange} (hbuilt : s.timer = .built port w)
    (hidle : t.timer = .idle) (hpolls : t.polls = s.polls ++ [(port, w)])
  | gives {port : String} {unit : MonitorUnit}
    (hunit : s.timer = .fetched port unit ∨ s.timer = .configured port unit)
    (hidle : t.timer = .idle) (hpolls : t.polls = s.polls) (hnot : ¬Pollable rt libraries unit)

section Steps

variable {libraries : Std.ExtTreeMap String CodecKind} {rt : CRuntime F} {ports : PortList}
  {s t : System F}

theorem AllPollable.timer_eq (h : AllPollable rt libraries s) {pc : TimerPc} (hpc : s.timer = pc) :
    pc.Checked rt libraries :=
  hpc ▸ h.timer

theorem allPollable_start : AllPollable rt libraries (System.start libraries : System F) := by
  refine ⟨fun name => ?_, trivial, nofun⟩
  rw [lookup, lookup]
  split
  · rfl
  · simp [System.start]

/-- What the first step of a poll leads to: the codec has been fetched, or the unit is none that can
be polled. -/
theorem AllPollable.getCodec (h : AllPollable rt libraries s) {port key : String}
    (hs : s.getCodec ports port key = some t) :
    AllPollable rt libraries t ∧ t.polls = s.polls ∧
      ((∃ unit, polledUnit ports port key = some unit ∧ t.timer = .fetched port unit) ∨
        t.timer = .idle ∧
          ∀ unit, polledUnit ports port key = some unit → ¬Pollable rt libraries unit) := by
  rw [System.getCodec] at hs
  split at hs
  · next hidle =>
    split at hs
    · next hnone =>
      cases hs
      refine ⟨h, rfl, .inr ⟨hidle, fun unit hunit => ?_⟩⟩
      rw [hnone] at hunit
      cases hunit
    · next unit hunit =>
      cases hs
      have hcodec : (CodecFactory.getCodec s.codecList unit.protocolname).isSome =
          (lookup libraries unit.protocolname).isSome := by
        rw [CodecFactory.getCodec, Option.isSome_map, h.loaded]
      cases hc : (CodecFactory.getCodec s.codecList unit.protocolname).isSome with
      | true => exact ⟨⟨h.loaded, hcodec.symm.trans hc, h.polls⟩, rfl, .inl ⟨unit, hunit, rfl⟩⟩
      | false =>
        refine ⟨⟨h.loaded, trivial, h.polls⟩, rfl, .inr ⟨rfl, fun u hu hpollable => ?_⟩⟩
        obtain rfl : unit = u := Option.some.inj (hunit.symm.trans hu)
        have hlibrary := hpollable.library
        rw [← hcodec, hc] at hlibrary
        cases hlibrary
  · cases hs

theorem lookup_modify (m : Std.ExtTreeMap String (CodecObject F)) (name : String)
    (f : CodecObject F → CodecObject F) (name' : String) :
    (lookup (m.modify name f) name').isSome = (lookup m name').isSome := by
  rw [lookup, lookup]
  split
  · rfl
  · rw [Std.ExtTreeMap.getElem?_modify]
    split
    · next heq => rw [Option.isSome_map, Std.LawfulEqCmp.eq_of_compare heq]
    · rfl

theorem AllPollable.setConfig (h : AllPollable rt libraries s) (hs : s.setConfig rt = some t) :
    AllPollable rt libraries t ∧ Turn rt libraries s t := by
  rw [System.setConfig] at hs
  split at hs
  · next port unit htimer =>
    split at hs
    · next hnone =>
      cases hs
      exact ⟨⟨h.loaded, trivial, h.polls⟩, .gives (.inl htimer) rfl rfl fun hpollable =>
        Option.isSome_iff_ne_none.mp hpollable.point hnone⟩
    · next mp hmp =>
      obtain ⟨name, -, rfl⟩ := Option.map_eq_some_iff.mp hs
      have hlibrary := h.timer_eq htimer
      refine ⟨⟨fun name' => ?_, ⟨hlibrary, ?_⟩, h.polls⟩, .stays ?_ rfl⟩
      · rw [lookup_modify, h.loaded]
      · rw [hmp]
        rfl
      · rw [htimer]
        rfl
  · cases hs

theorem AllPollable.makeQueryCmd (h : AllPollable rt libraries s) {codedata : Buffer}
    (hs : s.makeQueryCmd rt codedata = some t) :
    AllPollable rt libraries t ∧ Turn rt libraries s t := by
  rw [System.makeQueryCmd] at hs
  split at hs
  · next port unit htimer =>
    split at hs
    · next hnone =>
      cases hs
      exact ⟨⟨h.loaded, trivial, h.polls⟩, .gives (.inr htimer) rfl rfl fun hpollable =>
        Option.isSome_iff_ne_none.mp hpollable.address hnone⟩
    · next mac hmac =>
      obtain ⟨o, -, rfl⟩ := Option.map_eq_some_iff.mp hs
      dsimp only
      rw [if_neg (makeQueryCmd_ne_zero o.kind _ codedata)]
      have hchecked := h.timer_eq htimer
      refine ⟨⟨h.loaded, ⟨hchecked.1, hchecked.2, ?_⟩, h.polls⟩, .stays ?_ rfl⟩
      · dsimp only
        rw [hmac]
        rfl
      · rw [htimer]
        rfl
  · cases hs

theorem AllPollable.write (h : AllPollable rt libraries s) (hs : s.write = some t) :
    AllPollable rt libraries t ∧ Turn rt libraries s t := by
  rw [System.write] at hs
  split at hs
  · next port w htimer =>
    cases hs
    refine ⟨⟨h.loaded, trivial, fun poll hpoll => ?_⟩, .writes htimer rfl rfl⟩
    rcases List.mem_append.mp hpoll with hold | hnew
    · exact h.polls poll hold
    · rw [List.mem_singleton.mp hnew]
      exact h.timer_eq htimer
  · cases hs

/-- The threads of the ports leave the codecs of the factory as they are. -/
theorem codecList_of_listen {a : Action}
    (ha : (∃ q i id regs, a = .read q i id regs) ∨ (∃ q, a = .fetch q) ∨
      ∃ q stack, a = .parse q stack)
    (hs : step rt ports s a = some t) : t.codecList = s.codecList := by
  rcases ha with ⟨q, i, id, regs, rfl⟩ | ⟨q, rfl⟩ | ⟨q, stack, rfl⟩
  · rw [step, System.read] at hs
    split at hs
    · simp only [Option.bind_eq_bind, Option.bind_eq_some_iff, Option.some.injEq] at hs
      obtain ⟨w, -, bytes, -, listen, -, rfl⟩ := hs
      rfl
    · cases hs
  · rw [step, System.fetch] at hs
    split at hs
    · cases hs
      rfl
    · cases hs
  · rw [step, System.parse] at hs
    split at hs
    · simp only [Option.bind_eq_bind, Option.bind_eq_some_iff, Option.some.injEq] at hs
      obtain ⟨result, -, rfl⟩ := hs
      rfl
    · cases hs

/-- The steps after `getCodec`, and those of the other threads. -/
theorem AllPollable.step {a : Action} (h : AllPollable rt libraries s)
    (ha : ∀ port key, a ≠ .getCodec port key) (hs : Polling.step rt ports s a = some t) :
    AllPollable rt libraries t ∧ Turn rt libraries s t := by
  have hlisten : ((∃ q i id regs, a = .read q i id regs) ∨ (∃ q, a = .fetch q) ∨
      ∃ q stack, a = .parse q stack) → AllPollable rt libraries t ∧ Turn rt libraries s t := by
    intro hact
    have hcodecs := codecList_of_listen hact hs
    obtain ⟨htimer, hpolls⟩ := listen_frame hact hs
    refine ⟨⟨hcodecs ▸ h.loaded, htimer ▸ h.timer, hpolls ▸ h.polls⟩, .stays ?_ hpolls⟩
    rw [htimer]
  cases a with
  | getCodec port key => exact absurd rfl (ha port key)
  | setConfig => exact h.setConfig hs
  | makeQueryCmd codedata => exact h.makeQueryCmd hs
  | write => exact h.write hs
  | read port i id regs => exact hlisten (.inl ⟨port, i, id, regs, rfl⟩)
  | fetch port => exact hlisten (.inr (.inl ⟨port, rfl⟩))
  | parse port stack => exact hlisten (.inr (.inr ⟨port, stack, rfl⟩))

end Steps

/-- A unit in the list of a loaded port is found under its name. -/
theorem polledUnit_of_loaded {catalogue : Option XmlDocument} {docs : List (Option XmlDocument)}
    {ports : PortList} (hload : loadDocuments catalogue docs = .ok ports) {port key : String}
    {p : SerialPort} (hp : ports[port]? = some p) {unit : MonitorUnit}
    (hunit : p.monitorUnitList[key]? = some unit) : polledUnit ports port key = some unit := by
  have hkey : key ≠ "" := by
    rintro rfl
    obtain ⟨config, rfl⟩ := loaded_port hload hp
    rw [foldl_portAddUnit] at hunit
    -- What stands under the empty name has been entered by nobody.
    have hnone : ∀ units : List UnitSpec, (units.filter fun s => s.key = "").foldl (fun o s =>
        (if s.Named then fun o => some (s.fill (o.getD s.monitorUnit))
          else if s.key = "" then id else Option.map s.fill) o) none = none := by
      intro units
      refine List.foldlRecOn _ _ (motive := fun o => o = none) rfl fun o ho s hs => ?_
      have hempty : s.key = "" := by simpa using (List.mem_filter.mp hs).2
      rw [if_neg fun hnamed => UnitSpec.Named.key_ne hnamed hempty, if_pos hempty, ho]
      rfl
    rw [getElem?_foldl actsAt_enterUnit, Std.ExtTreeMap.getElem?_empty, hnone] at hunit
    cases hunit
  rw [polledUnit, hp, Option.bind_some, SerialPort.getMonitorUnitByName, lookup, if_neg hkey, hunit]

end DbdkyGcc.Polling
