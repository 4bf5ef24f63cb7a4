import DbdkyGcc.Device.Identity
import DbdkyGcc.Polling.Interleaving

/-!
# Addresses on the line

A port keeps its units apart by protocol and the text of `mac`. What goes over the line is the
number that the text stands for, cut to a byte: units with different texts meet on one address when
their numbers differ by a multiple of 256.
-/

namespace DbdkyGcc.Polling

open Foundations Codec Port Device

variable {F : Type} {rt : CRuntime F} {ports : PortList} {port : String}

/-- The unit is one of the port, and the query asks its address. -/
def Addressed (rt : CRuntime F) (ports : PortList) (port : String) (w : Exchange) : Prop :=
  (∃ key, polledUnit ports port key = some w.unit) ∧
    ∃ mac, rt.lexicalCastInt w.unit.mac = some mac ∧ w.query.head? = some (UInt8.ofInt mac)

def TimerAddressed (rt : CRuntime F) (ports : PortList) : TimerPc → Prop
  | .idle => True
  | .fetched port unit | .configured port unit => ∃ key, polledUnit ports port key = some unit
  | .built port w => Addressed rt ports port w

structure AllAddressed (rt : CRuntime F) (ports : PortList) (s : System F) : Prop where
  timer : TimerAddressed rt ports s.timer
  polls : ∀ poll ∈ s.polls, Addressed rt ports poll.1 poll.2

theorem AllAddressed.timer_eq {s : System F} (h : AllAddressed rt ports s) {pc : TimerPc}
    (hpc : s.timer = pc) : TimerAddressed rt ports pc :=
  hpc ▸ h.timer

theorem head?_query (kind : CodecKind) (id : UInt8) (codedata : Buffer) :
    (kind.query id codedata).head? = some id :=
  (head?_of_serve (kind.serve_query id (fun _ => 0) codedata)).1

theorem AllAddressed.getCodec {s t : System F} (h : AllAddressed rt ports s) {key : String}
    (hs : s.getCodec ports port key = some t) : AllAddressed rt ports t := by
  rw [System.getCodec] at hs
  split at hs
  · split at hs
    · cases hs
      exact h
    · next unit hunit =>
      cases hs
      refine ⟨?_, h.polls⟩
      dsimp only
      split
      · exact ⟨key, hunit⟩
      · trivial
  · cases hs

theorem AllAddressed.setConfig {s t : System F} (h : AllAddressed rt ports s)
    (hs : s.setConfig rt = some t) : AllAddressed rt ports t := by
  rw [System.setConfig] at hs
  split at hs
  · next port unit htimer =>
    split at hs
    · cases hs
      exact ⟨trivial, h.polls⟩
    · obtain ⟨name, -, rfl⟩ := Option.map_eq_some_iff.mp hs
      have hunit := h.timer_eq htimer
      exact ⟨hunit, h.polls⟩
  · cases hs

theorem AllAddressed.makeQueryCmd {s t : System F} (h : AllAddressed rt ports s) {codedata : Buffer}
    (hs : s.makeQueryCmd rt codedata = some t) : AllAddressed rt ports t := by
  rw [System.makeQueryCmd] at hs
  split at hs
  · next port unit htimer =>
    split at hs
    · cases hs
      exact ⟨trivial, h.polls⟩
    · next mac hmac =>
      obtain ⟨o, -, rfl⟩ := Option.map_eq_some_iff.mp hs
      refine ⟨?_, ?_⟩
      · dsimp only
        split
        · trivial
        · exact ⟨h.timer_eq htimer, mac, hmac, head?_query o.kind _ codedata⟩
      · dsimp only
        split
        · exact h.polls
        · exact h.polls
  · cases hs

theorem AllAddressed.write {s t : System F} (h : AllAddressed rt ports s)
    (hs : s.write = some t) : AllAddressed rt ports t := by
  rw [System.write] at hs
  split at hs
  · next port w htimer =>
    cases hs
    refine ⟨trivial, fun poll hpoll => ?_⟩
    rcases List.mem_append.mp hpoll with hold | hnew
    · exact h.polls poll hold
    · rw [List.mem_singleton.mp hnew]
      exact h.timer_eq htimer
  · cases hs

/-- The thread of a port neither polls nor touches the thread of the timers. -/
theorem listen_frame {rt : CRuntime F} {s t : System F} {a : Action}
    (ha : (∃ q i id regs, a = .read q i id regs) ∨ (∃ q, a = .fetch q) ∨ ∃ q stack, a = .parse q stack)
    (hs : step rt ports s a = some t) : t.timer = s.timer ∧ t.polls = s.polls := by
  rcases ha with ⟨q, i, id, regs, rfl⟩ | ⟨q, rfl⟩ | ⟨q, stack, rfl⟩
  · rw [step, System.read] at hs
    split at hs
    · simp only [Option.bind_eq_bind, Option.bind_eq_some_iff, Option.some.injEq] at hs
      obtain ⟨w, -, bytes, -, listen, -, rfl⟩ := hs
      exact ⟨rfl, rfl⟩
    · cases hs
  · rw [step, System.fetch] at hs
    split at hs
    · cases hs
      exact ⟨rfl, rfl⟩
    · cases hs
  · rw [step, System.parse] at hs
    split at hs
    · simp only [Option.bind_eq_bind, Option.bind_eq_some_iff, Option.some.injEq] at hs
      obtain ⟨result, -, rfl⟩ := hs
      exact ⟨rfl, rfl⟩
    · cases hs

theorem AllAddressed.step {s t : System F} {a : Action}
    (h : AllAddressed rt ports s) (hs : Polling.step rt ports s a = some t) :
    AllAddressed rt ports t := by
  have hlisten : t.timer = s.timer ∧ t.polls = s.polls → AllAddressed rt ports t := by
    rintro ⟨htimer, hpolls⟩
    exact ⟨htimer ▸ h.timer, hpolls ▸ h.polls⟩
  cases a with
  | getCodec port key => exact h.getCodec hs
  | setConfig => exact h.setConfig hs
  | makeQueryCmd codedata => exact h.makeQueryCmd hs
  | write => exact h.write hs
  | read port i id regs => exact hlisten (listen_frame (.inl ⟨port, i, id, regs, rfl⟩) hs)
  | fetch port => exact hlisten (listen_frame (.inr (.inl ⟨port, rfl⟩)) hs)
  | parse port stack => exact hlisten (listen_frame (.inr (.inr ⟨port, stack, rfl⟩)) hs)

/-- A unit of a loaded port stands under its protocol and its `mac`. -/
theorem key_of_loaded {catalogue : Option XmlDocument} {docs : List (Option XmlDocument)}
    (hload : loadDocuments catalogue docs = .ok ports) {key : String} {unit : MonitorUnit}
    (h : polledUnit ports port key = some unit) : key = unit.protocolname ++ unit.mac := by
  obtain ⟨p, hp, hunit⟩ := Option.bind_eq_some_iff.mp h
  obtain ⟨config, rfl⟩ := loaded_port hload hp
  rw [getMonitorUnitByName_foldl, Option.map_eq_some_iff] at hunit
  obtain ⟨s, hs, rfl⟩ := hunit
  have hmem := (List.dropWhile_suffix _).subset (List.mem_of_mem_head? hs)
  have hkey : s.key = key := by simpa using (List.mem_filter.mp hmem).2
  rw [foldl_addPoint]
  exact hkey.symm

theorem ofInt_eq_ofInt_iff (a b : Int) : UInt8.ofInt a = UInt8.ofInt b ↔ a ≡ b [ZMOD 256] := by
  rw [← UInt8.toNat_inj, UInt8.ofInt, UInt8.ofInt, UInt8.toNat_ofNat', UInt8.toNat_ofNat',
    Int.ModEq]
  omega

/-- The queries of two units of a loaded port with one protocol carry different addresses exactly
when the numbers of the units are different modulo 256. -/
theorem polled_addresses_differ_iff {catalogue : Option XmlDocument}
    {docs : List (Option XmlDocument)} (hload : loadDocuments catalogue docs = .ok ports)
    {rt : CRuntime F} {libraries : Std.ExtTreeMap String CodecKind} {s : System F}
    (h : Reached (step rt ports) (fun _ _ => True) (fun s => s = System.start libraries) s)
    {w w' : Exchange} (hw : (port, w) ∈ s.polls) (hw' : (port, w') ∈ s.polls)
    (hne : w.unit ≠ w'.unit) (hprotocol : w.unit.protocolname = w'.unit.protocolname) :
    w.unit.mac ≠ w'.unit.mac ∧
    ∃ mac mac', rt.lexicalCastInt w.unit.mac = some mac ∧ rt.lexicalCastInt w'.unit.mac = some mac' ∧
      (w.query.head? ≠ w'.query.head? ↔ ¬mac ≡ mac' [ZMOD 256]) := by
  have hinv : AllAddressed rt ports s := by
    refine h.invariant (fun s hs => ?_) fun s a t hi _ ht => hi.step ht
    rw [hs]
    exact ⟨trivial, nofun⟩
  obtain ⟨⟨key, hkey⟩, mac, hmac, haddress⟩ := hinv.polls _ hw
  obtain ⟨⟨key', hkey'⟩, mac', hmac', haddress'⟩ := hinv.polls _ hw'
  refine ⟨fun heq => hne ?_, mac, mac', hmac, hmac', ?_⟩
  · have hsame : key = key' := by
      rw [key_of_loaded hload hkey, key_of_loaded hload hkey', heq, hprotocol]
    subst hsame
    exact Option.some.inj (hkey.symm.trans hkey')
  · dsimp only at haddress haddress'
    rw [haddress, haddress', ne_eq, Option.some.injEq, ofInt_eq_ofInt_iff]

/-- The port, the protocol, the `mac` and the address of a poll. -/
def pollOutline (poll : String × Exchange) : String × String × String × Option UInt8 :=
  (poll.1, poll.2.unit.protocolname, poll.2.unit.mac, poll.2.query.head?)

/-- Two units of `COM1` from two files, polled one after the other. -/
def pollTwo (mac mac' : String) : Option (List (String × String × String × Option UInt8)) :=
  (loadDocuments none [some (com1Document "9600" mac), some (com1Document "9600" mac')]).toOption.bind
    fun ports => (exec (step CRuntime.whole ports) (System.start zsarLibrary)
      (pollOf ("ZSAR" ++ mac) ++ pollOf ("ZSAR" ++ mac'))).map fun s => s.polls.map pollOutline

theorem exists_of_pollTwo {mac mac' : String} {address address' : Option UInt8}
    (h : pollTwo mac mac' =
      some [("COM1", "ZSAR", mac, address), ("COM1", "ZSAR", mac', address')]) :
    ∃ ports, loadDocuments none [some (com1Document "9600" mac), some (com1Document "9600" mac')] =
        .ok ports ∧
    ∃ s, Reached (step CRuntime.whole ports) (fun _ _ => True)
        (fun s => s = System.start zsarLibrary) s ∧
    ∃ w w', ("COM1", w) ∈ s.polls ∧ ("COM1", w') ∈ s.polls ∧
      w.unit.mac = mac ∧ w'.unit.mac = mac' ∧ w.unit.protocolname = w'.unit.protocolname ∧
      w.query.head? = address ∧ w'.query.head? = address' := by
  obtain ⟨ports, hports, hexec⟩ := Option.bind_eq_some_iff.mp h
  obtain ⟨s, hs, hpolls⟩ := Option.map_eq_some_iff.mp hexec
  obtain ⟨⟨port, w⟩, rest, hlist, hw, hrest⟩ := List.map_eq_cons_iff.mp hpolls
  obtain ⟨⟨port', w'⟩, rest', hlist', hw', -⟩ := List.map_eq_cons_iff.mp hrest
  simp only [pollOutline, Prod.mk.injEq] at hw hw'
  obtain ⟨rfl, hprotocol, hmac, haddress⟩ := hw
  obtain ⟨rfl, hprotocol', hmac', haddress'⟩ := hw'
  refine ⟨ports, eq_ok_of_toOption hports, s, .of_exec _ (fun _ _ _ => trivial) (.start rfl) hs, w,
    w', ?_, ?_, hmac, hmac', hprotocol.trans hprotocol'.symm, haddress, haddress'⟩
  · rw [hlist]
    exact List.mem_cons_self
  · rw [hlist, hlist']
    exact List.mem_cons_of_mem _ List.mem_cons_self

/-- Arresters 1 and 2 are asked at different addresses. -/
theorem polled_addresses_differ_for_one_and_two :
    ∃ ports, loadDocuments none [some (com1Document "9600" "1"), some (com1Document "9600" "2")] =
        .ok ports ∧
    ∃ s, Reached (step CRuntime.whole ports) (fun _ _ => True)
        (fun s => s = System.start zsarLibrary) s ∧
    ∃ w w', ("COM1", w) ∈ s.polls ∧ ("COM1", w') ∈ s.polls ∧ w.unit ≠ w'.unit ∧
      w.query.head? ≠ w'.query.head? := by
  have hrun : pollTwo "1" "2" =
      some [("COM1", "ZSAR", "1", some 1), ("COM1", "ZSAR", "2", some 2)] := by decide +kernel
  obtain ⟨ports, hload, s, hs, w, w', hw, hw', hmac, hmac', hprotocol, -⟩ := exists_of_pollTwo hrun
  have hne : w.unit ≠ w'.unit := by
    intro h
    rw [h, hmac'] at hmac
    exact absurd hmac (by decide)
  obtain ⟨-, mac, mac', hcast, hcast', hiff⟩ :=
    polled_addresses_differ_iff hload hs hw hw' hne hprotocol
  obtain rfl : mac = 1 := by
    rw [hmac] at hcast
    exact Option.some.inj (hcast.symm.trans (by decide +kernel))
  obtain rfl : mac' = 2 := by
    rw [hmac'] at hcast'
    exact Option.some.inj (hcast'.symm.trans (by decide +kernel))
  exact ⟨ports, hload, s, hs, w, w', hw, hw', hne, hiff.mpr (by decide)⟩

/-- Arresters 1 and 257 are two units of the port, and both are asked at address 1. -/
theorem polled_addresses_meet :
    ∃ ports, loadDocuments none [some (com1Document "9600" "1"), some (com1Document "9600" "257")] =
        .ok ports ∧
    ∃ s, Reached (step CRuntime.whole ports) (fun _ _ => True)
        (fun s => s = System.start zsarLibrary) s ∧
    ∃ w w', ("COM1", w) ∈ s.polls ∧ ("COM1", w') ∈ s.polls ∧ w.unit.mac = "1" ∧
      w'.unit.mac = "257" ∧ w.unit.protocolname = w'.unit.protocolname ∧
      w.query.head? = some 1 ∧ w'.query.head? = some 1 :=
  exists_of_pollTwo (by decide +kernel)

end DbdkyGcc.Polling
