import DbdkyGcc.Logging.Buffers

/-!
# The log buffers by their contents

`System` has the buffers themselves where `Process` has their addresses, and it writes a batch in
one step where `Process` goes through the statements of `threadFunc`. Each step of `Process` is one
of `System`, or changes nothing that is seen there; so what holds of the lines in every run of
`System` holds where the buffers are passed on by their pointers.
-/

namespace DbdkyGcc.Logging

open Foundations

/-- Where the logging thread is when a batch is written in one step. -/
def Pc.phase : Pc → Phase
  | .notStarted => .notStarted
  | .entering | .testing => .testing
  | .locking => .locking
  | .waiting => .waiting
  | .taken | .output | .shrinking | .refilling1 | .refilling2 | .clearing => .writing
  | .finished => .finished

namespace Holders

variable (h : Holders)

/-- The buffer that a variable points to. -/
def read (p : Option Nat) : Option FixedBuffer := p.bind h.heap

/-- The buffers that the pointers of a vector point to. -/
def readAll (ps : List Nat) : List FixedBuffer := ps.filterMap h.heap

end Holders

/-- The part of a batch that is written. -/
def cut (batch : List FixedBuffer) : List FixedBuffer :=
  if 25 < batch.length then batch.take 2 else batch

/-- The batch before and after the cut; it is not compared once it has been written. -/
def ShowsBatch (h : Holders) (t : System) : Pc → Prop
  | .taken => h.readAll h.buffersToWrite = t.buffersToWrite
  | .output => h.readAll h.buffersToWrite = cut t.buffersToWrite
  | _ => True

/-- The buffers of `t` are those that the pointers of `s` lead to. -/
structure Shows (s : Process) (t : System) : Prop where
  running : t.running = s.running
  phase : t.phase = s.pc.phase
  current : s.holders.read s.holders.currentBuffer = some t.currentBuffer
  next : s.holders.read s.holders.nextBuffer = t.nextBuffer
  buffers : s.holders.readAll s.holders.buffers = t.buffers
  batch : ShowsBatch s.holders t s.pc

variable {h h' : Holders} {p : Nat} {b : FixedBuffer} {ps : List Nat}

theorem read_congr {p : Option Nat} (hheap : ∀ a ∈ p.toList, h'.heap a = h.heap a) :
    h'.read p = h.read p := by
  cases p with
  | none => rfl
  | some a => exact hheap a List.mem_cons_self

theorem readAll_congr (hheap : ∀ a ∈ ps, h'.heap a = h.heap a) : h'.readAll ps = h.readAll ps :=
  List.filterMap_congr hheap

theorem readAll_concat (hb : h.heap p = some b) : h.readAll (ps ++ [p]) = h.readAll ps ++ [b] := by
  rw [Holders.readAll, List.filterMap_append, List.filterMap_cons_some hb, List.filterMap_nil]
  rfl

/-- All pointers that are held lead to buffers. -/
theorem readAll_eq_map (howns : Owns h.heap h.held) (hps : ∀ p ∈ ps, p ∈ h.held) :
    h.readAll ps = ps.map fun p => (h.heap p).getD .empty := by
  have hread : ∀ p ∈ ps, h.heap p = (some ∘ fun p => (h.heap p).getD .empty) p := by
    intro p hp
    obtain ⟨b, hb⟩ := howns.exists_cell (hps p hp)
    rw [Function.comp_apply, hb, Option.getD_some]
  rw [Holders.readAll, List.filterMap_congr hread, List.filterMap_eq_map]

theorem mem_held_of_mem_buffersToWrite (hp : p ∈ h.buffersToWrite) : p ∈ h.held :=
  List.mem_append_right _ (mem_own_of_mem_buffersToWrite hp)

theorem readAll_buffers_eq_nil (howns : Owns h.heap h.held) :
    h.readAll h.buffers = [] ↔ h.buffers = [] := by
  rw [readAll_eq_map howns fun p hp => mem_held_of_mem_buffers hp, List.map_eq_nil_iff]

/-- A pointer that is not null leads to a buffer. -/
theorem read_next_eq_none (howns : Owns h.heap h.held) :
    h.read h.nextBuffer = none ↔ h.nextBuffer = none := by
  cases hnext : h.nextBuffer with
  | none => exact iff_of_true rfl rfl
  | some n =>
    obtain ⟨b, hb⟩ := howns.exists_cell (p := n) (by simp [Holders.held, Holders.shared, hnext])
    exact iff_of_false (by simp [Holders.read, hb]) (Option.some_ne_none n)

/-- What is seen of the shared buffers. -/
theorem SameShared.read (hsame : SameShared h h') :
    h'.read h'.currentBuffer = h.read h.currentBuffer ∧
      h'.read h'.nextBuffer = h.read h.nextBuffer ∧ h'.readAll h'.buffers = h.readAll h.buffers := by
  rw [hsame.currentBuffer, hsame.nextBuffer, hsame.buffers]
  refine ⟨read_congr fun a ha => hsame.heap a ?_, read_congr fun a ha => hsame.heap a ?_,
    readAll_congr fun a ha => hsame.heap a ?_⟩
  · exact List.mem_append_left _ ha
  · exact List.mem_append_right _ (List.mem_append_left _ ha)
  · exact List.mem_append_right _ (List.mem_append_right _ ha)

theorem SameOwn.readAll (hsame : SameOwn h h') :
    h'.readAll h'.buffersToWrite = h.readAll h.buffersToWrite := by
  rw [hsame.buffersToWrite]
  exact readAll_congr fun a ha => hsame.heap a (mem_own_of_mem_buffersToWrite ha)

theorem ShowsBatch.congr {t t' : System} {pc : Pc} (hbatch : ShowsBatch h t pc)
    (hread : h'.readAll h'.buffersToWrite = h.readAll h.buffersToWrite)
    (ht : t'.buffersToWrite = t.buffersToWrite) : ShowsBatch h' t' pc := by
  cases pc with
  | taken => exact (hread.trans hbatch).trans ht.symm
  | output => exact (hread.trans hbatch).trans (congrArg cut ht.symm)
  | _ => trivial

section Append

variable {line : Line} {fresh : Nat} (howns : Owns h.heap h.held)
  (hcurrent : h.currentBuffer = some p) (hb : h.heap p = some b)

include howns hcurrent in
theorem not_mem_of_current : p ∉ h.nextBuffer.toList ∧ p ∉ h.buffers := by
  have hshared := (List.nodup_append.mp howns.nodup).1
  rw [Holders.shared, hcurrent, Option.toList_some, List.singleton_append, List.nodup_cons,
    List.mem_append, not_or] at hshared
  exact hshared.1

include howns hcurrent hb in
/-- The line is copied into the current buffer. -/
theorem read_append_of_fits (hfits : line.length < b.avail)
    (happend : h.append line fresh = .ok h') :
    h'.read h'.currentBuffer = some (b.append line) ∧
      h'.read h'.nextBuffer = h.read h.nextBuffer ∧ h'.readAll h'.buffers = h.readAll h.buffers := by
  obtain ⟨hnext, hbuffers⟩ := not_mem_of_current howns hcurrent
  simp only [Holders.append, hcurrent, deref_eq hb, ok_bind, if_pos hfits] at happend
  cases happend
  refine ⟨?_, read_congr fun a ha => Function.update_of_ne ?_ ..,
    readAll_congr fun a ha => Function.update_of_ne ?_ ..⟩
  · rw [Holders.store, hcurrent]
    exact Function.update_self ..
  · rintro rfl
    exact hnext ha
  · rintro rfl
    exact hbuffers ha

include howns hcurrent hb in
/-- The full buffer moves to the vector, and the line is copied into the next one or a new one. -/
theorem read_append_of_not_fits (hfits : ¬line.length < b.avail) (hfree : h.heap fresh = none)
    (happend : h.append line fresh = .ok h') :
    h'.read h'.currentBuffer = some (((h.read h.nextBuffer).getD .empty).append line) ∧
      h'.read h'.nextBuffer = none ∧ h'.readAll h'.buffers = h.readAll h.buffers ++ [b] := by
  have hshared := (List.nodup_append.mp howns.nodup).1
  rw [Holders.shared, hcurrent, Option.toList_some, List.singleton_append, List.nodup_cons] at hshared
  simp only [Holders.append, hcurrent, deref_eq hb, ok_bind, if_neg hfits] at happend
  cases hn : h.nextBuffer with
  | some n =>
    rw [hn, Option.toList_some, List.singleton_append, List.nodup_cons, List.mem_cons,
      not_or] at hshared
    obtain ⟨⟨hpn, -⟩, hnot, -⟩ := hshared
    obtain ⟨c, hc⟩ := howns.exists_cell (p := n) (by simp [Holders.held, Holders.shared, hn])
    simp only [hn, Option.isSome_some, if_true] at happend
    have hstored := store_current (h := { h with
      buffers := h.buffers ++ [p], currentBuffer := some n, nextBuffer := none }) rfl hc line
    obtain rfl := Except.ok.inj (happend.symm.trans hstored)
    refine ⟨?_, rfl, (readAll_congr fun a ha => Function.update_of_ne ?_ ..).trans
      (readAll_concat hb)⟩
    · rw [show h.read (some n) = some c from hc]
      exact Function.update_self ..
    · rintro rfl
      rcases List.mem_append.mp ha with ha | ha
      · exact hnot ha
      · exact hpn (List.mem_singleton.mp ha).symm
  | none =>
    simp only [hn, Option.isSome_none, Bool.false_eq_true, if_false] at happend
    have hstored := store_current (h := { h.store fresh .empty with
      buffers := h.buffers ++ [p], currentBuffer := some fresh, nextBuffer := none }) rfl
      (Function.update_self ..) line
    obtain rfl := Except.ok.inj (happend.symm.trans hstored)
    refine ⟨Function.update_self .., rfl, (readAll_congr fun a ha => ?_).trans (readAll_concat hb)⟩
    have hne : a ≠ fresh := by
      rintro rfl
      rcases List.mem_append.mp ha with ha | ha
      · exact howns.not_mem hfree (mem_held_of_mem_buffers ha)
      · rw [List.mem_singleton.mp ha, hb] at hfree
        cases hfree
    exact (Function.update_of_ne hne ..).trans (Function.update_of_ne hne ..)

end Append

/-- The current buffer joins the batch, and the spare ones move in. -/
theorem read_take (howns : Owns h.heap h.held) (hcurrent : h.currentBuffer = some p)
    (hb : h.heap p = some b) (hnew1 : Spare h h.newBuffer1) (hnew2 : Spare h h.newBuffer2)
    (hwrite : h.buffersToWrite = []) (htake : h.take = .ok h') :
    h'.read h'.currentBuffer = some .empty ∧
      h'.read h'.nextBuffer =
        (if (h.read h.nextBuffer).isSome then h.read h.nextBuffer else some .empty) ∧
      h'.readAll h'.buffers = [] ∧ h'.readAll h'.buffersToWrite = h.readAll h.buffers ++ [b] := by
  obtain ⟨a₁, ha₁, hempty₁⟩ := hnew1
  obtain ⟨a₂, ha₂, hempty₂⟩ := hnew2
  simp only [Holders.take, hcurrent, require, ok_bind, hwrite, ha₁, ha₂] at htake
  cases hn : h.nextBuffer with
  | some n =>
    obtain ⟨c, hc⟩ := howns.exists_cell (p := n) (by simp [Holders.held, Holders.shared, hn])
    have hread : h.read (some n) = some c := hc
    rw [hn] at htake
    cases htake
    rw [hread]
    exact ⟨hempty₁, hc, rfl, readAll_concat hb⟩
  | none =>
    rw [hn] at htake
    cases htake
    exact ⟨hempty₁, hempty₂, rfl, readAll_concat hb⟩

/-- `Shows`, with what each side knows of its own state. -/
structure Matched (s : Process) (t : System) : Prop extends Shows s t where
  accounted : Accounted s
  ready : t.phase ≠ .writing → Ready t
  writing : t.phase = .writing → ∃ done, Writing t done
  stopped : t.stopped ≠ none → t.running = false ∧ t.phase ≠ .notStarted

variable {s s' : Process} {t : System}

theorem ShowsBatch.of_phase {pc : Pc} (hpc : pc.phase ≠ .writing) : ShowsBatch h t pc := by
  cases pc with
  | taken | output => exact absurd rfl hpc
  | _ => trivial

theorem Constructed.matched (hs : Constructed s) : Matched s .new := by
  have haccounted := hs.accounted
  obtain ⟨a, b, hab, rfl⟩ := hs
  refine ⟨⟨rfl, rfl, Function.update_self .., ?_, rfl, trivial⟩, haccounted,
    fun _ => ⟨rfl, rfl, rfl, rfl⟩, fun hphase => ?_, fun hstopped => absurd rfl hstopped⟩
  · exact (Function.update_of_ne hab.symm ..).trans (Function.update_self ..)
  · cases hphase

/-- A step to `s'` is matched by none of `t`, or by one. -/
def Answered (s' : Process) (t : System) : Prop :=
  Matched s' t ∨ ∃ a t', step t a = some (.ok t') ∧ Matched s' t'

/-- A step of the logging thread, by what it does to the variables. -/
theorem goto_eq_ok {pc : Pc} {m : Except PtrFault Holders}
    (hr : s.goto pc m = some (.ok s')) :
    m = .ok s'.holders ∧ s'.pc = pc ∧ s'.running = s.running := by
  cases m with
  | error e => cases hr
  | ok holders =>
    cases hr
    exact ⟨rfl, rfl, rfl⟩

/-- A step of the logging thread after which the same is seen. -/
theorem Matched.goto (hm : Matched s t) (hs' : Accounted s') {pc : Pc}
    {m : Except PtrFault Holders} (hr : s.goto pc m = some (.ok s'))
    (hphase : pc.phase = s.pc.phase)
    (hdo : ∃ h', m = .ok h' ∧ SameShared s.holders h' ∧ ShowsBatch h' t pc) : Answered s' t := by
  obtain ⟨h', rfl, hsame, hbatch⟩ := hdo
  obtain ⟨hcurrent, hnext, hbuffers⟩ := hsame.read
  cases hr
  exact .inl ⟨⟨hm.running, hm.phase.trans hphase.symm, hcurrent.trans hm.current,
    hnext.trans hm.next, hbuffers.trans hm.buffers, hbatch⟩, hs', hm.ready, hm.writing, hm.stopped⟩

/-- A step outside the writing of a batch that leaves the shared buffers alone. -/
theorem Matched.withPhase (hm : Matched s t) (hs' : Accounted s')
    (hsame : SameShared s.holders s'.holders) (hold : t.phase ≠ .writing)
    (hnew : s'.pc.phase ≠ .writing)
    (hstopped : t.stopped ≠ none → s'.running = false ∧ s'.pc.phase ≠ .notStarted) :
    Matched s' { t with running := s'.running, phase := s'.pc.phase } := by
  obtain ⟨hcurrent, hnext, hbuffers⟩ := hsame.read
  exact ⟨⟨rfl, rfl, hcurrent.trans hm.current, hnext.trans hm.next, hbuffers.trans hm.buffers,
    .of_phase hnew⟩, hs', fun _ => (hm.ready hold).congr rfl, fun hw => absurd hw hnew, hstopped⟩

/-- What other threads do not change. -/
theorem append_frame (t : System) (line : Line) : threadState (t.append line) = threadState t ∧
    (t.append line).running = t.running ∧ (t.append line).phase = t.phase ∧
    (t.append line).stopped = t.stopped := by
  unfold System.append
  dsimp only
  split
  · exact ⟨rfl, rfl, rfl, rfl⟩
  · exact ⟨rfl, rfl, rfl, rfl⟩

theorem Matched.exists_current (hm : Matched s t) :
    ∃ p, s.holders.currentBuffer = some p ∧ s.holders.heap p = some t.currentBuffer := by
  obtain ⟨p, hp⟩ := Option.isSome_iff_exists.mp hm.accounted.current
  have hcurrent := hm.current
  rw [hp] at hcurrent
  exact ⟨p, hp, hcurrent⟩

theorem Matched.read_append {line : Line} {fresh : Nat} (hm : Matched s t)
    (hfree : s.holders.heap fresh = none) (happend : s.holders.append line fresh = .ok h') :
    h'.read h'.currentBuffer = some (t.append line).currentBuffer ∧
      h'.read h'.nextBuffer = (t.append line).nextBuffer ∧
      h'.readAll h'.buffers = (t.append line).buffers := by
  have howns := hm.accounted.owns
  obtain ⟨p, hp, hb⟩ := hm.exists_current
  unfold System.append
  dsimp only
  split
  · next hfits =>
    obtain ⟨hcurrent, hnext, hbuffers⟩ := read_append_of_fits howns hp hb hfits happend
    exact ⟨hcurrent, hnext.trans hm.next, hbuffers.trans hm.buffers⟩
  · next hfits =>
    obtain ⟨hcurrent, hnext, hbuffers⟩ := read_append_of_not_fits howns hp hb hfits hfree happend
    rw [hm.next] at hcurrent
    rw [hm.buffers] at hbuffers
    exact ⟨hcurrent, hnext, hbuffers⟩

theorem Matched.append {line : Line} {fresh : Nat} (hm : Matched s t)
    (hfree : s.holders.heap fresh = none) (happend : s.holders.append line fresh = .ok s'.holders)
    (hpc : s'.pc = s.pc) (hrunning : s'.running = s.running) (hs' : Accounted s') :
    Matched s' (t.append line) := by
  obtain ⟨p, hp, -⟩ := hm.exists_current
  obtain ⟨h'', happend', -, -, -, hsame⟩ :=
    append_eq hm.accounted.owns hp hm.accounted.next hfree line
  obtain rfl := Except.ok.inj (happend.symm.trans happend')
  obtain ⟨hcurrent, hnext, hbuffers⟩ := hm.read_append hfree happend
  obtain ⟨hthread, hrunning', hphase, hstopped⟩ := append_frame t line
  refine ⟨⟨?_, ?_, hcurrent, hnext, hbuffers, ?_⟩, hs', ?_, ?_, ?_⟩
  · rw [hrunning', hrunning, hm.running]
  · rw [hphase, hpc, hm.phase]
  · rw [hpc]
    exact hm.batch.congr hsame.readAll (congrArg (fun x => x.2.2.2.2) hthread)
  · rw [hphase]
    exact fun hp => (hm.ready hp).congr hthread
  · rw [hphase]
    intro hp
    obtain ⟨done, hw⟩ := hm.writing hp
    exact ⟨done, hw.congr hthread⟩
  · rw [hrunning', hphase, hstopped]
    exact hm.stopped

/-- The spare of the other threads, where it is used up, has been used for a full buffer. -/
theorem Matched.used (hm : Matched s t) : t.nextBuffer = none → t.buffers ≠ [] := by
  rw [← hm.next, ← hm.buffers, read_next_eq_none hm.accounted.owns, ne_eq,
    readAll_buffers_eq_nil hm.accounted.owns]
  exact hm.accounted.next

theorem Matched.take (hm : Matched s t) (hthread : Spare s.holders s.holders.newBuffer1 ∧
      Spare s.holders s.holders.newBuffer2 ∧ s.holders.buffersToWrite = [])
    (hold : t.phase ≠ .writing) (htake : s.holders.take = .ok s'.holders) (hpc : s'.pc = .taken)
    (hrunning : s'.running = s.running) (hs' : Accounted s') :
    ∃ t', t.take = .ok t' ∧ Matched s' t' := by
  have hr := hm.ready hold
  obtain ⟨p, hp, hb⟩ := hm.exists_current
  obtain ⟨hcurrent, hnext, hbuffers, hbatch⟩ :=
    read_take hm.accounted.owns hp hb hthread.1 hthread.2.1 hthread.2.2 htake
  refine ⟨_, hr.take, ⟨hm.running.trans hrunning.symm, by rw [hpc]; rfl, hcurrent, ?_, hbuffers, ?_⟩,
    hs', fun hphase => absurd rfl hphase, fun _ => ⟨t.batches, hr.writing hm.used hr.take⟩, ?_⟩
  · rw [hnext, hm.next]
  · rw [hpc, ← hm.buffers]
    exact hbatch
  · exact fun hstopped => ⟨(hm.stopped hstopped).1, Phase.noConfusion⟩

/-- The cut keeps what is written of the batch. -/
theorem ShowsBatch.keepTwo (howns : Owns h.heap h.held) (hbatch : ShowsBatch h t .taken)
    (hcut : h.keepTwo 25 = .ok h') : ShowsBatch h' t .output := by
  obtain ⟨h'', hcut', howns', -, -, -, hwrite, hheap⟩ := keepTwo_eq howns 25
  obtain rfl := Except.ok.inj (hcut.symm.trans hcut')
  have hread : h'.readAll h'.buffersToWrite = h.readAll h'.buffersToWrite :=
    readAll_congr fun a ha => hheap a (mem_held_of_mem_buffersToWrite ha)
  have hall : h.readAll h.buffersToWrite = t.buffersToWrite := hbatch
  have hsub : ∀ a ∈ h'.buffersToWrite, a ∈ h.held := by
    intro a ha
    rw [hwrite] at ha
    split at ha
    · exact mem_held_of_mem_buffersToWrite (List.mem_of_mem_take ha)
    · exact mem_held_of_mem_buffersToWrite ha
  show h'.readAll h'.buffersToWrite = cut t.buffersToWrite
  rw [hread, ← hall, readAll_eq_map howns hsub,
    readAll_eq_map howns fun a ha => mem_held_of_mem_buffersToWrite ha, hwrite, cut, List.length_map]
  split
  · exact List.map_take
  · rfl

theorem Matched.test (hm : Matched s t) (hs' : Accounted s') {pc : Pc} (hpc : s.pc = .testing)
    (hpc' : s'.pc = pc) (hphase : pc.phase = if s.running then .locking else .finished)
    (hrunning : s'.running = s.running) (hsame : SameShared s.holders s'.holders) :
    Answered s' t := by
  have hold : t.phase = .testing := hm.phase.trans (congrArg Pc.phase hpc)
  have hr := hm.ready (by rw [hold]; decide)
  have hnew : s'.pc.phase = if t.running then .locking else .finished := by
    rw [hpc', hphase, hm.running]
  refine .inr ⟨.test, _, ?_, hm.withPhase hs' hsame (by rw [hold]; decide) ?_ fun hstopped => ?_⟩
  · rw [step, if_pos hold, hr.test, hnew, hrunning, ← hm.running]
  · rw [hnew]
    split <;> decide
  · rw [hrunning, ← hm.running]
    refine ⟨(hm.stopped hstopped).1, ?_⟩
    rw [hnew]
    split <;> decide

/-- The end of `threadFunc`'s body is where the whole batch counts as written. -/
theorem Matched.write (hm : Matched s t) (hs' : Accounted s') (hpc : s.pc = .clearing)
    (hpc' : s'.pc = .testing) (hrunning : s'.running = s.running)
    (hsame : SameShared s.holders s'.holders) : Answered s' t := by
  have hold : t.phase = .writing := hm.phase.trans (congrArg Pc.phase hpc)
  obtain ⟨done, hw⟩ := hm.writing hold
  obtain ⟨hcurrent, hnext, hbuffers⟩ := hsame.read
  have hstep : step t .write = some t.write := if_pos hold
  rw [hw.write] at hstep
  refine .inr ⟨.write, _, hstep, ⟨hm.running.trans hrunning.symm, ?_, hcurrent.trans hm.current,
    hnext.trans hm.next, hbuffers.trans hm.buffers, ?_⟩, hs',
    fun _ => ⟨congrArg (List.flatMap kept) hw.batches_eq.symm, rfl, rfl, rfl⟩, fun hphase => ?_,
    fun hstopped => ⟨(hm.stopped hstopped).1, Phase.noConfusion⟩⟩
  · rw [hpc']
    rfl
  · rw [hpc']
    trivial
  · cases hphase

theorem Matched.thread (hm : Matched s t) (hr : s.thread = some (.ok s')) : Answered s' t := by
  obtain ⟨_, hok, hs'⟩ := hm.accounted.thread_step hr
  cases hok
  have howns := hm.accounted.owns
  have hthread := hm.accounted.thread
  unfold Process.thread at hr
  cases hpc : s.pc with
  | notStarted | entering | finished =>
    rw [hpc] at hr
    cases hr
  | testing =>
    rw [hpc] at hr hthread
    obtain ⟨hspare1, hspare2, hwrite⟩ := hthread
    dsimp only at hr
    split at hr
    · next hrun =>
      obtain ⟨hdo, hpc', hrunning⟩ := goto_eq_ok hr
      rw [hspare1.assertSpare, hspare2.assertSpare, ensure_eq_ok hwrite] at hdo
      refine hm.test hs' hpc hpc' (by rw [hrun]; rfl) hrunning ?_
      rw [← Except.ok.inj hdo]
      exact .refl _
    · next hrun =>
      obtain ⟨hdo, hpc', hrunning⟩ := goto_eq_ok hr
      obtain ⟨h', hleave, -, hsame, -⟩ := leave_eq howns
      obtain rfl := Except.ok.inj (hdo.symm.trans hleave)
      exact hm.test hs' hpc hpc' (by rw [if_neg hrun]; rfl) hrunning hsame
  | locking =>
    rw [hpc] at hr hthread
    have hold : t.phase = .locking := hm.phase.trans (congrArg Pc.phase hpc)
    have hlock : step t .lock =
        if t.buffers = [] then some (.ok { t with phase := .waiting }) else some t.take :=
      if_pos hold
    have hiff : t.buffers = [] ↔ s.holders.buffers = [] := by
      rw [← hm.buffers, readAll_buffers_eq_nil howns]
    dsimp only at hr
    split at hr
    · next hnil =>
      obtain ⟨hdo, hpc', hrunning⟩ := goto_eq_ok hr
      have hsame : SameShared s.holders s'.holders := by
        rw [← Except.ok.inj hdo]
        exact .refl _
      refine .inr ⟨.lock, _, ?_, hm.withPhase hs' hsame (by rw [hold]; decide)
        (by rw [hpc']; decide) fun hstopped => ?_⟩
      · rw [hlock, if_pos (hiff.mpr hnil), hpc', hrunning, ← hm.running]
        rfl
      · rw [hrunning, ← hm.running, hpc']
        exact ⟨(hm.stopped hstopped).1, by decide⟩
    · next hne =>
      obtain ⟨htake, hpc', hrunning⟩ := goto_eq_ok hr
      obtain ⟨t', ht', hm'⟩ := hm.take hthread (by rw [hold]; decide) htake hpc' hrunning hs'
      exact .inr ⟨.lock, t', by rw [hlock, if_neg fun hnil => hne (hiff.mp hnil), ht'], hm'⟩
  | waiting =>
    rw [hpc] at hr hthread
    have hold : t.phase = .waiting := hm.phase.trans (congrArg Pc.phase hpc)
    obtain ⟨htake, hpc', hrunning⟩ := goto_eq_ok hr
    obtain ⟨t', ht', hm'⟩ := hm.take hthread (by rw [hold]; decide) htake hpc' hrunning hs'
    exact .inr ⟨.wake, t', by rw [step, if_pos hold, ht'], hm'⟩
  | taken =>
    rw [hpc] at hr hthread
    have hbatch := hm.batch
    rw [hpc] at hbatch
    dsimp only at hr
    rw [ensure_eq_ok (Batch.nonempty hthread), ok_bind] at hr
    obtain ⟨h', hcut, -, hsame, -⟩ := keepTwo_eq howns 25
    exact hm.goto hs' hr (by rw [hpc]; rfl) ⟨h', hcut, hsame, hbatch.keepTwo howns hcut⟩
  | output =>
    rw [hpc] at hr
    exact hm.goto hs' hr (by rw [hpc]; rfl) ⟨s.holders, output_eq howns, .refl _, trivial⟩
  | shrinking =>
    rw [hpc] at hr
    obtain ⟨h', hcut, -, hsame, -⟩ := keepTwo_eq howns 2
    exact hm.goto hs' hr (by rw [hpc]; rfl) ⟨h', hcut, hsame, trivial⟩
  | refilling1 =>
    rw [hpc] at hr hthread
    obtain ⟨h', hrefill, -, hsame, -⟩ := Batch.refill1 hthread howns
    exact hm.goto hs' hr (by rw [hpc]; rfl) ⟨h', hrefill, hsame, trivial⟩
  | refilling2 =>
    rw [hpc] at hr hthread
    obtain ⟨h', hrefill, -, hsame, -⟩ := Refilled.refill2 hthread howns
    exact hm.goto hs' hr (by rw [hpc]; rfl) ⟨h', hrefill, hsame, trivial⟩
  | clearing =>
    rw [hpc] at hr
    obtain ⟨hdo, hpc', hrunning⟩ := goto_eq_ok hr
    obtain ⟨h', hclear, -, hsame, -⟩ := clear_eq howns
    obtain rfl := Except.ok.inj (hdo.symm.trans hclear)
    exact hm.write hs' hpc hpc' hrunning hsame

/-- A second call of `stop()` changes nothing. -/
theorem Matched.stop (hm : Matched s t) (hold : t.phase ≠ .notStarted)
    (hs' : Accounted { s with running := false }) : Answered { s with running := false } t := by
  by_cases hstopped : t.stopped = none
  · refine .inr ⟨.stop, { t with running := false, stopped := some t.appended },
      if_pos ⟨hold, hstopped⟩, ⟨rfl, hm.phase, hm.current, hm.next, hm.buffers,
        hm.batch.congr rfl rfl⟩, hs', fun hphase => (hm.ready hphase).congr rfl, fun hphase => ?_,
      fun _ => ⟨rfl, hold⟩⟩
    obtain ⟨done, hw⟩ := hm.writing hphase
    exact ⟨done, hw.congr rfl⟩
  · exact .inl ⟨⟨(hm.stopped hstopped).1, hm.phase, hm.current, hm.next, hm.buffers, hm.batch⟩, hs',
      hm.ready, hm.writing, hm.stopped⟩

theorem Matched.step (hm : Matched s t) {a : Act} (hr : s.step a = some (.ok s')) :
    Answered s' t := by
  obtain ⟨_, hok, hs'⟩ := hm.accounted.step hr
  cases hok
  cases a with
  | append line fresh =>
    obtain ⟨hfree, hr⟩ := Option.ite_none_right_eq_some.mp hr
    obtain ⟨happend, hpc, hrunning⟩ := goto_eq_ok hr
    exact .inr ⟨.append line, _, rfl, hm.append hfree happend hpc hrunning hs'⟩
  | start =>
    obtain ⟨hpc, hr⟩ := Option.ite_none_right_eq_some.mp hr
    cases hr
    have hold : t.phase = .notStarted := hm.phase.trans (congrArg Pc.phase hpc)
    refine .inr ⟨.start, _, if_pos hold, hm.withPhase hs' (.refl _) (by rw [hold]; decide)
      Phase.noConfusion fun hstopped => ?_⟩
    exact absurd hold (hm.stopped hstopped).2
  | stop =>
    obtain ⟨⟨hpc, -⟩, hr⟩ := Option.ite_none_right_eq_some.mp hr
    cases hr
    have hold : t.phase ≠ .notStarted := by
      rw [hm.phase]
      cases hcase : s.pc <;> first | decide | exact absurd hcase hpc
    exact hm.stop hold hs'
  | enter fresh1 fresh2 =>
    obtain ⟨⟨hpc, hfree1, hfree2, hne⟩, hr⟩ := Option.ite_none_right_eq_some.mp hr
    rw [ensure_eq_ok (hm.accounted.running hpc)] at hr
    exact hm.goto hs' hr (by rw [hpc]; rfl)
      ⟨_, rfl, enter_shared hm.accounted.owns hfree1 hfree2, trivial⟩
  | thread => exact hm.thread hr

/-- Every run of `Process` is one of `System`, seen through the pointers. -/
theorem exists_system_of_process
    (hrun : Run Process.step (fun _ _ => True) Constructed (.ok s)) :
    ∃ t, Run step (fun _ _ => True) (· = System.new) (.ok t) ∧ Shows s t := by
  obtain ⟨t, ht, hm⟩ : ∃ t, Run step (fun _ _ => True) (· = System.new) (.ok t) ∧ Matched s t := by
    refine hrun.simulated (fun s hs => ⟨.new, rfl, hs.matched⟩) fun s a s' t hm _ hr => ?_
    rcases hm.step hr with hm' | ⟨b, t', hb, hm'⟩
    · exact .inl hm'
    · exact .inr ⟨b, t', trivial, hb, hm'⟩
  exact ⟨t, ht, hm.toShows⟩

end DbdkyGcc.Logging
