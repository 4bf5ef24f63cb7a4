import DbdkyGcc.Logging.Async
import DbdkyGcc.Logging.Output

/-!
# From the loggers to the disk

The logging thread has a `LogFile` of its own. It appends what it keeps of each batch,
flushes the file at the end of each round and once more after its loop, and closes it when
it returns. The two models run together here: `step` takes an action of the threads and
does to the log file what the thread does.

Nothing is duplicated or reordered on the way, whatever fails. When the logger was stopped
in time and no call has failed, the files have all lines, each of them whole in one file.
-/

namespace DbdkyGcc.Logging

open Foundations

/-- `Timestamp::toFormattedString`. -/
def toFormattedString (microSecondsSinceEpoch : Int) : List Char :=
  let seconds := microSecondsSinceEpoch.tdiv 1000000
  let microseconds := microSecondsSinceEpoch.tmod 1000000
  let tm := gmtime seconds
  snprintf 32 (spacePadded 4 tm.date.year ++ (zeroPadded 2 tm.date.month ++
    (zeroPadded 2 tm.date.day ++ (' ' :: (zeroPadded 2 tm.hour ++ (':' :: (zeroPadded 2 tm.min ++
      (':' :: (zeroPadded 2 tm.sec ++ ('.' :: zeroPadded 6 microseconds))))))))))

/-- The text that `LogFile::append` gets, at the time `now` in microseconds. -/
def Chunk.text (now : Int) : Chunk → List UInt8
  | .dropped n => chars (snprintf 256 ("Dropped log messages at ".toList ++
      (toFormattedString now ++ (", ".toList ++ (decimal n ++ " larger buffers\n".toList)))))
  | .buffer lines => lines.flatten

/-- An action of the threads, with what the calls of the logging thread meet: the second in which the
log file is constructed, the time in the message about dropped buffers, what the appends of the
batch meet, and what `LogFile::flush` and `~LogFile` do. -/
structure Event where
  action : Action
  opened : Int := 0
  noted : Int := 0
  outcomes : List Outcome := []
  flushing : Option Failing := none
  closing : Option Failing := none

inductive PipelineFault
  | logging (f : Fault)
  | output (f : LogFile.Fault)
  deriving DecidableEq, Repr

/-- The logger, and the variable `output` of `threadFunc`, which has no file before the thread has
constructed it. -/
structure Pipeline where
  logging : System
  output : Output

namespace Pipeline

def new (disk : List Char → List UInt8) : Pipeline :=
  ⟨.new, ⟨0, 0, 0, 0, none, [], 0⟩, [], disk, false⟩

/-- What the logging thread does to `output`. -/
def respond (c : Settings) (s : Pipeline) (e : Event) : Option (Except LogFile.Fault Output) :=
  match e.action with
  | .start => some (.ok (.construct c s.output.disk e.opened))
  | .write => do
    let m ← s.output.appendAll c ((kept s.logging.buffersToWrite).map (Chunk.text e.noted))
      e.outcomes
    some (do (← m).flushFile e.flushing)
  | .test =>
    if s.logging.running then some (.ok s.output)
    else some (do
      let output ← s.output.flushFile e.flushing
      pure (output.destroy e.closing))
  | .append _ | .stop | .join | .lock | .wake => some (.ok s.output)

def step (c : Settings) (s : Pipeline) (e : Event) : Option (Except PipelineFault Pipeline) := do
  let m ← Logging.step s.logging e.action
  let r ← s.respond c e
  some (do
    let output ← r.mapError .output
    let logging ← m.mapError .logging
    pure ⟨logging, output⟩)

/-- The clock is past the beginning of 1970 when the log file is constructed. -/
def InTime : Event → Prop
  | ⟨.start, opened, _, _, _, _⟩ => 0 < opened
  | _ => True

/-- `stop()` is called in time. -/
def Allowed (s : Pipeline) (e : Event) : Prop := Orderly s.logging e.action ∧ InTime e

instance : ∀ e, Decidable (InTime e)
  | ⟨.start, opened, _, _, _, _⟩ => inferInstanceAs (Decidable (0 < opened))
  | ⟨.append _, _, _, _, _, _⟩ | ⟨.stop, _, _, _, _, _⟩ | ⟨.join, _, _, _, _, _⟩
  | ⟨.test, _, _, _, _, _⟩ | ⟨.lock, _, _, _, _, _⟩ | ⟨.wake, _, _, _, _, _⟩
  | ⟨.write, _, _, _, _, _⟩ => .isTrue trivial

instance (s : Pipeline) (e : Event) : Decidable (Allowed s e) := instDecidableAnd

end Pipeline

/-! ### The steps of the threads -/

/-- Where the logging thread gets to by an action, and what it hands on by it. -/
inductive Moves (s t : System) : Action → Prop
  | append {line : Line} (hphase : t.phase = s.phase) (houtput : t.output = s.output) :
    Moves s t (.append line)
  | start (hs : s.phase = .notStarted) (ht : t.phase = .testing) (houtput : t.output = s.output) :
    Moves s t .start
  | stop (hs : s.phase ≠ .notStarted) (hphase : t.phase = s.phase) (houtput : t.output = s.output) :
    Moves s t .stop
  | join (hs : s.phase = .finished) (hphase : t.phase = s.phase) (houtput : t.output = s.output) :
    Moves s t .join
  | test (hs : s.phase = .testing) (ht : t.phase = if s.running then .locking else .finished)
    (houtput : t.output = s.output) : Moves s t .test
  | lock (hs : s.phase = .locking) (ht : t.phase = .waiting ∨ t.phase = .writing)
    (houtput : t.output = s.output) : Moves s t .lock
  | wake (hs : s.phase = .waiting) (ht : t.phase = .writing) (houtput : t.output = s.output) :
    Moves s t .wake
  | write (hs : s.phase = .writing) (ht : t.phase = .testing)
    (houtput : t.output = s.output ++ kept s.buffersToWrite) : Moves s t .write

theorem take_moves {s t : System} (h : s.take = .ok t) :
    t.phase = .writing ∧ t.output = s.output := by
  unfold System.take at h
  obtain ⟨b, -, h⟩ := bind_eq_ok_iff.mp h
  obtain ⟨-, h⟩ := ensure_bind_eq_ok_iff.mp h
  cases h
  exact ⟨rfl, rfl⟩

theorem test_moves {s t : System} (h : s.test = .ok t) :
    t.phase = (if s.running then .locking else .finished) ∧ t.output = s.output := by
  unfold System.test at h
  split at h
  · next hrunning =>
    obtain ⟨-, h⟩ := ensure_bind_eq_ok_iff.mp h
    obtain ⟨-, h⟩ := ensure_bind_eq_ok_iff.mp h
    obtain ⟨-, h⟩ := ensure_bind_eq_ok_iff.mp h
    cases h
    rw [if_pos hrunning]
    exact ⟨rfl, rfl⟩
  · next hrunning =>
    cases h
    rw [if_neg hrunning]
    exact ⟨rfl, rfl⟩

theorem write_moves {s t : System} (h : s.write = .ok t) :
    t.phase = .testing ∧ t.output = s.output ++ kept s.buffersToWrite := by
  unfold System.write at h
  obtain ⟨⟨b, left⟩, -, h⟩ := bind_eq_ok_iff.mp h
  obtain ⟨⟨b', left'⟩, -, h⟩ := bind_eq_ok_iff.mp h
  cases h
  refine ⟨rfl, ?_⟩
  rw [← note_append_eq_kept, ← List.append_assoc]

theorem moves_of_step {s t : System} {a : Action} (h : step s a = some (.ok t)) :
    Moves s t a := by
  cases a with
  | append line =>
    cases h
    unfold System.append
    dsimp only
    split
    · exact .append rfl rfl
    · exact .append rfl rfl
  | start =>
    obtain ⟨hs, h⟩ := Option.ite_none_right_eq_some.mp h
    cases h
    exact .start hs rfl rfl
  | stop =>
    obtain ⟨hs, h⟩ := Option.ite_none_right_eq_some.mp h
    cases h
    exact .stop hs.1 rfl rfl
  | join =>
    obtain ⟨hs, h⟩ := Option.ite_none_right_eq_some.mp h
    cases h
    exact .join hs.2 rfl rfl
  | test =>
    obtain ⟨hs, h⟩ := Option.ite_none_right_eq_some.mp h
    obtain ⟨ht, houtput⟩ := test_moves (Option.some.inj h)
    exact .test hs ht houtput
  | lock =>
    obtain ⟨hs, h⟩ := Option.ite_none_right_eq_some.mp h
    split at h
    · cases h
      exact .lock hs (.inl rfl) rfl
    · obtain ⟨ht, houtput⟩ := take_moves (Option.some.inj h)
      exact .lock hs (.inr ht) houtput
  | wake =>
    obtain ⟨hs, h⟩ := Option.ite_none_right_eq_some.mp h
    obtain ⟨ht, houtput⟩ := take_moves (Option.some.inj h)
    exact .wake hs ht houtput
  | write =>
    obtain ⟨hs, h⟩ := Option.ite_none_right_eq_some.mp h
    obtain ⟨ht, houtput⟩ := write_moves (Option.some.inj h)
    exact .write hs ht houtput

/-! ### What has been written -/

/-- The text of a chunk, at some time. -/
def Chunk.Reads (chunk : Chunk) (text : List UInt8) : Prop := ∃ now, text = chunk.text now

theorem forall₂_reads (now : Int) (chunks : List Chunk) :
    List.Forall₂ Chunk.Reads chunks (chunks.map (Chunk.text now)) :=
  List.forall₂_map_right_iff.mpr (List.forall₂_same.mpr fun _ _ => ⟨now, rfl⟩)

namespace Pipeline

/-- What the logging thread has handed on has been appended to the log file. -/
structure Written (c : Settings) (disk : List Char → List UInt8) (s : Pipeline) : Prop where
  held : ∃ texts, List.Forall₂ Chunk.Reads s.logging.output texts ∧
    Output.Holds c disk s.output texts
  fresh : s.logging.phase = .notStarted → s.logging.output = [] ∧ s.output.disk = disk

variable {c : Settings} {disk : List Char → List UInt8} {s t : Pipeline} {e : Event}

theorem step_eq_ok (h : step c s e = some (.ok t)) :
    Logging.step s.logging e.action = some (.ok t.logging) ∧
      s.respond c e = some (.ok t.output) := by
  obtain ⟨m, hm, h⟩ := Option.bind_eq_some_iff.mp h
  obtain ⟨r, hr, h⟩ := Option.bind_eq_some_iff.mp h
  cases r with
  | error f => cases h
  | ok output =>
    cases m with
    | error f => cases h
    | ok logging =>
      cases h
      exact ⟨hm, hr⟩

theorem written_new (c : Settings) (disk : List Char → List UInt8) : Written c disk (new disk) := by
  refine ⟨⟨[], .nil, [], [], ⟨rfl, .nil, nofun, nofun, le_rfl⟩, .nil, nofun, fun _ => rfl, rfl,
    fun _ _ => rfl⟩, fun _ => ⟨rfl, rfl⟩⟩

/-- An action that leaves the log file alone. -/
theorem Written.quiet (hs : Written c disk s) (houtput : t.logging.output = s.logging.output)
    (hfile : t.output = s.output)
    (hphase : t.logging.phase = .notStarted → s.logging.phase = .notStarted) :
    Written c disk t := by
  refine ⟨?_, fun hfresh => ?_⟩
  · rw [houtput, hfile]
    exact hs.held
  · rw [houtput, hfile]
    exact hs.fresh (hphase hfresh)

theorem Written.step (hs : Written c disk s) (h : step c s e = some (.ok t)) :
    Written c disk t := by
  obtain ⟨hstep, hrespond⟩ := step_eq_ok h
  obtain ⟨texts, hreads, hholds⟩ := hs.held
  obtain ⟨action, opened, noted, outcomes, flushing, closing⟩ := e
  cases moves_of_step hstep with
  | append hphase houtput =>
    exact hs.quiet houtput (Except.ok.inj (Option.some.inj hrespond)).symm fun ht => hphase ▸ ht
  | start hnot ht houtput =>
    obtain ⟨hnone, hdisk⟩ := hs.fresh hnot
    have hfile : t.output = .construct c disk opened := by
      rw [← hdisk]
      exact (Except.ok.inj (Option.some.inj hrespond)).symm
    refine ⟨⟨[], ?_, hfile ▸ Output.holds_construct c disk opened⟩, fun hphase => ?_⟩
    · rw [houtput, hnone]
      exact .nil
    · rw [ht] at hphase
      cases hphase
  | stop hstarted hphase houtput =>
    exact hs.quiet houtput (Except.ok.inj (Option.some.inj hrespond)).symm fun ht => hphase ▸ ht
  | join hfinished hphase houtput =>
    exact hs.quiet houtput (Except.ok.inj (Option.some.inj hrespond)).symm fun ht => hphase ▸ ht
  | test htesting ht houtput =>
    have hstarted : t.logging.phase ≠ .notStarted := by
      rw [ht]
      split
      · nofun
      · nofun
    simp only [respond] at hrespond
    split at hrespond
    · exact hs.quiet houtput (Except.ok.inj (Option.some.inj hrespond)).symm
        fun hnot => absurd hnot hstarted
    · obtain ⟨o, hflush, hdestroy⟩ := bind_eq_ok_iff.mp (Option.some.inj hrespond)
      obtain ⟨groups, hkept⟩ := (hholds.flushFile hflush).destroy closing
      refine ⟨⟨texts, houtput ▸ hreads, groups, [], ?_⟩, fun hnot => absurd hnot hstarted⟩
      rw [pure_eq_ok_iff.mp hdestroy]
      exact hkept
  | lock hlocking ht houtput =>
    refine hs.quiet houtput (Except.ok.inj (Option.some.inj hrespond)).symm fun hnot => ?_
    rw [hnot] at ht
    rcases ht with ht | ht
    · cases ht
    · cases ht
  | wake hwaiting ht houtput =>
    refine hs.quiet houtput (Except.ok.inj (Option.some.inj hrespond)).symm fun hnot => ?_
    rw [hnot] at ht
    cases ht
  | write hwriting ht houtput =>
    obtain ⟨m, happend, hbind⟩ := Option.bind_eq_some_iff.mp hrespond
    obtain ⟨o, rfl, hflush⟩ := bind_eq_ok_iff.mp (Option.some.inj hbind)
    refine ⟨⟨_, ?_, (hholds.appendAll happend).flushFile hflush⟩, fun hphase => ?_⟩
    · rw [houtput]
      exact List.rel_append hreads (forall₂_reads noted _)
    · rw [ht] at hphase
      cases hphase

/-- The logger works, and the log file is open as long as the logging thread runs. -/
structure Flowing (c : Settings) (disk : List Char → List UInt8) (s : Pipeline) : Prop where
  sound : Sound s.logging
  written : Written c disk s
  opened : s.logging.phase ≠ .notStarted → s.logging.phase ≠ .finished →
    s.output.log.file.isSome = true
  closed : s.logging.phase = .finished → s.output.log.file = none

/-- The log file is open when the logging thread uses it. -/
theorem Flowing.respond (hs : Flowing c disk s) (he : Allowed s e) {l : System}
    (hl : Logging.step s.logging e.action = some (.ok l)) {m : Except LogFile.Fault Output}
    (hm : s.respond c e = some m) :
    ∃ o, m = .ok o ∧ (l.phase ≠ .notStarted → l.phase ≠ .finished → o.log.file.isSome = true) ∧
      (l.phase = .finished → o.log.file = none) := by
  obtain ⟨-, htime⟩ := he
  obtain ⟨action, opened, noted, outcomes, flushing, closing⟩ := e
  -- the log file of a thread that is running before and after the action
  have hopen : ∀ {o : Output}, o.log.file.isSome = true → l.phase ≠ .finished →
      (l.phase ≠ .notStarted → l.phase ≠ .finished → o.log.file.isSome = true) ∧
      (l.phase = .finished → o.log.file = none) :=
    fun ho hne => ⟨fun _ _ => ho, fun heq => absurd heq hne⟩
  cases moves_of_step hl with
  | append hphase houtput =>
    cases hm
    rw [hphase]
    exact ⟨_, rfl, hs.opened, hs.closed⟩
  | start hnot ht houtput =>
    cases hm
    refine ⟨_, rfl, hopen (Output.isSome_construct htime _) ?_⟩
    rw [ht]
    nofun
  | stop hstarted hphase houtput =>
    cases hm
    rw [hphase]
    exact ⟨_, rfl, hs.opened, hs.closed⟩
  | join hfinished hphase houtput =>
    cases hm
    rw [hphase]
    exact ⟨_, rfl, hs.opened, hs.closed⟩
  | test htesting ht houtput =>
    have ho := hs.opened (by rw [htesting]; nofun) (by rw [htesting]; nofun)
    simp only [Pipeline.respond] at hm
    split at hm
    · next hrunning =>
      cases hm
      refine ⟨_, rfl, hopen ho ?_⟩
      rw [ht, if_pos hrunning]
      nofun
    · next hrunning =>
      obtain ⟨o, hflush, -⟩ := Output.flushFile_isSome ho flushing
      rw [hflush] at hm
      cases hm
      refine ⟨_, rfl, fun _ hne => ?_, fun _ => Output.file_destroy o closing⟩
      rw [ht, if_neg hrunning] at hne
      exact absurd rfl hne
  | lock hlocking ht houtput =>
    have ho := hs.opened (by rw [hlocking]; nofun) (by rw [hlocking]; nofun)
    cases hm
    refine ⟨_, rfl, hopen ho fun heq => ?_⟩
    rw [heq] at ht
    rcases ht with ht | ht
    · cases ht
    · cases ht
  | wake hwaiting ht houtput =>
    have ho := hs.opened (by rw [hwaiting]; nofun) (by rw [hwaiting]; nofun)
    cases hm
    refine ⟨_, rfl, hopen ho ?_⟩
    rw [ht]
    nofun
  | write hwriting ht houtput =>
    have ho := hs.opened (by rw [hwriting]; nofun) (by rw [hwriting]; nofun)
    obtain ⟨m', happend, hm⟩ := Option.bind_eq_some_iff.mp hm
    obtain ⟨o₁, rfl, ho₁⟩ := Output.appendAll_isSome ho happend
    obtain ⟨o₂, hflush, ho₂⟩ := Output.flushFile_isSome ho₁ flushing
    have hflush' : m = .ok o₂ := by
      rw [← hflush]
      exact (Option.some.inj hm).symm
    refine ⟨o₂, hflush', hopen ho₂ ?_⟩
    rw [ht]
    nofun

theorem Flowing.step (hs : Flowing c disk s) (he : Allowed s e)
    {m : Except PipelineFault Pipeline} (h : step c s e = some m) :
    ∃ t, m = .ok t ∧ Flowing c disk t := by
  obtain ⟨m₁, hm₁, h'⟩ := Option.bind_eq_some_iff.mp h
  obtain ⟨m₂, hm₂, h'⟩ := Option.bind_eq_some_iff.mp h'
  obtain ⟨l, rfl, hsound⟩ := hs.sound.step he.1 hm₁
  obtain ⟨o, rfl, hopened, hclosed⟩ := hs.respond he hm₁ hm₂
  cases h'
  exact ⟨_, rfl, hsound, hs.written.step h, hopened, hclosed⟩

/-! ### The files -/

/-- What the files have got, the open one included. -/
theorem exists_groups {o : Output} {texts : List (List UInt8)} (h : Output.Holds c disk o texts) :
    ∃ groups : List (List (List UInt8)), groups.flatten = texts ∧
      List.Forall₂ (fun f texts => ∃ got, o.disk f.name = disk f.name ++ got ∧
        got.Sublist texts.flatten ∧ (o.failed = false →
          got <+: texts.flatten ∧ (f ∈ o.log.closed → got = texts.flatten)))
        o.log.files groups := by
  obtain ⟨groups, current, h⟩ := h
  have hclosed := h.closed.imp fun f texts (hgot : Output.Got _ _ _ _ _) => by
    obtain ⟨got, hdisk, hsub, hall⟩ := hgot
    rw [List.append_nil] at hsub hall
    exact (⟨got, hdisk, hsub, fun hok => ⟨hall hok ▸ List.prefix_rfl, fun _ => hall hok⟩⟩ :
      ∃ got, o.disk f.name = disk f.name ++ got ∧ got.Sublist texts.flatten ∧ (o.failed = false →
        got <+: texts.flatten ∧ (f ∈ o.log.closed → got = texts.flatten)))
  rcases Option.eq_none_or_eq_some o.log.file with hnone | ⟨f, hf⟩
  · obtain rfl := h.idle hnone
    refine ⟨groups, ?_, ?_⟩
    · rw [← h.texts, List.append_nil]
    · rw [LogFile.files, hnone, Option.toList_none, List.append_nil]
      exact hclosed
  · obtain ⟨got, hdisk, hsub, hall⟩ := h.file f hf
    refine ⟨groups ++ [current], ?_, ?_⟩
    · rw [← h.texts, List.flatten_append, List.flatten_singleton]
    · rw [LogFile.files, hf]
      refine List.rel_append hclosed (.cons ⟨got, hdisk, ?_, fun hok => ⟨?_, fun hmem => ?_⟩⟩ .nil)
      · exact (List.sublist_append_left got o.buffered).trans hsub
      · rw [← hall hok]
        exact List.prefix_append _ _
      · exact absurd rfl (h.name_ne hf hmem)

/-- In every run, whatever calls fail and whenever `stop()` is called, the files have got, in the
order in which they were opened, bytes of the chunks in the order in which the logging thread has
handed them on, no chunk in two files. As long as no call has failed nothing is missing but the end
of the open file, which is still in its buffer. No other file has changed. -/
theorem log_files_in_order (c : Settings) (disk : List Char → List UInt8)
    {p : Except PipelineFault Pipeline} (h : Run (step c) (fun _ _ => True) (· = new disk) p)
    (s : Pipeline) (hp : p = .ok s) :
    (∃ groups : List (List (List UInt8)),
      List.Forall₂ Chunk.Reads s.logging.output groups.flatten ∧
      List.Forall₂ (fun f texts => ∃ got, s.output.disk f.name = disk f.name ++ got ∧
        got.Sublist texts.flatten ∧ (s.output.failed = false →
          got <+: texts.flatten ∧ (f ∈ s.output.log.closed → got = texts.flatten)))
        s.output.log.files groups) ∧
    (s.output.log.files.map File.name).Nodup ∧
    ∀ n, n ∉ s.output.log.files.map File.name → s.output.disk n = disk n := by
  have hs : Written c disk s := by
    refine Run.invariant ?_ (fun s e t hs _ ht => hs.step ht) h s hp
    rintro s rfl
    exact written_new c disk
  obtain ⟨texts, hreads, hholds⟩ := hs.held
  obtain ⟨groups, rfl, hfiles⟩ := exists_groups hholds
  obtain ⟨_, _, hkept⟩ := hholds
  exact ⟨⟨groups, hreads, hfiles⟩, hkept.ordered.nodup_names, hkept.others⟩

/-- The first call for a line takes two of its bytes and loses them; the loop goes on with the third.
The next line is there. -/
theorem log_files_in_order_failed :
    ∃ c s, Run (step c) (fun _ _ => True) (· = new fun _ => []) (.ok s) ∧
      s.logging.output = [.buffer [[1, 2, 3]], .buffer [[4]]] ∧
      s.output.log.files.map (fun f => s.output.disk f.name) = [[3, 4]] ∧
      (s.output.log.files.map File.name).Nodup := by
  let c : Settings := ⟨['d'], 100, 3, ['h'], 7⟩
  have hex : seen (exec (faulting (step c)) (.ok (new fun _ => []))
      [{ action := .append [1, 2, 3] }, { action := .start, opened := 1000 }, { action := .test },
        { action := .lock }, { action := .wake },
        { action := .write,
          outcomes := [⟨[⟨2, 0, []⟩, ⟨1, 0, []⟩], 1000, 1000, 1000, none, none⟩] },
        { action := .test }, { action := .append [4] }, { action := .lock }, { action := .wake },
        { action := .write, outcomes := [⟨[⟨1, 0, []⟩], 1001, 1001, 1001, none, none⟩] }])
      (fun s => s.logging.output = [.buffer [[1, 2, 3]], .buffer [[4]]] ∧
        s.output.log.files.map (fun f => s.output.disk f.name) = [[3, 4]]) = true := by
    decide +kernel
  obtain ⟨s, hs, hcheck⟩ := exists_of_seen hex
  obtain ⟨houtput, hdisk⟩ := of_decide_eq_true hcheck
  have hrun : Run (step c) (fun _ _ => True) (· = new fun _ => []) (.ok s) :=
    Run.of_exec (· = new fun _ => []) rfl _ hs
  exact ⟨c, s, hrun, houtput, hdisk, (log_files_in_order c _ hrun s rfl).2.1⟩

end Pipeline

end DbdkyGcc.Logging
