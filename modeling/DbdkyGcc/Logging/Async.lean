import DbdkyGcc.Foundations.Runs

/-!
# Asynchronous logging

Threads append lines to a current buffer under a lock; full buffers collect in a
vector. The logging thread takes the vector together with the current buffer as
one batch, writes the batch to the log file without the lock, and goes round as
long as `running_` is set. A batch of more than 25 buffers is cut to its first
two.

All lines of the batches, followed by the lines that have not been taken, are
the lines appended so far. Whether the last lines are taken after `stop()`
depends on where the logging thread is when `running_` is cleared.
-/

namespace DbdkyGcc.Logging

open Foundations

/-- The text of a log line. -/
abbrev Line := List UInt8

def kLargeBuffer : Nat := 4000 * 1000

/-- `FixedBuffer<kLargeBuffer>`, by the lines that have been copied into it. -/
structure FixedBuffer where
  lines : List Line
  deriving DecidableEq

namespace FixedBuffer

def empty : FixedBuffer := ⟨[]⟩

def length (b : FixedBuffer) : Nat := (b.lines.map List.length).sum

def avail (b : FixedBuffer) : Nat := kLargeBuffer - b.length

/-- A line that does not fit is dropped. -/
def append (b : FixedBuffer) (line : Line) : FixedBuffer :=
  if line.length < b.avail then ⟨b.lines ++ [line]⟩ else b

def reset (_ : FixedBuffer) : FixedBuffer := empty

end FixedBuffer

/-- What `LogFile::append` is called with: the message about dropped buffers, or the data of a
buffer, which is its lines one after the other. -/
inductive Chunk
  | dropped (n : Nat)
  | buffer (lines : List Line)
  deriving DecidableEq

/-- Where the logging thread is: before `start()`, at the test of `running_`, at the lock, in
`waitForSeconds`, writing a batch, or at its end. -/
inductive Phase
  | notStarted
  | testing
  | locking
  | waiting
  | writing
  | finished
  deriving DecidableEq, Repr

/-- A failed assertion of `threadFunc`. -/
inductive Fault
  | newBuffer1
  | newBuffer2
  | buffersToWrite
  deriving DecidableEq, Repr

/-- The members of `AsyncLogging` and the variables of `threadFunc`, with the chunks that the log
file has got, the lines appended so far that fit a buffer, the batches taken so far, what had been
appended when `stop()` was called, and whether it has returned. -/
structure System where
  running : Bool
  phase : Phase
  currentBuffer : FixedBuffer
  nextBuffer : Option FixedBuffer
  buffers : List FixedBuffer
  newBuffer1 : Option FixedBuffer
  newBuffer2 : Option FixedBuffer
  buffersToWrite : List FixedBuffer
  output : List Chunk
  appended : List Line
  batches : List (List FixedBuffer)
  stopped : Option (List Line)
  returned : Bool

namespace System

def new : System :=
  { running := false
    phase := .notStarted
    currentBuffer := .empty
    nextBuffer := some .empty
    buffers := []
    newBuffer1 := some .empty
    newBuffer2 := some .empty
    buffersToWrite := []
    output := []
    appended := []
    batches := []
    stopped := none
    returned := false }

variable (s : System)

/-- `AsyncLogging::append`. -/
def append (line : Line) : System :=
  let s := { s with
    appended := if line.length < kLargeBuffer then s.appended ++ [line] else s.appended }
  if line.length < s.currentBuffer.avail then
    { s with currentBuffer := s.currentBuffer.append line }
  else
    { s with
      buffers := s.buffers ++ [s.currentBuffer]
      currentBuffer := (s.nextBuffer.getD .empty).append line
      nextBuffer := none }

/-- The test of the loop, and the assertions at the beginning of its body. -/
def test : Except Fault System :=
  if s.running then do
    ensure .newBuffer1 (s.newBuffer1.map FixedBuffer.length = some 0)
    ensure .newBuffer2 (s.newBuffer2.map FixedBuffer.length = some 0)
    ensure .buffersToWrite (s.buffersToWrite = [])
    pure { s with phase := .locking }
  else
    pure { s with phase := .finished }

/-- The batch is taken, and the spare buffers move in. -/
def take : Except Fault System := do
  let currentBuffer ← require .newBuffer1 s.newBuffer1
  let batch := s.buffers ++ [s.currentBuffer]
  ensure .buffersToWrite (batch ≠ [])
  pure { s with
    phase := .writing
    currentBuffer
    newBuffer1 := none
    buffers := []
    buffersToWrite := batch
    nextBuffer := if s.nextBuffer.isSome then s.nextBuffer else s.newBuffer2
    newBuffer2 := if s.nextBuffer.isSome then s.newBuffer2 else none
    batches := s.batches ++ [batch] }

/-- A spare buffer that has been used is replaced by one that has been written. -/
def recycle (b : Option FixedBuffer) (toWrite : List FixedBuffer) :
    Except Fault (Option FixedBuffer × List FixedBuffer) :=
  match b with
  | some b => pure (some b, toWrite)
  | none => do
    let last ← require .buffersToWrite toWrite.getLast?
    pure (some last.reset, toWrite.dropLast)

/-- The batch is written to the log file. -/
def write : Except Fault System := do
  let size := s.buffersToWrite.length
  let toWrite := if 25 < size then s.buffersToWrite.take 2 else s.buffersToWrite
  let note := if 25 < size then [Chunk.dropped (size - 2)] else []
  let output := s.output ++ note ++ toWrite.map fun b => .buffer b.lines
  let toWrite := if 2 < toWrite.length then toWrite.take 2 else toWrite
  let (newBuffer1, toWrite) ← recycle s.newBuffer1 toWrite
  let (newBuffer2, _) ← recycle s.newBuffer2 toWrite
  pure { s with phase := .testing, output, newBuffer1, newBuffer2, buffersToWrite := [] }

end System

inductive Action
  /-- Any thread. -/
  | append (line : Line)
  /-- The owner. -/
  | start
  | stop
  | join
  /-- The logging thread. The wait ends by a notification or by its time. -/
  | test
  | lock
  | wake
  | write

def step (s : System) : Action → Option (Except Fault System)
  | .append line => some (pure (s.append line))
  | .start =>
    if s.phase = .notStarted then some (pure { s with running := true, phase := .testing })
    else none
  | .stop =>
    if s.phase ≠ .notStarted ∧ s.stopped = none then
      some (pure { s with running := false, stopped := some s.appended })
    else none
  | .join =>
    if s.stopped.isSome = true ∧ s.phase = .finished then some (pure { s with returned := true })
    else none
  | .test => if s.phase = .testing then some s.test else none
  | .lock =>
    if s.phase = .locking then
      if s.buffers = [] then some (pure { s with phase := .waiting }) else some s.take
    else none
  | .wake => if s.phase = .waiting then some s.take else none
  | .write => if s.phase = .writing then some s.write else none

/-- The lines of some buffers. -/
def linesOf (buffers : List FixedBuffer) : List Line := buffers.flatMap FixedBuffer.lines

/-- What the log file gets of a batch. -/
def kept (batch : List FixedBuffer) : List Chunk :=
  if 25 < batch.length then
    .dropped (batch.length - 2) :: (batch.take 2).map fun b => .buffer b.lines
  else
    batch.map fun b => .buffer b.lines

/-- `stop()` is called while the logging thread is between its test of `running_` and taking a
batch, or when no line is waiting to be taken. -/
def Orderly (s : System) : Action → Prop
  | .stop =>
    s.phase = .locking ∨ s.phase = .waiting ∨ linesOf s.buffers ++ s.currentBuffer.lines = []
  | _ => True

instance (s : System) (a : Action) : Decidable (Orderly s a) :=
  match a with
  | .stop => inferInstanceAs (Decidable (_ ∨ _ ∨ _))
  | .append _ | .start | .join | .test | .lock | .wake | .write => .isTrue trivial

theorem linesOf_append (xs ys : List FixedBuffer) :
    linesOf (xs ++ ys) = linesOf xs ++ linesOf ys := List.flatMap_append

theorem linesOf_singleton (b : FixedBuffer) : linesOf [b] = b.lines := List.flatMap_singleton _ _

namespace FixedBuffer

theorem avail_empty : empty.avail = kLargeBuffer := rfl

theorem lines_append {b : FixedBuffer} {line : Line} (h : line.length < b.avail) :
    (b.append line).lines = b.lines ++ [line] := by
  rw [append, if_pos h]

theorem lines_append_of_not {b : FixedBuffer} {line : Line} (h : ¬line.length < b.avail) :
    b.append line = b := if_neg h

end FixedBuffer

/-- The logging thread has both spare buffers, and all batches have been written. -/
structure Ready (s : System) : Prop where
  output_eq : s.output = s.batches.flatMap kept
  newBuffer1_eq : s.newBuffer1 = some .empty
  newBuffer2_eq : s.newBuffer2 = some .empty
  buffersToWrite_eq : s.buffersToWrite = []

/-- The logging thread writes the last of the batches. -/
structure Writing (s : System) (done : List (List FixedBuffer)) : Prop where
  batches_eq : s.batches = done ++ [s.buffersToWrite]
  output_eq : s.output = done.flatMap kept
  newBuffer1_eq : s.newBuffer1 = none
  nonempty : s.buffersToWrite ≠ []
  newBuffer2 : s.newBuffer2 = some .empty ∨ s.newBuffer2 = none ∧ 2 ≤ s.buffersToWrite.length

/-- What only the logging thread changes. -/
def threadState (s : System) : List (List FixedBuffer) × List Chunk × Option FixedBuffer ×
    Option FixedBuffer × List FixedBuffer :=
  (s.batches, s.output, s.newBuffer1, s.newBuffer2, s.buffersToWrite)

theorem Ready.congr {s t : System} (h : Ready s) (ht : threadState t = threadState s) :
    Ready t := by
  simp only [threadState, Prod.mk.injEq] at ht
  obtain ⟨hbatches, houtput, hnew1, hnew2, htoWrite⟩ := ht
  constructor
  · rw [houtput, hbatches, h.output_eq]
  · rw [hnew1, h.newBuffer1_eq]
  · rw [hnew2, h.newBuffer2_eq]
  · rw [htoWrite, h.buffersToWrite_eq]

theorem Writing.congr {s t : System} {done : List (List FixedBuffer)} (h : Writing s done)
    (ht : threadState t = threadState s) : Writing t done := by
  simp only [threadState, Prod.mk.injEq] at ht
  obtain ⟨hbatches, houtput, hnew1, hnew2, htoWrite⟩ := ht
  constructor
  · rw [hbatches, htoWrite, h.batches_eq]
  · rw [houtput, h.output_eq]
  · rw [hnew1, h.newBuffer1_eq]
  · rw [htoWrite]
    exact h.nonempty
  · rw [hnew2, htoWrite]
    exact h.newBuffer2

/-- The lines that have not been taken. -/
def waitingLines (s : System) : List Line := linesOf s.buffers ++ s.currentBuffer.lines

structure Sound (s : System) : Prop where
  conserved : linesOf s.batches.flatten ++ waitingLines s = s.appended
  spare : ∀ b, s.nextBuffer = some b → b = .empty
  used : s.nextBuffer = none → s.buffers ≠ []
  ready : s.phase ≠ .writing → Ready s
  writing : s.phase = .writing → ∃ done, Writing s done
  stopping : ∀ before, s.stopped = some before → before <+: linesOf s.batches.flatten ∨
    (s.phase = .locking ∨ s.phase = .waiting) ∧ before <+: s.appended
  returned : s.returned = true → s.phase = .finished ∧ s.stopped.isSome = true

theorem sound_new : Sound System.new where
  conserved := rfl
  spare := by
    intro b h
    exact (Option.some.inj h).symm
  used := by
    intro h
    cases h
  ready := fun _ => ⟨rfl, rfl, rfl, rfl⟩
  writing := by
    intro h
    cases h
  stopping := by
    intro before h
    cases h
  returned := by
    intro h
    cases h

variable {s : System}

/-- The lines that had been appended before `stop()` have been appended. -/
theorem Sound.stopped_prefix (h : Sound s) {before : List Line} (hs : s.stopped = some before) :
    before <+: s.appended := by
  rcases h.stopping before hs with hleft | ⟨-, hright⟩
  · rw [← h.conserved]
    exact hleft.trans (List.prefix_append _ _)
  · exact hright

/-- A longer list of lines, with what the threads have of it. -/
theorem Sound.grow (h : Sound s) {currentBuffer : FixedBuffer} {nextBuffer : Option FixedBuffer}
    {buffers : List FixedBuffer} {appended : List Line} (happended : s.appended <+: appended)
    (hconserved : linesOf s.batches.flatten ++ (linesOf buffers ++ currentBuffer.lines) = appended)
    (hspare : ∀ b, nextBuffer = some b → b = .empty) (hused : nextBuffer = none → buffers ≠ []) :
    Sound { s with currentBuffer, nextBuffer, buffers, appended } where
  conserved := hconserved
  spare := hspare
  used := hused
  ready := fun hphase => (h.ready hphase).congr rfl
  writing := by
    intro hphase
    obtain ⟨done, hw⟩ := h.writing hphase
    exact ⟨done, hw.congr rfl⟩
  stopping := by
    intro before hs
    exact (h.stopping before hs).imp_right fun hr => ⟨hr.1, hr.2.trans happended⟩
  returned := h.returned

theorem Sound.append (h : Sound s) (line : Line) : Sound (s.append line) := by
  have hle : s.currentBuffer.avail ≤ kLargeBuffer := Nat.sub_le _ _
  have hfresh : s.nextBuffer.getD .empty = .empty := by
    cases hnext : s.nextBuffer with
    | none => rfl
    | some b => exact h.spare b hnext
  unfold System.append
  dsimp only
  split
  · next hfits =>
    have hshort : line.length < kLargeBuffer := Nat.lt_of_lt_of_le hfits hle
    rw [if_pos hshort]
    refine h.grow (List.prefix_append _ _) ?_ h.spare h.used
    rw [FixedBuffer.lines_append hfits, ← h.conserved, waitingLines]
    simp only [List.append_assoc]
  · rw [hfresh]
    have hpush : linesOf (s.buffers ++ [s.currentBuffer]) = waitingLines s := by
      rw [linesOf_append, linesOf_singleton, waitingLines]
    have hnext : (none : Option FixedBuffer) = none → s.buffers ++ [s.currentBuffer] ≠ [] := by
      intro _
      simp
    have hnone : ∀ b : FixedBuffer, none = some b → b = .empty := by
      intro b hb
      cases hb
    by_cases hshort : line.length < kLargeBuffer
    · rw [if_pos hshort]
      refine h.grow (List.prefix_append _ _) ?_ hnone hnext
      rw [FixedBuffer.lines_append (FixedBuffer.avail_empty ▸ hshort), hpush, ← h.conserved]
      simp only [List.append_assoc, FixedBuffer.empty, List.nil_append]
    · -- the line fits no buffer, and is not one of those that must not be lost
      rw [if_neg hshort, FixedBuffer.lines_append_of_not (FixedBuffer.avail_empty ▸ hshort)]
      refine h.grow (List.prefix_refl _) ?_ hnone hnext
      rw [hpush, ← h.conserved]
      simp only [FixedBuffer.empty, List.append_nil]

/-- The spare buffers take the places of those that go into the batch. -/
theorem Ready.take (hr : Ready s) :
    s.take = .ok { s with
      phase := .writing
      currentBuffer := .empty
      newBuffer1 := none
      buffers := []
      buffersToWrite := s.buffers ++ [s.currentBuffer]
      nextBuffer := if s.nextBuffer.isSome then s.nextBuffer else some .empty
      newBuffer2 := if s.nextBuffer.isSome then some .empty else none
      batches := s.batches ++ [s.buffers ++ [s.currentBuffer]] } := by
  have hbatch : s.buffers ++ [s.currentBuffer] ≠ [] := by simp
  rw [System.take, hr.newBuffer1_eq, hr.newBuffer2_eq]
  simp only [require, ok_bind, ensure_eq_ok hbatch]
  rfl

/-- A batch without the spare buffers that are missing has been taken. -/
theorem Ready.writing {t : System} (hr : Ready s) (hused : s.nextBuffer = none → s.buffers ≠ [])
    (ht : s.take = .ok t) : Writing t s.batches := by
  rw [hr.take] at ht
  cases ht
  refine ⟨rfl, hr.output_eq, rfl, by simp, ?_⟩
  dsimp only
  cases hnext : s.nextBuffer with
  | some b => exact .inl rfl
  | none =>
    refine .inr ⟨rfl, ?_⟩
    have hpos := List.length_pos_of_ne_nil (hused hnext)
    rw [List.length_append, List.length_singleton]
    omega

/-- Everything that has been appended is in the batches once one has been taken. -/
theorem Sound.take (h : Sound s) (hphase : s.phase = .locking ∨ s.phase = .waiting) :
    ∃ t, s.take = .ok t ∧ Sound t := by
  have hr : Ready s := by
    apply h.ready
    rcases hphase with hp | hp
    · simp [hp]
    · simp [hp]
  have hlines : linesOf (s.batches ++ [s.buffers ++ [s.currentBuffer]]).flatten = s.appended := by
    rw [List.flatten_append, linesOf_append, ← h.conserved, List.flatten_singleton,
      linesOf_append s.buffers, linesOf_singleton, waitingLines]
  refine ⟨_, hr.take, ?_⟩
  constructor
  · change linesOf (s.batches ++ [s.buffers ++ [s.currentBuffer]]).flatten ++
      (linesOf [] ++ FixedBuffer.empty.lines) = s.appended
    rw [hlines]
    simp [linesOf, FixedBuffer.empty]
  · intro b hb
    dsimp only at hb
    split at hb
    · exact h.spare b hb
    · exact (Option.some.inj hb).symm
  · intro hnone
    dsimp only at hnone
    split at hnone
    · next hsome =>
      rw [hnone] at hsome
      cases hsome
    · cases hnone
  · intro hnot
    exact absurd rfl hnot
  · exact fun _ => ⟨s.batches, hr.writing h.used hr.take⟩
  · intro before hs
    left
    change before <+: linesOf (s.batches ++ [s.buffers ++ [s.currentBuffer]]).flatten
    rw [hlines]
    exact h.stopped_prefix hs
  · intro hret
    obtain ⟨hfin, -⟩ := h.returned hret
    rw [hfin] at hphase
    simp at hphase

/-- A phase in which no batch is being written, after one of the same kind. -/
theorem Sound.withPhase (h : Sound s) {phase : Phase} (running : Bool) (hs : s.phase ≠ .writing)
    (hp : phase ≠ .writing)
    (hkeep : s.phase = .locking ∨ s.phase = .waiting → phase = .locking ∨ phase = .waiting)
    (hret : s.returned = false) : Sound { s with running, phase } where
  conserved := h.conserved
  spare := h.spare
  used := h.used
  ready := fun _ => (h.ready hs).congr rfl
  writing := fun hw => absurd hw hp
  stopping := by
    intro before hb
    exact (h.stopping before hb).imp_right fun hr => ⟨hkeep hr.1, hr.2⟩
  returned := by
    intro hr
    rw [hret] at hr
    cases hr

/-- `stop()` has not returned as long as the logging thread has not finished. -/
theorem Sound.returned_eq_false (h : Sound s) (hphase : s.phase ≠ .finished) :
    s.returned = false := by
  apply Bool.eq_false_iff.mpr
  intro hret
  exact hphase (h.returned hret).1

/-- The assertions hold. -/
theorem Ready.test (hr : Ready s) :
    s.test = .ok { s with phase := if s.running then .locking else .finished } := by
  unfold System.test
  split
  · rw [hr.newBuffer1_eq, hr.newBuffer2_eq, hr.buffersToWrite_eq]
    rfl
  · rfl

theorem Sound.test (h : Sound s) (hphase : s.phase = .testing) :
    ∃ t, s.test = .ok t ∧ Sound t := by
  have hr : Ready s := h.ready (by simp [hphase])
  refine ⟨_, hr.test, h.withPhase s.running (by simp [hphase]) ?_ ?_ ?_⟩
  · split <;> decide
  · intro hor
    simp [hphase] at hor
  · exact h.returned_eq_false (by simp [hphase])

theorem recycle_none {toWrite : List FixedBuffer} (h : toWrite ≠ []) :
    System.recycle none toWrite = .ok (some .empty, toWrite.dropLast) := by
  rw [System.recycle, List.getLast?_eq_some_getLast h]
  rfl

/-- The buffers that are left of a batch when the spare ones are replaced. -/
theorem length_leftOver (batch : List FixedBuffer) :
    (if 2 < (if 25 < batch.length then batch.take 2 else batch).length then
      (if 25 < batch.length then batch.take 2 else batch).take 2
    else if 25 < batch.length then batch.take 2 else batch).length = min 2 batch.length := by
  by_cases hlarge : 25 < batch.length
  · simp only [if_pos hlarge, List.length_take]
    rw [if_neg (by omega), List.length_take]
  · simp only [if_neg hlarge]
    split
    · rw [List.length_take]
    · omega

/-- What is written of a batch. -/
theorem note_append_eq_kept (batch : List FixedBuffer) :
    (if 25 < batch.length then [Chunk.dropped (batch.length - 2)] else []) ++
      (if 25 < batch.length then batch.take 2 else batch).map (fun b => Chunk.buffer b.lines) =
      kept batch := by
  rw [kept]
  split
  · rfl
  · rfl

theorem Writing.write {done : List (List FixedBuffer)} (h : Writing s done) :
    s.write = .ok
      { s with
        phase := .testing
        output := (done ++ [s.buffersToWrite]).flatMap kept
        newBuffer1 := some .empty
        newBuffer2 := some .empty
        buffersToWrite := [] } := by
  have hleft := length_leftOver s.buffersToWrite
  have hpos := List.length_pos_of_ne_nil h.nonempty
  have hkept := note_append_eq_kept s.buffersToWrite
  have houtput : s.output ++
      (if 25 < s.buffersToWrite.length then [Chunk.dropped (s.buffersToWrite.length - 2)]
        else []) ++
      (if 25 < s.buffersToWrite.length then s.buffersToWrite.take 2 else s.buffersToWrite).map
        (fun b => Chunk.buffer b.lines) = (done ++ [s.buffersToWrite]).flatMap kept := by
    rw [List.append_assoc, hkept, h.output_eq, List.flatMap_append, List.flatMap_singleton]
  unfold System.write
  simp only [houtput, h.newBuffer1_eq]
  generalize (if 2 < (if 25 < s.buffersToWrite.length then s.buffersToWrite.take 2
    else s.buffersToWrite).length then (if 25 < s.buffersToWrite.length then
      s.buffersToWrite.take 2 else s.buffersToWrite).take 2 else
        if 25 < s.buffersToWrite.length then s.buffersToWrite.take 2
          else s.buffersToWrite) = left at hleft ⊢
  rw [recycle_none (List.ne_nil_of_length_pos (by omega)), ok_bind]
  rcases h.newBuffer2 with hsome | ⟨hnone, htwo⟩
  · rw [hsome]
    rfl
  · have hrest : left.dropLast ≠ [] := by
      apply List.ne_nil_of_length_pos
      rw [List.length_dropLast]
      omega
    rw [hnone]
    dsimp only
    rw [recycle_none hrest]
    rfl

theorem Sound.write (h : Sound s) (hphase : s.phase = .writing) :
    ∃ t, s.write = .ok t ∧ Sound t := by
  obtain ⟨done, hw⟩ := h.writing hphase
  refine ⟨_, hw.write, ?_⟩
  constructor
  · exact h.conserved
  · exact h.spare
  · exact h.used
  · intro _
    exact ⟨congrArg (List.flatMap kept) hw.batches_eq.symm, rfl, rfl, rfl⟩
  · intro hnot
    cases hnot
  · intro before hb
    rcases h.stopping before hb with hleft | ⟨hor, -⟩
    · exact .inl hleft
    · simp [hphase] at hor
  · intro hret
    rw [h.returned_eq_false (by simp [hphase])] at hret
    cases hret

/-- `stop()` is called at a time when all lines have been taken, or will be. -/
theorem Sound.stop (h : Sound s) (horderly : Orderly s .stop) :
    Sound { s with running := false, stopped := some s.appended } := by
  refine ⟨h.conserved, h.spare, h.used, ?_, ?_, ?_, ?_⟩
  · exact fun hphase => (h.ready hphase).congr rfl
  · intro hphase
    obtain ⟨done, hw⟩ := h.writing hphase
    exact ⟨done, hw.congr rfl⟩
  · intro before hb
    cases hb
    rcases horderly with hp | hp | hnone
    · exact .inr ⟨.inl hp, List.prefix_refl _⟩
    · exact .inr ⟨.inr hp, List.prefix_refl _⟩
    · refine .inl ?_
      change s.appended <+: linesOf s.batches.flatten
      rw [← h.conserved, waitingLines, hnone, List.append_nil]
  · intro hret
    exact ⟨(h.returned hret).1, rfl⟩

theorem Sound.step (h : Sound s) {a : Action} (ho : Orderly s a) {m : Except Fault System}
    (hm : step s a = some m) : ∃ t, m = .ok t ∧ Sound t := by
  cases a with
  | append line =>
    cases hm
    exact ⟨_, rfl, h.append line⟩
  | start =>
    obtain ⟨hphase, hm⟩ := Option.ite_none_right_eq_some.mp hm
    cases hm
    refine ⟨_, rfl, h.withPhase true (by simp [hphase]) (by decide) ?_ ?_⟩
    · intro hor
      simp [hphase] at hor
    · exact h.returned_eq_false (by simp [hphase])
  | stop =>
    obtain ⟨-, hm⟩ := Option.ite_none_right_eq_some.mp hm
    cases hm
    exact ⟨_, rfl, h.stop ho⟩
  | join =>
    obtain ⟨⟨hstopped, hphase⟩, hm⟩ := Option.ite_none_right_eq_some.mp hm
    cases hm
    refine ⟨_, rfl, ⟨h.conserved, h.spare, h.used, ?_, ?_, h.stopping, ?_⟩⟩
    · exact fun hp => (h.ready hp).congr rfl
    · intro hp
      rw [show s.phase = .finished from hphase] at hp
      cases hp
    · exact fun _ => ⟨hphase, hstopped⟩
  | test =>
    obtain ⟨hphase, hm⟩ := Option.ite_none_right_eq_some.mp hm
    cases hm
    exact h.test hphase
  | lock =>
    obtain ⟨hphase, hm⟩ := Option.ite_none_right_eq_some.mp hm
    split at hm
    · cases hm
      refine ⟨_, rfl, h.withPhase s.running (by simp [hphase]) (by decide)
        (fun _ => .inr rfl) ?_⟩
      exact h.returned_eq_false (by simp [hphase])
    · cases hm
      exact h.take (.inl hphase)
  | wake =>
    obtain ⟨hphase, hm⟩ := Option.ite_none_right_eq_some.mp hm
    cases hm
    exact h.take (.inr hphase)
  | write =>
    obtain ⟨hphase, hm⟩ := Option.ite_none_right_eq_some.mp hm
    cases hm
    exact h.write hphase

/-- When `stop()` has been called at such a time and has returned, the log file has got the batches
in order, each as far as it is kept; the batches together are lines in the order in which they were
appended, each once, and contain all those appended before `stop()` was called. -/
theorem stop_loses_no_line {p : Except Fault System} (h : Run step Orderly (· = System.new) p) :
    ∃ s, p = .ok s ∧ (s.returned = true →
      s.output = s.batches.flatMap kept ∧ linesOf s.batches.flatten <+: s.appended ∧
        ∃ before, s.stopped = some before ∧ before <+: linesOf s.batches.flatten) := by
  obtain ⟨s, hs, hsound⟩ := h.safe (I := Sound) (by rintro s rfl; exact sound_new)
    fun s a m hs ho hm => hs.step ho hm
  refine ⟨s, hs, fun hret => ?_⟩
  obtain ⟨hphase, hstopped⟩ := hsound.returned hret
  obtain ⟨before, hbefore⟩ := Option.isSome_iff_exists.mp hstopped
  refine ⟨(hsound.ready (by simp [hphase])).output_eq, ?_, before, hbefore, ?_⟩
  · rw [← hsound.conserved]
    exact List.prefix_append _ _
  · rcases hsound.stopping before hbefore with hleft | ⟨hor, -⟩
    · exact hleft
    · simp [hphase] at hor

theorem stop_loses_no_line_example :
    ∃ s, Run step Orderly (· = System.new) (.ok s) ∧ s.returned = true ∧
      s.stopped = some [[1], [2]] ∧ s.output = [.buffer [[1]], .buffer [[2]]] ∧
      s.output = s.batches.flatMap kept := by
  have hex : seen (exec (faulting (restrict Orderly step)) (.ok System.new)
      [.append [1], .start, .test, .lock, .wake, .write, .test, .append [2], .lock, .stop, .wake,
        .append [3], .write, .test, .join])
      (fun s => s.returned = true ∧ s.stopped = some [[1], [2]] ∧
        s.output = [.buffer [[1]], .buffer [[2]]]) = true := by
    decide +kernel
  obtain ⟨s, hs, hcheck⟩ := exists_of_seen hex
  obtain ⟨hret, hstopped, houtput⟩ := of_decide_eq_true hcheck
  have hstart : Run step Orderly (· = System.new) (.ok System.new) := Run.start rfl
  have hrun := hstart.exec _ hs
  obtain ⟨t, ht, hlost⟩ := stop_loses_no_line hrun
  cases ht
  exact ⟨s, hrun, hret, hstopped, houtput, (hlost hret).1⟩

/-- A line is appended while the logging thread writes a batch, then `stop()` is called: the thread
leaves its loop, and `stop()` returns without the line having been written. -/
theorem stop_loses_waiting_line :
    ∃ s, Run step (fun _ _ => True) (· = System.new) (.ok s) ∧ s.returned = true ∧
      s.stopped = some [[1]] ∧ s.output = [.buffer []] := by
  have hex : seen (exec (faulting step) (.ok System.new)
      [.start, .test, .lock, .wake, .append [1], .stop, .write, .test, .join])
      (fun s => s.returned = true ∧ s.stopped = some [[1]] ∧ s.output = [.buffer []]) = true := by
    decide +kernel
  obtain ⟨s, hs, hcheck⟩ := exists_of_seen hex
  exact ⟨s, Run.of_exec (· = System.new) rfl _ hs, of_decide_eq_true hcheck⟩

end DbdkyGcc.Logging
