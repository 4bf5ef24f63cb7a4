import DbdkyGcc.Foundations.Heap
import DbdkyGcc.Logging.Async

/-!
# Who has the log buffers

The buffers of `AsyncLogging` are objects that two threads pass on by their pointers: four
variables hold one each or null, and two vectors hold any number. Here the variables hold
addresses, a buffer is deleted where its last owner is, and the part of `threadFunc` that is not
under the lock is cut into its statements. A failed assertion, the use of a null pointer and the use
of a deleted buffer are faults.
-/

namespace DbdkyGcc.Logging

open Foundations

inductive PtrFault
  | nullPointer
  /-- a buffer that has been deleted -/
  | dangling
  | assertion
  deriving DecidableEq

/-- The members of `AsyncLogging` and the variables of `threadFunc` that hold buffers. -/
structure Holders where
  heap : Nat → Option FixedBuffer
  currentBuffer : Option Nat
  nextBuffer : Option Nat
  buffers : List Nat
  newBuffer1 : Option Nat
  newBuffer2 : Option Nat
  buffersToWrite : List Nat

namespace Holders

variable (h : Holders)

/-- What the lock protects. -/
def shared : List Nat := h.currentBuffer.toList ++ (h.nextBuffer.toList ++ h.buffers)

/-- What the logging thread has to itself. -/
def own : List Nat := h.newBuffer1.toList ++ (h.newBuffer2.toList ++ h.buffersToWrite)

/-- The addresses that are held, by holder. -/
def held : List Nat := h.shared ++ h.own

def deref (p : Option Nat) : Except PtrFault (Nat × FixedBuffer) := do
  let p ← require .nullPointer p
  let b ← require .dangling (h.heap p)
  return (p, b)

def store (p : Nat) (b : FixedBuffer) : Holders :=
  { h with heap := Function.update h.heap p (some b) }

/-- `append`; `fresh` is where a new buffer is put if one is needed. -/
def append (line : Line) (fresh : Nat) : Except PtrFault Holders := do
  let (current, b) ← h.deref h.currentBuffer
  if line.length < b.avail then return h.store current (b.append line)
  else do
    let h := { h with buffers := h.buffers ++ [current], currentBuffer := none }
    let h :=
      if h.nextBuffer.isSome then { h with currentBuffer := h.nextBuffer, nextBuffer := none }
      else { h.store fresh .empty with currentBuffer := some fresh }
    let (current, b) ← h.deref h.currentBuffer
    return h.store current (b.append line)

/-- The buffers that `threadFunc` begins with. -/
def enter (fresh1 fresh2 : Nat) : Holders :=
  { (h.store fresh1 .empty).store fresh2 .empty with
    newBuffer1 := some fresh1, newBuffer2 := some fresh2 }

/-- `assert(newBuffer && newBuffer->length() == 0)` -/
def assertSpare (newBuffer : Option Nat) : Except PtrFault Unit := do
  let p ← require .assertion newBuffer
  let b ← require .dangling (h.heap p)
  ensure .assertion (b.length = 0)

/-- The statements under the lock, after the wait. -/
def take : Except PtrFault Holders := do
  let current ← require .nullPointer h.currentBuffer
  let h := { h with buffers := h.buffers ++ [current], currentBuffer := none }
  let h := { h with currentBuffer := h.newBuffer1, newBuffer1 := none }
  let h := { h with buffersToWrite := h.buffers, buffers := h.buffersToWrite }
  return if h.nextBuffer.isNone then
    { h with nextBuffer := h.newBuffer2, newBuffer2 := none }
  else h

/-- All but the first two buffers of a batch that has more than `limit` are deleted. -/
def keepTwo (limit : Nat) : Except PtrFault Holders :=
  if limit < h.buffersToWrite.length then do
    let heap ← require .dangling (deleteAll h.heap (h.buffersToWrite.drop 2))
    return { h with heap, buffersToWrite := h.buffersToWrite.take 2 }
  else return h

/-- The data of each buffer of the batch is passed to the log file. -/
def output : Except PtrFault Holders := do
  let _ ← h.buffersToWrite.mapM fun p => require .dangling (h.heap p)
  return h

/-- `buffersToWrite.pop_back()`, and the `reset()` of that buffer. -/
def popReset : Except PtrFault (Nat × Holders) := do
  let p ← require .assertion h.buffersToWrite.getLast?
  let b ← require .dangling (h.heap p)
  return (p, { h.store p b.reset with buffersToWrite := h.buffersToWrite.dropLast })

def refill1 : Except PtrFault Holders :=
  if h.newBuffer1.isNone then do
    let (p, h) ← h.popReset
    return { h with newBuffer1 := some p }
  else return h

def refill2 : Except PtrFault Holders :=
  if h.newBuffer2.isNone then do
    let (p, h) ← h.popReset
    return { h with newBuffer2 := some p }
  else return h

def clear : Except PtrFault Holders := do
  let heap ← require .dangling (deleteAll h.heap h.buffersToWrite)
  return { h with heap, buffersToWrite := [] }

/-- The variables of `threadFunc` are destroyed. -/
def leave : Except PtrFault Holders := do
  let heap ← require .dangling (deleteAll h.heap h.own)
  return { h with heap, newBuffer1 := none, newBuffer2 := none, buffersToWrite := [] }

end Holders

/-- The statement that the logging thread is at. -/
inductive Pc
  | notStarted
  | entering
  | testing
  | locking
  | waiting
  | taken
  | output
  | shrinking
  | refilling1
  | refilling2
  | clearing
  | finished
  deriving DecidableEq

structure Process where
  running : Bool
  pc : Pc
  holders : Holders

inductive Act
  /-- Any thread. -/
  | append (line : Line) (fresh : Nat)
  /-- The owner; `start` waits for the latch. -/
  | start
  | stop
  /-- The logging thread. The wait ends by a notification or by its time. -/
  | enter (fresh1 fresh2 : Nat)
  | thread

namespace Process

variable (s : Process)

/-- The logging thread goes on. -/
def goto (pc : Pc) (m : Except PtrFault Holders) : Option (Except PtrFault Process) :=
  some (m.map fun holders => { s with pc, holders })

def thread : Option (Except PtrFault Process) :=
  match s.pc with
  | .notStarted | .entering | .finished => none
  | .testing =>
    if s.running then
      s.goto .locking do
        s.holders.assertSpare s.holders.newBuffer1
        s.holders.assertSpare s.holders.newBuffer2
        ensure .assertion (s.holders.buffersToWrite = [])
        return s.holders
    else s.goto .finished s.holders.leave
  | .locking =>
    if s.holders.buffers = [] then s.goto .waiting (.ok s.holders)
    else s.goto .taken s.holders.take
  | .waiting => s.goto .taken s.holders.take
  | .taken =>
    s.goto .output do
      ensure .assertion (s.holders.buffersToWrite ≠ [])
      s.holders.keepTwo 25
  | .output => s.goto .shrinking s.holders.output
  | .shrinking => s.goto .refilling1 (s.holders.keepTwo 2)
  | .refilling1 => s.goto .refilling2 s.holders.refill1
  | .refilling2 => s.goto .clearing s.holders.refill2
  | .clearing => s.goto .testing s.holders.clear

/-- The allocator returns addresses that are not in use. -/
def step : Act → Option (Except PtrFault Process)
  | .append line fresh =>
    if s.holders.heap fresh = none then s.goto s.pc (s.holders.append line fresh) else none
  | .start =>
    if s.pc = .notStarted then some (.ok { s with running := true, pc := .entering }) else none
  | .stop =>
    if s.pc ≠ .notStarted ∧ s.pc ≠ .entering then some (.ok { s with running := false }) else none
  | .enter fresh1 fresh2 =>
    if s.pc = .entering ∧ s.holders.heap fresh1 = none ∧ s.holders.heap fresh2 = none ∧
        fresh1 ≠ fresh2 then
      s.goto .testing do
        ensure .assertion (s.running = true)
        return s.holders.enter fresh1 fresh2
    else none
  | .thread => s.thread

end Process

/-- The constructor has made two buffers. -/
def Constructed (s : Process) : Prop :=
  ∃ a b, a ≠ b ∧ s = ⟨false, .notStarted,
    ⟨Function.update (Function.update (fun _ => none) b (some .empty)) a (some .empty),
      some a, some b, [], none, none, []⟩⟩

variable {h h' : Holders} {p : Nat} {b : FixedBuffer}

theorem deref_eq (hp : h.heap p = some b) : h.deref (some p) = .ok (p, b) := by
  simp only [Holders.deref, require, ok_bind, hp]
  rfl

/-- What an operation of other threads leaves to the logging thread. -/
structure SameOwn (h h' : Holders) : Prop where
  newBuffer1 : h'.newBuffer1 = h.newBuffer1
  newBuffer2 : h'.newBuffer2 = h.newBuffer2
  buffersToWrite : h'.buffersToWrite = h.buffersToWrite
  heap : ∀ p ∈ h.own, h'.heap p = h.heap p

/-- Writing to a shared buffer. -/
theorem store_shared (howns : Owns h.heap h.held) (hp : p ∈ h.shared) (b : FixedBuffer) :
    Owns (h.store p b).heap (h.store p b).held ∧ SameOwn h (h.store p b) := by
  refine ⟨howns.store (List.mem_append_left _ hp) b, rfl, rfl, rfl, fun q hq => ?_⟩
  refine Function.update_of_ne ?_ ..
  rintro rfl
  exact List.disjoint_of_nodup_append howns.nodup hp hq

theorem SameOwn.own (hsame : SameOwn h h') : h'.own = h.own := by
  rw [Holders.own, hsame.newBuffer1, hsame.newBuffer2, hsame.buffersToWrite]
  rfl

theorem SameOwn.trans {h'' : Holders} (h₁ : SameOwn h h') (h₂ : SameOwn h' h'') :
    SameOwn h h'' where
  newBuffer1 := h₂.newBuffer1.trans h₁.newBuffer1
  newBuffer2 := h₂.newBuffer2.trans h₁.newBuffer2
  buffersToWrite := h₂.buffersToWrite.trans h₁.buffersToWrite
  heap p hp := (h₂.heap p (h₁.own ▸ hp)).trans (h₁.heap p hp)

theorem mem_shared_current (hcurrent : h.currentBuffer = some p) : p ∈ h.shared := by
  rw [Holders.shared, hcurrent]
  exact List.mem_append_left _ List.mem_cons_self

theorem mem_held_of_mem_buffers (hp : p ∈ h.buffers) : p ∈ h.held :=
  List.mem_append_left _ (List.mem_append_right _ (List.mem_append_right _ hp))

theorem mem_own_newBuffer1 (hnew1 : h.newBuffer1 = some p) : p ∈ h.own := by
  rw [Holders.own, hnew1]
  exact List.mem_cons_self

theorem mem_own_newBuffer2 (hnew2 : h.newBuffer2 = some p) : p ∈ h.own := by
  rw [Holders.own, hnew2]
  exact List.mem_append_right _ (List.mem_append_left _ List.mem_cons_self)

theorem mem_own_of_mem_buffersToWrite (hp : p ∈ h.buffersToWrite) : p ∈ h.own :=
  List.mem_append_right _ (List.mem_append_right _ hp)

/-- The current buffer is written to. -/
theorem store_current (hcurrent : h.currentBuffer = some p) (hb : h.heap p = some b)
    (line : Line) :
    (do
      let (current, b) ← h.deref h.currentBuffer
      return h.store current (b.append line) : Except PtrFault Holders) =
        .ok (h.store p (b.append line)) := by
  rw [hcurrent, deref_eq hb]
  rfl

theorem append_eq {fresh : Nat} (howns : Owns h.heap h.held) (hcurrent : h.currentBuffer = some p)
    (hnext : h.nextBuffer = none → h.buffers ≠ []) (hfree : h.heap fresh = none) (line : Line) :
    ∃ h', h.append line fresh = .ok h' ∧ Owns h'.heap h'.held ∧ h'.currentBuffer.isSome = true ∧
      (h'.nextBuffer = none → h'.buffers ≠ []) ∧ SameOwn h h' := by
  obtain ⟨b, hb⟩ := howns.exists_cell (List.mem_append_left _ (mem_shared_current hcurrent))
  have hpushed : h.buffers ++ [p] ≠ [] := List.append_ne_nil_of_right_ne_nil _ (List.cons_ne_nil _ _)
  by_cases hfits : line.length < b.avail
  · obtain ⟨howns', hsame⟩ := store_shared howns (mem_shared_current hcurrent) (b.append line)
    refine ⟨_, ?_, howns', by rw [Holders.store, hcurrent]; rfl, hnext, hsame⟩
    simp only [Holders.append, hcurrent, deref_eq hb, ok_bind, if_pos hfits]
    rfl
  · -- the full buffer moves to the vector, and the next one or a new one comes in its place
    obtain ⟨h₁, p₁, hmoved, hcurrent₁, hbuffers₁, howns₁, hsame₁⟩ : ∃ h₁ p₁,
        (if h.nextBuffer.isSome then
          { h with buffers := h.buffers ++ [p], currentBuffer := h.nextBuffer, nextBuffer := none }
        else { { h with buffers := h.buffers ++ [p], currentBuffer := none }.store fresh .empty with
          currentBuffer := some fresh }) = h₁ ∧
        h₁.currentBuffer = some p₁ ∧ h₁.buffers = h.buffers ++ [p] ∧ Owns h₁.heap h₁.held ∧
        SameOwn h h₁ := by
      cases hn : h.nextBuffer with
      | some n =>
        refine ⟨_, n, if_pos rfl, rfl, rfl, howns.perm (List.perm_iff_count.mpr fun a => ?_),
          rfl, rfl, rfl, fun _ _ => rfl⟩
        simp only [Holders.held, Holders.shared, Holders.own, hcurrent, hn, Option.toList_some,
          Option.toList_none, List.count_append, List.count_nil]
        omega
      | none =>
        refine ⟨_, fresh, if_neg Bool.false_ne_true, rfl, rfl,
          (howns.allocate hfree .empty).perm (List.perm_iff_count.mpr fun a => ?_),
          rfl, rfl, rfl, fun q hq => Function.update_of_ne ?_ ..⟩
        · simp only [Holders.held, Holders.shared, Holders.own, Holders.store, hcurrent, hn,
            Option.toList_some, Option.toList_none, List.count_append, List.count_nil,
            List.count_cons]
          omega
        · rintro rfl
          exact howns.not_mem hfree (List.mem_append_right _ hq)
    obtain ⟨b₁, hb₁⟩ := howns₁.exists_cell (List.mem_append_left _ (mem_shared_current hcurrent₁))
    obtain ⟨howns', hsame⟩ := store_shared howns₁ (mem_shared_current hcurrent₁) (b₁.append line)
    refine ⟨_, ?_, howns', by rw [Holders.store, hcurrent₁]; rfl, fun _ => ?_, hsame₁.trans hsame⟩
    · simp only [Holders.append, hcurrent, deref_eq hb, ok_bind, if_neg hfits]
      rw [hmoved]
      exact store_current hcurrent₁ hb₁ line
    · rw [Holders.store, hbuffers₁]
      exact hpushed

/-- A spare buffer: there, and empty. -/
def Spare (h : Holders) (newBuffer : Option Nat) : Prop :=
  ∃ a, newBuffer = some a ∧ h.heap a = some .empty

/-- What the operations of the logging thread outside the lock leave to the others. -/
structure SameShared (h h' : Holders) : Prop where
  currentBuffer : h'.currentBuffer = h.currentBuffer
  nextBuffer : h'.nextBuffer = h.nextBuffer
  buffers : h'.buffers = h.buffers
  heap : ∀ p ∈ h.shared, h'.heap p = h.heap p

theorem SameShared.refl (h : Holders) : SameShared h h := ⟨rfl, rfl, rfl, fun _ _ => rfl⟩

theorem Spare.assertSpare {newBuffer : Option Nat} (hspare : Spare h newBuffer) :
    h.assertSpare newBuffer = .ok () := by
  obtain ⟨a, rfl, ha⟩ := hspare
  simp only [Holders.assertSpare, require, ok_bind, ha]
  exact ensure_eq_ok rfl

theorem Spare.congr {newBuffer : Option Nat} (hspare : Spare h newBuffer)
    (hheap : ∀ a, newBuffer = some a → h'.heap a = h.heap a) : Spare h' newBuffer := by
  obtain ⟨a, rfl, ha⟩ := hspare
  exact ⟨a, rfl, (hheap a rfl).trans ha⟩

/-- When the spare of the other threads has been used, so has a place in the vector. -/
theorem take_eq (howns : Owns h.heap h.held) (hcurrent : h.currentBuffer = some p)
    (hnext : h.nextBuffer = none → h.buffers ≠ []) (hnew1 : Spare h h.newBuffer1)
    (hnew2 : Spare h h.newBuffer2) (hwrite : h.buffersToWrite = []) :
    ∃ h', h.take = .ok h' ∧ Owns h'.heap h'.held ∧ h'.currentBuffer.isSome = true ∧
      h'.nextBuffer ≠ none ∧ h'.newBuffer1 = none ∧
      (Spare h' h'.newBuffer2 ∧ h'.buffersToWrite ≠ [] ∨
        h'.newBuffer2 = none ∧ 2 ≤ h'.buffersToWrite.length) := by
  obtain ⟨a₁, ha₁, -⟩ := hnew1
  obtain ⟨a₂, ha₂, hempty⟩ := hnew2
  have hpushed : h.buffers ++ [p] ≠ [] := List.append_ne_nil_of_right_ne_nil _ (List.cons_ne_nil _ _)
  cases hn : h.nextBuffer with
  | some n =>
    have htake : h.take = .ok { h with
        currentBuffer := h.newBuffer1, newBuffer1 := none
        buffers := [], buffersToWrite := h.buffers ++ [p] } := by
      simp only [Holders.take, hcurrent, require, ok_bind, hn, hwrite]
      rfl
    refine ⟨_, htake, howns.perm (List.perm_iff_count.mpr fun a => ?_), by rw [ha₁]; rfl,
      by rw [hn]; exact Option.some_ne_none n, rfl, .inl ⟨⟨a₂, ha₂, hempty⟩, hpushed⟩⟩
    simp only [Holders.held, Holders.shared, Holders.own, hcurrent, hwrite, Option.toList_some,
      Option.toList_none, List.count_append, List.count_nil]
    omega
  | none =>
    have hlength : 2 ≤ (h.buffers ++ [p]).length := by
      have hpos := List.length_pos_of_ne_nil (hnext hn)
      rw [List.length_append, List.length_singleton]
      omega
    have htake : h.take = .ok { h with
        currentBuffer := h.newBuffer1, newBuffer1 := none
        nextBuffer := h.newBuffer2, newBuffer2 := none
        buffers := [], buffersToWrite := h.buffers ++ [p] } := by
      simp only [Holders.take, hcurrent, require, ok_bind, hn, hwrite]
      rfl
    refine ⟨_, htake, howns.perm (List.perm_iff_count.mpr fun a => ?_), by rw [ha₁]; rfl,
      by rw [ha₂]; exact Option.some_ne_none a₂, rfl, .inr ⟨rfl, hlength⟩⟩
    simp only [Holders.held, Holders.shared, Holders.own, hcurrent, hn, hwrite, Option.toList_some,
      Option.toList_none, List.count_append, List.count_nil]
    omega

/-- The cut keeps two buffers. -/
theorem keepTwo_eq (howns : Owns h.heap h.held) (limit : Nat) :
    ∃ h', h.keepTwo limit = .ok h' ∧ Owns h'.heap h'.held ∧ SameShared h h' ∧
      h'.newBuffer1 = h.newBuffer1 ∧ h'.newBuffer2 = h.newBuffer2 ∧
      h'.buffersToWrite =
        (if limit < h.buffersToWrite.length then h.buffersToWrite.take 2 else h.buffersToWrite) ∧
      ∀ q ∈ h'.held, h'.heap q = h.heap q := by
  by_cases hlimit : limit < h.buffersToWrite.length
  · have hperm : h.held.Perm (h.buffersToWrite.drop 2 ++
        { h with buffersToWrite := h.buffersToWrite.take 2 }.held) := by
      refine List.perm_iff_count.mpr fun a => ?_
      have hcut := congrArg (List.count a) (List.take_append_drop 2 h.buffersToWrite)
      rw [List.count_append] at hcut
      simp only [Holders.held, Holders.shared, Holders.own, List.count_append]
      omega
    obtain ⟨heap, hdelete, howns', hkeep⟩ := (howns.perm hperm).deleteAll
    refine ⟨{ h with heap, buffersToWrite := h.buffersToWrite.take 2 }, ?_, howns',
      ⟨rfl, rfl, rfl, fun q hq => hkeep q (List.mem_append_left _ hq)⟩, rfl, rfl,
      (if_pos hlimit).symm, hkeep⟩
    rw [Holders.keepTwo, if_pos hlimit, hdelete]
    rfl
  · exact ⟨h, if_neg hlimit, howns, .refl h, rfl, rfl, (if_neg hlimit).symm, fun _ _ => rfl⟩

theorem output_eq (howns : Owns h.heap h.held) : h.output = .ok h := by
  have hread : h.buffersToWrite.mapM (fun p => require PtrFault.dangling (h.heap p)) =
      .ok (h.buffersToWrite.map fun p => (h.heap p).getD .empty) := by
    refine mapM_eq_ok_map _ fun p hp => ?_
    obtain ⟨b, hb⟩ :=
      howns.exists_cell (List.mem_append_right _ (mem_own_of_mem_buffersToWrite hp))
    rw [hb]
    rfl
  rw [Holders.output, hread]
  rfl

theorem popReset_eq (howns : Owns h.heap h.held) {rest : List Nat}
    (hwrite : h.buffersToWrite = rest ++ [p]) :
    h.popReset = .ok (p, { h.store p .empty with buffersToWrite := rest }) ∧
      Owns (h.store p .empty).heap h.held ∧
      ∀ q ∈ h.shared, (h.store p .empty).heap q = h.heap q := by
  have hp : p ∈ h.own := mem_own_of_mem_buffersToWrite (by simp [hwrite])
  obtain ⟨b, hb⟩ := howns.exists_cell (List.mem_append_right _ hp)
  refine ⟨?_, howns.store (List.mem_append_right _ hp) .empty, fun q hq => ?_⟩
  · simp only [Holders.popReset, hwrite, List.getLast?_concat, List.dropLast_concat, require,
      ok_bind, hb]
    rfl
  · refine Function.update_of_ne ?_ ..
    rintro rfl
    exact List.disjoint_of_nodup_append howns.nodup hq hp

/-- The batch that has been taken can replace the spare buffers that went for it. -/
def Batch (h : Holders) : Prop :=
  h.newBuffer1 = none ∧ (Spare h h.newBuffer2 ∧ h.buffersToWrite ≠ [] ∨
    h.newBuffer2 = none ∧ 2 ≤ h.buffersToWrite.length)

theorem Batch.nonempty (hbatch : Batch h) : h.buffersToWrite ≠ [] := by
  rcases hbatch.2 with ⟨-, hne⟩ | ⟨-, htwo⟩
  · exact hne
  · exact List.ne_nil_of_length_pos (by omega)

theorem Batch.keepTwo (hbatch : Batch h) (howns : Owns h.heap h.held) {limit : Nat}
    (hlimit : 2 ≤ limit) :
    ∃ h', h.keepTwo limit = .ok h' ∧ Owns h'.heap h'.held ∧ SameShared h h' ∧ Batch h' := by
  obtain ⟨h', hcut, howns', hshared, hnew1, hnew2, hwrite, hheap⟩ := keepTwo_eq howns limit
  have hlength : h'.buffersToWrite.length = h.buffersToWrite.length ∨
      h'.buffersToWrite.length = 2 := by
    rw [hwrite]
    split
    · right
      rw [List.length_take]
      omega
    · exact .inl rfl
  refine ⟨h', hcut, howns', hshared, hnew1.trans hbatch.1, ?_⟩
  rcases hbatch.2 with ⟨hspare, hne⟩ | ⟨hnone, htwo⟩
  · left
    rw [← hnew2] at hspare
    refine ⟨hspare.congr fun a ha => hheap a (List.mem_append_right _ (mem_own_newBuffer2 ha)), ?_⟩
    have hpos := List.length_pos_of_ne_nil hne
    exact List.ne_nil_of_length_pos (by omega)
  · exact .inr ⟨hnew2.trans hnone, by omega⟩

/-- The spare buffers after `newBuffer1` has been replaced. -/
def Refilled (h : Holders) : Prop :=
  Spare h h.newBuffer1 ∧ (Spare h h.newBuffer2 ∨ h.newBuffer2 = none ∧ h.buffersToWrite ≠ [])

theorem Batch.refill1 (hbatch : Batch h) (howns : Owns h.heap h.held) :
    ∃ h', h.refill1 = .ok h' ∧ Owns h'.heap h'.held ∧ SameShared h h' ∧ Refilled h' := by
  obtain ⟨rest, p, hwrite⟩ :=
    (List.eq_nil_or_concat' h.buffersToWrite).resolve_left hbatch.nonempty
  obtain ⟨hnew1, hrest⟩ := hbatch
  obtain ⟨hpop, howns', hheap⟩ := popReset_eq howns hwrite
  refine ⟨{ h.store p .empty with newBuffer1 := some p, buffersToWrite := rest }, ?_,
    howns'.perm (List.perm_iff_count.mpr fun a => ?_), ⟨rfl, rfl, rfl, hheap⟩,
    ⟨p, rfl, Function.update_self ..⟩, ?_⟩
  · simp only [Holders.refill1, hnew1, hpop, ok_bind]
    rfl
  · simp only [Holders.held, Holders.shared, Holders.own, Holders.store, hnew1, hwrite,
      Option.toList_some, Option.toList_none, List.count_append, List.count_nil]
    omega
  · rcases hrest with ⟨hspare, -⟩ | ⟨hnone, htwo⟩
    · left
      refine hspare.congr fun a ha => Function.update_of_ne ?_ ..
      rintro rfl
      -- it would be in the batch and spare at once
      have hown := (List.nodup_append.mp howns.nodup).2.1
      rw [Holders.own, hnew1, Option.toList_none, List.nil_append] at hown
      refine List.disjoint_of_nodup_append hown (a := a) ?_ ?_
      · rw [ha]
        exact List.mem_cons_self
      · rw [hwrite]
        exact List.mem_append_right _ List.mem_cons_self
    · right
      refine ⟨hnone, ?_⟩
      rw [hwrite, List.length_append, List.length_singleton] at htwo
      show rest ≠ []
      exact List.ne_nil_of_length_pos (by omega)

theorem Refilled.refill2 (hrefilled : Refilled h) (howns : Owns h.heap h.held) :
    ∃ h', h.refill2 = .ok h' ∧ Owns h'.heap h'.held ∧ SameShared h h' ∧
      Spare h' h'.newBuffer1 ∧ Spare h' h'.newBuffer2 := by
  obtain ⟨hspare1, hspare2 | ⟨hnone, hne⟩⟩ := hrefilled
  · obtain ⟨a, ha, -⟩ := id hspare2
    refine ⟨h, ?_, howns, .refl h, hspare1, hspare2⟩
    rw [Holders.refill2, ha]
    rfl
  · obtain ⟨rest, p, hwrite⟩ := (List.eq_nil_or_concat' h.buffersToWrite).resolve_left hne
    obtain ⟨hpop, howns', hheap⟩ := popReset_eq howns hwrite
    refine ⟨{ h.store p .empty with newBuffer2 := some p, buffersToWrite := rest }, ?_,
      howns'.perm (List.perm_iff_count.mpr fun a => ?_), ⟨rfl, rfl, rfl, hheap⟩,
      hspare1.congr fun a ha => Function.update_of_ne ?_ .., ⟨p, rfl, Function.update_self ..⟩⟩
    · simp only [Holders.refill2, hnone, hpop, ok_bind]
      rfl
    · simp only [Holders.held, Holders.shared, Holders.own, Holders.store, hnone, hwrite,
        Option.toList_some, Option.toList_none, List.count_append, List.count_nil]
      omega
    · rintro rfl
      have hown := (List.nodup_append.mp howns.nodup).2.1
      refine List.disjoint_of_nodup_append hown (a := a) ?_ ?_
      · rw [ha]
        exact List.mem_cons_self
      · rw [hwrite]
        exact List.mem_append_right _ (List.mem_append_right _ List.mem_cons_self)

theorem clear_eq (howns : Owns h.heap h.held) :
    ∃ h', h.clear = .ok h' ∧ Owns h'.heap h'.held ∧ SameShared h h' ∧
      h'.newBuffer1 = h.newBuffer1 ∧ h'.newBuffer2 = h.newBuffer2 ∧ h'.buffersToWrite = [] ∧
      ∀ q ∈ h'.held, h'.heap q = h.heap q := by
  have hperm : h.held.Perm (h.buffersToWrite ++ { h with buffersToWrite := [] }.held) := by
    refine List.perm_iff_count.mpr fun a => ?_
    simp only [Holders.held, Holders.shared, Holders.own, List.count_append, List.count_nil]
    omega
  obtain ⟨heap, hdelete, howns', hkeep⟩ := (howns.perm hperm).deleteAll
  refine ⟨{ h with heap, buffersToWrite := [] }, ?_, howns',
    ⟨rfl, rfl, rfl, fun q hq => hkeep q (List.mem_append_left _ hq)⟩, rfl, rfl, rfl, hkeep⟩
  rw [Holders.clear, hdelete]
  rfl

theorem leave_eq (howns : Owns h.heap h.held) :
    ∃ h', h.leave = .ok h' ∧ Owns h'.heap h'.held ∧ SameShared h h' ∧
      h'.newBuffer1 = none ∧ h'.newBuffer2 = none ∧ h'.buffersToWrite = [] := by
  obtain ⟨heap, hdelete, howns', hkeep⟩ := (howns.perm List.perm_append_comm).deleteAll
  refine ⟨{ h with heap, newBuffer1 := none, newBuffer2 := none, buffersToWrite := [] }, ?_, ?_,
    ⟨rfl, rfl, rfl, hkeep⟩, rfl, rfl, rfl⟩
  · rw [Holders.leave, hdelete]
    rfl
  · refine howns'.perm (List.perm_iff_count.mpr fun a => ?_)
    simp only [Holders.held, Holders.shared, Holders.own, Option.toList_none, List.count_append,
      List.count_nil]
    omega

theorem enter_shared {fresh1 fresh2 : Nat} (howns : Owns h.heap h.held)
    (hfree1 : h.heap fresh1 = none) (hfree2 : h.heap fresh2 = none) :
    SameShared h (h.enter fresh1 fresh2) := by
  refine ⟨rfl, rfl, rfl, fun q hq => ?_⟩
  have hne : ∀ fresh, h.heap fresh = none → q ≠ fresh := by
    rintro fresh hfree rfl
    exact howns.not_mem hfree (List.mem_append_left _ hq)
  exact (Function.update_of_ne (hne _ hfree2) ..).trans (Function.update_of_ne (hne _ hfree1) ..)

/-- What the logging thread has at each of its statements. -/
def ThreadInv (h : Holders) : Pc → Prop
  | .notStarted | .entering | .finished =>
    h.newBuffer1 = none ∧ h.newBuffer2 = none ∧ h.buffersToWrite = []
  | .testing | .locking | .waiting =>
    Spare h h.newBuffer1 ∧ Spare h h.newBuffer2 ∧ h.buffersToWrite = []
  | .taken | .output | .shrinking | .refilling1 => Batch h
  | .refilling2 => Refilled h
  | .clearing => Spare h h.newBuffer1 ∧ Spare h h.newBuffer2

structure Accounted (s : Process) : Prop where
  owns : Owns s.holders.heap s.holders.held
  current : s.holders.currentBuffer.isSome = true
  next : s.holders.nextBuffer = none → s.holders.buffers ≠ []
  thread : ThreadInv s.holders s.pc
  running : s.pc = .entering → s.running = true

theorem ThreadInv.congr {pc : Pc} (hinv : ThreadInv h pc) (hsame : SameOwn h h') :
    ThreadInv h' pc := by
  have hspare1 : Spare h h.newBuffer1 → Spare h' h'.newBuffer1 := by
    intro hspare
    rw [hsame.newBuffer1]
    exact hspare.congr fun a ha => hsame.heap a (mem_own_newBuffer1 ha)
  have hspare2 : Spare h h.newBuffer2 → Spare h' h'.newBuffer2 := by
    intro hspare
    rw [hsame.newBuffer2]
    exact hspare.congr fun a ha => hsame.heap a (mem_own_newBuffer2 ha)
  cases pc with
  | notStarted | entering | finished =>
    exact ⟨hsame.newBuffer1.trans hinv.1, hsame.newBuffer2.trans hinv.2.1,
      hsame.buffersToWrite.trans hinv.2.2⟩
  | testing | locking | waiting =>
    exact ⟨hspare1 hinv.1, hspare2 hinv.2.1, hsame.buffersToWrite.trans hinv.2.2⟩
  | taken | output | shrinking | refilling1 =>
    refine ⟨hsame.newBuffer1.trans hinv.1, ?_⟩
    rw [hsame.buffersToWrite]
    exact hinv.2.imp (And.imp_left hspare2) (And.imp_left hsame.newBuffer2.trans)
  | refilling2 =>
    refine ⟨hspare1 hinv.1, ?_⟩
    rw [hsame.buffersToWrite]
    exact hinv.2.imp hspare2 (And.imp_left hsame.newBuffer2.trans)
  | clearing => exact ⟨hspare1 hinv.1, hspare2 hinv.2⟩

variable {s t : Process}

theorem Constructed.accounted (hs : Constructed s) : Accounted s := by
  obtain ⟨a, b, hab, rfl⟩ := hs
  have hnone : Owns (fun _ => none : Nat → Option FixedBuffer) [] :=
    ⟨List.nodup_nil, fun p => iff_of_false List.not_mem_nil Bool.false_ne_true⟩
  refine ⟨(hnone.allocate rfl _).allocate (Function.update_of_ne hab ..) _, rfl, nofun,
    ⟨rfl, rfl, rfl⟩, nofun⟩

/-- A step of the logging thread outside the lock. -/
theorem Accounted.goto (hs : Accounted s) {pc : Pc} {m : Except PtrFault Holders}
    {r : Except PtrFault Process} (hr : s.goto pc m = some r) (hpc : pc ≠ .entering)
    (hm : ∃ h', m = .ok h' ∧ Owns h'.heap h'.held ∧ SameShared s.holders h' ∧ ThreadInv h' pc) :
    ∃ t, r = .ok t ∧ Accounted t := by
  obtain ⟨h', rfl, howns, hshared, hthread⟩ := hm
  cases hr
  refine ⟨_, rfl, howns, ?_, ?_, hthread, fun heq => absurd heq hpc⟩
  · rw [hshared.currentBuffer]
    exact hs.current
  · rw [hshared.nextBuffer, hshared.buffers]
    exact hs.next

theorem Accounted.take (hs : Accounted s) (hthread : Spare s.holders s.holders.newBuffer1 ∧
      Spare s.holders s.holders.newBuffer2 ∧ s.holders.buffersToWrite = [])
    {r : Except PtrFault Process} (hr : s.goto .taken s.holders.take = some r) :
    ∃ t, r = .ok t ∧ Accounted t := by
  obtain ⟨p, hp⟩ := Option.isSome_iff_exists.mp hs.current
  obtain ⟨h', htake, howns, hcurrent, hnext, hbatch⟩ :=
    take_eq hs.owns hp hs.next hthread.1 hthread.2.1 hthread.2.2
  rw [htake] at hr
  cases hr
  exact ⟨_, rfl, howns, hcurrent, fun hnone => absurd hnone hnext, hbatch, nofun⟩

theorem Accounted.append {line : Line} {fresh : Nat} (hs : Accounted s)
    (hfree : s.holders.heap fresh = none) {r : Except PtrFault Process}
    (hr : s.goto s.pc (s.holders.append line fresh) = some r) : ∃ t, r = .ok t ∧ Accounted t := by
  obtain ⟨p, hp⟩ := Option.isSome_iff_exists.mp hs.current
  obtain ⟨h', happend, howns, hcurrent, hnext, hsame⟩ := append_eq hs.owns hp hs.next hfree line
  rw [happend] at hr
  cases hr
  exact ⟨_, rfl, howns, hcurrent, hnext, hs.thread.congr hsame, hs.running⟩

theorem Accounted.enter {fresh1 fresh2 : Nat} (hs : Accounted s) (hpc : s.pc = .entering)
    (hfree1 : s.holders.heap fresh1 = none) (hfree2 : s.holders.heap fresh2 = none)
    (hne : fresh1 ≠ fresh2) {r : Except PtrFault Process}
    (hr : s.goto .testing (do
      ensure .assertion (s.running = true)
      return s.holders.enter fresh1 fresh2) = some r) : ∃ t, r = .ok t ∧ Accounted t := by
  have hthread := hs.thread
  rw [hpc] at hthread
  obtain ⟨hnew1, hnew2, hwrite⟩ := hthread
  have howns := (hs.owns.allocate hfree1 .empty).allocate
    ((Function.update_of_ne hne.symm ..).trans hfree2) FixedBuffer.empty
  refine hs.goto hr (by decide) ⟨s.holders.enter fresh1 fresh2, ?_, ?_,
    enter_shared hs.owns hfree1 hfree2, ⟨_, rfl, ?_⟩, ⟨_, rfl, Function.update_self ..⟩, hwrite⟩
  · rw [ensure_eq_ok (hs.running hpc)]
    rfl
  · refine howns.perm (List.perm_iff_count.mpr fun a => ?_)
    simp only [Holders.held, Holders.shared, Holders.own, Holders.enter, Holders.store, hnew1, hnew2,
      hwrite, Option.toList_some, Option.toList_none, List.count_append, List.count_nil,
      List.count_cons]
    omega
  · exact (Function.update_of_ne hne ..).trans (Function.update_self ..)

theorem Accounted.thread_step (hs : Accounted s) {r : Except PtrFault Process}
    (hr : s.thread = some r) : ∃ t, r = .ok t ∧ Accounted t := by
  have hthread := hs.thread
  unfold Process.thread at hr
  cases hpc : s.pc with
  | notStarted | entering | finished =>
    rw [hpc] at hr
    cases hr
  | testing =>
    rw [hpc] at hr hthread
    obtain ⟨hspare1, hspare2, hwrite⟩ := hthread
    dsimp only at hr
    split at hr
    · refine hs.goto hr (by decide) ⟨s.holders, ?_, hs.owns, .refl _, hspare1, hspare2, hwrite⟩
      rw [hspare1.assertSpare, hspare2.assertSpare, ensure_eq_ok hwrite]
      rfl
    · obtain ⟨h', hleave, howns, hshared, hnone⟩ := leave_eq hs.owns
      exact hs.goto hr (by decide) ⟨h', hleave, howns, hshared, hnone⟩
  | locking =>
    rw [hpc] at hr hthread
    dsimp only at hr
    split at hr
    · exact hs.goto hr (by decide) ⟨s.holders, rfl, hs.owns, .refl _, hthread⟩
    · exact hs.take hthread hr
  | waiting =>
    rw [hpc] at hr hthread
    exact hs.take hthread hr
  | taken =>
    rw [hpc] at hr hthread
    have hbatch : Batch s.holders := hthread
    dsimp only at hr
    rw [ensure_eq_ok hbatch.nonempty, ok_bind] at hr
    exact hs.goto hr (by decide) (hbatch.keepTwo hs.owns (by decide))
  | output =>
    rw [hpc] at hr hthread
    exact hs.goto hr (by decide) ⟨s.holders, output_eq hs.owns, hs.owns, .refl _, hthread⟩
  | shrinking =>
    rw [hpc] at hr hthread
    have hbatch : Batch s.holders := hthread
    exact hs.goto hr (by decide) (hbatch.keepTwo hs.owns (by decide))
  | refilling1 =>
    rw [hpc] at hr hthread
    have hbatch : Batch s.holders := hthread
    exact hs.goto hr (by decide) (hbatch.refill1 hs.owns)
  | refilling2 =>
    rw [hpc] at hr hthread
    have hrefilled : Refilled s.holders := hthread
    exact hs.goto hr (by decide) (hrefilled.refill2 hs.owns)
  | clearing =>
    rw [hpc] at hr hthread
    obtain ⟨hspare1, hspare2⟩ := hthread
    obtain ⟨h', hclear, howns, hshared, hnew1, hnew2, hwrite, hheap⟩ := clear_eq hs.owns
    refine hs.goto hr (by decide) ⟨h', hclear, howns, hshared, ?_, ?_, hwrite⟩
    · rw [← hnew1] at hspare1
      exact hspare1.congr fun a ha => hheap a (List.mem_append_right _ (mem_own_newBuffer1 ha))
    · rw [← hnew2] at hspare2
      exact hspare2.congr fun a ha => hheap a (List.mem_append_right _ (mem_own_newBuffer2 ha))

theorem Accounted.step (hs : Accounted s) {a : Act} {r : Except PtrFault Process}
    (hr : s.step a = some r) : ∃ t, r = .ok t ∧ Accounted t := by
  cases a with
  | append line fresh =>
    obtain ⟨hfree, hr⟩ := Option.ite_none_right_eq_some.mp hr
    exact hs.append hfree hr
  | start =>
    obtain ⟨hpc, hr⟩ := Option.ite_none_right_eq_some.mp hr
    cases hr
    have hthread := hs.thread
    rw [hpc] at hthread
    exact ⟨_, rfl, hs.owns, hs.current, hs.next, hthread, fun _ => rfl⟩
  | stop =>
    obtain ⟨hpc, hr⟩ := Option.ite_none_right_eq_some.mp hr
    cases hr
    exact ⟨_, rfl, hs.owns, hs.current, hs.next, hs.thread, fun heq => absurd heq hpc.2⟩
  | enter fresh1 fresh2 =>
    obtain ⟨⟨hpc, hfree1, hfree2, hne⟩, hr⟩ := Option.ite_none_right_eq_some.mp hr
    exact hs.enter hpc hfree1 hfree2 hne hr
  | thread => exact hs.thread_step hr

/-- Whatever is appended, and whenever `stop()` is called: no assertion of `threadFunc` fails and
no null pointer or deleted buffer is used; outside the critical sections there is a current buffer,
and the next one is only missing when there is a full one; and every buffer has one holder. -/
theorem log_buffers_accounted {r : Except PtrFault Process}
    (h : Run Process.step (fun _ _ => True) Constructed r) :
    ∃ s, r = .ok s ∧ s.holders.currentBuffer ≠ none ∧
      (s.holders.nextBuffer = none → s.holders.buffers ≠ []) ∧ s.holders.held.Nodup ∧
      ∀ p, p ∈ s.holders.held ↔ (s.holders.heap p).isSome = true := by
  obtain ⟨s, hs, haccounted⟩ := h.safe (I := Accounted) (fun s hs => hs.accounted)
    fun s a m hs _ hm => hs.step hm
  refine ⟨s, hs, ?_, haccounted.next, haccounted.owns.nodup, haccounted.owns.live⟩
  exact Option.isSome_iff_ne_none.mp haccounted.current

/-- Two threads log while the first batch is written. -/
theorem log_buffers_accounted_example : ∃ s,
    Run Process.step (fun _ _ => True) Constructed (.ok s) ∧ s.pc = .finished ∧
      s.holders.held = [6, 4] ∧ s.holders.held.Nodup := by
  have hex : seen (exec (faulting Process.step) (.ok ⟨false, .notStarted,
      ⟨Function.update (Function.update (fun _ => none) 4 (some .empty)) 2 (some .empty),
        some 2, some 4, [], none, none, []⟩⟩)
      [.append [1] 6, .start, .enter 6 8, .thread, .thread, .append [2] 10, .thread, .append [3] 10,
        .thread, .thread, .thread, .append [4] 10, .thread, .thread, .stop, .thread, .thread])
      (fun s => s.pc = .finished ∧ s.holders.held = [6, 4]) = true := by
    decide +kernel
  obtain ⟨s, hs, hcheck⟩ := exists_of_seen hex
  obtain ⟨hpc, hheld⟩ := of_decide_eq_true hcheck
  have hrun := Run.of_exec Constructed ⟨2, 4, by decide, rfl⟩ _ hs
  obtain ⟨_, hok, -, -, hnodup, -⟩ := log_buffers_accounted hrun
  cases hok
  exact ⟨s, hrun, hpc, hheld, hnodup⟩

end DbdkyGcc.Logging
