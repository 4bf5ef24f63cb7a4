import DbdkyGcc.Foundations.Indexed
import DbdkyGcc.Tcp.Stream

/-!
# Shutting down while other threads send

`send()` and `shutdown()` are called by the loop thread, where they take effect
at once, and by other threads, where the call tests `state_` first and then
queues a functor; the steps of different threads interleave. Every accepted
`send()` is numbered, and each `shutdownWrite` of the socket is recorded with
what had been written by then.

`shutdownInLoop` looks only at the write interest. It comes too early when a
`send()` has been accepted but its functor has not run yet. The functor of a
`send()` takes its message as a `StringPiece`, whose size is an `int`: of a
message of 2^31 bytes or more it does not send all.
-/

namespace DbdkyGcc.Tcp

open Foundations

/-- `sendInLoop(const StringPiece&)` with a string: the size passes through an `int`. A size beyond
the string is a read past its end. -/
def TcpConnection.sendPiece (c : TcpConnection) (message : List UInt8) (w : WriteResult) :
    Except TcpConnection.Fault TcpConnection := do
  let data ← (load message 0 (Buffer.pieceSize message.length)).mapError .buffer
  c.sendInLoop data w

open TcpConnection

namespace Shutdown

/-- What other threads queue in the loop. A `send()` is given by its number and message. -/
inductive Functor
  | sendInLoop (id : Nat) (m : Message)
  | shutdownInLoop
  deriving DecidableEq

/-- A call in another thread that has passed its test of `state_`: a `send()` that is about to
queue its functor; a `shutdown()` that is about to set the state, or to queue its functor. -/
inductive Call
  | send (id : Nat) (m : Message)
  | setState
  | shutdown
  deriving DecidableEq

/-- What is known when `shutdownWrite` is called: how many `send()` had been accepted at the
latest call of `shutdown()`, for which of them `sendInLoop` has run, and what has been written. -/
structure Record where
  called : Nat
  sent : List (Nat × Message)
  written : List UInt8
  deriving DecidableEq

structure System where
  conn : TcpConnection
  accepted : List Message
  calls : List Call
  pending : List Functor
  called : Nat
  sent : List (Nat × Message)
  records : List Record

/-- The connection changes; a call of `shutdownWrite` is recorded. -/
def System.withConn (s : System) (conn : TcpConnection) : System :=
  { s with
    conn
    records :=
      if conn.shutdownWrites = s.conn.shutdownWrites then s.records
      else s.records ++ [{ called := s.called, sent := s.sent, written := conn.written }] }

/-- `sendInLoop` runs for the `send()` with the number `id`, with this result. -/
def System.runSend (s : System) (id : Nat) (m : Message)
    (result : Except TcpConnection.Fault TcpConnection) : Except TcpConnection.Fault System := do
  let conn ← result
  pure { s.withConn conn with sent := s.sent ++ [(id, m)] }

inductive Action
  /-- The loop thread calls `send()`, or `shutdown()`. -/
  | send (m : Message) (w : WriteResult)
  | shutdown
  /-- Another thread calls one of them, and tests `state_`. -/
  | sendElsewhere (m : Message)
  | shutdownElsewhere
  /-- One of the calls in other threads goes on. -/
  | proceed (i : Nat)
  /-- The loop runs the first queued functor, or handles a write event. -/
  | runFunctor (w : WriteResult)
  | handleWrite (w : WriteResult)

def step (s : System) : Action → Option (Except TcpConnection.Fault System)
  | .send m w =>
    if s.conn.state = .kConnected then
      some (System.runSend { s with accepted := s.accepted ++ [m] } s.accepted.length m
        (s.conn.sendInLoop m.bytes w))
    else some (pure s)
  | .shutdown =>
    some (pure (System.withConn { s with called := s.accepted.length } s.conn.shutdown))
  | .sendElsewhere m =>
    if s.conn.state = .kConnected then
      some (pure { s with
        accepted := s.accepted ++ [m], calls := .send s.accepted.length m :: s.calls })
    else some (pure s)
  | .shutdownElsewhere =>
    if s.conn.state = .kConnected then
      some (pure { s with called := s.accepted.length, calls := .setState :: s.calls })
    else some (pure { s with called := s.accepted.length })
  | .proceed i =>
    match s.calls[i]? with
    | some (.send id m) =>
      some (pure { s with
        calls := s.calls.eraseIdx i, pending := s.pending ++ [.sendInLoop id m] })
    | some .setState =>
      some (pure { s with
        conn := s.conn.setState .kDisconnecting, calls := .shutdown :: s.calls.eraseIdx i })
    | some .shutdown =>
      some (pure { s with
        calls := s.calls.eraseIdx i, pending := s.pending ++ [.shutdownInLoop] })
    | none => none
  | .runFunctor w =>
    match s.pending with
    | .sendInLoop id m :: pending =>
      some (System.runSend { s with pending } id m (s.conn.sendPiece m.bytes w))
    | .shutdownInLoop :: pending =>
      some (pure (System.withConn { s with pending } s.conn.shutdownInLoop))
    | [] => none
  | .handleWrite w => some do
    let conn ← s.conn.handleWrite w
    pure (s.withConn conn)

/-- A write accepts at most what it is offered, and does not find the peer gone. -/
def Allowed (s : System) : Action → Prop
  | .send m w => w.Possible m.bytes.length
  | .runFunctor w =>
    match s.pending with
    | .sendInLoop _ m :: _ => w.Possible (Buffer.pieceSize m.bytes.length)
    | _ => True
  | .handleWrite w => w.Possible s.conn.outputBuffer.readableBytes
  | _ => True

def Call.isSend : Call → Bool
  | send _ _ => true
  | _ => false

def Functor.isSend : Functor → Bool
  | sendInLoop _ _ => true
  | shutdownInLoop => false

/-- No other thread is between its test of `state_` and `queueInLoop` in a `send()`. -/
def NoneCalling (s : System) : Prop := ∀ call ∈ s.calls, call.isSend = false

def NoneQueued (s : System) : Prop := ∀ functor ∈ s.pending, functor.isSend = false

/-- A queued `send()` that was accepted before the latest call of `shutdown()`. -/
def Functor.isDue (called : Nat) : Functor → Bool
  | sendInLoop id _ => id < called
  | shutdownInLoop => false

/-- What the callers keep to. The loop thread calls `shutdown()` when no accepted `send()` is on its
way; another thread when none is between its test and `queueInLoop`, and none is queued if the
connection is being shut down already; no write event comes between such a call and the functors that
were queued before it; and other threads send less than 2^31 bytes at a time. -/
def Orderly (s : System) : Action → Prop
  | .shutdown => NoneCalling s ∧ NoneQueued s
  | .shutdownElsewhere => NoneCalling s ∧ (s.conn.state = .kConnected ∨ NoneQueued s)
  | .sendElsewhere m => m.bytes.length < 2 ^ 31
  | .handleWrite _ =>
    s.conn.state = .kDisconnecting → ∀ functor ∈ s.pending, functor.isDue s.called = false
  | _ => True

instance (s : System) (a : Action) : Decidable (Allowed s a) :=
  match a with
  | .send m w => inferInstanceAs (Decidable (w.Possible m.bytes.length))
  | .runFunctor w =>
    match h : s.pending with
    | .sendInLoop _ m :: _ =>
      decidable_of_iff (w.Possible (Buffer.pieceSize m.bytes.length)) (by simp only [Allowed, h])
    | .shutdownInLoop :: _ => .isTrue (by simp only [Allowed, h])
    | [] => .isTrue (by simp only [Allowed, h])
  | .handleWrite w => inferInstanceAs (Decidable (w.Possible s.conn.outputBuffer.readableBytes))
  | .shutdown | .sendElsewhere _ | .shutdownElsewhere | .proceed _ => .isTrue trivial

instance (s : System) : Decidable (NoneCalling s) :=
  inferInstanceAs (Decidable (∀ call ∈ s.calls, call.isSend = false))

instance (s : System) : Decidable (NoneQueued s) :=
  inferInstanceAs (Decidable (∀ functor ∈ s.pending, functor.isSend = false))

instance (s : System) (a : Action) : Decidable (Orderly s a) :=
  match a with
  | .shutdown => inferInstanceAs (Decidable (_ ∧ _))
  | .shutdownElsewhere => inferInstanceAs (Decidable (_ ∧ (_ ∨ _)))
  | .sendElsewhere m => inferInstanceAs (Decidable (m.bytes.length < 2 ^ 31))
  | .handleWrite _ => inferInstanceAs (Decidable (_ → _))
  | .send _ _ | .proceed _ | .runFunctor _ => .isTrue trivial

/-- A connection right after `connectEstablished`. -/
def Fresh (s : System) : Prop :=
  Stream.Fresh { conn := s.conn, sent := [] } ∧ s.accepted = [] ∧ s.calls = [] ∧ s.pending = [] ∧
    s.called = 0 ∧ s.sent = [] ∧ s.records = []

/-- Every byte of every `send()` accepted before the latest call of `shutdown()` has been
written, in the order in which `sendInLoop` ran. -/
def Record.Covers (accepted : List Message) (r : Record) : Prop :=
  ∀ i m, i < r.called → accepted[i]? = some m → ∃ before after,
    r.sent = before ++ (i, m) :: after ∧
      before.flatMap (fun x => x.2.bytes) ++ m.bytes <+: r.written

/-- The output side of the connection, as in `Stream.Complete`. -/
structure Output (s : System) : Prop where
  pending : ∃ l, s.conn.Pending l
  stream_eq : s.conn.stream = s.sent.flatMap fun x => x.2.bytes
  state_ne : s.conn.state ≠ .kDisconnected

/-- An accepted `send()` whose `sendInLoop` has not run. -/
def OnItsWay (s : System) (i : Nat) (m : Message) : Prop :=
  .sendInLoop i m ∈ s.pending ∨ .send i m ∈ s.calls

/-- A queued `send()` in front of every `shutdownInLoop`. -/
def InFront (pending : List Functor) (i : Nat) (m : Message) : Prop :=
  ∃ front back, pending = front ++ .sendInLoop i m :: back ∧ .shutdownInLoop ∉ front

/-- `sendInLoop` has run for every `send()` accepted before the latest call of `shutdown()`. -/
def AllRan (s : System) : Prop := ∀ i m, i < s.called → s.accepted[i]? = some m → (i, m) ∈ s.sent

/-- What is known of the accepted `send()`. -/
structure Books (s : System) : Prop where
  accounted : ∀ i m, s.accepted[i]? = some m → (i, m) ∈ s.sent ∨ OnItsWay s i m
  short : ∀ i m, OnItsWay s i m → m.bytes.length < 2 ^ 31
  called_le : s.called ≤ s.accepted.length
  ready : ∀ i m, i < s.called → s.accepted[i]? = some m → (i, m) ∈ s.sent ∨ InFront s.pending i m
  unshut : s.conn.state = .kConnected → .shutdownInLoop ∉ s.pending ∧ .shutdown ∉ s.calls
  covered : ∀ r ∈ s.records, r.called ≤ s.accepted.length ∧ r.Covers s.accepted

variable {s t : System}

/-! ### The queue -/

theorem InFront.append {pending : List Functor} {i : Nat} {m : Message} (h : InFront pending i m)
    (rest : List Functor) : InFront (pending ++ rest) i m := by
  obtain ⟨front, back, rfl, hfront⟩ := h
  exact ⟨front, back ++ rest, by rw [List.append_assoc, List.cons_append], hfront⟩

theorem InFront.of_cons {f : Functor} {pending : List Functor} {i : Nat} {m : Message}
    (h : InFront (f :: pending) i m) :
    f = .sendInLoop i m ∨ f ≠ .shutdownInLoop ∧ InFront pending i m := by
  obtain ⟨front, back, hsplit, hfront⟩ := h
  cases front with
  | nil =>
    rw [List.nil_append, List.cons.injEq] at hsplit
    exact .inl hsplit.1
  | cons g front =>
    rw [List.cons_append, List.cons.injEq] at hsplit
    rw [List.mem_cons, not_or] at hfront
    exact .inr ⟨fun hf => hfront.1 (hf.symm.trans hsplit.1), front, back, hsplit.2, hfront.2⟩

theorem inFront_of_mem {pending : List Functor} {i : Nat} {m : Message}
    (h : .sendInLoop i m ∈ pending) (hnone : .shutdownInLoop ∉ pending) : InFront pending i m := by
  obtain ⟨front, back, rfl⟩ := List.append_of_mem h
  exact ⟨front, back, rfl, fun hmem => hnone (List.mem_append_left _ hmem)⟩

theorem InFront.mem {pending : List Functor} {i : Nat} {m : Message} (h : InFront pending i m) :
    .sendInLoop i m ∈ pending := by
  obtain ⟨front, back, rfl, -⟩ := h
  exact List.mem_append_right _ List.mem_cons_self

/-- The call at position `i` is the only one that is gone. -/
theorem mem_eraseIdx_or {α : Type} {l : List α} {i : Nat} {x : α} (h : x ∈ l) :
    l[i]? = some x ∨ x ∈ l.eraseIdx i := by
  obtain ⟨j, hj⟩ := List.mem_iff_getElem?.mp h
  by_cases hij : j = i
  · exact .inl (hij ▸ hj)
  · exact .inr (List.mem_eraseIdx_iff_getElem?.mpr ⟨j, hij, hj⟩)

/-! ### The books -/

theorem Record.Covers.concat {r : Record} {accepted : List Message}
    (h : r.called ≤ accepted.length ∧ r.Covers accepted) (m : Message) :
    r.called ≤ (accepted ++ [m]).length ∧ r.Covers (accepted ++ [m]) := by
  refine ⟨Nat.le_trans h.1 (by simp), fun i m' hi hm' => h.2 i m' hi ?_⟩
  rwa [List.getElem?_append_left (Nat.lt_of_lt_of_le hi h.1)] at hm'

/-- What a step does to a `send()` on its way: it goes on, or its `sendInLoop` has run. -/
structure Forward (s t : System) : Prop where
  sent : ∀ x ∈ s.sent, x ∈ t.sent
  way : ∀ i m, OnItsWay s i m → (i, m) ∈ t.sent ∨ OnItsWay t i m
  back : ∀ i m, OnItsWay t i m → OnItsWay s i m
  front : ∀ i m, InFront s.pending i m → (i, m) ∈ t.sent ∨ InFront t.pending i m

/-- No `send()` is accepted and no call of `shutdown()` begins. -/
theorem Books.mono (h : Books s) (haccepted : t.accepted = s.accepted) (hforward : Forward s t)
    (hunshut : t.conn.state = .kConnected → .shutdownInLoop ∉ t.pending ∧ .shutdown ∉ t.calls)
    (hcalled : t.called = s.called) (hrecords : t.records = s.records) : Books t := by
  refine ⟨fun i m hm => ?_, fun i m hm => h.short i m (hforward.back i m hm), ?_,
    fun i m hi hm => ?_, hunshut, ?_⟩
  · rw [haccepted] at hm
    rcases h.accounted i m hm with hs | hw
    · exact .inl (hforward.sent _ hs)
    · exact hforward.way i m hw
  · rw [haccepted, hcalled]
    exact h.called_le
  · rw [haccepted] at hm
    rw [hcalled] at hi
    rcases h.ready i m hi hm with hs | hf
    · exact .inl (hforward.sent _ hs)
    · exact hforward.front i m hf
  · rw [haccepted, hrecords]
    exact h.covered

/-- One more `send()` is accepted, and is run at once or is on its way. -/
theorem Books.accept (h : Books s) {m : Message} (haccepted : t.accepted = s.accepted ++ [m])
    (hsent : ∀ x ∈ s.sent, x ∈ t.sent) (hway : ∀ i m, OnItsWay s i m → OnItsWay t i m)
    (hnew : (s.accepted.length, m) ∈ t.sent ∨ OnItsWay t s.accepted.length m)
    (hshort : ∀ i m, OnItsWay t i m → m.bytes.length < 2 ^ 31) (hpending : t.pending = s.pending)
    (hunshut : t.conn.state = .kConnected → .shutdownInLoop ∉ t.pending ∧ .shutdown ∉ t.calls)
    (hcalled : t.called = s.called) (hrecords : t.records = s.records) : Books t := by
  refine ⟨fun i m' hm' => ?_, hshort, ?_, fun i m' hi hm' => ?_, hunshut, fun r hr => ?_⟩
  · rw [haccepted] at hm'
    rcases getElem?_concat_cases hm' with hold | ⟨rfl, rfl⟩
    · exact (h.accounted i m' hold).imp (hsent _) (hway i m')
    · exact hnew
  · rw [haccepted, hcalled, List.length_append]
    exact Nat.le_trans h.called_le (Nat.le_add_right _ _)
  · rw [hcalled] at hi
    rw [haccepted, List.getElem?_append_left (Nat.lt_of_lt_of_le hi h.called_le)] at hm'
    rw [hpending]
    exact (h.ready i m' hi hm').imp_left (hsent _)
  · rw [hrecords] at hr
    rw [haccepted]
    exact Record.Covers.concat (h.covered r hr) m

/-- A call of `shutdown()`: every accepted `send()` has run, or stands in the queue in front of what
the call will queue. -/
theorem Books.call (h : Books s) (hcalls : NoneCalling s)
    (hstate : s.conn.state = .kConnected ∨ NoneQueued s) :
    Books { s with called := s.accepted.length } := by
  refine ⟨h.accounted, h.short, Nat.le_refl _, fun i m _ hm => ?_, h.unshut, h.covered⟩
  rcases h.accounted i m hm with hs | hp | hc
  · exact .inl hs
  · rcases hstate with hconnected | hqueued
    · exact .inr (inFront_of_mem hp (h.unshut hconnected).1)
    · cases hqueued _ hp
  · cases hcalls _ hc

/-- With nothing queued that was accepted before the call, all has run. -/
theorem Books.allRan (h : Books s) (hdue : ∀ functor ∈ s.pending, functor.isDue s.called = false) :
    AllRan s := by
  intro i m hi hm
  rcases h.ready i m hi hm with hs | hf
  · exact hs
  · have hnot := hdue _ hf.mem
    exact absurd hi (of_decide_eq_false hnot)

theorem NoneQueued.isDue (h : NoneQueued s) (called : Nat) :
    ∀ functor ∈ s.pending, functor.isDue called = false := by
  intro functor hf
  cases functor with
  | sendInLoop id m => cases h _ hf
  | shutdownInLoop => rfl

/-- All that has been sent is written when `shutdownWrite` is called, so the record covers it. -/
theorem Books.withConn (h : Books s) (ho : Output s) {conn : TcpConnection} {l : List UInt8}
    (hp : conn.Pending l) (hstream : conn.stream = s.conn.stream)
    (hstate : conn.state = .kConnected → s.conn.state = .kConnected)
    (hshut : conn.shutdownWrites = s.conn.shutdownWrites ∨
      conn.shutdownWrites = s.conn.shutdownWrites + 1 ∧ l = [] ∧ AllRan s) :
    Books (s.withConn conn) := by
  refine ⟨h.accounted, h.short, h.called_le, h.ready, fun hc => h.unshut (hstate hc), ?_⟩
  rcases hshut with heq | ⟨-, rfl, hran⟩
  · rw [System.withConn, if_pos heq]
    exact h.covered
  · rw [System.withConn]
    dsimp only
    split
    · exact h.covered
    · intro r hr
      rcases List.mem_append.mp hr with hr | hr
      · exact h.covered r hr
      · rw [List.mem_singleton.mp hr]
        refine ⟨h.called_le, fun i m hi hm => ?_⟩
        obtain ⟨before, after, hsplit⟩ := List.append_of_mem (hran i m hi hm)
        refine ⟨before, after, hsplit, after.flatMap fun x => x.2.bytes, ?_⟩
        have hall : conn.written = s.sent.flatMap fun x => x.2.bytes := by
          rw [← ho.stream_eq, ← hstream, hp.stream_eq, List.append_nil]
        rw [hall, hsplit, List.flatMap_append, List.flatMap_cons, List.append_assoc]

theorem Output.withConn (h : Output s) {conn : TcpConnection} {l : List UInt8}
    (hp : conn.Pending l) (hstream : conn.stream = s.conn.stream)
    (hstate : conn.state ≠ .kDisconnected) : Output (s.withConn conn) :=
  ⟨⟨l, hp⟩, hstream.trans h.stream_eq, hstate⟩

/-! ### The steps -/

/-- `sendInLoop` runs for a `send()`: the books are those of the system in which it has run. -/
theorem Output.runSend (h : Output s) {id : Nat} {m : Message} {w : WriteResult}
    (hw : w.Possible m.bytes.length) (hbooks : Books { s with sent := s.sent ++ [(id, m)] }) :
    Yields (.buffer .lengthError) (s.runSend id m (s.conn.sendInLoop m.bytes w))
      fun t => Output t ∧ Books t := by
  obtain ⟨l, hl⟩ := h.pending
  apply (hl.sendInLoop h.state_ne m hw).bind
  rintro d ⟨hp, hkept, hstream⟩
  refine .ok ⟨⟨hp, ?_, hkept.state_eq.symm ▸ h.state_ne⟩, ?_⟩
  · change d.stream = (s.sent ++ [(id, m)]).flatMap fun x => x.2.bytes
    rw [hstream, h.stream_eq, List.flatMap_append, List.flatMap_singleton]
  · refine ⟨hbooks.accounted, hbooks.short, hbooks.called_le, hbooks.ready,
      fun hc => hbooks.unshut (hkept.state_eq.symm.trans hc), ?_⟩
    rw [System.withConn, if_pos hkept.shutdownWrites_eq]
    exact hbooks.covered

/-- Below 2^31 bytes the cast to `int` keeps the size. -/
theorem sendPiece_eq (c : TcpConnection) {message : List UInt8} (h : message.length < 2 ^ 31)
    (w : WriteResult) : c.sendPiece message w = c.sendInLoop message w := by
  have hslice : slice message 0 message.length = message := by simp [slice]
  rw [sendPiece, Buffer.pieceSize_of_lt h, load, if_pos ⟨Nat.zero_le _, Nat.le_refl _⟩, hslice]
  rfl

theorem Output.shutdown (ho : Output s) (hb : Books s) (hran : AllRan s) :
    Output (s.withConn s.conn.shutdown) ∧ Books (s.withConn s.conn.shutdown) := by
  obtain ⟨l, hl⟩ := ho.pending
  by_cases hstate : s.conn.state = .kConnected
  · obtain ⟨hp, hwr, hs⟩ := (hl.setState .kDisconnecting).shutdownInLoop
    have heq : s.conn.shutdown = (s.conn.setState .kDisconnecting).shutdownInLoop :=
      if_pos hstate
    have hstream : (s.conn.setState .kDisconnecting).shutdownInLoop.stream = s.conn.stream := by
      rw [hp.stream_eq, hwr, hl.stream_eq]
      rfl
    have hne : (s.conn.setState .kDisconnecting).shutdownInLoop.state ≠ .kDisconnected := by
      rw [hs.state_eq]
      change StateE.kDisconnecting ≠ .kDisconnected
      decide
    rw [heq]
    exact ⟨ho.withConn hp hstream hne, hb.withConn ho hp hstream (fun _ => hstate)
      (hs.shutdownWrites.imp_right fun h => ⟨h.1, h.2, hran⟩)⟩
  · have heq : s.conn.shutdown = s.conn := if_neg hstate
    rw [heq]
    exact ⟨ho.withConn hl rfl ho.state_ne, hb.withConn ho hl rfl id (.inl rfl)⟩

theorem Output.shutdownInLoop (ho : Output s) (hb : Books s) (hran : AllRan s) :
    Output (s.withConn s.conn.shutdownInLoop) ∧ Books (s.withConn s.conn.shutdownInLoop) := by
  obtain ⟨l, hl⟩ := ho.pending
  obtain ⟨hp, hwr, hs⟩ := hl.shutdownInLoop
  have hstream : s.conn.shutdownInLoop.stream = s.conn.stream := by
    rw [hp.stream_eq, hwr, hl.stream_eq]
  exact ⟨ho.withConn hp hstream (hs.state_eq.symm ▸ ho.state_ne),
    hb.withConn ho hp hstream hs.state_eq.symm.trans
      (hs.shutdownWrites.imp_right fun h => ⟨h.1, h.2, hran⟩)⟩

/-- A call in another thread goes on. -/
theorem Output.proceed (ho : Output s) (hb : Books s) {i : Nat}
    {m : Except TcpConnection.Fault System} (hm : step s (.proceed i) = some m) :
    Yields (.buffer .lengthError) m fun t => Output t ∧ Books t := by
  simp only [step] at hm
  split at hm
  · next id msg hcall =>
    cases hm
    refine .ok ⟨⟨ho.pending, ho.stream_eq, ho.state_ne⟩, hb.mono rfl
      ⟨fun _ hx => hx, ?_, ?_, fun j m hf => .inr (hf.append _)⟩ (fun hc => ?_) rfl rfl⟩
    · rintro j m (hp | hc)
      · exact .inr (.inl (List.mem_append_left _ hp))
      · rcases mem_eraseIdx_or (i := i) hc with heq | hc
        · rw [hcall] at heq
          cases heq
          exact .inr (.inl (List.mem_append_right _ (List.mem_singleton_self _)))
        · exact .inr (.inr hc)
    · rintro j m (hp | hc)
      · rcases List.mem_append.mp hp with hp | hp
        · exact .inl hp
        · cases List.mem_singleton.mp hp
          exact .inr (List.mem_of_getElem? hcall)
      · exact .inr (List.mem_of_mem_eraseIdx hc)
    · obtain ⟨hpending, hcalls⟩ := hb.unshut hc
      refine ⟨fun hmem => ?_, fun hmem => hcalls (List.mem_of_mem_eraseIdx hmem)⟩
      rcases List.mem_append.mp hmem with hmem | hmem
      · exact hpending hmem
      · cases List.mem_singleton.mp hmem
  · next hcall =>
    cases hm
    obtain ⟨l, hl⟩ := ho.pending
    have hne : (s.conn.setState .kDisconnecting).state ≠ .kDisconnected := by
      change StateE.kDisconnecting ≠ .kDisconnected
      decide
    refine .ok ⟨⟨⟨l, hl.setState _⟩, ho.stream_eq, hne⟩, hb.mono rfl
      ⟨fun _ hx => hx, ?_, ?_, fun j m hf => .inr hf⟩ (fun hc => ?_) rfl rfl⟩
    · rintro j m (hp | hc)
      · exact .inr (.inl hp)
      · rcases mem_eraseIdx_or (i := i) hc with heq | hc
        · rw [hcall] at heq
          cases heq
        · exact .inr (.inr (List.mem_cons_of_mem _ hc))
    · rintro j m (hp | hc)
      · exact .inl hp
      · rcases List.mem_cons.mp hc with heq | hc
        · cases heq
        · exact .inr (List.mem_of_mem_eraseIdx hc)
    · cases hc
  · next hcall =>
    cases hm
    refine .ok ⟨⟨ho.pending, ho.stream_eq, ho.state_ne⟩, hb.mono rfl
      ⟨fun _ hx => hx, ?_, ?_, fun j m hf => .inr (hf.append _)⟩ (fun hc => ?_) rfl rfl⟩
    · rintro j m (hp | hc)
      · exact .inr (.inl (List.mem_append_left _ hp))
      · rcases mem_eraseIdx_or (i := i) hc with heq | hc
        · rw [hcall] at heq
          cases heq
        · exact .inr (.inr hc)
    · rintro j m (hp | hc)
      · rcases List.mem_append.mp hp with hp | hp
        · exact .inl hp
        · cases List.mem_singleton.mp hp
      · exact .inr (List.mem_of_mem_eraseIdx hc)
    · -- The call has set the state before.
      exact absurd (List.mem_of_getElem? hcall) (hb.unshut hc).2
  · cases hm

/-- The loop runs a functor. -/
theorem Output.runFunctor (ho : Output s) (hb : Books s) {w : WriteResult}
    (ha : Allowed s (.runFunctor w)) {m : Except TcpConnection.Fault System}
    (hm : step s (.runFunctor w) = some m) :
    Yields (.buffer .lengthError) m fun t => Output t ∧ Books t := by
  simp only [step] at hm
  simp only [Allowed] at ha
  split at hm
  · next id msg rest hpending =>
    cases hm
    have hshort : msg.bytes.length < 2 ^ 31 := by
      refine hb.short id msg (.inl ?_)
      rw [hpending]
      exact List.mem_cons_self
    rw [hpending] at ha
    dsimp only at ha
    rw [Buffer.pieceSize_of_lt hshort] at ha
    rw [sendPiece_eq _ hshort]
    have hout : Output { s with pending := rest } := ⟨ho.pending, ho.stream_eq, ho.state_ne⟩
    refine hout.runSend ha (hb.mono rfl
      ⟨fun _ hx => List.mem_append_left _ hx, ?_, ?_, fun j m hf => ?_⟩ (fun hc => ?_) rfl rfl)
    · rintro j m (hp | hc)
      · rw [hpending] at hp
        rcases List.mem_cons.mp hp with heq | hp
        · cases heq
          exact .inl (List.mem_append_right _ (List.mem_singleton_self _))
        · exact .inr (.inl hp)
      · exact .inr (.inr hc)
    · rintro j m (hp | hc)
      · rw [OnItsWay, hpending]
        exact .inl (List.mem_cons_of_mem _ hp)
      · exact .inr hc
    · rw [hpending] at hf
      rcases hf.of_cons with heq | ⟨-, hf⟩
      · cases heq
        exact .inl (List.mem_append_right _ (List.mem_singleton_self _))
      · exact .inr hf
    · obtain ⟨hnone, hcalls⟩ := hb.unshut hc
      rw [hpending] at hnone
      exact ⟨fun hmem => hnone (List.mem_cons_of_mem _ hmem), hcalls⟩
  · next rest hpending =>
    cases hm
    -- Whatever was accepted before the call stood in front of this functor.
    have hran : AllRan s := by
      intro i m hi hm
      rcases hb.ready i m hi hm with hs | hf
      · exact hs
      · rw [hpending] at hf
        rcases hf.of_cons with heq | ⟨hne, -⟩
        · cases heq
        · exact absurd rfl hne
    have hout : Output { s with pending := rest } := ⟨ho.pending, ho.stream_eq, ho.state_ne⟩
    refine .ok (hout.shutdownInLoop (hb.mono rfl
      ⟨fun _ hx => hx, ?_, ?_, fun j m hf => ?_⟩ (fun hc => ?_) rfl rfl) hran)
    · rintro j m (hp | hc)
      · rw [hpending] at hp
        rcases List.mem_cons.mp hp with heq | hp
        · cases heq
        · exact .inr (.inl hp)
      · exact .inr (.inr hc)
    · rintro j m (hp | hc)
      · rw [OnItsWay, hpending]
        exact .inl (List.mem_cons_of_mem _ hp)
      · exact .inr hc
    · rw [hpending] at hf
      rcases hf.of_cons with heq | ⟨hne, -⟩
      · cases heq
      · exact absurd rfl hne
    · have hnone := (hb.unshut hc).1
      rw [hpending] at hnone
      exact absurd List.mem_cons_self hnone
  · cases hm

/-- Only in the state `kDisconnecting` a write event shuts down. -/
theorem handleWrite_shutdownWrites {c d : TcpConnection} {w : WriteResult}
    (hstate : c.state ≠ .kDisconnecting) (h : c.handleWrite w = .ok d) :
    d.shutdownWrites = c.shutdownWrites := by
  have hdrained : ∀ c : TcpConnection, c.state ≠ .kDisconnecting →
      c.drained.shutdownWrites = c.shutdownWrites := by
    intro c hc
    have hoff : c.disableWriting.state ≠ .kDisconnecting := hc
    have hqueue : (c.disableWriting.queueInLoop .writeComplete).state ≠ .kDisconnecting := hc
    unfold drained
    dsimp only
    split <;> rfl
  unfold handleWrite at h
  split at h
  · cases w with
    | count n =>
      dsimp only at h
      split at h
      · obtain ⟨b, -, hb⟩ := bind_eq_ok_iff.mp h
        rw [pure_eq_ok_iff] at hb
        rw [hb]
        split
        · exact hdrained _ hstate
        · rfl
      · rw [pure_eq_ok_iff] at h
        rw [h]
    | failed e =>
      rw [pure_eq_ok_iff] at h
      rw [h]
  · rw [pure_eq_ok_iff] at h
    rw [h]

theorem Output.step (ho : Output s) (hb : Books s) {a : Action} (ha : Allowed s a)
    (horderly : Orderly s a) {m : Except TcpConnection.Fault System} (hm : step s a = some m) :
    Yields (.buffer .lengthError) m fun t => Output t ∧ Books t := by
  cases a with
  | send msg w =>
    simp only [Shutdown.step] at hm
    split at hm
    · cases hm
      have hout : Output { s with accepted := s.accepted ++ [msg] } :=
        ⟨ho.pending, ho.stream_eq, ho.state_ne⟩
      refine hout.runSend ha (hb.accept rfl (fun _ hx => List.mem_append_left _ hx)
        (fun _ _ hw => hw) (.inl ?_) hb.short rfl hb.unshut rfl rfl)
      exact List.mem_append_right _ (List.mem_singleton_self _)
    · cases hm
      exact .ok ⟨ho, hb⟩
  | shutdown =>
    cases hm
    have hcall := hb.call horderly.1 (.inr horderly.2)
    have hout : Output { s with called := s.accepted.length } :=
      ⟨ho.pending, ho.stream_eq, ho.state_ne⟩
    exact .ok (hout.shutdown hcall (hcall.allRan (horderly.2.isDue _)))
  | sendElsewhere msg =>
    simp only [Shutdown.step] at hm
    split at hm
    · cases hm
      refine .ok ⟨⟨ho.pending, ho.stream_eq, ho.state_ne⟩, hb.accept rfl (fun _ hx => hx)
        (fun _ _ hw => hw.imp_right (List.mem_cons_of_mem _)) (.inr (.inr List.mem_cons_self))
        ?_ rfl (fun hc => ?_) rfl rfl⟩
      · rintro i m (hp | hc)
        · exact hb.short i m (.inl hp)
        · rcases List.mem_cons.mp hc with heq | hc
          · cases heq
            exact horderly
          · exact hb.short i m (.inr hc)
      · obtain ⟨hpending, hcalls⟩ := hb.unshut hc
        exact ⟨hpending, fun hmem => (List.mem_cons.mp hmem).elim nofun hcalls⟩
    · cases hm
      exact .ok ⟨ho, hb⟩
  | shutdownElsewhere =>
    have hcall := hb.call horderly.1 horderly.2
    have hout : Output { s with called := s.accepted.length } :=
      ⟨ho.pending, ho.stream_eq, ho.state_ne⟩
    simp only [Shutdown.step] at hm
    split at hm
    · cases hm
      refine .ok ⟨⟨ho.pending, ho.stream_eq, ho.state_ne⟩, hcall.mono rfl
        ⟨fun _ hx => hx, fun _ _ hw => .inr (hw.imp_right (List.mem_cons_of_mem _)),
          fun i m hw => hw.imp_right fun hc => ?_, fun _ _ hf => .inr hf⟩ (fun hc => ?_) rfl rfl⟩
      · exact (List.mem_cons.mp hc).elim nofun fun hc => hc
      · obtain ⟨hpending, hcalls⟩ := hb.unshut hc
        exact ⟨hpending, fun hmem => (List.mem_cons.mp hmem).elim nofun hcalls⟩
    · cases hm
      exact .ok ⟨hout, hcall⟩
  | proceed i => exact ho.proceed hb hm
  | runFunctor w => exact ho.runFunctor hb ha hm
  | handleWrite w =>
    cases hm
    obtain ⟨l, hl⟩ := ho.pending
    have hw : w.Possible l.length := hl.holds.readableBytes_eq ▸ ha
    obtain ⟨d, l', hd, hp, hstream, hs⟩ := hl.handleWrite hw
    have hshut : d.shutdownWrites = s.conn.shutdownWrites ∨
        d.shutdownWrites = s.conn.shutdownWrites + 1 ∧ l' = [] ∧ AllRan s := by
      by_cases hstate : s.conn.state = .kDisconnecting
      · exact hs.shutdownWrites.imp_right fun h => ⟨h.1, h.2, hb.allRan (horderly hstate)⟩
      · exact .inl (handleWrite_shutdownWrites hstate hd)
    rw [hd]
    exact .ok ⟨ho.withConn hp hstream (hs.state_eq.symm ▸ ho.state_ne),
      hb.withConn ho hp hstream hs.state_eq.symm.trans hshut⟩

theorem Fresh.output (h : Fresh s) : Output s ∧ Books s := by
  obtain ⟨hconn, haccepted, hcalls, hpending, hcalled, hsent, hrecords⟩ := h
  have hc := hconn.complete
  refine ⟨⟨hc.pending, ?_, hc.state_ne⟩, fun i m hm => ?_, ?_, ?_, fun i m hi => ?_,
    fun _ => ?_, fun r hr => ?_⟩
  · rw [hsent]
    exact hc.stream_eq
  · rw [haccepted] at hm
    cases hm
  · rintro i m (hp | hc)
    · rw [hpending] at hp
      cases hp
    · rw [hcalls] at hc
      cases hc
  · rw [hcalled]
    exact Nat.zero_le _
  · rw [hcalled] at hi
    exact absurd hi (Nat.not_lt_zero i)
  · rw [hpending, hcalls]
    exact ⟨List.not_mem_nil, List.not_mem_nil⟩
  · rw [hrecords] at hr
    cases hr

/-- As long as the callers keep to the order, `shutdownWrite` comes after every byte that was
accepted before the latest call of `shutdown()`. -/
theorem shutdownWrite_after_accepted {p : Except TcpConnection.Fault System}
    (h : Run step (fun s a => Allowed s a ∧ Orderly s a) Fresh p) :
    ∀ s, p = .ok s → ∀ r ∈ s.records, r.Covers s.accepted := by
  have hrun : Yields (.buffer .lengthError) p fun s => Output s ∧ Books s :=
    h.yields (fun _ hs => hs.output) fun _ _ _ hs ha hm => hs.1.step hs.2 ha.1 ha.2 hm
  intro s hs r hr
  exact ((hrun.of_eq_ok hs).2.covered r hr).2

/-- A new connection, without callbacks. -/
def System.new : System :=
  { conn := ((TcpConnection.new false false (64 * 1024 * 1024)).setState .kConnected).enableReading
    accepted := []
    calls := []
    pending := []
    called := 0
    sent := []
    records := [] }

theorem fresh_new : Fresh System.new :=
  ⟨⟨⟨false, false, 64 * 1024 * 1024, rfl⟩, rfl⟩, rfl, rfl, rfl, rfl, rfl, rfl⟩

theorem shutdownWrite_after_accepted_example :
    ∃ s, Run step (fun s a => Allowed s a ∧ Orderly s a) Fresh (.ok s) ∧
      s.records = [⟨2, [(1, ⟨[3], by decide⟩), (0, ⟨[1, 2], by decide⟩)], [3, 1, 2]⟩] ∧
      ∀ r ∈ s.records, r.Covers s.accepted := by
  have hex : seen (exec (faulting (restrict (fun s a => Allowed s a ∧ Orderly s a) step))
      (.ok System.new)
      [.sendElsewhere ⟨[1, 2], by decide⟩, .send ⟨[3], by decide⟩ (.failed .EWOULDBLOCK),
        .proceed 0, .runFunctor (.count 0), .shutdownElsewhere, .proceed 0, .proceed 0,
        .runFunctor (.count 0), .handleWrite (.count 1), .handleWrite (.count 2)])
      (fun s => s.records =
        [⟨2, [(1, ⟨[3], by decide⟩), (0, ⟨[1, 2], by decide⟩)], [3, 1, 2]⟩]) = true := by
    decide +kernel
  obtain ⟨s, hs, hcheck⟩ := exists_of_seen hex
  have hstart : Run step (fun s a => Allowed s a ∧ Orderly s a) Fresh (.ok System.new) :=
    Run.start fresh_new
  have hrun := hstart.exec _ hs
  exact ⟨s, hrun, of_decide_eq_true hcheck, shutdownWrite_after_accepted hrun s rfl⟩

/-- Another thread's `send()` has been accepted and has returned. The loop thread then calls
`shutdown()`, and `shutdownWrite` is called although nothing has been written. -/
theorem shutdownWrite_before_queued_send :
    ∃ s, Run step Allowed Fresh (.ok s) ∧ s.accepted = [⟨[1], by decide⟩] ∧
      ∃ r ∈ s.records, r.written = [] ∧ ¬r.Covers s.accepted := by
  have hex : seen (exec (faulting (restrict Allowed step)) (.ok System.new)
      [.sendElsewhere ⟨[1], by decide⟩, .proceed 0, .shutdown])
      (fun s => s.accepted = [⟨[1], by decide⟩] ∧
        s.records = [⟨1, [], []⟩]) = true := by
    decide +kernel
  obtain ⟨s, hs, hcheck⟩ := exists_of_seen hex
  obtain ⟨haccepted, hrecords⟩ := of_decide_eq_true hcheck
  have hstart : Run step Allowed Fresh (.ok System.new) := Run.start fresh_new
  refine ⟨s, hstart.exec _ hs, haccepted, ⟨1, [], []⟩, ?_, rfl, ?_⟩
  · rw [hrecords]
    exact List.mem_singleton_self _
  · intro hcovers
    have hfirst : s.accepted[0]? = some ⟨[1], by decide⟩ := by
      rw [haccepted]
      rfl
    obtain ⟨before, after, hsent, -⟩ := hcovers 0 _ Nat.one_pos hfirst
    exact List.append_ne_nil_of_right_ne_nil before (List.cons_ne_nil _ _) hsent.symm

end Shutdown

end DbdkyGcc.Tcp
