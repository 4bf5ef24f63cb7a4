import DbdkyGcc.Foundations.Runs
import DbdkyGcc.Tcp.Connection

/-!
# The life cycle of a connection

A connection of a `TcpServer` is established, gets poll events, is shut down by
its user and is destroyed once. The callbacks of one event run one after the
other, and so do the parts of `handleClose` and `connectDestroyed` around the
user's `connectionCallback_`: what the loop thread still has to run stands in
`todo`. User code runs in the loop thread between events and within the
callbacks (`user`); other threads can call `shutdown()`, whose test of `state_`
and whose `setState` are separate steps.
-/

namespace DbdkyGcc.Tcp

open Foundations TcpConnection

namespace TcpConnection

/-- The order in which the states follow each other. -/
def StateE.rank : StateE → Nat
  | kConnecting => 0
  | kConnected => 1
  | kDisconnecting => 2
  | kDisconnected => 3

/-- `handleClose`, up to the calls of the callbacks. -/
def handleClose (c : TcpConnection) : Except Fault TcpConnection := do
  ensure .handleClose (c.state = .kConnected ∨ c.state = .kDisconnecting)
  pure (c.setState .kDisconnected).disableAll

/-- `Channel::remove`, up to `EventLoop::removeChannel`. -/
def remove (c : TcpConnection) : Except Fault Unit := ensure .remove (c.isNoneEvent = true)

end TcpConnection

namespace Closing

/-- What `inputBuffer_.readFd` returns: a positive count, zero, or an error. -/
inductive ReadResult
  | data
  | eof
  | error
  deriving DecidableEq, Repr

/-- `revents_`: `POLLIN`, `POLLPRI`, `POLLOUT`, `POLLHUP`, `POLLERR` and `POLLNVAL`. -/
structure Revents where
  pollIn : Bool
  pollPri : Bool
  pollOut : Bool
  pollHup : Bool
  pollErr : Bool
  pollNval : Bool
  deriving DecidableEq, Repr

/-- What the loop thread has to run: a callback of the channel, a callback of the connection, or
a part of `connectDestroyed`. -/
inductive Piece
  | handleClose
  | handleError
  | handleRead
  | handleWrite
  | connectionCallback
  | closeCallback
  | connectDestroyed
  | remove
  deriving DecidableEq, Repr

/-- `Channel::handleEventWithGuard`. -/
def Revents.pieces (r : Revents) : List Piece :=
  (if r.pollHup && !r.pollIn then [Piece.handleClose] else []) ++
  (if r.pollErr || r.pollNval then [Piece.handleError] else []) ++
  (if r.pollIn || r.pollPri then [Piece.handleRead] else []) ++
  (if r.pollOut then [Piece.handleWrite] else [])

inductive Functor
  | connectEstablished
  | connectDestroyed
  | shutdownInLoop
  deriving DecidableEq, Repr

/-- The connection, the loop thread, the calls of `shutdown()` in other threads (`setting` of them
have passed their test, `queueing` have set the state), the server (`removing`: the connection has
been handed to `removeConnection`; `issued`: `connectDestroyed` has been issued), and how often the
callbacks have been called. -/
structure System where
  conn : TcpConnection
  todo : List Piece
  user : Bool
  pending : List Functor
  setting : Nat
  queueing : Nat
  removing : Bool
  issued : Bool
  removed : Bool
  ups : Nat
  downs : Nat
  closes : Nat

/-- After `TcpServer::newConnection`. -/
def System.new (writeComplete highWater : Bool) (mark : Nat) : System :=
  { conn := .new writeComplete highWater mark
    todo := []
    user := false
    pending := [.connectEstablished]
    setting := 0
    queueing := 0
    removing := false
    issued := false
    removed := false
    ups := 0
    downs := 0
    closes := 0 }

inductive Action
  /-- The poller reports an event. -/
  | poll (r : Revents)
  /-- The loop thread goes on with what it has to run, or runs a queued functor. -/
  | run (r : ReadResult) (w : WriteResult)
  | runFunctor
  /-- Calls in the loop thread. -/
  | send (data : List UInt8) (w : WriteResult)
  | shutdown
  /-- A call of `shutdown()` in another thread: its test, its `setState`, its `queueInLoop`. -/
  | shutdownElsewhere
  | setElsewhere
  | queueElsewhere
  /-- The server. -/
  | removeConnectionInLoop
  | destroyServer (direct : Bool)

section Steps

variable (s : System)

/-- User code runs in the loop thread. -/
def System.inUserCode : Bool := s.user || s.todo.isEmpty

/-- The user has the connection from the first call of `connectionCallback_`. -/
def System.published : Bool := 0 < s.ups

/-- `handleClose`: the two callbacks come before the rest of the event. -/
def System.close (rest : List Piece) : Except Fault System := do
  let conn ← s.conn.handleClose
  pure { s with conn, todo := .connectionCallback :: .closeCallback :: rest, user := false }

/-- The user asks `connected()` in the callback. -/
def System.callConnectionCallback (rest : List Piece) : System :=
  if s.conn.state = .kConnected then
    { s with todo := rest, user := true, ups := s.ups + 1 }
  else
    { s with todo := rest, user := true, downs := s.downs + 1 }

def System.connectDestroyed (rest : List Piece) : System :=
  if s.conn.state = .kConnected then
    { s with
      conn := (s.conn.setState .kDisconnected).disableAll
      todo := .connectionCallback :: .remove :: rest
      user := false }
  else
    { s with todo := .remove :: rest, user := false }

/-- One part of what the loop thread has to run. -/
def System.runPiece (r : ReadResult) (w : WriteResult) (rest : List Piece) :
    Piece → Except Fault System
  | .handleClose => s.close rest
  | .handleError => pure { s with todo := rest, user := false }
  | .handleRead =>
    match r with
    | .data => pure { s with todo := rest, user := true }
    | .eof => s.close rest
    | .error => pure { s with todo := rest, user := false }
  | .handleWrite => do
    let conn ← s.conn.handleWrite w
    pure { s with conn, todo := rest, user := false }
  | .connectionCallback => pure (s.callConnectionCallback rest)
  | .closeCallback =>
    pure { s with todo := rest, user := false, removing := true, closes := s.closes + 1 }
  | .connectDestroyed => pure (s.connectDestroyed rest)
  | .remove => do
    s.conn.remove
    pure { s with todo := rest, user := false, removed := true }

def System.runFunctor (pending : List Functor) : Functor → Except Fault System
  | .connectEstablished => do
    let conn ← s.conn.connectEstablished
    pure { s with conn, pending, todo := [.connectionCallback], user := false }
  | .connectDestroyed => pure { s with pending, todo := [.connectDestroyed], user := false }
  | .shutdownInLoop => pure { s with pending, conn := s.conn.shutdownInLoop }

def step : Action → Option (Except Fault System)
  | .poll r =>
    if s.todo = [] ∧ s.removed = false ∧ s.conn.isNoneEvent = false ∧
        ((r.pollIn || r.pollPri) = true → s.conn.reading = true) ∧
        (r.pollOut = true → s.conn.writing = true) then
      some (pure { s with todo := r.pieces, user := false })
    else none
  | .run r w =>
    match s.todo with
    | piece :: rest => some (s.runPiece r w rest piece)
    | [] => none
  | .runFunctor =>
    match s.pending with
    | functor :: pending => if s.todo = [] then some (s.runFunctor pending functor) else none
    | [] => none
  | .send data w =>
    if s.inUserCode = true ∧ s.published = true then
      some do
        let conn ← s.conn.sendInLoop data w
        pure { s with conn }
    else none
  | .shutdown =>
    if s.inUserCode = true ∧ s.published = true then
      some (pure { s with conn := s.conn.shutdown })
    else none
  | .shutdownElsewhere =>
    if s.published = true ∧ s.conn.state = .kConnected then
      some (pure { s with setting := s.setting + 1 })
    else none
  | .setElsewhere =>
    if 0 < s.setting then
      some (pure { s with
        conn := s.conn.setState .kDisconnecting
        setting := s.setting - 1
        queueing := s.queueing + 1 })
    else none
  | .queueElsewhere =>
    if 0 < s.queueing then
      some (pure { s with
        queueing := s.queueing - 1, pending := s.pending ++ [.shutdownInLoop] })
    else none
  | .removeConnectionInLoop =>
    if s.removing = true ∧ s.issued = false then
      some (pure { s with
        removing := false, issued := true, pending := s.pending ++ [.connectDestroyed] })
    else none
  | .destroyServer direct =>
    if s.issued = true then none
    else if direct = true then
      -- the loop of the server is the loop of the connection, which has been established at once
      if s.inUserCode = true ∧ s.conn.state ≠ .kConnecting then
        some (pure { s with issued := true, todo := .connectDestroyed :: s.todo, user := false })
      else none
    else
      some (pure { s with issued := true, pending := s.pending ++ [.connectDestroyed] })

end Steps

/-- No event reports `POLLHUP` and `POLLPRI` without `POLLIN`, `connectDestroyed` does not find the
connection shut down but not closed, and another thread's `shutdown()` does not set the state after
the connection has been closed. -/
def Orderly (s : System) : Action → Prop
  | .poll r => r.pollHup = true → r.pollPri = true → r.pollIn = true
  | .run _ _ => s.todo.head? = some .connectDestroyed → s.conn.state ≠ .kDisconnecting
  | .setElsewhere => s.conn.state ≠ .kDisconnected
  | _ => True

instance (s : System) (a : Action) : Decidable (Orderly s a) :=
  match a with
  | .poll _ => inferInstanceAs (Decidable (_ → _ → _))
  | .run _ _ => inferInstanceAs (Decidable (_ → _))
  | .setElsewhere => inferInstanceAs (Decidable (_ ≠ _))
  | .runFunctor | .send _ _ | .shutdown | .shutdownElsewhere | .queueElsewhere
  | .removeConnectionInLoop | .destroyServer _ => .isTrue trivial

end Closing

namespace TcpConnection

variable {c d : TcpConnection}

theorem StateE.rank_le (s : StateE) : s.rank ≤ StateE.kDisconnected.rank := by
  cases s with
  | kDisconnected | kConnecting | kConnected | kDisconnecting => decide

theorem shutdownInLoop_eq (c : TcpConnection) :
    c.shutdownInLoop.state = c.state ∧ c.shutdownInLoop.isNoneEvent = c.isNoneEvent := by
  unfold shutdownInLoop
  split
  · exact ⟨rfl, rfl⟩
  · exact ⟨rfl, rfl⟩

theorem drained_state (c : TcpConnection) : c.drained.state = c.state := by
  unfold drained
  dsimp only
  split
  · split
    · exact (shutdownInLoop_eq _).1
    · rfl
  · split
    · exact (shutdownInLoop_eq _).1
    · rfl

/-- `handleWrite` does not touch the state, and fails only in the buffer. -/
theorem handleWrite_cases (c : TcpConnection) (w : WriteResult) :
    (∃ d, c.handleWrite w = .ok d ∧ d.state = c.state) ∨
      ∃ f, c.handleWrite w = .error (.buffer f) := by
  have hsame : (∃ d, (.ok c : Except Fault TcpConnection) = .ok d ∧ d.state = c.state) ∨
      ∃ f, (.ok c : Except Fault TcpConnection) = .error (.buffer f) := .inl ⟨c, rfl, rfl⟩
  unfold handleWrite
  split
  · cases w with
    | count n =>
      dsimp only
      split
      · cases hb : c.outputBuffer.retrieve n with
        | error f => exact .inr ⟨f, rfl⟩
        | ok b =>
          refine .inl ⟨_, rfl, ?_⟩
          split
          · exact drained_state _
          · rfl
      · exact hsame
    | failed e => exact hsame
  · exact hsame

theorem handleWrite_of_not_writing (w : WriteResult) (h : c.isWriting = false) :
    c.handleWrite w = .ok c := by
  apply if_neg
  rw [h]
  exact Bool.false_ne_true

theorem tryWrite_state (c : TcpConnection) (data : List UInt8) (w : WriteResult) :
    (c.tryWrite data w).conn.state = c.state := by
  unfold tryWrite
  split
  · cases w with
    | count n =>
      dsimp only
      split
      · rfl
      · rfl
    | failed e => rfl
  · rfl

theorem keepRest_cases (c : TcpConnection) (rest : List UInt8) (remaining : Nat) :
    (∃ d, c.keepRest rest remaining = .ok d ∧ d.state = c.state) ∨
      ∃ f, c.keepRest rest remaining = .error (.buffer f) := by
  have hnote : (c.noteHighWaterMark c.outputBuffer.readableBytes remaining).state = c.state := by
    unfold noteHighWaterMark
    split
    · rfl
    · rfl
  rw [keepRest]
  cases hb :
    (c.noteHighWaterMark c.outputBuffer.readableBytes remaining).outputBuffer.append rest with
  | error f => exact .inr ⟨f, rfl⟩
  | ok b =>
    refine .inl ⟨_, rfl, ?_⟩
    split
    · exact hnote
    · exact hnote

/-- `sendInLoop` does not touch the state, and fails in its own assertion or in the buffer. -/
theorem sendInLoop_cases (c : TcpConnection) (data : List UInt8) (w : WriteResult) :
    (∃ d, c.sendInLoop data w = .ok d ∧ d.state = c.state) ∨
      c.sendInLoop data w = .error .sendInLoop ∨ ∃ f, c.sendInLoop data w = .error (.buffer f) := by
  unfold sendInLoop
  split
  · exact .inl ⟨c, rfl, rfl⟩
  · by_cases hlen : sizeSub data.length (c.tryWrite data w).nwrote ≤ data.length
    · simp only [ensure_eq_ok hlen, ok_bind]
      have hstate := tryWrite_state c data w
      split
      · rcases keepRest_cases (c.tryWrite data w).conn (data.drop (c.tryWrite data w).nwrote)
          (sizeSub data.length (c.tryWrite data w).nwrote) with ⟨d, hd, hds⟩ | ⟨f, hf⟩
        · exact .inl ⟨d, hd, hds.trans hstate⟩
        · exact .inr (.inr ⟨f, hf⟩)
      · exact .inl ⟨_, rfl, hstate⟩
    · refine .inr (.inl ?_)
      simp only [ensure, if_neg hlen]
      rfl

end TcpConnection

namespace Closing

/-- Before `connectEstablished`, which is the first of the queued functors. -/
structure Connecting (s : System) : Prop where
  state_eq : s.conn.state = .kConnecting
  todo_eq : s.todo = []
  interest : s.conn.isNoneEvent = true
  ups_eq : s.ups = 0
  downs_eq : s.downs = 0
  closes_eq : s.closes = 0
  setting_eq : s.setting = 0
  pending : ∃ rest, s.pending = .connectEstablished :: rest ∧ .connectEstablished ∉ rest

/-- Within `connectEstablished`, before the first call of `connectionCallback_`. -/
structure Announcing (s : System) : Prop where
  state_eq : s.conn.state = .kConnected
  todo_eq : s.todo = [.connectionCallback]
  user_eq : s.user = false
  ups_eq : s.ups = 0
  downs_eq : s.downs = 0
  closes_eq : s.closes = 0
  setting_eq : s.setting = 0
  pending : .connectEstablished ∉ s.pending

/-- Until the connection is closed, at most one part of an event can close it, and no user code
runs in the loop thread before that part. -/
structure Open (s : System) : Prop where
  alive : s.conn.state = .kConnected ∨ s.conn.state = .kDisconnecting
  ups_eq : s.ups = 1
  downs_eq : s.downs = 0
  closes_eq : s.closes = 0
  pending : .connectEstablished ∉ s.pending
  handlers : s.todo.count .handleClose + s.todo.count .handleRead ≤ 1
  busy : .handleClose ∈ s.todo ∨ .handleRead ∈ s.todo → s.user = false
  callbacks : .connectionCallback ∉ s.todo ∧ .closeCallback ∉ s.todo ∧ .remove ∉ s.todo
  destroying : .connectDestroyed ∈ s.todo → .handleClose ∉ s.todo ∧ .handleRead ∉ s.todo

structure Closed (s : System) : Prop where
  state_eq : s.conn.state = .kDisconnected
  interest : s.conn.isNoneEvent = true
  ups_eq : s.ups = 1
  downs_le : s.downs + s.todo.count .connectionCallback ≤ 1
  closes_le : s.closes + s.todo.count .closeCallback ≤ 1
  pending : .connectEstablished ∉ s.pending
  handlers : .handleClose ∉ s.todo ∧ .handleRead ∉ s.todo

inductive Stage (s : System) : Prop
  | connecting (h : Connecting s)
  | announcing (h : Announcing s)
  | opened (h : Open s)
  | closed (h : Closed s)

/-- The step leads to the next stage without moving the state backward, and if it fails, it is
not in an assertion about closing. -/
def Fine (s : System) (m : Except Fault System) : Prop :=
  (∀ t, m = .ok t → Stage t ∧ s.conn.state.rank ≤ t.conn.state.rank) ∧
    ∀ f, m = .error f → f ≠ .handleClose ∧ f ≠ .remove

variable {s t : System}

theorem Fine.ok (ht : Stage t) (hrank : s.conn.state.rank ≤ t.conn.state.rank) :
    Fine s (.ok t) := by
  refine ⟨fun u hu => ?_, fun f hf => ?_⟩
  · cases hu
    exact ⟨ht, hrank⟩
  · cases hf

theorem Fine.error {f : Fault} (h : f ≠ .handleClose ∧ f ≠ .remove) : Fine s (.error f) := by
  refine ⟨fun u hu => ?_, fun g hg => ?_⟩
  · cases hu
  · cases hg
    exact h

/-- At most one part of an event can close the connection, unless it is a hang-up with urgent data
only. -/
theorem Revents.pieces_handlers (r : Revents)
    (h : r.pollHup = true → r.pollPri = true → r.pollIn = true) :
    r.pieces.count .handleClose + r.pieces.count .handleRead ≤ 1 ∧
      (.connectionCallback ∉ r.pieces ∧ .closeCallback ∉ r.pieces ∧ .remove ∉ r.pieces) ∧
      .connectDestroyed ∉ r.pieces := by
  obtain ⟨i, p, o, hup, e, n⟩ := r
  revert i p o hup e n
  decide

theorem Stage.poll {r : Revents} (h : Stage s) (ho : Orderly s (.poll r))
    {m : Except Fault System} (hm : step s (.poll r) = some m) : Fine s m := by
  obtain ⟨⟨htodo, -, hinterest, -⟩, hm⟩ := Option.ite_none_right_eq_some.mp hm
  cases hm
  cases h with
  | connecting h =>
    rw [h.interest] at hinterest
    cases hinterest
  | announcing h =>
    rw [h.todo_eq] at htodo
    cases htodo
  | opened h =>
    obtain ⟨hhandlers, hcallbacks, hdestroyed⟩ := r.pieces_handlers ho
    exact .ok (.opened ⟨h.alive, h.ups_eq, h.downs_eq, h.closes_eq, h.pending, hhandlers,
      fun _ => rfl, hcallbacks, fun hmem => absurd hmem hdestroyed⟩) (Nat.le_refl _)
  | closed h =>
    rw [h.interest] at hinterest
    cases hinterest

/-- `handleClose` closes an open connection. -/
theorem Open.close (h : Open s) {rest : List Piece}
    (hrest : .handleClose ∉ rest ∧ .handleRead ∉ rest)
    (hcallbacks : .connectionCallback ∉ rest ∧ .closeCallback ∉ rest) :
    Fine s (s.close rest) := by
  have hok : s.conn.handleClose = .ok (s.conn.setState .kDisconnected).disableAll := by
    rw [handleClose, ensure_eq_ok h.alive]
    rfl
  rw [System.close, hok]
  refine .ok (.closed ⟨rfl, rfl, h.ups_eq, ?_, ?_, h.pending, ?_⟩) ?_
  · change s.downs + List.count _ (Piece.connectionCallback :: .closeCallback :: rest) ≤ 1
    simp [h.downs_eq, List.count_eq_zero.mpr hcallbacks.1]
  · change s.closes + List.count _ (Piece.connectionCallback :: .closeCallback :: rest) ≤ 1
    simp [h.closes_eq, List.count_eq_zero.mpr hcallbacks.2]
  · simp [hrest.1, hrest.2]
  · exact s.conn.state.rank_le

theorem count_tail {a : Piece} {rest : List Piece} {piece : Piece} (h : piece ≠ a) :
    (piece :: rest).count a = rest.count a := List.count_cons_of_ne h

theorem Open.runPiece (h : Open s) {r : ReadResult} {w : WriteResult} {piece : Piece}
    {rest : List Piece} (htodo : s.todo = piece :: rest)
    (ho : s.todo.head? = some .connectDestroyed → s.conn.state ≠ .kDisconnecting) :
    Fine s (s.runPiece r w rest piece) := by
  have hhandlers := h.handlers
  have hdestroying := h.destroying
  obtain ⟨hcc, hcl, hrm⟩ := h.callbacks
  rw [htodo] at hhandlers hdestroying hcc hcl hrm ho
  have hcc' : .connectionCallback ∉ rest := fun hmem => hcc (List.mem_cons_of_mem _ hmem)
  have hcl' : .closeCallback ∉ rest := fun hmem => hcl (List.mem_cons_of_mem _ hmem)
  have hrm' : .remove ∉ rest := fun hmem => hrm (List.mem_cons_of_mem _ hmem)
  have hdestroying' : .connectDestroyed ∈ rest → .handleClose ∉ rest ∧ .handleRead ∉ rest := by
    intro hmem
    obtain ⟨hclose, hread⟩ := hdestroying (List.mem_cons_of_mem _ hmem)
    exact ⟨fun hmem => hclose (List.mem_cons_of_mem _ hmem),
      fun hmem => hread (List.mem_cons_of_mem _ hmem)⟩
  -- the rest of the event, run with the connection still open
  have hgo : ∀ (conn : TcpConnection) (user : Bool), conn.state = s.conn.state →
      rest.count .handleClose + rest.count .handleRead ≤ 1 →
      (.handleClose ∈ rest ∨ .handleRead ∈ rest → user = false) →
      Fine s (.ok { s with conn, todo := rest, user }) := by
    intro conn user hstate hcount huser
    exact .ok (.opened ⟨hstate ▸ h.alive, h.ups_eq, h.downs_eq, h.closes_eq, h.pending, hcount,
      huser, ⟨hcc', hcl', hrm'⟩, hdestroying'⟩) (Nat.le_of_eq (congrArg StateE.rank hstate.symm))
  cases piece with
  | handleClose =>
    simp only [List.count_cons_self, count_tail (by decide : Piece.handleClose ≠ .handleRead)]
      at hhandlers
    exact h.close ⟨List.count_eq_zero.mp (by omega), List.count_eq_zero.mp (by omega)⟩
      ⟨hcc', hcl'⟩
  | handleError =>
    simp only [count_tail (by decide : Piece.handleError ≠ .handleClose),
      count_tail (by decide : Piece.handleError ≠ .handleRead)] at hhandlers
    exact hgo s.conn false rfl hhandlers fun _ => rfl
  | handleRead =>
    simp only [List.count_cons_self, count_tail (by decide : Piece.handleRead ≠ .handleClose)]
      at hhandlers
    have hclose : .handleClose ∉ rest := List.count_eq_zero.mp (by omega)
    have hread : .handleRead ∉ rest := List.count_eq_zero.mp (by omega)
    cases r with
    | data =>
      refine hgo s.conn true rfl (by omega) ?_
      rintro (hmem | hmem)
      · exact absurd hmem hclose
      · exact absurd hmem hread
    | eof => exact h.close ⟨hclose, hread⟩ ⟨hcc', hcl'⟩
    | error => exact hgo s.conn false rfl (by omega) fun _ => rfl
  | handleWrite =>
    simp only [count_tail (by decide : Piece.handleWrite ≠ .handleClose),
      count_tail (by decide : Piece.handleWrite ≠ .handleRead)] at hhandlers
    rcases s.conn.handleWrite_cases w with ⟨d, hd, hstate⟩ | ⟨f, hf⟩
    · rw [System.runPiece, hd]
      exact hgo d false hstate hhandlers fun _ => rfl
    · rw [System.runPiece, hf]
      exact .error ⟨by simp, by simp⟩
  | connectionCallback => exact absurd List.mem_cons_self hcc
  | closeCallback => exact absurd List.mem_cons_self hcl
  | connectDestroyed =>
    have hstate : s.conn.state = .kConnected := h.alive.resolve_right (ho rfl)
    obtain ⟨hclose, hread⟩ := hdestroying List.mem_cons_self
    have heq : s.connectDestroyed rest =
        { s with
          conn := (s.conn.setState .kDisconnected).disableAll
          todo := .connectionCallback :: .remove :: rest
          user := false } := if_pos hstate
    rw [System.runPiece, heq]
    refine .ok (.closed ⟨rfl, rfl, h.ups_eq, ?_, ?_, h.pending, ?_⟩) s.conn.state.rank_le
    · change s.downs + List.count _ (Piece.connectionCallback :: .remove :: rest) ≤ 1
      simp [h.downs_eq, List.count_eq_zero.mpr hcc']
    · change s.closes + List.count _ (Piece.connectionCallback :: .remove :: rest) ≤ 1
      simp [h.closes_eq, List.count_eq_zero.mpr hcl']
    · simp only [List.mem_cons, not_or] at hclose hread
      simp [hclose.2, hread.2]
  | remove => exact absurd List.mem_cons_self hrm

theorem Closed.runPiece (h : Closed s) {r : ReadResult} {w : WriteResult} {piece : Piece}
    {rest : List Piece} (htodo : s.todo = piece :: rest) :
    Fine s (s.runPiece r w rest piece) := by
  have hdowns := h.downs_le
  have hcloses := h.closes_le
  obtain ⟨hclose, hread⟩ := h.handlers
  rw [htodo] at hdowns hcloses hclose hread
  have hrest : .handleClose ∉ rest ∧ .handleRead ∉ rest :=
    ⟨fun hmem => hclose (List.mem_cons_of_mem _ hmem),
      fun hmem => hread (List.mem_cons_of_mem _ hmem)⟩
  have hdowns' : s.downs + rest.count .connectionCallback ≤ 1 := by
    rw [List.count_cons] at hdowns
    omega
  have hcloses' : s.closes + rest.count .closeCallback ≤ 1 := by
    rw [List.count_cons] at hcloses
    omega
  -- what only takes a part off the list
  have hgo : ∀ removed : Bool, Fine s (.ok { s with todo := rest, user := false, removed }) := by
    intro removed
    exact .ok (.closed ⟨h.state_eq, h.interest, h.ups_eq, hdowns', hcloses', h.pending, hrest⟩)
      (Nat.le_refl _)
  have hwriting : s.conn.isWriting = false := by
    have hnone := h.interest
    simp only [isNoneEvent, Bool.and_eq_true, Bool.not_eq_true'] at hnone
    exact hnone.2
  cases piece with
  | handleClose => exact absurd List.mem_cons_self hclose
  | handleError => exact hgo s.removed
  | handleRead => exact absurd List.mem_cons_self hread
  | handleWrite =>
    rw [System.runPiece, handleWrite_of_not_writing w hwriting]
    exact hgo s.removed
  | connectionCallback =>
    have heq : s.callConnectionCallback rest =
        { s with todo := rest, user := true, downs := s.downs + 1 } := by
      apply if_neg
      rw [h.state_eq]
      decide
    rw [List.count_cons_self] at hdowns
    rw [System.runPiece, heq]
    refine .ok (.closed ⟨h.state_eq, h.interest, h.ups_eq, ?_, hcloses', h.pending, hrest⟩)
      (Nat.le_refl _)
    change s.downs + 1 + rest.count .connectionCallback ≤ 1
    omega
  | closeCallback =>
    rw [List.count_cons_self] at hcloses
    refine .ok (.closed ⟨h.state_eq, h.interest, h.ups_eq, hdowns', ?_, h.pending, hrest⟩)
      (Nat.le_refl _)
    change s.closes + 1 + rest.count .closeCallback ≤ 1
    omega
  | connectDestroyed =>
    have heq : s.connectDestroyed rest = { s with todo := .remove :: rest, user := false } := by
      apply if_neg
      rw [h.state_eq]
      decide
    rw [System.runPiece, heq]
    refine .ok (.closed ⟨h.state_eq, h.interest, h.ups_eq, ?_, ?_, h.pending, ?_⟩) (Nat.le_refl _)
    · change s.downs + List.count _ (Piece.remove :: rest) ≤ 1
      rw [count_tail (by decide)]
      exact hdowns'
    · change s.closes + List.count _ (Piece.remove :: rest) ≤ 1
      rw [count_tail (by decide)]
      exact hcloses'
    · simp [hrest.1, hrest.2]
  | remove =>
    have hok : s.conn.remove = .ok () := ensure_eq_ok h.interest
    rw [System.runPiece, hok]
    exact hgo true

theorem Stage.run {r : ReadResult} {w : WriteResult} (h : Stage s) (ho : Orderly s (.run r w))
    {m : Except Fault System} (hm : step s (.run r w) = some m) : Fine s m := by
  simp only [step] at hm
  split at hm
  · next piece rest htodo =>
    cases hm
    cases h with
    | connecting h =>
      rw [h.todo_eq] at htodo
      cases htodo
    | announcing h =>
      have hhead := htodo.symm.trans h.todo_eq
      cases hhead
      have heq : s.callConnectionCallback [] =
          { s with todo := [], user := true, ups := s.ups + 1 } := if_pos h.state_eq
      rw [System.runPiece, heq]
      refine .ok (.opened ⟨.inl h.state_eq, ?_, h.downs_eq, h.closes_eq, h.pending, ?_, ?_, ?_, ?_⟩)
        (Nat.le_refl _)
      · change s.ups + 1 = 1
        rw [h.ups_eq]
      · simp
      · simp
      · simp
      · simp
    | opened h => exact h.runPiece htodo ho
    | closed h => exact h.runPiece htodo
  · cases hm

/-- What is not in the queue does not get there with another functor. -/
theorem notMem_concat {f g : Functor} {pending : List Functor} (hf : f ≠ g) (h : g ∉ pending) :
    g ∉ pending ++ [f] := by
  intro hmem
  rcases List.mem_append.mp hmem with hmem | hmem
  · exact h hmem
  · exact hf (List.mem_singleton.mp hmem).symm

/-- Another functor in the queue. -/
theorem Stage.queue (h : Stage s) {f : Functor} (hf : f ≠ .connectEstablished) (queueing : Nat)
    (removing issued : Bool) :
    Fine s (.ok { s with queueing, removing, issued, pending := s.pending ++ [f] }) := by
  refine .ok ?_ (Nat.le_refl _)
  cases h with
  | connecting h =>
    obtain ⟨rest, hpending, hrest⟩ := h.pending
    refine .connecting ⟨h.state_eq, h.todo_eq, h.interest, h.ups_eq, h.downs_eq, h.closes_eq,
      h.setting_eq, rest ++ [f], ?_, notMem_concat hf hrest⟩
    change s.pending ++ [f] = _
    rw [hpending]
    rfl
  | announcing h =>
    exact .announcing ⟨h.state_eq, h.todo_eq, h.user_eq, h.ups_eq, h.downs_eq, h.closes_eq,
      h.setting_eq, notMem_concat hf h.pending⟩
  | opened h =>
    exact .opened ⟨h.alive, h.ups_eq, h.downs_eq, h.closes_eq, notMem_concat hf h.pending,
      h.handlers, h.busy, h.callbacks, h.destroying⟩
  | closed h =>
    exact .closed ⟨h.state_eq, h.interest, h.ups_eq, h.downs_le, h.closes_le,
      notMem_concat hf h.pending, h.handlers⟩

theorem Stage.runFunctor (h : Stage s) {m : Except Fault System}
    (hm : step s .runFunctor = some m) : Fine s m := by
  simp only [step] at hm
  split at hm
  · next functor pending hpending =>
    obtain ⟨htodo, hm⟩ := Option.ite_none_right_eq_some.mp hm
    cases hm
    cases h with
    | connecting h =>
      obtain ⟨rest, hp, hrest⟩ := h.pending
      have hhead := hpending.symm.trans hp
      cases hhead
      have hok : s.conn.connectEstablished = .ok (s.conn.setState .kConnected).enableReading := by
        rw [connectEstablished, ensure_eq_ok h.state_eq]
        rfl
      rw [System.runFunctor, hok]
      refine .ok (.announcing ⟨rfl, rfl, rfl, h.ups_eq, h.downs_eq, h.closes_eq, h.setting_eq,
        hrest⟩) ?_
      rw [h.state_eq]
      exact Nat.zero_le _
    | announcing h =>
      rw [h.todo_eq] at htodo
      cases htodo
    | opened h =>
      have hqueue := h.pending
      rw [hpending, List.mem_cons, not_or] at hqueue
      obtain ⟨hhead, hrest⟩ := hqueue
      cases functor with
      | connectEstablished => exact absurd rfl hhead
      | connectDestroyed =>
        exact .ok (.opened ⟨h.alive, h.ups_eq, h.downs_eq, h.closes_eq, hrest, by simp, by simp,
          by simp, by simp⟩) (Nat.le_refl _)
      | shutdownInLoop =>
        obtain ⟨hstate, -⟩ := shutdownInLoop_eq s.conn
        exact .ok (.opened ⟨hstate.symm ▸ h.alive, h.ups_eq, h.downs_eq, h.closes_eq, hrest,
          h.handlers, h.busy, h.callbacks, h.destroying⟩)
          (Nat.le_of_eq (congrArg StateE.rank hstate.symm))
    | closed h =>
      have hqueue := h.pending
      rw [hpending, List.mem_cons, not_or] at hqueue
      obtain ⟨hhead, hrest⟩ := hqueue
      have hdowns := h.downs_le
      have hcloses := h.closes_le
      rw [htodo] at hdowns hcloses
      cases functor with
      | connectEstablished => exact absurd rfl hhead
      | connectDestroyed =>
        exact .ok (.closed ⟨h.state_eq, h.interest, h.ups_eq, hdowns, hcloses, hrest, by simp⟩)
          (Nat.le_refl _)
      | shutdownInLoop =>
        obtain ⟨hstate, hnone⟩ := shutdownInLoop_eq s.conn
        exact .ok (.closed ⟨hstate.trans h.state_eq, hnone.trans h.interest, h.ups_eq, h.downs_le,
          h.closes_le, hrest, h.handlers⟩) (Nat.le_of_eq (congrArg StateE.rank hstate.symm))
  · cases hm

/-- Once the user has the connection, it is open or closed. -/
theorem Stage.published (h : Stage s) (hp : s.published = true) : Open s ∨ Closed s := by
  have hups : 0 < s.ups := of_decide_eq_true hp
  cases h with
  | connecting h =>
    rw [h.ups_eq] at hups
    cases hups
  | announcing h =>
    rw [h.ups_eq] at hups
    cases hups
  | opened h => exact .inl h
  | closed h => exact .inr h

/-- An open connection with another state that is not yet closed. -/
theorem Open.withConn (h : Open s) {conn : TcpConnection} (setting queueing : Nat)
    (hstate : conn.state = s.conn.state ∨ conn.state = .kDisconnecting) :
    Fine s (.ok { s with conn, setting, queueing }) := by
  have halive : conn.state = .kConnected ∨ conn.state = .kDisconnecting := by
    rcases hstate with heq | heq
    · exact heq.symm ▸ h.alive
    · exact .inr heq
  refine .ok (.opened ⟨halive, h.ups_eq, h.downs_eq, h.closes_eq, h.pending, h.handlers, h.busy,
    h.callbacks, h.destroying⟩) ?_
  change s.conn.state.rank ≤ conn.state.rank
  rcases hstate with heq | heq
  · rw [heq]
  · rw [heq]
    rcases h.alive with ha | ha
    · rw [ha]
      decide
    · rw [ha]

theorem Stage.send {data : List UInt8} {w : WriteResult} (h : Stage s)
    {m : Except Fault System} (hm : step s (.send data w) = some m) : Fine s m := by
  obtain ⟨⟨-, hp⟩, hm⟩ := Option.ite_none_right_eq_some.mp hm
  cases hm
  rcases h.published hp with h | h
  · rcases s.conn.sendInLoop_cases data w with ⟨d, hd, hstate⟩ | hf | ⟨f, hf⟩
    · rw [hd]
      exact h.withConn s.setting s.queueing (.inl hstate)
    · rw [hf]
      exact .error ⟨by simp, by simp⟩
    · rw [hf]
      exact .error ⟨by simp, by simp⟩
  · have hok : s.conn.sendInLoop data w = .ok s.conn := if_pos h.state_eq
    rw [hok]
    exact .ok (.closed h) (Nat.le_refl _)

theorem Stage.shutdown (h : Stage s) {m : Except Fault System}
    (hm : step s .shutdown = some m) : Fine s m := by
  obtain ⟨⟨-, hp⟩, hm⟩ := Option.ite_none_right_eq_some.mp hm
  cases hm
  by_cases hstate : s.conn.state = .kConnected
  · have heq : s.conn.shutdown = (s.conn.setState .kDisconnecting).shutdownInLoop :=
      if_pos hstate
    rcases h.published hp with h | h
    · refine h.withConn s.setting s.queueing (.inr ?_)
      rw [heq]
      exact (shutdownInLoop_eq _).1
    · rw [h.state_eq] at hstate
      cases hstate
  · have heq : s.conn.shutdown = s.conn := if_neg hstate
    rw [heq]
    exact .ok h (Nat.le_refl _)

theorem Stage.shutdownElsewhere (h : Stage s) {m : Except Fault System}
    (hm : step s .shutdownElsewhere = some m) : Fine s m := by
  obtain ⟨⟨hp, hstate⟩, hm⟩ := Option.ite_none_right_eq_some.mp hm
  cases hm
  rcases h.published hp with h | h
  · exact h.withConn (s.setting + 1) s.queueing (.inl rfl)
  · rw [h.state_eq] at hstate
    cases hstate

theorem Stage.setElsewhere (h : Stage s) (ho : Orderly s .setElsewhere) {m : Except Fault System}
    (hm : step s .setElsewhere = some m) : Fine s m := by
  obtain ⟨hsetting, hm⟩ := Option.ite_none_right_eq_some.mp hm
  cases hm
  cases h with
  | connecting h =>
    rw [h.setting_eq] at hsetting
    cases hsetting
  | announcing h =>
    rw [h.setting_eq] at hsetting
    cases hsetting
  | opened h => exact h.withConn _ _ (.inr rfl)
  | closed h => exact absurd h.state_eq ho

theorem Stage.destroyServer {direct : Bool} (h : Stage s) {m : Except Fault System}
    (hm : step s (.destroyServer direct) = some m) : Fine s m := by
  obtain ⟨-, hm⟩ := Option.ite_none_left_eq_some.mp hm
  split at hm
  · obtain ⟨⟨huser, hstate⟩, hm⟩ := Option.ite_none_right_eq_some.mp hm
    cases hm
    simp only [System.inUserCode, Bool.or_eq_true, List.isEmpty_iff] at huser
    cases h with
    | connecting h => exact absurd h.state_eq hstate
    | announcing h =>
      rw [h.user_eq, h.todo_eq] at huser
      simp at huser
    | opened h =>
      -- user code runs, so nothing that could close the connection is left of an event
      have hnone : .handleClose ∉ s.todo ∧ .handleRead ∉ s.todo := by
        rcases huser with huser | htodo
        · refine ⟨fun hmem => ?_, fun hmem => ?_⟩
          · rw [h.busy (.inl hmem)] at huser
            cases huser
          · rw [h.busy (.inr hmem)] at huser
            cases huser
        · rw [htodo]
          exact ⟨List.not_mem_nil, List.not_mem_nil⟩
      refine .ok (.opened ⟨h.alive, h.ups_eq, h.downs_eq, h.closes_eq, h.pending, ?_, fun _ => rfl,
        ?_, fun _ => ?_⟩) (Nat.le_refl _)
      · change List.count _ (Piece.connectDestroyed :: s.todo) +
          List.count _ (Piece.connectDestroyed :: s.todo) ≤ 1
        rw [count_tail (by decide), count_tail (by decide)]
        exact h.handlers
      · simp [h.callbacks]
      · simp [hnone]
    | closed h =>
      refine .ok (.closed ⟨h.state_eq, h.interest, h.ups_eq, ?_, ?_, h.pending, ?_⟩) (Nat.le_refl _)
      · change s.downs + List.count _ (Piece.connectDestroyed :: s.todo) ≤ 1
        rw [count_tail (by decide)]
        exact h.downs_le
      · change s.closes + List.count _ (Piece.connectDestroyed :: s.todo) ≤ 1
        rw [count_tail (by decide)]
        exact h.closes_le
      · simp [h.handlers]
  · cases hm
    exact h.queue (by decide) s.queueing s.removing true

theorem Stage.step (h : Stage s) {a : Action} (ho : Orderly s a) {m : Except Fault System}
    (hm : step s a = some m) : Fine s m := by
  cases a with
  | poll r => exact h.poll ho hm
  | run r w => exact h.run ho hm
  | runFunctor => exact h.runFunctor hm
  | send data w => exact h.send hm
  | shutdown => exact h.shutdown hm
  | shutdownElsewhere => exact h.shutdownElsewhere hm
  | setElsewhere => exact h.setElsewhere ho hm
  | queueElsewhere =>
    obtain ⟨-, hm⟩ := Option.ite_none_right_eq_some.mp hm
    cases hm
    exact h.queue (by decide) (s.queueing - 1) s.removing s.issued
  | removeConnectionInLoop =>
    obtain ⟨-, hm⟩ := Option.ite_none_right_eq_some.mp hm
    cases hm
    exact h.queue (by decide) s.queueing false true
  | destroyServer direct => exact h.destroyServer hm

theorem Stage.counts (h : Stage s) : s.ups ≤ 1 ∧ s.downs ≤ 1 ∧ s.closes ≤ 1 := by
  cases h with
  | connecting h =>
    have := h.ups_eq
    have := h.downs_eq
    have := h.closes_eq
    omega
  | announcing h =>
    have := h.ups_eq
    have := h.downs_eq
    have := h.closes_eq
    omega
  | opened h =>
    have := h.ups_eq
    have := h.downs_eq
    have := h.closes_eq
    omega
  | closed h =>
    have := h.ups_eq
    have := h.downs_le
    have := h.closes_le
    omega

/-- After `TcpServer::newConnection`, with any callbacks. -/
def Fresh (s : System) : Prop :=
  ∃ writeComplete highWater mark, s = System.new writeComplete highWater mark

theorem Fresh.stage (h : Fresh s) : Stage s := by
  obtain ⟨a, b, mark, rfl⟩ := h
  exact .connecting ⟨rfl, rfl, rfl, rfl, rfl, rfl, rfl, [], rfl, List.not_mem_nil⟩

/-- In every orderly run the state only moves forward, the callbacks are called at most once each,
and the assertions of `handleClose` and `Channel::remove` hold. -/
theorem closes_once {p : Except Fault System} (h : Run step Orderly Fresh p) :
    (∀ f, p = .error f → f ≠ .handleClose ∧ f ≠ .remove) ∧
      ∀ s, p = .ok s → s.ups ≤ 1 ∧ s.downs ≤ 1 ∧ s.closes ≤ 1 ∧
        ∀ a t, Orderly s a → step s a = some (.ok t) →
          s.conn.state.rank ≤ t.conn.state.rank := by
  have hrun := h.sound (I := Stage) (F := fun f => f ≠ .handleClose ∧ f ≠ .remove)
    (fun _ hs => hs.stage) fun _ _ _ hs ho hm =>
      ⟨fun t ht => ((hs.step ho hm).1 t ht).1, (hs.step ho hm).2⟩
  refine ⟨hrun.2, fun s hs => ?_⟩
  have hstage := hrun.1 s hs
  obtain ⟨hups, hdowns, hcloses⟩ := hstage.counts
  exact ⟨hups, hdowns, hcloses, fun a t ho ht => ((hstage.step ho ht).1 t rfl).2⟩

/-- Established, shut down by another thread, closed by the peer, removed and destroyed. -/
theorem closes_once_example :
    ∃ s, Run step Orderly Fresh (.ok s) ∧ s.removed = true ∧ s.downs = 1 ∧ s.closes ≤ 1 := by
  have hex : seen (exec (faulting (restrict Orderly step)) (.ok (System.new false false 1))
      [.runFunctor, .run .data (.count 0), .send [1] (.count 0), .shutdownElsewhere, .setElsewhere,
        .queueElsewhere, .poll ⟨true, true, true, true, true, false⟩, .run .data (.count 0),
        .run .eof (.count 0), .run .data (.count 0), .run .data (.count 0),
        .run .data (.count 1), .runFunctor, .removeConnectionInLoop, .runFunctor,
        .run .data (.count 0), .run .data (.count 0)])
      (fun s => s.removed = true ∧ s.downs = 1) = true := by
    decide +kernel
  obtain ⟨s, hs, hcheck⟩ := exists_of_seen hex
  obtain ⟨hremoved, hdowns⟩ := of_decide_eq_true hcheck
  have hstart : Run step Orderly Fresh (.ok (System.new false false 1)) :=
    Run.start ⟨false, false, 1, rfl⟩
  have hrun := hstart.exec _ hs
  exact ⟨s, hrun, hremoved, hdowns, ((closes_once hrun).2 s rfl).2.2.1⟩

/-- The server is destroyed while the connection is shut down but not closed: `connectDestroyed`
leaves the interest, and the assertion of `Channel::remove` fails. A hang-up with urgent data only
runs `handleClose` twice. Another thread's `shutdown()` has tested the state when the peer closes
the connection, and then moves the state backward. -/
theorem closing_goes_wrong :
    Run step (fun _ _ => True) Fresh (.error .remove) ∧
      Run step (fun _ _ => True) Fresh (.error .handleClose) ∧
      ∃ s t, Run step (fun _ _ => True) Fresh (.ok s) ∧ step s .setElsewhere = some (.ok t) ∧
        s.conn.state = .kDisconnected ∧ t.conn.state = .kDisconnecting := by
  have hfresh : Fresh (System.new false false 1) := ⟨false, false, 1, rfl⟩
  refine ⟨?_, ?_, ?_⟩
  · have hfail : faultOf (exec (faulting step) (.ok (System.new false false 1))
        [.runFunctor, .run .data (.count 0), .shutdown, .destroyServer true,
          .run .data (.count 0), .run .data (.count 0)]) = some .remove := by
      decide +kernel
    exact Run.of_exec Fresh hfresh _ (eq_error_of_faultOf hfail)
  · have hfail : faultOf (exec (faulting step) (.ok (System.new false false 1))
        [.runFunctor, .run .data (.count 0), .poll ⟨false, true, false, true, false, false⟩,
          .run .data (.count 0), .run .data (.count 0), .run .data (.count 0),
          .run .eof (.count 0)]) = some .handleClose := by
      decide +kernel
    exact Run.of_exec Fresh hfresh _ (eq_error_of_faultOf hfail)
  · have hex : seen (exec (faulting step) (.ok (System.new false false 1))
        [.runFunctor, .run .data (.count 0), .shutdownElsewhere,
          .poll ⟨true, false, false, false, false, false⟩, .run .eof (.count 0)])
        (fun s => s.conn.state = .kDisconnected ∧ 0 < s.setting) = true := by
      decide +kernel
    obtain ⟨s, hs, hcheck⟩ := exists_of_seen hex
    obtain ⟨hstate, hsetting⟩ := of_decide_eq_true hcheck
    exact ⟨s, _, Run.of_exec Fresh hfresh _ hs, if_pos hsetting, hstate, rfl⟩

end Closing

end DbdkyGcc.Tcp
