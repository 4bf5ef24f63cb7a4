import DbdkyGcc.Foundations.Runs
import DbdkyGcc.Tcp.Closing

/-!
# Both ends of a connection

Two programs are connected by a socket, each with a `TcpConnection` of its own. Either of them sends
messages, shuts its side down, reads what has arrived and takes it out of `inputBuffer_`, in any
order and with writes and reads of any size. The network delivers what one socket has accepted to the
other one in order, and the end of it when the first has been shut down or closed; a write to a
socket whose peer has been closed fails.

Each direction is a pipe: what one user has taken, what is in the input buffer, what is under way and
what is in the output buffer make up what the other user has sent.
-/

namespace DbdkyGcc.Tcp

open Foundations TcpConnection

namespace TcpConnection

variable {c d : TcpConnection}

theorem written_tryWrite (c : TcpConnection) (data : List UInt8) (w : WriteResult) :
    (c.tryWrite data w).conn.written = c.written ++ data.take (c.tryWrite data w).nwrote := by
  unfold tryWrite
  split
  · cases w with
    | count n =>
      dsimp only
      split <;> rfl
    | failed e => exact (List.append_nil _).symm
  · exact (List.append_nil _).symm

theorem nwrote_tryWrite_failed (c : TcpConnection) (data : List UInt8) (e : Errno) :
    (c.tryWrite data (.failed e)).nwrote = 0 := by
  unfold tryWrite
  split <;> rfl

theorem written_keepRest {rest : List UInt8} {remaining : Nat}
    (h : c.keepRest rest remaining = .ok d) : d.written = c.written := by
  obtain ⟨b, -, h⟩ := bind_eq_ok_iff.mp h
  rw [pure_eq_ok_iff] at h
  rw [h]
  unfold noteHighWaterMark
  split <;> split <;> rfl

/-- What the direct write of `sendInLoop` adds to what the socket has accepted. -/
theorem written_sendInLoop {data : List UInt8} {w : WriteResult}
    (h : c.sendInLoop data w = .ok d) :
    d.written = c.written ∨ d.written = c.written ++ data.take (c.tryWrite data w).nwrote := by
  unfold sendInLoop at h
  split at h
  · rw [pure_eq_ok_iff] at h
    exact .inl (congrArg written h)
  · obtain ⟨-, h⟩ := ensure_bind_eq_ok_iff.mp h
    split at h
    · exact .inr ((written_keepRest h).trans (written_tryWrite c data w))
    · rw [pure_eq_ok_iff] at h
      exact .inr ((congrArg written h).trans (written_tryWrite c data w))

theorem written_drained (c : TcpConnection) : c.drained.written = c.written := by
  unfold drained shutdownInLoop
  dsimp only
  split <;> split <;> rfl

theorem written_prefix_handleWrite {w : WriteResult} (h : c.handleWrite w = .ok d) :
    c.written <+: d.written := by
  unfold handleWrite at h
  split at h
  · cases w with
    | failed e =>
      rw [pure_eq_ok_iff] at h
      rw [h]
    | count n =>
      dsimp only at h
      split at h
      · obtain ⟨b, -, h⟩ := bind_eq_ok_iff.mp h
        rw [pure_eq_ok_iff] at h
        rw [h]
        split
        · rw [written_drained]
          exact List.prefix_append _ _
        · exact List.prefix_append _ _
      · rw [pure_eq_ok_iff] at h
        rw [h]
  · rw [pure_eq_ok_iff] at h
    rw [h]

theorem handleWrite_failed (c : TcpConnection) (e : Errno) : c.handleWrite (.failed e) = .ok c := by
  unfold handleWrite
  split <;> rfl

/-- A write that fails with `EPIPE` drops the message if nothing is waiting, and is not tried at all
otherwise. -/
theorem sendInLoop_failed (c : TcpConnection) (data : List UInt8) (e : Errno) :
    c.sendInLoop data (.failed e) = .ok c ∨
      c.sendInLoop data (.failed e) = c.sendInLoop data (.failed .EWOULDBLOCK) := by
  by_cases hdirect : (!c.isWriting && c.outputBuffer.readableBytes = 0) = true
  · by_cases he : e = .EPIPE
    · left
      have htry : c.tryWrite data (.failed e) = { conn := c, nwrote := 0, error := true } := by
        rw [tryWrite, if_pos hdirect, he]
        rfl
      unfold sendInLoop
      split
      · rfl
      · have hall : sizeSub data.length 0 ≤ data.length := by
          rw [sizeSub, Nat.sub_zero, Nat.add_mod_right]
          exact Nat.mod_le _ _
        rw [htry]
        dsimp only
        rw [ensure_eq_ok hall, ok_bind]
        rfl
    · right
      have htry : c.tryWrite data (.failed e) = c.tryWrite data (.failed .EWOULDBLOCK) := by
        rw [tryWrite, if_pos hdirect, tryWrite, if_pos hdirect]
        simp [he]
      rw [sendInLoop, htry]
      rfl
  · right
    have htry : c.tryWrite data (.failed e) = c.tryWrite data (.failed .EWOULDBLOCK) := by
      rw [tryWrite, if_neg hdirect, tryWrite, if_neg hdirect]
    rw [sendInLoop, htry]
    rfl

/-- `shutdownWrite` is called only for a connection that is being shut down. -/
theorem shutdownWrites_handleWrite {w : WriteResult} (h : c.handleWrite w = .ok d) :
    d.shutdownWrites = c.shutdownWrites ∨ d.state = .kDisconnecting := by
  unfold handleWrite at h
  split at h
  · cases w with
    | failed e =>
      rw [pure_eq_ok_iff] at h
      exact .inl (congrArg shutdownWrites h)
    | count n =>
      dsimp only at h
      split at h
      · obtain ⟨b, -, h⟩ := bind_eq_ok_iff.mp h
        rw [pure_eq_ok_iff] at h
        rw [h]
        split
        · unfold drained shutdownInLoop
          dsimp only
          split <;> split <;> first | exact .inr ‹_› | exact .inl rfl
        · exact .inl rfl
      · rw [pure_eq_ok_iff] at h
        exact .inl (congrArg shutdownWrites h)
  · rw [pure_eq_ok_iff] at h
    exact .inl (congrArg shutdownWrites h)

end TcpConnection

/-- What a write of `len` bytes can return, by whether the peer's socket has been closed. -/
def WriteResult.PossibleTo (closed : Bool) (len : Nat) : WriteResult → Prop
  | .count n => closed = false ∧ n ≤ len
  | .failed e => closed = false → e ≠ .EPIPE

instance (closed : Bool) (len : Nat) (w : WriteResult) : Decidable (w.PossibleTo closed len) :=
  match w with
  | .count _ => inferInstanceAs (Decidable (_ ∧ _))
  | .failed _ => inferInstanceAs (Decidable (_ → _))

theorem WriteResult.PossibleTo.possible {len : Nat} {w : WriteResult}
    (h : w.PossibleTo false len) : w.Possible len := by
  cases w with
  | count n => exact h.2
  | failed e => exact h rfl

theorem WriteResult.PossibleTo.failed {len : Nat} {w : WriteResult}
    (h : w.PossibleTo true len) : ∃ e, w = .failed e := by
  cases w with
  | count n => exact absurd h.1 (by decide)
  | failed e => exact ⟨e, rfl⟩

/-- One end: the connection with its input buffer, the messages that `send` has accepted, the bytes
that `readFd` has read, those that the user has taken, whether the end of the stream has been read,
and whether the socket has been closed. -/
structure Endpoint where
  conn : TcpConnection
  inputBuffer : Buffer
  sent : List Message
  received : List UInt8
  consumed : List UInt8
  eof : Bool
  closed : Bool

namespace Endpoint

/-- All that has been sent. -/
def bytes (e : Endpoint) : List UInt8 := (e.sent.map Message.bytes).flatten

/-- `send`, called in the loop thread. -/
def send (e : Endpoint) (m : Message) (w : WriteResult) : Except TcpConnection.Fault Endpoint :=
  if e.conn.state = .kConnected then do
    let conn ← e.conn.sendInLoop m.bytes w
    pure { e with conn, sent := e.sent ++ [m] }
  else
    pure e

def handleWrite (e : Endpoint) (w : WriteResult) : Except TcpConnection.Fault Endpoint := do
  let conn ← e.conn.handleWrite w
  pure { e with conn }

def shutdown (e : Endpoint) : Endpoint := { e with conn := e.conn.shutdown }

/-- `handleRead`, up to the call of `messageCallback_`, by what `readFd` gets from the socket. -/
def handleRead (e : Endpoint) (r : Option Message) : Except TcpConnection.Fault Endpoint := do
  let inputBuffer ← (e.inputBuffer.readFd (r.map Message.bytes)).mapError .buffer
  match r with
  | none => pure { e with inputBuffer }
  | some m =>
    if 0 < m.bytes.length then
      pure { e with inputBuffer, received := e.received ++ m.bytes }
    else do
      let conn ← e.conn.handleClose
      pure { e with conn, inputBuffer, eof := true }

/-- The user takes bytes out of the buffer. -/
def consume (e : Endpoint) (n : Nat) : Except TcpConnection.Fault Endpoint := do
  let r ← (e.inputBuffer.retrieveAsString n).mapError .buffer
  pure { e with inputBuffer := r.1, consumed := e.consumed ++ r.2 }

inductive Action
  | send (m : Message) (w : WriteResult)
  | handleWrite (w : WriteResult)
  | shutdown
  | handleRead (r : Option Message)
  | consume (n : Nat)
  /-- The last reference to a disconnected connection is dropped, and its socket is closed. -/
  | destroy

/-- What happens at one end. A channel without interest in reading gets no read events, and a user
takes no more than there is. -/
def act (e : Endpoint) : Action → Option (Except TcpConnection.Fault Endpoint)
  | .send m w => some (e.send m w)
  | .handleWrite w => some (e.handleWrite w)
  | .shutdown => some (.ok e.shutdown)
  | .handleRead r => if e.conn.reading then some (e.handleRead r) else none
  | .consume n => if n ≤ e.inputBuffer.readableBytes then some (e.consume n) else none
  | .destroy => if e.conn.state = .kDisconnected then some (.ok { e with closed := true }) else none

/-- What the sockets and the network may do, for a step of an end with this peer. -/
def Allowed (e peer : Endpoint) : Action → Prop
  | .send m w => w.PossibleTo peer.closed m.bytes.length
  | .handleWrite w => w.PossibleTo peer.closed e.conn.outputBuffer.readableBytes
  | .handleRead (some m) =>
    m.bytes.length ≤ e.inputBuffer.writableBytes + 65536 ∧
      e.received ++ m.bytes <+: peer.conn.written ∧
      (m.bytes = [] → e.received = peer.conn.written ∧
        (0 < peer.conn.shutdownWrites ∨ peer.closed = true))
  | _ => True

instance (e peer : Endpoint) (a : Action) : Decidable (e.Allowed peer a) :=
  match a with
  | .send m w => inferInstanceAs (Decidable (w.PossibleTo peer.closed m.bytes.length))
  | .handleWrite w =>
    inferInstanceAs (Decidable (w.PossibleTo peer.closed e.conn.outputBuffer.readableBytes))
  | .handleRead (some _) => inferInstanceAs (Decidable (_ ∧ _ ∧ (_ → _)))
  | .handleRead none => .isTrue trivial
  | .shutdown => .isTrue trivial
  | .consume _ => .isTrue trivial
  | .destroy => .isTrue trivial

/-- A connection right after `connectEstablished`. -/
def Fresh (e : Endpoint) : Prop :=
  ∃ writeComplete highWater mark conn,
    (TcpConnection.new writeComplete highWater mark).connectEstablished = .ok conn ∧
    e = ⟨conn, .new, [], [], [], false, false⟩

/-- The input side: what has been read and not taken is in the buffer. Nothing is read or written
once the connection is down. -/
structure Sound (e : Endpoint) : Prop where
  input : ∃ l, e.inputBuffer.Holds l ∧ e.consumed ++ l = e.received
  state_ne : e.conn.state ≠ .kConnecting
  disconnected : e.conn.state = .kDisconnected → e.conn.reading = false ∧ e.conn.writing = false
  eof : e.eof = true → e.conn.state = .kDisconnected
  closed : e.closed = true → e.conn.state = .kDisconnected

/-- The direction from `a` to `b`. -/
structure Delivers (a b : Endpoint) : Prop where
  output : ∃ l, a.conn.outputBuffer.Holds l ∧ (a.conn.state ≠ .kDisconnected → a.conn.Pending l)
  received : b.received <+: a.conn.written
  written : a.conn.written <+: a.bytes
  complete : b.closed = false → a.conn.stream = a.bytes
  shut : 0 < a.conn.shutdownWrites →
    a.conn.state ≠ .kConnected ∧ a.conn.outputBuffer.content = []
  eof : b.eof = true → 0 < a.conn.shutdownWrites ∨ a.closed = true
  eof_complete : b.eof = true → 0 < a.conn.shutdownWrites → b.received = a.bytes

/-- Both directions, seen from `a`. -/
structure Linked (a b : Endpoint) : Prop where
  sound : a.Sound
  out : Delivers a b
  inp : Delivers b a

variable {a a' b b' : Endpoint}

/-- The sender's part of a direction. -/
theorem Delivers.of_sender (h : Delivers a b) (hconn : a'.conn = a.conn) (hsent : a'.sent = a.sent)
    (hclosed : a.closed = true → a'.closed = true) : Delivers a' b := by
  have hbytes : a'.bytes = a.bytes := congrArg (fun l => (l.map Message.bytes).flatten) hsent
  refine ⟨?_, ?_, ?_, ?_, ?_, ?_, ?_⟩
  · rw [hconn]
    exact h.output
  · rw [hconn]
    exact h.received
  · rw [hconn, hbytes]
    exact h.written
  · rw [hconn, hbytes]
    exact h.complete
  · rw [hconn]
    exact h.shut
  · intro heof
    rw [hconn]
    exact (h.eof heof).imp_right hclosed
  · rw [hconn, hbytes]
    exact h.eof_complete

/-- The receiver's part of a direction. -/
theorem Delivers.of_receiver (h : Delivers a b) (hreceived : b'.received = b.received)
    (hclosed : b'.closed = false → b.closed = false) (heof : b'.eof = b.eof) : Delivers a b' := by
  refine ⟨h.output, ?_, h.written, fun hb => h.complete (hclosed hb), h.shut, ?_, ?_⟩
  · rw [hreceived]
    exact h.received
  · rw [heof]
    exact h.eof
  · rw [heof, hreceived]
    exact h.eof_complete

/-- As long as an end can send, the peer has not read the end of the stream. -/
theorem Linked.not_eof (h : Linked a b) (hstate : a.conn.state ≠ .kDisconnected)
    (hshut : ¬ 0 < a.conn.shutdownWrites) : b.eof = false := by
  by_contra heof
  rcases h.out.eof (Bool.not_eq_false _ ▸ heof) with hpos | hclosed
  · exact hshut hpos
  · exact hstate (h.sound.closed hclosed)

/-- `sendInLoop` with a peer whose socket may have been closed. -/
theorem sendInLoop_to {c : TcpConnection} {l : List UInt8} (h : c.Pending l)
    (hstate : c.state ≠ .kDisconnected) (m : Message) {closed : Bool} {w : WriteResult}
    (hw : w.PossibleTo closed m.bytes.length) :
    Yields (.buffer .lengthError) (c.sendInLoop m.bytes w) fun d =>
      (∃ l', d.Pending l') ∧ Kept c d ∧ c.written <+: d.written ∧
        (closed = false → d.stream = c.stream ++ m.bytes) ∧
        (closed = true → d.written = c.written) := by
  have hprefix : ∀ d, c.sendInLoop m.bytes w = .ok d → c.written <+: d.written := by
    intro d hd
    rcases written_sendInLoop hd with heq | heq <;> rw [heq]
    exact List.prefix_append _ _
  cases closed with
  | false =>
    rcases h.sendInLoop hstate m hw.possible with ⟨d, hd, hp, hkept, hstream⟩ | herror
    · exact .inl ⟨d, hd, hp, hkept, hprefix d hd, fun _ => hstream, nofun⟩
    · exact .inr herror
  | true =>
    obtain ⟨e, rfl⟩ := hw.failed
    have hsame : ∀ d, c.sendInLoop m.bytes (.failed e) = .ok d → d.written = c.written := by
      intro d hd
      rcases written_sendInLoop hd with heq | heq
      · exact heq
      · rw [heq, nwrote_tryWrite_failed, List.take_zero, List.append_nil]
    rcases c.sendInLoop_failed m.bytes e with hdropped | hblocked
    · exact .inl ⟨c, hdropped, ⟨l, h⟩, Kept.refl c, List.prefix_rfl, nofun, fun _ => rfl⟩
    · have hw' : (WriteResult.failed .EWOULDBLOCK).Possible m.bytes.length := by
        show Errno.EWOULDBLOCK ≠ .EPIPE
        decide
      rcases h.sendInLoop hstate m hw' with ⟨d, hd, hp, hkept, -⟩ | herror
      · rw [← hblocked] at hd
        exact .inl ⟨d, hd, hp, hkept, hprefix d hd, nofun, fun _ => hsame d hd⟩
      · exact .inr (hblocked.trans herror)

theorem bytes_snoc (a : Endpoint) (conn : TcpConnection) (m : Message) :
    bytes { a with conn, sent := a.sent ++ [m] } = a.bytes ++ m.bytes := by
  simp [bytes]

theorem Linked.send (h : Linked a b) (m : Message) {w : WriteResult}
    (hw : w.PossibleTo b.closed m.bytes.length) :
    Yields (.buffer .lengthError) (a.send m w) (Linked · b) := by
  unfold Endpoint.send
  split
  · next hstate =>
    have hup : a.conn.state ≠ .kDisconnected := by rw [hstate]; decide
    have hshut : ¬ 0 < a.conn.shutdownWrites := fun hpos => (h.out.shut hpos).1 hstate
    have hopen : b.eof = false := h.not_eof hup hshut
    obtain ⟨l, -, hpending⟩ := h.out.output
    refine (sendInLoop_to (hpending hup) hup m hw).bind ?_
    rintro d ⟨⟨l', hd⟩, hkept, hprefix, hstream, hwritten⟩
    have hdup : d.state ≠ .kDisconnected := by rw [hkept.state_eq]; exact hup
    refine .ok ⟨?_, ?_, ?_⟩
    · refine ⟨h.sound.input, ?_, fun hdown => absurd hdown hdup, fun heof => ?_, fun hclosed => ?_⟩
      · show d.state ≠ _
        rw [hkept.state_eq]
        exact h.sound.state_ne
      · exact absurd (h.sound.eof heof) hup
      · exact absurd (h.sound.closed hclosed) hup
    · refine ⟨⟨l', hd.holds, fun _ => hd⟩, h.out.received.trans hprefix, ?_, ?_, ?_, ?_, ?_⟩
      · rw [bytes_snoc]
        cases hb : b.closed with
        | false =>
          rw [← h.out.complete hb, ← hstream hb]
          exact List.prefix_append _ _
        | true =>
          show d.written <+: _
          rw [hwritten hb]
          exact h.out.written.trans (List.prefix_append _ _)
      · intro hb
        rw [bytes_snoc, ← h.out.complete hb]
        exact hstream hb
      · intro hpos
        have hpos : 0 < d.shutdownWrites := hpos
        rw [hkept.shutdownWrites_eq] at hpos
        exact absurd hpos hshut
      · rw [hopen]
        nofun
      · rw [hopen]
        nofun
    · exact h.inp.of_receiver rfl id rfl
  · exact .ok h

theorem Linked.handleWrite (h : Linked a b) {w : WriteResult}
    (hw : w.PossibleTo b.closed a.conn.outputBuffer.readableBytes) :
    Yields (.buffer .lengthError) (a.handleWrite w) (Linked · b) := by
  have hidle : a.conn.handleWrite w = .ok a.conn →
      Yields (.buffer .lengthError) (a.handleWrite w) (Linked · b) := by
    intro hsame
    rw [Endpoint.handleWrite, hsame, ok_bind]
    exact .ok h
  by_cases hwriting : a.conn.isWriting = true
  · have hup : a.conn.state ≠ .kDisconnected := by
      intro hdown
      have hoff : a.conn.isWriting = false := (h.sound.disconnected hdown).2
      rw [hoff] at hwriting
      cases hwriting
    obtain ⟨l, hholds, hpending⟩ := h.out.output
    have hpending := hpending hup
    cases hb : b.closed with
    | true =>
      rw [hb] at hw
      obtain ⟨e, rfl⟩ := hw.failed
      exact hidle (a.conn.handleWrite_failed e)
    | false =>
      rw [hb, hholds.readableBytes_eq] at hw
      obtain ⟨d, l', hd, hpd, hstream, hs⟩ := hpending.handleWrite hw.possible
      -- Something is waiting, so that the side has not been shut down.
      have hshut : ¬ 0 < a.conn.shutdownWrites := by
        intro hpos
        have hempty := (h.out.shut hpos).2
        rw [hholds.content_eq] at hempty
        exact hpending.writing_iff.mp hwriting hempty
      have hopen : b.eof = false := h.not_eof hup hshut
      have hdup : d.state ≠ .kDisconnected := by rw [hs.state_eq]; exact hup
      rw [Endpoint.handleWrite, hd, ok_bind]
      refine .ok ⟨?_, ?_, h.inp.of_receiver rfl id rfl⟩
      · refine ⟨h.sound.input, ?_, fun hdown => absurd hdown hdup, fun heof => ?_,
          fun hclosed => ?_⟩
        · show d.state ≠ _
          rw [hs.state_eq]
          exact h.sound.state_ne
        · exact absurd (h.sound.eof heof) hup
        · exact absurd (h.sound.closed hclosed) hup
      · have hbytes : d.stream = a.bytes := hstream.trans (h.out.complete hb)
        refine ⟨⟨l', hpd.holds, fun _ => hpd⟩,
          h.out.received.trans (written_prefix_handleWrite hd), ?_, fun _ => hbytes, ?_, ?_, ?_⟩
        · show d.written <+: a.bytes
          rw [← hbytes]
          exact List.prefix_append _ _
        · intro hpos
          have hpos : 0 < d.shutdownWrites := hpos
          rcases hs.shutdownWrites with hsame | ⟨-, hempty⟩
          · rw [hsame] at hpos
            exact absurd hpos hshut
          · refine ⟨?_, hpd.holds.content_eq.trans hempty⟩
            show d.state ≠ _
            rcases shutdownWrites_handleWrite hd with hsame | hstate
            · rw [hsame] at hpos
              exact absurd hpos hshut
            · rw [hstate]
              decide
        · rw [hopen]
          nofun
        · rw [hopen]
          nofun
  · exact hidle (TcpConnection.handleWrite_of_not_writing w (Bool.not_eq_true _ ▸ hwriting))

theorem Linked.shutdown (h : Linked a b) : Linked a.shutdown b := by
  by_cases hstate : a.conn.state = .kConnected
  · have hup : a.conn.state ≠ .kDisconnected := by rw [hstate]; decide
    have hshut : ¬ 0 < a.conn.shutdownWrites := fun hpos => (h.out.shut hpos).1 hstate
    have hopen : b.eof = false := h.not_eof hup hshut
    obtain ⟨l, -, hpending⟩ := h.out.output
    obtain ⟨hp, hwritten, hs⟩ := ((hpending hup).setState .kDisconnecting).shutdownInLoop
    have heq : a.conn.shutdown = (a.conn.setState .kDisconnecting).shutdownInLoop := if_pos hstate
    rw [← heq] at hp hwritten hs
    have hstate' : a.conn.shutdown.state = .kDisconnecting := hs.state_eq
    have hdup : a.conn.shutdown.state ≠ .kDisconnected := by rw [hstate']; decide
    have hstream : a.conn.shutdown.stream = a.conn.stream := by
      rw [hp.stream_eq, hwritten, (hpending hup).stream_eq]
      rfl
    refine ⟨?_, ?_, h.inp.of_receiver rfl id rfl⟩
    · refine ⟨h.sound.input, ?_, fun hdown => absurd hdown hdup, fun heof => ?_, fun hclosed => ?_⟩
      · show a.conn.shutdown.state ≠ _
        rw [hstate']
        decide
      · exact absurd (h.sound.eof heof) hup
      · exact absurd (h.sound.closed hclosed) hup
    · refine ⟨⟨l, hp.holds, fun _ => hp⟩, ?_, ?_, fun hb => hstream.trans (h.out.complete hb), ?_,
        ?_, ?_⟩
      · show b.received <+: a.conn.shutdown.written
        rw [hwritten]
        exact h.out.received
      · show a.conn.shutdown.written <+: _
        rw [hwritten]
        exact h.out.written
      · intro hpos
        have hpos : 0 < a.conn.shutdown.shutdownWrites := hpos
        rcases hs.shutdownWrites with hsame | ⟨-, hempty⟩
        · rw [hsame] at hpos
          exact absurd hpos hshut
        · refine ⟨?_, hp.holds.content_eq.trans hempty⟩
          show a.conn.shutdown.state ≠ _
          rw [hstate']
          decide
      · rw [hopen]
        nofun
      · rw [hopen]
        nofun
  · have heq : a.shutdown = a := by
      rw [Endpoint.shutdown, TcpConnection.shutdown, if_neg hstate]
    rw [heq]
    exact h

/-- While an end reads, it has not come to the end of the stream. -/
theorem Linked.reading (h : Linked a b) (hreading : a.conn.reading = true) :
    a.conn.state ≠ .kDisconnected ∧ a.eof = false ∧ a.closed = false := by
  have hup : a.conn.state ≠ .kDisconnected := by
    intro hdown
    rw [(h.sound.disconnected hdown).1] at hreading
    cases hreading
  refine ⟨hup, ?_, ?_⟩
  · by_contra heof
    exact hup (h.sound.eof (Bool.not_eq_false _ ▸ heof))
  · by_contra hclosed
    exact hup (h.sound.closed (Bool.not_eq_false _ ▸ hclosed))

theorem Linked.receive (h : Linked a b) (hreading : a.conn.reading = true) {m : Message}
    {inputBuffer : Buffer} {l : List UInt8} (hinput : inputBuffer.Holds (l ++ m.bytes))
    (hl : a.consumed ++ l = a.received) (hm : a.received ++ m.bytes <+: b.conn.written) :
    Linked { a with inputBuffer, received := a.received ++ m.bytes } b := by
  obtain ⟨-, heof, -⟩ := h.reading hreading
  refine ⟨⟨⟨_, hinput, ?_⟩, h.sound.state_ne, h.sound.disconnected, h.sound.eof, h.sound.closed⟩,
    h.out.of_sender rfl rfl id, ?_⟩
  · rw [← List.append_assoc, hl]
  · refine ⟨h.inp.output, hm, h.inp.written, h.inp.complete, h.inp.shut, h.inp.eof, ?_⟩
    show a.eof = true → _
    rw [heof]
    nofun

theorem Linked.close (h : Linked a b) (hreading : a.conn.reading = true) {inputBuffer : Buffer}
    {l : List UInt8} (hinput : inputBuffer.Holds l) (hl : a.consumed ++ l = a.received)
    (hall : a.received = b.conn.written) (hfin : 0 < b.conn.shutdownWrites ∨ b.closed = true) :
    Linked { a with conn := (a.conn.setState .kDisconnected).disableAll, inputBuffer, eof := true }
      b := by
  obtain ⟨-, -, hopen⟩ := h.reading hreading
  refine ⟨⟨⟨l, hinput, hl⟩, ?_, fun _ => ⟨rfl, rfl⟩, fun _ => rfl, fun _ => rfl⟩, ?_, ?_⟩
  · show StateE.kDisconnected ≠ .kConnecting
    decide
  · obtain ⟨l', hholds, -⟩ := h.out.output
    refine ⟨⟨l', hholds, fun hup => absurd rfl hup⟩, h.out.received, h.out.written,
      h.out.complete, fun hpos => ⟨?_, (h.out.shut hpos).2⟩, h.out.eof, h.out.eof_complete⟩
    show StateE.kDisconnected ≠ .kConnected
    decide
  · refine ⟨h.inp.output, h.inp.received, h.inp.written, h.inp.complete, h.inp.shut,
      fun _ => hfin, fun _ hpos => ?_⟩
    -- All that was written has arrived, and nothing was left in the peer's output buffer.
    have hbytes := h.inp.complete hopen
    rw [TcpConnection.stream, (h.inp.shut hpos).2, List.append_nil] at hbytes
    exact hall.trans hbytes

theorem Linked.handleRead (h : Linked a b) (hreading : a.conn.reading = true) {r : Option Message}
    (hr : Allowed a b (.handleRead r)) :
    Yields (.buffer .lengthError) (a.handleRead r) (Linked · b) := by
  obtain ⟨l, hholds, hl⟩ := h.sound.input
  cases r with
  | none => exact .ok h
  | some m =>
    obtain ⟨-, hprefix, hend⟩ := hr
    refine (hholds.readFd m.length_lt).mapError.bind fun inputBuffer hinput => ?_
    dsimp only
    split
    · exact .ok (h.receive hreading hinput hl hprefix)
    · next hzero =>
      have hnil : m.bytes = [] := List.length_eq_zero_iff.mp (by omega)
      obtain ⟨hall, hfin⟩ := hend hnil
      have hstate : a.conn.state = .kConnected ∨ a.conn.state = .kDisconnecting := by
        have hup := (h.reading hreading).1
        have hne := h.sound.state_ne
        cases hs : a.conn.state <;> simp_all
      rw [TcpConnection.handleClose, ensure_eq_ok hstate, ok_bind]
      rw [hnil, List.append_nil] at hinput
      exact .ok (h.close hreading hinput hl hall hfin)

theorem Linked.consume (h : Linked a b) {n : Nat} (hn : n ≤ a.inputBuffer.readableBytes) :
    Yields (.buffer .lengthError) (a.consume n) (Linked · b) := by
  obtain ⟨l, hholds, hl⟩ := h.sound.input
  rw [hholds.readableBytes_eq] at hn
  obtain ⟨b', hb', hdrop⟩ := hholds.retrieveAsString hn
  rw [Endpoint.consume, hb']
  refine .ok ⟨⟨⟨_, hdrop, ?_⟩, h.sound.state_ne, h.sound.disconnected, h.sound.eof,
    h.sound.closed⟩, h.out.of_sender rfl rfl id, h.inp.of_receiver rfl id rfl⟩
  show a.consumed ++ l.take n ++ l.drop n = a.received
  rw [List.append_assoc, List.take_append_drop, hl]

/-- Every step of an end keeps both directions. -/
theorem Linked.act (h : Linked a b) {x : Action} (hx : Allowed a b x)
    {m : Except TcpConnection.Fault Endpoint} (hm : a.act x = some m) :
    Yields (.buffer .lengthError) m (Linked · b) := by
  cases x with
  | send msg w =>
    cases hm
    exact h.send msg hx
  | handleWrite w =>
    cases hm
    exact h.handleWrite hx
  | shutdown =>
    cases hm
    exact .ok h.shutdown
  | handleRead r =>
    obtain ⟨hreading, hm⟩ := Option.ite_none_right_eq_some.mp hm
    cases hm
    exact h.handleRead hreading hx
  | consume n =>
    obtain ⟨hn, hm⟩ := Option.ite_none_right_eq_some.mp hm
    cases hm
    exact h.consume hn
  | destroy =>
    obtain ⟨hdown, hm⟩ := Option.ite_none_right_eq_some.mp hm
    cases hm
    exact .ok ⟨⟨h.sound.input, h.sound.state_ne, h.sound.disconnected, h.sound.eof,
      fun _ => hdown⟩, h.out.of_sender rfl rfl fun _ => rfl, h.inp.of_receiver rfl nofun rfl⟩

theorem Fresh.delivers (ha : a.Fresh) (hb : b.Fresh) : Delivers a b := by
  obtain ⟨w, v, k, conn, hconn, rfl⟩ := ha
  obtain ⟨w', v', k', conn', -, rfl⟩ := hb
  obtain ⟨-, hconn⟩ := ensure_bind_eq_ok_iff.mp hconn
  rw [pure_eq_ok_iff] at hconn
  subst hconn
  have hpending : ((TcpConnection.new w v k).setState .kConnected).enableReading.Pending [] :=
    ⟨Buffer.holds_new, by simp [TcpConnection.isWriting, TcpConnection.enableReading,
      TcpConnection.setState, TcpConnection.new]⟩
  refine ⟨⟨[], Buffer.holds_new, fun _ => hpending⟩, List.nil_prefix, List.nil_prefix,
    fun _ => ?_, fun hpos => absurd hpos (Nat.lt_irrefl 0), fun heof => absurd heof ?_,
    fun hclosed => absurd hclosed ?_⟩
  · rw [hpending.stream_eq]
    rfl
  · exact Bool.false_ne_true
  · exact Bool.false_ne_true

theorem Fresh.linked (ha : a.Fresh) (hb : b.Fresh) : Linked a b := by
  refine ⟨?_, ha.delivers hb, hb.delivers ha⟩
  obtain ⟨w, v, k, conn, hconn, rfl⟩ := ha
  obtain ⟨-, hconn⟩ := ensure_bind_eq_ok_iff.mp hconn
  rw [pure_eq_ok_iff] at hconn
  subst hconn
  refine ⟨⟨[], Buffer.holds_new, rfl⟩, ?_, fun hdown => ?_, nofun, nofun⟩
  · show StateE.kConnected ≠ .kConnecting
    decide
  · cases hdown

end Endpoint

/-! ### Runs of both ends -/

inductive Side
  | client
  | server
  deriving DecidableEq, Repr

def Side.other : Side → Side
  | .client => .server
  | .server => .client

theorem Side.other_ne (i : Side) : i.other ≠ i := by cases i <;> decide

structure Session where
  ends : Side → Endpoint

namespace Session

/-- A step of one of the ends. -/
def step (s : Session) (x : Side × Endpoint.Action) : Option (Except TcpConnection.Fault Session) :=
  ((s.ends x.1).act x.2).map fun m => do
    let e ← m
    pure ⟨Function.update s.ends x.1 e⟩

def Allowed (s : Session) (x : Side × Endpoint.Action) : Prop :=
  (s.ends x.1).Allowed (s.ends x.1.other) x.2

instance (s : Session) (x : Side × Endpoint.Action) : Decidable (s.Allowed x) :=
  inferInstanceAs (Decidable ((s.ends x.1).Allowed (s.ends x.1.other) x.2))

def Fresh (s : Session) : Prop := ∀ i, (s.ends i).Fresh

def Linked (s : Session) : Prop := ∀ i, (s.ends i).Linked (s.ends i.other)

theorem Linked.update {s : Session} (h : s.Linked) {i : Side} {e : Endpoint}
    (he : e.Linked (s.ends i.other)) : Linked ⟨Function.update s.ends i e⟩ := by
  intro j
  by_cases hj : j = i
  · subst hj
    show Endpoint.Linked (Function.update s.ends j e j) (Function.update s.ends j e j.other)
    rw [Function.update_self, Function.update_of_ne j.other_ne]
    exact he
  · obtain rfl : j = i.other := by
      cases i <;> cases j <;> first | rfl | exact absurd rfl hj
    have hback : i.other.other = i := by cases i <;> rfl
    show Endpoint.Linked (Function.update s.ends i e i.other)
      (Function.update s.ends i e i.other.other)
    rw [Function.update_of_ne hj, hback, Function.update_self]
    exact ⟨(h i.other).sound, he.inp, he.out⟩

theorem Linked.step {s : Session} (h : s.Linked) {x : Side × Endpoint.Action} (hx : s.Allowed x)
    {m : Except TcpConnection.Fault Session} (hm : s.step x = some m) :
    Yields (.buffer .lengthError) m Linked := by
  obtain ⟨r, hr, rfl⟩ := Option.map_eq_some_iff.mp hm
  exact ((h x.1).act hx hr).bind fun e he => .ok (h.update he)

/-- What one side has sent, the other one gets: what it has taken and what it has in its buffer is
always a beginning of it; until its socket is closed the rest is under way or in the sender's
buffer; and when it reads the end of the stream after `shutdownWrite` on the sender's socket, it has
got everything. -/
theorem duplex_delivers (p : Except TcpConnection.Fault Session) (h : Run step Allowed Fresh p) :
    (∀ f, p = .error f → f = .buffer .lengthError) ∧
    ∀ s, p = .ok s → ∀ i,
      (s.ends i.other).consumed ++ (s.ends i.other).inputBuffer.content <+: (s.ends i).bytes ∧
      ((s.ends i.other).closed = false → ∃ underway,
        (s.ends i.other).consumed ++ (s.ends i.other).inputBuffer.content ++ underway =
          (s.ends i).conn.written ∧
        (s.ends i.other).consumed ++ (s.ends i.other).inputBuffer.content ++ underway ++
          (s.ends i).conn.outputBuffer.content = (s.ends i).bytes) ∧
      ((s.ends i.other).eof = true → 0 < (s.ends i).conn.shutdownWrites →
        (s.ends i.other).consumed ++ (s.ends i.other).inputBuffer.content = (s.ends i).bytes) := by
  have hrun : Yields (.buffer .lengthError) p Linked :=
    h.yields (fun s hs i => (hs i).linked (hs i.other)) fun _ _ _ hs hx hm => hs.step hx hm
  refine ⟨fun f hf => hrun.eq_of_eq_error hf, fun s hs i => ?_⟩
  have hlinked := hrun.of_eq_ok hs
  have hout := (hlinked i).out
  obtain ⟨l, hholds, hl⟩ := (hlinked i.other).sound.input
  rw [hholds.content_eq, hl]
  refine ⟨hout.received.trans hout.written, fun hopen => ?_, hout.eof_complete⟩
  obtain ⟨underway, hunderway⟩ := hout.received
  refine ⟨underway, hunderway, ?_⟩
  rw [hunderway]
  exact hout.complete hopen

/-- Two messages cross; the first is written in two parts, and its sender shuts down. -/
theorem duplex_delivers_example : ∃ s : Session, Run step Allowed Fresh (.ok s) ∧
    (s.ends .server).eof = true ∧
    (s.ends .server).consumed ++ (s.ends .server).inputBuffer.content = [1, 2, 3] ∧
    (s.ends .server).consumed ++ (s.ends .server).inputBuffer.content =
      (s.ends .client).bytes := by
  let fresh : Endpoint :=
    ⟨((TcpConnection.new false false 64).setState .kConnected).enableReading, .new, [], [], [],
      false, false⟩
  have hex : seen (exec (faulting (restrict Allowed step)) (.ok ⟨fun _ => fresh⟩)
      [(.client, .send ⟨[1, 2, 3], by decide⟩ (.count 1)), (.client, .shutdown),
        (.server, .send ⟨[9], by decide⟩ (.count 1)),
        (.server, .handleRead (some ⟨[1], by decide⟩)), (.server, .consume 1),
        (.client, .handleWrite (.count 2)),
        (.client, .handleRead (some ⟨[9], by decide⟩)),
        (.server, .handleRead (some ⟨[2, 3], by decide⟩)),
        (.server, .handleRead (some ⟨[], by decide⟩))])
      (fun s => (s.ends .server).eof && decide (0 < (s.ends .client).conn.shutdownWrites) &&
        decide ((s.ends .server).consumed ++ (s.ends .server).inputBuffer.content = [1, 2, 3])) =
      true := by
    decide +kernel
  obtain ⟨s, hs, hcheck⟩ := exists_of_seen hex
  simp only [Bool.and_eq_true, decide_eq_true_eq] at hcheck
  have hstart : Run step Allowed Fresh (.ok ⟨fun _ => fresh⟩) :=
    Run.start fun _ => ⟨false, false, 64, _, rfl, rfl⟩
  have hrun := hstart.exec _ hs
  have hall := (duplex_delivers (.ok s) hrun).2 s rfl .client
  exact ⟨s, hrun, hcheck.1.1, hcheck.2, hall.2.2 hcheck.1.1 hcheck.1.2⟩

end Session

end DbdkyGcc.Tcp
