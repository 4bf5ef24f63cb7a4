import DbdkyGcc.Foundations.Runs
import DbdkyGcc.Tcp.Connection

/-!
# The output stream of an established connection

Messages are sent and the socket becomes writable in any order, and every write
takes as much as it likes. What the socket has accepted, followed by what is in
the buffer, is always what has been sent.
-/

namespace DbdkyGcc.Tcp

open Foundations

/-- A connection, with the messages that have been sent on it. -/
structure Stream where
  conn : TcpConnection
  sent : List Message

namespace Stream

/-- What happens in the loop thread, with what the writes of the socket return. -/
inductive Action
  | sendInLoop (m : Message) (w : WriteResult)
  | handleWrite (w : WriteResult)
  | shutdown

def step (s : Stream) : Action → Option (Except TcpConnection.Fault Stream)
  | .sendInLoop m w => some do
    let conn ← s.conn.sendInLoop m.bytes w
    pure { conn, sent := s.sent ++ [m] }
  | .handleWrite w => some do
    let conn ← s.conn.handleWrite w
    pure { s with conn }
  | .shutdown => some (pure { s with conn := s.conn.shutdown })

/-- A write accepts at most what it is offered, and does not find the peer gone. -/
def Allowed (s : Stream) : Action → Prop
  | .sendInLoop m w => w.Possible m.bytes.length
  | .handleWrite w => w.Possible s.conn.outputBuffer.readableBytes
  | .shutdown => True

instance (s : Stream) (a : Action) : Decidable (s.Allowed a) :=
  match a with
  | .sendInLoop m w => inferInstanceAs (Decidable (w.Possible m.bytes.length))
  | .handleWrite w => inferInstanceAs (Decidable (w.Possible s.conn.outputBuffer.readableBytes))
  | .shutdown => .isTrue trivial

/-- A connection right after `connectEstablished`. -/
def Fresh (s : Stream) : Prop :=
  (∃ writeComplete highWater mark,
    (TcpConnection.new writeComplete highWater mark).connectEstablished = .ok s.conn) ∧ s.sent = []

/-- The invariant: the output side is sound, and its stream is what has been sent. -/
structure Complete (s : Stream) : Prop where
  pending : ∃ l, s.conn.Pending l
  stream_eq : s.conn.stream = (s.sent.map Message.bytes).flatten
  state_ne : s.conn.state ≠ .kDisconnected

theorem Fresh.complete {s : Stream} (h : s.Fresh) : s.Complete := by
  obtain ⟨⟨a, b, m, hconn⟩, hsent⟩ := h
  obtain ⟨-, hconn⟩ := ensure_bind_eq_ok_iff.mp hconn
  rw [pure_eq_ok_iff] at hconn
  have hpending : s.conn.Pending [] := by
    rw [hconn]
    exact ⟨Buffer.holds_new, by simp [TcpConnection.isWriting, TcpConnection.enableReading,
      TcpConnection.setState, TcpConnection.new]⟩
  refine ⟨⟨[], hpending⟩, ?_, ?_⟩
  · rw [hpending.stream_eq, hsent, hconn]
    rfl
  · rw [hconn]
    change TcpConnection.StateE.kConnected ≠ .kDisconnected
    decide

theorem Complete.shutdown {s : Stream} (h : s.Complete) :
    Complete { s with conn := s.conn.shutdown } := by
  obtain ⟨l, hl⟩ := h.pending
  by_cases hstate : s.conn.state = .kConnected
  · obtain ⟨hp, hwr, hs⟩ := (hl.setState .kDisconnecting).shutdownInLoop
    have heq : s.conn.shutdown = (s.conn.setState .kDisconnecting).shutdownInLoop :=
      if_pos hstate
    rw [heq]
    refine ⟨⟨l, hp⟩, ?_, ?_⟩
    · rw [hp.stream_eq, hwr, ← h.stream_eq, hl.stream_eq]
      rfl
    · rw [hs.state_eq]
      change TcpConnection.StateE.kDisconnecting ≠ .kDisconnected
      decide
  · have heq : s.conn.shutdown = s.conn := if_neg hstate
    rw [heq]
    exact h

theorem Complete.step {s : Stream} (h : s.Complete) {a : Action} (ha : s.Allowed a)
    {m : Except TcpConnection.Fault Stream} (hm : s.step a = some m) :
    Yields (.buffer .lengthError) m Complete := by
  obtain ⟨l, hl⟩ := h.pending
  cases a with
  | sendInLoop msg w =>
    cases hm
    apply (hl.sendInLoop h.state_ne msg ha).bind
    rintro d ⟨hp, hkept, hstream⟩
    refine .ok ⟨hp, ?_, ?_⟩
    · change d.stream = ((s.sent ++ [msg]).map Message.bytes).flatten
      rw [hstream, h.stream_eq, List.map_append, List.flatten_append]
      simp
    · exact hkept.state_eq.symm ▸ h.state_ne
  | handleWrite w =>
    cases hm
    have hw : w.Possible l.length := hl.holds.readableBytes_eq ▸ ha
    obtain ⟨d, l', hd, hp, hstream, hs⟩ := hl.handleWrite hw
    rw [hd]
    exact .ok ⟨⟨l', hp⟩, hstream.trans h.stream_eq, hs.state_eq.symm ▸ h.state_ne⟩
  | shutdown =>
    cases hm
    exact .ok h.shutdown

/-- Nothing is lost, duplicated or reordered, and write interest is there exactly as long as
something is waiting. -/
theorem output_is_what_was_sent {p : Except TcpConnection.Fault Stream}
    (h : Run step Allowed Fresh p) :
    (∀ f, p = .error f → f = .buffer .lengthError) ∧
      ∀ s, p = .ok s →
        s.conn.written ++ s.conn.outputBuffer.content = (s.sent.map Message.bytes).flatten ∧
        (s.conn.isWriting = true ↔ s.conn.outputBuffer.content ≠ []) := by
  have hrun : Yields (.buffer .lengthError) p Complete :=
    h.yields (fun _ hs => hs.complete) fun _ _ _ hs ha hm => hs.step ha hm
  refine ⟨fun f hf => hrun.eq_of_eq_error hf, fun s hs => ?_⟩
  have hcomplete := hrun.of_eq_ok hs
  obtain ⟨l, hl⟩ := hcomplete.pending
  refine ⟨hcomplete.stream_eq, ?_⟩
  rw [hl.holds.content_eq]
  exact hl.writing_iff

theorem output_is_what_was_sent_example :
    ∃ s, Run step Allowed Fresh (.ok s) ∧ s.conn.written = [1, 2, 3] ∧
      s.conn.written ++ s.conn.outputBuffer.content = (s.sent.map Message.bytes).flatten := by
  let start : Stream :=
    { conn := ((TcpConnection.new true true 2).setState .kConnected).enableReading, sent := [] }
  have hex : seen (exec (faulting (restrict Allowed step)) (.ok start)
      [.sendInLoop ⟨[1, 2], by decide⟩ (.count 1), .sendInLoop ⟨[3, 4], by decide⟩ (.count 0),
        .handleWrite (.failed .EWOULDBLOCK), .shutdown, .handleWrite (.count 2)])
      (fun s => s.conn.written = [1, 2, 3]) = true := by
    decide +kernel
  obtain ⟨s, hs, hcheck⟩ := exists_of_seen hex
  have hstart : Run step Allowed Fresh (.ok start) := Run.start ⟨⟨true, true, 2, rfl⟩, rfl⟩
  have hrun := hstart.exec _ hs
  exact ⟨s, hrun, of_decide_eq_true hcheck, ((output_is_what_was_sent hrun).2 s rfl).1⟩

end Stream

end DbdkyGcc.Tcp
