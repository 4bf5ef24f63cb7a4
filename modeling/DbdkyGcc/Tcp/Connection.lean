import DbdkyGcc.Tcp.Buffer

/-!
# The output side of a connection

`TcpConnection` writes directly to the socket as long as nothing is waiting, and
keeps the rest of a message in `outputBuffer_` until `handleWrite` is called.
What the socket accepted is recorded in `written`; what the functions queue in
the loop is recorded in `queued`.

`Pending c l` is the invariant of the output side: the buffer holds `l`, and the
channel has write interest exactly when `l` is not empty. `sendInLoop` and
`handleWrite` each have one specification in terms of it.
-/

namespace DbdkyGcc.Tcp

open Foundations

/-- The values of `errno` that the code distinguishes. -/
inductive Errno
  | EWOULDBLOCK
  | EPIPE
  | other
  deriving DecidableEq, Repr

/-- What `sockets::write` returns: a count, or -1 and a value of `errno`. -/
inductive WriteResult
  | count (n : Nat)
  | failed (e : Errno)
  deriving DecidableEq, Repr

/-- What a write of `len` bytes can return, as long as the peer has not closed the connection. -/
def WriteResult.Possible (len : Nat) : WriteResult → Prop
  | count n => n ≤ len
  | failed e => e ≠ .EPIPE

instance (len : Nat) (w : WriteResult) : Decidable (w.Possible len) :=
  match w with
  | .count _ => Nat.decLe _ _
  | .failed _ => inferInstanceAs (Decidable (_ ≠ _))

/-- Bytes in memory. -/
structure Message where
  bytes : List UInt8
  fits : bytes.length ≤ maxSize
  deriving DecidableEq

theorem Message.length_lt (m : Message) : m.bytes.length < 2 ^ 63 :=
  Nat.lt_of_le_of_lt m.fits (by decide)

namespace TcpConnection

inductive StateE
  | kDisconnected
  | kConnecting
  | kConnected
  | kDisconnecting
  deriving DecidableEq, Repr

/-- A failed assertion of the function named, or a fault of a buffer. -/
inductive Fault
  | sendInLoop
  | connectEstablished
  | handleClose
  | remove
  | buffer (f : BufferFault)
  deriving DecidableEq, Repr

/-- What the functions of the output side queue in the loop. -/
inductive Callback
  | writeComplete
  | highWaterMark (len : Nat)
  deriving DecidableEq, Repr

end TcpConnection

/-- A connection and its channel: `reading` and `writing` are the two bits of the interest, and a
callback is there when it has been set. -/
structure TcpConnection where
  state : TcpConnection.StateE
  reading : Bool
  writing : Bool
  outputBuffer : Buffer
  highWaterMark : Nat
  writeCompleteCallback : Bool
  highWaterMarkCallback : Bool
  written : List UInt8
  shutdownWrites : Nat
  queued : List TcpConnection.Callback

namespace TcpConnection

/-- The constructor, with the callbacks that are set right after it. -/
def new (writeCompleteCallback highWaterMarkCallback : Bool) (highWaterMark : Nat) :
    TcpConnection :=
  { state := .kConnecting
    reading := false
    writing := false
    outputBuffer := .new
    highWaterMark
    writeCompleteCallback
    highWaterMarkCallback
    written := []
    shutdownWrites := 0
    queued := [] }

section Functions

variable (c : TcpConnection)

/-- `Channel::isWriting`. -/
def isWriting : Bool := c.writing

/-- `Channel::isNoneEvent`. -/
def isNoneEvent : Bool := !c.reading && !c.writing

/-- `Channel::enableReading`. -/
def enableReading : TcpConnection := { c with reading := true }

/-- `Channel::enableWriting`. -/
def enableWriting : TcpConnection := { c with writing := true }

/-- `Channel::disableWriting`. -/
def disableWriting : TcpConnection := { c with writing := false }

/-- `Channel::disableAll`. -/
def disableAll : TcpConnection := { c with reading := false, writing := false }

def setState (s : StateE) : TcpConnection := { c with state := s }

/-- `loop_->queueInLoop` of a callback. -/
def queueInLoop (cb : Callback) : TcpConnection := { c with queued := c.queued ++ [cb] }

/-- Up to the call of `connectionCallback_`. -/
def connectEstablished : Except Fault TcpConnection := do
  ensure .connectEstablished (c.state = .kConnecting)
  pure (c.setState .kConnected).enableReading

/-- What the first part of `sendInLoop` leaves in its variables `nwrote` and `error`. -/
structure Attempt where
  conn : TcpConnection
  nwrote : Nat
  error : Bool

/-- The direct write, when nothing is waiting. -/
def tryWrite (data : List UInt8) (w : WriteResult) : Attempt :=
  if !c.isWriting && c.outputBuffer.readableBytes = 0 then
    match w with
    | .count n =>
      let c := { c with written := c.written ++ data.take n }
      if sizeSub data.length n = 0 && c.writeCompleteCallback then
        { conn := c.queueInLoop .writeComplete, nwrote := n, error := false }
      else
        { conn := c, nwrote := n, error := false }
    | .failed e => { conn := c, nwrote := 0, error := e = .EPIPE }
  else
    { conn := c, nwrote := 0, error := false }

/-- `highWaterMarkCallback_` is queued when what is waiting passes the mark. -/
def noteHighWaterMark (oldLen remaining : Nat) : TcpConnection :=
  if c.highWaterMark ≤ sizeAdd oldLen remaining ∧ oldLen < c.highWaterMark ∧
      c.highWaterMarkCallback = true then
    c.queueInLoop (.highWaterMark (sizeAdd oldLen remaining))
  else c

/-- What could not be written is kept, and `enableWriting` asks for `handleWrite`. -/
def keepRest (rest : List UInt8) (remaining : Nat) : Except Fault TcpConnection := do
  let c := c.noteHighWaterMark c.outputBuffer.readableBytes remaining
  let outputBuffer ← (c.outputBuffer.append rest).mapError .buffer
  let c := { c with outputBuffer }
  pure (if !c.isWriting then c.enableWriting else c)

def sendInLoop (data : List UInt8) (w : WriteResult) : Except Fault TcpConnection :=
  if c.state = .kDisconnected then
    pure c
  else do
    let a := c.tryWrite data w
    let remaining := sizeSub data.length a.nwrote
    ensure .sendInLoop (remaining ≤ data.length)
    if !a.error && 0 < remaining then
      a.conn.keepRest (data.drop a.nwrote) remaining
    else
      pure a.conn

/-- `shutdownWrite` of the socket is called unless data is waiting. -/
def shutdownInLoop : TcpConnection :=
  if !c.isWriting then { c with shutdownWrites := c.shutdownWrites + 1 } else c

/-- In the loop thread, where `runInLoop` calls `shutdownInLoop` at once. -/
def shutdown : TcpConnection :=
  if c.state = .kConnected then (c.setState .kDisconnecting).shutdownInLoop else c

/-- When everything waiting has been written. -/
def drained : TcpConnection :=
  let c := c.disableWriting
  let c := if c.writeCompleteCallback then c.queueInLoop .writeComplete else c
  if c.state = .kDisconnecting then c.shutdownInLoop else c

def handleWrite (w : WriteResult) : Except Fault TcpConnection :=
  if c.isWriting then
    match w with
    | .count n =>
      if 0 < n then do
        let offered := c.outputBuffer.content
        let outputBuffer ← (c.outputBuffer.retrieve n).mapError .buffer
        let c := { c with outputBuffer, written := c.written ++ offered.take n }
        pure (if c.outputBuffer.readableBytes = 0 then c.drained else c)
      else
        pure c
    | .failed _ => pure c
  else
    pure c

end Functions

section Output

variable {c : TcpConnection} {l : List UInt8}

/-- What is waiting to be written is `l`. -/
structure Pending (c : TcpConnection) (l : List UInt8) : Prop where
  holds : c.outputBuffer.Holds l
  writing_iff : c.isWriting = true ↔ l ≠ []

/-- All that has been sent: what the socket has accepted, and what is waiting. -/
def stream (c : TcpConnection) : List UInt8 := c.written ++ c.outputBuffer.content

theorem Pending.stream_eq (h : c.Pending l) : c.stream = c.written ++ l := by
  rw [stream, h.holds.content_eq]

/-- What `sendInLoop` leaves as it is. -/
structure Kept (c d : TcpConnection) : Prop where
  state_eq : d.state = c.state
  reading_eq : d.reading = c.reading
  shutdownWrites_eq : d.shutdownWrites = c.shutdownWrites

theorem Kept.refl (c : TcpConnection) : Kept c c := ⟨rfl, rfl, rfl⟩

theorem Kept.trans {c d e : TcpConnection} (h : Kept c d) (h' : Kept d e) : Kept c e where
  state_eq := h'.state_eq.trans h.state_eq
  reading_eq := h'.reading_eq.trans h.reading_eq
  shutdownWrites_eq := h'.shutdownWrites_eq.trans h.shutdownWrites_eq

/-- The direct write takes the front of the message, and only where nothing is waiting. -/
structure Tried (c : TcpConnection) (l data : List UInt8) (a : Attempt) : Prop where
  pending : a.conn.Pending l
  kept : Kept c a.conn
  written_eq : a.conn.written = c.written ++ data.take a.nwrote
  nwrote_le : a.nwrote ≤ data.length
  nwrote_eq : l ≠ [] → a.nwrote = 0
  error_eq : a.error = false

theorem Tried.nothing (h : c.Pending l) (data : List UInt8) {error : Bool} (he : error = false) :
    Tried c l data { conn := c, nwrote := 0, error } where
  pending := h
  kept := Kept.refl c
  written_eq := (List.append_nil _).symm
  nwrote_le := Nat.zero_le _
  nwrote_eq := fun _ => rfl
  error_eq := he

theorem Pending.tryWrite (h : c.Pending l) {data : List UInt8} {w : WriteResult}
    (hw : w.Possible data.length) : Tried c l data (c.tryWrite data w) := by
  unfold TcpConnection.tryWrite
  split
  · next hdirect =>
    have hempty : l = [] := by
      have hnot : ¬c.isWriting = true := by
        simp only [Bool.and_eq_true, Bool.not_eq_true'] at hdirect
        rw [hdirect.1]
        exact Bool.false_ne_true
      by_contra hne
      exact hnot (h.writing_iff.mpr hne)
    subst hempty
    cases w with
    | count n =>
      have hpending : Pending { c with written := c.written ++ data.take n } [] :=
        ⟨h.holds, h.writing_iff⟩
      dsimp only
      split
      · exact ⟨⟨h.holds, h.writing_iff⟩, ⟨rfl, rfl, rfl⟩, rfl, hw, fun hne => absurd rfl hne, rfl⟩
      · exact ⟨hpending, ⟨rfl, rfl, rfl⟩, rfl, hw, fun hne => absurd rfl hne, rfl⟩
    | failed e => exact Tried.nothing h data (decide_eq_false hw)
  · exact Tried.nothing h data rfl

theorem Pending.noteHighWaterMark (h : c.Pending l) (oldLen remaining : Nat) :
    (c.noteHighWaterMark oldLen remaining).Pending l ∧
      Kept c (c.noteHighWaterMark oldLen remaining) ∧
      (c.noteHighWaterMark oldLen remaining).written = c.written := by
  unfold TcpConnection.noteHighWaterMark
  split
  · exact ⟨⟨h.holds, h.writing_iff⟩, ⟨rfl, rfl, rfl⟩, rfl⟩
  · exact ⟨h, Kept.refl c, rfl⟩

/-- `enableWriting` is called only where the interest is not there yet. -/
theorem pending_enableWriting (h : c.outputBuffer.Holds l) (hl : l ≠ []) :
    (if !c.isWriting then c.enableWriting else c).Pending l := by
  split
  · exact ⟨h, fun _ => hl, fun _ => rfl⟩
  · next hw =>
    simp only [Bool.not_eq_true', Bool.not_eq_false] at hw
    exact ⟨h, fun _ => hl, fun _ => hw⟩

theorem Pending.keepRest (h : c.Pending l) {rest : List UInt8} (hrest : rest ≠ [])
    (hlen : rest.length < 2 ^ 63) (remaining : Nat) :
    Yields (.buffer .lengthError) (c.keepRest rest remaining) fun d =>
      d.Pending (l ++ rest) ∧ Kept c d ∧ d.written = c.written := by
  obtain ⟨hnote, hkept, hwritten⟩ :=
    h.noteHighWaterMark c.outputBuffer.readableBytes remaining
  have hne : l ++ rest ≠ [] := by
    intro hnil
    exact hrest (List.append_eq_nil_iff.mp hnil).2
  apply (hnote.holds.append hlen).mapError.bind
  intro b hb
  refine .ok ⟨pending_enableWriting hb hne, hkept.trans ?_, ?_⟩
  · split
    · exact ⟨rfl, rfl, rfl⟩
    · exact ⟨rfl, rfl, rfl⟩
  · split
    · exact hwritten
    · exact hwritten

/-- `sendInLoop` adds its message to the stream. -/
theorem Pending.sendInLoop (h : c.Pending l) (hstate : c.state ≠ .kDisconnected) (m : Message)
    {w : WriteResult} (hw : w.Possible m.bytes.length) :
    Yields (.buffer .lengthError) (c.sendInLoop m.bytes w) fun d =>
      (∃ l', d.Pending l') ∧ Kept c d ∧ d.stream = c.stream ++ m.bytes := by
  have htried := h.tryWrite hw
  have hm := m.length_lt
  have hle := htried.nwrote_le
  have hremaining : sizeSub m.bytes.length (c.tryWrite m.bytes w).nwrote =
      m.bytes.length - (c.tryWrite m.bytes w).nwrote := sizeSub_eq hle (by omega)
  rw [TcpConnection.sendInLoop, if_neg hstate]
  apply Yields.ensure_bind (by omega)
  simp only [htried.error_eq, hremaining, Bool.not_false, Bool.true_and, decide_eq_true_eq]
  split
  · next hrest =>
    have hne : m.bytes.drop (c.tryWrite m.bytes w).nwrote ≠ [] := by
      apply List.ne_nil_of_length_pos
      rw [List.length_drop]
      exact hrest
    have hlen : (m.bytes.drop (c.tryWrite m.bytes w).nwrote).length < 2 ^ 63 := by
      rw [List.length_drop]
      omega
    apply (htried.pending.keepRest hne hlen _).mono
    rintro d ⟨hd, hkept, hwritten⟩
    refine ⟨⟨_, hd⟩, htried.kept.trans hkept, ?_⟩
    rw [hd.stream_eq, hwritten, htried.written_eq, h.stream_eq]
    -- nothing was waiting, or nothing was written directly
    by_cases hl : l = []
    · rw [hl, List.nil_append, List.append_nil, List.append_assoc, List.take_append_drop]
    · rw [htried.nwrote_eq hl, List.take_zero, List.drop_zero, List.append_nil,
        List.append_assoc]
  · next hdone =>
    refine .ok ⟨⟨l, htried.pending⟩, htried.kept, ?_⟩
    have hall : m.bytes.length ≤ (c.tryWrite m.bytes w).nwrote := by omega
    rw [htried.pending.stream_eq, htried.written_eq, h.stream_eq, List.take_of_length_le hall]
    by_cases hl : l = []
    · rw [hl, List.append_nil, List.append_nil]
    · have hzero := htried.nwrote_eq hl
      have hnil : m.bytes = [] := List.length_eq_zero_iff.mp (by omega)
      rw [hnil, List.append_nil, List.append_nil]

/-- `shutdownWrite` is called only when nothing is waiting. -/
structure ShutsDown (c d : TcpConnection) (l : List UInt8) : Prop where
  state_eq : d.state = c.state
  reading_eq : d.reading = c.reading
  shutdownWrites : d.shutdownWrites = c.shutdownWrites ∨
    d.shutdownWrites = c.shutdownWrites + 1 ∧ l = []

theorem Kept.shutsDown {d : TcpConnection} (h : Kept c d) (l : List UInt8) : ShutsDown c d l :=
  ⟨h.state_eq, h.reading_eq, .inl h.shutdownWrites_eq⟩

theorem Pending.shutdownInLoop (h : c.Pending l) :
    c.shutdownInLoop.Pending l ∧ c.shutdownInLoop.written = c.written ∧
      ShutsDown c c.shutdownInLoop l := by
  unfold TcpConnection.shutdownInLoop
  split
  · next hw =>
    have hempty : l = [] := by
      by_contra hne
      rw [h.writing_iff.mpr hne] at hw
      cases hw
    exact ⟨⟨h.holds, h.writing_iff⟩, rfl, rfl, rfl, .inr ⟨rfl, hempty⟩⟩
  · exact ⟨h, rfl, (Kept.refl c).shutsDown l⟩

theorem Pending.setState (h : c.Pending l) (s : StateE) : (c.setState s).Pending l :=
  ⟨h.holds, h.writing_iff⟩

theorem pending_drained (h : c.outputBuffer.Holds []) :
    c.drained.Pending [] ∧ c.drained.written = c.written ∧ ShutsDown c c.drained [] := by
  have hoff : c.disableWriting.Pending [] := ⟨h, by simp [isWriting, disableWriting]⟩
  have hqueue : (c.disableWriting.queueInLoop .writeComplete).Pending [] :=
    ⟨h, hoff.writing_iff⟩
  unfold TcpConnection.drained
  dsimp only
  split
  · split
    · obtain ⟨hp, hwr, hs⟩ := hqueue.shutdownInLoop
      exact ⟨hp, hwr, hs.state_eq, hs.reading_eq, hs.shutdownWrites⟩
    · exact ⟨hqueue, rfl, rfl, rfl, .inl rfl⟩
  · split
    · obtain ⟨hp, hwr, hs⟩ := hoff.shutdownInLoop
      exact ⟨hp, hwr, hs.state_eq, hs.reading_eq, hs.shutdownWrites⟩
    · exact ⟨hoff, rfl, rfl, rfl, .inl rfl⟩

/-- `handleWrite` moves bytes from the buffer to the socket. -/
theorem Pending.handleWrite (h : c.Pending l) {w : WriteResult} (hw : w.Possible l.length) :
    ∃ d l', c.handleWrite w = .ok d ∧ d.Pending l' ∧ d.stream = c.stream ∧ ShutsDown c d l' := by
  have hsame : ∃ d l', (.ok c : Except Fault TcpConnection) = .ok d ∧ d.Pending l' ∧
      d.stream = c.stream ∧ ShutsDown c d l' := ⟨c, l, rfl, h, rfl, (Kept.refl c).shutsDown l⟩
  unfold TcpConnection.handleWrite
  split
  · cases w with
    | count n =>
      dsimp only
      split
      · obtain ⟨b, hb, hholds⟩ := h.holds.retrieve hw
        have hcontent := h.holds.content_eq
        have hread := hholds.readableBytes_eq
        rw [hb, hcontent]
        let moved : TcpConnection :=
          { c with outputBuffer := b, written := c.written ++ l.take n }
        have hjoin : c.written ++ l.take n ++ l.drop n = c.stream := by
          rw [List.append_assoc, List.take_append_drop, h.stream_eq]
        by_cases hempty : b.readableBytes = 0
        · have hnil : l.drop n = [] := List.length_eq_zero_iff.mp (hread.symm.trans hempty)
          rw [hnil] at hholds hjoin
          obtain ⟨hp, hwr, hs⟩ := pending_drained (c := moved) hholds
          refine ⟨moved.drained, [], congrArg Except.ok (if_pos hempty), hp, ?_, ?_⟩
          · rw [hp.stream_eq, hwr, hjoin]
          · exact ⟨hs.state_eq, hs.reading_eq, hs.shutdownWrites⟩
        · have hne : l.drop n ≠ [] := by
            intro hnil
            rw [hnil] at hread
            exact hempty hread
          have hp : moved.Pending (l.drop n) := by
            refine ⟨hholds, fun _ => hne, fun _ => h.writing_iff.mpr ?_⟩
            rintro rfl
            exact hne List.drop_nil
          refine ⟨moved, l.drop n, congrArg Except.ok (if_neg hempty), hp, ?_, rfl, rfl, .inl rfl⟩
          rw [hp.stream_eq, hjoin]
      · exact hsame
    | failed e => exact hsame
  · exact hsame

end Output

end TcpConnection

end DbdkyGcc.Tcp
