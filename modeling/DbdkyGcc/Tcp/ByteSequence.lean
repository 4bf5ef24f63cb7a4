import DbdkyGcc.Tcp.Buffer

/-!
# A buffer is a byte sequence

A client calls the operations of any number of buffers, in any order. The same
calls act on byte lists: `append` at the back, `prepend` and `retrieve` at the
front, integers as big-endian bytes. As long as no call asks for more space than
a vector can have, no assertion fails and the buffers hold exactly those lists.
Where a call does, the sums of `makeSpace` wrap round.
-/

namespace DbdkyGcc.Tcp

open Foundations

/-- A call on one buffer. The end of `retrieveUntil` is given by its distance from `peek()`, and
`hasWritten` comes with what the caller has stored at `beginWrite()`. The argument of `readFd` is
what `readv` delivers, `none` its failure. -/
inductive Op
  | append (data : List UInt8)
  | prepend (data : List UInt8)
  | retrieve (len : Nat)
  | retrieveUntil (off : Int)
  | retrieveAll
  | retrieveAsString (len : Nat)
  | retrieveAllAsString
  | ensureWritableBytes (len : Nat)
  | hasWritten (data : List UInt8)
  | shrink (reserve : Nat)
  | appendInt (w : Width) (x : w.Value)
  | prependInt (w : Width) (x : w.Value)
  | readInt (w : Width)
  | readFd (data : Option (List UInt8))

/-- What a call returns. -/
inductive Result
  | void
  | text (l : List UInt8)
  | int (w : Width) (x : w.Value)
  | count (n : Int)

/-- The call, on the buffer. -/
def Buffer.perform (e : Endian) (b : Buffer) : Op → Except BufferFault (Buffer × Result)
  | .append data => do pure (← b.append data, .void)
  | .prepend data => do pure (← b.prepend data, .void)
  | .retrieve len => do pure (← b.retrieve len, .void)
  | .retrieveUntil off => do pure (← b.retrieveUntil (b.readerIndex + off), .void)
  | .retrieveAll => pure (b.retrieveAll, .void)
  | .retrieveAsString len => do
    let (b, s) ← b.retrieveAsString len
    pure (b, .text s)
  | .retrieveAllAsString => do
    let (b, s) ← b.retrieveAllAsString
    pure (b, .text s)
  | .ensureWritableBytes len => do pure (← b.ensureWritableBytes len, .void)
  | .hasWritten data => do
    let b ← b.fill data
    pure (b.hasWritten data.length, .void)
  | .shrink reserve => do pure (← b.shrink reserve, .void)
  | .appendInt w x => do pure (← b.appendInt e w x, .void)
  | .prependInt w x => do pure (← b.prependInt e w x, .void)
  | .readInt w => do
    let (b, x) ← b.readInt e w
    pure (b, .int w x)
  | .readFd data => do pure (← b.readFd data, .count (data.elim (-1) fun l => l.length))

namespace Op

/-- The call, on a byte list. -/
def act (l : List UInt8) : Op → List UInt8 × Result
  | append data => (l ++ data, .void)
  | prepend data => (data ++ l, .void)
  | retrieve len => (l.drop len, .void)
  | retrieveUntil off => (l.drop off.toNat, .void)
  | retrieveAll => ([], .void)
  | retrieveAsString len => (l.drop len, .text (l.take len))
  | retrieveAllAsString => ([], .text l)
  | ensureWritableBytes _ => (l, .void)
  | hasWritten data => (l ++ data, .void)
  | shrink _ => (l, .void)
  | appendInt w x => (l ++ w.toBytes x, .void)
  | prependInt w x => (w.toBytes x ++ l, .void)
  | readInt w => (l.drop w.bytes, .int w (w.ofBytes (l.take w.bytes)))
  | readFd data => (l ++ data.getD [], .count (data.elim (-1) fun d => d.length))

/-- How many bytes the call adds. -/
def added : Op → Nat
  | append data => data.length
  | prepend data => data.length
  | hasWritten data => data.length
  | appendInt w _ => w.bytes
  | prependInt w _ => w.bytes
  | readFd data => (data.getD []).length
  | _ => 0

/-- What the code asserts of its arguments, and what `hasWritten` and `readv` rely on. -/
def Asserted (b : Buffer) : Op → Prop
  | prepend data => data.length ≤ b.prependableBytes
  | prependInt w _ => w.bytes ≤ b.prependableBytes
  | retrieve len => len ≤ b.readableBytes
  | retrieveUntil off => 0 ≤ off ∧ off ≤ b.readableBytes
  | retrieveAsString len => len ≤ b.readableBytes
  | readInt w => w.bytes ≤ b.readableBytes
  | ensureWritableBytes len => len < 2 ^ 64
  | shrink reserve => reserve < 2 ^ 64
  | hasWritten data => data.length ≤ b.writableBytes
  | readFd data => (data.getD []).length ≤ b.writableBytes + 65536
  | _ => True

/-- The space asked for is not more than a vector can have. -/
def Fits (b : Buffer) : Op → Prop
  | ensureWritableBytes len => len ≤ maxSize
  | shrink reserve => b.readableBytes + reserve ≤ maxSize
  | _ => True

instance (b : Buffer) (o : Op) : Decidable (o.Asserted b) :=
  match o with
  | prepend _ | prependInt _ _ | retrieve _ | retrieveAsString _ | readInt _ | hasWritten _
  | readFd _ => Nat.decLe _ _
  | ensureWritableBytes _ | shrink _ => Nat.decLt _ _
  | retrieveUntil off => inferInstanceAs (Decidable (0 ≤ off ∧ off ≤ b.readableBytes))
  | append _ | retrieveAll | retrieveAllAsString | appendInt _ _ => .isTrue trivial

instance (b : Buffer) (o : Op) : Decidable (o.Fits b) :=
  match o with
  | ensureWritableBytes _ | shrink _ => Nat.decLe _ _
  | append _ | prepend _ | prependInt _ _ | retrieve _ | retrieveAsString _ | readInt _
  | hasWritten _ | readFd _ | retrieveUntil _ | retrieveAll | retrieveAllAsString
  | appendInt _ _ => .isTrue trivial

theorem length_act_le (l : List UInt8) (o : Op) : (o.act l).1.length ≤ l.length + o.added := by
  cases o with
  | append data | hasWritten data | readFd data => exact Nat.le_of_eq List.length_append
  | prepend data =>
    change (data ++ l).length ≤ l.length + data.length
    rw [List.length_append, Nat.add_comm]
  | appendInt w x =>
    change (l ++ w.toBytes x).length ≤ l.length + w.bytes
    rw [List.length_append, w.length_toBytes]
  | prependInt w x =>
    change (w.toBytes x ++ l).length ≤ l.length + w.bytes
    rw [List.length_append, w.length_toBytes, Nat.add_comm]
  | retrieve len | retrieveAsString len | retrieveUntil len | readInt len =>
    exact Nat.le_trans (Nat.le_of_eq List.length_drop) (Nat.sub_le _ _)
  | retrieveAll | retrieveAllAsString => exact Nat.zero_le _
  | ensureWritableBytes len | shrink reserve => exact Nat.le_refl _

/-- An integer at the front of the content is read back as it was written. -/
theorem act_readInt_toBytes (w : Width) (x : w.Value) (l : List UInt8) :
    (readInt w).act (w.toBytes x ++ l) = (l, .int w x) := by
  have hlen := w.length_toBytes x
  rw [act, List.drop_left' hlen, List.take_left' hlen, w.ofBytes_toBytes]

end Op

namespace Buffer

variable {b : Buffer} {l : List UInt8}

/-- A function that only changes the buffer, as a call. -/
theorem yields_void {m : Except BufferFault Buffer} {r : Result}
    (h : Yields .lengthError m fun b => b.Holds l) :
    Yields .lengthError (m >>= fun b => pure (b, r)) fun q => q.1.Holds l ∧ q.2 = r :=
  h.bind fun _ hb => .ok ⟨hb, rfl⟩

/-- Every call does to the content what it does to a byte list, and returns the same. -/
theorem Holds.perform (e : Endian) (h : b.Holds l) {o : Op} (ha : o.Asserted b) (hf : o.Fits b)
    (hsmall : l.length + o.added < 2 ^ 31) :
    Yields .lengthError (b.perform e o) fun q =>
      q.1.Holds (o.act l).1 ∧ q.2 = (o.act l).2 := by
  have hread := h.readableBytes_eq
  have hspace := h.writableBytes_eq
  have hmax : maxSize < 2 ^ 63 := by decide
  have hlt : o.added < 2 ^ 63 := by omega
  cases o with
  | append data => exact yields_void (h.append hlt)
  | prepend data => exact yields_void (.inl (h.prepend ha))
  | retrieve len => exact yields_void (.inl (h.retrieve (hread ▸ ha)))
  | retrieveUntil off =>
    exact yields_void (.inl (h.retrieveUntil ha.1 (hread ▸ ha.2)))
  | retrieveAll => exact .ok ⟨h.retrieveAll, rfl⟩
  | retrieveAsString len =>
    have hlen : len ≤ l.length := by
      rw [← hread]
      exact ha
    obtain ⟨b', hb', hdrop⟩ := h.retrieveAsString hlen
    rw [Buffer.perform, hb', ok_bind]
    exact .ok ⟨hdrop, rfl⟩
  | retrieveAllAsString =>
    obtain ⟨b', hb', hdrop⟩ := h.retrieveAsString (Nat.le_refl _)
    rw [List.take_length] at hb'
    rw [List.drop_length] at hdrop
    rw [Buffer.perform, retrieveAllAsString, hread, hb', ok_bind]
    exact .ok ⟨hdrop, rfl⟩
  | ensureWritableBytes len =>
    have hlen : len < 2 ^ 63 := Nat.lt_of_le_of_lt hf hmax
    exact yields_void ((h.ensureWritableBytes hlen).mono fun _ hb => hb.1)
  | hasWritten data =>
    have hroom : data.length ≤ b.buffer.length - b.writerIndex := by
      rw [← hspace]
      exact ha
    obtain ⟨b', hfill, hb'⟩ := h.fill_hasWritten hroom
    rw [Buffer.perform, hfill, ok_bind]
    exact .ok ⟨hb', rfl⟩
  | shrink reserve =>
    have hask : l.length + reserve < 2 ^ 63 := by
      rw [← hread]
      exact Nat.lt_of_le_of_lt hf hmax
    exact yields_void (h.shrink (Nat.lt_of_le_of_lt (Nat.le_add_right _ _) hsmall) hask)
  | appendInt w x =>
    rw [Buffer.perform, appendInt_eq]
    exact yields_void (h.append (w.length_toBytes x ▸ hlt))
  | prependInt w x =>
    rw [Buffer.perform, prependInt_eq]
    exact yields_void (.inl (h.prepend (w.length_toBytes x ▸ ha)))
  | readInt w =>
    have hw : w.bytes ≤ l.length := by
      rw [← hread]
      exact ha
    obtain ⟨b', hb', hdrop⟩ := h.readInt e hw
    rw [Buffer.perform, hb', ok_bind]
    exact .ok ⟨hdrop, rfl⟩
  | readFd data =>
    cases data with
    | none =>
      refine .ok ⟨?_, rfl⟩
      change b.Holds (l ++ [])
      rw [List.append_nil]
      exact h
    | some data => exact yields_void (h.readFd hlt)

end Buffer

/-- A call of the client: an operation on one of the buffers, or `swap` of two. -/
inductive Call
  | op (i : Nat) (o : Op)
  | swap (i j : Nat)

/-- The buffers of a client, with the calls so far and what they have returned. -/
structure BufferClient where
  buffers : Nat → Buffer
  calls : List Call
  results : List Result

namespace BufferClient

/-- Any number of new buffers. -/
def new : BufferClient := { buffers := fun _ => .new, calls := [], results := [] }

/-- The buffers and what is returned, once a call is made. -/
def call (e : Endian) (buffers : Nat → Buffer) :
    Call → Except BufferFault ((Nat → Buffer) × Result)
  | .op i o => do
    let (b, r) ← (buffers i).perform e o
    pure (Function.update buffers i b, r)
  | .swap i j =>
    let swapped := (buffers i).swap (buffers j)
    pure (Function.update (Function.update buffers i swapped.1) j swapped.2, .void)

def step (e : Endian) (s : BufferClient) (c : Call) : Option (Except BufferFault BufferClient) :=
  some do
    let (buffers, r) ← call e s.buffers c
    pure { buffers, calls := s.calls ++ [c], results := s.results ++ [r] }

/-- The call meets what the code asserts of it, and no content reaches `2 ^ 31` bytes. -/
def Allowed (s : BufferClient) : Call → Prop
  | .op i o => o.Asserted (s.buffers i) ∧ (s.buffers i).readableBytes + o.added < 2 ^ 31
  | .swap _ _ => True

/-- The call does not ask for more space than a vector can have. -/
def Fits (s : BufferClient) : Call → Prop
  | .op i o => o.Fits (s.buffers i)
  | .swap _ _ => True

instance (s : BufferClient) (c : Call) : Decidable (s.Allowed c) :=
  match c with
  | .op _ _ => inferInstanceAs (Decidable (_ ∧ _))
  | .swap _ _ => .isTrue trivial

instance (s : BufferClient) (c : Call) : Decidable (s.Fits c) :=
  match c with
  | .op i o => inferInstanceAs (Decidable (o.Fits (s.buffers i)))
  | .swap _ _ => .isTrue trivial

end BufferClient

/-- Byte lists, and what has been returned so far. -/
structure Lists where
  content : Nat → List UInt8
  results : List Result

/-- The call, on byte lists. -/
def Lists.act (a : Lists) : Call → Lists
  | .op i o =>
    { content := Function.update a.content i (o.act (a.content i)).1
      results := a.results ++ [(o.act (a.content i)).2] }
  | .swap i j =>
    { content := Function.update (Function.update a.content i (a.content j)) j (a.content i)
      results := a.results ++ [.void] }

/-- All calls, from empty lists on. -/
def replay (calls : List Call) : Lists :=
  calls.foldl Lists.act { content := fun _ => [], results := [] }

theorem replay_concat (calls : List Call) (c : Call) :
    replay (calls ++ [c]) = (replay calls).act c := by
  rw [replay, List.foldl_append]
  rfl

/-- The buffers of the client hold the lists that the same calls lead to. -/
structure Follows (buffers : Nat → Buffer) (content : Nat → List UInt8) : Prop where
  holds : ∀ i, (buffers i).Holds (content i)
  small : ∀ i, (content i).length < 2 ^ 31

theorem Follows.update {buffers : Nat → Buffer} {content : Nat → List UInt8}
    (h : Follows buffers content) (i : Nat) {b : Buffer} {l : List UInt8} (hb : b.Holds l)
    (hl : l.length < 2 ^ 31) :
    Follows (Function.update buffers i b) (Function.update content i l) := by
  constructor
  · intro k
    by_cases hk : k = i
    · subst hk
      rw [Function.update_self, Function.update_self]
      exact hb
    · rw [Function.update_of_ne hk, Function.update_of_ne hk]
      exact h.holds k
  · intro k
    by_cases hk : k = i
    · subst hk
      rw [Function.update_self]
      exact hl
    · rw [Function.update_of_ne hk]
      exact h.small k

/-- What one call does. -/
theorem Follows.call (e : Endian) {s : BufferClient} {a : Lists} (h : Follows s.buffers a.content)
    {c : Call} (ha : s.Allowed c) (hf : s.Fits c) :
    Yields .lengthError (BufferClient.call e s.buffers c) fun q =>
      Follows q.1 (a.act c).content ∧ a.results ++ [q.2] = (a.act c).results := by
  cases c with
  | op i o =>
    have hsmall : (a.content i).length + o.added < 2 ^ 31 := by
      rw [← (h.holds i).readableBytes_eq]
      exact ha.2
    apply ((h.holds i).perform e ha.1 hf hsmall).bind
    rintro ⟨b, r⟩ ⟨hb, hr⟩
    refine .ok ⟨h.update i hb ?_, ?_⟩
    · exact Nat.lt_of_le_of_lt (Op.length_act_le _ o) hsmall
    · exact congrArg (fun r => a.results ++ [r]) hr
  | swap i j =>
    refine .ok ⟨?_, rfl⟩
    exact (h.update i (h.holds j) (h.small j)).update j (h.holds i) (h.small i)

/-- The invariant of the runs: the buffers hold what the calls so far lead to. -/
structure BufferClient.Consistent (s : BufferClient) : Prop where
  follows : Follows s.buffers (replay s.calls).content
  results_eq : s.results = (replay s.calls).results

theorem BufferClient.consistent_new : BufferClient.new.Consistent where
  follows := ⟨fun _ => Buffer.holds_new, fun _ => Nat.two_pow_pos 31⟩
  results_eq := rfl

theorem BufferClient.Consistent.step (e : Endian) {s : BufferClient} (h : s.Consistent) {c : Call}
    (ha : s.Allowed c) (hf : s.Fits c) {m : Except BufferFault BufferClient}
    (hm : s.step e c = some m) : Yields .lengthError m fun t => t.Consistent := by
  cases hm
  apply (h.follows.call e ha hf).bind
  rintro ⟨buffers, r⟩ ⟨hfollows, hresults⟩
  rw [← replay_concat] at hfollows hresults
  exact .ok ⟨hfollows, by rw [h.results_eq]; exact hresults⟩

/-- In every run of calls that meet what the code asserts and that ask for no more space than a
vector can have, no assertion fails and nothing outside a vector is touched; the positions stay in
order, and contents and results are those of the same calls on byte lists, where an integer is
read back as it was written. -/
theorem buffers_act_as_byte_lists (e : Endian) {p : Except BufferFault BufferClient}
    (h : Run (BufferClient.step e) (fun s c => s.Allowed c ∧ s.Fits c) (· = BufferClient.new) p) :
    (∀ f, p = .error f → f = .lengthError) ∧
    (∀ s, p = .ok s →
      (∀ i, (s.buffers i).readerIndex ≤ (s.buffers i).writerIndex ∧
        (s.buffers i).writerIndex ≤ (s.buffers i).buffer.length) ∧
      { content := fun i => (s.buffers i).content, results := s.results } = replay s.calls) ∧
    ∀ (w : Width) (x : w.Value) (l : List UInt8),
      (Op.readInt w).act (w.toBytes x ++ l) = (l, .int w x) := by
  have hrun : Yields .lengthError p BufferClient.Consistent := by
    refine h.yields ?_ ?_
    · rintro s rfl
      exact BufferClient.consistent_new
    · rintro s c m hs ⟨ha, hf⟩ hm
      exact hs.step e ha hf hm
  refine ⟨fun f hf => hrun.eq_of_eq_error hf, ?_, Op.act_readInt_toBytes⟩
  intro s hs
  have hcons := hrun.of_eq_ok hs
  refine ⟨fun i => ⟨(hcons.follows.holds i).reader_le, (hcons.follows.holds i).writer_le⟩, ?_⟩
  have hcontent : (fun i => (s.buffers i).content) = (replay s.calls).content := by
    funext i
    exact (hcons.follows.holds i).content_eq
  rw [hcontent, hcons.results_eq]

theorem buffers_act_as_byte_lists_example :
    ∃ s, Run (BufferClient.step .little) (fun s c => s.Allowed c ∧ s.Fits c)
        (· = BufferClient.new) (.ok s) ∧
      (s.buffers 1).content = [3] ∧
      { content := fun i => (s.buffers i).content, results := s.results } = replay s.calls := by
  have hex : seen (exec (faulting (restrict (fun s c => s.Allowed c ∧ s.Fits c)
      (BufferClient.step .little))) (.ok BufferClient.new)
      [.op 0 (.append [3]), .op 0 (.ensureWritableBytes 2000),
        .op 0 (.prependInt .int16 (BitVec.ofInt 16 (-2))), .swap 0 1, .op 1 (.readInt .int16)])
      (fun s => (s.buffers 1).content = [3]) = true := by
    decide +kernel
  obtain ⟨s, hs, hcheck⟩ := exists_of_seen hex
  have hstart : Run (BufferClient.step .little) (fun s c => s.Allowed c ∧ s.Fits c)
      (· = BufferClient.new) (.ok BufferClient.new) := Run.start rfl
  have hrun := hstart.exec _ hs
  exact ⟨s, hrun, of_decide_eq_true hcheck,
    ((buffers_act_as_byte_lists .little hrun).2.1 s rfl).2⟩

/-- A request near `2 ^ 64` meets all that is asserted of it. The sum with `kCheapPrepend` wraps
round, so that the content of a new buffer is to be moved and the assertion of `makeSpace` fails;
on a full buffer the new size wraps round, and the vector is cut off before the writer's
position. -/
theorem ensureWritableBytes_wraps :
    Run (BufferClient.step .little) BufferClient.Allowed (· = BufferClient.new)
        (.error .makeSpace) ∧
      ∃ s, Run (BufferClient.step .little) BufferClient.Allowed (· = BufferClient.new) (.ok s) ∧
        (s.buffers 0).buffer.length < (s.buffers 0).writerIndex := by
  have hstart : Run (BufferClient.step .little) BufferClient.Allowed (· = BufferClient.new)
      (.ok BufferClient.new) := Run.start rfl
  constructor
  · have hfail : faultOf
        (exec (faulting (restrict BufferClient.Allowed (BufferClient.step .little)))
        (.ok BufferClient.new) [.op 0 (.ensureWritableBytes (2 ^ 64 - 1))]) = some .makeSpace := by
      decide +kernel
    exact hstart.exec _ (eq_error_of_faultOf hfail)
  · have hex : seen (exec (faulting (restrict BufferClient.Allowed (BufferClient.step .little)))
        (.ok BufferClient.new) [.op 0 (.append (List.replicate 1024 0)),
          .op 0 (.ensureWritableBytes (2 ^ 64 - 1000))])
        (fun s => (s.buffers 0).buffer.length < (s.buffers 0).writerIndex) = true := by
      decide +kernel
    obtain ⟨s, hs, hcheck⟩ := exists_of_seen hex
    exact ⟨s, hstart.exec _ hs, of_decide_eq_true hcheck⟩

end DbdkyGcc.Tcp
