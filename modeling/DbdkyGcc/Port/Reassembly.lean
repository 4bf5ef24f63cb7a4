import DbdkyGcc.Foundations.Framing
import DbdkyGcc.Codec.Replies
import DbdkyGcc.Port.Safety

/-!
# From chunks of bytes to stored records

With one codec on the line and an empty buffer to begin with, the receiving loop is the
reader of `Foundations.Framing`: it holds what is shorter than a reply and drops all it
holds when it has decoded one. So a stream of replies is stored reply by reply exactly when
no read reaches past the end of a reply.
-/

namespace DbdkyGcc.Port

open Foundations Codec

variable {F : Type}

/-- The whole replies a slave can send to a codec. -/
def ValidReply (kind : CodecKind) (f : List UInt8) : Prop :=
  ∃ id regs, regs.length = kind.registers.2 ∧ f = Modbus.reply id regs

/-- A buffer with the given bytes and zeros behind them. -/
def bufferOf (bytes : List UInt8) : Buffer := storeAt (fun _ => 0) 0 bytes

/-- What is stored of bytes that are long enough for the codec. -/
def decodeHeld (rt : CRuntime F) (kind : CodecKind) (c : CodecState F) (stack : Buffer)
    (bytes : List UInt8) : Except Fault (List StoreCall) := do
  let (retcode, out) ← kind.parser rt c stack (bufferOf bytes) bytes.length .unwritten
  if retcode = parseSuccess then storeCalls out else .ok []

theorem decodeHeld_of_ok {rt : CRuntime F} {kind : CodecKind} {c : CodecState F} {stack : Buffer}
    {bytes : List UInt8} {retcode : Int} {out : DbInsertDatatype}
    (h : kind.parser rt c stack (bufferOf bytes) bytes.length .unwritten = .ok (retcode, out)) :
    decodeHeld rt kind c stack bytes =
      if retcode = parseSuccess then storeCalls out else .ok [] := by
  rw [decodeHeld, h]
  rfl

/-- The call that a reply is to lead to. -/
def replyCall (rt : CRuntime F) (kind : CodecKind) (c : CodecState F) (f : List UInt8) :
    StoreCall :=
  storeCall c.lnInst (kind.items rt c (kind.copied (fun _ => 0) (bufferOf f)))

/-- The loop holds exactly these bytes. -/
structure Holds (s : ListenState) (held : List UInt8) : Prop where
  readBuf : s.readBuf = bufferOf held
  n : s.n = held.length

theorem Empty.holds {s : ListenState} (h : Empty s) : Holds s [] := by
  refine ⟨h.readBuf.trans ?_, h.n⟩
  funext i
  simp [bufferOf, storeAt]

theorem Holds.receive {s : ListenState} {held : List UInt8} (h : Holds s held)
    {bytes : List UInt8} (hfit : held.length + bytes.length ≤ readBufSize) :
    ∃ s', s.receive bytes = .ok s' ∧ Holds s' (held ++ bytes) := by
  refine ⟨_, by rw [ListenState.receive, if_pos (by rw [h.n]; omega)], ?_, ?_⟩
  · show storeAt s.readBuf s.n.toNat bytes = _
    rw [h.readBuf, h.n, Int.toNat_natCast, bufferOf, storeAt_append, bufferOf]
  · show s.n + bytes.length = _
    rw [h.n, List.length_append, Nat.cast_add]

theorem reject_short_iff (kind : CodecKind) (buffer : Buffer) (len : Int) :
    kind.reject buffer len = some parseErrorLengthShort ↔ len < kind.frameLength := by
  cases kind
  · simp only [CodecKind.reject, CodecZSAR.reject, CodecKind.frameLength]
    grind [parseErrorLengthShort, parseErrorOther]
  · simp only [CodecKind.reject, CodecMMXN.reject, CodecKind.frameLength]
    grind [parseErrorLengthShort, parseErrorOther]

theorem Holds.parse_short (rt : CRuntime F) {kind : CodecKind} (c : CodecState F) (stack : Buffer)
    {s : ListenState} {held : List UInt8} (h : Holds s held) (hlt : held.length < kind.frameLength) :
    s.parse (some (kind.parser rt c stack)) = .ok (s, []) := by
  have hrej := (reject_short_iff kind s.readBuf s.n).mpr (by rw [h.n]; omega)
  obtain ⟨code, hcode, hp⟩ | ⟨hnone, -⟩ := kind.parser_cases rt c stack s.readBuf s.n .unwritten
  · obtain rfl : parseErrorLengthShort = code := Option.some.inj (hrej.symm.trans hcode)
    rw [parse_of_ok hp]
    rfl
  · rw [hrej] at hnone
    cases hnone

theorem Holds.parse_long (rt : CRuntime F) {kind : CodecKind} (c : CodecState F) (stack : Buffer)
    {s : ListenState} {held : List UInt8} (h : Holds s held) (hge : kind.frameLength ≤ held.length) :
    s.parse (some (kind.parser rt c stack)) =
      decodeHeld rt kind c stack held >>= fun calls => .ok (.reset, calls) := by
  have hrej : kind.reject s.readBuf s.n ≠ some parseErrorLengthShort := by
    rw [Ne, reject_short_iff, h.n]
    omega
  have hparser : kind.parser rt c stack s.readBuf s.n .unwritten =
      kind.parser rt c stack (bufferOf held) held.length .unwritten := by rw [h.readBuf, h.n]
  rw [decodeHeld]
  cases hp : kind.parser rt c stack s.readBuf s.n .unwritten with
  | error e =>
    rw [parse_of_error hp, ← hparser, hp]
    rfl
  | ok r =>
    obtain ⟨retcode, out⟩ := r
    rw [parse_of_ok hp, ← hparser, hp]
    have hne : retcode ≠ parseErrorLengthShort := by
      rintro rfl
      obtain ⟨code, hcode, hp'⟩ | ⟨-, hp' | hp' | hp'⟩ :=
        kind.parser_cases rt c stack s.readBuf s.n .unwritten
      all_goals rw [hp] at hp'; cases hp'
      exact hrej hcode
    simp only [if_neg hne, bind, Except.bind]
    split <;> rfl

/-- One turn of the loop feeds one chunk. -/
theorem Holds.listenTurn (rt : CRuntime F) {kind : CodecKind} {c : CodecState F} {s : ListenState}
    {held : List UInt8} (h : Holds s held) (hheld : held.length < kind.frameLength) {t : PortTurn F}
    (hbytes : t.bytes ≠ []) (hcodec : t.codec = some ⟨kind, c⟩) :
    (∀ e, Framing.feed kind.frameLength readBufSize .readOverflow (decodeHeld rt kind c) held
        (t.stack, t.bytes) = .error e → Port.listenTurn s (t.turn rt) = .error e) ∧
    ∀ held' calls, Framing.feed kind.frameLength readBufSize .readOverflow (decodeHeld rt kind c)
        held (t.stack, t.bytes) = .ok (held', calls) →
      ∃ s', Port.listenTurn s (t.turn rt) = .ok (s', calls) ∧ Holds s' held' ∧
        held'.length < kind.frameLength := by
  have hturn : Port.listenTurn s (t.turn rt) =
      s.receive t.bytes >>= fun s => s.parse (some (kind.parser rt c t.stack)) := by
    rw [Port.listenTurn, if_neg (show (t.turn rt).bytes ≠ [] from hbytes), PortTurn.turn, hcodec]
    rfl
  rw [hturn]
  by_cases hfit : readBufSize < held.length + t.bytes.length
  · have hrec : s.receive t.bytes = .error .readOverflow := by
      rw [ListenState.receive, if_neg (by rw [h.n]; omega)]
    simp only [Framing.feed, if_pos hfit, hrec]
    constructor
    · intro e he
      cases he
      rfl
    · intro held' calls hfeed
      cases hfeed
  · obtain ⟨s₁, hrec, hs₁⟩ := h.receive (by omega : held.length + t.bytes.length ≤ readBufSize)
    simp only [Framing.feed, if_neg hfit, hrec, bind, Except.bind]
    by_cases hlt : held.length + t.bytes.length < kind.frameLength
    · rw [if_pos hlt, hs₁.parse_short rt c t.stack (by simpa using hlt)]
      constructor
      · intro e he
        cases he
      · intro held' calls hfeed
        cases hfeed
        exact ⟨s₁, rfl, hs₁, by simpa using hlt⟩
    · rw [if_neg hlt, hs₁.parse_long rt c t.stack (by simpa using hlt)]
      cases decodeHeld rt kind c t.stack (held ++ t.bytes) with
      | error e =>
        constructor
        · intro e he
          cases he
          rfl
        · intro held' calls hfeed
          cases hfeed
      | ok calls =>
        constructor
        · intro e he
          cases he
        · intro held' calls' hfeed
          cases hfeed
          exact ⟨.reset, rfl, Empty.holds ⟨rfl, rfl, rfl⟩, lt_of_le_of_lt (Nat.zero_le _) hheld⟩

/-- A run of the loop feeds all chunks. -/
theorem Holds.listenRun (rt : CRuntime F) {kind : CodecKind} {c : CodecState F}
    (ts : List (PortTurn F)) (hts : ∀ t ∈ ts, t.bytes ≠ [] ∧ t.codec = some ⟨kind, c⟩)
    {s : ListenState} {held : List UInt8} (h : Holds s held)
    (hheld : held.length < kind.frameLength) (calls : List StoreCall) :
    (∃ s', Port.listenRun s (ts.map (PortTurn.turn rt)) = .ok (s', calls)) ↔
      ∃ last, Framing.feedAll kind.frameLength readBufSize .readOverflow (decodeHeld rt kind c) held
        (ts.map fun t => (t.stack, t.bytes)) = .ok (last, calls) := by
  induction ts generalizing s held calls with
  | nil => simp [Port.listenRun, Framing.feedAll]
  | cons t ts ih =>
    obtain ⟨hbytes, hcodec⟩ := hts t (by simp)
    obtain ⟨herror, hok⟩ := h.listenTurn rt hheld hbytes hcodec
    simp only [List.map_cons, Port.listenRun, Framing.feedAll]
    cases hfeed : Framing.feed kind.frameLength readBufSize .readOverflow (decodeHeld rt kind c) held
        (t.stack, t.bytes) with
    | error e => simp [herror e hfeed, bind, Except.bind]
    | ok r =>
      obtain ⟨held', now⟩ := r
      obtain ⟨s', hturn, hs', hheld'⟩ := hok held' now hfeed
      have hrest := ih (fun u hu => hts u (by simp [hu])) hs' hheld'
      simp only [hturn, bind_eq_ok_iff, Prod.exists, Except.ok.injEq, Prod.mk.injEq]
      constructor
      · rintro ⟨_, _, _, ⟨rfl, rfl⟩, s₂, later, hrun, -, rfl⟩
        obtain ⟨last, hlast⟩ := (hrest later).mp ⟨s₂, hrun⟩
        exact ⟨last, by rw [hlast]⟩
      · rintro ⟨last, hfeedAll⟩
        split at hfeedAll
        · cases hfeedAll
        · next _ later hlast =>
          cases hfeedAll
          obtain ⟨s₂, hrun⟩ := (hrest later).mpr ⟨_, hlast⟩
          exact ⟨s₂, s', now, ⟨rfl, rfl⟩, s₂, later, hrun, rfl, rfl⟩

theorem ValidReply.length {kind : CodecKind} {f : List UInt8} (h : ValidReply kind f) :
    f.length = kind.frameLength := by
  obtain ⟨id, regs, hlen, rfl⟩ := h
  rw [Modbus.reply_length, hlen]
  cases kind <;> rfl

/-- A whole reply is not rejected, and its copy is safe. -/
theorem ValidReply.reject {kind : CodecKind} {f : List UInt8} (h : ValidReply kind f) :
    kind.reject (bufferOf f) f.length = none ∧ kind.CopySafe (bufferOf f) f.length := by
  have hflen := h.length
  have hbytes : bytesAt (bufferOf f) kind.frameLength = f := by
    rw [← hflen]
    exact bytesAt_storeAt _ _
  obtain ⟨id, regs, hlen, rfl⟩ := h
  rw [hflen]
  cases kind
  · obtain ⟨hrej, hcount⟩ := CodecZSAR.reject_reply hlen hbytes
    refine ⟨hrej, (CodecKind.copySafe_iff .zsar hrej).mpr ?_⟩
    have : CodecKind.zsar.length (bufferOf (Modbus.reply id regs)) - 2 = (18 : Int) := hcount
    simp only [CodecKind.minLength]
    omega
  · obtain ⟨hrej, hcount⟩ := CodecMMXN.reject_reply hlen hbytes
    refine ⟨hrej, (CodecKind.copySafe_iff .mmxn hrej).mpr ?_⟩
    have : CodecKind.mmxn.length (bufferOf (Modbus.reply id regs)) = (16 : Int) := hcount
    simp only [CodecKind.minLength]
    omega

theorem ValidReply.decodeHeld_stack (rt : CRuntime F) {kind : CodecKind} (c : CodecState F)
    {f : List UInt8} (h : ValidReply kind f) (stack stack' : Buffer) :
    decodeHeld rt kind c stack f = decodeHeld rt kind c stack' f := by
  unfold decodeHeld
  rw [kind.parser_congr_of_copySafe rt c (fun _ => h.reject.2) (fun _ _ => rfl) stack stack']

/-- What was stored has fitted. -/
theorem ValidReply.printable_of_ok {rt : CRuntime F} {kind : CodecKind} {c : CodecState F}
    {f : List UInt8} (h : ValidReply kind f) {calls : List StoreCall}
    (hok : decodeHeld rt kind c (fun _ => 0) f = .ok calls) :
    kind.Printable rt c (kind.copied (fun _ => 0) (bufferOf f)) := by
  obtain ⟨r, hr, -⟩ := bind_eq_ok_iff.mp hok
  exact ((kind.parser_guarded rt c (fun _ => 0) h.reject.1 .unwritten).returns_iff.mp ⟨r, hr⟩).2

/-- A reply is stored when its texts fit. -/
theorem ValidReply.decodeHeld_eq_ok_iff (rt : CRuntime F) {kind : CodecKind} (c : CodecState F)
    {f : List UInt8} (h : ValidReply kind f) :
    decodeHeld rt kind c (fun _ => 0) f = .ok [replyCall rt kind c f] ↔
      kind.Printable rt c (kind.copied (fun _ => 0) (bufferOf f)) := by
  refine ⟨h.printable_of_ok, fun hprint => ?_⟩
  obtain ⟨hrej, hsafe⟩ := h.reject
  have hg := kind.parser_guarded rt c (fun _ => 0) hrej .unwritten
  rw [decodeHeld_of_ok (hg.1 ⟨⟨hsafe.nonneg, hsafe.fits⟩, hprint⟩), if_pos rfl,
    storeCalls_filled _ _ _ (kind.items_length_le rt c _), replyCall]

/-- A reply that is stored is stored by one call. -/
theorem ValidReply.eq_replyCall_of_ok {rt : CRuntime F} {kind : CodecKind} {c : CodecState F}
    {f : List UInt8} (h : ValidReply kind f) {stack : Buffer} {calls : List StoreCall}
    (hok : decodeHeld rt kind c stack f = .ok calls) : calls = [replyCall rt kind c f] := by
  rw [h.decodeHeld_stack rt c stack fun _ => 0] at hok
  rw [(h.decodeHeld_eq_ok_iff rt c).mpr (h.printable_of_ok hok)] at hok
  exact (Except.ok.inj hok).symm

/-- A parser call stores at most one record. -/
theorem decodeHeld_length (rt : CRuntime F) {kind : CodecKind} (c : CodecState F) (stack : Buffer)
    {f : List UInt8} {calls : List StoreCall} (h : decodeHeld rt kind c stack f = .ok calls) :
    calls.length ≤ 1 := by
  obtain ⟨code, hcode, hp⟩ | ⟨-, hp | hp | hp⟩ :=
    kind.parser_cases rt c stack (bufferOf f) f.length .unwritten
  · rw [decodeHeld_of_ok hp] at h
    split at h <;> cases h
    simp
  · rw [decodeHeld, hp] at h
    cases h
  · rw [decodeHeld_of_ok hp, if_pos rfl,
      storeCalls_filled _ _ _ (kind.items_length_le rt c _)] at h
    cases h
    simp
  · rw [decodeHeld, hp] at h
    cases h

/-- The loop stores one record per reply, in order, exactly when no read reaches past the
end of a reply and the texts of all records fit. -/
theorem listen_stores_replies_iff (rt : CRuntime F) (kind : CodecKind) (c : CodecState F)
    (frames : List (List UInt8)) (hframes : ∀ f ∈ frames, ValidReply kind f)
    (ts : List (PortTurn F)) (hts : ∀ t ∈ ts, t.bytes ≠ [] ∧ t.codec = some ⟨kind, c⟩)
    (hcut : (ts.map PortTurn.bytes).flatten = frames.flatten) (s : ListenState) (hs : Empty s) :
    (∃ s', listenRun s (ts.map (PortTurn.turn rt)) =
        .ok (s', frames.map (replyCall rt kind c))) ↔
      Framing.Aligned kind.frameLength 0 (ts.map PortTurn.bytes) ∧
        ∀ f ∈ frames, kind.Printable rt c (kind.copied (fun _ => 0) (bufferOf f)) := by
  have hpos : 0 < kind.frameLength := by cases kind <;> decide
  have hchunks : (ts.map fun t => (t.stack, t.bytes)).map Prod.snd = ts.map PortTurn.bytes := by
    rw [List.map_map]
    rfl
  rw [hs.holds.listenRun rt ts hts hpos, Framing.feedAll_iff_aligned hpos
    (by cases kind <;> decide) (fun stack f out h => decodeHeld_length rt c stack h) frames _
    (fun f hf => (hframes f hf).length)
    (fun f hf stack => (hframes f hf).decodeHeld_stack rt c stack fun _ => 0)
    (by rw [hchunks]; exact hcut), hchunks]
  exact and_congr_right' (forall₂_congr fun f hf => (hframes f hf).decodeHeld_eq_ok_iff rt c)

/-- A reply of device 2 with 30 in every register. -/
def thirties : List UInt8 := Modbus.reply 2 (List.replicate 10 30)

/-- A read on a line with one ZSAR device. -/
def zsarRead (bytes : List UInt8) (h : bytes.length ≤ readBufSize) : PortTurn ℤ where
  bytes := bytes
  asked := h
  codec := some ⟨.zsar, ⟨"ZSAR1", ∅⟩⟩
  stack := fun _ => 0

/-- A reply cut into two reads is stored once. -/
theorem listen_stores_reply_cut_in_two :
    ∃ s', listenRun .reset ([zsarRead (thirties.take 10) (by decide +kernel),
        zsarRead (thirties.drop 10) (by decide +kernel)].map (PortTurn.turn CRuntime.whole)) =
      .ok (s', [thirties].map (replyCall CRuntime.whole .zsar ⟨"ZSAR1", ∅⟩)) := by
  refine (listen_stores_replies_iff CRuntime.whole .zsar ⟨"ZSAR1", ∅⟩ [thirties] ?_ _ ?_ ?_ .reset
    ⟨rfl, rfl, rfl⟩).mpr ⟨by decide +kernel, ?_⟩
  · exact List.forall_mem_singleton.mpr ⟨2, List.replicate 10 30, rfl, rfl⟩
  · refine List.forall_mem_cons.mpr ⟨⟨by decide +kernel, rfl⟩, ?_⟩
    exact List.forall_mem_singleton.mpr ⟨by decide +kernel, rfl⟩
  · decide +kernel
  · refine List.forall_mem_singleton.mpr ?_
    show _ ∧ _ ∧ _
    decide +kernel

/-- Of two replies in one read only the first is stored. -/
theorem listen_drops_second_reply :
    ¬ ∃ s', listenRun .reset ([zsarRead (thirties ++ thirties) (by decide +kernel)].map
        (PortTurn.turn CRuntime.whole)) =
      .ok (s', [thirties, thirties].map (replyCall CRuntime.whole .zsar ⟨"ZSAR1", ∅⟩)) := by
  rintro ⟨s', h⟩
  have hone : ((listenRun .reset ([zsarRead (thirties ++ thirties) (by decide +kernel)].map
      (PortTurn.turn CRuntime.whole))).toOption.map fun r => r.2.length) = some 1 := by
    decide +kernel
  rw [h] at hone
  cases hone

end DbdkyGcc.Port
