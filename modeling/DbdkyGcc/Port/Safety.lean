import DbdkyGcc.Port.Listen

/-!
# What the receiving loop may touch

Two ways in which the loop leaves its memory. It asks for 256 bytes wherever `n` stands,
so every partial frame opens a read behind the buffer, and `n` itself has no initial
value. And a parser that answers with the success code without filling the record makes
the loop pass on what was never written.
-/

namespace DbdkyGcc.Port

open Foundations Codec

variable {F : Type}

/-- The bytes that `read` may store from `read_buf + n` on lie inside the buffer. -/
def InBuffer (s : ListenState) : Prop :=
  0 ≤ s.n ∧ s.n + readBufSize ≤ readBufSize

/-- At every call of `read` the request stays inside the buffer, and at every call of a
parser `n` is at most the number of bytes received since the last reset. -/
def ReadsInBuffer (n : Int) (ts : List Turn) : Prop :=
  ∀ pre s calls, pre <+: ts → listenRun (.entry n) pre = .ok (s, calls) → InBuffer s ∧
    ∀ t s', pre ++ [t] <+: ts → t.bytes ≠ [] → s.receive t.bytes = .ok s' → s'.n ≤ s'.received

/-- The same, and `n` has been given a value before it is used. -/
def ListenSafe (env : Loader) (n : Int) (ts : List Turn) : Prop :=
  env.entersLoop = true → ReadsInBuffer n ts ∧
    ∀ pre s calls, pre <+: ts → listenRun (.entry n) pre = .ok (s, calls) → s.assigned = true

/-- The buffer holds nothing. -/
structure Empty (s : ListenState) : Prop where
  readBuf : s.readBuf = fun _ => 0
  n : s.n = 0
  received : s.received = 0

/-- The codec calls the bytes of one read, alone in the buffer, too short. -/
def TooShort (t : Turn) : Prop :=
  t.bytes ≠ [] ∧ AnswersShort t.codec (storeAt (fun _ => 0) 0 t.bytes) t.bytes.length

/-- The bytes of one read, alone in the buffer. -/
def Turn.held (t : Turn) (assigned : Bool) : ListenState where
  readBuf := storeAt (fun _ => 0) 0 t.bytes
  n := t.bytes.length
  assigned := assigned
  received := t.bytes.length

theorem Empty.receive {s : ListenState} (h : Empty s) (t : Turn) :
    s.receive t.bytes = .ok (t.held s.assigned) := by
  have hasked := t.asked
  rw [ListenState.receive, if_pos (by rw [h.n]; omega), h.readBuf, h.n, h.received]
  simp [Turn.held]

/-- From the empty buffer a turn ends with the empty buffer again, unless the codec finds
the bytes too short. -/
theorem Empty.listenTurn {s s' : ListenState} (h : Empty s) {t : Turn} {calls : List StoreCall}
    (ht : listenTurn s t = .ok (s', calls)) :
    (¬ TooShort t ∧ Empty s') ∨ (TooShort t ∧ 0 < s'.n) := by
  rw [Port.listenTurn] at ht
  split at ht
  · next hnil =>
    cases ht
    exact .inl ⟨fun hs => hs.1 hnil, h⟩
  · next hbytes =>
    rw [h.receive t] at ht
    have hpos := List.length_pos_of_ne_nil hbytes
    obtain ⟨rfl, hlong, -⟩ | ⟨rfl, -, hshort⟩ := parse_cases ht
    · exact .inl ⟨fun hs => hlong hs.2, rfl, rfl, rfl⟩
    · exact .inr ⟨⟨hbytes, hshort⟩, by simpa [Turn.held] using hpos⟩

theorem Empty.inBuffer {s : ListenState} (h : Empty s) : InBuffer s := by
  rw [InBuffer, h.n]
  omega

/-- Bytes that are too short stay in the buffer. -/
theorem Empty.listenTurn_tooShort {s : ListenState} (h : Empty s) {t : Turn} (ht : TooShort t) :
    ∃ s', Port.listenTurn s t = .ok (s', []) ∧ 0 < s'.n := by
  obtain ⟨hbytes, parser, out, hcodec, hp⟩ := ht
  have hpos := List.length_pos_of_ne_nil hbytes
  refine ⟨t.held s.assigned, ?_, by simpa [Turn.held] using hpos⟩
  rw [Port.listenTurn, if_neg hbytes, h.receive t]
  simp only [bind, Except.bind, ListenState.parse, hcodec, Turn.held, hp]
  rfl

/-- As long as nothing that is too short stays, every turn begins with the empty buffer. -/
theorem empty_of_listenRun {ts : List Turn}
    (hkeep : ∀ pre s calls t, pre ++ [t] <+: ts → listenRun (.entry 0) (pre ++ [t]) = .ok (s, calls) →
      ¬ (TooShort t ∧ 0 < s.n)) :
    ∀ pre s calls, pre <+: ts → listenRun (.entry 0) pre = .ok (s, calls) → Empty s := by
  intro pre
  induction pre using List.reverseRecOn with
  | nil =>
    intro s calls _ hrun
    cases hrun
    exact ⟨rfl, rfl, rfl⟩
  | append_singleton pre t ih =>
    intro s calls hpre hrun
    obtain ⟨s₁, before, now, hbefore, ht, -⟩ := listenRun_concat_ok.mp hrun
    have hs₁ := ih s₁ before ((List.prefix_append pre [t]).trans hpre) hbefore
    obtain ⟨-, hs⟩ | hshort := hs₁.listenTurn ht
    · exact hs
    · exact absurd hshort (hkeep pre s calls t hpre hrun)

/-- For a given first value of `n`, the reads stay in the buffer exactly when that value is
zero and no read that takes place brings too little. -/
theorem readsInBuffer_iff (n : Int) (ts : List Turn) :
    ReadsInBuffer n ts ↔ n = 0 ∧ ∀ pre t s calls, pre ++ [t] <+: ts →
      listenRun (.entry 0) pre = .ok (s, calls) → ¬ TooShort t := by
  constructor
  · intro h
    obtain ⟨⟨h0, h1⟩, -⟩ := h [] (.entry n) [] List.nil_prefix rfl
    obtain rfl : n = 0 := by
      simp only [ListenState.entry] at h0 h1
      omega
    have hkeep : ∀ pre s calls t, pre ++ [t] <+: ts →
        listenRun (.entry 0) (pre ++ [t]) = .ok (s, calls) → ¬ (TooShort t ∧ 0 < s.n) := by
      rintro pre s calls t hpre hrun ⟨-, hpos⟩
      obtain ⟨⟨-, hle⟩, -⟩ := h (pre ++ [t]) s calls hpre hrun
      omega
    refine ⟨rfl, fun pre t s calls hpre hrun hshort => ?_⟩
    have hs := empty_of_listenRun hkeep pre s calls ((List.prefix_append pre [t]).trans hpre) hrun
    obtain ⟨s', ht, hpos⟩ := hs.listenTurn_tooShort hshort
    exact hkeep pre s' _ t hpre (listenRun_concat_ok.mpr ⟨s, calls, [], hrun, ht, rfl⟩)
      ⟨hshort, hpos⟩
  · rintro ⟨rfl, hlong⟩ pre s calls hpre hrun
    have hs : Empty s := by
      refine empty_of_listenRun (fun pre s calls t hpre hrun hkept => ?_) pre s calls hpre hrun
      obtain ⟨s₁, before, _, hbefore, -, -⟩ := listenRun_concat_ok.mp hrun
      exact hlong pre t s₁ before hpre hbefore hkept.1
    refine ⟨hs.inBuffer, fun t s' _ _ hrec => ?_⟩
    rw [hs.receive t] at hrec
    cases hrec
    exact le_refl _

/-- A loop that is entered uses `n` before it has a value. Whatever that value is, the reads
stay in the buffer exactly when it is zero and no read that takes place brings too little
for the codec. -/
theorem listen_reads_safe_iff (env : Loader) (n : Int) (ts : List Turn) :
    (ListenSafe env n ts ↔ env.entersLoop = false) ∧
    (ReadsInBuffer n ts ↔ n = 0 ∧
      ∀ pre t s calls, pre ++ [t] <+: ts → listenRun (.entry 0) pre = .ok (s, calls) →
        ¬ TooShort t) := by
  refine ⟨⟨fun h => ?_, fun h henter => ?_⟩, readsInBuffer_iff n ts⟩
  · by_contra henter
    obtain ⟨-, hassigned⟩ := h (by simpa using henter)
    exact absurd (hassigned [] (.entry n) [] List.nil_prefix rfl) Bool.false_ne_true
  · rw [h] at henter
    cases henter

/-- Ten bytes of a reply of 25. -/
def partialReply : Turn where
  bytes := [2, 4, 20, 0, 0, 0, 0, 0, 0, 0]
  asked := by decide
  codec := some (CodecKind.zsar.parser CRuntime.whole ⟨"ZSAR1", ∅⟩ fun _ => 0)

/-- The entry point of the data base is there. -/
def Loader.loaded : Loader where
  storeDataPtr := true
  abspath := ""
  dlopen := fun _ => false
  dlsym := fun _ => false

/-- Behind ten bytes of a reply the loop asks for 256 more. -/
theorem partial_reply_reads_behind_buffer :
    ¬ ListenSafe .loaded 0 [partialReply] ∧ ¬ ReadsInBuffer 0 [partialReply] := by
  have hreads : ¬ ReadsInBuffer 0 [partialReply] := by
    rw [readsInBuffer_iff]
    rintro ⟨-, hlong⟩
    exact hlong [] partialReply (.entry 0) [] (List.prefix_refl _) rfl
      ⟨by decide, _, .unwritten, rfl, rfl⟩
  exact ⟨fun h => hreads (h rfl).1, hreads⟩

/-- The return code says what happened to the record: complete on success, untouched
otherwise. -/
def CodeTellsRecord (rt : CRuntime F) (kind : CodecKind) (c : CodecState F)
    (stack buffer : Buffer) (len : Int) : Prop :=
  ∀ out code out', kind.parser rt c stack buffer len out = .ok (code, out') →
    (code = parseSuccess → out'.Complete) ∧ (code ≠ parseSuccess → out' = out)

/-- The buffers on which `CodecMMXN::parser` leaves through `return 0`. -/
def LeavesByZero (kind : CodecKind) (buffer : Buffer) (len : Int) : Prop :=
  kind = .mmxn ∧ 21 ≤ len ∧ crcMatches buffer 19 = true ∧ 128 < kind.length buffer

theorem reject_eq_success_iff (kind : CodecKind) (buffer : Buffer) (len : Int) :
    kind.reject buffer len = some parseSuccess ↔ LeavesByZero kind buffer len := by
  cases kind
  · simp only [CodecKind.reject, CodecZSAR.reject, LeavesByZero]
    grind [parseSuccess, parseErrorLengthShort, parseErrorOther]
  · simp only [CodecKind.reject, CodecMMXN.reject, LeavesByZero, CodecKind.length]
    grind [parseSuccess, parseErrorLengthShort, parseErrorOther]

theorem codeTellsRecord_iff (rt : CRuntime F) (kind : CodecKind) (c : CodecState F)
    (stack buffer : Buffer) (len : Int) :
    CodeTellsRecord rt kind c stack buffer len ↔ ¬ LeavesByZero kind buffer len := by
  rw [← reject_eq_success_iff]
  constructor
  · intro h hrej
    obtain ⟨code, hcode, hp⟩ | ⟨hnone, -⟩ := kind.parser_cases rt c stack buffer len .unwritten
    · obtain rfl : parseSuccess = code := Option.some.inj (hrej.symm.trans hcode)
      exact DbInsertDatatype.unwritten_not_complete ((h _ _ _ hp).1 rfl)
    · rw [hrej] at hnone
      cases hnone
  · intro hrej out code out' hp
    obtain ⟨code', hcode, hp'⟩ | ⟨-, hp' | hp' | hp'⟩ := kind.parser_cases rt c stack buffer len out
    all_goals rw [hp'] at hp
    · cases hp
      exact ⟨fun h => absurd (h ▸ hcode) hrej, fun _ => rfl⟩
    · cases hp
    · cases hp
      exact ⟨fun _ => DbInsertDatatype.filled_complete _ _ _ (kind.items_length_le rt c _),
        fun h => absurd rfl h⟩
    · cases hp

/-- A turn of a port: the bytes of `read`, the codec object that `codec_` points to, and
what is on the stack under the parser. -/
structure PortTurn (F : Type) where
  bytes : List UInt8
  asked : bytes.length ≤ readBufSize
  codec : Option (CodecObject F)
  stack : Buffer

def PortTurn.turn (rt : CRuntime F) (t : PortTurn F) : Turn where
  bytes := t.bytes
  asked := t.asked
  codec := t.codec.map fun obj => obj.kind.parser rt obj.state t.stack

theorem parse_unwritten_iff (rt : CRuntime F) (s : ListenState) (obj : CodecObject F)
    (stack : Buffer) :
    s.parse (some (obj.kind.parser rt obj.state stack)) = .error .unwrittenField ↔
      LeavesByZero obj.kind s.readBuf s.n := by
  rw [← reject_eq_success_iff]
  obtain ⟨code, hcode, hp⟩ | ⟨hnone, hp | hp | hp⟩ :=
    obj.kind.parser_cases rt obj.state stack s.readBuf s.n .unwritten
  · rw [parse_of_ok hp, hcode]
    by_cases hsuccess : code = parseSuccess
    · rw [if_pos hsuccess]
      exact iff_of_true rfl (congrArg some hsuccess)
    · rw [if_neg hsuccess]
      refine iff_of_false (fun h => ?_) fun h => hsuccess (Option.some.inj h)
      split at h <;> cases h
  · rw [parse_of_error hp, hnone]
    exact iff_of_false nofun nofun
  · rw [parse_of_ok hp, if_pos rfl, storeCalls_filled _ _ _ (obj.kind.items_length_le rt _ _), hnone]
    exact iff_of_false nofun nofun
  · rw [parse_of_error hp, hnone]
    exact iff_of_false nofun nofun

/-- In the turn `t` a parser answers with the success code and no record. -/
def StoresUnwritten (s : ListenState) (t : PortTurn F) : Prop :=
  t.bytes ≠ [] ∧ ∃ s' obj, s.receive t.bytes = .ok s' ∧ t.codec = some obj ∧
    LeavesByZero obj.kind s'.readBuf s'.n

theorem listenTurn_unwritten_iff (rt : CRuntime F) (s : ListenState) (t : PortTurn F) :
    listenTurn s (t.turn rt) = .error .unwrittenField ↔ StoresUnwritten s t := by
  rw [listenTurn, StoresUnwritten]
  by_cases hbytes : t.bytes = []
  · rw [if_pos (show (t.turn rt).bytes = [] from hbytes)]
    exact iff_of_false nofun fun h => h.1 hbytes
  · rw [if_neg (show (t.turn rt).bytes ≠ [] from hbytes), bind_eq_error_iff]
    have hoverflow : s.receive t.bytes ≠ .error .unwrittenField := by
      rw [ListenState.receive]
      split <;> simp
    constructor
    · rintro (h | ⟨s', hs', hparse⟩)
      · exact absurd h hoverflow
      · cases hcodec : t.codec with
        | none =>
          rw [PortTurn.turn, hcodec] at hparse
          cases hparse
        | some obj =>
          rw [PortTurn.turn, hcodec] at hparse
          exact ⟨hbytes, s', obj, hs', rfl, (parse_unwritten_iff rt s' obj t.stack).mp hparse⟩
    · rintro ⟨-, s', obj, hs', hcodec, hleaves⟩
      refine .inr ⟨s', hs', ?_⟩
      rw [PortTurn.turn, hcodec]
      exact (parse_unwritten_iff rt s' obj t.stack).mpr hleaves

/-- A parser's code tells what happened to the record except where `CodecMMXN::parser`
leaves by zero, and a run of the loop comes to pass on an unwritten record exactly when one
of its parser calls does. -/
theorem record_written_iff (rt : CRuntime F) :
    (∀ (kind : CodecKind) (c : CodecState F) (stack buffer : Buffer) (len : Int),
      CodeTellsRecord rt kind c stack buffer len ↔ ¬ LeavesByZero kind buffer len) ∧
    (∀ (s : ListenState) (ts : List (PortTurn F)),
      listenRun s (ts.map (PortTurn.turn rt)) = .error .unwrittenField ↔
        ∃ pre t s₁ before, pre ++ [t] <+: ts ∧
          listenRun s (pre.map (PortTurn.turn rt)) = .ok (s₁, before) ∧ StoresUnwritten s₁ t) := by
  refine ⟨codeTellsRecord_iff rt, fun s ts => ?_⟩
  rw [listenRun_error_iff]
  constructor
  · rintro ⟨pre, t, s₁, before, hpre, hrun, ht⟩
    obtain ⟨l, hl, hmap⟩ := List.prefix_map_iff.mp hpre
    obtain ⟨pre', last, rfl, rfl, hlast⟩ := List.append_eq_map_iff.mp hmap
    obtain ⟨u, rfl, rfl⟩ := List.map_eq_singleton_iff.mp hlast
    exact ⟨pre', u, s₁, before, hl, hrun, (listenTurn_unwritten_iff rt s₁ u).mp ht⟩
  · rintro ⟨pre, t, s₁, before, hpre, hrun, ht⟩
    refine ⟨pre.map (PortTurn.turn rt), t.turn rt, s₁, before, ?_, hrun,
      (listenTurn_unwritten_iff rt s₁ t).mpr ht⟩
    simpa using hpre.map (PortTurn.turn rt)

/-- A reply of 21 bytes with a correct check sum whose length byte is 129. -/
def lengthAboveLimit : Buffer :=
  storeAt (fun _ => 0) 0 ([2, 4, 129] ++ List.replicate 16 0 ++ [44, 213])

/-- It is reported as parsed, and the record has not been written. -/
theorem mmxn_success_without_record :
    ¬ CodeTellsRecord CRuntime.whole .mmxn ⟨"MMXN1", ∅⟩ (fun _ => 0) lengthAboveLimit 21 := by
  rw [codeTellsRecord_iff, not_not]
  exact ⟨rfl, le_refl _, by decide +kernel, by decide +kernel⟩

end DbdkyGcc.Port
