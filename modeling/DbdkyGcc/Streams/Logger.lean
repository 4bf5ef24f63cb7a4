import DbdkyGcc.Foundations.Calendar
import DbdkyGcc.Streams.LogStream

/-!
# Log records

A `Logger` puts the time, the thread and the level into its stream when it is made, the caller adds
to it, and the destructor puts the place in the source and a newline behind and passes what the
stream holds to the output function.

The head of a record is copied with fixed lengths from arrays: the time from one that belongs to the
thread and is filled in when the second changes, the name of the level from a literal. Two of the
literals are shorter than what is copied.
-/

namespace DbdkyGcc.Streams

open Foundations LogStream

/-- What the C library says about an error. -/
structure Runtime extends Printf where
  strerror : Int32 → CString

/-- A thread of the system, by a number of at most five digits. -/
structure Thread where
  tid : ℕ
  tid_pos : 0 < tid
  tid_lt : tid < 100000

/-- What `snprintf` leaves in an array: the text, cut if need be, and a terminator. -/
def snprintfInto {n : ℕ} (array : Vector UInt8 (n + 1)) (text : List Char) : Vector UInt8 (n + 1) :=
  ⟨(overwrite array.toList 0 (chars (snprintf (n + 1) text) ++ [0])).toArray, by
    rw [List.size_toArray, length_overwrite]
    · exact array.length_toList
    · rw [array.length_toList, List.length_append, length_chars, snprintf, List.length_take,
        List.length_singleton]
      omega⟩

/-- The variables of a thread: `t_cachedTid`, `t_tidString`, `t_time` and `t_lastSecond`. -/
structure ThreadLocals where
  cachedTid : ℕ
  tidString : Vector UInt8 32
  time : Vector UInt8 32
  lastSecond : Int

/-- They begin with zeros. -/
def ThreadLocals.initial : ThreadLocals :=
  { cachedTid := 0, tidString := Vector.replicate 32 0, time := Vector.replicate 32 0
    lastSecond := 0 }

inductive LogLevel
  | TRACE
  | DEBUG
  | INFO
  | WARN
  | ERROR
  | FATAL
  deriving DecidableEq, Repr

/-- The array of a literal, with its terminator. -/
def literal (text : String) : List UInt8 := chars text.toList ++ [0]

def LogLevelName : LogLevel → List UInt8
  | .TRACE => literal "TRACE "
  | .DEBUG => literal "DEBUG "
  | .INFO => literal "INFO "
  | .WARN => literal "WARN "
  | .ERROR => literal "ERROR "
  | .FATAL => literal "FATAL "

/-- `class T` in a stream: so many bytes from an array. -/
def T (str : List UInt8) (len : ℕ) : Except Fault Insertion :=
  if len ≤ str.length then .ok (.append (str.take len)) else .error .outOfBounds

/-- `Logger::SourceFile`: the name behind the last slash. -/
def SourceFile (path : CString) : Insertion :=
  .append (path.text.reverse.takeWhile (· ≠ 0x2f)).reverse

/-- A literal as a text of the stream. -/
def text (s : String) (h : 0 ∉ chars s.toList) : Insertion := .cString ⟨chars s.toList, h⟩

/-- The text of a time for `t_time`. -/
def timeText (seconds : Int) : List Char :=
  let tm := gmtime seconds
  spacePadded 4 tm.date.year ++ zeroPadded 2 tm.date.month ++ zeroPadded 2 tm.date.day ++ [' '] ++
    zeroPadded 2 tm.hour ++ [':'] ++ zeroPadded 2 tm.min ++ [':'] ++ zeroPadded 2 tm.sec

def microsecondsText (microseconds : Int) : List Char :=
  '.' :: zeroPadded 6 microseconds ++ ['Z', ' ']

def tidText (tid : ℕ) : List Char := spacePadded 5 tid ++ [' ']

/-- A record in the making, on a thread with its variables. -/
structure Impl where
  locals : ThreadLocals
  stream : Buffer

namespace Impl

/-- `stream_ << ... << ...` -/
def puts (rt : Runtime) (s : Impl) (is : List Insertion) : Except Fault Impl := do
  let stream ← is.foldlM (insert · rt.toPrintf) s.stream
  .ok { s with stream := stream }

/-- The text of the time is renewed when the second has changed. -/
def renewTime (s : Impl) (seconds : Int) : Except Fault Impl :=
  if seconds ≠ s.locals.lastSecond then do
    ensure .assertion ((timeText seconds).length = 17)
    .ok { s with locals := { s.locals with
      lastSecond := seconds
      time := snprintfInto s.locals.time (timeText seconds) } }
  else .ok s

def formatTime (rt : Runtime) (s : Impl) (microSecondsSinceEpoch : Int) : Except Fault Impl := do
  let seconds := microSecondsSinceEpoch.tdiv 1000000
  let microseconds := microSecondsSinceEpoch.tmod 1000000
  let s ← s.renewTime seconds
  let us := microsecondsText microseconds
  ensure .assertion (us.length < 32)
  ensure .assertion (us.length = 9)
  let time ← T s.locals.time.toList 17
  let us ← T (chars us ++ [0]) 9
  s.puts rt [time, us]

/-- `CurrentThread::tid`. -/
def tid (thread : Thread) (s : Impl) : Except Fault Impl :=
  if s.locals.cachedTid = 0 then do
    ensure .assertion ((tidText thread.tid).length = 6)
    .ok { s with locals := { s.locals with
      cachedTid := thread.tid
      tidString := snprintfInto s.locals.tidString (tidText thread.tid) } }
  else .ok s

/-- The constructor. -/
def new (rt : Runtime) (thread : Thread) (locals : ThreadLocals)
    (memory : Vector UInt8 kSmallBuffer) (now : Int) (level : LogLevel) (savedErrno : Int32) :
    Except Fault Impl := do
  let s : Impl := { locals := locals, stream := FixedBuffer.new memory }
  let s ← s.formatTime rt now
  let s ← s.tid thread
  let tidString ← T s.locals.tidString.toList 6
  let s ← s.puts rt [tidString]
  let name ← T (LogLevelName level) 6
  let s ← s.puts rt [name]
  if savedErrno ≠ 0 then
    s.puts rt [.cString (rt.strerror savedErrno), text " (errno=" (by decide), .int savedErrno,
      text ") " (by decide)]
  else .ok s

def finish (rt : Runtime) (s : Impl) (basename : Insertion) (line : Int32) : Except Fault Impl :=
  s.puts rt [text " - " (by decide), basename, text ":" (by decide), .int line, .char 0x0a]

end Impl

/-- The constructors of `Logger`. -/
inductive LoggerKind
  | plain
  | level (level : LogLevel)
  | func (level : LogLevel) (func : CString)
  | errno (toAbort : Bool) (errno : Int32)

namespace LoggerKind

def logLevel : LoggerKind → LogLevel
  | .plain => .INFO
  | .level l => l
  | .func l _ => l
  | .errno toAbort _ => if toAbort then .FATAL else .ERROR

def savedErrno : LoggerKind → Int32
  | .errno _ e => e
  | _ => 0

/-- What the constructor itself puts into the stream. -/
def insertions : LoggerKind → List Insertion
  | .func _ name => [.cString name, .char 0x20]
  | _ => []

end LoggerKind

/-- A call of one of the macros, with what the caller puts into the stream. -/
structure LogCall where
  kind : LoggerKind
  file : CString
  line : Int32
  now : Int
  memory : Vector UInt8 kSmallBuffer
  insertions : List Insertion

/-- The variables of the thread afterwards, and the record that the output function gets. -/
structure Logged where
  locals : ThreadLocals
  record : List UInt8

def log (rt : Runtime) (thread : Thread) (locals : ThreadLocals) (c : LogCall) :
    Except Fault Logged := do
  let s ← Impl.new rt thread locals c.memory c.now c.kind.logLevel c.kind.savedErrno
  let s ← s.puts rt c.kind.insertions
  let s ← s.puts rt c.insertions
  let s ← s.finish rt (SourceFile c.file) c.line
  .ok ⟨s.locals, s.stream.asString⟩

namespace LogCall

def seconds (c : LogCall) : Int := c.now.tdiv 1000000

def microseconds (c : LogCall) : Int := c.now.tmod 1000000

/-- The assertions hold: the date has a year of four digits. -/
def Asserted (c : LogCall) (locals : ThreadLocals) : Prop :=
  (c.seconds ≠ locals.lastSecond → (timeText c.seconds).length = 17) ∧
    (microsecondsText c.microseconds).length = 9

end LogCall

namespace ThreadLocals

/-- The variables when the time has been formatted. -/
def renewed (l : ThreadLocals) (seconds : Int) : ThreadLocals :=
  if seconds ≠ l.lastSecond then
    { l with lastSecond := seconds, time := snprintfInto l.time (timeText seconds) }
  else l

/-- The variables when the thread is known. -/
def identified (l : ThreadLocals) (thread : Thread) : ThreadLocals :=
  if l.cachedTid = 0 then
    { l with
      cachedTid := thread.tid
      tidString := snprintfInto l.tidString (tidText thread.tid) }
  else l

end ThreadLocals

theorem length_tidText (thread : Thread) : (tidText thread.tid).length = 6 := by
  have hdigits : (signed thread.tid).length ≤ 5 := length_decimal_le (by decide) thread.tid_lt
  rw [tidText, List.length_append, spacePadded, length_padded hdigits]
  rfl

theorem T_eq {str : List UInt8} {len : ℕ} (h : len ≤ str.length) :
    T str len = .ok (.append (str.take len)) := if_pos h

theorem length_LogLevelName (level : LogLevel) : 6 ≤ (LogLevelName level).length := by
  cases level <;> decide

namespace Impl

variable (rt : Runtime) (thread : Thread) {s : Impl} {content : List UInt8}

theorem puts_ok (h : s.stream.Holds content) (is : List Insertion) :
    ∃ b, s.puts rt is = .ok ⟨s.locals, b⟩ ∧
      b.Holds (is.foldl (hold kSmallBuffer rt.toPrintf) content) := by
  obtain ⟨b, hb, hholds⟩ := insertAll_ok h rt.toPrintf is
  exact ⟨b, bind_eq_ok_iff.mpr ⟨b, hb, rfl⟩, hholds⟩

theorem renewTime_eq {seconds : Int}
    (h : seconds ≠ s.locals.lastSecond → (timeText seconds).length = 17) :
    s.renewTime seconds = .ok ⟨s.locals.renewed seconds, s.stream⟩ := by
  unfold renewTime ThreadLocals.renewed
  by_cases hnew : seconds ≠ s.locals.lastSecond
  · rw [if_pos hnew, if_pos hnew, ensure_eq_ok (h hnew)]
    rfl
  · rw [if_neg hnew, if_neg hnew]

theorem tid_eq : s.tid thread = .ok ⟨s.locals.identified thread, s.stream⟩ := by
  unfold tid ThreadLocals.identified
  by_cases hnew : s.locals.cachedTid = 0
  · rw [if_pos hnew, if_pos hnew, ensure_eq_ok (length_tidText thread)]
    rfl
  · rw [if_neg hnew, if_neg hnew]

theorem formatTime_ok (h : s.stream.Holds content) {c : LogCall} (hc : c.Asserted s.locals) :
    ∃ b, s.formatTime rt c.now = .ok ⟨s.locals.renewed c.seconds, b⟩ ∧
      b.Holds ([Insertion.append ((s.locals.renewed c.seconds).time.toList.take 17),
        .append (chars (microsecondsText c.microseconds))].foldl
          (hold kSmallBuffer rt.toPrintf) content) := by
  obtain ⟨htime, hus⟩ := hc
  have htake : T (s.locals.renewed c.seconds).time.toList 17 = .ok _ :=
    T_eq (by rw [Vector.length_toList]; decide)
  have htake' : T (chars (microsecondsText c.microseconds) ++ [0]) 9 =
      .ok (.append (chars (microsecondsText c.microseconds))) := by
    have hlen : (chars (microsecondsText c.microseconds)).length = 9 := by rw [length_chars, hus]
    rw [T_eq (by rw [List.length_append]; omega), List.take_left' hlen]
  have hputs := puts_ok rt (s := ⟨s.locals.renewed c.seconds, s.stream⟩) h
    [.append ((s.locals.renewed c.seconds).time.toList.take 17),
      .append (chars (microsecondsText c.microseconds))]
  obtain ⟨b, hb, hholds⟩ := hputs
  refine ⟨b, ?_, hholds⟩
  calc s.formatTime rt c.now
    _ = _ := bind_of_ok (renewTime_eq htime) _
    _ = _ := bind_of_ok (ensure_eq_ok (lt_of_eq_of_lt hus (by decide))) _
    _ = _ := bind_of_ok (ensure_eq_ok hus) _
    _ = _ := bind_of_ok htake _
    _ = _ := bind_of_ok htake' _
    _ = _ := hb

end Impl

namespace LogCall

/-- The variables of the thread after a call. -/
def after (c : LogCall) (thread : Thread) (l : ThreadLocals) : ThreadLocals :=
  (l.renewed c.seconds).identified thread

/-- The time, the thread and the level. -/
def head (c : LogCall) (l : ThreadLocals) : List Insertion :=
  [.append (l.time.toList.take 17), .append (chars (microsecondsText c.microseconds)),
    .append (l.tidString.toList.take 6), .append ((LogLevelName c.kind.logLevel).take 6)]

/-- What is said about `errno`. -/
def errnoText (c : LogCall) (rt : Runtime) : List Insertion :=
  if c.kind.savedErrno ≠ 0 then
    [.cString (rt.strerror c.kind.savedErrno), text " (errno=" (by decide), .int c.kind.savedErrno,
      text ") " (by decide)]
  else []

/-- Everything that is put into the stream between the head and the newline. -/
def body (c : LogCall) (rt : Runtime) : List Insertion :=
  c.errnoText rt ++ c.kind.insertions ++ c.insertions ++
    [text " - " (by decide), SourceFile c.file, text ":" (by decide), .int c.line]

/-- What the stream holds when the newline is put into it. -/
def beforeNewline (c : LogCall) (rt : Runtime) (l : ThreadLocals) : List UInt8 :=
  (c.head l ++ c.body rt).foldl (hold kSmallBuffer rt.toPrintf) []

end LogCall

theorem ThreadLocals.time_identified (l : ThreadLocals) (thread : Thread) :
    (l.identified thread).time = l.time := by
  unfold identified
  split <;> rfl

theorem Impl.new_ok (rt : Runtime) (thread : Thread) {l : ThreadLocals} {c : LogCall}
    (hc : c.Asserted l) :
    ∃ b, Impl.new rt thread l c.memory c.now c.kind.logLevel c.kind.savedErrno =
        .ok ⟨c.after thread l, b⟩ ∧
      b.Holds ((c.head (c.after thread l) ++ c.errnoText rt).foldl
        (hold kSmallBuffer rt.toPrintf) []) := by
  have hbuffer : (Impl.mk l (FixedBuffer.new c.memory)).stream.Holds [] :=
    FixedBuffer.holds_new (by decide) c.memory
  obtain ⟨b₁, htime, h₁⟩ := formatTime_ok rt hbuffer hc
  have htid := tid_eq thread (s := ⟨l.renewed c.seconds, b₁⟩)
  have htidString : T (c.after thread l).tidString.toList 6 = .ok _ :=
    T_eq (by rw [Vector.length_toList]; decide)
  have hname : T (LogLevelName c.kind.logLevel) 6 = .ok _ := T_eq (length_LogLevelName _)
  obtain ⟨b₂, hput₂, h₂⟩ := puts_ok rt (s := ⟨c.after thread l, b₁⟩) h₁
    [.append ((c.after thread l).tidString.toList.take 6)]
  obtain ⟨b₃, hput₃, h₃⟩ := puts_ok rt (s := ⟨c.after thread l, b₂⟩) h₂
    [.append ((LogLevelName c.kind.logLevel).take 6)]
  obtain ⟨b₄, hput₄, h₄⟩ := puts_ok rt (s := ⟨c.after thread l, b₃⟩) h₃ (c.errnoText rt)
  have herrno : (if c.kind.savedErrno ≠ 0 then
      puts rt ⟨c.after thread l, b₃⟩ [.cString (rt.strerror c.kind.savedErrno),
        text " (errno=" (by decide), .int c.kind.savedErrno, text ") " (by decide)]
      else .ok ⟨c.after thread l, b₃⟩) = .ok ⟨c.after thread l, b₄⟩ := by
    rw [LogCall.errnoText] at hput₄
    by_cases hzero : c.kind.savedErrno ≠ 0
    · rw [if_pos hzero] at hput₄ ⊢
      exact hput₄
    · rw [if_neg hzero] at hput₄ ⊢
      exact hput₄
  refine ⟨b₄, ?_, ?_⟩
  · calc Impl.new rt thread l c.memory c.now c.kind.logLevel c.kind.savedErrno
      _ = _ := bind_of_ok htime _
      _ = _ := bind_of_ok htid _
      _ = _ := bind_of_ok htidString _
      _ = _ := bind_of_ok hput₂ _
      _ = _ := bind_of_ok hname _
      _ = _ := bind_of_ok hput₃ _
      _ = _ := herrno
  · rw [List.foldl_append, LogCall.head, LogCall.after, ThreadLocals.time_identified]
    simp only [List.foldl_cons, List.foldl_nil] at h₄ ⊢
    exact h₄

theorem log_ok (rt : Runtime) (thread : Thread) {l : ThreadLocals} {c : LogCall}
    (hc : c.Asserted l) :
    log rt thread l c = .ok ⟨c.after thread l, hold kSmallBuffer rt.toPrintf
      (c.beforeNewline rt (c.after thread l)) (.char 0x0a)⟩ := by
  obtain ⟨b₁, hnew, h₁⟩ := Impl.new_ok rt thread hc
  obtain ⟨b₂, hkind, h₂⟩ := Impl.puts_ok rt (s := ⟨c.after thread l, b₁⟩) h₁ c.kind.insertions
  obtain ⟨b₃, hcaller, h₃⟩ := Impl.puts_ok rt (s := ⟨c.after thread l, b₂⟩) h₂ c.insertions
  obtain ⟨b₄, hfinish, h₄⟩ := Impl.puts_ok rt (s := ⟨c.after thread l, b₃⟩) h₃
    [text " - " (by decide), SourceFile c.file, text ":" (by decide), .int c.line, .char 0x0a]
  have hlog : log rt thread l c = .ok ⟨c.after thread l, b₄.asString⟩ :=
    calc log rt thread l c
      _ = _ := bind_of_ok hnew _
      _ = _ := bind_of_ok hkind _
      _ = _ := bind_of_ok hcaller _
      _ = _ := bind_of_ok hfinish _
  rw [hlog, h₄.asString_eq, LogCall.beforeNewline, LogCall.body]
  simp only [List.foldl_append, List.foldl_cons, List.foldl_nil]

/-- A call of which an assertion fails outputs nothing. -/
theorem log_assertion (rt : Runtime) (thread : Thread) {l : ThreadLocals} {c : LogCall}
    (hc : ¬ c.Asserted l) : log rt thread l c = .error .assertion := by
  have htime : Impl.formatTime rt ⟨l, FixedBuffer.new c.memory⟩ c.now = .error .assertion := by
    by_cases hyear : c.seconds ≠ l.lastSecond → (timeText c.seconds).length = 17
    · have hus : (microsecondsText c.microseconds).length ≠ 9 := fun h => hc ⟨hyear, h⟩
      refine bind_eq_error_iff.mpr (.inr ⟨_, Impl.renewTime_eq hyear, ?_⟩)
      by_cases hlt : (microsecondsText c.microseconds).length < 32
      · exact bind_eq_error_iff.mpr (.inr ⟨(), ensure_eq_ok hlt,
          bind_eq_error_iff.mpr (.inl (if_neg hus))⟩)
      · exact bind_eq_error_iff.mpr (.inl (if_neg hlt))
    · obtain ⟨hnew, hlen⟩ := Classical.not_imp.mp hyear
      exact bind_eq_error_iff.mpr (.inl ((if_pos hnew).trans
        (bind_eq_error_iff.mpr (.inl (if_neg hlen)))))
  have hnew : Impl.new rt thread l c.memory c.now c.kind.logLevel c.kind.savedErrno =
      .error .assertion := bind_eq_error_iff.mpr (.inl htime)
  exact bind_eq_error_iff.mpr (.inl hnew)

theorem take_snprintfInto {n : ℕ} (array : Vector UInt8 (n + 1)) {text : List Char}
    (h : text.length ≤ n) :
    (snprintfInto array text).toList.take text.length = chars text := by
  have hcut : snprintf (n + 1) text = text := List.take_of_length_le h
  have hroom : 0 + (chars text ++ [0]).length ≤ array.toList.length := by
    rw [array.length_toList, List.length_append, length_chars, List.length_singleton]
    omega
  have htake := take_overwrite hroom
  rw [length_chars, Nat.zero_add] at htake
  show (overwrite array.toList 0 (chars (snprintf (n + 1) text) ++ [0])).take text.length = _
  rw [hcut, htake]
  rfl

/-- What the variables of a thread are after a number of calls. -/
structure Follows (thread : Thread) (history : List LogCall) (l : ThreadLocals) : Prop where
  tid : l.cachedTid = 0 ∨ l.tidString.toList.take 6 = chars (tidText thread.tid)
  unformatted : (∀ c ∈ history, c.seconds = 0) →
    l.lastSecond = 0 ∧ l.time = Vector.replicate 32 0
  formatted : (∃ c ∈ history, c.seconds ≠ 0) → 0 ∉ l.time.toList.take 17

theorem Follows.initial (thread : Thread) : Follows thread [] ThreadLocals.initial where
  tid := .inl rfl
  unformatted := fun _ => ⟨rfl, rfl⟩
  formatted := by
    rintro ⟨c, hc, -⟩
    cases hc

theorem ascii_timeText (seconds : Int) : ∀ c ∈ timeText seconds, Ascii c := by
  have hspace : Ascii ' ' := by decide
  have hcolon : Ascii ':' := by decide
  simp only [timeText, List.forall_mem_append, List.forall_mem_singleton]
  exact ⟨⟨⟨⟨⟨⟨⟨⟨ascii_padded hspace _ (ascii_signed _), ascii_zeroPadded _ _⟩,
    ascii_zeroPadded _ _⟩, hspace⟩, ascii_zeroPadded _ _⟩, hcolon⟩, ascii_zeroPadded _ _⟩, hcolon⟩,
    ascii_zeroPadded _ _⟩

namespace ThreadLocals

theorem renewed_of_eq {l : ThreadLocals} {seconds : Int} (h : seconds = l.lastSecond) :
    l.renewed seconds = l := if_neg (not_not_intro h)

theorem time_renewed {l : ThreadLocals} {seconds : Int} (h : seconds ≠ l.lastSecond) :
    (l.renewed seconds).time = snprintfInto l.time (timeText seconds) := by
  rw [renewed, if_pos h]

theorem cachedTid_renewed (l : ThreadLocals) (seconds : Int) :
    (l.renewed seconds).cachedTid = l.cachedTid ∧
      (l.renewed seconds).tidString = l.tidString := by
  unfold renewed
  split <;> exact ⟨rfl, rfl⟩

theorem lastSecond_identified (l : ThreadLocals) (thread : Thread) :
    (l.identified thread).lastSecond = l.lastSecond := by
  unfold identified
  split <;> rfl

end ThreadLocals

/-- After a call the thread is known. -/
theorem Follows.tidString_after {thread : Thread} {history : List LogCall} {l : ThreadLocals}
    (h : Follows thread history l) (c : LogCall) :
    (c.after thread l).tidString.toList.take 6 = chars (tidText thread.tid) := by
  obtain ⟨hcached, hstring⟩ := l.cachedTid_renewed c.seconds
  rw [LogCall.after, ThreadLocals.identified]
  by_cases hzero : (l.renewed c.seconds).cachedTid = 0
  · rw [if_pos hzero, ← length_tidText thread]
    exact take_snprintfInto _ (by rw [length_tidText]; decide)
  · rw [if_neg hzero, hstring]
    exact h.tid.resolve_left (hcached ▸ hzero)

theorem seconds_zero_or (history : List LogCall) :
    (∀ c ∈ history, c.seconds = 0) ∨ ∃ c ∈ history, c.seconds ≠ 0 := by
  by_cases h : ∃ c ∈ history, c.seconds ≠ 0
  · exact .inr h
  · refine .inl fun c hc => ?_
    by_contra hne
    exact h ⟨c, hc, hne⟩

theorem Follows.step {thread : Thread} {history : List LogCall} {l : ThreadLocals}
    (h : Follows thread history l) {c : LogCall} (hc : c.Asserted l) :
    Follows thread (history ++ [c]) (c.after thread l) where
  tid := .inr (h.tidString_after c)
  unformatted := by
    intro hall
    rw [List.forall_mem_append, List.forall_mem_singleton] at hall
    obtain ⟨hlast, htime⟩ := h.unformatted hall.1
    have hsame := ThreadLocals.renewed_of_eq (hall.2.trans hlast.symm)
    rw [LogCall.after, ThreadLocals.lastSecond_identified, ThreadLocals.time_identified, hsame]
    exact ⟨hlast, htime⟩
  formatted := by
    intro hsome
    rw [LogCall.after, ThreadLocals.time_identified]
    by_cases hnew : c.seconds = l.lastSecond
    · -- The text is that of an earlier call, which was not in the first second of all.
      rw [ThreadLocals.renewed_of_eq hnew]
      rcases seconds_zero_or history with hzero | hearlier
      · obtain ⟨d, hd, hd'⟩ := hsome
        rcases List.mem_append.mp hd with hd | hd
        · exact absurd (hzero d hd) hd'
        · rw [List.mem_singleton.mp hd, hnew] at hd'
          exact absurd (h.unformatted hzero).1 hd'
      · exact h.formatted hearlier
    · rw [ThreadLocals.time_renewed hnew, ← hc.1 hnew,
        take_snprintfInto _ (by rw [hc.1 hnew]; decide)]
      exact nul_notMem_chars (ascii_timeText _)

/-- The time is formatted but for the calls in the first second of 1970. -/
theorem Follows.nul_notMem_time_iff {thread : Thread} {history : List LogCall} {l : ThreadLocals}
    (h : Follows thread history l) :
    0 ∉ l.time.toList.take 17 ↔ ∃ c ∈ history, c.seconds ≠ 0 := by
  refine ⟨fun hnul => ?_, h.formatted⟩
  rcases seconds_zero_or history with hzero | hsome
  · rw [(h.unformatted hzero).2] at hnul
    exact absurd (by decide) hnul
  · exact hsome

/-- The calls of a thread, one after the other. -/
def run (rt : Runtime) (thread : Thread) (history : List LogCall) : Except Fault ThreadLocals :=
  history.foldlM (fun l c => do
    let logged ← log rt thread l c
    .ok logged.locals) ThreadLocals.initial

theorem follows_run {rt : Runtime} {thread : Thread} {history : List LogCall} {l : ThreadLocals}
    (h : run rt thread history = .ok l) : Follows thread history l := by
  induction history using List.reverseRecOn generalizing l with
  | nil =>
    obtain rfl := Except.ok.inj h
    exact Follows.initial thread
  | append_singleton history c ih =>
    rw [run, List.foldlM_append] at h
    obtain ⟨l₀, h₀, hlast⟩ := bind_eq_ok_iff.mp h
    rw [List.foldlM_cons] at hlast
    obtain ⟨l₁, hstep, hnil⟩ := bind_eq_ok_iff.mp hlast
    obtain rfl := Except.ok.inj hnil
    obtain ⟨logged, hlog, hlocals⟩ := bind_eq_ok_iff.mp hstep
    obtain rfl := Except.ok.inj hlocals
    have hasserted : c.Asserted l₀ := by
      by_contra hnot
      rw [log_assertion rt thread hnot] at hlog
      cases hlog
    rw [log_ok rt thread hasserted] at hlog
    obtain rfl := Except.ok.inj hlog
    exact (ih h₀).step hasserted

namespace LogCall

variable {rt : Runtime} {c : LogCall} {l : ThreadLocals}

/-- Nothing that the caller inserts has a terminator in it. -/
def Clean (c : LogCall) (rt : Runtime) : Prop := ∀ i ∈ c.insertions, 0 ∉ piece rt.toPrintf i

/-- The names of these levels are shorter than what is copied of them. -/
theorem nul_mem_name_iff (level : LogLevel) :
    0 ∈ (LogLevelName level).take 6 ↔ level = .INFO ∨ level = .WARN := by
  cases level <;> decide

theorem length_name (level : LogLevel) : ((LogLevelName level).take 6).length = 6 := by
  cases level <;> decide

/-- The head of a record is always there. -/
theorem foldl_head (hus : (microsecondsText c.microseconds).length = 9) :
    (c.head l).foldl (hold kSmallBuffer rt.toPrintf) [] =
      (c.head l).flatMap (piece rt.toPrintf) := by
  have htime : (l.time.toList.take 17).length = 17 := by
    rw [List.length_take, Vector.length_toList]
    rfl
  have htid : (l.tidString.toList.take 6).length = 6 := by
    rw [List.length_take, Vector.length_toList]
    rfl
  have hlen : ((c.head l).flatMap (piece rt.toPrintf)).length = 38 := by
    simp only [head, List.flatMap_cons, List.flatMap_nil, piece, List.length_append, length_chars,
      htime, hus, htid, length_name, List.length_nil]
  refine foldl_hold_of_room ?_ ?_
  · simp only [head, List.forall_mem_cons]
    exact ⟨rfl, rfl, rfl, rfl, by rintro i ⟨⟩⟩
  · rw [hlen]
    decide

/-- Of the head, the time and the level decide whether there is a terminator in it. -/
theorem nul_mem_head_iff {thread : Thread}
    (htid : l.tidString.toList.take 6 = chars (tidText thread.tid)) :
    0 ∈ (c.head l).flatMap (piece rt.toPrintf) ↔
      0 ∈ l.time.toList.take 17 ∨ c.kind.logLevel = .INFO ∨ c.kind.logLevel = .WARN := by
  have hus : 0 ∉ chars (microsecondsText c.microseconds) := by
    refine nul_notMem_chars ?_
    simp only [microsecondsText, List.cons_append, List.forall_mem_cons, List.forall_mem_append]
    exact ⟨by decide, ascii_zeroPadded _ _, by decide, by decide, by rintro i ⟨⟩⟩
  have htid' : 0 ∉ l.tidString.toList.take 6 := by
    rw [htid]
    refine nul_notMem_chars ?_
    simp only [tidText, List.forall_mem_append, List.forall_mem_singleton]
    exact ⟨ascii_padded (by decide) _ (ascii_signed _), by decide⟩
  simp only [head, List.flatMap_cons, List.flatMap_nil, piece, List.mem_append, hus, htid',
    nul_mem_name_iff, List.not_mem_nil, or_false, false_or]

theorem nul_notMem_int (rt : Printf) (v : Int32) : 0 ∉ piece rt (.int v) :=
  nul_notMem_chars (ascii_signed _)

theorem nul_notMem_text (rt : Printf) {s : String} (h : 0 ∉ chars s.toList) :
    0 ∉ piece rt (text s h) := h

theorem nul_notMem_sourceFile (rt : Printf) (path : CString) : 0 ∉ piece rt (SourceFile path) := by
  intro hmem
  have hmem' := (List.takeWhile_sublist _).subset (List.mem_reverse.mp hmem)
  exact path.nul_free (List.mem_reverse.mp hmem')

/-- Between the head and the newline only the caller can insert a terminator. -/
theorem nul_notMem_body (hclean : c.Clean rt) : ∀ i ∈ c.body rt, 0 ∉ piece rt.toPrintf i := by
  have herrno : ∀ i ∈ c.errnoText rt, 0 ∉ piece rt.toPrintf i := by
    unfold errnoText
    split
    · simp only [List.forall_mem_cons]
      exact ⟨(rt.strerror _).nul_free, nul_notMem_text _ _, nul_notMem_int _ _,
        nul_notMem_text _ _, by rintro i ⟨⟩⟩
    · rintro i ⟨⟩
  have hkind : ∀ i ∈ c.kind.insertions, 0 ∉ piece rt.toPrintf i := by
    cases c.kind with
    | func level name =>
      simp only [LoggerKind.insertions, List.forall_mem_cons]
      refine ⟨name.nul_free, ?_, by rintro i ⟨⟩⟩
      show (0 : UInt8) ∉ [0x20]
      decide
    | _ => rintro i ⟨⟩
  simp only [body, List.forall_mem_append, List.forall_mem_cons]
  exact ⟨⟨⟨herrno, hkind⟩, hclean⟩, nul_notMem_text _ _, nul_notMem_sourceFile _ _,
    nul_notMem_text _ _, nul_notMem_int _ _, by rintro i ⟨⟩⟩

/-- The newline is there if there was room for it. -/
theorem getLast_record (body : List UInt8) :
    (hold kSmallBuffer rt.toPrintf body (.char 0x0a)).getLast? = some 0x0a ↔
      body.length ≤ 3998 ∨ body.getLast? = some 0x0a := by
  rw [hold_copied rfl]
  by_cases hroom : body.length ≤ 3998
  · have hlt : (piece rt.toPrintf (.char 0x0a)).length < kSmallBuffer - body.length := by
      show 1 < 4000 - body.length
      omega
    rw [if_pos hlt]
    exact iff_of_true List.getLast?_concat (.inl hroom)
  · have hnot : ¬ (piece rt.toPrintf (.char 0x0a)).length < kSmallBuffer - body.length := by
      show ¬ 1 < 4000 - body.length
      omega
    rw [if_neg hnot, or_iff_right hroom]

/-- If the caller inserts no terminator, the head decides. -/
theorem nul_mem_record_iff (hclean : c.Clean rt)
    (hus : (microsecondsText c.microseconds).length = 9) :
    0 ∈ hold kSmallBuffer rt.toPrintf (c.beforeNewline rt l) (.char 0x0a) ↔
      0 ∈ (c.head l).flatMap (piece rt.toPrintf) := by
  have hrecord : hold kSmallBuffer rt.toPrintf (c.beforeNewline rt l) (.char 0x0a) =
      (c.body rt ++ [Insertion.char 0x0a]).foldl (hold kSmallBuffer rt.toPrintf)
        ((c.head l).flatMap (piece rt.toPrintf)) := by
    rw [beforeNewline, List.foldl_append, List.foldl_append, foldl_head hus, List.foldl_cons,
      List.foldl_nil]
  rw [hrecord]
  constructor
  · intro hmem
    by_contra hhead
    refine notMem_foldl_hold hhead ?_ hmem
    rw [List.forall_mem_append, List.forall_mem_singleton]
    refine ⟨nul_notMem_body hclean, ?_⟩
    show (0 : UInt8) ∉ [0x0a]
    decide
  · exact fun hhead => (prefix_foldl_hold _ _).subset hhead

end LogCall

/-- Whatever a thread has logged before, a call either fails an assertion or outputs a record. The
record ends with a newline if it was no longer than 3998 bytes without it, or ended with one by
itself; and it has no terminator that is not of the caller if the name of its level has six
characters and the time was formatted, which it is not in the first second of 1970. -/
theorem record_intact_iff (rt : Runtime) (thread : Thread) (history : List LogCall)
    {l : ThreadLocals} (hrun : run rt thread history = .ok l) (c : LogCall) :
    (¬ c.Asserted l → log rt thread l c = .error .assertion) ∧
    (c.Asserted l → ∃ logged, log rt thread l c = .ok logged ∧
      ((logged.record.getLast? = some 0x0a ∧ (c.Clean rt → 0 ∉ logged.record)) ↔
        ((c.beforeNewline rt (c.after thread l)).length ≤ 3998 ∨
          (c.beforeNewline rt (c.after thread l)).getLast? = some 0x0a) ∧
        (c.Clean rt → (c.kind.logLevel ≠ .INFO ∧ c.kind.logLevel ≠ .WARN) ∧
          ∃ d ∈ history ++ [c], d.seconds ≠ 0))) := by
  refine ⟨log_assertion rt thread, fun hc => ⟨_, log_ok rt thread hc, ?_⟩⟩
  have hfollows := follows_run hrun
  have hafter := hfollows.step hc
  have htid := hfollows.tidString_after c
  dsimp only
  refine and_congr (LogCall.getLast_record _) (imp_congr_right fun hclean => ?_)
  rw [LogCall.nul_mem_record_iff hclean hc.2, LogCall.nul_mem_head_iff htid, not_or, not_or,
    hafter.nul_notMem_time_iff]
  exact and_comm

/-- A library for which the texts do not matter. -/
def quietRuntime : Runtime where
  g12 := fun _ => ⟨[0x30], by decide⟩
  length_g12 := fun _ => by decide
  strerror := fun _ => ⟨[0x3f], by decide⟩

def firstThread : Thread := ⟨1, by decide, by decide⟩

/-- A call in September 2001. -/
def callAt2001 (kind : LoggerKind) (insertions : List Insertion) : LogCall :=
  { kind := kind, file := ⟨chars ['a', '.', 'c'], by decide⟩, line := 1, now := 1000000000000000
    memory := Vector.replicate kSmallBuffer 0, insertions := insertions }

theorem callAt2001_asserted (kind : LoggerKind) (insertions : List Insertion) :
    (callAt2001 kind insertions).Asserted ThreadLocals.initial := by
  refine ⟨fun _ => ?_, ?_⟩
  · show (timeText 1000000000).length = 17
    decide
  · show (microsecondsText 0).length = 9
    decide

theorem callAt2001_clean {kind : LoggerKind} {bytes : List UInt8} (h : 0 ∉ bytes) :
    (callAt2001 kind [.string bytes]).Clean quietRuntime := List.forall_mem_singleton.mpr h

/-- A short error is logged as a line of its own. -/
theorem record_intact_short :
    ∃ logged, log quietRuntime firstThread .initial
        (callAt2001 (.level .ERROR) [.string [0x61]]) = .ok logged ∧
      logged.record.getLast? = some 0x0a ∧ 0 ∉ logged.record := by
  have hasserted := callAt2001_asserted (.level .ERROR) [.string [0x61]]
  have hclean : (callAt2001 (.level .ERROR) [.string [0x61]]).Clean quietRuntime :=
    callAt2001_clean (by decide)
  obtain ⟨logged, hlog, hiff⟩ := (record_intact_iff quietRuntime firstThread [] rfl
    (callAt2001 (.level .ERROR) [.string [0x61]])).2 hasserted
  have hlogged := (log_ok quietRuntime firstThread hasserted).symm.trans hlog
  obtain rfl := Except.ok.inj hlogged
  refine ⟨_, hlog, ?_⟩
  have hintact := hiff.mpr ⟨.inl (by decide +kernel), fun _ => ⟨by decide, _,
    List.mem_singleton.mpr rfl, by decide⟩⟩
  exact ⟨hintact.1, hintact.2 hclean⟩

/-- A message of the level `INFO` has a terminator in it, and an error with a text of 3961 bytes has
no newline behind it. -/
theorem record_not_intact :
    (∃ logged, log quietRuntime firstThread .initial (callAt2001 .plain [.string [0x61]]) =
        .ok logged ∧
      (callAt2001 .plain [.string [0x61]]).Clean quietRuntime ∧ 0 ∈ logged.record) ∧
    ∃ logged, log quietRuntime firstThread .initial
        (callAt2001 (.level .ERROR) [.string (List.replicate 3961 0x61)]) = .ok logged ∧
      logged.record.getLast? = some 0x61 := by
  refine ⟨⟨_, log_ok _ _ (callAt2001_asserted _ _), callAt2001_clean (by decide), ?_⟩,
    _, log_ok _ _ (callAt2001_asserted _ _), ?_⟩
  · decide +kernel
  · decide +kernel

end DbdkyGcc.Streams
