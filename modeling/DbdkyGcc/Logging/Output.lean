import DbdkyGcc.Logging.LogFile

/-!
# What gets into the log files

A `LogFile` writes through a stream of the C library. A call of `fwrite` takes bytes
into the buffer of the stream, and some of the bytes in the buffer get to the file;
`fflush` and `fclose` send the rest after them. Each of these calls can fail, and
`LogFile` goes on as if it had not.

As long as no call fails, a file and the buffer together have the bytes that the calls
have taken, in this order. A call that fails may lose any of the bytes in the buffer,
those included that it has taken itself and counts in its result; what is left of the
text goes on with the next call. So a file always has, in their order, some of the bytes
that were appended while it was open.
-/

namespace DbdkyGcc.Logging

open Foundations

/-- The bytes at the places that `keep` marks. -/
def survivors : List Bool → List UInt8 → List UInt8
  | true :: keep, b :: bytes => b :: survivors keep bytes
  | false :: keep, _ :: bytes => survivors keep bytes
  | _, _ => []

/-- A call that fails: which of the bytes in the stream are not lost, and how many of these get to the
file. -/
structure Failing where
  keep : List Bool
  sent : Nat

/-- A call of `fwrite_unlocked`: its result, and how many of the bytes in the buffer get to the file.
It has failed if its result is less than the number of bytes that it was given. -/
structure Fwrite where
  taken : Nat
  sent : Nat
  keep : List Bool

/-- What one `LogFile::append` meets: the calls of `fwrite_unlocked`, the times that it reads, and
what `fflush` and `fclose` do if they fail. -/
structure Outcome where
  fwrites : List Fwrite
  began : Int
  check : Int
  roll : Int
  flushing : Option Failing
  closing : Option Failing

/-- A `LogFile` with the buffer of its stream, the contents of the files by name, and whether a call
has failed. -/
structure Output where
  log : LogFile
  buffered : List UInt8
  disk : List Char → List UInt8
  failed : Bool

namespace Output

section Operations

variable (c : Settings) (o : Output)

/-- The first bytes of the buffer get to the file. -/
def send (name : List Char) (n : Nat) : Output :=
  { o with
    buffered := o.buffered.drop n
    disk := Function.update o.disk name (o.disk name ++ o.buffered.take n) }

/-- A call has failed. -/
def lose (keep : List Bool) : Output :=
  { o with buffered := survivors keep o.buffered, failed := true }

/-- `File::write`. -/
def write (name : List Char) (text : List UInt8) (w : Fwrite) : Output :=
  let o := { o with buffered := o.buffered ++ text.take w.taken }
  (if w.taken < text.length then o.lose w.keep else o).send name w.sent

/-- The loop of `File::append`, without a result if it makes more calls than there are. -/
def appendLoop (name : List Char) : Output → List UInt8 → List Fwrite → Option Output
  | o, [], _ => some o
  | _, _ :: _, [] => none
  | o, b :: text, w :: fwrites =>
    let o := o.write name (b :: text) w
    -- a call that takes nothing ends the loop, and what is left of the text is given up
    if w.taken = 0 then some o
    else appendLoop name o ((b :: text).drop w.taken) fwrites

/-- `File::append`. Its first call is repeated even if it has taken nothing. -/
def fileAppend (name : List Char) (text : List UInt8) : List Fwrite → Option Output
  | [] => none
  | w :: fwrites => appendLoop name (o.write name text w) (text.drop w.taken) fwrites

/-- `File::flush`. -/
def flush (name : List Char) : Option Failing → Output
  | none => o.send name o.buffered.length
  | some x => (o.lose x.keep).send name x.sent

/-- `File::~File`. What `fclose` does not send is lost. -/
def close (name : List Char) (closing : Option Failing) : Output :=
  { o.flush name closing with buffered := [] }

/-- `rollFile`. The old stream is closed when the new one has been opened. -/
def rollFile (now : Int) (closing : Option Failing) : Output :=
  if o.log.lastRoll < now then
    { o.log.file.elim o fun f => o.close f.name closing with log := o.log.rollFile c now }
  else o

def appendUnlocked (text : List UInt8) (x : Outcome) : Option (Except LogFile.Fault Output) :=
  match o.log.file with
  | none => some (.error .nullFile)
  | some f => do
    let o ← o.fileAppend f.name text x.fwrites
    let f := f.append text.length x.began
    let o := { o with log := { o.log with file := some f } }
    if c.rollSize < f.writtenBytes then some (.ok (o.rollFile c x.roll x.closing))
    else if LogFile.kCheckTimeRoll < o.log.count then
      let o := { o with log := { o.log with count := 0 } }
      if LogFile.startOf x.check ≠ o.log.startOfPeriod then
        some (.ok (o.rollFile c x.roll x.closing))
      else if c.flushInterval < x.check - o.log.lastFlush then
        let o := { o with log := { o.log with lastFlush := x.check } }
        some (.ok (o.flush f.name x.flushing))
      else some (.ok o)
    else some (.ok { o with log := { o.log with count := o.log.count + 1 } })

/-- Several texts, one after another. -/
def appendAll : Output → List (List UInt8) → List Outcome → Option (Except LogFile.Fault Output)
  | o, [], [] => some (.ok o)
  | o, text :: texts, x :: outcomes => do
    match ← o.appendUnlocked c text x with
    | .error e => some (.error e)
    | .ok o => appendAll o texts outcomes
  | _, _, _ => none

/-- `LogFile::flush`. -/
def flushFile (flushing : Option Failing) : Except LogFile.Fault Output :=
  match o.log.file with
  | none => .error .nullFile
  | some f => .ok (o.flush f.name flushing)

/-- The constructor, at the time `now`. -/
def construct (disk : List Char → List UInt8) (now : Int) : Output :=
  ⟨.new c now, [], disk, false⟩

/-- `LogFile::~LogFile`. -/
def destroy (closing : Option Failing) : Output :=
  match o.log.file with
  | none => o
  | some f =>
    { o.close f.name closing with
      log := { o.log with file := none, closed := o.log.closed ++ [f] } }

end Operations

/-! ### The stream -/

theorem survivors_sublist (keep : List Bool) (bytes : List UInt8) :
    (survivors keep bytes).Sublist bytes := by
  fun_induction survivors keep bytes with
  | case1 keep b bytes ih => exact ih.cons_cons b
  | case2 keep b bytes ih => exact ih.cons b
  | case3 keep bytes => exact List.nil_sublist _

/-- The bytes of `piece` have been given to a stream, and nothing but its file has changed. What has
got to the file and to the buffer is some of the bytes, and all of them unless a call has failed. -/
structure Adds (name : List Char) (o o' : Output) (piece : List UInt8) : Prop where
  log_eq : o'.log = o.log
  others : ∀ n, n ≠ name → o'.disk n = o.disk n
  grows : ∃ sent, o'.disk name = o.disk name ++ sent ∧
    (sent ++ o'.buffered).Sublist (o.buffered ++ piece) ∧
    (o'.failed = false → o.failed = false ∧ sent ++ o'.buffered = o.buffered ++ piece)

variable {c : Settings} {o o' o'' : Output} {name : List Char} {flushing : Option Failing}

theorem adds_buffer (o : Output) (name : List Char) (piece : List UInt8) :
    Adds name o { o with buffered := o.buffered ++ piece } piece where
  log_eq := rfl
  others _ _ := rfl
  grows := ⟨[], (List.append_nil _).symm, List.Sublist.refl _, fun hok => ⟨hok, rfl⟩⟩

theorem Adds.refl (name : List Char) (o : Output) : Adds name o o [] := by
  have h := adds_buffer o name []
  rwa [List.append_nil] at h

theorem Adds.trans {p q : List UInt8} (h : Adds name o o' p) (h' : Adds name o' o'' q) :
    Adds name o o'' (p ++ q) := by
  obtain ⟨sent, hdisk, hsub, hok⟩ := h.grows
  obtain ⟨sent', hdisk', hsub', hok'⟩ := h'.grows
  refine ⟨h'.log_eq.trans h.log_eq, fun n hn => (h'.others n hn).trans (h.others n hn),
    sent ++ sent', ?_, ?_, fun hall => ?_⟩
  · rw [hdisk', hdisk, List.append_assoc]
  · rw [List.append_assoc, ← List.append_assoc o.buffered]
    refine (hsub'.append_left sent).trans ?_
    rw [← List.append_assoc]
    exact hsub.append_right q
  · obtain ⟨hall', heq'⟩ := hok' hall
    obtain ⟨hall, heq⟩ := hok hall'
    exact ⟨hall, by rw [List.append_assoc, heq', ← List.append_assoc, heq, List.append_assoc]⟩

/-- What is given up counts as lost. -/
theorem Adds.of_failed {p q : List UInt8} (h : Adds name o o' p) (hsub : p.Sublist q)
    (hfailed : o'.failed = true) : Adds name o o' q := by
  obtain ⟨sent, hdisk, hgrows, -⟩ := h.grows
  refine ⟨h.log_eq, h.others, sent, hdisk, hgrows.trans (hsub.append_left _), fun hok => ?_⟩
  rw [hfailed] at hok
  cases hok

theorem adds_send (o : Output) (name : List Char) (n : Nat) : Adds name o (o.send name n) [] where
  log_eq := rfl
  others := fun _ hm => Function.update_of_ne hm _ _
  grows := by
    have heq : o.buffered.take n ++ o.buffered.drop n = o.buffered ++ [] := by
      rw [List.take_append_drop, List.append_nil]
    refine ⟨o.buffered.take n, Function.update_self _ _ _, ?_, fun hok => ⟨hok, heq⟩⟩
    exact heq ▸ List.Sublist.refl _

theorem adds_lose (o : Output) (name : List Char) (keep : List Bool) :
    Adds name o (o.lose keep) [] where
  log_eq := rfl
  others _ _ := rfl
  grows := by
    refine ⟨[], (List.append_nil _).symm, ?_, nofun⟩
    rw [List.append_nil]
    exact survivors_sublist keep o.buffered

theorem adds_write (o : Output) (name : List Char) (text : List UInt8) (w : Fwrite) :
    Adds name o (o.write name text w) (text.take w.taken) := by
  have htake := adds_buffer o name (text.take w.taken)
  unfold Output.write
  dsimp only
  split
  · have h := (htake.trans (adds_lose _ name w.keep)).trans (adds_send _ name w.sent)
    rwa [List.append_nil, List.append_nil] at h
  · have h := htake.trans (adds_send _ name w.sent)
    rwa [List.append_nil] at h

theorem failed_write {text : List UInt8} {w : Fwrite} (h : w.taken < text.length) :
    (o.write name text w).failed = true := by
  unfold Output.write
  simp only [if_pos h]
  rfl

theorem Adds.after_write {text : List UInt8} {w : Fwrite}
    (h : Adds name (o.write name text w) o' (text.drop w.taken)) : Adds name o o' text := by
  have hall := (adds_write o name text w).trans h
  rwa [List.take_append_drop] at hall

theorem adds_appendLoop {text : List UInt8} {fwrites : List Fwrite}
    (h : appendLoop name o text fwrites = some o') : Adds name o o' text := by
  induction fwrites generalizing o text with
  | nil =>
    cases text with
    | nil =>
      cases h
      exact .refl name _
    | cons b text => cases h
  | cons w fwrites ih =>
    cases text with
    | nil =>
      cases h
      exact .refl name _
    | cons b text =>
      rw [appendLoop] at h
      split at h
      · next hzero =>
        cases h
        refine (adds_write o name (b :: text) w).of_failed (List.take_sublist _ _)
          (failed_write ?_)
        rw [hzero]
        exact Nat.succ_pos _
      · exact (ih h).after_write

theorem adds_fileAppend {text : List UInt8} {fwrites : List Fwrite}
    (h : o.fileAppend name text fwrites = some o') : Adds name o o' text := by
  cases fwrites with
  | nil => cases h
  | cons w fwrites => exact (adds_appendLoop h).after_write

theorem adds_flush (o : Output) (name : List Char) (flushing : Option Failing) :
    Adds name o (o.flush name flushing) [] := by
  cases flushing with
  | none => exact adds_send o name _
  | some x => exact (adds_lose o name x.keep).trans (adds_send _ name x.sent)

theorem buffered_flush (hok : (o.flush name flushing).failed = false) :
    (o.flush name flushing).buffered = [] := by
  cases flushing with
  | none => exact List.drop_length
  | some x => cases hok

/-! ### The files -/

/-- What has got to a file, and what is still in the buffer, are some bytes of the texts in their
order; all of them, unless a call has failed. -/
def Got (failed : Bool) (old new buffered : List UInt8) (texts : List (List UInt8)) : Prop :=
  ∃ got, new = old ++ got ∧ (got ++ buffered).Sublist texts.flatten ∧
    (failed = false → got ++ buffered = texts.flatten)

/-- The texts have been appended: those of `groups` to the files that have been closed, and those of
`current` to the open one. -/
structure Kept (c : Settings) (disk : List Char → List UInt8) (o : Output)
    (texts : List (List UInt8)) (groups : List (List (List UInt8)))
    (current : List (List UInt8)) : Prop where
  ordered : LogFile.Ordered c o.log
  closed : List.Forall₂ (fun f g => Got o.failed (disk f.name) (o.disk f.name) [] g)
    o.log.closed groups
  file : ∀ f, o.log.file = some f → Got o.failed (disk f.name) (o.disk f.name) o.buffered current
  idle : o.log.file = none → current = []
  texts : groups.flatten ++ current = texts
  others : ∀ n, n ∉ o.log.files.map File.name → o.disk n = disk n

variable {disk : List Char → List UInt8} {texts : List (List UInt8)}
  {groups : List (List (List UInt8))} {current : List (List UInt8)} {f : File}

theorem Got.of_le {failed failed' : Bool} {old new buffered : List UInt8}
    (h : Got failed old new buffered texts) (hle : failed' = false → failed = false) :
    Got failed' old new buffered texts := by
  obtain ⟨got, hnew, hsub, hall⟩ := h
  exact ⟨got, hnew, hsub, fun hok => hall (hle hok)⟩

/-- What was given to the stream comes behind what it had. -/
theorem Got.adds {piece : List UInt8} {old : List UInt8} {texts' : List (List UInt8)}
    (h : Got o.failed old (o.disk name) o.buffered texts) (hadds : Adds name o o' piece)
    (htexts : texts'.flatten = texts.flatten ++ piece) :
    Got o'.failed old (o'.disk name) o'.buffered texts' := by
  obtain ⟨got, hdisk, hsub, hall⟩ := h
  obtain ⟨sent, hdisk', hsub', hall'⟩ := hadds.grows
  refine ⟨got ++ sent, ?_, ?_, fun hok => ?_⟩
  · rw [hdisk', hdisk, List.append_assoc]
  · rw [htexts, List.append_assoc]
    refine (hsub'.append_left got).trans ?_
    rw [← List.append_assoc]
    exact hsub.append_right piece
  · obtain ⟨hok, heq⟩ := hall' hok
    rw [List.append_assoc, heq, ← List.append_assoc, hall hok, htexts]

/-- The buffer of a stream that is closed is empty, or a call has failed. -/
theorem Got.close {failed : Bool} {old new buffered : List UInt8}
    (h : Got failed old new buffered texts) (hbuffered : failed = false → buffered = []) :
    Got failed old new [] texts := by
  obtain ⟨got, hnew, hsub, hall⟩ := h
  refine ⟨got, hnew, ?_, fun hok => ?_⟩
  · rw [List.append_nil]
    exact (List.sublist_append_left got buffered).trans hsub
  · rw [← hbuffered hok]
    exact hall hok

/-- The name of the open file is none of the others. -/
theorem Kept.name_ne (h : Kept c disk o texts groups current) (hf : o.log.file = some f) {g : File}
    (hg : g ∈ o.log.closed) : g.name ≠ f.name := by
  have hnodup := h.ordered.nodup_names
  rw [LogFile.files, hf, List.map_append, List.nodup_append] at hnodup
  exact hnodup.2.2 _ (List.mem_map_of_mem hg) _ (by simp)

theorem ne_of_notMem_names (hf : o.log.file = some f) (h : name ∉ o.log.files.map File.name) :
    name ≠ f.name := by
  rintro rfl
  exact h (by simp [LogFile.files, hf])

theorem Adds.failed_le {piece : List UInt8} (h : Adds name o o' piece)
    (hok : o'.failed = false) : o.failed = false := by
  obtain ⟨_, -, -, hall⟩ := h.grows
  exact (hall hok).1

/-- The files that have been closed stay as they are. -/
theorem Kept.closed_adds {piece : List UInt8} (h : Kept c disk o texts groups current)
    (hf : o.log.file = some f) (hadds : Adds f.name o o' piece) :
    List.Forall₂ (fun f g => Got o'.failed (disk f.name) (o'.disk f.name) [] g)
      o.log.closed groups := by
  refine (List.forall₂_and_left _ _).mpr ⟨fun g hg => hg, h.closed⟩ |>.imp fun g pieces hg => ?_
  rw [hadds.others _ (h.name_ne hf hg.1)]
  exact hg.2.of_le hadds.failed_le

/-- What calls on the open stream have been given. -/
theorem Kept.adds {piece : List UInt8} {texts' current' : List (List UInt8)}
    (h : Kept c disk o texts groups current) (hf : o.log.file = some f)
    (hadds : Adds f.name o o' piece)
    (hcurrent : current'.flatten = current.flatten ++ piece)
    (htexts : groups.flatten ++ current' = texts') :
    Kept c disk o' texts' groups current' := by
  have hlog := hadds.log_eq
  refine ⟨?_, ?_, fun g hg => ?_, fun hnone => ?_, htexts, fun n hn => ?_⟩
  · rw [hlog]
    exact h.ordered
  · rw [hlog]
    exact h.closed_adds hf hadds
  · rw [hlog, hf] at hg
    cases hg
    exact (h.file f hf).adds hadds hcurrent
  · rw [hlog, hf] at hnone
    cases hnone
  · rw [hlog] at hn
    rw [hadds.others n (ne_of_notMem_names hf hn), h.others n hn]

theorem Kept.flush (h : Kept c disk o texts groups current) (hf : o.log.file = some f)
    (flushing : Option Failing) : Kept c disk (o.flush f.name flushing) texts groups current :=
  h.adds hf (adds_flush o f.name flushing) (List.append_nil _).symm h.texts

theorem Kept.appends {text : List UInt8} (h : Kept c disk o texts groups current)
    (hf : o.log.file = some f) (hadds : Adds f.name o o' text) :
    Kept c disk o' (texts ++ [text]) groups (current ++ [text]) := by
  refine h.adds hf hadds ?_ ?_
  · rw [List.flatten_append, List.flatten_singleton]
  · rw [← List.append_assoc, h.texts]

/-- A change of what the log file counts. -/
theorem Kept.relog {log : LogFile} (h : Kept c disk o texts groups current)
    (hordered : LogFile.Ordered c log) (hclosed : log.closed = o.log.closed)
    (hfile : log.file.map File.name = o.log.file.map File.name) :
    Kept c disk { o with log } texts groups current := by
  refine ⟨hordered, ?_, fun f hf => ?_, fun hnone => ?_, h.texts, fun n hn => ?_⟩
  · exact hclosed ▸ h.closed
  · have hsome : o.log.file.map File.name = some f.name := by
      rw [← hfile]
      exact congrArg (Option.map File.name) hf
    obtain ⟨g, hg, hname⟩ := Option.map_eq_some_iff.mp hsome
    rw [← hname]
    exact h.file g hg
  · have hnone : log.file = none := hnone
    refine h.idle ?_
    rw [hnone] at hfile
    exact Option.map_eq_none_iff.mp hfile.symm
  · refine h.others n fun hmem => hn ?_
    have hnames : log.files.map File.name = o.log.files.map File.name := by
      rw [LogFile.files, LogFile.files, hclosed, List.map_append, List.map_append,
        ← Option.toList_map, ← Option.toList_map, hfile]
    exact hnames ▸ hmem

/-- The open file has been closed, and another one may have been opened. -/
theorem Kept.close {log : LogFile} (h : Kept c disk o texts groups current)
    (hf : o.log.file = some f) (closing : Option Failing) (hordered : LogFile.Ordered c log)
    (hclosed : log.closed = o.log.closed ++ [f])
    (hfile : ∀ g, log.file = some g → g.name ∉ o.log.files.map File.name) :
    Kept c disk { o.close f.name closing with log } texts (groups ++ [current]) [] := by
  have hadds := adds_flush o f.name closing
  have hother : ∀ n, n ≠ f.name → (o.close f.name closing).disk n = o.disk n := hadds.others
  refine ⟨hordered, ?_, fun g hg => ?_, fun _ => rfl, ?_, fun n hn => ?_⟩
  · show List.Forall₂ _ log.closed _
    rw [hclosed]
    refine List.rel_append (h.closed_adds hf hadds) (.cons ?_ .nil)
    exact ((h.file f hf).adds hadds (List.append_nil _).symm).close buffered_flush
  · have hnew := hfile g hg
    refine ⟨[], ?_, List.Sublist.refl _, fun _ => rfl⟩
    rw [List.append_nil]
    exact (hother _ (ne_of_notMem_names hf hnew)).trans (h.others _ hnew)
  · rw [List.append_nil, List.flatten_append, List.flatten_singleton]
    exact h.texts
  · have hnot : n ∉ o.log.files.map File.name := by
      intro hmem
      apply hn
      show n ∈ log.files.map File.name
      rw [LogFile.files, hclosed, List.map_append]
      rw [LogFile.files, hf] at hmem
      exact List.mem_append_left _ hmem
    exact (hother _ (ne_of_notMem_names hf hnot)).trans (h.others _ hnot)

/-- The texts have been appended. -/
def Holds (c : Settings) (disk : List Char → List UInt8) (o : Output)
    (texts : List (List UInt8)) : Prop :=
  ∃ groups current, Kept c disk o texts groups current

theorem holds_construct (c : Settings) (disk : List Char → List UInt8) (now : Int) :
    Holds c disk (construct c disk now) [] := by
  have hclosed : (LogFile.new c now).closed = [] := by
    unfold LogFile.new LogFile.rollFile
    split
    · rfl
    · rfl
  refine ⟨[], [], (LogFile.daily_new c now).ordered, ?_, fun f _ => ?_, fun _ => rfl, rfl,
    fun _ _ => rfl⟩
  · show List.Forall₂ _ (LogFile.new c now).closed _
    rw [hclosed]
    exact .nil
  · exact ⟨[], (List.append_nil _).symm, List.Sublist.refl _, fun _ => rfl⟩

theorem Kept.rollFile (h : Kept c disk o texts groups current) (hf : o.log.file = some f)
    (now : Int) (closing : Option Failing) : Holds c disk (o.rollFile c now closing) texts := by
  unfold Output.rollFile
  split
  · next hroll =>
    have hordered := h.ordered.rollFile now
    have hnames := hordered.nodup_names
    rw [LogFile.files_rollFile c hroll, List.map_append, List.nodup_append] at hnames
    have hclosed : (o.log.rollFile c now).closed = o.log.closed ++ [f] := by
      rw [LogFile.rollFile, if_pos hroll, hf]
      rfl
    have hnew : ∀ g, (o.log.rollFile c now).file = some g →
        g.name ∉ o.log.files.map File.name := by
      intro g hg hmem
      rw [LogFile.rollFile, if_pos hroll] at hg
      cases hg
      exact hnames.2.2 _ hmem _ (by simp) rfl
    rw [hf]
    exact ⟨_, _, h.close hf closing hordered hclosed hnew⟩
  · exact ⟨_, _, h⟩

theorem Holds.appendUnlocked {text : List UInt8} {x : Outcome} (h : Holds c disk o texts)
    (hr : o.appendUnlocked c text x = some (.ok o')) : Holds c disk o' (texts ++ [text]) := by
  obtain ⟨groups, current, h⟩ := h
  unfold Output.appendUnlocked at hr
  split at hr
  · cases hr
  · next f hf =>
    obtain ⟨o₁, ho₁, hr⟩ := Option.bind_eq_some_iff.mp hr
    have hadds := adds_fileAppend ho₁
    have h₁ := h.appends hf hadds
    have hf₁ : o₁.log.file = some f := by rw [hadds.log_eq, hf]
    have hordered := h₁.ordered.append hf₁ text.length x.began
    -- whatever is counted, the open file is the same
    have hcounted : ∀ count lastFlush, Kept c disk { o₁ with log := { o₁.log with
        file := some (f.append text.length x.began), count, lastFlush } } (texts ++ [text]) groups
        (current ++ [text]) := fun count lastFlush =>
      h₁.relog (hordered.frame count lastFlush o₁.log.clock) rfl (by rw [hf₁]; rfl)
    dsimp only at hr
    split at hr
    · cases hr
      exact (hcounted _ _).rollFile rfl _ _
    · split at hr
      · split at hr
        · cases hr
          exact (hcounted 0 _).rollFile rfl _ _
        · split at hr
          · cases hr
            exact ⟨_, _, (hcounted 0 x.check).flush rfl _⟩
          · cases hr
            exact ⟨_, _, hcounted 0 _⟩
      · cases hr
        exact ⟨_, _, hcounted _ _⟩

theorem Holds.appendAll {more : List (List UInt8)} {outcomes : List Outcome}
    (h : Holds c disk o texts) (hr : appendAll c o more outcomes = some (.ok o')) :
    Holds c disk o' (texts ++ more) := by
  induction more generalizing o texts outcomes with
  | nil =>
    cases outcomes with
    | nil =>
      cases hr
      rwa [List.append_nil]
    | cons x outcomes => cases hr
  | cons text more ih =>
    cases outcomes with
    | nil => cases hr
    | cons x outcomes =>
      rw [Output.appendAll] at hr
      obtain ⟨r, happend, hr⟩ := Option.bind_eq_some_iff.mp hr
      cases r with
      | error e => cases hr
      | ok o₁ =>
        rw [List.append_cons]
        exact ih (h.appendUnlocked happend) hr

theorem Holds.flushFile {flushing : Option Failing} (h : Holds c disk o texts)
    (hr : o.flushFile flushing = .ok o') : Holds c disk o' texts := by
  obtain ⟨groups, current, h⟩ := h
  unfold Output.flushFile at hr
  split at hr
  · cases hr
  · next f hf =>
    cases hr
    exact ⟨groups, current, h.flush hf flushing⟩

/-- When the log file is gone, so is the buffer. -/
theorem Holds.destroy (h : Holds c disk o texts) (closing : Option Failing) :
    ∃ groups, Kept c disk (o.destroy closing) texts groups [] := by
  obtain ⟨groups, current, h⟩ := h
  unfold Output.destroy
  split
  · next hnone =>
    obtain rfl := h.idle hnone
    exact ⟨groups, h⟩
  · next f hf =>
    have hfiles : ({ o.log with file := none, closed := o.log.closed ++ [f] } : LogFile).files =
        o.log.files := by
      simp [LogFile.files, hf]
    have hnone : ∀ g : File, none = some g → False := by
      intro g hg
      cases hg
    refine ⟨_, h.close hf closing ?_ rfl fun g hg => absurd hg (hnone g)⟩
    obtain ⟨hnamed, hincreasing, hle, -, hnonneg⟩ := h.ordered
    unfold LogFile.seconds at hnamed hincreasing hle
    rw [← hfiles] at hnamed hincreasing hle
    exact ⟨hnamed, hincreasing, hle, fun g hg => absurd hg (hnone g), hnonneg⟩

/-! ### The open file -/

theorem log_rollFile (c : Settings) (o : Output) (now : Int) (closing : Option Failing) :
    (o.rollFile c now closing).log = o.log.rollFile c now := by
  unfold rollFile LogFile.rollFile
  split
  · rfl
  · rfl

/-- Without the bytes, this is the log file that only counts them. -/
theorem log_appendUnlocked {text : List UInt8} {x : Outcome}
    {m : Except LogFile.Fault Output} (hr : o.appendUnlocked c text x = some m) :
    m.map Output.log = o.log.appendUnlocked c text.length x.began x.check x.roll := by
  unfold appendUnlocked at hr
  unfold LogFile.appendUnlocked
  rcases Option.eq_none_or_eq_some o.log.file with hnone | ⟨f, hf⟩
  · rw [hnone] at hr ⊢
    cases hr
    rfl
  · rw [hf] at hr ⊢
    obtain ⟨o₁, ho₁, hr⟩ := Option.bind_eq_some_iff.mp hr
    have hlog := (adds_fileAppend ho₁).log_eq
    dsimp only at hr ⊢
    rw [hlog] at hr
    split at hr
    · next hsize =>
      cases hr
      rw [if_pos hsize, Except.map, log_rollFile]
    · next hsize =>
      rw [if_neg hsize]
      split at hr
      · next hcount =>
        rw [if_pos hcount]
        split at hr
        · next hperiod =>
          cases hr
          rw [if_pos hperiod, Except.map, log_rollFile]
        · next hperiod =>
          rw [if_neg hperiod]
          split at hr
          · next hflush =>
            cases hr
            rw [if_pos hflush, Except.map, (adds_flush _ _ _).log_eq]
          · next hflush =>
            cases hr
            rw [if_neg hflush]
            rfl
      · next hcount =>
        cases hr
        rw [if_neg hcount]
        rfl

theorem isSome_rollFile {s : LogFile} (hs : s.file.isSome = true) (now : Int) :
    (s.rollFile c now).file.isSome = true := by
  unfold LogFile.rollFile
  split
  · rfl
  · exact hs

theorem exists_appendUnlocked {s : LogFile} (hs : s.file.isSome = true) (len : Nat)
    (began check roll : Int) :
    ∃ t, s.appendUnlocked c len began check roll = .ok t ∧ t.file.isSome = true := by
  obtain ⟨f, hf⟩ := Option.isSome_iff_exists.mp hs
  unfold LogFile.appendUnlocked
  rw [hf]
  dsimp only
  split
  · exact ⟨_, rfl, isSome_rollFile rfl roll⟩
  · split
    · split
      · exact ⟨_, rfl, isSome_rollFile rfl roll⟩
      · split
        · exact ⟨_, rfl, rfl⟩
        · exact ⟨_, rfl, rfl⟩
    · exact ⟨_, rfl, rfl⟩

/-- An open log file stays open. -/
theorem appendAll_isSome {texts : List (List UInt8)} {outcomes : List Outcome}
    {m : Except LogFile.Fault Output} (ho : o.log.file.isSome = true)
    (hr : appendAll c o texts outcomes = some m) :
    ∃ o', m = .ok o' ∧ o'.log.file.isSome = true := by
  induction texts generalizing o outcomes with
  | nil =>
    cases outcomes with
    | nil =>
      cases hr
      exact ⟨o, rfl, ho⟩
    | cons x outcomes => cases hr
  | cons text texts ih =>
    cases outcomes with
    | nil => cases hr
    | cons x outcomes =>
      rw [appendAll] at hr
      obtain ⟨r, happend, hr⟩ := Option.bind_eq_some_iff.mp hr
      obtain ⟨t, ht, hopen⟩ := exists_appendUnlocked (c := c) ho text.length x.began x.check x.roll
      rw [← log_appendUnlocked happend] at ht
      cases r with
      | error e => cases ht
      | ok o₁ =>
        cases ht
        exact ih hopen hr

theorem flushFile_isSome (ho : o.log.file.isSome = true) (flushing : Option Failing) :
    ∃ o', o.flushFile flushing = .ok o' ∧ o'.log.file.isSome = true := by
  obtain ⟨f, hf⟩ := Option.isSome_iff_exists.mp ho
  refine ⟨o.flush f.name flushing, ?_, ?_⟩
  · rw [flushFile, hf]
  · rw [(adds_flush o f.name flushing).log_eq]
    exact ho

theorem file_destroy (o : Output) (closing : Option Failing) :
    (o.destroy closing).log.file = none := by
  unfold destroy
  split
  · next hnone => exact hnone
  · rfl

theorem isSome_construct {now : Int} (hnow : 0 < now) (disk : List Char → List UInt8) :
    (construct c disk now).log.file.isSome = true := by
  rw [construct, LogFile.new, LogFile.rollFile, if_pos hnow]
  rfl

end Output

end DbdkyGcc.Logging
