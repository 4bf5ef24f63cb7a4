import DbdkyGcc.Foundations.Runs
import DbdkyGcc.Foundations.Text
import DbdkyGcc.Foundations.Calendar

/-!
# Rolling the log file

A `LogFile` goes on to a new file when the current one has become too large, or
when a look at the clock, which is taken once in a while only, shows another day.
A roll is refused in a second in which there has been one already.

The counter that decides when to look at the clock is not reset by a roll. What
bounds the lines a file gets after its day is over: each of them either counts
or rolls the file, since the clock has then moved past the last roll.
-/

namespace DbdkyGcc.Logging

open Foundations

/-- The beginning of the UTC day of a second. -/
def utcDay (t : Int) : Int := t / 86400 * 86400

theorem utcDay_mono {t u : Int} (h : t ≤ u) : utcDay t ≤ utcDay u := by
  unfold utcDay
  omega

/-- `LogFile::File`, with the second in which it was opened and the number of lines it has got
whose append began on a later UTC day. -/
structure File where
  name : List Char
  writtenBytes : Nat
  opened : Int
  late : Nat
  deriving DecidableEq

/-- `writtenBytes_` is a `size_t`. -/
def File.append (f : File) (len : Nat) (began : Int) : File :=
  { f with
    writtenBytes := (f.writtenBytes + len) % 2 ^ 64
    late := if utcDay f.opened < utcDay began then f.late + 1 else f.late }

/-- The constants of a `LogFile`, and the host and process that its file names tell. -/
structure Settings where
  basename : List Char
  rollSize : Nat
  flushInterval : Int
  hostname : List Char
  pid : Int

/-- The members of `LogFile`, with the files it has closed and the latest time that has been
seen. -/
structure LogFile where
  count : Nat
  startOfPeriod : Int
  lastRoll : Int
  lastFlush : Int
  file : Option File
  closed : List File
  clock : Int
  deriving DecidableEq

namespace LogFile

def kCheckTimeRoll : Nat := 1024

def kRollPerSeconds : Int := 60 * 60 * 24

/-- What `strftime` writes for `".%Y%m%d- %H%M%S."`. -/
def timebuf (tm : Tm) : List Char :=
  '.' :: (signed tm.date.year ++ (twoDigits tm.date.month.toNat ++ (twoDigits tm.date.day.toNat ++
    (['-', ' '] ++ (twoDigits tm.hour ++ (twoDigits tm.min ++ (twoDigits tm.sec ++ ['.'])))))))

def getLogFileName (c : Settings) (now : Int) : List Char :=
  c.basename ++ (timebuf (gmtime now) ++
    (c.hostname ++ (snprintf 32 ('.' :: signed c.pid) ++ ['.', 'l', 'o', 'g'])))

/-- The `/` of two `time_t` rounds towards zero. -/
def startOf (now : Int) : Int := now.tdiv kRollPerSeconds * kRollPerSeconds

def rollFile (c : Settings) (s : LogFile) (now : Int) : LogFile :=
  if s.lastRoll < now then
    { s with
      lastRoll := now
      lastFlush := now
      startOfPeriod := startOf now
      file := some ⟨getLogFileName c now, 0, now, 0⟩
      closed := s.closed ++ s.file.toList }
  else s

/-- The constructor, at the time `now`. -/
def new (c : Settings) (now : Int) : LogFile :=
  rollFile c ⟨0, 0, 0, 0, none, [], now⟩ now

/-- `file_` is null. -/
inductive Fault
  | nullFile
  deriving DecidableEq, Repr

/-- A line of `len` bytes whose append began at the second `began`. The two times are those that
`append_unlocked` and `getLogFileName` read, if they do. -/
def appendUnlocked (c : Settings) (s : LogFile) (len : Nat) (began check roll : Int) :
    Except Fault LogFile :=
  match s.file with
  | none => .error .nullFile
  | some f =>
    let f := f.append len began
    let s := { s with file := some f }
    if c.rollSize < f.writtenBytes then .ok (rollFile c s roll)
    else if kCheckTimeRoll < s.count then
      let s := { s with count := 0 }
      if startOf check ≠ s.startOfPeriod then .ok (rollFile c s roll)
      else if c.flushInterval < check - s.lastFlush then .ok { s with lastFlush := check }
      else .ok s
    else .ok { s with count := s.count + 1 }

def flush (s : LogFile) : Except Fault LogFile :=
  match s.file with
  | none => .error .nullFile
  | some _ => .ok s

inductive Action
  | append (len : Nat) (began check roll : Int)
  | flush
  deriving DecidableEq, Repr

def step (c : Settings) (s : LogFile) : Action → Option (Except Fault LogFile)
  | .append len began check roll =>
    some ((appendUnlocked c s len began check roll).map ({ · with clock := roll }))
  | .flush => some s.flush

/-- The clock does not go back. An append may have begun before others that got the lock first. -/
def Timely (s : LogFile) : Action → Prop
  | .append _ began check roll => s.clock ≤ check ∧ began ≤ check ∧ check ≤ roll
  | .flush => True

instance : ∀ s a, Decidable (Timely s a)
  | s, .append _ began check roll =>
    inferInstanceAs (Decidable (s.clock ≤ check ∧ began ≤ check ∧ check ≤ roll))
  | _, .flush => .isTrue trivial

/-- The files opened so far, in this order. -/
def files (s : LogFile) : List File := s.closed ++ s.file.toList

/-! ### File names -/

theorem timebuf_gmtime_injective : Function.Injective fun t => timebuf (gmtime t) := by
  intro t u h
  obtain ⟨-, h⟩ := List.cons.inj h
  -- The year has any number of digits, but what follows it has a fixed length.
  obtain ⟨hyear, h⟩ := List.append_inj' h rfl
  obtain ⟨hmonth, h⟩ := List.append_inj h rfl
  obtain ⟨hday, h⟩ := List.append_inj h rfl
  obtain ⟨-, h⟩ := List.append_inj h rfl
  obtain ⟨hhour, h⟩ := List.append_inj h rfl
  obtain ⟨hmin, h⟩ := List.append_inj h rfl
  obtain ⟨hsec, -⟩ := List.append_inj h rfl
  have two {m n : Nat} (hm : m < 100) (hn : n < 100) (h : twoDigits m = twoDigits n) : m = n :=
    twoDigits_injOn hm hn h
  have hmt := Date.month_ofDays (t / 86400)
  have hmu := Date.month_ofDays (u / 86400)
  have hdt := Date.day_ofDays (t / 86400)
  have hdu := Date.day_ofDays (u / 86400)
  have hm : (gmtime t).date.month.toNat = (gmtime u).date.month.toNat :=
    two (by simp only [gmtime]; omega) (by simp only [gmtime]; omega) hmonth
  have hd : (gmtime t).date.day.toNat = (gmtime u).date.day.toNat :=
    two (by simp only [gmtime]; omega) (by simp only [gmtime]; omega) hday
  apply gmtime_injective
  apply Tm.ext
  · apply Date.ext
    · exact signed_injective hyear
    · simp only [gmtime] at hm ⊢
      omega
    · simp only [gmtime] at hd ⊢
      omega
  · exact two ((hour_gmtime t).trans (by decide)) ((hour_gmtime u).trans (by decide)) hhour
  · exact two ((min_gmtime t).trans (by decide)) ((min_gmtime u).trans (by decide)) hmin
  · exact two ((sec_gmtime t).trans (by decide)) ((sec_gmtime u).trans (by decide)) hsec

theorem getLogFileName_injective (c : Settings) : Function.Injective (getLogFileName c) := by
  intro t u h
  have htail := List.append_cancel_left h
  exact timebuf_gmtime_injective (List.append_cancel_right htail)

/-! ### The files and their order -/

/-- The seconds in which the files were opened. -/
def seconds (s : LogFile) : List Int := s.files.map File.opened

/-- The files are named by the seconds in which they were opened, one after the other, and the
period is that of the current file. -/
structure Ordered (c : Settings) (s : LogFile) : Prop where
  named : s.files.map File.name = s.seconds.map (getLogFileName c)
  increasing : s.seconds.Pairwise (· < ·)
  le_lastRoll : ∀ t ∈ s.seconds, t ≤ s.lastRoll
  current : ∀ f, s.file = some f → f.opened = s.lastRoll ∧ s.startOfPeriod = utcDay f.opened
  nonneg : 0 ≤ s.lastRoll

theorem startOf_eq_utcDay {t : Int} (h : 0 ≤ t) : startOf t = utcDay t := by
  rw [startOf, Int.tdiv_eq_ediv_of_nonneg h]
  rfl

theorem files_rollFile (c : Settings) {s : LogFile} {now : Int} (h : s.lastRoll < now) :
    (rollFile c s now).files = s.files ++ [⟨getLogFileName c now, 0, now, 0⟩] := by
  simp [rollFile, files, if_pos h]

variable {c : Settings} {s : LogFile}

theorem Ordered.rollFile (hs : Ordered c s) (now : Int) : Ordered c (rollFile c s now) := by
  by_cases h : s.lastRoll < now
  · have hfiles := files_rollFile c h
    have hseconds : (LogFile.rollFile c s now).seconds = s.seconds ++ [now] := by
      rw [seconds, hfiles, List.map_append]
      rfl
    have hnow : 0 ≤ now := hs.nonneg.trans h.le
    constructor
    · rw [hseconds, hfiles, List.map_append, List.map_append, hs.named]
      rfl
    · rw [hseconds, List.pairwise_append]
      refine ⟨hs.increasing, List.pairwise_singleton _ _, ?_⟩
      intro t ht u hu
      rw [List.mem_singleton] at hu
      subst hu
      exact (hs.le_lastRoll t ht).trans_lt h
    · intro t ht
      rw [hseconds, List.mem_append, List.mem_singleton] at ht
      simp only [LogFile.rollFile, if_pos h]
      rcases ht with ht | rfl
      · exact (hs.le_lastRoll t ht).trans h.le
      · exact le_rfl
    · intro f hf
      simp only [LogFile.rollFile, if_pos h, Option.some.injEq] at hf ⊢
      subst hf
      exact ⟨rfl, startOf_eq_utcDay hnow⟩
    · simp only [LogFile.rollFile, if_pos h]
      exact hnow
  · rw [LogFile.rollFile, if_neg h]
    exact hs

/-- A line does not change what a file is called and when it was opened. -/
theorem Ordered.append (hs : Ordered c s) {f : File} (hf : s.file = some f) (len : Nat)
    (began : Int) : Ordered c { s with file := some (f.append len began) } := by
  have hnames : ({ s with file := some (f.append len began) } : LogFile).files.map File.name =
      s.files.map File.name := by
    simp [files, hf, File.append]
  have hseconds : ({ s with file := some (f.append len began) } : LogFile).seconds =
      s.seconds := by
    simp [seconds, files, hf, File.append]
  constructor
  · rw [hnames, hseconds, hs.named]
  · rw [hseconds]
    exact hs.increasing
  · rw [hseconds]
    exact hs.le_lastRoll
  · intro g hg
    cases hg
    exact hs.current f hf
  · exact hs.nonneg

/-- The counter, the time of flushing and the clock are not part of the order. -/
theorem Ordered.frame (hs : Ordered c s) (count : Nat) (lastFlush clock : Int) :
    Ordered c { s with count := count, lastFlush := lastFlush, clock := clock } :=
  ⟨hs.named, hs.increasing, hs.le_lastRoll, hs.current, hs.nonneg⟩

theorem Ordered.nodup_names (hs : Ordered c s) : (s.files.map File.name).Nodup := by
  rw [hs.named]
  exact List.Nodup.map (getLogFileName_injective c) (hs.increasing.imp ne_of_lt)

/-! ### Lines of a later day -/

/-- The lines of a later day have all been counted since the counter was reset, so that they are
no more than the counter; a file that has such a line is one whose day is over. -/
structure Daily (c : Settings) (s : LogFile) : Prop where
  ordered : Ordered c s
  count_le : s.count ≤ kCheckTimeRoll + 1
  late_closed : ∀ f ∈ s.closed, f.late ≤ kCheckTimeRoll + 2
  late_le : ∀ f, s.file = some f → f.late ≤ s.count
  opened_le : ∀ f, s.file = some f → f.opened ≤ s.clock
  dayOver : ∀ f, s.file = some f → 0 < f.late → utcDay f.opened < utcDay s.clock

/-- Once its day is over a file is rolled at the first attempt. -/
theorem daily_rollFile {now : Int} (hs : Ordered c s) (hcount : s.count ≤ kCheckTimeRoll + 1)
    (hclosed : ∀ f ∈ s.closed, f.late ≤ kCheckTimeRoll + 2)
    (hlate : ∀ f, s.file = some f → f.late ≤ kCheckTimeRoll + 2)
    (hopened : ∀ f, s.file = some f → f.opened ≤ now)
    (hover : ∀ f, s.file = some f → 0 < f.late → utcDay f.opened < utcDay now) :
    Daily c { rollFile c s now with clock := now } := by
  have hordered := (hs.rollFile now).frame (LogFile.rollFile c s now).count
    (LogFile.rollFile c s now).lastFlush now
  by_cases h : s.lastRoll < now
  · simp only [rollFile, if_pos h] at hordered ⊢
    constructor
    · exact hordered
    · exact hcount
    · intro f hf
      rw [List.mem_append, Option.mem_toList] at hf
      exact hf.elim (hclosed f) (hlate f)
    · intro f hf
      cases hf
      exact Nat.zero_le _
    · intro f hf
      cases hf
      exact le_rfl
    · intro f hf hpos
      cases hf
      exact absurd hpos (lt_irrefl 0)
  · have hnone : ∀ f, s.file = some f → f.late = 0 := by
      intro f hf
      by_contra hne
      have hday := hover f hf (Nat.pos_of_ne_zero hne)
      have hle : now ≤ f.opened := (hs.current f hf).1 ▸ not_lt.mp h
      exact absurd hday (not_lt.mpr (utcDay_mono hle))
    simp only [rollFile, if_neg h] at hordered ⊢
    constructor
    · exact hordered
    · exact hcount
    · exact hclosed
    · intro f hf
      exact (hnone f hf).le.trans (Nat.zero_le _)
    · exact hopened
    · exact hover

theorem daily_new (c : Settings) (now : Int) : Daily c (new c now) := by
  have hstart : Ordered c ⟨0, 0, 0, 0, none, [], now⟩ :=
    ⟨rfl, .nil, by simp [seconds, files], by simp, le_rfl⟩
  have hnew : new c now = { rollFile c ⟨0, 0, 0, 0, none, [], now⟩ now with clock := now } := by
    unfold new rollFile
    split <;> rfl
  rw [hnew]
  exact daily_rollFile hstart (by simp) (by simp) (by simp) (by simp) (by simp)

theorem late_append (f : File) (len : Nat) (began : Int) :
    (f.append len began).late ≤ f.late + 1 := by
  unfold File.append
  dsimp only
  split <;> omega

theorem began_later {f : File} {len : Nat} {began : Int} (h : f.late < (f.append len began).late) :
    utcDay f.opened < utcDay began := by
  by_contra hn
  simp [File.append, if_neg hn] at h

/-- What is known after a line has gone to the current file, before it is decided what to do. -/
theorem Daily.dayOver_append (hs : Daily c s) {f : File} (hf : s.file = some f) {len : Nat}
    {began now : Int} (hclock : s.clock ≤ now) (hbegan : began ≤ now)
    (hpos : 0 < (f.append len began).late) : utcDay f.opened < utcDay now := by
  by_cases h : f.late < (f.append len began).late
  · exact (began_later h).trans_le (utcDay_mono hbegan)
  · exact (hs.dayOver f hf (hpos.trans_le (not_lt.mp h))).trans_le (utcDay_mono hclock)

theorem daily_append (hs : Daily c s) {len : Nat} {began check roll : Int}
    (hclock : s.clock ≤ check) (hbegan : began ≤ check) (hroll : check ≤ roll) {t : LogFile}
    (ht : appendUnlocked c s len began check roll = .ok t) :
    Daily c { t with clock := roll } := by
  unfold appendUnlocked at ht
  split at ht
  · cases ht
  rename_i f hf
  have hordered := hs.ordered.append hf len began
  have hlate : (f.append len began).late ≤ s.count + 1 :=
    (late_append f len began).trans (Nat.succ_le_succ (hs.late_le f hf))
  have hcheck (hpos : 0 < (f.append len began).late) : utcDay f.opened < utcDay check :=
    hs.dayOver_append hf hclock hbegan hpos
  have hopened : f.opened ≤ check := (hs.opened_le f hf).trans hclock
  have hover (hpos : 0 < (f.append len began).late) : utcDay f.opened < utcDay roll :=
    (hcheck hpos).trans_le (utcDay_mono hroll)
  have hlast : (f.append len began).late ≤ kCheckTimeRoll + 2 :=
    hlate.trans (Nat.succ_le_succ hs.count_le)
  have hperiod := (hs.ordered.current f hf).2
  have hrolled (count : Nat) (hcount : count ≤ kCheckTimeRoll + 1) :
      Daily c { rollFile c { s with file := some (f.append len began), count := count } roll with
        clock := roll } := by
    refine daily_rollFile (hordered.frame count s.lastFlush s.clock) hcount hs.late_closed ?_ ?_ ?_
    · rintro g ⟨⟩
      exact hlast
    · rintro g ⟨⟩
      exact hopened.trans hroll
    · rintro g ⟨⟩
      exact hover
  have hkept (count : Nat) (lastFlush : Int) (hcount : count ≤ kCheckTimeRoll + 1)
      (hle : (f.append len began).late ≤ count) :
      Daily c { s with
        file := some (f.append len began), count := count, lastFlush := lastFlush,
        clock := roll } := by
    refine ⟨hordered.frame count lastFlush roll, hcount, hs.late_closed, ?_, ?_, ?_⟩
    · rintro g ⟨⟩
      exact hle
    · rintro g ⟨⟩
      exact hopened.trans hroll
    · rintro g ⟨⟩
      exact hover
  dsimp only at ht
  split at ht
  · cases ht
    exact hrolled s.count hs.count_le
  · split at ht
    · split at ht
      · cases ht
        exact hrolled 0 (Nat.zero_le _)
      · -- The day has not changed, so there is no line of a later day that could be forgotten.
        rename_i hday
        have hnonneg : 0 ≤ check := (hs.ordered.current f hf).1 ▸ hs.ordered.nonneg |>.trans hopened
        have hnone : (f.append len began).late ≤ 0 := by
          by_contra hpos
          have hlt := hcheck (not_le.mp hpos)
          rw [not_not, startOf_eq_utcDay hnonneg, hperiod] at hday
          exact absurd hlt (hday ▸ lt_irrefl _)
        split at ht
        · cases ht
          exact hkept 0 check (Nat.zero_le _) hnone
        · cases ht
          exact hkept 0 s.lastFlush (Nat.zero_le _) hnone
    · rename_i hcount
      cases ht
      exact hkept (s.count + 1) s.lastFlush (Nat.succ_le_succ (not_lt.mp hcount)) hlate

theorem daily_step {a : Action} {t : LogFile} (hs : Daily c s) (ha : Timely s a)
    (ht : step c s a = some (.ok t)) : Daily c t := by
  cases a with
  | append len began check roll =>
    obtain ⟨hclock, hbegan, hroll⟩ := ha
    simp only [step, Option.some.injEq] at ht
    cases hu : appendUnlocked c s len began check roll with
    | error e =>
      rw [hu] at ht
      cases ht
    | ok u =>
      rw [hu] at ht
      cases ht
      exact daily_append hs hclock hbegan hroll hu
  | flush =>
    simp only [step, Option.some.injEq, flush] at ht
    split at ht
    · cases ht
    · cases ht
      exact hs

/-- The period is the day of the current file, no name is used twice, and a file gets at most
1026 lines of later days. -/
theorem rolls_daily (c : Settings) {p : Except Fault LogFile}
    (h : Run (step c) Timely (fun s => ∃ now, s = new c now) p) (s : LogFile) (hp : p = .ok s) :
    (∀ f, s.file = some f → s.startOfPeriod = utcDay f.opened) ∧
      (s.files.map File.name).Nodup ∧ ∀ f ∈ s.files, f.late ≤ 1026 := by
  have hs : Daily c s := by
    refine Run.invariant ?_ (fun s a t hs ha ht => daily_step hs ha ht) h s hp
    rintro s ⟨now, rfl⟩
    exact daily_new c now
  refine ⟨fun f hf => (hs.ordered.current f hf).2, hs.ordered.nodup_names, fun f hf => ?_⟩
  rw [files, List.mem_append, Option.mem_toList] at hf
  rcases hf with hf | hf
  · exact hs.late_closed f hf
  · calc f.late ≤ s.count := hs.late_le f hf
      _ ≤ kCheckTimeRoll + 1 := hs.count_le
      _ ≤ 1026 := by decide

/-- Two files of one day, the second one after a line that was too long for the first. -/
theorem rolls_daily_example :
    ∃ c s, Run (step c) Timely (fun s => ∃ now, s = new c now) (.ok s) ∧ s.files.length = 2 ∧
      (s.files.map File.name).Nodup := by
  let c : Settings := ⟨['d'], 8, 3, ['h'], 7⟩
  have hseen : seen (exec (faulting (restrict Timely (step c))) (.ok (new c 1000))
      [.append 4 1000 1000 1000, .append 9 1001 1001 1002])
      (fun s => s.files.length = 2) = true := by
    decide +kernel
  obtain ⟨s, hs, hlength⟩ := exists_of_seen hseen
  have hstart : Run (step c) Timely (fun s => ∃ now, s = new c now) (.ok (new c 1000)) :=
    Run.start ⟨1000, rfl⟩
  have hrun := hstart.exec _ hs
  exact ⟨c, s, hrun, of_decide_eq_true hlength, (rolls_daily c hrun s rfl).2.1⟩

-- A file that gets its first line a day late gets 1026 such lines.
example : seen (exec (faulting (restrict Timely (step ⟨['d'], 2 ^ 40, 3, ['h'], 7⟩)))
    (.ok (new ⟨['d'], 2 ^ 40, 3, ['h'], 7⟩ 1000))
    (List.replicate 1026 (.append 1 90000 90000 90000)))
    (fun s => s.files.map File.late = [1026, 0]) = true := by
  decide +kernel

end LogFile

end DbdkyGcc.Logging
