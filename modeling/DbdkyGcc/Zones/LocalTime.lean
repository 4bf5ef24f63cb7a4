import DbdkyGcc.Foundations.Calendar
import DbdkyGcc.Foundations.Guarded
import DbdkyGcc.Foundations.Search
import DbdkyGcc.Zones.TimeZone

/-!
# Local time

`toLocalTime` and `fromLocalTime` look up the local time type that is in force and index the
tables with what the file said. Nothing tests these indices: the tables are safe to use if they
are well indexed, and then whatever time is asked for and in whatever order the transitions are.

`valid` only tells that the constructor kept its tables, and it always does.
-/

namespace DbdkyGcc.Zones

open Foundations

/-- `struct tm`. The zone is the text that `tm_zone` points at. -/
structure Tm where
  sec : Int
  min : Int
  hour : Int
  mday : Int
  mon : Int
  year : Int
  wday : Int
  yday : Int
  isdst : Int
  gmtoff : Int
  zone : Option (List UInt8)
  deriving DecidableEq, Repr

/-- What `bzero` makes of it. -/
def Tm.zero : Tm := ⟨0, 0, 0, 0, 0, 0, 0, 0, 0, 0, none⟩

/-- The conversions of the C library. `gmtime_r` fails for years that are no `int`, and leaves the
structure as it is. -/
structure LibC where
  gmtime_r : Int → Option Tm
  timegm : Tm → Int

/-- Conversions by the Gregorian calendar. -/
def LibC.gregorian : LibC where
  gmtime_r t :=
    let utc := gmtime t
    some {
      sec := utc.sec, min := utc.min, hour := utc.hour
      mday := utc.date.day, mon := utc.date.month - 1, year := utc.date.year - 1900
      wday := (4 + t / 86400) % 7
      yday := t / 86400 - Date.toDays ⟨utc.date.year, 1, 1⟩
      isdst := 0, gmtoff := 0, zone := some [0x47, 0x4d, 0x54, 0] }
  timegm tm :=
    let days := Date.toDays ⟨tm.year + 1900 + tm.mon / 12, tm.mon % 12 + 1, 1⟩ + tm.mday - 1
    ((days * 24 + tm.hour) * 60 + tm.min) * 60 + tm.sec

/-- An access that the language does not define, or an assertion that fails. -/
inductive Misuse
  | frontOfEmpty
  | indexOutOfRange
  | assertion
  deriving DecidableEq, Repr

structure Comp where
  compareGmt : Bool

namespace Comp

/-- The key by which transitions are compared. -/
def key (comp : Comp) (t : Transition) : Int := if comp.compareGmt then t.gmttime else t.localtime

/-- `operator()` -/
def less (comp : Comp) (lhs rhs : Transition) : Bool := comp.key lhs < comp.key rhs

def equal (comp : Comp) (lhs rhs : Transition) : Bool := comp.key lhs = comp.key rhs

end Comp

/-- `lower_bound` over the transitions. -/
def lowerBoundOf (comp : Comp) (transitions : List Transition) (sentry : Transition) : ℕ :=
  lowerBound (fun i => transitions[i]?.any fun t => comp.less t sentry) 0 transitions.length

/-- The transition whose local time type is in force, once a first transition is not later than
the sentry. -/
def findTransition (transitions : List Transition) (sentry : Transition) (comp : Comp) :
    Except Misuse Transition :=
  let transI := lowerBoundOf comp transitions sentry
  if transI ≠ transitions.length then do
    let here ← require .indexOutOfRange transitions[transI]?
    if comp.equal sentry here then .ok here
    else do
      ensure .assertion (transI ≠ 0)
      require .indexOutOfRange transitions[transI - 1]?
  else require .indexOutOfRange transitions.getLast?

def findLocaltime (data : Data) (sentry : Transition) (comp : Comp) : Except Misuse Localtime :=
  match data.transitions with
  | [] => require .frontOfEmpty data.localtimes[0]?
  | front :: _ =>
    if comp.less sentry front then require .frontOfEmpty data.localtimes[0]?
    else do
      let t ← findTransition data.transitions sentry comp
      require .indexOutOfRange data.localtimes[t.localtimeIdx]?

/-- The tables are shared by the copies of a `TimeZone`; there may be none. -/
structure TimeZone where
  data : Option Data

namespace TimeZone

def valid (tz : TimeZone) : Bool := tz.data.isSome

/-- What the constructor makes of the tables it has allocated. -/
def fill (e : Endian) (zonefile : Option (List UInt8)) (data : Data) : Except Thrown TimeZone := do
  let loaded ← readTimeZoneFile e zonefile data
  .ok ⟨if loaded.result then some loaded.data else none⟩

/-- The constructor. -/
def ofFile (e : Endian) (zonefile : Option (List UInt8)) : Except Thrown TimeZone :=
  fill e zonefile Data.empty

variable (libc : LibC)

/-- What `toLocalTime` makes of a time with its local time type. -/
def localTime (data : Data) (seconds : Int) (found : Localtime) : Tm :=
  { (libc.gmtime_r (seconds + found.gmtOffset)).getD Tm.zero with
    isdst := if found.isDst then 1 else 0
    gmtoff := found.gmtOffset
    zone := some (data.abbreviation.drop found.arrbIdx) }

/-- The element behind the last one of a string may be accessed, too. -/
def toLocalTime (tz : TimeZone) (seconds : Int) : Except Misuse Tm := do
  let data ← require .assertion tz.data
  let found ← findLocaltime data ⟨seconds, 0, 0⟩ ⟨true⟩
  ensure .indexOutOfRange (found.arrbIdx ≤ data.abbreviation.length)
  .ok (localTime libc data seconds found)

/-- A time that is marked as daylight saving time, but is not when it is converted back, is taken
to be an hour earlier. -/
def fromLocalTime (tz : TimeZone) (localTm : Tm) : Except Misuse Int := do
  let data ← require .assertion tz.data
  let seconds := libc.timegm localTm
  let found ← findLocaltime data ⟨0, seconds, 0⟩ ⟨false⟩
  if localTm.isdst ≠ 0 then do
    let tryTm ← tz.toLocalTime libc (seconds - found.gmtOffset)
    if tryTm.isdst = 0 ∧ tryTm.hour = localTm.hour ∧ tryTm.min = localTm.min then
      .ok (seconds - 3600 - found.gmtOffset)
    else .ok (seconds - found.gmtOffset)
  else .ok (seconds - found.gmtOffset)

/-- No time makes the conversions go out of bounds. -/
structure Usable (tz : TimeZone) : Prop where
  toLocalTime : ∀ seconds, ∃ tm, tz.toLocalTime libc seconds = .ok tm
  fromLocalTime : ∀ tm, ∃ seconds, tz.fromLocalTime libc tm = .ok seconds

end TimeZone

/-- The tables have a local time type, and all indices in them are in range. -/
structure Data.WellIndexed (data : Data) : Prop where
  localtimes_ne : data.localtimes ≠ []
  localtimeIdx_lt : ∀ t ∈ data.transitions, t.localtimeIdx < data.localtimes.length
  arrbIdx_lt : ∀ l ∈ data.localtimes, l.arrbIdx < data.abbreviation.length

theorem require_getElem {ε α : Type} {xs : List α} {i : ℕ} (h : i < xs.length) (e : ε) :
    ∃ a ∈ xs, require e xs[i]? = .ok a := by
  rw [List.getElem?_eq_getElem h]
  exact ⟨_, List.getElem_mem h, rfl⟩

theorem lowerBoundOf_le (comp : Comp) (transitions : List Transition) (sentry : Transition) :
    lowerBoundOf comp transitions sentry ≤ transitions.length := by
  have hrange := (lowerBound_range
    (fun i => transitions[i]?.any fun t => comp.less t sentry) 0 transitions.length).2
  rwa [Nat.zero_add] at hrange

/-- The assertion holds: the search goes beyond a first transition that is earlier than the
sentry. -/
theorem equal_of_lowerBoundOf_eq_zero {front : Transition} {rest : List Transition}
    {sentry : Transition} {comp : Comp} (hfront : ¬ comp.less sentry front = true)
    (hzero : lowerBoundOf comp (front :: rest) sentry = 0) : comp.equal sentry front = true := by
  have hnot : ¬ comp.less front sentry = true := by
    intro hless
    have hpos : 0 < lowerBoundOf comp (front :: rest) sentry :=
      lt_lowerBound (Nat.succ_pos _) hless
    exact absurd hzero (Nat.ne_of_gt hpos)
  simp only [Comp.less, Comp.equal, decide_eq_true_eq] at hfront hnot ⊢
  omega

/-- A transition is found, whether the transitions are sorted or not. -/
theorem findTransition_mem {front : Transition} {sentry : Transition} {comp : Comp}
    (hfront : ¬ comp.less sentry front = true) (rest : List Transition) :
    ∃ t ∈ front :: rest, findTransition (front :: rest) sentry comp = .ok t := by
  rw [findTransition]
  split
  · rename_i hend
    have hlt : lowerBoundOf comp (front :: rest) sentry < (front :: rest).length :=
      lt_of_le_of_ne (lowerBoundOf_le comp (front :: rest) sentry) hend
    obtain ⟨here, hmem, hhere⟩ := require_getElem hlt Misuse.indexOutOfRange
    rw [hhere]
    by_cases hequal : comp.equal sentry here = true
    · exact ⟨here, hmem, if_pos hequal⟩
    · have hpos : lowerBoundOf comp (front :: rest) sentry ≠ 0 := by
        intro hzero
        rw [hzero] at hhere
        obtain rfl : front = here := Except.ok.inj hhere
        exact hequal (equal_of_lowerBoundOf_eq_zero hfront hzero)
      obtain ⟨there, hthere, hfound⟩ := require_getElem
        (lt_of_le_of_lt (Nat.sub_le _ 1) hlt) Misuse.indexOutOfRange
      refine ⟨there, hthere, (if_neg hequal).trans ?_⟩
      rw [ensure_eq_ok hpos]
      exact hfound
  · exact ⟨_, List.getLast_mem (List.cons_ne_nil front rest), rfl⟩

namespace Data.WellIndexed

variable {data : Data} (h : data.WellIndexed)
include h

/-- In well indexed tables a local time type is always found. -/
theorem findLocaltime_mem (sentry : Transition) (comp : Comp) :
    ∃ l ∈ data.localtimes, findLocaltime data sentry comp = .ok l := by
  have hfirst : ∃ l ∈ data.localtimes, require Misuse.frontOfEmpty data.localtimes[0]? = .ok l :=
    require_getElem (List.length_pos_iff.mpr h.localtimes_ne) _
  rw [findLocaltime]
  split
  · exact hfirst
  · rename_i front rest htransitions
    split
    · exact hfirst
    · rename_i hfront
      rw [htransitions]
      obtain ⟨t, ht, hfound⟩ := findTransition_mem hfront rest
      rw [hfound]
      exact require_getElem (h.localtimeIdx_lt t (htransitions ▸ ht)) _

theorem toLocalTime_ok (libc : LibC) (seconds : Int) :
    ∃ tm, TimeZone.toLocalTime libc ⟨some data⟩ seconds = .ok tm := by
  obtain ⟨found, hmem, hfound⟩ := h.findLocaltime_mem ⟨seconds, 0, 0⟩ ⟨true⟩
  have harrb := ensure_eq_ok (e := Misuse.indexOutOfRange) (le_of_lt (h.arrbIdx_lt found hmem))
  refine ⟨TimeZone.localTime libc data seconds found, bind_eq_ok_iff.mpr ⟨data, rfl, ?_⟩⟩
  exact bind_eq_ok_iff.mpr ⟨found, hfound, bind_eq_ok_iff.mpr ⟨(), harrb, rfl⟩⟩

theorem fromLocalTime_ok (libc : LibC) (tm : Tm) :
    ∃ seconds, TimeZone.fromLocalTime libc ⟨some data⟩ tm = .ok seconds := by
  obtain ⟨found, -, hfound⟩ := h.findLocaltime_mem ⟨0, libc.timegm tm, 0⟩ ⟨false⟩
  obtain ⟨tryTm, htry⟩ := h.toLocalTime_ok libc (libc.timegm tm - found.gmtOffset)
  have hdata : require Misuse.assertion (some data) = .ok data := rfl
  rw [TimeZone.fromLocalTime, hdata]
  simp only [bind, Except.bind, hfound, htry]
  split
  · split
    · exact ⟨_, rfl⟩
    · exact ⟨_, rfl⟩
  · exact ⟨_, rfl⟩

/-- Well indexed tables are safe to use. -/
theorem usable (libc : LibC) : TimeZone.Usable libc ⟨some data⟩ where
  toLocalTime := h.toLocalTime_ok libc
  fromLocalTime := h.fromLocalTime_ok libc

end Data.WellIndexed

/-- The tables that a file should give are well indexed, if the file has a local time type. -/
theorem Zone.wellIndexed (z : Zone) (h : z.types ≠ []) : z.data.WellIndexed where
  localtimes_ne := fun hnil => h (List.map_eq_nil_iff.mp hnil)
  localtimeIdx_lt := by
    intro t ht
    obtain ⟨u, hu, rfl⟩ := List.mem_map.mp ht
    exact lt_of_lt_of_eq (z.index_lt u hu) (List.length_map _).symm
  arrbIdx_lt := by
    intro l hl
    obtain ⟨u, hu, rfl⟩ := List.mem_map.mp hl
    exact z.abbrind_lt u hu

theorem Zone.usable (z : Zone) (h : z.types ≠ []) (libc : LibC) :
    TimeZone.Usable libc ⟨some z.data⟩ := (z.wellIndexed h).usable libc

example : TimeZone.toLocalTime .gregorian ⟨some utc.data⟩ 951868799 =
    .ok ⟨59, 59, 23, 29, 1, 100, 2, 59, 0, 0, some [0x55, 0x54, 0x43, 0]⟩ := by decide +kernel

/-- Whatever the file, the time zone is valid, and its tables are those that were allocated. So it
is safe exactly if these are well indexed already; the empty ones of the constructor are not, and
no time can be converted with them. -/
theorem valid_zone_safe_iff (e : Endian) (libc : LibC) (zonefile : Option (List UInt8))
    (data : Data) :
    (∃ tz, TimeZone.fill e zonefile data = .ok tz ∧ tz.valid = true ∧
      ((∃ d, tz.data = some d ∧ d.WellIndexed ∧ tz.Usable libc) ↔ data.WellIndexed)) ∧
    ∃ tz, TimeZone.ofFile e zonefile = .ok tz ∧ tz.valid = true ∧
      ∀ seconds tm, tz.toLocalTime libc seconds = .error .frontOfEmpty ∧
        tz.fromLocalTime libc tm = .error .frontOfEmpty := by
  have hfill : ∀ data, TimeZone.fill e zonefile data = .ok ⟨some data⟩ := by
    intro data
    obtain ⟨printed, hloaded⟩ := readTimeZoneFile_keeps e zonefile data
    rw [TimeZone.fill, hloaded]
    rfl
  constructor
  · refine ⟨⟨some data⟩, hfill data, rfl, ?_, ?_⟩
    · rintro ⟨d, hd, hindexed, -⟩
      obtain rfl : data = d := Option.some.inj hd
      exact hindexed
    · intro hindexed
      exact ⟨data, rfl, hindexed, hindexed.usable libc⟩
  · exact ⟨⟨some Data.empty⟩, hfill Data.empty, rfl, fun seconds tm => ⟨rfl, rfl⟩⟩

/-- A file that is missing and one that is as it should be both give a time zone that is valid and
cannot convert a time. -/
theorem valid_zone_unusable :
    (TimeZone.ofFile .little none).toOption.map (fun tz =>
        (tz.valid, tz.toLocalTime .gregorian 0)) = some (true, .error .frontOfEmpty) ∧
    (TimeZone.ofFile .little
        (some (utc.encode ⟨0x32, List.replicate 15 0, 0, 0, 0, [], rfl⟩))).toOption.map (fun tz =>
        (tz.valid, tz.fromLocalTime .gregorian Tm.zero)) = some (true, .error .frontOfEmpty) :=
  ⟨rfl, rfl⟩

end DbdkyGcc.Zones
