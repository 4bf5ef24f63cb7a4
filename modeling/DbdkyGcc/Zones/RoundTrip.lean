import DbdkyGcc.Zones.LocalTime

/-!
# Local time and back

A zone with daylight saving time changes between two local time types. `toLocalTime` looks for
the type by Greenwich time, `fromLocalTime` by the local time that each change leads to, and the
local times of the last hour of daylight saving time come twice. `Passed` counts the changes that
have been made at a time; the two searches see the same count but in that hour, where the second
one sees the change to come, and there the correction of `fromLocalTime` applies.
-/

namespace DbdkyGcc.Zones

open Foundations

/-- The first `n` transitions, and no others, have a key that is not later than `x`. -/
def Passed (comp : Comp) (transitions : List Transition) (n : ℕ) (x : Int) : Prop :=
  ∀ i t, transitions[i]? = some t → (i < n ↔ comp.key t ≤ x)

/-- The type in force after that many changes from standard time to daylight saving time and
back. -/
def inForce (std dst : Localtime) (n : ℕ) : Localtime := if n % 2 = 0 then std else dst

/-- A zone in which daylight saving time is an hour ahead and begins and ends by turns, more than
two hours apart. The local time of a transition is the one that its own type gives, as the file is
read. The last two fields are what makes the name of the zone a valid access. -/
structure Data.Alternating (data : Data) (std dst : Localtime) : Prop where
  front : data.localtimes[0]? = some std
  apart : data.transitions.Pairwise fun t u => t.gmttime + 7200 < u.gmttime
  type : ∀ i t, data.transitions[i]? = some t →
    data.localtimes[t.localtimeIdx]? = some (inForce std dst (i + 1))
  localtime : ∀ i t, data.transitions[i]? = some t →
    t.localtime = t.gmttime + (inForce std dst (i + 1)).gmtOffset
  std_isDst : std.isDst = false
  dst_isDst : dst.isDst = true
  offset : dst.gmtOffset = std.gmtOffset + 3600
  std_arrbIdx : std.arrbIdx ≤ data.abbreviation.length
  dst_arrbIdx : dst.arrbIdx ≤ data.abbreviation.length

/-- `timegm` undoes `gmtime_r`, whatever is said about daylight saving time and the zone. -/
def LibC.Inverse (libc : LibC) : Prop :=
  ∀ x, ∃ tm, libc.gmtime_r x = some tm ∧ ∀ isdst gmtoff zone,
    libc.timegm { tm with isdst := isdst, gmtoff := gmtoff, zone := zone } = x

section Search

variable {comp : Comp} {transitions : List Transition} {sentry : Transition} {n : ℕ}

theorem pairwise_getElem? {α : Type} {R : α → α → Prop} {l : List α} (h : l.Pairwise R) {i j : ℕ}
    {a b : α} (hij : i < j) (hi : l[i]? = some a) (hj : l[j]? = some b) : R a b := by
  obtain ⟨hi', rfl⟩ := List.getElem?_eq_some_iff.mp hi
  obtain ⟨hj', rfl⟩ := List.getElem?_eq_some_iff.mp hj
  exact List.pairwise_iff_getElem.mp h i j hi' hj' hij

/-- At every time some number of the transitions of a sorted table has passed. -/
theorem exists_passed (hsorted : transitions.Pairwise fun t u => comp.key t < comp.key u)
    (x : Int) : ∃ n ≤ transitions.length, Passed comp transitions n x := by
  induction transitions with
  | nil => exact ⟨0, le_rfl, by rintro i t ⟨⟩⟩
  | cons front rest ih =>
    obtain ⟨hfront, hrest⟩ := List.pairwise_cons.mp hsorted
    obtain ⟨n, hn, hpassed⟩ := ih hrest
    by_cases h : comp.key front ≤ x
    · refine ⟨n + 1, Nat.succ_le_succ hn, fun i t ht => ?_⟩
      cases i with
      | zero =>
        obtain rfl : front = t := Option.some.inj ht
        exact iff_of_true (Nat.succ_pos n) h
      | succ i => exact Nat.succ_lt_succ_iff.trans (hpassed i t ht)
    · refine ⟨0, Nat.zero_le _, fun i t ht => iff_of_false (Nat.not_lt_zero i) ?_⟩
      cases i with
      | zero =>
        obtain rfl : front = t := Option.some.inj ht
        exact h
      | succ i =>
        have := hfront t (List.mem_of_getElem? ht)
        omega

/-- The search finds the number of transitions that are earlier than the sentry. -/
theorem lowerBoundOf_eq (hn : n ≤ transitions.length)
    (h : ∀ i t, transitions[i]? = some t → (i < n ↔ comp.key t < comp.key sentry)) :
    lowerBoundOf comp transitions sentry = n := by
  have hbefore : ∀ i, i < transitions.length →
      (transitions[i]?.any (fun t => comp.less t sentry) = true ↔ i < n) := by
    intro i hi
    rw [List.getElem?_eq_getElem hi, h i _ (List.getElem?_eq_getElem hi)]
    exact decide_eq_true_iff
  refine lowerBound_eq (Nat.zero_le n) (by omega) ?_ ?_
  · intro i _ hi
    exact (hbefore i (by omega)).mpr hi
  · intro i hi hlen
    rw [← Bool.not_eq_true, hbefore i (by omega)]
    omega

theorem lt_iff_key_lt (hsorted : transitions.Pairwise fun t u => comp.key t < comp.key u) {i : ℕ}
    {t u : Transition} (hu : transitions[i]? = some u) (ht : transitions[n]? = some t) :
    i < n ↔ comp.key u < comp.key t := by
  refine ⟨fun hi => pairwise_getElem? hsorted hi hu ht, fun hkey => ?_⟩
  rcases Nat.lt_trichotomy i n with hi | rfl | hi
  · exact hi
  · rw [Option.some.inj (hu.symm.trans ht)] at hkey
    exact absurd hkey (lt_irrefl _)
  · exact absurd hkey (lt_asymm (pairwise_getElem? hsorted hi ht hu))

/-- The search finds the last transition that has passed. -/
theorem findTransition_eq (hsorted : transitions.Pairwise fun t u => comp.key t < comp.key u)
    (hpassed : Passed comp transitions (n + 1) (comp.key sentry)) {t : Transition}
    (ht : transitions[n]? = some t) : findTransition transitions sentry comp = .ok t := by
  have hn : n < transitions.length := (List.getElem?_eq_some_iff.mp ht).1
  have hle : comp.key t ≤ comp.key sentry := (hpassed n t ht).mp (Nat.lt_succ_self n)
  rcases Int.lt_or_eq_of_le hle with hlt | heq
  · -- The transition is earlier than the sentry, and the search stops behind it.
    have hbound : lowerBoundOf comp transitions sentry = n + 1 := by
      refine lowerBoundOf_eq hn fun i u hu => ?_
      have hi := lt_iff_key_lt hsorted hu ht
      constructor
      · intro hsucc
        rcases Nat.lt_succ_iff_lt_or_eq.mp hsucc with hlt' | rfl
        · exact (hi.mp hlt').trans hlt
        · rwa [Option.some.inj (hu.symm.trans ht)]
      · exact fun hkey => (hpassed i u hu).mpr (Int.le_of_lt hkey)
    rw [findTransition, hbound]
    split
    · rename_i hend
      have hnext : n + 1 < transitions.length := lt_of_le_of_ne hn hend
      have hget := List.getElem?_eq_getElem hnext
      have hlater := (hpassed _ _ hget).not.mp (lt_irrefl _)
      have hunequal : ¬ comp.equal sentry transitions[n + 1] = true := by
        simp only [Comp.equal, decide_eq_true_eq]
        omega
      rw [hget]
      show (if _ then _ else _) = _
      rw [if_neg hunequal, ensure_eq_ok (Nat.succ_ne_zero n), Nat.add_sub_cancel, ht]
      rfl
    · rename_i hend
      have hlast : transitions.length - 1 = n := by omega
      rw [List.getLast?_eq_getElem?, hlast, ht]
      rfl
  · -- The sentry is at the transition itself.
    have hbound : lowerBoundOf comp transitions sentry = n :=
      lowerBoundOf_eq (le_of_lt hn) fun i u hu => heq ▸ lt_iff_key_lt hsorted hu ht
    rw [findTransition, hbound, if_pos (ne_of_lt hn), ht]
    exact if_pos (decide_eq_true heq.symm)

end Search

section Alternating

variable {data : Data} {std dst : Localtime} (h : data.Alternating std dst)
include h

/-- The type in force is found if the keys are sorted. -/
theorem findLocaltime_eq {comp : Comp} {sentry : Transition} {n : ℕ}
    (hsorted : data.transitions.Pairwise fun t u => comp.key t < comp.key u)
    (hn : n ≤ data.transitions.length)
    (hpassed : Passed comp data.transitions n (comp.key sentry)) :
    findLocaltime data sentry comp = .ok (inForce std dst n) := by
  have hfront : require Misuse.frontOfEmpty data.localtimes[0]? = .ok std :=
    require_eq_ok_iff.mpr h.front
  rw [findLocaltime]
  split
  · rename_i hnil
    rw [hnil] at hn
    obtain rfl : n = 0 := Nat.le_zero.mp hn
    exact hfront
  · rename_i front rest hcons
    have hget : data.transitions[0]? = some front := by rw [hcons]; rfl
    have hfirst := hpassed 0 front hget
    cases n with
    | zero =>
      rw [if_pos]
      · exact hfront
      · exact decide_eq_true (lt_of_not_ge (hfirst.not.mp (lt_irrefl 0)))
    | succ n =>
      have hlt : n < data.transitions.length := hn
      have ht := List.getElem?_eq_getElem hlt
      rw [if_neg]
      · rw [findTransition_eq hsorted hpassed ht]
        exact require_eq_ok_iff.mpr (h.type n _ ht)
      · simp only [Comp.less, decide_eq_true_eq, not_lt]
        exact hfirst.mp (Nat.succ_pos n)

theorem gmtOffset_inForce (n : ℕ) :
    (inForce std dst n).gmtOffset = std.gmtOffset + 3600 * (n % 2 : ℕ) := by
  have hoffset := h.offset
  unfold inForce
  split <;> omega

theorem isDst_inForce (n : ℕ) : (inForce std dst n).isDst = decide (n % 2 = 1) := by
  unfold inForce
  split
  · rw [h.std_isDst, eq_comm, decide_eq_false_iff_not]
    omega
  · rw [h.dst_isDst, eq_comm, decide_eq_true_iff]
    omega

theorem arrbIdx_inForce (n : ℕ) : (inForce std dst n).arrbIdx ≤ data.abbreviation.length := by
  unfold inForce
  split
  · exact h.std_arrbIdx
  · exact h.dst_arrbIdx

theorem sorted_gmttime :
    data.transitions.Pairwise fun t u => (Comp.mk true).key t < (Comp.mk true).key u :=
  h.apart.imp fun {t u} hapart => show t.gmttime < u.gmttime by omega

theorem sorted_localtime :
    data.transitions.Pairwise fun t u => (Comp.mk false).key t < (Comp.mk false).key u := by
  rw [List.pairwise_iff_getElem]
  intro i j hi hj hij
  have hapart := List.pairwise_iff_getElem.mp h.apart i j hi hj hij
  have hlocal := h.localtime i _ (List.getElem?_eq_getElem hi)
  have hlocal' := h.localtime j _ (List.getElem?_eq_getElem hj)
  rw [gmtOffset_inForce h] at hlocal hlocal'
  show data.transitions[i].localtime < data.transitions[j].localtime
  omega

section Position

variable {n : ℕ} {seconds : Int} (hn : n ≤ data.transitions.length)
  (hpassed : Passed ⟨true⟩ data.transitions n seconds)
include hn hpassed

theorem toLocalTime_eq (libc : LibC) : TimeZone.toLocalTime libc ⟨some data⟩ seconds =
    .ok (TimeZone.localTime libc data seconds (inForce std dst n)) := by
  have hfound : findLocaltime data ⟨seconds, 0, 0⟩ ⟨true⟩ = .ok (inForce std dst n) :=
    findLocaltime_eq h (sorted_gmttime h) hn hpassed
  calc TimeZone.toLocalTime libc ⟨some data⟩ seconds
    _ = _ := bind_of_ok rfl _
    _ = _ := bind_of_ok hfound _
    _ = _ := bind_of_ok (ensure_eq_ok (arrbIdx_inForce h n)) _

/-- A transition before the last one that has passed, and one behind the next one, are far away. -/
theorem far_transition {i : ℕ} {u : Transition} (hu : data.transitions[i]? = some u) :
    (i + 1 < n → u.gmttime + 7200 < seconds) ∧ (n < i → seconds + 7200 < u.gmttime) := by
  constructor
  · intro hi
    have hlast : n - 1 < data.transitions.length := by omega
    have hget := List.getElem?_eq_getElem hlast
    have hapart := pairwise_getElem? h.apart (by omega : i < n - 1) hu hget
    have hle : data.transitions[n - 1].gmttime ≤ seconds := (hpassed _ _ hget).mp (by omega)
    omega
  · intro hi
    have hnext : n < data.transitions.length := hi.trans (List.getElem?_eq_some_iff.mp hu).1
    have hget := List.getElem?_eq_getElem hnext
    have hapart := pairwise_getElem? h.apart hi hget hu
    have hlt : ¬ data.transitions[n].gmttime ≤ seconds := (hpassed _ _ hget).not.mp (lt_irrefl n)
    omega

/-- By local time the transitions have passed that have by Greenwich time, and in the last hour of
daylight saving time the change back to standard time as well. -/
theorem localtime_le_iff {i : ℕ} {u : Transition} (hu : data.transitions[i]? = some u) :
    u.localtime ≤ seconds + (inForce std dst n).gmtOffset ↔
      i < n ∨ i = n ∧ n % 2 = 1 ∧ u.gmttime ≤ seconds + 3600 := by
  have hgmt : i < n ↔ u.gmttime ≤ seconds := hpassed i u hu
  have hfar := far_transition h hn hpassed hu
  have hlocal := h.localtime i u hu
  rw [gmtOffset_inForce h] at hlocal ⊢
  omega

theorem passed_localtime (hhour : ∀ u, data.transitions[n]? = some u → n % 2 = 1 →
      seconds + 3600 < u.gmttime) :
    Passed ⟨false⟩ data.transitions n (seconds + (inForce std dst n).gmtOffset) := by
  intro i u hu
  refine ((localtime_le_iff h hn hpassed hu).trans (or_iff_left ?_)).symm
  rintro ⟨rfl, hodd, hlate⟩
  exact absurd hlate (not_le.mpr (hhour u hu hodd))

theorem passed_localtime_ahead (hodd : n % 2 = 1) {next : Transition}
    (hnext : data.transitions[n]? = some next) (hhour : next.gmttime ≤ seconds + 3600) :
    Passed ⟨false⟩ data.transitions (n + 1) (seconds + (inForce std dst n).gmtOffset) := by
  intro i u hu
  have hsame : i = n → u.gmttime ≤ seconds + 3600 := by
    rintro rfl
    rwa [Option.some.inj (hu.symm.trans hnext)]
  refine Iff.trans ?_ (localtime_le_iff h hn hpassed hu).symm
  rw [Nat.lt_succ_iff_lt_or_eq]
  exact or_congr_right ⟨fun heq => ⟨heq, hodd, hsame heq⟩, And.left⟩

/-- An hour later the change has been made. -/
theorem passed_an_hour_later {next : Transition} (hnext : data.transitions[n]? = some next)
    (hhour : next.gmttime ≤ seconds + 3600) :
    Passed ⟨true⟩ data.transitions (n + 1) (seconds + 3600) := by
  intro i u hu
  have hgmt : i < n ↔ u.gmttime ≤ seconds := hpassed i u hu
  have hfar := far_transition h hn hpassed hu
  have hsame : i = n → u.gmttime ≤ seconds + 3600 := by
    rintro rfl
    rwa [Option.some.inj (hu.symm.trans hnext)]
  show i < n + 1 ↔ u.gmttime ≤ _
  omega

end Position

variable {libc : LibC} (hlibc : libc.Inverse)

omit h in
include hlibc in
theorem timegm_localTime (data : Data) (seconds : Int) (found : Localtime) :
    libc.timegm (TimeZone.localTime libc data seconds found) = seconds + found.gmtOffset := by
  obtain ⟨tm, htm, hback⟩ := hlibc (seconds + found.gmtOffset)
  rw [TimeZone.localTime, htm]
  exact hback _ _ _

include hlibc

/-- A time of which the type in force is found again is converted back. -/
theorem fromLocalTime_of_same {n : ℕ} {seconds : Int} (hn : n ≤ data.transitions.length)
    (hpassed : Passed ⟨true⟩ data.transitions n seconds)
    (hlocal : Passed ⟨false⟩ data.transitions n (seconds + (inForce std dst n).gmtOffset)) :
    TimeZone.fromLocalTime libc ⟨some data⟩
      (TimeZone.localTime libc data seconds (inForce std dst n)) = .ok seconds := by
  have hfound : findLocaltime data ⟨0, seconds + (inForce std dst n).gmtOffset, 0⟩ ⟨false⟩ =
      .ok (inForce std dst n) := findLocaltime_eq h (sorted_localtime h) hn hlocal
  have htry := toLocalTime_eq h hn hpassed libc
  show (findLocaltime data ⟨0, libc.timegm _, 0⟩ ⟨false⟩ >>= _) = _
  rw [timegm_localTime hlibc, hfound, ok_bind, Int.add_sub_cancel, htry]
  by_cases hdst : (inForce std dst n).isDst = true
  · have hisdst : (TimeZone.localTime libc data seconds (inForce std dst n)).isdst = 1 :=
      if_pos hdst
    rw [hisdst, if_pos (by decide), ok_bind, hisdst, if_neg (fun hzero => by cases hzero.1)]
  · have hisdst : (TimeZone.localTime libc data seconds (inForce std dst n)).isdst = 0 :=
      if_neg hdst
    rw [hisdst, if_neg (by decide)]

/-- In the last hour of daylight saving time the trial is an hour late and shows the same local time
without daylight saving time. -/
theorem fromLocalTime_of_ahead {n : ℕ} {seconds : Int} (hn : n ≤ data.transitions.length)
    (hpassed : Passed ⟨true⟩ data.transitions n seconds) (hodd : n % 2 = 1) {next : Transition}
    (hnext : data.transitions[n]? = some next) (hhour : next.gmttime ≤ seconds + 3600) :
    TimeZone.fromLocalTime libc ⟨some data⟩
      (TimeZone.localTime libc data seconds (inForce std dst n)) = .ok seconds := by
  have hlt : n + 1 ≤ data.transitions.length := (List.getElem?_eq_some_iff.mp hnext).1
  have hlocal := passed_localtime_ahead h hn hpassed hodd hnext hhour
  have hlater := passed_an_hour_later h hn hpassed hnext hhour
  have hfound : findLocaltime data ⟨0, seconds + (inForce std dst n).gmtOffset, 0⟩ ⟨false⟩ =
      .ok (inForce std dst (n + 1)) := findLocaltime_eq h (sorted_localtime h) hlt hlocal
  have htry := toLocalTime_eq h hlt hlater libc
  have hoffset : (inForce std dst n).gmtOffset = (inForce std dst (n + 1)).gmtOffset + 3600 := by
    rw [gmtOffset_inForce h, gmtOffset_inForce h]
    omega
  have hisdst : (TimeZone.localTime libc data seconds (inForce std dst n)).isdst = 1 :=
    if_pos (by rw [isDst_inForce h, hodd]; rfl)
  have htryDst : (TimeZone.localTime libc data (seconds + 3600)
      (inForce std dst (n + 1))).isdst = 0 :=
    if_neg (by rw [isDst_inForce h, decide_eq_true_iff]; omega)
  have hsame : seconds + 3600 + (inForce std dst (n + 1)).gmtOffset =
      seconds + (inForce std dst n).gmtOffset := by omega
  have htrial : seconds + (inForce std dst n).gmtOffset - (inForce std dst (n + 1)).gmtOffset =
      seconds + 3600 := by omega
  show (findLocaltime data ⟨0, libc.timegm _, 0⟩ ⟨false⟩ >>= _) = _
  rw [timegm_localTime hlibc, hfound, ok_bind, htrial, htry, hisdst, if_pos (by decide), ok_bind,
    if_pos]
  · congr 1
    omega
  · refine ⟨htryDst, ?_, ?_⟩
    · show (Option.getD (libc.gmtime_r _) _).hour = (Option.getD (libc.gmtime_r _) _).hour
      rw [hsame]
    · show (Option.getD (libc.gmtime_r _) _).min = (Option.getD (libc.gmtime_r _) _).min
      rw [hsame]

end Alternating

/-- In every such zone each time comes back from its local time, also in the hour that is
repeated. -/
theorem localTime_roundTrip {libc : LibC} (hlibc : libc.Inverse) {data : Data}
    {std dst : Localtime} (h : data.Alternating std dst) (seconds : Int) :
    (TimeZone.toLocalTime libc ⟨some data⟩ seconds >>= TimeZone.fromLocalTime libc ⟨some data⟩) =
      .ok seconds := by
  obtain ⟨n, hn, hpassed⟩ := exists_passed (sorted_gmttime h) seconds
  rw [toLocalTime_eq h hn hpassed, ok_bind]
  by_cases hahead : n % 2 = 1 ∧ ∃ next, data.transitions[n]? = some next ∧
      next.gmttime ≤ seconds + 3600
  · obtain ⟨hodd, next, hnext, hhour⟩ := hahead
    exact fromLocalTime_of_ahead h hlibc hn hpassed hodd hnext hhour
  · refine fromLocalTime_of_same h hlibc hn hpassed (passed_localtime h hn hpassed ?_)
    intro u hu hodd
    by_contra hlate
    exact hahead ⟨hodd, u, hu, not_lt.mp hlate⟩

/-- The type of a zone in force after that many changes. -/
def Zone.typeAfter (std dst : ZoneType) (n : ℕ) : ZoneType := if n % 2 = 0 then std else dst

theorem Zone.localtime_typeAfter (std dst : ZoneType) (n : ℕ) :
    (Zone.typeAfter std dst n).localtime = inForce std.localtime dst.localtime n :=
  apply_ite ZoneType.localtime _ _ _

/-- The tables of a file that tells of such a zone are of this kind. -/
theorem Zone.alternating (z : Zone) {std dst : ZoneType} (hfront : z.types[0]? = some std)
    (hmem : dst ∈ z.types)
    (hapart : z.transitions.Pairwise fun t u => t.1.toInt + 7200 < u.1.toInt)
    (htype : ∀ i t, z.transitions[i]? = some t →
      z.types[t.2.toNat]? = some (Zone.typeAfter std dst (i + 1)))
    (hstd : std.isdst = false) (hdst : dst.isdst = true)
    (hoffset : dst.gmtoff.toInt = std.gmtoff.toInt + 3600) :
    z.data.Alternating std.localtime dst.localtime where
  front := by
    show (z.types.map ZoneType.localtime)[0]? = _
    rw [List.getElem?_map, hfront]
    rfl
  apart := List.pairwise_map.mpr hapart
  type := by
    intro i t ht
    obtain ⟨u, hu, rfl⟩ := Option.map_eq_some_iff.mp ((List.getElem?_map ..).symm.trans ht)
    show (z.types.map ZoneType.localtime)[u.2.toNat]? = _
    rw [List.getElem?_map, htype i u hu, ← Zone.localtime_typeAfter]
    rfl
  localtime := by
    intro i t ht
    obtain ⟨u, hu, rfl⟩ := Option.map_eq_some_iff.mp ((List.getElem?_map ..).symm.trans ht)
    show u.1.toInt + z.offset u.2 = u.1.toInt + _
    rw [Zone.offset, htype i u hu, ← Zone.localtime_typeAfter]
    rfl
  std_isDst := hstd
  dst_isDst := hdst
  offset := hoffset
  std_arrbIdx := le_of_lt (z.abbrind_lt std (List.mem_of_getElem? hfront))
  dst_arrbIdx := le_of_lt (z.abbrind_lt dst hmem)

/-- The conversions by the calendar are inverse to each other. -/
theorem LibC.inverse_gregorian : LibC.gregorian.Inverse := by
  intro x
  refine ⟨_, rfl, fun isdst gmtoff zone => ?_⟩
  have hmonth := Date.month_ofDays (x / 86400)
  have hdays := Date.toDays_ofDays (x / 86400)
  have hmon : ((Date.ofDays (x / 86400)).month - 1) / 12 = 0 := by omega
  have hmon' : ((Date.ofDays (x / 86400)).month - 1) % 12 + 1 =
      (Date.ofDays (x / 86400)).month := by omega
  simp only [LibC.gregorian, gmtime, hmon, hmon', Int.sub_add_cancel, Int.add_zero]
  rw [Date.toDays_first_of_month, hdays]
  omega

/-- Central European time with the summer of 2009. -/
def cet : Zone where
  transitions := [(1238288400, 1), (1256432400, 0)]
  types := [⟨3600, false, 0⟩, ⟨7200, true, 4⟩]
  abbreviation := [0x43, 0x45, 0x54, 0, 0x43, 0x45, 0x53, 0x54, 0]
  index_lt := by simp
  abbrind_lt := by decide
  timecnt_lt := by simp
  typecnt_lt := by simp
  charcnt_lt := by simp

theorem cet_alternating : cet.data.Alternating (ZoneType.localtime ⟨3600, false, 0⟩)
    (ZoneType.localtime ⟨7200, true, 4⟩) := by
  refine cet.alternating rfl (.tail _ (.head _)) (by decide) ?_ rfl rfl rfl
  intro i t ht
  obtain ⟨hi, rfl⟩ := List.getElem?_eq_some_iff.mp ht
  have hcases : i = 0 ∨ i = 1 := Nat.le_one_iff_eq_zero_or_eq_one.mp (Nat.lt_succ_iff.mp hi)
  rcases hcases with rfl | rfl
  · rfl
  · rfl

/-- Half past two in the morning of 25 October 2009, both times that the clocks show it. -/
theorem localTime_roundTrip_repeated_hour :
    (TimeZone.toLocalTime .gregorian ⟨some cet.data⟩ 1256430600 >>=
      TimeZone.fromLocalTime .gregorian ⟨some cet.data⟩) = .ok 1256430600 ∧
    (TimeZone.toLocalTime .gregorian ⟨some cet.data⟩ 1256434200 >>=
      TimeZone.fromLocalTime .gregorian ⟨some cet.data⟩) = .ok 1256434200 :=
  ⟨localTime_roundTrip LibC.inverse_gregorian cet_alternating _,
    localTime_roundTrip LibC.inverse_gregorian cet_alternating _⟩

end DbdkyGcc.Zones
