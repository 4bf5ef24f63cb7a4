import DbdkyGcc.Codec.Record
import DbdkyGcc.Device.Model
import DbdkyGcc.Foundations.Doubles
import DbdkyGcc.Timers.Batch

/-!
# How often a unit is polled

`SerialPort::startTimers` makes a timer for every unit whose interval is a number. The interval is
in milliseconds and the timer takes seconds: the division between them is one of integers. What is
left of an interval below a second is zero, and a timer with the interval zero fires once.
-/

namespace DbdkyGcc.Polling

open Foundations Codec Device Timers

/-- What `Timer` and `addTime` make of an interval in seconds. -/
def intervalOf (fp : Doubles) (seconds : ℚ) : Interval where
  positive := 0 < seconds
  micros := Doubles.toInt (fp.mul seconds (fp.ofInt 1000000))
  micros_nonneg h := by
    rw [decide_eq_true_eq] at h
    have hmillion : fp.ofInt 1000000 = (1000000 : ℤ) := fp.ofInt_eq (by norm_num)
    refine Doubles.toInt_nonneg (fp.mul_nonneg h.le ?_)
    rw [hmillion]
    norm_num

/-- `addTime(timestamp, seconds)` -/
def addTime (fp : Doubles) (timestamp : Int) (seconds : ℚ) : Int :=
  timestamp + Doubles.toInt (fp.mul seconds (fp.ofInt 1000000))

/-- `runEvery(interval, cb)`, with the time that the clock shows and the address that the new timer
gets. -/
def runEvery (fp : Doubles) (now : Int) (timer : Nat) (interval : ℚ) : Timers.Action :=
  .create timer (addTime fp now interval) (intervalOf fp interval)

/-- A timer that `startTimers` has made for the unit under `key`. -/
structure PollTimer where
  key : String
  /-- the argument of `onQueryDataTimer` -/
  monitorUnitKeyName : String
  action : Timers.Action

/-- The turn of the loop for one unit. -/
def startTimer (boost : LexicalCastInt) (fp : Doubles) (now : Int) (timer : Nat) (key : String)
    (unit : MonitorUnit) : Option PollTimer :=
  (boost.lexicalCastInt unit.interval).map fun interval =>
    let timeinterval := fp.ofInt (interval.tdiv 1000)
    ⟨key, unit.protocolname ++ unit.mac, runEvery fp now timer timeinterval⟩

/-- `startTimers`. Nothing is ever entered in `timers_`, so that `cancelTimers` cancels nothing.
The clock and the allocator answer for each unit. -/
def startTimers (boost : LexicalCastInt) (fp : Doubles) (now : String → Int) (timer : String → Nat)
    (p : SerialPort) : List PollTimer :=
  p.monitorUnitList.toList.filterMap fun (key, unit) =>
    startTimer boost fp (now key) (timer key) key unit

/-- Timers with this interval go off every `ms` milliseconds: they repeat, they are restarted for
that time after now, and whenever one has gone off and has not been cancelled it waits for its next
time. -/
structure Periodic (interval : Interval) (ms : Int) : Prop where
  repeats : ∀ t : Timer, t.interval = interval → t.repeats = true
  period : ∀ t : Timer, t.interval = interval → ∀ now,
    (t.restart now).expiration = now + 1000 * ms
  again : ∀ q ids q', Served q ids q' → ∀ e ∈ q.due, ∀ t, q.heap e.timer = some t →
    t.interval = interval → q.idOf e ∉ ids → ⟨q.clock + 1000 * ms, e.timer⟩ ∈ q'.timers

theorem periodic_iff (interval : Interval) (ms : Int) :
    Periodic interval ms ↔ interval.positive = true ∧ interval.micros = 1000 * ms := by
  constructor
  · intro h
    have hrepeats : interval.positive = true := h.repeats ⟨0, interval, 0⟩ rfl
    have hperiod := h.period ⟨0, interval, 0⟩ rfl 0
    refine ⟨hrepeats, ?_⟩
    simpa [Timer.restart, Timer.repeats, hrepeats] using hperiod
  · rintro ⟨hpositive, hmicros⟩
    refine ⟨?_, ?_, ?_⟩
    · rintro t rfl
      exact hpositive
    · rintro t rfl now
      rw [Timer.restart, Timer.repeats, if_pos hpositive, hmicros]
    · rintro q ids q' hserved e he t ht rfl hid
      rw [← hmicros]
      exact (hserved.periodic e he t ht hpositive hid).1

/-- The seconds are those of the integer division. -/
theorem intervalOf_tdiv (fp : Doubles) {ms : Int} (hpos : 0 < ms) (hlt : ms < 2 ^ 31) :
    (intervalOf fp (fp.ofInt (ms.tdiv 1000))).positive = decide (0 < ms / 1000) ∧
      (intervalOf fp (fp.ofInt (ms.tdiv 1000))).micros = ms / 1000 * 1000000 := by
  have hdiv : ms.tdiv 1000 = ms / 1000 := Int.tdiv_eq_ediv_of_nonneg hpos.le
  have hbound : |ms / 1000 * 1000000| ≤ 2 ^ 53 := by
    rw [abs_of_nonneg (by omega)]
    omega
  have hseconds : fp.ofInt (ms / 1000) = (ms / 1000 : ℤ) := by
    refine fp.ofInt_eq ?_
    rw [abs_of_nonneg (by omega)]
    omega
  have hmillion : fp.ofInt 1000000 = (1000000 : ℤ) := fp.ofInt_eq (by norm_num)
  rw [hdiv, hseconds]
  refine ⟨?_, ?_⟩
  · simp only [intervalOf, Int.cast_pos]
  · show Doubles.toInt (fp.mul _ (fp.ofInt 1000000)) = _
    rw [hmillion, fp.mul_int hbound, Doubles.toInt_int]

/-- Every unit with a number for its interval gets a timer. -/
theorem mem_startTimers (boost : LexicalCastInt) (fp : Doubles) (now : String → Int)
    (timer : String → Nat) {p : SerialPort} {key : String} {unit : MonitorUnit}
    (hunit : p.monitorUnitList[key]? = some unit) {ms : Int}
    (hms : boost.lexicalCastInt unit.interval = some ms) :
    ⟨key, unit.protocolname ++ unit.mac,
      runEvery fp (now key) (timer key) (fp.ofInt (ms.tdiv 1000))⟩ ∈
      startTimers boost fp now timer p := by
  refine List.mem_filterMap.mpr ⟨(key, unit), ?_, ?_⟩
  · exact Std.ExtTreeMap.mem_toList_iff_getElem?_eq_some.mpr hunit
  · show startTimer boost fp (now key) (timer key) key unit = _
    rw [startTimer, hms, Option.map_some]

/-- A unit whose interval is a positive number of milliseconds gets a timer of its own, and the
timer has that period exactly when the interval is a whole number of seconds. -/
theorem poll_timer_periodic_iff (boost : LexicalCastInt) (fp : Doubles) (now : String → Int)
    (timer : String → Nat)
    {p : SerialPort} {key : String} {unit : MonitorUnit}
    (hunit : p.monitorUnitList[key]? = some unit) {ms : Int}
    (hms : boost.lexicalCastInt unit.interval = some ms) (hpos : 0 < ms) :
    ∃ when interval,
      ⟨key, unit.protocolname ++ unit.mac, .create (timer key) when interval⟩ ∈
        startTimers boost fp now timer p ∧
      (Periodic interval ms ↔ 1000 ∣ ms) := by
  refine ⟨_, _, mem_startTimers boost fp now timer hunit hms, ?_⟩
  obtain ⟨hpositive, hmicros⟩ := intervalOf_tdiv fp hpos (boost.lexicalCastInt_range _ _ hms).2
  rw [periodic_iff, hpositive, hmicros, decide_eq_true_eq]
  omega

/-- A port with one unit. -/
def arresterPort (interval : String) : SerialPort :=
  SerialPort.insertMonitorUnit { config := { name := "COM1" } } "arrester" interval "ZSAR" "1" ""
    "1" ""

theorem arresterPort_unit (interval : String) :
    (arresterPort interval).monitorUnitList["ZSAR1"]? = some
      { name := "arrester", interval := interval, protocolname := "ZSAR", mac := "1"
        manufacturer := "", cycleid := "1", ytime := "" } := by
  rw [arresterPort, SerialPort.insertMonitorUnit, if_neg (by decide)]
  exact (Std.ExtTreeMap.getElem?_insertIfNew).trans (by simp)

/-- A unit with an interval of a minute is polled every minute. -/
theorem poll_timer_of_a_minute :
    ∃ when interval, ⟨"ZSAR1", "ZSAR1", .create 16 when interval⟩ ∈
        startTimers .digits .rational (fun _ => 0) (fun _ => 16) (arresterPort "60000") ∧
      Periodic interval 60000 := by
  obtain ⟨when, interval, hmem, hiff⟩ := poll_timer_periodic_iff .digits .rational (fun _ => 0)
    (fun _ => 16) (arresterPort_unit "60000")
    (show LexicalCastInt.digits.lexicalCastInt "60000" = some 60000 by decide +kernel) (by decide)
  exact ⟨when, interval, hmem, hiff.mpr (by decide)⟩

/-- A unit with an interval of half a second is polled once, and one with a second and a half
every second. -/
theorem poll_timer_of_half_a_second :
    (∃ when interval, ⟨"ZSAR1", "ZSAR1", .create 16 when interval⟩ ∈
        startTimers .digits .rational (fun _ => 0) (fun _ => 16) (arresterPort "500") ∧
      interval.positive = false) ∧
    ∃ when interval, ⟨"ZSAR1", "ZSAR1", .create 16 when interval⟩ ∈
        startTimers .digits .rational (fun _ => 0) (fun _ => 16) (arresterPort "1500") ∧
      interval.positive = true ∧ interval.micros = 1000000 := by
  have hhalf : LexicalCastInt.digits.lexicalCastInt "500" = some 500 := by decide +kernel
  have hlonger : LexicalCastInt.digits.lexicalCastInt "1500" = some 1500 := by decide +kernel
  refine ⟨⟨_, _, mem_startTimers .digits .rational _ _ (arresterPort_unit "500") hhalf, ?_⟩,
    ⟨_, _, mem_startTimers .digits .rational _ _ (arresterPort_unit "1500") hlonger, ?_⟩⟩
  · decide +kernel
  · decide +kernel

end DbdkyGcc.Polling
