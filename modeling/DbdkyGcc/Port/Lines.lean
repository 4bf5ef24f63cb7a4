import DbdkyGcc.Foundations.Runs
import DbdkyGcc.Polling.Intervals
import DbdkyGcc.Port.Terminal

/-!
# Starting and releasing the serial ports

`SerialPort::start`, `init` and `release`, and the reads and writes of the threads that a port has
started. The ports share the descriptors of the process with each other and with everything else in
it that opens files: a descriptor that has been closed may be the next one that somebody else gets.

The threads of a port take `fd_` without a lock. What they do with it meets the line of the port as
long as `release` has not been called; after that a call that was on its way may meet whatever has
got the descriptor since.
-/

namespace DbdkyGcc.Port

open Foundations Codec Polling

inductive OpenFile
  | line (devicename : String)
  /-- a socket, a log file or the like -/
  | other
deriving DecidableEq

/-- The open descriptors of the process, and the settings of the lines. -/
structure Kernel where
  files : Int → Option OpenFile
  lines : String → Termios

inductive LineFault
  /-- a call on a descriptor that is not open, or not what the caller has opened -/
  | badDescriptor
  /-- the assertion of `ThreadPool::start` -/
  | poolRunning
deriving DecidableEq

/-- What the calls of `init` answer. The result of `tcgetattr` is not looked at, so that nothing is
known of `opt`. -/
structure InitCalls where
  /-- `open`; a failure is `-1` -/
  opened : Int
  opt : Termios
  /-- the two calls of `tcsetattr` succeed -/
  first : Bool
  second : Bool

namespace Kernel

variable (k : Kernel)

def openLine (fd : Int) (devicename : String) : Kernel :=
  { k with files := Function.update k.files fd (some (.line devicename)) }

/-- `tcsetattr(fd, TCSANOW, &t)` -/
def tcsetattr (fd : Int) (t : Termios) (succeeds : Bool) : Except LineFault Kernel :=
  match k.files fd with
  | some (.line devicename) =>
    .ok (if succeeds then { k with lines := Function.update k.lines devicename t } else k)
  | _ => .error .badDescriptor

def close (fd : Int) (file : OpenFile) : Except LineFault Kernel := do
  ensure .badDescriptor (k.files fd = some file)
  pure { k with files := Function.update k.files fd none }

end Kernel

/-- A `SerialPort` that has been configured: `fd_`, `started_`, the threads of `threadPool_`, the
`listen` tasks that it was given and the timers of `startTimers`. `calls` are the descriptors of the
reads and writes that are on their way; `released` and `met` are history: the port has been closed
by `release`, and what the reads and writes have found under their descriptors. -/
structure Handle where
  port : Device.SerialPort
  fd : Int
  started : Bool
  threads : ℕ
  listeners : ℕ
  timers : List PollTimer
  calls : List Int
  released : Bool
  met : List (Option OpenFile)

namespace Handle

variable (p : Handle)

/-- The constructor. -/
def new (port : Device.SerialPort) : Handle := ⟨port, -1, false, 0, 0, [], [], false, []⟩

/-- `devicename_` -/
def devicename : String := p.port.config.portname

/-- The end of `init` at `_fail`, and what `release` does with an open port. -/
def closeFd (k : Kernel) : Except LineFault (Kernel × Handle) := do
  let k ← k.close p.fd (.line p.devicename)
  pure (k, { p with fd := -1 })

/-- `init`. It returns `fd_`. -/
def init (k : Kernel) (c : InitCalls) : Except LineFault (Kernel × Handle) := do
  if 0 ≤ p.fd then
    pure (k, p)
  else
    let p := { p with fd := c.opened }
    if -1 = p.fd then
      pure (k, p)
    else
      let k ← (k.openLine p.fd p.devicename).tcsetattr p.fd c.opt.setSpeed c.first
      if !c.first then
        p.closeFd k
      else
        let k ← k.tcsetattr p.fd c.opt.initialized c.second
        if !c.second then
          p.closeFd k
        else
          pure (k, p)

/-- `start`. The clock and the allocator answer for each timer. -/
def start (boost : LexicalCastInt) (fp : Doubles) (k : Kernel) (c : InitCalls) (now : String → Int)
    (timer : String → Nat) : Except LineFault (Kernel × Handle) := do
  if p.started then
    pure (k, p)
  else
    let (k, p) ← p.init k c
    if -1 = p.fd then
      pure (k, p)
    else
      ensure .poolRunning (p.threads = 0)
      pure (k, { p with
        started := true
        threads := 2
        listeners := p.listeners + 1
        timers := p.timers ++ startTimers boost fp now timer p.port })

def release (k : Kernel) : Except LineFault (Kernel × Handle) :=
  if p.fd ≠ -1 then { p with released := true }.closeFd k else .ok (k, p)

/-- A thread of the port takes `fd_` for its next read or write. The two statements of `release` are
one step here: what is taken between them might as well have been taken before. -/
def load : Option Handle :=
  if p.started then some { p with calls := p.fd :: p.calls } else none

/-- The read or write itself; a descriptor that is not open is an error that nobody looks at. -/
def call (k : Kernel) (fd : Int) : Option Handle :=
  if fd ∈ p.calls then some { p with calls := p.calls.erase fd, met := p.met ++ [k.files fd] }
  else none

/-- Nothing of a start is left in the port. -/
structure Idle : Prop where
  fd : p.fd = -1
  threads : p.threads = 0
  listeners : p.listeners = 0
  timers : p.timers = []
  calls : p.calls = []
  met : p.met = []

/-- The port was started once. -/
structure Started (boost : LexicalCastInt) (fp : Doubles) : Prop where
  threads : p.threads = 2
  listeners : p.listeners = 1
  timers : ∃ now timer, p.timers = startTimers boost fp now timer p.port

/-- Until it is released, a port that was started has a descriptor, its threads use that one only, and
all that they have met is the line. -/
structure Connected : Prop where
  fd : p.fd ≠ -1
  calls : ∀ fd ∈ p.calls, fd = p.fd
  met : ∀ file ∈ p.met, file = some (.line p.devicename)

/-- A start that has failed leaves nothing behind in the port, and one that has not is done once. -/
structure Sound (boost : LexicalCastInt) (fp : Doubles) : Prop where
  idle : p.started = false → p.Idle
  started : p.started = true → p.Started boost fp
  connected : p.started = true → p.released = false → p.Connected

end Handle

/-- What `init` makes of an idle port: either all is as before, except that the settings of the line
may be others, or the port has the new descriptor and a line that is set up. -/
inductive InitEnds (k : Kernel) (p : Handle) (c : InitCalls) : Kernel × Handle → Prop
  | failed (lines : String → Termios)
      (hlines : ∀ dev, dev ≠ p.devicename → lines dev = k.lines dev) :
      InitEnds k p c ({ k with lines := lines }, p)
  | opened (lines : String → Termios)
      (hlines : ∀ dev, dev ≠ p.devicename → lines dev = k.lines dev)
      (hfd : c.opened ≠ -1) (hraw : (lines p.devicename).Raw) :
      InitEnds k p c ({ k.openLine c.opened p.devicename with lines := lines },
        { p with fd := c.opened })

/-- What `start` makes of one: the same, with the threads and the timers of the port. -/
inductive StartEnds (boost : LexicalCastInt) (fp : Doubles) (k : Kernel) (p : Handle)
    (c : InitCalls) :
    Kernel × Handle → Prop
  | failed (lines : String → Termios)
      (hlines : ∀ dev, dev ≠ p.devicename → lines dev = k.lines dev) :
      StartEnds boost fp k p c ({ k with lines := lines }, p)
  | opened (lines : String → Termios)
      (hlines : ∀ dev, dev ≠ p.devicename → lines dev = k.lines dev)
      (hfd : c.opened ≠ -1) (hraw : (lines p.devicename).Raw) (p' : Handle)
      (hport : p'.port = p.port) (hfd' : p'.fd = c.opened) (hsound : p'.Sound boost fp) :
      StartEnds boost fp k p c ({ k.openLine c.opened p.devicename with lines := lines }, p')

theorem Kernel.tcsetattr_line {files : Int → Option OpenFile} {fd : Int} {dev : String}
    (h : files fd = some (.line dev)) (lines : String → Termios) (t : Termios) (succeeds : Bool) :
    (Kernel.mk files lines).tcsetattr fd t succeeds =
      .ok ⟨files, if succeeds then Function.update lines dev t else lines⟩ := by
  simp only [tcsetattr, h]
  cases succeeds <;> rfl

theorem Kernel.openLine_self (k : Kernel) (fd : Int) (dev : String) :
    (k.openLine fd dev).files fd = some (.line dev) := Function.update_self ..

namespace Handle

variable {p : Handle} {k : Kernel} {c : InitCalls}

theorem closeFd_eq (h : k.files p.fd = some (.line p.devicename)) : p.closeFd k =
    .ok ({ k with files := Function.update k.files p.fd none }, { p with fd := -1 }) := by
  rw [closeFd, Kernel.close, ensure_eq_ok h]
  rfl

/-- Opening and closing again. -/
theorem closeFd_openLine {fd : Int} (lines : String → Termios) (hp : p.fd = -1)
    (hfree : k.files fd = none) :
    ({ p with fd := fd } : Handle).closeFd { k.openLine fd p.devicename with lines := lines } =
      .ok ({ k with lines := lines }, p) := by
  have hback : Function.update (k.openLine fd p.devicename).files fd none = k.files := by
    rw [Kernel.openLine, Function.update_idem, Function.update_eq_self_iff, hfree]
  rw [closeFd_eq (k.openLine_self fd p.devicename)]
  refine congrArg Except.ok (Prod.ext (congrArg (Kernel.mk · lines) hback) ?_)
  show ({ p with fd := -1 } : Handle) = p
  rw [← hp]

theorem init_ends (hp : p.fd = -1) (hfree : c.opened ≠ -1 → k.files c.opened = none) :
    ∃ r, p.init k c = .ok r ∧ InitEnds k p c r := by
  have hclosed : ¬ 0 ≤ p.fd := by
    rw [hp]
    decide
  rw [init, if_neg hclosed]
  by_cases hopened : -1 = c.opened
  · have hsame : ({ p with fd := c.opened } : Handle) = p := by
      rw [← hopened, ← hp]
    rw [if_pos hopened, hsame]
    exact ⟨_, rfl, .failed k.lines fun _ _ => rfl⟩
  · have hfree := hfree (Ne.symm hopened)
    have hfirst (dev : String) (hdev : dev ≠ p.devicename) :
        Function.update k.lines p.devicename c.opt.setSpeed dev = k.lines dev :=
      Function.update_of_ne hdev _ _
    rw [if_neg hopened]
    have hline := k.openLine_self c.opened p.devicename
    show ∃ r, (Kernel.tcsetattr ⟨(k.openLine c.opened p.devicename).files, k.lines⟩ c.opened
      c.opt.setSpeed c.first >>= _) = _ ∧ _
    rw [Kernel.tcsetattr_line hline, ok_bind]
    cases c.first with
    | false => exact ⟨_, closeFd_openLine _ hp hfree, .failed _ fun _ _ => rfl⟩
    | true =>
      show ∃ r, (Kernel.tcsetattr ⟨(k.openLine c.opened p.devicename).files,
        Function.update k.lines p.devicename c.opt.setSpeed⟩ c.opened c.opt.initialized c.second >>=
          _) = _ ∧ _
      rw [Kernel.tcsetattr_line hline, ok_bind]
      cases c.second with
      | false => exact ⟨_, closeFd_openLine _ hp hfree, .failed _ hfirst⟩
      | true =>
        refine ⟨_, rfl, .opened _ (fun dev hdev => ?_) (Ne.symm hopened) ?_⟩
        · exact (Function.update_of_ne hdev _ _).trans (hfirst dev hdev)
        · rw [if_pos rfl, Function.update_self]
          exact c.opt.raw_initialized

/-- What `start` makes of a port that is not started. -/
theorem start_ends (boost : LexicalCastInt) (fp : Doubles) (now : String → Int)
    (timer : String → Nat)
    (hstarted : p.started = false) (hp : p.Idle)
    (hfree : c.opened ≠ -1 → k.files c.opened = none) :
    ∃ r, p.start boost fp k c now timer = .ok r ∧ StartEnds boost fp k p c r := by
  obtain ⟨r, hinit, hends⟩ := init_ends hp.fd hfree
  rw [start, hstarted, hinit]
  cases hends with
  | failed lines hlines =>
    refine ⟨_, ?_, .failed lines hlines⟩
    show (if -1 = p.fd then pure (_, p) else _) = _
    rw [if_pos hp.fd.symm]
    rfl
  | opened lines hlines hfd hraw =>
    refine ⟨_, ?_, .opened lines hlines hfd hraw { p with
      fd := c.opened, started := true, threads := 2, listeners := p.listeners + 1
      timers := p.timers ++ startTimers boost fp now timer p.port } rfl rfl
      ⟨nofun, fun _ => ?_, fun _ _ => ⟨hfd, ?_, ?_⟩⟩⟩
    · show (if -1 = c.opened then _ else ensure _ (p.threads = 0) >>= _) = _
      rw [if_neg (Ne.symm hfd), ensure_eq_ok hp.threads]
      rfl
    · refine ⟨rfl, ?_, now, timer, ?_⟩
      · show p.listeners + 1 = 1
        rw [hp.listeners]
      · show p.timers ++ _ = _
        rw [hp.timers]
        rfl
    · show ∀ fd ∈ p.calls, fd = c.opened
      rw [hp.calls]
      exact nofun
    · show ∀ file ∈ p.met, _
      rw [hp.met]
      exact nofun

/-- A thread of a port that is not released finds its line under the descriptor. -/
theorem Sound.call {boost : LexicalCastInt} {fp : Doubles} (h : p.Sound boost fp) {fd : Int}
    (hfd : fd ∈ p.calls)
    (hline : p.fd ≠ -1 → k.files p.fd = some (.line p.devicename)) :
    Sound { p with calls := p.calls.erase fd, met := p.met ++ [k.files fd] } boost fp := by
  refine ⟨fun hno => ?_, fun hyes => ?_, fun hyes hopen => ?_⟩
  · rw [(h.idle hno).calls] at hfd
    cases hfd
  · obtain ⟨hthreads, hlisteners, htimers⟩ := h.started hyes
    exact ⟨hthreads, hlisteners, htimers⟩
  · obtain ⟨hne, hcalls, hmet⟩ := h.connected hyes hopen
    refine ⟨hne, fun fd' hfd' => hcalls fd' (List.mem_of_mem_erase hfd'), fun file hfile => ?_⟩
    rcases List.mem_append.mp hfile with hold | hnew
    · exact hmet file hold
    · rw [List.mem_singleton.mp hnew, hcalls fd hfd]
      exact hline hne

theorem Sound.load {boost : LexicalCastInt} {fp : Doubles} (h : p.Sound boost fp)
    (hstarted : p.started = true) :
    Sound { p with calls := p.fd :: p.calls } boost fp := by
  obtain ⟨hthreads, hlisteners, htimers⟩ := h.started hstarted
  refine ⟨fun hno => ?_, fun _ => ⟨hthreads, hlisteners, htimers⟩, fun _ hopen => ?_⟩
  · rw [show p.started = false from hno] at hstarted
    cases hstarted
  · obtain ⟨hne, hcalls, hmet⟩ := h.connected hstarted hopen
    refine ⟨hne, fun fd hfd => ?_, hmet⟩
    rcases List.mem_cons.mp hfd with rfl | hold
    · rfl
    · exact hcalls fd hold

end Handle

/-- The ports of the process; `rest` are the descriptors that the rest of it has opened and not yet
closed. -/
structure Ports (ι : Type) where
  kernel : Kernel
  port : ι → Handle
  rest : Int → Bool

inductive PortAction (ι : Type)
  | start (i : ι) (c : InitCalls) (now : String → Int) (timer : String → Nat)
  | release (i : ι)
  | load (i : ι)
  | call (i : ι) (fd : Int)
  | openOther (fd : Int)
  | closeOther (fd : Int)

namespace Ports

variable {ι : Type}

/-- `open` answers with a descriptor that is not in use. -/
def Allowed (s : Ports ι) : PortAction ι → Prop
  | .start _ c _ _ => c.opened ≠ -1 → 0 ≤ c.opened ∧ s.kernel.files c.opened = none
  | .openOther fd => 0 ≤ fd ∧ s.kernel.files fd = none
  | _ => True

instance (s : Ports ι) (a : PortAction ι) : Decidable (s.Allowed a) :=
  match a with
  | .start .. => inferInstanceAs (Decidable (_ → _))
  | .openOther .. => inferInstanceAs (Decidable (_ ∧ _))
  | .release .. | .load .. | .call .. | .closeOther .. => inferInstanceAs (Decidable True)

/-- No port has been started. -/
structure Fresh (s : Ports ι) : Prop where
  port : ∀ i, ∃ port, s.port i = .new port
  line : ∀ fd dev, s.kernel.files fd ≠ some (.line dev)
  rest : ∀ fd, s.kernel.files fd = some .other ↔ s.rest fd = true

structure Kept (boost : LexicalCastInt) (fp : Doubles) (s : Ports ι) : Prop where
  /-- the lines that are open are those of the ports -/
  line : ∀ fd dev, s.kernel.files fd = some (.line dev) ↔
    fd ≠ -1 ∧ ∃ i, (s.port i).fd = fd ∧ (s.port i).devicename = dev
  /-- no two ports have the same descriptor -/
  single : ∀ i j, (s.port i).fd ≠ -1 → (s.port i).fd = (s.port j).fd → i = j
  /-- nobody else's descriptor is closed -/
  rest : ∀ fd, s.kernel.files fd = some .other ↔ s.rest fd = true
  /-- the line of an open port is set up, if no other port uses it -/
  raw : ∀ i, (s.port i).fd ≠ -1 → (∀ j, j ≠ i → (s.port j).devicename ≠ (s.port i).devicename) →
    (s.kernel.lines (s.port i).devicename).Raw
  port : ∀ i, (s.port i).Sound boost fp

variable {boost : LexicalCastInt} {fp : Doubles} {s : Ports ι}

theorem Fresh.kept (h : s.Fresh) : s.Kept boost fp := by
  have hport (i : ι) : (s.port i).fd = -1 ∧ (s.port i).Sound boost fp := by
    obtain ⟨port, hport⟩ := h.port i
    rw [hport]
    exact ⟨rfl, fun _ => ⟨rfl, rfl, rfl, rfl, rfl, rfl⟩, nofun, nofun⟩
  refine ⟨fun fd dev => iff_of_false (h.line fd dev) ?_, fun i j hi => absurd (hport i).1 hi, h.rest,
    fun i hi => absurd (hport i).1 hi, fun i => (hport i).2⟩
  rintro ⟨hfd, i, hi, -⟩
  exact hfd (hi.symm.trans (hport i).1)

/-- The settings of the line of a port that is closed do not matter. -/
theorem Kept.setLines (h : s.Kept boost fp) {i : ι} (hi : (s.port i).fd = -1)
    {lines : String → Termios}
    (hlines : ∀ dev, dev ≠ (s.port i).devicename → lines dev = s.kernel.lines dev) :
    Kept boost fp { s with kernel := { s.kernel with lines := lines } } := by
  refine ⟨h.line, h.single, h.rest, fun j hj hdev => ?_, h.port⟩
  have hne : i ≠ j := by
    rintro rfl
    exact hj hi
  show (lines (s.port j).devicename).Raw
  rw [hlines _ (hdev i hne).symm]
  exact h.raw j hj hdev

variable [DecidableEq ι]

def setPort (s : Ports ι) (i : ι) (r : Kernel × Handle) : Ports ι :=
  { s with kernel := r.1, port := Function.update s.port i r.2 }

def step (boost : LexicalCastInt) (fp : Doubles) (s : Ports ι) :
    PortAction ι → Option (Except LineFault (Ports ι))
  | .start i c now timer => some (((s.port i).start boost fp s.kernel c now timer).map (s.setPort i))
  | .release i => some (((s.port i).release s.kernel).map (s.setPort i))
  | .load i => (s.port i).load.map fun p => .ok (s.setPort i (s.kernel, p))
  | .call i fd => ((s.port i).call s.kernel fd).map fun p => .ok (s.setPort i (s.kernel, p))
  | .openOther fd => some <| .ok { s with
      kernel := { s.kernel with files := Function.update s.kernel.files fd (some .other) }
      rest := Function.update s.rest fd true }
  | .closeOther fd =>
    if s.rest fd then
      some ((s.kernel.close fd .other).map fun k =>
        { s with kernel := k, rest := Function.update s.rest fd false })
    else
      none

theorem port_setPort_self (s : Ports ι) (i : ι) (k : Kernel) (p : Handle) :
    (s.setPort i (k, p)).port i = p := Function.update_self ..

theorem port_setPort_of_ne (s : Ports ι) {i j : ι} (hj : j ≠ i) (k : Kernel) (p : Handle) :
    (s.setPort i (k, p)).port j = s.port j := Function.update_of_ne hj _ _

theorem Kept.port_setPort (h : s.Kept boost fp) {i : ι} (k : Kernel) {p : Handle}
    (hp : p.Sound boost fp) :
    ∀ j, ((s.setPort i (k, p)).port j).Sound boost fp :=
  (Function.forall_update_iff s.port (p := fun _ q => q.Sound boost fp)).mpr ⟨hp, fun j _ => h.port j⟩

theorem devicename_setPort {i : ι} {p : Handle} (hport : p.port = (s.port i).port) (k : Kernel)
    (j : ι) : ((s.setPort i (k, p)).port j).devicename = (s.port j).devicename := by
  by_cases hj : j = i
  · subst hj
    rw [port_setPort_self, Handle.devicename, hport, Handle.devicename]
  · rw [port_setPort_of_ne s hj]

/-- A thread of a port does something that leaves the descriptors alone. -/
theorem Kept.setHandle (h : s.Kept boost fp) {i : ι} {p : Handle} (hport : p.port = (s.port i).port)
    (hfd : p.fd = (s.port i).fd) (hp : p.Sound boost fp) :
    (s.setPort i (s.kernel, p)).Kept boost fp := by
  have hsame (j : ι) : ((s.setPort i (s.kernel, p)).port j).fd = (s.port j).fd := by
    by_cases hj : j = i
    · subst hj
      rw [port_setPort_self, hfd]
    · rw [port_setPort_of_ne s hj]
  refine ⟨fun fd dev => ?_, fun a b ha hab => ?_, h.rest, fun j hj hdev => ?_,
    h.port_setPort _ hp⟩
  · simp only [hsame, devicename_setPort hport]
    exact h.line fd dev
  · rw [hsame] at ha hab
    rw [hsame] at hab
    exact h.single a b ha hab
  · simp only [hsame, devicename_setPort hport] at hj hdev ⊢
    exact h.raw j hj hdev

/-- A port gets a descriptor that is not in use. -/
theorem Kept.opened (h : s.Kept boost fp) {i : ι} {fd : Int} {p : Handle} {lines : String → Termios}
    (hi : (s.port i).fd = -1) (hfd : fd ≠ -1) (hfree : s.kernel.files fd = none)
    (hlines : ∀ dev, dev ≠ (s.port i).devicename → lines dev = s.kernel.lines dev)
    (hraw : (lines (s.port i).devicename).Raw) (hport : p.port = (s.port i).port) (hp : p.fd = fd)
    (hsound : p.Sound boost fp) :
    (s.setPort i
      ({ s.kernel.openLine fd (s.port i).devicename with lines := lines }, p)).Kept boost fp := by
  have hdevice : p.devicename = (s.port i).devicename := by
    rw [Handle.devicename, hport, Handle.devicename]
  -- no port has the new descriptor yet
  have hnew (j : ι) : (s.port j).fd ≠ fd := by
    intro hj
    have hline := (h.line fd _).mpr ⟨hfd, j, hj, rfl⟩
    rw [hfree] at hline
    cases hline
  have hclosed {j : ι} (hj : (s.port j).fd ≠ -1) : j ≠ i := by
    rintro rfl
    exact hj hi
  refine ⟨fun x dev => ?_, fun a b ha hab => ?_, fun x => ?_, fun j hj hdev => ?_,
    h.port_setPort _ hsound⟩
  · show Function.update s.kernel.files fd _ x = _ ↔ _ ∧ ∃ j, (Function.update s.port i p j).fd = x ∧
      (Function.update s.port i p j).devicename = dev
    rw [Function.exists_update_iff s.port (p := fun _ q => q.fd = x ∧ q.devicename = dev)]
    by_cases hx : x = fd
    · subst hx
      rw [Function.update_self, hdevice]
      refine ⟨fun heq => ?_, ?_⟩
      · cases heq
        exact ⟨hfd, .inl ⟨hp, rfl⟩⟩
      · rintro ⟨-, ⟨-, rfl⟩ | ⟨j, -, hj, -⟩⟩
        · rfl
        · exact absurd hj (hnew j)
    · rw [Function.update_of_ne hx, h.line]
      refine and_congr_right fun hx' => ⟨?_, ?_⟩
      · rintro ⟨j, hj, hdev⟩
        exact .inr ⟨j, hclosed (hj.trans_ne hx'), hj, hdev⟩
      · rintro (⟨hj, -⟩ | ⟨j, -, hj⟩)
        · exact absurd (hj.symm.trans hp) hx
        · exact ⟨j, hj⟩
  · by_cases hai : a = i <;> by_cases hbi : b = i
    · exact hai.trans hbi.symm
    · subst hai
      rw [port_setPort_self, port_setPort_of_ne s hbi, hp] at hab
      exact absurd hab.symm (hnew b)
    · subst hbi
      rw [port_setPort_self, port_setPort_of_ne s hai, hp] at hab
      exact absurd hab (hnew a)
    · rw [port_setPort_of_ne s hai] at ha hab
      rw [port_setPort_of_ne s hbi] at hab
      exact h.single a b ha hab
  · show Function.update s.kernel.files fd _ x = _ ↔ s.rest x = true
    by_cases hx : x = fd
    · subst hx
      rw [Function.update_self, ← h.rest, hfree]
      exact iff_of_false nofun nofun
    · rw [Function.update_of_ne hx]
      exact h.rest x
  · simp only [devicename_setPort hport] at hdev ⊢
    show (lines (s.port j).devicename).Raw
    by_cases hji : j = i
    · subst hji
      exact hraw
    · rw [port_setPort_of_ne s hji] at hj
      rw [hlines _ (hdev i (Ne.symm hji)).symm]
      exact h.raw j hj hdev

/-- A port gives its descriptor back. -/
theorem Kept.closed (h : s.Kept boost fp) {i : ι} (hi : (s.port i).fd ≠ -1) :
    (s.setPort i ({ s.kernel with files := Function.update s.kernel.files (s.port i).fd none },
      { s.port i with fd := -1, released := true })).Kept boost fp := by
  have hstarted : (s.port i).started = true := by
    by_contra hno
    rw [Bool.not_eq_true] at hno
    exact hi ((h.port i).idle hno).fd
  have hdone := (h.port i).started hstarted
  refine ⟨fun x dev => ?_, fun a b ha hab => ?_, fun x => ?_, fun j hj hdev => ?_,
    h.port_setPort _
    ⟨fun hno => absurd hno ?_, fun _ => ⟨hdone.threads, hdone.listeners, hdone.timers⟩, nofun⟩⟩
  · show Function.update s.kernel.files (s.port i).fd none x = _ ↔ _ ∧
      ∃ j, (Function.update s.port i { s.port i with fd := -1, released := true } j).fd = x ∧
        (Function.update s.port i { s.port i with fd := -1, released := true } j).devicename = dev
    rw [Function.exists_update_iff s.port (p := fun _ q => q.fd = x ∧ q.devicename = dev)]
    by_cases hx : x = (s.port i).fd
    · subst hx
      rw [Function.update_self]
      refine iff_of_false nofun ?_
      rintro ⟨-, ⟨hfd, -⟩ | ⟨j, hj, hfd, -⟩⟩
      · exact hi hfd.symm
      · exact hj (h.single i j hi hfd.symm).symm
    · rw [Function.update_of_ne hx, h.line]
      refine and_congr_right fun hx' => ⟨?_, ?_⟩
      · rintro ⟨j, hj, hdev⟩
        refine .inr ⟨j, ?_, hj, hdev⟩
        rintro rfl
        exact hx hj.symm
      · rintro (⟨hj, -⟩ | ⟨j, -, hj⟩)
        · exact absurd hj.symm hx'
        · exact ⟨j, hj⟩
  · have hai : a ≠ i := by
      rintro rfl
      rw [port_setPort_self] at ha
      exact ha rfl
    rw [port_setPort_of_ne s hai] at ha hab
    have hbi : b ≠ i := by
      rintro rfl
      rw [port_setPort_self] at hab
      exact ha hab
    rw [port_setPort_of_ne s hbi] at hab
    exact h.single a b ha hab
  · show Function.update s.kernel.files (s.port i).fd none x = _ ↔ s.rest x = true
    by_cases hx : x = (s.port i).fd
    · subst hx
      have hline := (h.line _ _).mpr ⟨hi, i, rfl, rfl⟩
      rw [Function.update_self, ← h.rest, hline]
      exact iff_of_false nofun nofun
    · rw [Function.update_of_ne hx]
      exact h.rest x
  · simp only [devicename_setPort (p := { s.port i with fd := -1, released := true }) rfl] at hdev ⊢
    have hji : j ≠ i := by
      rintro rfl
      rw [port_setPort_self] at hj
      exact hj rfl
    rw [port_setPort_of_ne s hji] at hj
    exact h.raw j hj hdev
  · show ¬ (s.port i).started = false
    rw [hstarted]
    exact nofun

theorem Kept.start (h : s.Kept boost fp) {i : ι} {c : InitCalls} (now : String → Int)
    (timer : String → Nat) (hc : c.opened ≠ -1 → s.kernel.files c.opened = none) :
    ∃ t, ((s.port i).start boost fp s.kernel c now timer).map (s.setPort i) = .ok t ∧
      t.Kept boost fp := by
  have hself : s.setPort i (s.kernel, s.port i) = s := by
    rw [setPort, Function.update_eq_self]
  cases hstarted : (s.port i).started with
  | true =>
    rw [Handle.start, if_pos hstarted]
    refine ⟨s, congrArg Except.ok hself, h⟩
  | false =>
    have hidle := (h.port i).idle hstarted
    obtain ⟨r, hr, hends⟩ := Handle.start_ends boost fp now timer hstarted hidle hc
    rw [hr]
    cases hends with
    | failed lines hlines =>
      refine ⟨_, rfl, ?_⟩
      rw [setPort, Function.update_eq_self]
      exact h.setLines hidle.fd hlines
    | opened lines hlines hfd hraw p' hport hfd' hsound =>
      exact ⟨_, rfl, h.opened hidle.fd hfd (hc hfd) hlines hraw hport hfd' hsound⟩

theorem Kept.release (h : s.Kept boost fp) (i : ι) :
    ∃ t, ((s.port i).release s.kernel).map (s.setPort i) = .ok t ∧ t.Kept boost fp := by
  rw [Handle.release]
  split
  · next hi =>
    have hline : s.kernel.files (s.port i).fd = some (.line (s.port i).devicename) :=
      (h.line _ _).mpr ⟨hi, i, rfl, rfl⟩
    have hclose := Handle.closeFd_eq (p := { s.port i with released := true }) hline
    rw [hclose]
    exact ⟨_, rfl, h.closed hi⟩
  · refine ⟨s, congrArg Except.ok ?_, h⟩
    rw [setPort, Function.update_eq_self]

omit [DecidableEq ι] in
/-- What the rest of the process opens and closes. -/
theorem Kept.setOther (h : s.Kept boost fp) {fd : Int}
    (hfd : ∀ dev, s.kernel.files fd ≠ some (.line dev))
    (b : Bool) : Kept boost fp { s with
      kernel := { s.kernel with
        files := Function.update s.kernel.files fd (if b then some .other else none) }
      rest := Function.update s.rest fd b } := by
  refine ⟨fun x dev => ?_, h.single, fun x => ?_, h.raw, h.port⟩
  · show Function.update s.kernel.files fd _ x = _ ↔ _
    rw [← h.line]
    by_cases hx : x = fd
    · subst hx
      rw [Function.update_self]
      exact iff_of_false (by cases b <;> exact nofun) (hfd dev)
    · rw [Function.update_of_ne hx]
  · show Function.update s.kernel.files fd _ x = _ ↔ Function.update s.rest fd b x = true
    by_cases hx : x = fd
    · subst hx
      rw [Function.update_self, Function.update_self]
      cases b <;> simp
    · rw [Function.update_of_ne hx, Function.update_of_ne hx]
      exact h.rest x

theorem Kept.step (h : s.Kept boost fp) {a : PortAction ι} (ha : s.Allowed a)
    {m : Except LineFault (Ports ι)} (hm : s.step boost fp a = some m) :
    ∃ t, m = .ok t ∧ t.Kept boost fp := by
  cases a with
  | start i c now timer =>
    cases hm
    exact h.start now timer fun hfd => (ha hfd).2
  | release i =>
    cases hm
    exact h.release i
  | load i =>
    obtain ⟨p, hp, rfl⟩ := Option.map_eq_some_iff.mp hm
    obtain ⟨hstarted, hp⟩ := Option.ite_none_right_eq_some.mp hp
    cases hp
    exact ⟨_, rfl, h.setHandle rfl rfl ((h.port i).load hstarted)⟩
  | call i fd =>
    obtain ⟨p, hp, rfl⟩ := Option.map_eq_some_iff.mp hm
    obtain ⟨hfd, hp⟩ := Option.ite_none_right_eq_some.mp hp
    cases hp
    refine ⟨_, rfl, h.setHandle rfl rfl ((h.port i).call hfd fun hopen => ?_)⟩
    exact (h.line _ _).mpr ⟨hopen, i, rfl, rfl⟩
  | openOther fd =>
    cases hm
    refine ⟨_, rfl, h.setOther (fun dev hline => ?_) true⟩
    rw [ha.2] at hline
    cases hline
  | closeOther fd =>
    obtain ⟨hrest, hm⟩ := Option.ite_none_right_eq_some.mp hm
    cases hm
    have hother := (h.rest fd).mpr hrest
    rw [Kernel.close, ensure_eq_ok hother]
    refine ⟨_, rfl, h.setOther (fun dev hline => ?_) false⟩
    rw [hother] at hline
    cases hline

/-- However the ports are started and released, and whatever else the process opens and closes
meanwhile: the open lines are those that the ports have, no descriptor has two owners, nothing is
closed or set up on a descriptor that the caller does not own, a port is started once, and its
threads read and write its line until it is released. -/
theorem ports_kept (boost : LexicalCastInt) (fp : Doubles) (p : Except LineFault (Ports ι))
    (h : Run (step boost fp) Allowed Fresh p) : ∃ s, p = .ok s ∧ s.Kept boost fp :=
  h.safe (fun _ hs => hs.kept) fun _ _ _ hs ha hm => hs.step ha hm

/-- The first port is released while one of its threads is about to read, and the rest of the process
gets the descriptor: that is what the thread reads from. The second port cannot be set up; it is
started again when the descriptor is free, and once more for nothing, and its threads meet its line. -/
theorem ports_kept_reuse : ∃ s : Ports Bool, s.Kept .digits .rational ∧ (s.port false).fd = -1 ∧
    (s.port true).fd = 3 ∧ s.kernel.files 3 = some (.line "/dev/ttyS1") ∧
    s.kernel.files 4 = none ∧ (s.port false).met = [some .other] ∧
    (s.port true).met = [some (.line "/dev/ttyS1")] := by
  let opt : Termios := ⟨0x500, 5, 0xcbd, 0x8a3b, 13, 13, fun _ => 1⟩
  let port (i : Bool) : Device.SerialPort :=
    ⟨{ portname := if i then "/dev/ttyS1" else "/dev/ttyS0" }, ∅⟩
  let fresh : Ports Bool := ⟨⟨fun _ => none, fun _ => opt⟩, fun i => .new (port i), fun _ => false⟩
  let start (i : Bool) (opened : Int) (second : Bool) : PortAction Bool :=
    .start i ⟨opened, opt, true, second⟩ (fun _ => 0) (fun _ => 0)
  have hex : seen (exec (faulting (restrict Allowed (step .digits .rational))) (.ok fresh)
      [start false 3 true, .load false, .release false, .openOther 3, .call false 3,
        start true 4 false, .closeOther 3, start true 3 true, start true 5 true, .load true,
        .call true 3])
      (fun s => decide ((s.port false).fd = -1) && decide ((s.port true).fd = 3) &&
        decide (s.kernel.files 3 = some (.line "/dev/ttyS1")) &&
        decide (s.kernel.files 4 = none) && decide ((s.port false).met = [some .other]) &&
        decide ((s.port true).met = [some (.line "/dev/ttyS1")])) = true := by
    decide +kernel
  obtain ⟨s, hs, hcheck⟩ := exists_of_seen hex
  simp only [Bool.and_eq_true, decide_eq_true_eq, and_assoc] at hcheck
  have hstart : Run (step .digits .rational) Allowed Fresh (.ok fresh) :=
    Run.start ⟨fun i => ⟨port i, rfl⟩, fun _ _ => nofun, fun _ => iff_of_false nofun nofun⟩
  obtain ⟨s', hs', hkept⟩ := ports_kept .digits .rational (.ok s) (hstart.exec _ hs)
  cases hs'
  exact ⟨s, hkept, hcheck⟩

end Ports

end DbdkyGcc.Port
