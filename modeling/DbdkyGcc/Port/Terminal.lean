import Mathlib

/-!
# The settings of a serial line

`SerialPort::init` takes what `tcgetattr` has left in `opt`, sets and clears flags of it and asks
for the result with `tcsetattr`.
-/

namespace DbdkyGcc.Port

/-- The entries of `c_cc` that matter here. -/
inductive ControlChar
  | VTIME | VMIN
deriving DecidableEq

/-- `struct termios`. The speeds are what `cfgetispeed` and `cfgetospeed` answer; their bits in
`c_cflag` are left out. -/
structure Termios where
  iflag : BitVec 32
  oflag : BitVec 32
  cflag : BitVec 32
  lflag : BitVec 32
  ispeed : BitVec 32
  ospeed : BitVec 32
  cc : ControlChar → UInt8

section Constants

-- `c_iflag`
def INPCK : BitVec 32 := 0o20
def INLCR : BitVec 32 := 0o100
def ICRNL : BitVec 32 := 0o400
def IXON : BitVec 32 := 0o2000
def IXANY : BitVec 32 := 0o4000
def IXOFF : BitVec 32 := 0o10000

-- `c_oflag`
def OPOST : BitVec 32 := 0o1
def ONLCR : BitVec 32 := 0o4
def OCRNL : BitVec 32 := 0o10

-- `c_cflag`
def CSIZE : BitVec 32 := 0o60
def CS8 : BitVec 32 := 0o60
def CSTOPB : BitVec 32 := 0o100
def CREAD : BitVec 32 := 0o200
def PARENB : BitVec 32 := 0o400
def CLOCAL : BitVec 32 := 0o4000

-- `c_lflag`
def ISIG : BitVec 32 := 0o1
def ICANON : BitVec 32 := 0o2
def ECHO : BitVec 32 := 0o10
def ECHOE : BitVec 32 := 0o20

def B9600 : BitVec 32 := 0o15

end Constants

namespace Termios

variable (opt t : Termios)

/-- What `init` asks for first. -/
def setSpeed : Termios := { opt with ispeed := B9600, ospeed := B9600 }

/-- The flags that `init` sets and clears before it asks for the second time. -/
def configure : Termios :=
  { opt with
    cflag := ((opt.cflag &&& ~~~CSIZE ||| CS8) &&& ~~~CSTOPB &&& ~~~PARENB) ||| (CLOCAL ||| CREAD)
    iflag := opt.iflag &&& ~~~INPCK &&& ~~~(ICRNL ||| INLCR) &&& ~~~(IXON ||| IXOFF ||| IXANY)
    lflag := opt.lflag &&& ~~~(ICANON ||| ECHO ||| ECHOE ||| ISIG)
    oflag := opt.oflag &&& ~~~OPOST &&& ~~~(ONLCR ||| OCRNL)
    cc := Function.update (Function.update opt.cc .VTIME 0) .VMIN 0 }

/-- The settings that `init` ends with. -/
def initialized : Termios := opt.setSpeed.configure

/-- 9600 baud, eight data bits, no parity and one stop bit; no signals, no echo, no flow control and
no lines; and `read` returns at once. -/
structure Raw : Prop where
  speed : t.ispeed = B9600 ∧ t.ospeed = B9600
  character : t.cflag &&& (CSIZE ||| CSTOPB ||| PARENB) = CS8
  enabled : t.cflag &&& (CLOCAL ||| CREAD) = CLOCAL ||| CREAD
  input : t.iflag &&& (INPCK ||| ICRNL ||| INLCR ||| IXON ||| IXOFF ||| IXANY) = 0
  output : t.oflag &&& (OPOST ||| ONLCR ||| OCRNL) = 0
  lines : t.lflag &&& (ICANON ||| ECHO ||| ECHOE ||| ISIG) = 0
  wait : t.cc .VTIME = 0 ∧ t.cc .VMIN = 0

section Masks

variable {x m k : BitVec 32}

theorem and_and_eq_zero (h : m &&& k = 0#32) : x &&& m &&& k = 0 := by
  rw [BitVec.and_assoc, h]
  exact BitVec.and_zero

theorem or_and_self (x m : BitVec 32) : (x ||| m) &&& m = m :=
  BitVec.eq_of_getElem_eq fun i hi => by simpa using Or.inr

end Masks

theorem iflag_initialized : opt.initialized.iflag =
    opt.iflag &&& (~~~INPCK &&& (~~~(ICRNL ||| INLCR) &&& ~~~(IXON ||| IXOFF ||| IXANY))) := by
  rw [← BitVec.and_assoc, ← BitVec.and_assoc]
  rfl

theorem oflag_initialized :
    opt.initialized.oflag = opt.oflag &&& (~~~OPOST &&& ~~~(ONLCR ||| OCRNL)) :=
  BitVec.and_assoc _ _ _

theorem raw_initialized : opt.initialized.Raw where
  speed := ⟨rfl, rfl⟩
  character := by
    -- the bits of `opt` are behind the masks of `CSIZE`, `CSTOPB` and `PARENB`
    show ((opt.cflag &&& ~~~CSIZE ||| CS8) &&& ~~~CSTOPB &&& ~~~PARENB ||| (CLOCAL ||| CREAD)) &&&
      _ = _
    rw [BitVec.and_or_distrib_right, BitVec.and_assoc, BitVec.and_assoc,
      BitVec.and_or_distrib_right, and_and_eq_zero (by decide)]
    decide
  enabled := or_and_self _ _
  input := by
    rw [iflag_initialized]
    exact and_and_eq_zero (by decide)
  output := by
    rw [oflag_initialized]
    exact and_and_eq_zero (by decide)
  lines := and_and_eq_zero (by decide)
  wait := ⟨rfl, rfl⟩

end Termios

end DbdkyGcc.Port
