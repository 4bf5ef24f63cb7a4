import DbdkyGcc.Foundations.Bytes
import DbdkyGcc.Logging.Async
import DbdkyGcc.Streams.Convert

/-!
# The stream of a log record

A `LogStream` collects the pieces of a record in a `FixedBuffer`. Text is copied if there is more
room than it takes; a number is written in place, with a terminator behind it, if there is room for
the longest one, and counted afterwards. A piece that does not fit is left out.

The bytes of the buffer are modelled as they are, so that a write behind its end is a fault. What
the buffer then holds is described by `hold`, one piece at a time: a piece is there whole or not at
all.
-/

namespace DbdkyGcc.Streams

open Foundations

/-- What the language does not define, or an assertion that fails. -/
inductive Fault
  | outOfBounds
  | assertion
  deriving DecidableEq, Repr

/-- The array `data_`, of which the bytes before `cur_` are in use. -/
structure FixedBuffer (SIZE : ℕ) where
  data : List UInt8
  cur : ℕ
  length_data : data.length = SIZE
  cur_le : cur ≤ SIZE

namespace FixedBuffer

variable {SIZE : ℕ}

/-- The constructor leaves the bytes as they are. -/
def new (memory : Vector UInt8 SIZE) : FixedBuffer SIZE :=
  { data := memory.toList, cur := 0, length_data := memory.length_toList, cur_le := Nat.zero_le _ }

def avail (b : FixedBuffer SIZE) : ℕ := SIZE - b.cur

def length (b : FixedBuffer SIZE) : ℕ := b.cur

/-- The bytes in use, which is what `data` and `length` give to the output function. -/
def asString (b : FixedBuffer SIZE) : List UInt8 := b.data.take b.cur

/-- A write into the array. -/
def write (b : FixedBuffer SIZE) (pos : ℕ) (bytes : List UInt8) : Except Fault (FixedBuffer SIZE) :=
  if h : pos + bytes.length ≤ SIZE then
    .ok { b with
      data := overwrite b.data pos bytes
      length_data := (length_overwrite (h.trans_eq b.length_data.symm)).trans b.length_data }
  else .error .outOfBounds

/-- `cur_` may not go beyond the end of the array. -/
def add (b : FixedBuffer SIZE) (len : ℕ) : Except Fault (FixedBuffer SIZE) :=
  if h : b.cur + len ≤ SIZE then .ok { b with cur := b.cur + len, cur_le := h }
  else .error .outOfBounds

def append (b : FixedBuffer SIZE) (buf : List UInt8) : Except Fault (FixedBuffer SIZE) :=
  if b.avail > buf.length then do
    let b ← b.write b.cur buf
    b.add buf.length
  else .ok b

/-- The terminator stands behind the bytes in use. -/
def debugString (b : FixedBuffer SIZE) : Except Fault (FixedBuffer SIZE) := b.write b.cur [0]

theorem length_asString (b : FixedBuffer SIZE) : b.asString.length = b.cur := by
  rw [asString, List.length_take, b.length_data, Nat.min_eq_left b.cur_le]

/-- The buffer holds these bytes, and there is room for a terminator. -/
structure Holds (b : FixedBuffer SIZE) (content : List UInt8) : Prop where
  asString_eq : b.asString = content
  cur_lt : b.cur < SIZE

theorem holds_new (hSIZE : 0 < SIZE) (memory : Vector UInt8 SIZE) : (new memory).Holds [] :=
  ⟨List.take_zero, hSIZE⟩

theorem Holds.cur_eq {b : FixedBuffer SIZE} {content : List UInt8} (h : b.Holds content) :
    b.cur = content.length := by
  rw [← h.asString_eq, length_asString]

/-- A text is written behind the bytes in use, with others behind it that are not counted. -/
theorem Holds.place {b : FixedBuffer SIZE} {content : List UInt8} (h : b.Holds content)
    {front back : List UInt8} (hroom : b.cur + (front ++ back).length ≤ SIZE)
    (hlt : b.cur + front.length < SIZE) :
    ∃ b', (b.write b.cur (front ++ back) >>= fun b => b.add front.length) = .ok b' ∧
      b'.Holds (content ++ front) := by
  have hwrite : b.write b.cur (front ++ back) = .ok
      ⟨overwrite b.data b.cur (front ++ back), b.cur, _, b.cur_le⟩ := dif_pos hroom
  have hadd : (FixedBuffer.mk (overwrite b.data b.cur (front ++ back)) b.cur
      ((length_overwrite (hroom.trans_eq b.length_data.symm)).trans b.length_data) b.cur_le).add
      front.length = .ok _ := dif_pos (le_of_lt hlt)
  refine ⟨_, bind_eq_ok_iff.mpr ⟨_, hwrite, hadd⟩, ?_, hlt⟩
  rw [← h.asString_eq]
  exact take_overwrite (hroom.trans_eq b.length_data.symm)

/-- Two writes of which the second begins where the first ends. -/
theorem write_write {b : FixedBuffer SIZE} {front back : List UInt8}
    (h : b.cur + (front ++ back).length ≤ SIZE) :
    (b.write b.cur front >>= fun b => b.write (b.cur + front.length) back) =
      b.write b.cur (front ++ back) := by
  have hlen : (front ++ back).length = front.length + back.length := List.length_append
  have hfirst : b.write b.cur front = .ok ⟨overwrite b.data b.cur front, b.cur, _, b.cur_le⟩ :=
    dif_pos (by omega)
  have hboth : b.write b.cur (front ++ back) =
      .ok ⟨overwrite b.data b.cur (front ++ back), b.cur, _, b.cur_le⟩ := dif_pos h
  rw [hfirst, hboth, ok_bind]
  refine (dif_pos (show b.cur + front.length + back.length ≤ SIZE by omega)).trans ?_
  congr 2
  exact overwrite_overwrite (h.trans_eq b.length_data.symm)

theorem Holds.append {b : FixedBuffer SIZE} {content : List UInt8} (h : b.Holds content)
    (buf : List UInt8) : ∃ b', b.append buf = .ok b' ∧
      b'.Holds (if buf.length < SIZE - content.length then content ++ buf else content) := by
  rw [FixedBuffer.append, FixedBuffer.avail, h.cur_eq]
  by_cases hroom : buf.length < SIZE - content.length
  · have hcur := h.cur_eq
    have hplace := h.place (by rw [List.append_nil]; omega : b.cur + (buf ++ []).length ≤ SIZE)
      (by omega)
    rw [List.append_nil] at hplace
    rw [if_pos hroom, if_pos hroom, ← hcur]
    exact hplace
  · rw [if_neg hroom, if_neg hroom]
    exact ⟨b, rfl, h⟩

/-- The buffers of the asynchronous logging, which are modelled by the lines in them, hold the lines
one behind the other. -/
theorem Holds.append_line {b : FixedBuffer Logging.kLargeBuffer} {front : Logging.FixedBuffer}
    (h : b.Holds front.lines.flatten) (line : Logging.Line) :
    ∃ b', b.append line = .ok b' ∧ b'.Holds (front.append line).lines.flatten := by
  obtain ⟨b', hb', h'⟩ := h.append line
  have havail : front.avail = Logging.kLargeBuffer - front.lines.flatten.length := by
    rw [Logging.FixedBuffer.avail, Logging.FixedBuffer.length, List.length_flatten]
  refine ⟨b', hb', ?_⟩
  rw [Logging.FixedBuffer.append, havail]
  split
  · rename_i hroom
    rw [if_pos hroom] at h'
    rw [List.flatten_append, List.flatten_singleton]
    exact h'
  · rename_i hroom
    rw [if_neg hroom] at h'
    exact h'

/-- The terminator of `debugString` is in the array. -/
theorem Holds.debugString {b : FixedBuffer SIZE} {content : List UInt8} (h : b.Holds content) :
    ∃ b', b.debugString = .ok b' := ⟨_, dif_pos h.cur_lt⟩

end FixedBuffer

/-- A text that ends with a terminator, without it. -/
structure CString where
  text : List UInt8
  nul_free : 0 ∉ text

/-- What is put into a stream, by the overload of the operator. A string, a `StringPiece` and the
arguments of `append` are texts that may have any bytes. -/
inductive Insertion
  | bool (v : Bool)
  | char (v : UInt8)
  | short (v : Int16)
  | unsignedShort (v : UInt16)
  | int (v : Int32)
  | unsignedInt (v : UInt32)
  | long (v : Int64)
  | unsignedLong (v : UInt64)
  | longLong (v : Int64)
  | unsignedLongLong (v : UInt64)
  | pointer (p : UInt64)
  | float (v : Float32)
  | double (v : Float)
  | cString (v : CString)
  | string (v : List UInt8)
  | stringPiece (v : List UInt8)
  | append (data : List UInt8)

/-- What the C library makes of a number for `%.12g`: a text without a terminator that is shorter
than `kMaxNumericSize`. -/
structure Printf where
  g12 : Float → CString
  length_g12 : ∀ v, (g12 v).text.length < 32

namespace LogStream

def kSmallBuffer : ℕ := 4000

abbrev Buffer := FixedBuffer kSmallBuffer

def kMaxNumericSize : ℕ := 32

section Operators

variable {SIZE : ℕ} (b : FixedBuffer SIZE)

/-- What a function that formats in place leaves behind `cur_`, and how much of it counts. -/
def formatted (r : Option Rendered) : Except Fault (FixedBuffer SIZE) := do
  let w ← require .outOfBounds r
  let b ← b.write b.cur w.buf
  b.add w.length

def formatInteger {T : Type} [Integral T] [DecidableEq T] [DecidableLT T] (v : T) :
    Except Fault (FixedBuffer SIZE) :=
  if b.avail ≥ kMaxNumericSize then formatted b (convert v) else .ok b

/-- An address. -/
def formatPointer (v : UInt64) : Except Fault (FixedBuffer SIZE) :=
  if b.avail ≥ kMaxNumericSize then do
    let b ← b.write b.cur (chars ['0', 'x'])
    let w ← require .outOfBounds (convertHex v)
    let b ← b.write (b.cur + 2) w.buf
    b.add (w.length + 2)
  else .ok b

/-- `snprintf` cuts a text that is too long, but returns its length. -/
def formatDouble (rt : Printf) (v : Float) : Except Fault (FixedBuffer SIZE) :=
  if b.avail ≥ kMaxNumericSize then do
    let text := (rt.g12 v).text
    let b ← b.write b.cur (text.take (kMaxNumericSize - 1) ++ [0])
    b.add text.length
  else .ok b

/-- `operator<<`. -/
def insert (rt : Printf) : Insertion → Except Fault (FixedBuffer SIZE)
  | .bool v => b.append (chars (if v then ['1'] else ['0']))
  | .char v => b.append [v]
  | .short v => formatInteger b v.toInt32
  | .unsignedShort v => formatInteger b v.toUInt32
  | .int v => formatInteger b v
  | .unsignedInt v => formatInteger b v
  | .long v => formatInteger b v
  | .unsignedLong v => formatInteger b v
  | .longLong v => formatInteger b v
  | .unsignedLongLong v => formatInteger b v
  | .pointer p => formatPointer b p
  | .float v => formatDouble b rt v.toFloat
  | .double v => formatDouble b rt v
  | .cString v => b.append v.text
  | .string v => b.append v
  | .stringPiece v => b.append v
  | .append data => b.append data

end Operators

/-- The piece that is to be put into the stream. -/
def piece (rt : Printf) : Insertion → List UInt8
  | .bool v => chars (if v then ['1'] else ['0'])
  | .char v => [v]
  | .short v => chars (signed v.toInt)
  | .unsignedShort v => chars (decimal v.toNat)
  | .int v => chars (signed v.toInt)
  | .unsignedInt v => chars (decimal v.toNat)
  | .long v => chars (signed v.toInt)
  | .unsignedLong v => chars (decimal v.toNat)
  | .longLong v => chars (signed v.toInt)
  | .unsignedLongLong v => chars (decimal v.toNat)
  | .pointer p => chars ('0' :: 'x' :: upperHex p.toNat)
  | .float v => (rt.g12 v.toFloat).text
  | .double v => (rt.g12 v).text
  | .cString v => v.text
  | .string v => v
  | .stringPiece v => v
  | .append data => data

/-- The piece is formatted in place. -/
def inPlace : Insertion → Bool
  | .bool _ | .char _ | .cString _ | .string _ | .stringPiece _ | .append _ => false
  | _ => true

/-- A stream that holds `len` bytes takes the piece. -/
def takes (SIZE : ℕ) (rt : Printf) (len : ℕ) (i : Insertion) : Bool :=
  if inPlace i then kMaxNumericSize ≤ SIZE - len else (piece rt i).length < SIZE - len

/-- What a stream holds after an insertion. -/
def hold (SIZE : ℕ) (rt : Printf) (content : List UInt8) (i : Insertion) : List UInt8 :=
  if takes SIZE rt content.length i then content ++ piece rt i else content

theorem hold_inPlace {SIZE : ℕ} {rt : Printf} {content : List UInt8} {i : Insertion}
    (hi : inPlace i = true) : hold SIZE rt content i =
      if kMaxNumericSize ≤ SIZE - content.length then content ++ piece rt i else content := by
  simp only [hold, takes, hi, if_true, decide_eq_true_eq]

theorem hold_copied {SIZE : ℕ} {rt : Printf} {content : List UInt8} {i : Insertion}
    (hi : inPlace i = false) : hold SIZE rt content i =
      if (piece rt i).length < SIZE - content.length then content ++ piece rt i else content := by
  simp only [hold, takes, hi, Bool.false_eq_true, if_false, decide_eq_true_eq]

section Step

variable {SIZE : ℕ} {b : FixedBuffer SIZE} {content : List UInt8} (h : b.Holds content)
include h

theorem formatted_ok {r : Option Rendered} {text : List Char} (hr : Renders r text)
    (hroom : kMaxNumericSize ≤ b.avail) :
    ∃ b', formatted b r = .ok b' ∧ b'.Holds (content ++ chars text) := by
  obtain ⟨w, rfl, hbuf, hlength, hbound⟩ := hr
  have hlen := congrArg List.length hbuf
  rw [List.length_append, length_chars, List.length_singleton] at hlen
  have hmax : 32 ≤ SIZE - b.cur := hroom
  have hplace := h.place (by rw [← hbuf]; omega : b.cur + (chars text ++ [0]).length ≤ SIZE)
    (by rw [length_chars]; omega)
  rw [← hbuf, length_chars, ← hlength] at hplace
  exact hplace

/-- What is formatted in place is there if there is room for the longest number. -/
theorem inPlace_ok {m : Except Fault (FixedBuffer SIZE)} {text : List UInt8}
    (hm : kMaxNumericSize ≤ b.avail → ∃ b', m = .ok b' ∧ b'.Holds (content ++ text)) :
    ∃ b', (if b.avail ≥ kMaxNumericSize then m else .ok b) = .ok b' ∧ b'.Holds
      (if kMaxNumericSize ≤ SIZE - content.length then content ++ text else content) := by
  have havail : b.avail = SIZE - content.length := by rw [FixedBuffer.avail, h.cur_eq]
  rw [havail] at hm ⊢
  by_cases hroom : kMaxNumericSize ≤ SIZE - content.length
  · rw [if_pos hroom, if_pos hroom]
    exact hm hroom
  · rw [if_neg hroom, if_neg hroom]
    exact ⟨b, rfl, h⟩

theorem formatInteger_ok {T : Type} [Integral T] [DecidableEq T] [DecidableLT T] (v : T) :
    ∃ b', formatInteger b v = .ok b' ∧ b'.Holds
      (if kMaxNumericSize ≤ SIZE - content.length then content ++ chars (signed (Integral.toInt v))
        else content) :=
  inPlace_ok h fun hroom => formatted_ok h (renders_convert v) hroom

theorem formatPointer_ok (p : UInt64) :
    ∃ b', formatPointer b p = .ok b' ∧ b'.Holds
      (if kMaxNumericSize ≤ SIZE - content.length
        then content ++ chars ('0' :: 'x' :: upperHex p.toNat) else content) := by
  refine inPlace_ok h fun hroom => ?_
  obtain ⟨w, hw, hbuf, hlength, hbound⟩ := renders_convertHex p
  have hlen := congrArg List.length hbuf
  rw [List.length_append, length_chars, List.length_singleton] at hlen
  have hmax : 32 ≤ SIZE - b.cur := hroom
  have hfit : b.cur + (chars ('0' :: 'x' :: upperHex p.toNat) ++ [0]).length ≤ SIZE := by
    simp only [List.length_append, length_chars, List.length_cons, List.length_nil]
    omega
  have htwo : (b.write b.cur (chars ['0', 'x']) >>= fun b => b.write (b.cur + 2) w.buf) =
      b.write b.cur (chars ('0' :: 'x' :: upperHex p.toNat) ++ [0]) := by
    rw [hbuf]
    exact FixedBuffer.write_write hfit
  have hcount : w.length + 2 = (chars ('0' :: 'x' :: upperHex p.toNat)).length := by
    rw [hlength, length_chars]
    rfl
  rw [hw]
  show ∃ b', (b.write b.cur _ >>= fun b => b.write (b.cur + 2) w.buf >>= fun b =>
    b.add (w.length + 2)) = .ok b' ∧ _
  rw [← bind_assoc, htwo, hcount]
  exact h.place hfit (by omega)

theorem formatDouble_ok (rt : Printf) (v : Float) :
    ∃ b', formatDouble b rt v = .ok b' ∧ b'.Holds
      (if kMaxNumericSize ≤ SIZE - content.length then content ++ (rt.g12 v).text
        else content) := by
  refine inPlace_ok h fun hroom => ?_
  have hlength := rt.length_g12 v
  have hmax : 32 ≤ SIZE - b.cur := hroom
  have htake : (rt.g12 v).text.take (kMaxNumericSize - 1) = (rt.g12 v).text :=
    List.take_of_length_le (Nat.le_of_lt_succ hlength)
  have hfit : b.cur + ((rt.g12 v).text ++ [0]).length ≤ SIZE := by
    rw [List.length_append, List.length_singleton]
    omega
  simp only [htake]
  exact h.place hfit (by omega)

/-- An insertion never writes behind the end, and leaves the piece whole or nothing of it. -/
theorem insert_ok (rt : Printf) (i : Insertion) :
    ∃ b', insert b rt i = .ok b' ∧ b'.Holds (hold SIZE rt content i) := by
  cases i with
  | short v =>
    rw [hold_inPlace rfl, piece, ← Int16.toInt_toInt32]
    exact formatInteger_ok h v.toInt32
  | unsignedShort v =>
    rw [hold_inPlace rfl, piece, ← UInt16.toNat_toUInt32]
    exact formatInteger_ok h v.toUInt32
  | int v | unsignedInt v | long v | unsignedLong v | longLong v | unsignedLongLong v =>
    rw [hold_inPlace rfl]
    exact formatInteger_ok h v
  | pointer p =>
    rw [hold_inPlace rfl]
    exact formatPointer_ok h p
  | float v =>
    rw [hold_inPlace rfl]
    exact formatDouble_ok h rt v.toFloat
  | double v =>
    rw [hold_inPlace rfl]
    exact formatDouble_ok h rt v
  | bool v | char v | cString v | string v | stringPiece v | append data =>
    rw [hold_copied rfl]
    exact h.append _

/-- The same for a sequence of insertions. -/
theorem insertAll_ok (rt : Printf) (is : List Insertion) :
    ∃ b', is.foldlM (insert · rt) b = .ok b' ∧ b'.Holds (is.foldl (hold SIZE rt) content) := by
  induction is generalizing b content with
  | nil => exact ⟨b, rfl, h⟩
  | cons i is ih =>
    obtain ⟨b₁, hstep, h₁⟩ := insert_ok h rt i
    obtain ⟨b', hrest, h'⟩ := ih h₁
    refine ⟨b', ?_, h'⟩
    rw [List.foldlM_cons, hstep]
    exact hrest

end Step

section Kept

variable (SIZE : ℕ) (rt : Printf)

/-- The insertions that a stream takes when it holds `len` bytes at first. -/
def kept : ℕ → List Insertion → List Insertion
  | _, [] => []
  | len, i :: is =>
    if takes SIZE rt len i then i :: kept (len + (piece rt i).length) is else kept len is

theorem kept_sublist (len : ℕ) (is : List Insertion) : (kept SIZE rt len is).Sublist is := by
  induction is generalizing len with
  | nil => exact List.Sublist.slnil
  | cons i is ih =>
    rw [kept]
    split
    · exact (ih _).cons_cons i
    · exact (ih _).cons i

theorem foldl_hold (content : List UInt8) (is : List Insertion) :
    is.foldl (hold SIZE rt) content =
      content ++ (kept SIZE rt content.length is).flatMap (piece rt) := by
  induction is generalizing content with
  | nil => exact (List.append_nil content).symm
  | cons i is ih =>
    rw [List.foldl_cons, ih, hold, kept]
    split
    · rw [List.length_append, List.flatMap_cons, List.append_assoc]
    · rfl

variable {SIZE rt}

theorem prefix_foldl_hold (content : List UInt8) (is : List Insertion) :
    content <+: is.foldl (hold SIZE rt) content := by
  rw [foldl_hold]
  exact List.prefix_append _ _

/-- A byte that is in no piece does not get into the stream. -/
theorem notMem_foldl_hold {x : UInt8} {content : List UInt8} {is : List Insertion}
    (hcontent : x ∉ content) (his : ∀ i ∈ is, x ∉ piece rt i) :
    x ∉ is.foldl (hold SIZE rt) content := by
  rw [foldl_hold, List.mem_append, List.mem_flatMap]
  rintro (hx | ⟨i, hi, hx⟩)
  · exact hcontent hx
  · exact his i ((kept_sublist SIZE rt _ is).subset hi) hx

/-- Texts are all there if there is room for all of them. -/
theorem foldl_hold_of_room {content : List UInt8} {is : List Insertion}
    (his : ∀ i ∈ is, inPlace i = false)
    (h : content.length + (is.flatMap (piece rt)).length < SIZE) :
    is.foldl (hold SIZE rt) content = content ++ is.flatMap (piece rt) := by
  induction is generalizing content with
  | nil => exact (List.append_nil content).symm
  | cons i is ih =>
    rw [List.forall_mem_cons] at his
    rw [List.flatMap_cons, List.length_append] at h
    have hstep : hold SIZE rt content i = content ++ piece rt i := by
      rw [hold_copied his.1, if_pos (by omega)]
    rw [List.foldl_cons, hstep, ih his.2 (by rw [List.length_append]; omega), List.flatMap_cons,
      List.append_assoc]

end Kept

/-- After any sequence of insertions into a new stream the buffer holds fewer bytes than it has,
nothing has been written behind its end, `debugString` writes nothing there either, and the bytes
are the pieces that were taken, whole and in order. -/
theorem insertions_in_bounds {SIZE : ℕ} (hSIZE : 0 < SIZE) (rt : Printf)
    (memory : Vector UInt8 SIZE) (is : List Insertion) :
    ∃ b, is.foldlM (insert · rt) (FixedBuffer.new memory) = .ok b ∧ b.length ≤ SIZE - 1 ∧
      (∃ b', b.debugString = .ok b') ∧ (kept SIZE rt 0 is).Sublist is ∧
      b.asString = (kept SIZE rt 0 is).flatMap (piece rt) := by
  obtain ⟨b, hrun, hholds⟩ := insertAll_ok (FixedBuffer.holds_new hSIZE memory) rt is
  refine ⟨b, hrun, Nat.le_sub_one_of_lt hholds.cur_lt, hholds.debugString,
    kept_sublist SIZE rt 0 is, ?_⟩
  rw [hholds.asString_eq, foldl_hold]
  rfl

/-- A stream of the source, with a text that does not fit between two that do. -/
theorem insertions_in_bounds_small :
    ∃ b : Buffer,
      [Insertion.int (-2147483648), .string (List.replicate 4000 0x61), .bool true].foldlM
        (insert · ⟨fun _ => ⟨[0x30], by decide⟩, fun _ => by decide⟩)
        (FixedBuffer.new (Vector.replicate kSmallBuffer 0)) = .ok b ∧
      b.length ≤ kSmallBuffer - 1 := by
  obtain ⟨b, hrun, hlength, -⟩ := insertions_in_bounds (by decide)
    ⟨fun _ => ⟨[0x30], by decide⟩, fun _ => by decide⟩ (Vector.replicate kSmallBuffer 0)
    [.int (-2147483648), .string (List.replicate 4000 0x61), .bool true]
  exact ⟨b, hrun, hlength⟩

end LogStream

end DbdkyGcc.Streams
