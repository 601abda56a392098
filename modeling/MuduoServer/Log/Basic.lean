import MuduoServer.Lib.MachineInt
import MuduoServer.Lib.Memory

/-!
# The log stream

`FixedBuffer` and `LogStream` of `base/log/LogStream.h` and `base/log/LogStream.cc`.  A
`FixedBuffer` is an array with a cursor, and nothing stops the code from writing past its end:
`append` asks for room first, but the numbers are written in place behind the cursor, digit by digit
in reverse order, and are then turned round.  Every write goes through `store`, which gives `none`
outside `data_`.

A `char` is a byte.  The digit loop divides as C++ does, towards zero, so that its remainders have
the sign of the number.
-/

namespace MuduoServer

open Memory

/-- `kSmallBuffer`. -/
def kSmallBuffer : ℕ := 4096

/-- `FixedBuffer<SIZE>`: the array `data_` and the place of `cur_` in it. -/
structure FixedBuffer (SIZE : ℕ) where
  data : List UInt8
  cur : ℕ
  size : data.length = SIZE

namespace FixedBuffer

variable {SIZE : ℕ}

/-- The constructor, which leaves `data_` as it finds it. -/
def new (data : List UInt8) (size : data.length = SIZE) : FixedBuffer SIZE := ⟨data, 0, size⟩

/-- `length()`. -/
def length (b : FixedBuffer SIZE) : ℕ := b.cur

/-- `avail()`, an `int` that would be negative behind the end. -/
def avail (b : FixedBuffer SIZE) : ℤ := SIZE - b.cur

/-- A write of bytes from a place on; `none` when it leaves `data_`. -/
def store (b : FixedBuffer SIZE) (i : ℕ) (bytes : List UInt8) : Option (FixedBuffer SIZE) :=
  if h : i + bytes.length ≤ SIZE then
    some ⟨overwrite b.data i bytes, b.cur, by rw [length_overwrite (by rwa [b.size]), b.size]⟩
  else none

/-- `std::reverse(first, last)`. -/
def reverse (b : FixedBuffer SIZE) (first last : ℕ) : Option (FixedBuffer SIZE) :=
  b.store first (slice b.data first last).reverse

/-- `add(len)`. -/
def add (b : FixedBuffer SIZE) (len : ℕ) : FixedBuffer SIZE := { b with cur := b.cur + len }

/-- `append(buf, len)`; `none` also when it would read past the memory at `buf`. -/
def append (b : FixedBuffer SIZE) (buf : List UInt8) (len : ℕ) : Option (FixedBuffer SIZE) :=
  if len < sizeOfInt b.avail then
    if len ≤ buf.length then (b.store b.cur (buf.take len)).map (·.add len) else none
  else some b

/-- The loop `do { *buf++ = digit(v % base); v /= base; } while (v > 0)`: the buffer and the place
behind the digits.  `fuel` bounds the number of rounds. -/
def digitsLoop (digit : ℤ → UInt8) (base : ℤ) :
    ℕ → FixedBuffer SIZE → ℕ → ℤ → Option (FixedBuffer SIZE × ℕ)
  | 0, _, _, _ => none
  | fuel + 1, b, buf, v => do
    let b' ← b.store buf [digit (v.tmod base)]
    if 0 < v.tdiv base then digitsLoop digit base fuel b' (buf + 1) (v.tdiv base)
    else some (b', buf + 1)

/-- `if (negative) *buf++ = '-';`. -/
def storeSign (v : ℤ) (r : FixedBuffer SIZE × ℕ) : Option (FixedBuffer SIZE × ℕ) :=
  if v < 0 then (r.1.store r.2 ['-'.toUInt8]).map (·, r.2 + 1) else some r

end FixedBuffer

/-- A C string: the bytes before the terminating zero. -/
structure CString where
  chars : List UInt8
  zero_notMem : 0 ∉ chars
  deriving DecidableEq

/-- What can be inserted into a `LogStream`, one constructor for each overload.  A `double` is given
by the text that `snprintf` makes of it, which is shorter than 32 bytes, and a `float` is inserted
as a `double`.  `append(data, len)` has to be given as many bytes as it asks for. -/
inductive LogItem where
  | bool (v : Bool)
  | short (v : Int16)
  | unsignedShort (v : UInt16)
  | int (v : Int32)
  | unsignedInt (v : UInt32)
  | long (v : Int64)
  | unsignedLong (v : UInt64)
  | longLong (v : Int64)
  | unsignedLongLong (v : UInt64)
  | pointer (p : UInt64)
  | double (text : CString) (fits : text.chars.length < 32)
  | char (v : UInt8)
  | cString (str : Option CString)
  | unsignedCString (str : Option CString)
  | string (str : List UInt8)
  | append (data : List UInt8) (len : Int32) (readable : len.toInt ≤ data.length)

/-- `int`. -/
def intType : IntType := ⟨32, true⟩

/-- `unsigned int`. -/
def unsignedIntType : IntType := ⟨32, false⟩

/-- `long`, and `long long` as well. -/
def longType : IntType := ⟨64, true⟩

/-- `unsigned long`, and `unsigned long long` as well. -/
def unsignedLongType : IntType := ⟨64, false⟩

/-- `LogStream`. -/
structure LogStream where
  buffer : FixedBuffer kSmallBuffer

namespace LogStream

/-- `kMaxNumericSize`. -/
def kMaxNumericSize : ℤ := 32

/-- `static_cast<char>(v % 10) + '0'`. -/
def decimalDigit (d : ℤ) : UInt8 := UInt8.ofInt (d + '0'.toNat)

/-- `"0123456789ABCDEF"[v % 16]`. -/
def hexDigit (d : ℤ) : UInt8 := ("0123456789ABCDEF".toList.getD d.toNat '0').toUInt8

/-- The constructor. -/
def new (data : List UInt8) (size : data.length = kSmallBuffer) : LogStream := ⟨.new data size⟩

/-- `buffer_.append(buf, len)`. -/
def appendBytes (s : LogStream) (buf : List UInt8) (len : ℕ) : Option LogStream :=
  (s.buffer.append buf len).map LogStream.mk

/-- `formatInteger(v)` for a value of the type `T`. -/
def formatInteger (s : LogStream) (T : IntType) (v : ℤ) : Option LogStream :=
  if kMaxNumericSize ≤ s.buffer.avail then do
    let start := s.buffer.cur
    let v' := if v < 0 then T.wrap (-v) else v
    let r ← s.buffer.digitsLoop decimalDigit 10 (v'.natAbs + 1) start v'
    let r' ← FixedBuffer.storeSign v r
    let b ← r'.1.store r'.2 [0]
    let b' ← b.reverse start r'.2
    some ⟨b'.add (r'.2 - start)⟩
  else some s

/-- `operator<<(const void* p)`. -/
def insertPointer (s : LogStream) (p : UInt64) : Option LogStream :=
  if kMaxNumericSize ≤ s.buffer.avail then do
    let buf := s.buffer.cur
    let b ← s.buffer.store buf ['0'.toUInt8]
    let b' ← b.store (buf + 1) ['x'.toUInt8]
    let start := buf + 2
    let r ← b'.digitsLoop hexDigit 16 (p.toNat + 1) start p.toNat
    let c ← r.1.store r.2 [0]
    let c' ← c.reverse start r.2
    some ⟨c'.add (r.2 - buf)⟩
  else some s

/-- `operator<<(double v)`. -/
def insertDouble (s : LogStream) (text : CString) : Option LogStream :=
  if kMaxNumericSize ≤ s.buffer.avail then do
    let b ← s.buffer.store s.buffer.cur (text.chars ++ [0])
    some ⟨b.add text.chars.length⟩
  else some s

/-- The text that stands for a null pointer. -/
def nullText : List UInt8 := "(null)".toList.map Char.toUInt8

/-- `operator<<(const char* str)`. -/
def insertCString (s : LogStream) : Option CString → Option LogStream
  | some str => s.appendBytes str.chars str.chars.length
  | none => s.appendBytes nullText 6

/-- `operator<<` for each type, and `append(data, len)`. -/
def insert (s : LogStream) : LogItem → Option LogStream
  | .bool v => s.appendBytes (if v then ['1'.toUInt8] else ['0'.toUInt8]) 1
  | .short v => s.formatInteger intType v.toInt
  | .unsignedShort v => s.formatInteger unsignedIntType v.toNat
  | .int v => s.formatInteger intType v.toInt
  | .unsignedInt v => s.formatInteger unsignedIntType v.toNat
  | .long v => s.formatInteger longType v.toInt
  | .unsignedLong v => s.formatInteger unsignedLongType v.toNat
  | .longLong v => s.formatInteger longType v.toInt
  | .unsignedLongLong v => s.formatInteger unsignedLongType v.toNat
  | .pointer p => s.insertPointer p
  | .double text _ => s.insertDouble text
  | .char v => s.appendBytes [v] 1
  | .cString str => s.insertCString str
  | .unsignedCString str => s.insertCString str
  | .string str => s.appendBytes str str.length
  | .append data len _ => s.appendBytes data (sizeOfInt len.toInt)

/-- Insert item after item. -/
def insertAll (s : LogStream) (items : List LogItem) : Option LogStream := items.foldlM insert s

end LogStream

end MuduoServer
