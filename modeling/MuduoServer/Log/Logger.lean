import MuduoServer.Log.Stream

/-!
# The lines of the log

`Logger` of `base/log/Logger.h` and `base/log/Logger.cc`.  A logger lives for one record.  Its
constructor puts the time and the level into its stream, the macros insert the user's items, and the
destructor adds the place in the source and a newline and hands the text to `g_output`.

The suffix goes through the same stream as everything else, so that each part of it is dropped if it
does not fit.  `restAfter` follows the number of bytes left over such an insertion, and
`destroy_terminated_iff` reads off it when the newline is still there.

What the system provides is a parameter: the time as text, `errno` and `strerror`.
-/

namespace MuduoServer

/-- `Logger::LogLevel`. -/
inductive LogLevel where
  | TRACE | DEBUG | INFO | WARN | ERROR | FATAL
  deriving DecidableEq

/-- A string literal of the source. -/
def literal (str : String) (h : 0 ∉ str.toList.map Char.toUInt8) : CString := ⟨_, h⟩

/-- `LogLevelName`. -/
def logLevelName : LogLevel → CString
  | .TRACE => literal "TRACE " (by decide)
  | .DEBUG => literal "DEBUG " (by decide)
  | .INFO => literal "INFO  " (by decide)
  | .WARN => literal "WARN  " (by decide)
  | .ERROR => literal "ERROR " (by decide)
  | .FATAL => literal "FATAL " (by decide)

/-- `SourceFile`: the part of the file's name behind the last slash. -/
structure SourceFile where
  data : CString

/-- Both constructors of `SourceFile`, with `strrchr(data_, '/')`. -/
def SourceFile.new (filename : CString) : SourceFile :=
  ⟨⟨filename.chars.rtakeWhile (· ≠ '/'.toUInt8), fun h =>
    filename.zero_notMem (filename.chars.rtakeWhile_suffix _ |>.subset h)⟩⟩

/-- What a logger takes from the system: the texts that `strftime` and `snprintf` write into arrays
of 26 and of 7 bytes, `errno` and `strerror`. -/
structure LogSystem where
  strTime : CString
  usec : CString
  strTime_fits : strTime.chars.length < 26
  usec_fits : usec.chars.length < 7
  errno : Int32
  strerror : Int32 → CString

/-- `Logger` with its `Impl`. -/
structure Logger where
  stream : LogStream
  level : LogLevel
  line : Int32
  basename : SourceFile

/-- The arguments of the four constructors of `Logger`. -/
inductive LoggerArgs where
  | info (file : SourceFile) (line : Int32)
  | level (file : SourceFile) (line : Int32) (level : LogLevel)
  | func (file : SourceFile) (line : Int32) (level : LogLevel) (func : Option CString)
  | abort (file : SourceFile) (line : Int32) (toAbort : Bool)

namespace Logger

/-- `'\n'`. -/
def newline : UInt8 := '\n'.toUInt8

/-- `formatTime()`. -/
def formatTime (sys : LogSystem) (s : LogStream) : Option LogStream := do
  let s ← s.insert (.cString sys.strTime)
  s.insert (.cString sys.usec)

/-- `Impl::Impl`, on a stream that has just been constructed. -/
def newImpl (sys : LogSystem) (s : LogStream) (level : LogLevel) (savedErrno : Int32)
    (file : SourceFile) (line : Int32) : Option Logger := do
  let s ← formatTime sys s
  let s ← s.insert (.cString (logLevelName level))
  let s ← if savedErrno ≠ 0 then
    s.insertAll [.cString (sys.strerror savedErrno), .cString (literal " (errno=" (by decide)),
      .int savedErrno, .cString (literal ") " (by decide))]
  else some s
  some ⟨s, level, line, file⟩

/-- The four constructors. -/
def new (sys : LogSystem) (s : LogStream) : LoggerArgs → Option Logger
  | .info file line => newImpl sys s .INFO 0 file line
  | .level file line level => newImpl sys s level 0 file line
  | .func file line level func => do
    let l ← newImpl sys s level 0 file line
    let s ← l.stream.insertAll [.cString func, .char ' '.toUInt8]
    some { l with stream := s }
  | .abort file line toAbort =>
    newImpl sys s (if toAbort then .FATAL else .ERROR) sys.errno file line

/-- The items inserted into `stream()`. -/
def insertAll (l : Logger) (items : List LogItem) : Option Logger :=
  (l.stream.insertAll items).map ({ l with stream := · })

/-- The literal in front of the place in the source. -/
def separator : CString := literal " - " (by decide)

/-- `finish()`. -/
def finish (l : Logger) : Option Logger :=
  l.insertAll [.cString separator, .cString l.basename.data, .char ':'.toUInt8, .int l.line,
    .char newline]

/-- `~Logger`: the record that is passed to `g_output`, and whether the program is aborted after
it. -/
def destroy (l : Logger) : Option (List UInt8 × Bool) := do
  let l ← l.finish
  some (l.stream.buffer.data.take l.stream.buffer.length, l.level == .FATAL)

/-- A logger from its construction up to its destruction. -/
def filled (sys : LogSystem) {data : List UInt8} (size : data.length = kSmallBuffer)
    (args : LoggerArgs) (items : List LogItem) : Option Logger := do
  let l ← new sys (.new data size) args
  l.insertAll items

end Logger

/-! ### What the constructors insert -/

/-- The items inserted by `Impl::Impl`. -/
def LogSystem.header (sys : LogSystem) (level : LogLevel) (savedErrno : Int32) : List LogItem :=
  [.cString sys.strTime, .cString sys.usec, .cString (logLevelName level)] ++
    if savedErrno ≠ 0 then
      [.cString (sys.strerror savedErrno), .cString (literal " (errno=" (by decide)),
        .int savedErrno, .cString (literal ") " (by decide))]
    else []

namespace LoggerArgs

/-- The items inserted by a constructor. -/
def items (sys : LogSystem) : LoggerArgs → List LogItem
  | .info _ _ => sys.header .INFO 0
  | .level _ _ l => sys.header l 0
  | .func _ _ l name => sys.header l 0 ++ [.cString name, .char ' '.toUInt8]
  | .abort _ _ toAbort => sys.header (if toAbort then .FATAL else .ERROR) sys.errno

/-- The logger that a constructor makes of the stream. -/
def logger : LoggerArgs → LogStream → Logger
  | .info file line, s => ⟨s, .INFO, line, file⟩
  | .level file line l, s => ⟨s, l, line, file⟩
  | .func file line l _, s => ⟨s, l, line, file⟩
  | .abort file line toAbort, s => ⟨s, if toAbort then .FATAL else .ERROR, line, file⟩

/-- The logger has the stream it has been made of. -/
lemma stream_logger (args : LoggerArgs) (s : LogStream) : (args.logger s).stream = s := by
  cases args <;> rfl

end LoggerArgs

namespace LogStream

/-- To insert items one list after the other. -/
lemma insertAll_append (s : LogStream) (items items' : List LogItem) :
    s.insertAll (items ++ items') = (s.insertAll items).bind (·.insertAll items') := by
  rw [insertAll, List.foldlM_append]
  rfl

end LogStream

namespace Logger

open LogStream

variable {sys : LogSystem} {data : List UInt8} {args : LoggerArgs} {l : Logger}
  {text : List UInt8} {item : LogItem} {len : ℕ}

/-- `Impl::Impl` inserts its header and stores the rest. -/
lemma newImpl_eq (s : LogStream) (level : LogLevel) (savedErrno : Int32) (file : SourceFile)
    (line : Int32) : newImpl sys s level savedErrno file line =
      (s.insertAll (sys.header level savedErrno)).map (⟨·, level, line, file⟩) := by
  rw [LogSystem.header, insertAll_append, newImpl, formatTime]
  cases h₁ : s.insert (.cString sys.strTime) with
  | none => simp [LogStream.insertAll, h₁]
  | some s₁ =>
    cases h₂ : s₁.insert (.cString sys.usec) with
    | none => simp [LogStream.insertAll, h₁, h₂]
    | some s₂ =>
      cases h₃ : s₂.insert (.cString (logLevelName level)) with
      | none => simp [LogStream.insertAll, h₁, h₂, h₃]
      | some s₃ =>
        have hthree : s.insertAll [.cString sys.strTime, .cString sys.usec,
            .cString (logLevelName level)] = some s₃ := by
          simp [LogStream.insertAll, h₁, h₂, h₃]
        rw [hthree]
        simp only [Option.bind_eq_bind, Option.bind_some, h₂, h₃]
        by_cases herrno : savedErrno ≠ 0
        · rw [if_pos herrno, if_pos herrno]
          cases s₃.insertAll _ <;> rfl
        · rw [if_neg herrno, if_neg herrno]
          rfl

/-- Every constructor inserts its items and stores the rest. -/
lemma new_eq (s : LogStream) :
    new sys s args = (s.insertAll (args.items sys)).map args.logger := by
  cases args with
  | info file line => exact newImpl_eq s .INFO 0 file line
  | level file line level => exact newImpl_eq s level 0 file line
  | func file line level func =>
    rw [new, newImpl_eq, LoggerArgs.items, insertAll_append]
    cases s.insertAll (sys.header level 0) with
    | none => rfl
    | some s₁ =>
      simp only [Option.map_some, Option.bind_eq_bind, Option.bind_some]
      cases s₁.insertAll _ <;> rfl
  | abort file line toAbort => exact newImpl_eq s _ sys.errno file line

/-- The stream of a logger follows the abstract model from its construction on. -/
lemma exists_filled (sys : LogSystem) (size : data.length = kSmallBuffer) (args : LoggerArgs)
    (items : List LogItem) : ∃ s : LogStream,
    filled sys size args items = some (args.logger s) ∧ s.Valid ∧
      s.contents = (args.items sys ++ items).foldl recordItem [] := by
  obtain ⟨s₁, hs₁, hvalid₁, hcontents₁⟩ := insertAll_refines (valid_new size) (args.items sys)
  obtain ⟨s₂, hs₂, hvalid₂, hcontents₂⟩ := insertAll_refines hvalid₁ items
  refine ⟨s₂, ?_, hvalid₂, ?_⟩
  · rw [filled, new_eq, hs₁]
    simp only [Option.map_some, Option.bind_eq_bind, Option.bind_some, Logger.insertAll,
      LoggerArgs.stream_logger, hs₂]
    cases args <;> rfl
  · rw [List.foldl_append, hcontents₂, hcontents₁]
    rfl

/-! ### What is left of the suffix -/

/-- The bytes left behind a text. -/
def room (text : List UInt8) : ℤ := kSmallBuffer - text.length

/-- The bytes left when a text of so many bytes is added, or dropped because it does not fit. -/
def restAfter (avail : ℤ) (len : ℕ) : ℤ := if len < avail then avail - len else avail

/-- Where a byte is left, one is left after another text. -/
lemma one_le_restAfter (len : ℕ) {avail : ℤ} (h : 1 ≤ avail) : 1 ≤ restAfter avail len := by
  unfold restAfter
  split <;> omega

/-- A text that fits is added. -/
lemma recordItem_of_lt (hitem : item.textLength = some len) (hfits : len < room text) :
    recordItem text item = text ++ item.written := by
  have h : item.Fits (room text) := by rwa [LogItem.Fits, hitem]
  exact if_pos h

/-- A text that does not fit is dropped. -/
lemma recordItem_of_not_lt (hitem : item.textLength = some len) (hfits : ¬ len < room text) :
    recordItem text item = text := by
  have h : ¬ item.Fits (room text) := by rwa [LogItem.Fits, hitem]
  exact if_neg h

/-- A text takes as much room as it is long. -/
lemma room_append (x : List UInt8) : room (text ++ x) = room text - x.length := by
  rw [room, room, List.length_append]
  omega

/-- The room after an item of text. -/
lemma room_recordItem (hitem : item.textLength = some len) (hlen : item.written.length = len) :
    room (recordItem text item) = restAfter (room text) len := by
  by_cases hfits : (len : ℤ) < room text
  · rw [recordItem_of_lt hitem hfits, room_append, hlen, restAfter, if_pos hfits]
  · rw [recordItem_of_not_lt hitem hfits, restAfter, if_neg hfits]

/-- The number of the line is dropped, or leaves room for the newline. -/
lemma room_line (line : Int32) (hroom : 2 ≤ room text) :
    2 ≤ room (recordItem text (.int line)) := by
  unfold recordItem
  split
  · next hfits =>
    have hitem : LogItem.integer (.int line) = some (intType, line.toInt) := rfl
    have hformatted := LogItem.formatted hitem
    have hlen := length_integerText_le hformatted.bits hformatted.inRange
    have hlarge : LogStream.kMaxNumericSize ≤ room text := hfits
    rw [room_append, LogItem.written_of_integer hitem]
    unfold kMaxNumericSize at hlarge
    omega
  · exact hroom

/-- Behind the name of the file, the newline needs three bytes. -/
lemma terminated_line_iff (line : Int32) (hroom : 1 ≤ room text) :
    ([.char ':'.toUInt8, .int line, .char newline].foldl recordItem text).getLast? = some newline ↔
      3 ≤ room text ∨ room text = 1 ∧ text.getLast? = some newline := by
  simp only [List.foldl_cons, List.foldl_nil]
  have hcolon : (LogItem.char ':'.toUInt8).textLength = some 1 := rfl
  have hnewline : (LogItem.char newline).textLength = some 1 := rfl
  have hline : ∀ text : List UInt8, room text = 1 → recordItem text (.int line) = text := by
    intro text h
    have hfits : ¬ (LogItem.int line).Fits (room text) := by
      rw [LogItem.fits_of_integer rfl, h]
      decide
    exact if_neg hfits
  by_cases hthree : 3 ≤ room text
  · have htwo : 2 ≤ room (recordItem text (.char ':'.toUInt8)) := by
      rw [room_recordItem hcolon rfl, restAfter, if_pos (by omega)]
      omega
    have hlast := room_line line htwo
    rw [recordItem_of_lt hnewline (by omega)]
    exact iff_of_true List.getLast?_concat (Or.inl hthree)
  · by_cases htwo : room text = 2
    · have hadded : recordItem text (.char ':'.toUInt8) = text ++ [':'.toUInt8] :=
        recordItem_of_lt hcolon (by omega)
      have hone : room (recordItem text (.char ':'.toUInt8)) = 1 := by
        rw [room_recordItem hcolon rfl, restAfter, if_pos (by omega), htwo]
        rfl
      rw [hline _ hone, recordItem_of_not_lt hnewline (by omega), hadded]
      refine iff_of_false ?_ (by omega)
      rw [List.getLast?_concat]
      decide
    · have hone : room text = 1 := by omega
      rw [recordItem_of_not_lt hcolon (by omega), hline _ hone,
        recordItem_of_not_lt hnewline (by omega)]
      simp [hone]

/-- If the name of the file takes all but one byte, the record ends with the name. -/
lemma terminated_basename_iff {basename : CString} :
    (3 ≤ room (recordItem text (.cString basename)) ∨
      room (recordItem text (.cString basename)) = 1 ∧
        (recordItem text (.cString basename)).getLast? = some newline) ↔
    (3 ≤ restAfter (room text) basename.chars.length ∨
      room text = 1 ∧ text.getLast? = some newline ∨
      room text = basename.chars.length + 1 ∧ basename.chars.getLast? = some newline) := by
  have hitem : (LogItem.cString basename).textLength = some basename.chars.length := rfl
  rw [room_recordItem hitem rfl]
  refine or_congr_right ?_
  by_cases hfits : (basename.chars.length : ℤ) < room text
  · have hadded : recordItem text (.cString basename) = text ++ basename.chars :=
      recordItem_of_lt hitem hfits
    rw [hadded, restAfter, if_pos hfits]
    by_cases hempty : basename.chars = []
    · simp [hempty]
    · have hpos := List.length_pos_of_ne_nil hempty
      rw [List.getLast?_append_of_ne_nil _ hempty]
      constructor
      · rintro ⟨hone, hlast⟩
        exact Or.inr ⟨by omega, hlast⟩
      · rintro (⟨hone, -⟩ | ⟨hone, hlast⟩)
        · omega
        · exact ⟨by omega, hlast⟩
  · rw [recordItem_of_not_lt hitem hfits, restAfter, if_neg hfits]
    constructor
    · exact Or.inl
    · rintro (h | ⟨hone, -⟩)
      · exact h
      · omega

/-- The separator does not end with a newline. -/
lemma terminated_separator_iff :
    (room (recordItem text (.cString separator)) = 1 ∧
      (recordItem text (.cString separator)).getLast? = some newline) ↔
    (room text = 1 ∧ text.getLast? = some newline) := by
  have hitem : (LogItem.cString separator).textLength = some 3 := rfl
  by_cases hfits : (3 : ℤ) < room text
  · have hadded : recordItem text (.cString separator) = text ++ separator.chars :=
      recordItem_of_lt hitem hfits
    rw [hadded, List.getLast?_append_of_ne_nil _ (by decide)]
    refine iff_of_false (fun h => ?_) (by omega)
    exact absurd h.2 (by decide)
  · rw [recordItem_of_not_lt hitem hfits]

/-- The state before the destructor from which the record becomes a line: behind the separator and
the name of the file, each dropped if it does not fit, three bytes are left; or nothing fits any
more and the text ends with a newline already; or the name of the file, which takes all but one
byte, ends with a newline. -/
def KeepsNewline (l : Logger) : Prop :=
  3 ≤ restAfter (restAfter l.stream.buffer.avail 3) l.basename.data.chars.length ∨
  l.stream.buffer.avail = 1 ∧ l.stream.contents.getLast? = some newline ∨
  restAfter l.stream.buffer.avail 3 = l.basename.data.chars.length + 1 ∧
    l.basename.data.chars.getLast? = some newline

/-- The record ends with a newline exactly from these states. -/
lemma destroy_terminated_iff (hvalid : l.stream.Valid) :
    (∃ record aborted, l.destroy = some (record, aborted) ∧ record.getLast? = some newline) ↔
      l.KeepsNewline := by
  have havail : l.stream.buffer.avail = room l.stream.contents := hvalid.avail
  have hroom : 1 ≤ room l.stream.contents := by
    rw [← havail]
    unfold Valid at hvalid
    unfold FixedBuffer.avail
    omega
  have hseparator : (LogItem.cString separator).textLength = some 3 := rfl
  have hname : (LogItem.cString l.basename.data).textLength =
      some l.basename.data.chars.length := rfl
  have hrest : room (recordItem l.stream.contents (.cString separator)) =
      restAfter (room l.stream.contents) 3 := room_recordItem hseparator rfl
  have hone := one_le_restAfter 3 hroom
  have hbehind : 1 ≤ room (recordItem (recordItem l.stream.contents (.cString separator))
      (.cString l.basename.data)) := by
    rw [room_recordItem hname rfl, hrest]
    exact one_le_restAfter _ hone
  obtain ⟨s, hs, -, hcontents⟩ := insertAll_refines hvalid
    [.cString separator, .cString l.basename.data, .char ':'.toUInt8, .int l.line, .char newline]
  have hdestroy : l.destroy = some (s.contents, l.level == .FATAL) := by
    rw [destroy, finish, Logger.insertAll, hs]
    rfl
  rw [List.foldl_cons, List.foldl_cons] at hcontents
  have hline := terminated_line_iff l.line hbehind
  rw [← hcontents, terminated_basename_iff, terminated_separator_iff, hrest, ← havail] at hline
  rw [KeepsNewline, ← hline, hdestroy]
  constructor
  · rintro ⟨record, aborted, hrecord, hlast⟩
    obtain ⟨rfl, -⟩ := Prod.mk.inj (Option.some.inj hrecord)
    exact hlast
  · intro hlast
    exact ⟨_, _, rfl, hlast⟩

/-- For a logger made by any constructor and any items inserted into its stream: the record that is
passed to `g_output` ends with a newline exactly if the destructor finds one of these states. -/
theorem record_terminated_iff (sys : LogSystem) (size : data.length = kSmallBuffer)
    (args : LoggerArgs) (items : List LogItem) :
    (∃ record aborted, (filled sys size args items).bind destroy = some (record, aborted) ∧
      record.getLast? = some newline) ↔
    ∃ l, filled sys size args items = some l ∧ l.KeepsNewline := by
  obtain ⟨s, hs, hvalid, -⟩ := exists_filled sys size args items
  rw [hs, Option.bind_some, destroy_terminated_iff (by rwa [LoggerArgs.stream_logger])]
  constructor
  · intro h
    exact ⟨_, rfl, h⟩
  · rintro ⟨l, hl, h⟩
    obtain rfl := Option.some.inj hl
    exact h

/-- Cleared memory of the size of the buffer. -/
lemma length_cleared : (List.replicate kSmallBuffer (0 : UInt8)).length = kSmallBuffer :=
  List.length_replicate

/-- A system at the first second of a year, without an error. -/
def newYear : LogSystem where
  strTime := literal "2026-01-01 00:00:00." (by decide)
  usec := literal "000000" (by decide)
  strTime_fits := by decide
  usec_fits := by decide
  errno := 0
  strerror := fun _ => literal "Success" (by decide)

/-- `LOG_INFO` in the first line of a file. -/
def logInfo : LoggerArgs := .info (.new (literal "src/main.cc" (by decide))) 1

/-- What the loggers of the two runs below find at their end. -/
lemma exists_logInfo (items : List LogItem) : ∃ s : LogStream,
    filled newYear length_cleared logInfo items =
      some ⟨s, .INFO, 1, .new (literal "src/main.cc" (by decide))⟩ ∧ s.Valid ∧
      s.contents = items.foldl recordItem
        ("2026-01-01 00:00:00.000000INFO  ".toList.map Char.toUInt8) := by
  obtain ⟨s, hs, hvalid, hcontents⟩ := exists_filled newYear length_cleared logInfo items
  refine ⟨s, hs, hvalid, ?_⟩
  have hheader : (logInfo.items newYear).foldl recordItem [] =
      "2026-01-01 00:00:00.000000INFO  ".toList.map Char.toUInt8 := by
    decide
  rw [hcontents, List.foldl_append, hheader]

/-- A record without items. -/
theorem record_terminated_iff_empty :
    ∃ record aborted, (filled newYear length_cleared logInfo []).bind destroy =
      some (record, aborted) ∧ record.getLast? = some newline := by
  obtain ⟨s, hs, hvalid, hcontents⟩ := exists_logInfo []
  refine (record_terminated_iff newYear length_cleared logInfo []).mpr ⟨_, hs, Or.inl ?_⟩
  dsimp only
  rw [hvalid.avail, hcontents]
  decide

/-- A string of 4063 bytes fits and leaves one byte, so that nothing of the suffix is added. -/
theorem record_not_terminated :
    ¬ ∃ record aborted, (filled newYear length_cleared logInfo
      [.string (List.replicate 4063 'a'.toUInt8)]).bind destroy = some (record, aborted) ∧
        record.getLast? = some newline := by
  obtain ⟨s, hs, hvalid, hcontents⟩ := exists_logInfo [.string (List.replicate 4063 'a'.toUInt8)]
  have hitem : (LogItem.string (List.replicate 4063 'a'.toUInt8)).textLength = some 4063 := by
    rw [LogItem.textLength, List.length_replicate]
  have hadded : s.contents = "2026-01-01 00:00:00.000000INFO  ".toList.map Char.toUInt8 ++
      List.replicate 4063 'a'.toUInt8 := by
    have hwritten : ∀ str, (LogItem.string str).written = str := fun _ => rfl
    rw [hcontents, List.foldl_cons, List.foldl_nil, recordItem_of_lt hitem (by decide), hwritten]
  have havail : s.buffer.avail = 1 := by
    rw [hvalid.avail, hadded, List.length_append, List.length_replicate]
    decide
  have hne : List.replicate 4063 'a'.toUInt8 ≠ [] := by
    rw [ne_eq, List.replicate_eq_nil_iff]
    decide
  rw [hs, Option.bind_some, destroy_terminated_iff hvalid, KeepsNewline]
  dsimp only
  rw [havail, hadded, List.getLast?_append_of_ne_nil _ hne, List.getLast?_replicate]
  decide

end Logger

end MuduoServer
