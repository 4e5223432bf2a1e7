import Opifex.Lib.Machine
import Opifex.Lib.Parts

/-!
# The lines of a child's output

What a child writes arrives in chunks that end anywhere. The supervisor puts each
behind what it has kept, takes out the lines that are complete and keeps the rest
for the next chunk; when the child is done, the rest is a line too.

**Where the chunks end makes no difference** (`lines_run`): the lines are a
function of all the bytes. Bytes are decoded as they come, a character with its
last byte, so the text of a chunk begins where the text of the one before it
ended.
-/

namespace Opifex

/-! ## Decoding -/

/-- A decoder that is set on a stream: what it makes of one byte more, and of the
end of the stream. -/
structure StreamDecoder where
  State : Type
  start : State
  step : State → UInt8 → State × List Char
  finish : State → List Char

namespace StreamDecoder

variable (decoder : StreamDecoder)

/-- The text of a chunk. -/
def write (state : decoder.State) : List UInt8 → decoder.State × List Char
  | [] => (state, [])
  | byte :: chunk =>
    let (state, text) := decoder.step state byte
    let (state, rest) := write state chunk
    (state, text ++ rest)

/-- The text of a whole stream. -/
def decode (stream : List UInt8) : List Char :=
  let (state, text) := decoder.write decoder.start stream
  text ++ decoder.finish state

/-- **Decoding does not see where a chunk ends.** -/
theorem write_append (state : decoder.State) (chunk chunk' : List UInt8) :
    decoder.write state (chunk ++ chunk')
      = ((decoder.write (decoder.write state chunk).1 chunk').1,
          (decoder.write state chunk).2
            ++ (decoder.write (decoder.write state chunk).1 chunk').2) := by
  induction chunk generalizing state with
  | nil => rfl
  | cons byte chunk ih =>
    simp only [List.cons_append, write, ih, List.append_assoc]

end StreamDecoder

/-- What a UTF-8 decoder has read of a character: how many of its bytes are still
to come, its number so far, and between which bounds the next byte lies. -/
structure Utf8Character where
  needed : ℕ := 0
  codePoint : ℕ := 0
  lower : UInt8 := 0x80
  upper : UInt8 := 0xBF
deriving DecidableEq

/-- The first byte of a character. One that begins none is replaced. -/
def Utf8Character.first (byte : UInt8) : Utf8Character × List Char :=
  if byte ≤ 0x7F then ({}, [Char.ofNat byte.toNat])
  else if 0xC2 ≤ byte ∧ byte ≤ 0xDF then
    ({ needed := 1, codePoint := byte.toNat - 0xC0 }, [])
  else if 0xE0 ≤ byte ∧ byte ≤ 0xEF then
    ({ needed := 2
       codePoint := byte.toNat - 0xE0
       lower := if byte = 0xE0 then 0xA0 else 0x80
       upper := if byte = 0xED then 0x9F else 0xBF }, [])
  else if 0xF0 ≤ byte ∧ byte ≤ 0xF4 then
    ({ needed := 3
       codePoint := byte.toNat - 0xF0
       lower := if byte = 0xF0 then 0x90 else 0x80
       upper := if byte = 0xF4 then 0x8F else 0xBF }, [])
  else ({}, ['\uFFFD'])

/-- One byte more. A byte that does not go on with the character begins the next,
and what was read is replaced. -/
def Utf8Character.next (character : Utf8Character) (byte : UInt8) :
    Utf8Character × List Char :=
  if character.needed = 0 then first byte
  else if character.lower ≤ byte ∧ byte ≤ character.upper then
    let codePoint := character.codePoint * 64 + (byte.toNat - 0x80)
    if character.needed = 1 then ({}, [Char.ofNat codePoint])
    else ({ needed := character.needed - 1, codePoint }, [])
  else
    let (character', text) := first byte
    (character', '\uFFFD' :: text)

/-- **`setEncoding('utf8')`**: characters with their last byte, and the replacement
character for what is none. -/
def StreamDecoder.utf8 : StreamDecoder where
  State := Utf8Character
  start := {}
  step := Utf8Character.next
  finish character := if character.needed = 0 then [] else ['\uFFFD']

/-! ## Framing -/

/-- `replace(/\r$/, '')`. -/
def stripReturn (line : List Char) : List Char :=
  if line.getLast? = some '\r' then line.dropLast else line

/-- What is kept of the output so far, and the lines that were handed on. The buffer
holds the text after the last newline. -/
structure StdoutLines where
  stdoutBuffer : List Char := []
  lines : List (List Char) := []
deriving DecidableEq

namespace StdoutLines

/-- The loop of `consumeStdout`: while there is a newline in the buffer, the line
before it is taken out. An empty one is not handed on. -/
def takeLines (process : StdoutLines) : StdoutLines :=
  match _ : process.stdoutBuffer.findIdx? (· == '\n') with
  | none => process
  | some newline =>
    let line := stripReturn (process.stdoutBuffer.take newline)
    takeLines
      { stdoutBuffer := process.stdoutBuffer.drop (newline + 1)
        lines :=
          if 0 < line.length then process.lines ++ [line] else process.lines }
termination_by process.stdoutBuffer.length
decreasing_by
  have hsome : process.stdoutBuffer.findIdx? (· == '\n') = some newline := ‹_›
  have hlt := (List.findIdx?_eq_some_iff_getElem.mp hsome).1
  show (process.stdoutBuffer.drop (newline + 1)).length < _
  rw [List.length_drop]
  omega

/-- **`consumeStdout`**. -/
def consumeStdout (process : StdoutLines) (chunk : List Char) : StdoutLines :=
  takeLines { process with stdoutBuffer := process.stdoutBuffer ++ chunk }

/-- **`flushPartialLine`**: what is left is a line too. -/
def flushPartialLine (process : StdoutLines) : StdoutLines :=
  let remainder := Text.trimChars process.stdoutBuffer
  { stdoutBuffer := []
    lines :=
      if 0 < remainder.length then process.lines ++ [remainder] else process.lines }

/-- A buffer is cut at its first newline. -/
theorem cut_at_newline {buffer : List Char} {newline : ℕ}
    (h : buffer.findIdx? (· == '\n') = some newline) :
    '\n' ∉ buffer.take newline
      ∧ buffer = buffer.take newline ++ '\n' :: buffer.drop (newline + 1) := by
  obtain ⟨hlt, hat, hbefore⟩ := List.findIdx?_eq_some_iff_getElem.mp h
  constructor
  · intro hmem
    obtain ⟨i, hi, heq⟩ := List.mem_take_iff_getElem.mp hmem
    have hi' : i < newline := by omega
    exact hbefore i hi' (beq_iff_eq.mpr heq)
  · rw [← beq_iff_eq.mp hat, List.getElem_cons_drop, List.take_append_drop]

/-- The lines that are handed on of those that are complete. -/
def handedOn (complete : List (List Char)) : List (List Char) :=
  (complete.map stripReturn).filter (0 < ·.length)

theorem handedOn_append (complete complete' : List (List Char)) :
    handedOn (complete ++ complete') = handedOn complete ++ handedOn complete' := by
  simp [handedOn]

/-- **The loop takes out the complete lines** and leaves the rest. -/
theorem takeLines_eq (process : StdoutLines) :
    process.takeLines
      = { stdoutBuffer := Parts.carry '\n' process.stdoutBuffer
          lines := process.lines
            ++ handedOn (Parts.ended '\n' process.stdoutBuffer) } := by
  -- along the loop, whose buffer gets shorter with each line
  fun_induction takeLines process with
  | case1 process hnone =>
    have hrest : '\n' ∉ process.stdoutBuffer := fun hmem => by
      simpa using List.findIdx?_eq_none_iff.mp hnone '\n' hmem
    rw [Parts.carry_of_notMem hrest, Parts.ended_of_notMem hrest]
    show process = { process with lines := process.lines ++ [] }
    rw [List.append_nil]
  | case2 process newline hsome line ih =>
    obtain ⟨hbefore, hcut⟩ := cut_at_newline hsome
    have hcarry := (congrArg (Parts.carry '\n') hcut).trans
      (Parts.carry_append_cons _ hbefore)
    have hended := (congrArg (Parts.ended '\n') hcut).trans
      (Parts.ended_append_cons _ hbefore)
    rw [hcarry, hended]
    by_cases hline : 0 < line.length
    · simp only [hline, dite_true, if_true] at ih ⊢
      rw [ih]
      simp [handedOn, hline, line]
    · simp only [hline, dite_false, if_false] at ih ⊢
      rw [ih]
      simp [handedOn, hline, line]

/-- What has become of a text that was all taken in. -/
def framed (text : List Char) : StdoutLines where
  stdoutBuffer := Parts.carry '\n' text
  lines := handedOn (Parts.ended '\n' text)

/-- **A chunk more is a text that goes on.** -/
theorem consumeStdout_framed (text chunk : List Char) :
    (framed text).consumeStdout chunk = framed (text ++ chunk) := by
  rw [consumeStdout, takeLines_eq]
  show (⟨_, handedOn (Parts.ended '\n' text) ++ handedOn _⟩ : StdoutLines)
    = ⟨Parts.carry '\n' (text ++ chunk),
        handedOn (Parts.ended '\n' (text ++ chunk))⟩
  rw [Parts.carry_append text, Parts.ended_append text, handedOn_append]
  rfl

end StdoutLines

/-! ## From the first chunk to the close -/

/-- A child's stdout as it is read: the decoder between two bytes, and the lines of what
it has decoded. -/
structure StdoutReading (decoder : StreamDecoder) where
  state : decoder.State := decoder.start
  process : StdoutLines := {}

namespace StdoutReading

variable {decoder : StreamDecoder}

/-- The `data` handler, on a chunk of the stream. -/
def onData (reading : StdoutReading decoder) (chunk : List UInt8) :
    StdoutReading decoder where
  state := (decoder.write reading.state chunk).1
  process := reading.process.consumeStdout (decoder.write reading.state chunk).2

/-- The `close` handler. The stream has ended, and what the decoder still had was
a chunk too. -/
def onClose (reading : StdoutReading decoder) : StdoutLines :=
  (reading.process.consumeStdout (decoder.finish reading.state)).flushPartialLine

variable (decoder) in
/-- The reading of a stream that is all taken in. -/
def taken (stream : List UInt8) : StdoutReading decoder where
  state := (decoder.write decoder.start stream).1
  process := .framed (decoder.write decoder.start stream).2

/-- **A chunk more is a stream that goes on.** -/
theorem onData_taken (stream chunk : List UInt8) :
    (taken decoder stream).onData chunk = taken decoder (stream ++ chunk) := by
  unfold taken onData
  rw [decoder.write_append, StdoutLines.consumeStdout_framed]

theorem run_taken (stream : List UInt8) (chunks : List (List UInt8)) :
    Machine.run onData (taken decoder stream) chunks
      = taken decoder (stream ++ chunks.flatten) := by
  induction chunks generalizing stream with
  | nil =>
    rw [List.flatten_nil, List.append_nil]
    rfl
  | cons chunk chunks ih =>
    rw [Machine.run_cons, onData_taken, ih, List.flatten_cons, List.append_assoc]

end StdoutReading

/-- The text of a line: what stands before its newline, without one return at its
end. -/
def lineText : List Char → List Char
  | [] => []
  | ['\r'] => []
  | char :: rest => char :: lineText rest

/-- **The lines of a text**: the text of each that a newline ends, and what comes
after the last newline, trimmed; of these, the ones that are not empty. -/
def linesOf (text : List Char) : List (List Char) :=
  ((Parts.ended '\n' text).map lineText
    ++ [Text.trimChars (Parts.carry '\n' text)]).filter (0 < ·.length)

/-- The expression takes a return off the end, and nothing else. -/
theorem stripReturn_eq (line : List Char) : stripReturn line = lineText line := by
  induction line with
  | nil => rfl
  | cons char rest ih =>
    cases rest with
    | nil =>
      unfold stripReturn lineText
      by_cases hreturn : char = '\r'
      · simp [hreturn]
      · simp [hreturn, lineText]
    | cons next rest =>
      have hlast : (char :: next :: rest).getLast? = (next :: rest).getLast? := rfl
      have htext : lineText (char :: next :: rest) = char :: lineText (next :: rest) := by
        simp [lineText]
      rw [htext, ← ih]
      unfold stripReturn
      rw [hlast]
      by_cases hreturn : (next :: rest).getLast? = some '\r'
      · rw [if_pos hreturn, if_pos hreturn]
        rfl
      · rw [if_neg hreturn, if_neg hreturn]

/-- The lines `onLine` is given of the chunks of a stream. -/
def deliveredLines (decoder : StreamDecoder) (chunks : List (List UInt8)) :
    List (List Char) :=
  (Machine.run StdoutReading.onData ({} : StdoutReading decoder) chunks).onClose.lines

/-- What the close leaves of a text is its lines. -/
theorem flushPartialLine_framed (text : List Char) :
    (StdoutLines.framed text).flushPartialLine.lines = linesOf text := by
  have hlines : StdoutLines.handedOn (Parts.ended '\n' text)
      = ((Parts.ended '\n' text).map lineText).filter (0 < ·.length) := by
    unfold StdoutLines.handedOn
    rw [List.map_congr_left fun line _ => stripReturn_eq line]
  unfold linesOf StdoutLines.flushPartialLine
  rw [List.filter_append, ← hlines]
  dsimp only [StdoutLines.framed]
  by_cases hrest : 0 < (Text.trimChars (Parts.carry '\n' text)).length
  · rw [if_pos hrest, List.filter_cons_of_pos (by simpa using hrest)]
    rfl
  · rw [if_neg hrest, List.filter_cons_of_neg (by simpa using hrest), List.filter_nil,
      List.append_nil]

/-- **The lines are a function of the stream**, wherever its chunks end. -/
theorem lines_run (decoder : StreamDecoder) (chunks : List (List UInt8)) :
    deliveredLines decoder chunks = linesOf (decoder.decode chunks.flatten) := by
  have hstart : ({} : StdoutReading decoder) = StdoutReading.taken decoder [] := rfl
  unfold deliveredLines
  rw [hstart, StdoutReading.run_taken, List.nil_append]
  show (StdoutLines.consumeStdout (.framed _) _).flushPartialLine.lines = _
  rw [StdoutLines.consumeStdout_framed, flushPartialLine_framed]
  rfl

/-- A two-byte character that two chunks share, and a return and its newline that
two others do. -/
theorem lines_run_accent :
    deliveredLines .utf8 [[0x61, 0xC3], [0xA9, 0x0D], [0x0A, 0x62]]
      = linesOf ['a', 'é', '\r', '\n', 'b'] := by
  have htext : StreamDecoder.utf8.decode [0x61, 0xC3, 0xA9, 0x0D, 0x0A, 0x62]
      = ['a', 'é', '\r', '\n', 'b'] := by decide
  exact (lines_run .utf8 [[0x61, 0xC3], [0xA9, 0x0D], [0x0A, 0x62]]).trans
    (congrArg linesOf htext)

end Opifex
