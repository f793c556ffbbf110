import JuttaProto.Buffer
import JuttaProto.HexString
import JuttaProto.Lines

namespace JuttaProto
open Lines Run
set_option autoImplicit true

structure CsvColumn where
  column_name : CString
  column_content : CString
  deriving DecidableEq, Repr

/-- The exceptions of the CSV reader with what they tell, and what would be wrong otherwise: a
failed assertion, an access outside of the buffer, to wait for a thread that has ended, or a loop
that does not end. -/
inductive CsvFault
  | can_not_open_file (file_name : CString) (errno_value : Int)
  | line_length_limit_exceeded (file_name : CString) (file_line : UInt32)
  | too_few_columns (file_name : CString) (file_line : UInt32)
  | too_many_columns (file_name : CString) (file_line : UInt32)
  | no_digit (file_name : CString) (file_line : UInt32) (column : CsvColumn)
  | integer_overflow (file_name : CString) (file_line : UInt32) (column : CsvColumn)
  | assertion
  | outOfBuffer
  | blocked
  | unfinished
  deriving DecidableEq, Repr

def max_file_name_length : Nat := 255

def block_len : Nat := 1 <<< 20

def NEWLINE : UInt8 := 0x0A

def CARRIAGE_RETURN : UInt8 := 0x0D

def BYTE_ORDER_MARK : Bytes := [0xEF, 0xBB, 0xBF]

/-- The reader that a worker thread serves. The worker has not ended as long as it is `working`. A
count of -1 is absent. -/
structure AsynchronousReader where
  byte_source : Bytes
  desired_byte_count : Option Nat
  read_byte_count : Option Nat
  working : Bool
  deriving DecidableEq, Repr

/-- The reader of the lines of a file, for blocks of `n` bytes. It is valid for long files only. -/
structure LineReader (n : Nat) where
  buffer : Buffer UInt8 (3 * n)
  reader : Option AsynchronousReader
  data_begin : Nat
  data_end : Nat
  file_name : CString
  file_line : UInt32
  deriving DecidableEq, Repr

def inside : Option α → Except CsvFault α
  | some a => .ok a
  | none => .error .outOfBuffer

@[simp] theorem inside_some (a : α) : inside (some a) = .ok a := rfl

def AsynchronousReader.start_read (count : Nat) (reader : AsynchronousReader) :
    AsynchronousReader :=
  { reader with desired_byte_count := some count, read_byte_count := none }

/-- What becomes of the worker when it reads: it ends if the file has no bytes left. -/
def AsynchronousReader.read (count : Nat) (reader : AsynchronousReader) : AsynchronousReader where
  byte_source := reader.byte_source.drop count
  desired_byte_count := none
  read_byte_count := some (reader.byte_source.take count).length
  working := (reader.byte_source.take count).length != 0

def LineReader.work (r : LineReader n) : Except CsvFault (LineReader n) :=
  match r.reader with
  | none => .ok r
  | some reader =>
    match reader.desired_byte_count with
    | none => .ok r
    | some count =>
      if reader.working then do
        let buffer ← inside (r.buffer.store (2 * n) (reader.byte_source.take count))
        return { r with buffer, reader := some (reader.read count) }
      else .ok r

def LineReader.finish_read (r : LineReader n) : Except CsvFault (LineReader n × Nat) := do
  let r ← r.work
  match r.reader.bind (·.read_byte_count) with
  | some count => return (r, count)
  | none => .error .blocked

def marked (buffer : Buffer UInt8 size) (data_end : Nat) : Except CsvFault Bool :=
  if 3 ≤ data_end then (· == BYTE_ORDER_MARK) <$> inside (buffer.load 0 3) else .ok false

/-- `init`, with the content of the file and the content of the memory that the buffer takes. -/
def LineReader.init (file_name : CString) (memory : Buffer UInt8 (3 * n)) (byte_source : Bytes) :
    Except CsvFault (LineReader n) := do
  let data := byte_source.take (2 * n)
  let buffer ← inside (memory.store 0 data)
  let data_end := data.length
  let skip ← marked buffer data_end
  let reader : AsynchronousReader := {
    byte_source := byte_source.drop (2 * n)
    desired_byte_count := none
    read_byte_count := none
    working := true }
  return {
    buffer
    reader := if data_end = 2 * n then some (reader.start_read n) else none
    data_begin := if skip then 3 else 0
    data_end
    file_name := file_name.take max_file_name_length
    file_line := 0 }

/-- Drops the first block once it has been read, and takes over the block of the worker. -/
def LineReader.shift (r : LineReader n) : Except CsvFault (LineReader n) := do
  let block ← inside (r.buffer.load n n)
  let buffer ← inside (r.buffer.store 0 block)
  let r := { r with buffer, data_begin := r.data_begin - n, data_end := r.data_end - n }
  if r.reader.isSome then do
    let (r, count) ← r.finish_read
    let block ← inside (r.buffer.load (2 * n) n)
    let buffer ← inside (r.buffer.store n block)
    return { r with
      buffer, data_end := r.data_end + count, reader := r.reader.map (·.start_read n) }
  else return r

/-- Puts a NUL at the end of a line, and over a carriage return before it. -/
def end_line (buffer : Buffer UInt8 size) (data_begin line_end : Nat) :
    Except CsvFault (Buffer UInt8 size) := do
  let buffer ← inside (buffer.store line_end [0])
  let returns ←
    if line_end ≠ data_begin then
      (· == [CARRIAGE_RETURN]) <$> inside (buffer.load (line_end - 1) 1)
    else .ok false
  if returns then inside (buffer.store (line_end - 1) [0]) else .ok buffer

/-- The part of `next_line` that finds the line and ends it. The result is the C string at the
beginning of the line. The last line of a file may have no newline. -/
def LineReader.cut_line (r : LineReader n) : Except CsvFault (CString × LineReader n) := do
  let line_end ←
    inside (r.buffer.scan (· ≠ NEWLINE) (r.data_end - r.data_begin) r.data_begin)
  if n < line_end - r.data_begin + 1 then
    .error (.line_length_limit_exceeded r.file_name r.file_line)
  else do
    let terminated ←
      if line_end ≠ r.data_end then (· == [NEWLINE]) <$> inside (r.buffer.load line_end 1)
      else .ok false
    let buffer ← end_line r.buffer r.data_begin line_end
    return (buffer.runOf (· ≠ 0) r.data_begin, { r with
      buffer
      data_begin := line_end + 1
      data_end := if terminated then r.data_end else r.data_end + 1 })

def LineReader.next_line (r : LineReader n) : Except CsvFault (Option CString × LineReader n) :=
  if r.data_begin = r.data_end then .ok (none, r)
  else if r.data_begin < r.data_end ∧ r.data_end ≤ n * 2 then do
    let r := { r with file_line := r.file_line + 1 }
    let r ← if n ≤ r.data_begin then r.shift else .ok r
    let (line, r) ← r.cut_line
    return (some line, r)
  else .error .assertion

end JuttaProto
