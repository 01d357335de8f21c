import TypedTriples.Command.Files
import TypedTriples.Triple

/-!
# Streams of records

A stream of octets is cut into lines at the line feeds; a carriage return
before a line feed belongs to the line end. Every line holds one record in
JSON, except those that hold only white space. Reading stops at the first line
that is not UTF-8 or holds no record.
-/

namespace TypedTriples.Records

/-- Why a stream is not a stream of records. -/
inductive Fault where
  /-- A line, counted from one, that holds no record. -/
  | invalidRecord (number : Nat)
  /-- The stream cannot be read. -/
  | unreadable (fault : FileFault)
  deriving DecidableEq, Repr

/-- The message of a fault. -/
def Fault.message : Fault → Text
  | invalidRecord number => "invalid triple record on line ".toList ++ Text.ofNat number
  | unreadable fault => fault.message

/-- The octet of the line feed. -/
def lineFeed : UInt8 := 10

/-- The octet of the carriage return. -/
def carriageReturn : UInt8 := 13

/-- The line without the carriage return that it may end with. -/
def dropReturn (line : Octets) : Octets :=
  if line.getLast? = some carriageReturn then line.dropLast else line

/-- The lines of a stream, without their ends. Nothing after the last line feed
    is no line; a last line without a line feed keeps its carriage return. -/
def lines (stream : Octets) : List Octets :=
  match (stream.splitOn lineFeed).reverse with
  | [] => []
  | last :: ended =>
    (ended.map dropReturn).reverse ++ (if last.isEmpty then [] else [last])

/-- The record of a line, none for a blank one. -/
def ofLine (number : Nat) (line : Octets) : Except Fault (Option Triple) :=
  match Text.ofUtf8? line with
  | none => .error (.unreadable .notText)
  | some text =>
    if text.isBlank then .ok none
    else
      match Triple.read? text with
      | some record => .ok (some record)
      | none => .error (.invalidRecord number)

/-- The records of lines, the first of which has the given number. -/
def ofLines : Nat → List Octets → Except Fault (List Triple)
  | _, [] => .ok []
  | number, line :: rest =>
    match ofLine number line with
    | .error fault => .error fault
    | .ok record =>
      match ofLines (number + 1) rest with
      | .error fault => .error fault
      | .ok records => .ok (record.toList ++ records)

/-- The records of a stream. -/
def read (stream : Octets) : Except Fault (List Triple) := ofLines 1 (lines stream)

end TypedTriples.Records
