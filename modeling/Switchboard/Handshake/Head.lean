import Switchboard.Channel.Source
import Switchboard.Fault
import Switchboard.Text.Blank
import Switchboard.Text.Quoted
import Switchboard.Text.Utf8

/-!
# Reading the head of a message

The head of a message is its first line, its header lines, and an empty line. It is read byte by
byte, so that what comes of it does not depend on how the bytes arrive, and no byte after the empty
line is touched. `HeadReader.step` takes one byte; `readHead` feeds a reader from a source.
-/

namespace Switchboard

/-- The most bytes of a line, with its line feed. -/
def maxLine : Nat := 8192

def maxHeaders : Nat := 64

abbrev Headers := List (String × String)

/-- The value of the first header of a name, without regard to the case of ASCII letters. -/
def Headers.find? (headers : Headers) (name : String) : Option String :=
  (headers.findSome? fun (key, value) => if Text.sameLetters key name then some value else none)

/-- A reader inside a head: what the first line said, once it is there, the headers read so far,
last first, and the bytes of the line it is in. -/
structure HeadReader (α : Type) where
  first : Option α := none
  headers : Headers := []
  line : ByteArray := ByteArray.empty

inductive HeadProgress (α : Type) where
  | more (reader : HeadReader α)
  | done (first : α) (headers : Headers)
  | failed (fault : Fault)

def lineText (line : ByteArray) : Except Fault (List Char) :=
  match Utf8.decode line with
  | .ok text => .ok text.toList
  | .error flaw => .error (.transport ⟨.invalidData, flaw.message⟩)

def isLineEnd (c : Char) : Bool :=
  c = '\r' || c = '\n'

/-- A line is too long, or the bytes end inside it. -/
def lineTooLong : Fault :=
  .upgrade s!"handshake line exceeds {maxLine} bytes"

/-- The text of a line of which no more bytes can be read. -/
def closeLine (line : ByteArray) : Except Fault String := do
  let text ← lineText line
  if text.getLast? = some '\n' then pure (String.ofList (Text.dropWhileEnd isLineEnd text))
  else .error lineTooLong

def parseHeader (line : String) : Except Fault (String × String) :=
  match Text.fields ':' line.toList with
  | some (name, value) =>
    .ok (String.ofList (Text.trim name), String.ofList (Text.trim value))
  | none => .error (.upgrade s!"malformed header line: {Text.quoted line}")

namespace HeadReader

variable {α : Type}

/-- Take a whole line; `parse` reads the first one. -/
def takeLine (parse : String → Except Fault α) (reader : HeadReader α) (line : String) :
    HeadProgress α :=
  match reader.first with
  | none =>
    match parse line with
    | .ok first => .more ⟨some first, [], ByteArray.empty⟩
    | .error fault => .failed fault
  | some first =>
    if line.isEmpty then .done first reader.headers.reverse
    else if maxHeaders ≤ reader.headers.length then
      .failed (.upgrade s!"more than {maxHeaders} header lines")
    else
      match parseHeader line with
      | .ok header => .more ⟨some first, header :: reader.headers, ByteArray.empty⟩
      | .error fault => .failed fault

/-- Take one byte. A line ends with a line feed, and is at fault once it is as long as a line may
be without one. -/
def step (parse : String → Except Fault α) (reader : HeadReader α) (b : UInt8) :
    HeadProgress α :=
  let line := reader.line.push b
  if b = 0x0A || maxLine ≤ line.size then
    match closeLine line with
    | .ok text => reader.takeLine parse text
    | .error fault => .failed fault
  else .more { reader with line := line }

def atEnd (reader : HeadReader α) : Fault :=
  if reader.line.size = 0 then .upgrade "connection closed during handshake"
  else
    match closeLine reader.line with
    | .ok _ => lineTooLong
    | .error fault => fault

/-- Feed bytes from `pos` on; what comes of it, and the place of the first byte not taken. -/
def feed (parse : String → Except Fault α) (data : ByteArray) (pos : Nat)
    (reader : HeadReader α) : HeadProgress α × Nat :=
  if h : pos < data.size then
    match reader.step parse data[pos] with
    | .more reader => feed parse data (pos + 1) reader
    | result => (result, pos + 1)
  else (.more reader, pos)
termination_by data.size - pos

end HeadReader

inductive HeadResult (α : Type) where
  | done (first : α) (headers : Headers)
  | failed (fault : Fault)
  /-- It does not end: the channel is silent. -/
  | waiting

def leftOver (data : ByteArray) (pos : Nat) : List Arrival :=
  if pos < data.size then [.bytes (data.extract pos data.size)] else []

/-- Read a head from a source (`read_line`, `read_headers`). A read that was interrupted is tried
again. -/
def readHeadFrom (parse : String → Except Fault α) (silent : Bool) :
    List Arrival → HeadReader α → HeadResult α × Source
  | [], reader => (if silent then .waiting else .failed reader.atEnd, ⟨[], silent⟩)
  | .fault .interrupted :: later, reader => readHeadFrom parse silent later reader
  | .fault kind :: later, _ => (.failed (.transport (.bare kind)), ⟨later, silent⟩)
  | .bytes data :: later, reader =>
    match reader.feed parse data 0 with
    | (.more reader, _) => readHeadFrom parse silent later reader
    | (.done first headers, pos) => (.done first headers, ⟨leftOver data pos ++ later, silent⟩)
    | (.failed fault, pos) => (.failed fault, ⟨leftOver data pos ++ later, silent⟩)

def readHead (parse : String → Except Fault α) (source : Source) : HeadResult α × Source :=
  readHeadFrom parse source.silent source.arrivals {}

end Switchboard
