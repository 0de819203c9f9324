import Switchboard.Bytes.Cursor
import Switchboard.Decimal.Shortest
import Switchboard.MessagePack.Marker
import Switchboard.Mismatch
import Switchboard.Text.Utf8

/-!
# Reading MessagePack

A value is read marker first. `number` reads what must be a number and refuses any other marker
at once; `head` reads the start of any value: the whole of it where it has no parts, and the count
of its parts where it has some. `skip` passes over one value of any shape. Nesting is limited:
a list, a map or an extension value takes one of the levels that are left, and none may be entered
when none is.
-/

namespace Switchboard.MessagePack

inductive Flaw where
  /-- The value is not of a kind that can be read here. -/
  | wrongMarker (marker : Marker)
  /-- The bytes end where a value should start. -/
  | noMarker
  /-- The bytes end inside a number or a length. -/
  | cutNumber
  /-- The bytes end inside a text or a byte string. -/
  | cutBody
  | notText (flaw : Utf8.Flaw)
  | tooDeep
  /-- A list has more elements than the `read` ones that were asked for. -/
  | surplus (read : Nat)
  | mismatch (what : Mismatch)
  deriving DecidableEq, Repr, Inhabited

def Flaw.message : Flaw → String
  | wrongMarker marker => s!"wrong msgpack marker {marker.name}"
  | noMarker => "IO error while reading marker: failed to fill whole buffer"
  | cutNumber => "IO error while reading data: failed to fill whole buffer"
  | cutBody => "IO error while reading data: unexpected end of file"
  | notText flaw => s!"string found to be invalid utf8: {flaw.message}"
  | tooDeep => "depth limit exceeded"
  | surplus read => s!"array had incorrect length, expected {read}"
  | mismatch what => what.message

/-- A reader of one thing, which leaves the cursor after it. -/
def Reader (α : Type) : Type := Cursor → Except Flaw (α × Cursor)

@[always_inline]
instance : Monad Reader where
  pure a := fun c => .ok (a, c)
  bind r f := fun c =>
    match r c with
    | .error flaw => .error flaw
    | .ok (a, c) => f a c

def fail (flaw : Flaw) : Reader α := fun _ => .error flaw

def wrongKind (found : Found) (wanted : String) : Reader α :=
  fail (.mismatch (.wrongKind found wanted))

def marker : Reader Marker := fun c =>
  match c.next? with
  | none => .error .noMarker
  | some (b, c) => .ok (.ofByte b, c)

/-- The number that `width` bytes write, most significant first, on top of what was read. -/
def unsignedFrom (value : Nat) : Nat → Reader Nat
  | 0 => pure value
  | width + 1 => fun c =>
    match c.next? with
    | none => .error .cutNumber
    | some (b, c) => unsignedFrom (value * 256 + b.toNat) width c

def unsigned (width : Nat) : Reader Nat :=
  unsignedFrom 0 width

def signed (width : Nat) : Reader Int := do
  let n ← unsigned width
  pure (if n < 256 ^ width / 2 then n else n - 256 ^ width)

def body (n : Nat) : Reader ByteArray := fun c =>
  match c.take? n with
  | none => .error .cutBody
  | some (data, c) => .ok (data, c)

/-- The start of a value. -/
inductive Head where
  | null
  | boolean (value : Bool)
  /-- A number that is written without a sign. -/
  | unsigned (value : Nat)
  /-- A number that is written with a sign bit. -/
  | signed (value : Int)
  | float (value : Binary)
  | text (data : ByteArray)
  | bytes (data : ByteArray)
  /-- A list of so many values, which follow. -/
  | list (count : Nat)
  /-- A map of so many keys and values, which follow in turn. -/
  | map (count : Nat)
  /-- A value of an open type: a type byte and so many bytes, which follow. -/
  | extension (count : Nat)
  deriving DecidableEq, Inhabited

/-- The head of a value that has neither a length nor parts. -/
def scalar? : Marker → Option (Reader Head)
  | .fixPos n => some (pure (.unsigned n.toNat))
  | .fixNeg n => some (pure (.signed (n.toNat - 256)))
  | .null => some (pure .null)
  | .true => some (pure (.boolean true))
  | .false => some (pure (.boolean false))
  | .u8 => some (.unsigned <$> unsigned 1)
  | .u16 => some (.unsigned <$> unsigned 2)
  | .u32 => some (.unsigned <$> unsigned 4)
  | .u64 => some (.unsigned <$> unsigned 8)
  | .i8 => some (.signed <$> signed 1)
  | .i16 => some (.signed <$> signed 2)
  | .i32 => some (.signed <$> signed 4)
  | .i64 => some (.signed <$> signed 8)
  | .f32 => some ((fun n => .float (.ofBits32 n)) <$> unsigned 4)
  | .f64 => some ((fun n => .float (.ofBits64 n)) <$> unsigned 8)
  | _ => none

def textOf (n : Nat) : Reader Head :=
  .text <$> body n

def bytesOf (n : Nat) : Reader Head :=
  .bytes <$> body n

/-- The head of a value with a length: a text, bytes, a list, a map or an extension value. -/
def sized : Marker → Reader Head
  | .fixStr n => textOf n.toNat
  | .str8 => unsigned 1 >>= textOf
  | .str16 => unsigned 2 >>= textOf
  | .str32 => unsigned 4 >>= textOf
  | .bin8 => unsigned 1 >>= bytesOf
  | .bin16 => unsigned 2 >>= bytesOf
  | .bin32 => unsigned 4 >>= bytesOf
  | .fixArray n => pure (.list n.toNat)
  | .array16 => .list <$> unsigned 2
  | .array32 => .list <$> unsigned 4
  | .fixMap n => pure (.map n.toNat)
  | .map16 => .map <$> unsigned 2
  | .map32 => .map <$> unsigned 4
  | .fixExt1 => pure (.extension 1)
  | .fixExt2 => pure (.extension 2)
  | .fixExt4 => pure (.extension 4)
  | .fixExt8 => pure (.extension 8)
  | .fixExt16 => pure (.extension 16)
  | .ext8 => .extension <$> unsigned 1
  | .ext16 => .extension <$> unsigned 2
  | .ext32 => .extension <$> unsigned 4
  | other => fail (.wrongMarker other)

def headOf (m : Marker) : Reader Head :=
  (scalar? m).getD (sized m)

def head : Reader Head :=
  marker >>= headOf

/-- The head of a value that must have neither a length nor parts. -/
def scalar : Reader Head := do
  let m ← marker
  (scalar? m).getD (fail (.wrongMarker m))

/-- How many levels of lists, maps and extension values may be entered. -/
def maxDepth : Nat := 1023

/-- Enter one of the levels that are left. -/
def within (depth : Nat) (inner : Nat → Reader α) : Reader α :=
  match depth with
  | 0 => fail .tooDeep
  | depth + 1 => inner depth

/-- What is wrong with a head where a value of another kind was wanted. Texts are read first, and
the parts of a value are entered first. -/
def unwanted (wanted : String) (depth : Nat) : Head → Reader α
  | .null => wrongKind (.nothing "unit value") wanted
  | .boolean b => wrongKind (.boolean b) wanted
  | .unsigned n => wrongKind (.integer n) wanted
  | .signed n => wrongKind (.integer n) wanted
  | .float x => wrongKind (.float x.positional) wanted
  | .text data =>
    match Utf8.decode data with
    | .ok s => wrongKind (.text s) wanted
    | .error flaw => fail (.notText flaw)
  | .bytes _ => wrongKind .bytes wanted
  | .list _ => within depth fun _ => wrongKind .sequence wanted
  | .map _ => within depth fun _ => wrongKind .map wanted
  | .extension _ => within depth fun _ => wrongKind .extension wanted

/-- Read `n` things of which nothing is kept. -/
def passOver (r : Reader Unit) : Nat → Reader Unit
  | 0 => pure ()
  | n + 1 => do
    r
    passOver r n

/-- Pass over what follows a head when so many levels are left. -/
def skipRest : Nat → Head → Reader Unit
  | depth + 1, .list n => passOver (head >>= skipRest depth) n
  | depth + 1, .map n => passOver (head >>= skipRest depth) (2 * n)
  | _ + 1, .extension n => do
    let _ ← unsigned 1
    let _ ← body n
  | 0, .list _ | 0, .map _ | 0, .extension _ => fail .tooDeep
  | _, _ => pure ()

def skip (depth : Nat) : Reader Unit :=
  head >>= skipRest depth

/-- The text of a head; bytes are text if they read as such. -/
def textOfHead (depth : Nat) : Head → Reader String
  | .text data =>
    match Utf8.decode data with
    | .ok s => pure s
    | .error flaw => fail (.notText flaw)
  | .bytes data =>
    match Utf8.decode data with
    | .ok s => pure s
    | .error _ => fail (.mismatch (.wrongValue .bytes "a string"))
  | other => unwanted "a string" depth other

def text (depth : Nat) : Reader String :=
  head >>= textOfHead depth

def text? (depth : Nat) : Reader (Option String) := do
  match ← head with
  | .null => pure none
  | other => some <$> textOfHead depth other

def nothing (depth : Nat) : Reader Unit := do
  match ← head with
  | .null => pure ()
  | other => unwanted "unit" depth other

/-- Read a number below `limit`; `wanted` names its type. -/
def natural (limit : Nat) (wanted : String) : Reader Nat := do
  match ← scalar with
  | .unsigned n =>
    if n < limit then pure n else fail (.mismatch (.wrongValue (.integer n) wanted))
  | .signed n =>
    if 0 ≤ n ∧ n < limit then pure n.toNat
    else fail (.mismatch (.wrongValue (.integer n) wanted))
  | other => unwanted wanted maxDepth other

def octet : Reader UInt8 :=
  UInt8.ofNat <$> natural 256 "u8"

def octetsOnto (data : ByteArray) : Nat → Reader ByteArray
  | 0 => pure data
  | n + 1 => do
    let b ← octet
    octetsOnto (data.push b) n

/-- Read bytes: a byte string, the body of a text, or a list of octets. -/
def bytes (depth : Nat) : Reader ByteArray := do
  match ← head with
  | .bytes data => pure data
  | .text data => pure data
  | .list n => within depth fun _ => octetsOnto ByteArray.empty n
  | other => unwanted "byte array" depth other

/-- Read `n` things on to those already read, of which the last comes first. -/
def listOnto (r : Reader α) (done : List α) : Nat → Reader (List α)
  | 0 => pure done.reverse
  | n + 1 => do
    let a ← r
    listOnto r (a :: done) n

/-- Bytes where parts were wanted are a list of numbers. -/
def octetsFor (wanted : String) (data : ByteArray) (empty : Reader α) : Reader α :=
  match data.data[0]? with
  | none => empty
  | some b => wrongKind (.integer b.toNat) wanted

/-- Read a list; `element` reads one value and `wanted` names its kind. -/
def list (wanted : String) (element : Nat → Reader α) (depth : Nat) : Reader (List α) := do
  match ← head with
  | .list n => within depth fun depth => listOnto (element depth) [] n
  | .bytes data => octetsFor wanted data (pure [])
  | other => unwanted "a sequence" depth other

/-! ## Records -/

/-- How a record is read into a value of `α`. -/
structure Record (α : Type) where
  /-- The name of the record. -/
  name : String
  fields : List String
  /-- How many of the fields, from the first on, must be there. -/
  required : Nat
  /-- What the first field wants. -/
  firstWanted : String
  /-- The record in which every field has its default. -/
  blank : α
  /-- Read a field, by its place, into a record. -/
  store : (depth : Nat) → (field : Nat) → α → Reader α

namespace Record

variable {α : Type} (shape : Record α)

/-- A record, as it is named where one was wanted. -/
def wanted : String :=
  s!"struct {shape.name}"

def wantedInFull : String :=
  let elements := if shape.fields.length = 1 then "element" else "elements"
  s!"{shape.wanted} with {shape.fields.length} {elements}"

def fieldName (field : Nat) : String :=
  shape.fields[field]?.getD ""

/-- The field that is first missing among those that were not seen. -/
def missing? (seen : List Nat) : Option Nat :=
  (List.range shape.required).find? fun field => !seen.contains field

/-- Read the key of a field: its name, or its place. Nothing is given for an unknown key. -/
def key (depth : Nat) : Reader (Option Nat) := do
  match ← head with
  | .unsigned n => pure (if n < shape.fields.length then some n else none)
  | .text data => pure (shape.fields.findIdx? (·.toUTF8 == data))
  | .bytes data => pure (shape.fields.findIdx? (·.toUTF8 == data))
  | other => unwanted "field identifier" depth other

/-- Read `n` keys and their values into a record in which the fields `seen` are set. -/
def entriesOnto (depth : Nat) (seen : List Nat) (a : α) : Nat → Reader α
  | 0 =>
    match shape.missing? seen with
    | some field => fail (.mismatch (.missing (shape.fieldName field)))
    | none => pure a
  | n + 1 => do
    match ← shape.key depth with
    | none =>
      skip depth
      entriesOnto depth seen a n
    | some field =>
      if seen.contains field then fail (.mismatch (.duplicate (shape.fieldName field)))
      else
        let a ← shape.store depth field a
        entriesOnto depth (field :: seen) a n

/-- Read the fields from `field` on from a list of which `n` elements are left. -/
def elementsOnto (depth : Nat) (n : Nat) (field : Nat) (a : α) : Nat → Reader α
  | 0 => if 0 < n then fail (.surplus field) else pure a
  | more + 1 =>
    if 0 < n then do
      let a ← shape.store depth field a
      elementsOnto depth (n - 1) (field + 1) a more
    else if field < shape.required then fail (.mismatch (.tooShort field shape.wantedInFull))
    else pure a

/-- Read a record: a map of its fields in any order, or a list of them in order. -/
def read (depth : Nat) : Reader α := do
  match ← head with
  | .map n => within depth fun depth => shape.entriesOnto depth [] shape.blank n
  | .list n =>
    within depth fun depth => shape.elementsOnto depth n 0 shape.blank shape.fields.length
  | .bytes data =>
    octetsFor shape.firstWanted data (fail (.mismatch (.tooShort 0 shape.wantedInFull)))
  | other => unwanted shape.wanted depth other

end Record

/-- Read one value from bytes; what stands after it is ignored. -/
def decode (r : Nat → Reader α) (data : ByteArray) : Except Flaw α :=
  (r maxDepth ⟨data, 0⟩).map Prod.fst

end Switchboard.MessagePack
