/-!
# Markers

Every MessagePack value starts with a byte that says what it is and, for small values, holds the
value or its length. `Marker.ofByte` reads that byte and `Marker.name` is its name in messages.
-/

namespace Switchboard.MessagePack

/-- What a value is. -/
inductive Marker where
  | fixPos (n : UInt8)
  | fixNeg (n : UInt8)
  | null
  | true
  | false
  | u8 | u16 | u32 | u64
  | i8 | i16 | i32 | i64
  | f32 | f64
  | fixStr (n : UInt8)
  | str8 | str16 | str32
  | bin8 | bin16 | bin32
  | fixArray (n : UInt8)
  | array16 | array32
  | fixMap (n : UInt8)
  | map16 | map32
  | fixExt1 | fixExt2 | fixExt4 | fixExt8 | fixExt16
  | ext8 | ext16 | ext32
  | reserved
  deriving DecidableEq, Repr, Inhabited

namespace Marker

/-- The markers from `0xC0` to `0xDF`, in order. -/
def middle : Array Marker := #[
  null, reserved, false, true, bin8, bin16, bin32, ext8, ext16, ext32, f32, f64,
  u8, u16, u32, u64, i8, i16, i32, i64, fixExt1, fixExt2, fixExt4, fixExt8, fixExt16,
  str8, str16, str32, array16, array32, map16, map32]

def ofByte (b : UInt8) : Marker :=
  if b < 0x80 then fixPos b
  else if b < 0x90 then fixMap (b - 0x80)
  else if b < 0xA0 then fixArray (b - 0x90)
  else if b < 0xC0 then fixStr (b - 0xA0)
  else if b < 0xE0 then middle[(b - 0xC0).toNat]?.getD reserved
  else fixNeg b

def name : Marker → String
  | fixPos n => s!"FixPos({n})"
  | fixNeg n => s!"FixNeg({(n.toNat : Int) - 256})"
  | null => "Null"
  | true => "True"
  | false => "False"
  | u8 => "U8" | u16 => "U16" | u32 => "U32" | u64 => "U64"
  | i8 => "I8" | i16 => "I16" | i32 => "I32" | i64 => "I64"
  | f32 => "F32" | f64 => "F64"
  | fixStr n => s!"FixStr({n})"
  | str8 => "Str8" | str16 => "Str16" | str32 => "Str32"
  | bin8 => "Bin8" | bin16 => "Bin16" | bin32 => "Bin32"
  | fixArray n => s!"FixArray({n})"
  | array16 => "Array16" | array32 => "Array32"
  | fixMap n => s!"FixMap({n})"
  | map16 => "Map16" | map32 => "Map32"
  | fixExt1 => "FixExt1" | fixExt2 => "FixExt2" | fixExt4 => "FixExt4" | fixExt8 => "FixExt8"
  | fixExt16 => "FixExt16"
  | ext8 => "Ext8" | ext16 => "Ext16" | ext32 => "Ext32"
  | reserved => "Reserved"

end Marker

end Switchboard.MessagePack
