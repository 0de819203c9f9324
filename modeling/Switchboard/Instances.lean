/-!
# Instances

Powers, zero and the equality of byte sequences are those of the core library everywhere. Mathlib
has instances of its own for them, which come to the same but would be picked where it is imported.
-/

namespace Switchboard

@[default_instance 20000]
instance corePow {α : Type} [NatPow α] : Pow α Nat := instPowNat

instance coreZero : Zero Nat := Zero.ofOfNat0

instance coreDecidableEqByteArray : DecidableEq ByteArray := ByteArray.instDecidableEq

end Switchboard
