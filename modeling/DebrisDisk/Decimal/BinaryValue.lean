/-!
# Exact values of binary numbers

A binary64 number is a whole multiple of a power of two, an infinity, or undefined. `BinaryValue`
holds that exact value, so that the decimal texts of the neighbouring modules are computed with
natural numbers alone. `HasBinaryValue` marks the carriers whose numbers have such a value.
-/

namespace DebrisDisk

/-- The exact value of a binary floating-point number. -/
inductive BinaryValue where
  | nan
  | infinite (negative : Bool)
  /-- `± mantissa * 2 ^ exponent`. -/
  | finite (negative : Bool) (mantissa : Nat) (exponent : Int)
  deriving Repr, DecidableEq

namespace BinaryValue

/-- The weight of the leading bit of a mantissa, the 53rd, which patterns leave out. -/
def leadingBit : Nat := 0x10000000000000

/-- The value that a 64-bit pattern stands for. -/
def ofBits (bits : UInt64) : BinaryValue :=
  let n := bits.toNat
  let negative := n >>> 63 == 1
  let field := (n >>> 52) % 2048
  let fraction := n % leadingBit
  if field = 2047 then
    if fraction = 0 then infinite negative else nan
  else if field = 0 then finite negative fraction (-1074)
  else finite negative (fraction + leadingBit) (Int.ofNat field - 1075)

/-- The magnitude `mantissa * 2 ^ exponent` as a quotient of natural numbers. -/
def quotient (mantissa : Nat) (exponent : Int) : Nat × Nat :=
  if 0 ≤ exponent then (mantissa <<< exponent.toNat, 1) else (mantissa, 1 <<< (-exponent).toNat)

end BinaryValue

/-- Numbers with an exact binary value. -/
class HasBinaryValue (α : Type) where
  binaryValue : α → BinaryValue

export HasBinaryValue (binaryValue)

instance : HasBinaryValue Float := ⟨fun x => BinaryValue.ofBits x.toBits⟩

end DebrisDisk
