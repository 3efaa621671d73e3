import ShaderSplice.Directive

/-!
# The numbers of a machine

Whole numbers that programs compute with are words of 64 bits, half of which count as negative where
signs matter.
-/

namespace ShaderSplice.Tool

/-- How many words there are. -/
def wordCount : Nat := 0x10000000000000000

/-- The first number that is too large for a word with a sign. -/
def wordLimit : Nat := 0x8000000000000000

/-- The value of a digit in any base up to sixteen. -/
def digitValue (b : UInt8) : Nat :=
  if isDigitByte b then b.toNat - 0x30
  else if 0x61 ≤ b ∧ b ≤ 0x66 then b.toNat - 0x57
  else if 0x41 ≤ b ∧ b ≤ 0x46 then b.toNat - 0x37
  else 16

/-- The number that digits write in a base. -/
def digitsValue (base : Nat) (digits : Text) : Nat :=
  digits.foldl (fun n b => n * base + digitValue b) 0

/-- The upper case of a letter. -/
def upperByte (b : UInt8) : UInt8 := if 0x61 ≤ b ∧ b ≤ 0x7a then b - 0x20 else b

/-- The lower case of a letter. -/
def lowerByte (b : UInt8) : UInt8 := if 0x41 ≤ b ∧ b ≤ 0x5a then b + 0x20 else b

end ShaderSplice.Tool
