import ShaderSplice.Tool.Number
import ShaderSplice.Text.Space

/-!
# Floating numbers

A number with a point is read as a fraction, brought to the nearest fraction that a machine knows,
and written with a given number of decimal digits. Both roundings are exact, and a tie goes to the
even neighbour.

    Text ──Floating.read──▶ Fraction ──nearest──▶ Floating ──fixed, scientific, general──▶ Text
-/

namespace ShaderSplice.Tool

/-- The whole number nearest to a quotient; of two the even one. -/
def roundDiv (n d : Nat) : Nat :=
  let q := n / d
  let r := n % d
  if d < 2 * r ∨ (2 * r = d ∧ q % 2 = 1) then q + 1 else q

/-- A fraction that is not negative. -/
structure Fraction where
  numerator : Nat
  denominator : Nat
deriving DecidableEq, Repr

namespace Fraction

/-- A fraction times a power. -/
def scale (f : Fraction) (base : Nat) (exponent : Int) : Fraction :=
  let factor := Nat.pow base exponent.natAbs
  if exponent < 0 then ⟨f.numerator, f.denominator * factor⟩
  else ⟨f.numerator * factor, f.denominator⟩

/-- The nearest whole number. -/
def round (f : Fraction) : Nat := roundDiv f.numerator f.denominator

/-- The exponent of the highest decimal digit. -/
def exponent (f : Fraction) : Int :=
  let size (n : Nat) : Int := (Nat.toDigits 10 n).length
  let guess := size f.numerator - size f.denominator
  let g := f.scale 10 (-guess)
  if g.numerator < g.denominator then guess - 1 else guess

end Fraction

/-- A number as machines know it. -/
inductive Floating where
  | finite (negative : Bool) (f : Fraction)
  | infinite (negative : Bool)
  | undefined (negative : Bool)
deriving DecidableEq, Repr

namespace Floating

/-! ### The numbers that machines know -/

/-- The number of binary digits of a number. -/
def precision : Nat := 53

/-- The exponent of the last binary digit of the smallest numbers. -/
def leastExponent : Int := -1074

/-- The first power of two that is too large. -/
def limit : Nat := Nat.pow 2 1024

/-- The exponent of the last binary digit of a fraction that is not zero, if it has as many digits
as a number. -/
def lastExponent (f : Fraction) : Int :=
  let guess : Int := (f.numerator.log2 : Int) - f.denominator.log2 - (precision - 1)
  let g := f.scale 2 (-guess)
  if g.numerator < g.denominator * Nat.pow 2 (precision - 1) then guess - 1 else guess

/-- The number nearest to a fraction, and whether the fraction is in the range of numbers: a small
one that loses digits is in range if it would not be small with all of them. -/
def nearest (negative : Bool) (f : Fraction) : Floating × Bool :=
  if f.numerator = 0 then (.finite negative ⟨0, 1⟩, true)
  else
    let last := lastExponent f
    let exponent := max leastExponent last
    let scaled := f.scale 2 (-exponent)
    let mantissa := scaled.round
    let value := (Fraction.mk mantissa 1).scale 2 exponent
    let isExact := mantissa * scaled.denominator = scaled.numerator
    let carry : Int := if (f.scale 2 (-last)).round = Nat.pow 2 precision then 1 else 0
    if limit * value.denominator ≤ value.numerator then (.infinite negative, false)
    else (.finite negative value, isExact ∨ leastExponent ≤ last + carry)

/-! ### Reading -/

/-- Exponents beyond this are as good as this one. -/
def largestExponent : Int := 20000

/-- The exponent after its letter, and the rest; nothing if there are no digits. -/
def readExponent (t : Text) : Option (Int × Text) :=
  let negative := t.head? = some 0x2d
  let t := if negative ∨ t.head? = some 0x2b then t.tail else t
  let digits := t.takeWhile isDigitByte
  if digits = [] then none
  else
    let n := min (Text.toNat digits : Int) largestExponent
    some (if negative then -n else n, t.drop digits.length)

/-- The fraction that digits with a point and an exponent write, and the rest; nothing if there are
no digits. `letter` stands before the exponent, which is one of the number `power`. -/
def readFraction (base power step : Nat) (letter : UInt8) (t : Text) : Option (Fraction × Text) :=
  let isDigit (b : UInt8) : Bool := digitValue b < base
  let whole := t.takeWhile isDigit
  let rest := t.drop whole.length
  let part := if rest.head? = some 0x2e then rest.tail.takeWhile isDigit else []
  if whole = [] ∧ part = [] then none
  else
    let rest := if rest.head? = some 0x2e then rest.drop (part.length + 1) else rest
    let (exponent, rest) :=
      match rest with
      | b :: r => if lowerByte b = letter then (readExponent r).getD (0, rest) else (0, rest)
      | [] => (0, rest)
    let f : Fraction := ⟨digitsValue base (whole ++ part), 1⟩
    some (f.scale power (exponent - step * part.length), rest)

/-- The rest after a word that names no number may have more in parentheses. -/
def dropParentheses (t : Text) : Text :=
  match t with
  | 0x28 :: r =>
    let inside := r.takeWhile isWordByte
    if (r.drop inside.length).head? = some 0x29 then r.drop (inside.length + 1) else t
  | _ => t

/-- The number at the start of a text, whether it is in range, and the rest; the rest is all of the
text if there is none. -/
def read (t : Text) : Floating × Bool × Text :=
  let body := t.dropWhile isBlankByte
  let negative := body.head? = some 0x2d
  let body := if negative ∨ body.head? = some 0x2b then body.tail else body
  let lower := body.map lowerByte
  let starts (word : String) : Bool := (Text.ofString word).isPrefixOf lower
  let finite (r : Option (Fraction × Text)) : Option (Floating × Bool × Text) :=
    r.map fun (f, rest) =>
      let (value, inRange) := nearest negative f
      (value, inRange, rest)
  let hexadecimal := if starts "0x" then finite (readFraction 16 2 4 0x70 (body.drop 2)) else none
  let decimal := finite (readFraction 10 10 1 0x65 body)
  if starts "infinity" then (.infinite negative, true, body.drop 8)
  else if starts "inf" then (.infinite negative, true, body.drop 3)
  else if starts "nan" then (.undefined negative, true, dropParentheses (body.drop 3))
  else (hexadecimal.or decimal).getD (.finite false ⟨0, 1⟩, true, t)

/-! ### Writing -/

/-- The decimal digits of a number, at least `n` of them. -/
def padded (n : Nat) (value : Nat) : Text :=
  let digits := Text.ofNat value
  List.replicate (n - digits.length) 0x30 ++ digits

/-- Digits with a point before the last `places`; if there are none, the point is left out unless it
is wanted. -/
def pointed (wanted : Bool) (places : Nat) (digits : Text) : Text :=
  let whole := digits.take (digits.length - places)
  if places = 0 ∧ !wanted then whole else whole ++ 0x2e :: digits.drop whole.length

/-- A fraction with a number of places after the point. -/
def fixed (wanted : Bool) (places : Nat) (f : Fraction) : Text :=
  pointed wanted places (padded (places + 1) (f.scale 10 places).round)

/-- The digits of a fraction, one before the point, and the exponent. -/
def mantissa (places : Nat) (f : Fraction) : Nat × Int :=
  if f.numerator = 0 then (0, 0)
  else
    let e := f.exponent
    let n := (f.scale 10 (places - e)).round
    if Nat.pow 10 (places + 1) ≤ n then (n / 10, e + 1) else (n, e)

/-- The exponent of a number that is written with one. -/
def exponentText (e : Int) : Text :=
  0x65 :: (if e < 0 then 0x2d else 0x2b) :: padded 2 e.natAbs

/-- A fraction with one digit before the point, and an exponent. -/
def scientific (wanted : Bool) (places : Nat) (f : Fraction) : Text :=
  let (n, e) := mantissa places f
  pointed wanted places (padded (places + 1) n) ++ exponentText e

/-- Digits without zeros, and without a point, at their end. -/
def trimZeros (t : Text) : Text :=
  if t.contains 0x2e then
    let t := t.reverse.dropWhile (· = 0x30)
    (if t.head? = some 0x2e then t.tail else t).reverse
  else t

/-- A fraction with a number of digits, with an exponent if that is shorter. If `wanted`, zeros at
the end stay. -/
def general (wanted : Bool) (digits : Nat) (f : Fraction) : Text :=
  let digits := max 1 digits
  let (n, e) := mantissa (digits - 1) f
  let trim (t : Text) : Text := if wanted then t else trimZeros t
  if -4 ≤ e ∧ e < digits then trim (fixed wanted (digits - 1 - e).toNat f)
  else trim (pointed wanted (digits - 1) (padded digits n)) ++ exponentText e

end Floating
end ShaderSplice.Tool
