import ShaderSplice.Tool.Floating
import ShaderSplice.Tool.Tr.Set

/-!
# Printing words

Two commands print words: `echo` writes them with spaces between, and `printf` fills them into a
format, which is used again as long as words are left.

A format is text with escapes and *conversions*, of which each takes a word:

    % flags width . precision letter
-/

namespace ShaderSplice.Tool.Format

/-! ### Escapes -/

/-- The letters that stand for a byte after a backslash. -/
def escapeLetters : List (UInt8 × UInt8) :=
  (0x5c, 0x5c) :: (0x65, 0x1b) :: controlLetters

/-- The byte that an escape stands for, and what follows it. A backslash that starts no escape
stands for itself. -/
def escape (afterBackslash : Text) : UInt8 × Text :=
  match afterBackslash with
  | [] => (0x5c, [])
  | b :: r =>
    let digits := (afterBackslash.take 3).takeWhile Tr.isOctalByte
    if digits ≠ [] then
      (UInt8.ofNat (Tr.octalValue digits), afterBackslash.drop digits.length)
    else
      match escapeLetters.lookup b with
      | some c => (c, r)
      | none => (0x5c, afterBackslash)

/-- What follows an escape is no longer than what followed its backslash. -/
theorem length_escape_le (t : Text) : (escape t).2.length ≤ t.length := by
  unfold escape
  split
  · simp
  · next b r =>
    simp only
    split
    · simp
    · split <;> simp

/-- What follows a backslash, without a zero before octal digits. -/
def withoutZero (t : Text) : Text :=
  if t.head? = some 0x30 ∧ (t.drop 1).head?.any Tr.isOctalByte then t.drop 1 else t

/-- Leaving a zero out does not lengthen a text. -/
theorem length_withoutZero_le (t : Text) : (withoutZero t).length ≤ t.length := by
  unfold withoutZero
  split <;> simp

/-- A word with its escapes resolved, and whether it says that nothing more is to be printed. An
octal escape may have a zero before its digits. -/
def unescapeWord (t : Text) : Text × Bool :=
  match t with
  | [] => ([], false)
  | 0x5c :: 0x63 :: _ => ([], true)
  | 0x5c :: r =>
    let (out, stops) := unescapeWord (escape (withoutZero r)).2
    ((escape (withoutZero r)).1 :: out, stops)
  | b :: r =>
    let (out, stops) := unescapeWord r
    (b :: out, stops)
termination_by t.length
decreasing_by
  · have hescape := length_escape_le (withoutZero r)
    have hzero := length_withoutZero_le r
    simp only [List.length_cons]
    omega
  · simp

/-- What `echo` prints for its words. -/
def echo (words : List Text) : Text :=
  let (words, ending) : List Text × Text :=
    match words with
    | [0x2d, 0x6e] :: rest => (rest, [])
    | all => (all, [Text.newline])
  let unescaped := words.map unescapeWord
  let whole := unescaped.takeWhile fun w => !w.2
  match unescaped.drop whole.length with
  | [] => Text.join [Text.space] (whole.map (·.1)) ++ ending
  | (last, _) :: _ => whole.flatMap (fun w => w.1 ++ [Text.space]) ++ last

/-! ### Numbers -/

/-- A number at the start of a word. -/
structure Leading where
  negative : Bool
  magnitude : Nat
  /-- What follows the number, or the whole word if there is none. -/
  rest : Text
deriving DecidableEq, Repr

/-- The number at the start of a word: blanks, a sign, and digits, which are octal after a zero
and hexadecimal after `0x`. -/
def leading (word : Text) : Leading :=
  let body := word.dropWhile isBlankByte
  let negative := body.head? = some 0x2d
  let body := if negative ∨ body.head? = some 0x2b then body.tail else body
  let isHex := body.take 2 ∈ ["0x", "0X"].map Text.ofString ∧
    ((body.drop 2).head?.any fun b => digitValue b < 16)
  let base := if isHex then 16 else if body.head? = some 0x30 then 8 else 10
  let body := if isHex then body.drop 2 else body
  let digits := body.takeWhile fun b => digitValue b < base
  if digits = [] then ⟨false, 0, word⟩
  else
    ⟨negative, digitsValue base digits, body.drop digits.length⟩

/-- What is said about a word of which `rest` is left after a number. -/
def numberProblem? (word rest : Text) (outside : Bool) : Option Text :=
  let problem :=
    if rest = word then some "expected numeric value"
    else if rest ≠ [] then some "not completely converted"
    else if outside then some "Numerical result out of range"
    else none
  problem.map fun p => word ++ Text.ofString (": " ++ p)

/-- A word as a number of 64 bits, and what is said about it if it is none. -/
def number (signed : Bool) (word : Text) : Int × Option Text :=
  match word with
  | q :: c =>
    if q = 0x22 ∨ q = 0x27 then ((c.headD 0).toNat, none)
    else
      let n := leading word
      let value : Int := if n.negative then -n.magnitude else n.magnitude
      let clamped : Int :=
        if signed then max (-wordLimit) (min (wordLimit - 1) value)
        else if wordCount ≤ n.magnitude then wordCount - 1
        else value % wordCount
      let outside := if signed then clamped ≠ value else wordCount ≤ n.magnitude
      (clamped, numberProblem? word n.rest outside)
  | [] => (0, none)

/-- A word as a number with a point, and what is said about it if it is none. -/
def floatingOf (word : Text) : Floating × Option Text :=
  let whole (n : Nat) : Floating := .finite false ⟨n, 1⟩
  match word with
  | q :: c =>
    if q = 0x22 ∨ q = 0x27 then (whole (c.headD 0).toNat, none)
    else
      let (value, inRange, rest) := Floating.read word
      (value, numberProblem? word rest !inRange)
  | [] => (whole 0, none)

/-! ### Conversions -/

/-- How a conversion lays out what it prints. -/
structure Layout where
  flags : Text
  width : Nat
  precision : Option Nat
deriving DecidableEq, Repr

/-- Whether a flag is given. -/
def Layout.has (l : Layout) (flag : Char) : Bool := l.flags.contains flag.toUInt8

/-- `t` brought to the width of a layout with spaces. -/
def Layout.pad (l : Layout) (t : Text) : Text :=
  let spaces := List.replicate (l.width - t.length) Text.space
  if l.has '-' then t ++ spaces else spaces ++ t

/-- A word in a layout. -/
def Layout.word (l : Layout) (t : Text) : Text := l.pad (t.take (l.precision.getD t.length))

/-- Digits with a sign before them in a layout. -/
def Layout.digits (l : Layout) (sign digits : Text) : Text :=
  let zeros : Nat :=
    match l.precision with
    | some p => p - digits.length
    | none => if l.has '0' ∧ !l.has '-' then l.width - sign.length - digits.length else 0
  l.pad (sign ++ List.replicate zeros 0x30 ++ digits)

/-- The digits of a number in a base. -/
def digitsIn (base : Nat) (n : Nat) : Text := (Nat.toDigits base n).map Char.toUInt8

/-- The sign of a number in a layout. -/
def Layout.sign (l : Layout) (negative : Bool) : Text :=
  Text.ofString
    (if negative then "-" else if l.has '+' then "+" else if l.has ' ' then " " else "")

/-- A number in a layout, as the letter of a conversion says. -/
def Layout.number (l : Layout) (letter : UInt8) (n : Int) : Text :=
  let size := n.natAbs
  let plain (base : Nat) : Text :=
    if size = 0 ∧ l.precision = some 0 then [] else digitsIn base size
  if letter = 0x64 ∨ letter = 0x69 then
    l.digits (l.sign (n < 0)) (plain 10)
  else if letter = 0x75 then l.digits [] (plain 10)
  else if letter = 0x6f then
    let digits := plain 8
    let long := List.replicate ((l.precision.getD 0) - digits.length) 0x30 ++ digits
    if l.has '#' ∧ long.head? ≠ some 0x30 then l.digits [] (0x30 :: long)
    else l.digits [] digits
  else
    let mark := if l.has '#' ∧ size ≠ 0 then "0x" else ""
    let lower := Text.ofString mark
    let digits := plain 16
    if letter = 0x78 then l.digits lower digits
    else l.digits (lower.map upperByte) (digits.map upperByte)

/-- A number with a point in a layout, as the letter of a conversion says. -/
def Layout.floating (l : Layout) (letter : UInt8) (r : Floating) : Text :=
  let cased (t : Text) : Text := if lowerByte letter = letter then t else t.map upperByte
  match r with
  | .undefined negative => l.pad (l.sign negative ++ cased (Text.ofString "nan"))
  | .infinite negative => l.pad (l.sign negative ++ cased (Text.ofString "inf"))
  | .finite negative f =>
    let places := l.precision.getD 6
    let write :=
      if lowerByte letter = 0x66 then Floating.fixed
      else if lowerByte letter = 0x65 then Floating.scientific
      else Floating.general
    { l with precision := none }.digits (l.sign negative) (cased (write (l.has '#') places f))

/-! ### Formats -/

/-- What printing has come to. -/
structure Progress where
  words : List Text
  /-- The texts printed so far, the last one first. -/
  printed : List Text
  /-- What is said about words that are no numbers, the last one first. -/
  warnings : List Text
  /-- Whether a word has been taken. -/
  took : Bool
deriving DecidableEq, Repr

/-- How printing can end early. -/
inductive Stop where
  | quietly (p : Progress)
  | badFormat (p : Progress) (problem : Text)
deriving DecidableEq, Repr

namespace Progress

/-- Prints one more text. -/
def print (p : Progress) (t : Text) : Progress := { p with printed := t :: p.printed }

/-- Takes the next word; an empty one if none is left. -/
def next (p : Progress) : Text × Progress :=
  match p.words with
  | [] => ([], p)
  | w :: ws => (w, { p with words := ws, took := true })

/-- Takes the next word as a number. -/
def nextNumber (p : Progress) (signed : Bool) : Int × Progress :=
  let (w, p) := p.next
  let (n, warning) := number signed w
  (n, { p with warnings := warning.toList ++ p.warnings })

/-- Takes the next word as a number with a point. -/
def nextFloating (p : Progress) : Floating × Progress :=
  let (w, p) := p.next
  let (r, warning) := floatingOf w
  (r, { p with warnings := warning.toList ++ p.warnings })

end Progress

/-- The digits or the star at the start of a format, as a number, and the rest of the format. -/
def measure (p : Progress) (format : Text) : Option Int × Progress × Text :=
  match format with
  | 0x2a :: r =>
    let (n, p) := p.nextNumber true
    (some n, p, r)
  | _ =>
    let digits := format.takeWhile isDigitByte
    let value : Option Int :=
      if digits = [] then none
      else some (Text.toNat digits)
    (value, p, format.drop digits.length)

/-- One conversion, from after its percent sign: what printing has come to, and the rest of the
format. -/
def conversion (p : Progress) (format : Text) : Except Stop (Progress × Text) :=
  let flags := format.takeWhile (· ∈ Text.ofString "#-+ 0")
  let (width, p, rest) := measure p (format.drop flags.length)
  let (precision, p, rest) : Option Int × Progress × Text :=
    match rest with
    | 0x2e :: r =>
      let (n, p, rest) := measure p r
      (some (n.getD 0), p, rest)
    | _ => (none, p, rest)
  let width := width.getD 0
  let layout : Layout :=
    { flags := if width < 0 then 0x2d :: flags else flags
      width := width.natAbs
      precision := precision.bind fun n => if n < 0 then none else some n.toNat }
  match rest with
  | [] => .error (.badFormat p (Text.ofString "missing format character"))
  | letter :: after =>
    if letter = 0x62 then
      let (w, p) := p.next
      let (t, stops) := unescapeWord w
      let p := p.print (layout.word t)
      if stops then .error (.quietly p) else .ok (p, after)
    else if letter = 0x63 then
      let (w, p) := p.next
      .ok (p.print (layout.pad [w.headD 0]), after)
    else if letter = 0x73 then
      let (w, p) := p.next
      .ok (p.print (layout.word w), after)
    else if letter ∈ Text.ofString "diouxX" then
      let (n, p) := p.nextNumber (letter == 0x64 || letter == 0x69)
      .ok (p.print (layout.number letter n), after)
    else if letter ∈ Text.ofString "eEfFgG" then
      let (r, p) := p.nextFloating
      .ok (p.print (layout.floating letter r), after)
    else
      let written := 0x25 :: format.take (format.length - after.length)
      .error (.badFormat p (written ++ Text.ofString ": invalid directive"))

/-- One use of a format. Each step shortens the format, so `fuel` need not exceed its length. -/
def fill : Nat → Progress → Text → Except Stop Progress
  | 0, p, _ => .ok p
  | fuel + 1, p, format =>
    match format with
    | [] => .ok p
    | 0x5c :: r =>
      let (b, rest) := escape r
      fill fuel (p.print [b]) rest
    | 0x25 :: 0x25 :: r => fill fuel (p.print [0x25]) r
    | 0x25 :: r =>
      match conversion p r with
      | .error stop => .error stop
      | .ok (p, rest) => fill fuel p rest
    | b :: r => fill fuel (p.print [b]) r

/-- Uses of a format as long as words are left. -/
def fillAll : Nat → Progress → Text → Except Stop Progress
  | 0, p, _ => .ok p
  | fuel + 1, p, format =>
    match fill format.length p format with
    | .error stop => .error stop
    | .ok p => if p.took && !p.words.isEmpty then fillAll fuel p format else .ok p

/-- What `printf` prints, what it says about its words, and what is wrong with its format. -/
structure Printed where
  output : Text
  warnings : List Text
  problem : Option Text
deriving DecidableEq, Repr

/-- What `printf` prints for a format and words. -/
def printf (format : Text) (words : List Text) : Printed :=
  let finish (p : Progress) (problem : Option Text) : Printed :=
    ⟨p.printed.reverse.flatten, p.warnings.reverse, problem⟩
  match fillAll (words.length + 1) ⟨words, [], [], false⟩ format with
  | .ok p | .error (.quietly p) => finish p none
  | .error (.badFormat p problem) => finish p (some problem)

end ShaderSplice.Tool.Format
