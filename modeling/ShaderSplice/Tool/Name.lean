import ShaderSplice.Tool.Number

/-!
# Names in messages

A program that complains about a file writes its name so that it could be given back to a shell:
plainly where that is possible, else in quotes (`fileName`). An operand is always put in quotes
(`operand`). In both, a byte that cannot be printed is written as an escape.
-/

namespace ShaderSplice.Tool

/-- The letters that stand for a control character after a backslash. -/
def controlLetters : List (UInt8 × UInt8) :=
  [(0x61, 0x07), (0x62, 0x08), (0x66, 0x0c), (0x6e, 0x0a), (0x72, 0x0d), (0x74, 0x09), (0x76, 0x0b)]

/-- The three octal digits of a byte. -/
def octalDigits (b : UInt8) : Text := [0x30 + b / 64, 0x30 + b / 8 % 8, 0x30 + b % 8]

/-- What stands for a byte that cannot be printed, after a backslash. -/
def escapeOf (b : UInt8) : Text :=
  match controlLetters.find? (·.2 == b) with
  | some (letter, _) => [letter]
  | none => octalDigits b

/-- The single quote. -/
def apostrophe : UInt8 := 0x27

/-- An operand between single quotes. -/
def operand (t : Text) : Text :=
  let body := t.flatMap fun b =>
    if b = apostrophe ∨ b = Text.backslash then [Text.backslash, b]
    else if isPrintableByte b then [b]
    else Text.backslash :: escapeOf b
  apostrophe :: body ++ [apostrophe]

/-- The bytes that mean something to a shell wherever they stand. -/
def shellMarks : Text := Text.ofString "!\"$&()*;<=>[^`| ':\\?"

/-- Whether a name needs quotes. -/
def needsQuotes (t : Text) : Bool :=
  t.isEmpty || t.any (fun b => b ∈ shellMarks || !isPrintableByte b) ||
    t.head?.any (· ∈ Text.ofString "#~") || t == [0x7b] || t == [0x7d]

/-- The bytes that need no care between double quotes, but which single quotes do not need
either. -/
def isPlainInQuotes (b : UInt8) : Bool :=
  isPrintableByte b && !(b ∈ Text.ofString "!\"$&()*;<=>[^`|\\?\x7b\x7d#~")

/-- A name between single quotes; `escaping` tells whether escapes are being written. -/
def singleQuotedBody (escaping : Bool) : Text → Text
  | [] => []
  | b :: r =>
    if isPrintableByte b then
      (if escaping ∧ b ≠ apostrophe then [apostrophe, apostrophe] else []) ++
        (if b = apostrophe then [apostrophe, Text.backslash, apostrophe, apostrophe] else [b]) ++
        singleQuotedBody false r
    else
      (if escaping then [] else [apostrophe, 0x24, apostrophe]) ++ Text.backslash :: escapeOf b ++
        singleQuotedBody true r

/-- The name of a file as messages give it. -/
def fileName (t : Text) : Text :=
  if !needsQuotes t then t
  else if t.contains apostrophe && t.all isPlainInQuotes then
    Text.quoteMark :: t ++ [Text.quoteMark]
  else apostrophe :: singleQuotedBody false t ++ [apostrophe]

end ShaderSplice.Tool
