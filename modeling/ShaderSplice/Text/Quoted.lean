import ShaderSplice.Text.Utf8
import ShaderSplice.Text.Printable

/-!
# Quoted texts

A quoted text stands between double quotes on one line and in printable characters only. A quote
and a backslash are escaped by a backslash, the usual control characters by a letter, and what else
is not printable by its number: `\x1b` below U+0080, `\u200b` below U+10000, `\U000e0001` above. A
stray byte, which is no character, is written as `\xff`.

Which characters count as printable is a parameter of `quoteWith`; `quote` uses the table.
-/

namespace ShaderSplice.Text

/-- The hexadecimal numeral of `n` in lower case, with at least `width` digits. -/
def hex (width n : Nat) : Text :=
  let digits := (Nat.toDigits 16 n).map Char.toUInt8
  List.replicate (width - digits.length) 0x30 ++ digits

/-- The letters that escape the control characters with a name of their own. -/
def controlLetters : List (Nat × Char) :=
  [(0x07, 'a'), (0x08, 'b'), (0x0c, 'f'), (0x0a, 'n'), (0x0d, 'r'), (0x09, 't'), (0x0b, 'v')]

/-- A symbol as it stands between quotes. -/
def escape (printable : Char → Bool) : Symbol → Text
  | .stray b => ofString "\\x" ++ hex 2 b.toNat
  | .char c =>
    let n := c.toNat
    if n = quoteMark.toNat ∨ n = backslash.toNat then [backslash, c.toUInt8]
    else if printable c then String.utf8EncodeChar c
    else
      match controlLetters.lookup n with
      | some letter => [backslash, letter.toUInt8]
      | none =>
        if n < 0x20 ∨ n = 0x7f then ofString "\\x" ++ hex 2 n
        else if n < 0x10000 then ofString "\\u" ++ hex 4 n
        else ofString "\\U" ++ hex 8 n

/-- `t` between double quotes, for a choice of the characters that need no escape. -/
def quoteWith (printable : Char → Bool) (t : Text) : Text :=
  quoteMark :: t.symbols.flatMap (escape printable) ++ [quoteMark]

/-- `t` between double quotes. -/
def quote (t : Text) : Text := quoteWith isPrintable t

end ShaderSplice.Text
