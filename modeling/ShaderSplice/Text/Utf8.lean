import ShaderSplice.Text.Basic

/-!
# Reading a text as UTF-8

`Text.symbols` reads a text from left to right: each symbol is either a character, where the bytes
at hand are its UTF-8 encoding, or a single stray byte, where they are no character's encoding.
Writing the symbols again gives the text back (`encode_symbols`), whatever its bytes are.

    text ──symbols──▶ List Symbol ──flatMap encode──▶ text
-/

namespace ShaderSplice

/-- One step of reading a text: a character, or a byte that belongs to none. -/
inductive Symbol where
  | char (c : Char)
  | stray (b : UInt8)
deriving DecidableEq, Repr

/-- The bytes that a symbol was read from. -/
def Symbol.encode : Symbol → Text
  | .char c => String.utf8EncodeChar c
  | .stray b => [b]

/-- The code point of a symbol; every stray byte counts as the replacement character. -/
def Symbol.point : Symbol → Nat
  | .char c => c.toNat
  | .stray _ => 0xfffd

/-- Every symbol takes at least one byte. -/
theorem Symbol.encode_ne_nil (s : Symbol) : s.encode ≠ [] := by
  cases s with
  | char c =>
    have hsize := c.utf8Size_pos
    intro h
    have hlen := congrArg List.length h
    simp only [encode, String.length_utf8EncodeChar, List.length_nil] at hlen
    omega
  | stray b => simp [encode]

namespace Text

/-- The six bits that the `i`-th byte after the first adds to a code point. -/
def tailBits (t : Text) (i : Nat) : Nat := (t.getD i 0).toNat % 64

/-- The code point that the bytes of `t` would stand for, if `t` began with a character. How many
bytes that takes is written in the first of them. -/
def leadingPoint (t : Text) : Nat :=
  let lead := (t.getD 0 0).toNat
  if lead < 0x80 then lead
  else if lead < 0xe0 then lead % 32 * 64 + t.tailBits 1
  else if lead < 0xf0 then lead % 16 * 4096 + t.tailBits 1 * 64 + t.tailBits 2
  else lead % 8 * 262144 + t.tailBits 1 * 4096 + t.tailBits 2 * 64 + t.tailBits 3

/-- The character whose encoding `t` begins with, and the rest of `t`. The candidate is checked by
encoding it again, so an overlong form, a surrogate and a cut-off sequence are no characters. -/
def leadingChar? (t : Text) : Option (Char × Text) :=
  let c := Char.ofNat t.leadingPoint
  ((String.utf8EncodeChar c).isPrefixOf? t).map fun rest => (c, rest)

/-- A leading character and the rest make up the text. -/
theorem leadingChar?_eq_some {t rest : Text} {c : Char}
    (h : t.leadingChar? = some (c, rest)) : t = String.utf8EncodeChar c ++ rest := by
  obtain ⟨r, hr, he⟩ := Option.map_eq_some_iff.1 h
  cases he
  exact eq_append_of_isPrefixOf? hr

/-- Reading a character shortens the text. -/
theorem length_leadingChar?_lt {t rest : Text} {c : Char}
    (h : t.leadingChar? = some (c, rest)) : rest.length < t.length := by
  have hsize := c.utf8Size_pos
  rw [leadingChar?_eq_some h, List.length_append, String.length_utf8EncodeChar]
  omega

/-- The symbols of a text, from left to right. -/
def symbols (t : Text) : List Symbol :=
  match t with
  | [] => []
  | b :: r =>
    match _ : leadingChar? (b :: r) with
    | some (c, rest) => .char c :: symbols rest
    | none => .stray b :: symbols r
termination_by t.length
decreasing_by
  · next h => exact length_leadingChar?_lt h
  · simp

/-- Writing the symbols of a text gives the text. -/
theorem encode_symbols (t : Text) : t.symbols.flatMap Symbol.encode = t := by
  fun_induction symbols t with
  | case1 => rfl
  | case2 b r c rest h ih => simp [ih, Symbol.encode, leadingChar?_eq_some h]
  | case3 b r h ih => simp [ih, Symbol.encode]

/-- Whether all bytes of a text belong to characters. -/
def isUtf8 (t : Text) : Bool :=
  t.symbols.all fun
    | .char _ => true
    | .stray _ => false

end Text
end ShaderSplice
