/-!
# Texts

A shader source, a file name and a message are all byte strings: nothing promises that their bytes
are valid UTF-8. `Text` is that type. A string literal of this library becomes a text through
`Text.ofString`, which writes it in UTF-8, and a number through `Text.ofNat`.

The one searching step is `Text.cut?`, the split of a text at the first occurrence of a needle:

    needle ──▶ text = before ++ needle ++ after        (`cut?_eq_some`)
-/

namespace ShaderSplice

/-- A byte string. -/
abbrev Text := List UInt8

namespace Text

/-- Two texts compare as equal when they have the same bytes in the same order. -/
instance : LawfulBEq Text := List.instLawfulBEq

/-- The UTF-8 bytes of a string. -/
def ofString (s : String) : Text := s.toList.flatMap String.utf8EncodeChar

/-- The shortest decimal numeral of `n`. -/
def ofNat (n : Nat) : Text := (Nat.toDigits 10 n).map Char.toUInt8

/-- The number that decimal digits write. -/
def toNat (digits : Text) : Nat := digits.foldl (fun n b => n * 10 + (b.toNat - 0x30)) 0

/-- The byte that ends a line. -/
def newline : UInt8 := 0x0a

/-- The byte that may stand before the end of a line. -/
def carriageReturn : UInt8 := 0x0d

/-- The ASCII space. -/
def space : UInt8 := 0x20

/-- The double quote. -/
def quoteMark : UInt8 := 0x22

/-- The minus sign. -/
def dash : UInt8 := 0x2d

/-- The byte between the elements of a path. -/
def slash : UInt8 := 0x2f

/-- The equals sign. -/
def equals : UInt8 := 0x3d

/-- The backslash. -/
def backslash : UInt8 := 0x5c

/-- The decimal numeral of `n`, after a minus sign if `n` is negative. -/
def ofInt : Int → Text
  | .ofNat n => ofNat n
  | .negSucc n => dash :: ofNat (n + 1)

/-- `parts` one after the other, with `gap` between two neighbours. -/
def join (gap : Text) (parts : List Text) : Text := gap.intercalate parts

/-- `t` without the longest run of bytes at its end that satisfy `p`. -/
def dropEndWhile (p : UInt8 → Bool) (t : Text) : Text := (t.reverse.dropWhile p).reverse

/-- The lower case of an ASCII letter, and any other byte itself. -/
def lowerByte (b : UInt8) : UInt8 := if 0x41 ≤ b ∧ b ≤ 0x5a then b + 0x20 else b

/-- `t` with its ASCII letters in lower case. -/
def toLower (t : Text) : Text := t.map lowerByte

/-! ### Cutting at a needle -/

/-- What stands before and what stands after the first occurrence of `needle` in `t`. -/
def cut? (t needle : Text) : Option (Text × Text) :=
  match needle.isPrefixOf? t with
  | some rest => some ([], rest)
  | none =>
    match t with
    | [] => none
    | b :: r => (cut? r needle).map fun (before, after) => (b :: before, after)

/-- What `isPrefixOf?` leaves is the rest of the text. -/
theorem eq_append_of_isPrefixOf? {needle t rest : Text}
    (h : needle.isPrefixOf? t = some rest) : t = needle ++ rest := by
  induction needle generalizing t with
  | nil => exact Option.some.inj h
  | cons a needle ih =>
    cases t with
    | nil => exact absurd h (Option.some_ne_none rest).symm
    | cons b t =>
      change (if a == b then needle.isPrefixOf? t else none) = some rest at h
      split at h
      · next hab => rw [ih h, beq_iff_eq.1 hab, List.cons_append]
      · simp at h

/-- Cutting loses nothing but the needle itself. -/
theorem cut?_eq_some {t needle before after : Text}
    (h : t.cut? needle = some (before, after)) : t = before ++ needle ++ after := by
  induction t generalizing before with
  | nil =>
    rw [cut?] at h
    split at h
    · next rest hr => cases h; simpa using eq_append_of_isPrefixOf? hr
    · simp at h
  | cons b t ih =>
    rw [cut?] at h
    split at h
    · next rest hr => cases h; simpa using eq_append_of_isPrefixOf? hr
    · obtain ⟨⟨x, y⟩, hc, he⟩ := Option.map_eq_some_iff.1 h
      cases he
      simp [ih hc]

/-- What stands after a needle is shorter than the text, if the needle is not empty. -/
theorem length_cut?_lt {t needle before after : Text} (hn : needle ≠ [])
    (h : t.cut? needle = some (before, after)) : after.length < t.length := by
  have hpos := List.length_pos_iff.2 hn
  rw [cut?_eq_some h]
  simp only [List.length_append]
  omega

end Text
end ShaderSplice
