import ShaderSplice.Text.Utf8

/-!
# White space

Two notions of space meet in a shader source. A *blank* is one of the six ASCII bytes that may
separate the parts of a directive. A *space* is a character with the Unicode property White_Space,
however many bytes it takes; trimming a text and cutting it into fields go by spaces.

The encoding of a space starts with a byte that continues no other character, so looking for the
encodings themselves, at either end of a text, finds exactly the spaces.
-/

namespace ShaderSplice

/-- The ASCII bytes that may stand between the parts of a directive. -/
def isBlankByte (b : UInt8) : Bool :=
  b == 0x20 || (0x09 ≤ b && b ≤ 0x0d)

/-- The code points of the white space characters. -/
def spacePoints : List Nat :=
  [0x09, 0x0a, 0x0b, 0x0c, 0x0d, 0x20, 0x85, 0xa0, 0x1680, 0x2000, 0x2001, 0x2002, 0x2003, 0x2004,
    0x2005, 0x2006, 0x2007, 0x2008, 0x2009, 0x200a, 0x2028, 0x2029, 0x202f, 0x205f, 0x3000]

/-- Whether a character is white space. -/
def isSpace (c : Char) : Bool := spacePoints.contains c.toNat

/-- The encodings of the white space characters. -/
def spaceForms : List Text := spacePoints.map fun n => String.utf8EncodeChar (Char.ofNat n)

/-- The encodings of the white space characters, each from its last byte to its first. -/
def spaceFormsReversed : List Text := spaceForms.map List.reverse

/-- No form of a space is empty. -/
theorem ne_nil_of_mem_spaceForms : ∀ w ∈ spaceForms, w ≠ [] := by decide

/-- No reversed form of a space is empty. -/
theorem ne_nil_of_mem_spaceFormsReversed : ∀ w ∈ spaceFormsReversed, w ≠ [] := by decide

namespace Text

/-- `t` without the one of `forms` that it begins with. -/
def dropForm? (forms : List Text) (t : Text) : Option Text := forms.findSome? (·.isPrefixOf? t)

/-- Dropping a form shortens the text. -/
theorem length_dropForm?_lt {forms : List Text} (hforms : ∀ w ∈ forms, w ≠ []) {t rest : Text}
    (h : dropForm? forms t = some rest) : rest.length < t.length := by
  obtain ⟨w, hw, hr⟩ := List.exists_of_findSome?_eq_some h
  have hpos := List.length_pos_iff.2 (hforms w hw)
  rw [eq_append_of_isPrefixOf? hr, List.length_append]
  omega

/-- `t` without the longest run of `forms` at its start. -/
def dropForms (forms : List Text) (hforms : ∀ w ∈ forms, w ≠ []) (t : Text) : Text :=
  match _ : dropForm? forms t with
  | some rest => dropForms forms hforms rest
  | none => t
termination_by t.length
decreasing_by next h => exact length_dropForm?_lt hforms h

/-- `t` without the white space at its start. -/
def trimStart (t : Text) : Text := dropForms spaceForms ne_nil_of_mem_spaceForms t

/-- `t` without the white space at its end, which comes first when `t` is read backwards. -/
def trimEnd (t : Text) : Text :=
  (dropForms spaceFormsReversed ne_nil_of_mem_spaceFormsReversed t.reverse).reverse

/-- `t` without the white space at its start and its end. -/
def trim (t : Text) : Text := t.trimStart.trimEnd

/-- Whether a text has nothing but white space. -/
def isSpaces (t : Text) : Bool := t.trimStart.isEmpty

/-- The fields of `t` if `word` has already been read of the first. -/
def fieldsFrom (word : Text) (t : Text) : List Text :=
  match _ : dropForm? spaceForms t with
  | some rest => [word].filter (· ≠ []) ++ fieldsFrom [] rest
  | none =>
    match t with
    | [] => [word].filter (· ≠ [])
    | b :: r => fieldsFrom (word ++ [b]) r
termination_by t.length
decreasing_by
  · next h => exact length_dropForm?_lt ne_nil_of_mem_spaceForms h
  · simp

/-- The maximal runs of `t` without white space. -/
def fields (t : Text) : List Text := fieldsFrom [] t

end Text
end ShaderSplice
