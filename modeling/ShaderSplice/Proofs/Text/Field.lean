import ShaderSplice.Proofs.Text.Space

/-!
# The fields of a text

`HasFields t ws` says that `t` is made up of the fields `ws`, in this order, and of white space. The
fields are what white space leaves:

    t = s₀ ++ w₁ ++ s₁ ++ w₂ ++ s₂ ++ ⋯ ++ wₙ ++ sₙ       ws = [w₁, w₂, …, wₙ]

where the `sᵢ` are white space, only `s₀` and `sₙ` may be empty, and there is no white space in the
`wᵢ`, none of which is empty. A text is made up like this in one way, which cutting it into fields
finds (`fields_eq_iff`).

A text need not be valid UTF-8. A space character is found wherever its encoding stands; what could
go wrong is that it starts in a field and ends after it, and it cannot, for it would have to go on
with the first byte of another.
-/

namespace ShaderSplice
namespace Text

/-- A text without white space that is not empty. -/
structure IsField (w : Text) : Prop where
  ne_nil : w ≠ []
  not_infix : ∀ form ∈ spaceForms, ¬ form <:+: w

/-- `t` is the end of a text, or white space is at its start. -/
def EndsField (t : Text) : Prop := t = [] ∨ ∃ form ∈ spaceForms, form <+: t

/-- The text is made up of the fields and of white space. -/
inductive HasFields : Text → List Text → Prop
  | nil : HasFields [] []
  | space {form t : Text} {ws : List Text} : form ∈ spaceForms → HasFields t ws →
      HasFields (form ++ t) ws
  | field {w t : Text} {ws : List Text} : IsField w → EndsField t → HasFields t ws →
      HasFields (w ++ t) (w :: ws)

/-! ### What is made up of fields is cut into them -/

theorem EndsField.isContinuation_head {t : Text} (h : EndsField t) :
    ∀ b ∈ t.head?, isContinuation b = false := by
  rcases h with rfl | ⟨form, hform, hpre⟩
  · intro b hb
    cases hb
  · exact isContinuation_head_of_isPrefix hform hpre

/-- A text without white space is read to its end. -/
theorem fieldsFrom_append_of_not_infix (word : Text) {w t : Text}
    (hw : ∀ form ∈ spaceForms, ¬ form <:+: w) (ht : EndsField t) :
    fieldsFrom word (w ++ t) = fieldsFrom (word ++ w) t := by
  induction w generalizing word with
  | nil => simp
  | cons b w ih =>
    have hnone : dropForm? spaceForms (b :: w) = none := by
      rw [Option.eq_none_iff_forall_ne_some]
      intro rest hrest
      obtain ⟨form, hform, he⟩ := exists_of_dropForm? hrest
      exact hw form hform ⟨[], rest, by simp [he]⟩
    have hnone' : dropForm? spaceForms (b :: (w ++ t)) = none := by
      rw [← List.cons_append, dropForm?_append_of_head (by simp) ht.isContinuation_head, hnone]
      rfl
    have hw' : ∀ form ∈ spaceForms, ¬ form <:+: w := fun form hform h =>
      hw form hform (h.trans (List.suffix_cons b w).isInfix)
    rw [List.cons_append, fieldsFrom_cons_of_none hnone', ih _ hw', List.append_assoc]
    rfl

/-- A field that has been read is the first one. -/
theorem fieldsFrom_of_endsField {w t : Text} (hne : w ≠ []) (ht : EndsField t) :
    fieldsFrom w t = w :: t.fields := by
  have hword : [w].filter (· ≠ []) = [w] := by simp [hne]
  rcases ht with rfl | ⟨form, hform, rest, rfl⟩
  · rw [fields, fieldsFrom_spaces w spaces_nil, fieldsFrom_spaces [] spaces_nil, hword]
    rfl
  · have hdrop := dropForm?_append prefixFree_spaceForms (t := rest) hform
    rw [fields, fieldsFrom_of_some hdrop, fieldsFrom_of_some hdrop, hword]
    rfl

theorem HasFields.fields_eq {t : Text} {ws : List Text} (h : HasFields t ws) : t.fields = ws := by
  induction h with
  | nil => exact fieldsFrom_spaces [] spaces_nil
  | space hform _ ih => rw [fields_prepend (Run.single hform), ih]
  | field hw ht _ ih =>
    rw [fields, fieldsFrom_append_of_not_infix [] hw.not_infix ht, List.nil_append,
      fieldsFrom_of_endsField hw.ne_nil ht, ih]

/-! ### What a text is cut into makes it up -/

/-- No white space starts in `word` where `t` follows it. -/
def NoneStarts (word t : Text) : Prop :=
  ∀ u v, word = u ++ v → v ≠ [] → dropForm? spaceForms (v ++ t) = none

theorem noneStarts_nil (t : Text) : NoneStarts [] t := by
  intro u v he hv
  exact absurd (List.append_eq_nil_iff.1 he.symm).2 hv

theorem NoneStarts.not_infix {word t : Text} (h : NoneStarts word t) :
    ∀ form ∈ spaceForms, ¬ form <:+: word := by
  rintro form hform ⟨u, v, rfl⟩
  have hnone := h u (form ++ v) (by simp) (by simp [ne_nil_of_mem_spaceForms form hform])
  rw [List.append_assoc, dropForm?_append prefixFree_spaceForms hform] at hnone
  cases hnone

/-- One byte more is read. -/
theorem NoneStarts.snoc {word t : Text} {b : UInt8} (h : NoneStarts word (b :: t))
    (hb : dropForm? spaceForms (b :: t) = none) : NoneStarts (word ++ [b]) t := by
  intro u v he hv
  obtain ⟨v, c, rfl⟩ := (List.eq_nil_or_concat' v).resolve_left hv
  rw [← List.append_assoc] at he
  obtain ⟨hword, hc⟩ := List.append_inj' he rfl
  cases hc
  rw [List.append_assoc, List.singleton_append]
  by_cases hnil : v = []
  · rw [hnil]
    exact hb
  · exact h u v hword hnil

/-- A word that is read makes up a field if anything of it is there. -/
theorem HasFields.of_word {word t : Text} {ws : List Text} (hword : NoneStarts word t)
    (ht : EndsField t) (h : HasFields t ws) :
    HasFields (word ++ t) ([word].filter (· ≠ []) ++ ws) := by
  by_cases hne : word = []
  · simpa [hne] using h
  · simpa [hne] using HasFields.field ⟨hne, hword.not_infix⟩ ht h

/-- The invariant of cutting a text: white space starts nowhere in the word that is being read. -/
theorem hasFields_fieldsFrom {word t : Text} (h : NoneStarts word t) :
    HasFields (word ++ t) (fieldsFrom word t) := by
  fun_induction fieldsFrom word t with
  | case1 word t rest hdrop ih =>
    obtain ⟨form, hform, rfl⟩ := exists_of_dropForm? hdrop
    have ht : EndsField (form ++ rest) := .inr ⟨form, hform, List.prefix_append _ _⟩
    exact .of_word h ht (.space hform (ih (noneStarts_nil rest)))
  | case2 word _ => simpa using HasFields.of_word h (.inl rfl) .nil
  | case3 word b rest hnone ih => simpa using ih (h.snoc hnone)

/-- Cutting a text into fields finds the fields that it is made up of. -/
theorem fields_eq_iff {t : Text} {ws : List Text} : t.fields = ws ↔ HasFields t ws := by
  refine ⟨?_, HasFields.fields_eq⟩
  rintro rfl
  exact hasFields_fieldsFrom (noneStarts_nil t)

end Text
end ShaderSplice
