import ShaderSplice.Text.Space
import Mathlib.Data.List.Basic
import Mathlib.Data.List.TakeWhile

/-!
# Runs of white space

`Spaces t` says that `t` is white space and nothing else: encodings of space characters, one after
the other. Trimming a text removes the longest such run at an end, and cutting it into fields does
not see one that stands at the end:

    t = t.trimEnd ++ s   with   Spaces s               (`exists_trimEnd_append`)
    (t ++ s).trimEnd = t.trimEnd                       (`trimEnd_append`)
    (t ++ s).fields = t.fields                         (`fields_append`)

All of this holds of texts that are not valid UTF-8 as well, because no form of a space is the
beginning or the end of another, and a form that starts in `t` cannot reach into `s`.
-/

namespace ShaderSplice
namespace Text

/-! ### Runs of forms -/

/-- A text made up of the given forms, one after the other. -/
inductive Run (forms : List Text) : Text → Prop
  | nil : Run forms []
  | cons {w rest : Text} : w ∈ forms → Run forms rest → Run forms (w ++ rest)

variable {forms : List Text}

theorem Run.single {w : Text} (hw : w ∈ forms) : Run forms w := by
  simpa using Run.cons hw Run.nil

theorem Run.append {a b : Text} (ha : Run forms a) (hb : Run forms b) : Run forms (a ++ b) := by
  induction ha with
  | nil => exact hb
  | cons hw _ ih => rw [List.append_assoc]; exact .cons hw ih

/-- A run that is not empty ends with a form. -/
theorem Run.exists_isSuffix {t : Text} (ht : Run forms t) (hne : t ≠ []) :
    ∃ w ∈ forms, w <:+ t := by
  induction ht with
  | nil => exact absurd rfl hne
  | @cons w rest hw _ ih =>
    by_cases hrest : rest = []
    · rw [hrest, List.append_nil]
      exact ⟨w, hw, List.suffix_rfl⟩
    · obtain ⟨v, hv, hsuffix⟩ := ih hrest
      exact ⟨v, hv, hsuffix.trans (List.suffix_append w rest)⟩

/-- What holds of the bytes of all forms holds of the bytes of a run. -/
theorem Run.forall_mem {p : UInt8 → Bool} (hp : ∀ w ∈ forms, w.all p = true) {t : Text}
    (ht : Run forms t) : ∀ b ∈ t, p b = true := by
  induction ht with
  | nil => intro b hb; simp at hb
  | cons hw _ ih =>
    intro b hb
    rcases List.mem_append.1 hb with hb | hb
    · exact List.all_eq_true.1 (hp _ hw) b hb
    · exact ih b hb

theorem Run.reverse {t : Text} (ht : Run forms t) : Run (forms.map List.reverse) t.reverse := by
  induction ht with
  | nil => exact .nil
  | cons hw _ ih =>
    rw [List.reverse_append]
    exact ih.append (.single (List.mem_map_of_mem hw))

theorem run_map_reverse_iff {t : Text} : Run (forms.map List.reverse) t.reverse ↔ Run forms t := by
  refine ⟨fun h => ?_, Run.reverse⟩
  have h' := h.reverse
  have hforms : (forms.map List.reverse).map List.reverse = forms := by
    rw [List.map_map, List.reverse_involutive.comp_self, List.map_id]
  rwa [hforms, List.reverse_reverse] at h'

/-! ### Dropping a run -/

/-- None of the forms is the beginning of another. -/
def PrefixFree (forms : List Text) : Prop := ∀ v ∈ forms, ∀ w ∈ forms, v <+: w → v = w

instance (forms : List Text) : Decidable (PrefixFree forms) :=
  inferInstanceAs (Decidable (∀ v ∈ forms, ∀ w ∈ forms, v <+: w → v = w))

theorem exists_of_dropForm? {t rest : Text} (h : dropForm? forms t = some rest) :
    ∃ w ∈ forms, t = w ++ rest := by
  obtain ⟨w, hw, hr⟩ := List.exists_of_findSome?_eq_some h
  exact ⟨w, hw, eq_append_of_isPrefixOf? hr⟩

/-- A form at the start of a text is the one that is dropped. -/
theorem dropForm?_append (hfree : PrefixFree forms) {w t : Text} (hw : w ∈ forms) :
    dropForm? forms (w ++ t) = some t := by
  have hsome : (dropForm? forms (w ++ t)).isSome := by
    rw [dropForm?, List.findSome?_isSome_iff]
    refine ⟨w, hw, Option.isSome_iff_exists.2 ⟨t, ?_⟩⟩
    rw [List.isPrefixOf?_eq_some_iff_append_eq]
  obtain ⟨rest, hrest⟩ := Option.isSome_iff_exists.1 hsome
  obtain ⟨v, hv, he⟩ := exists_of_dropForm? hrest
  -- both forms begin the same text, so one begins the other
  have hvw : v = w := by
    have hpre : v <+: w ++ t := ⟨rest, he.symm⟩
    rcases List.prefix_or_prefix_of_prefix hpre (List.prefix_append w t) with h | h
    · exact hfree v hv w hw h
    · exact (hfree w hw v hv h).symm
  subst hvw
  rw [hrest, List.append_cancel_left he]

variable (hforms : ∀ w ∈ forms, w ≠ [])

theorem dropForms_of_some {t rest : Text} (h : dropForm? forms t = some rest) :
    dropForms forms hforms t = dropForms forms hforms rest := by
  rw [dropForms]
  split
  · next r hr => rw [h] at hr; cases hr; rfl
  · next hr => rw [h] at hr; cases hr

theorem dropForms_of_none {t : Text} (h : dropForm? forms t = none) :
    dropForms forms hforms t = t := by
  rw [dropForms]
  split
  · next r hr => rw [h] at hr; cases hr
  · rfl

theorem dropForms_append (hfree : PrefixFree forms) {s : Text} (hs : Run forms s) (t : Text) :
    dropForms forms hforms (s ++ t) = dropForms forms hforms t := by
  induction hs with
  | nil => rfl
  | cons hw _ ih =>
    rw [List.append_assoc, dropForms_of_some hforms (dropForm?_append hfree hw), ih]

/-- What is dropped is a run of forms, and no form is left at the start. -/
theorem exists_append_dropForms (t : Text) :
    (∃ s, Run forms s ∧ t = s ++ dropForms forms hforms t) ∧
      dropForm? forms (dropForms forms hforms t) = none := by
  fun_induction dropForms forms hforms t with
  | case1 t rest h ih =>
    obtain ⟨⟨s, hs, he⟩, hnone⟩ := ih
    obtain ⟨w, hw, rfl⟩ := exists_of_dropForm? h
    refine ⟨⟨w ++ s, .cons hw hs, ?_⟩, hnone⟩
    rw [List.append_assoc, ← he]
  | case2 t h => exact ⟨⟨[], .nil, rfl⟩, h⟩

theorem dropForms_eq_nil_iff (hfree : PrefixFree forms) {t : Text} :
    dropForms forms hforms t = [] ↔ Run forms t := by
  constructor
  · intro h
    obtain ⟨⟨s, hs, he⟩, -⟩ := exists_append_dropForms hforms t
    rw [h, List.append_nil] at he
    exact he ▸ hs
  · intro h
    have hnil : dropForm? forms [] = none := by
      rw [Option.eq_none_iff_forall_ne_some]
      intro rest hrest
      have := length_dropForm?_lt hforms hrest
      simp at this
    have := dropForms_append hforms hfree h []
    rwa [List.append_nil, dropForms_of_none hforms hnil] at this

/-! ### White space -/

/-- A text of white space only. -/
def Spaces (t : Text) : Prop := Run spaceForms t

theorem prefixFree_spaceForms : PrefixFree spaceForms := by decide

theorem prefixFree_spaceFormsReversed : PrefixFree spaceFormsReversed := by decide

theorem isSpaces_iff {t : Text} : t.isSpaces = true ↔ Spaces t := by
  rw [isSpaces, List.isEmpty_iff, trimStart]
  exact dropForms_eq_nil_iff _ prefixFree_spaceForms

/-- White space has none of the bytes that no space character has. -/
theorem Spaces.not_mem {b : UInt8} (hb : ∀ w ∈ spaceForms, w.all (· != b) = true) {s : Text}
    (hs : Spaces s) : b ∉ s := by
  intro h
  have hne := Run.forall_mem hb hs b h
  simp at hne

theorem spaces_nil : Spaces [] := .nil

theorem Spaces.append {s s' : Text} (hs : Spaces s) (hs' : Spaces s') : Spaces (s ++ s') :=
  Run.append hs hs'

/-! ### White space at the end -/

theorem trimEnd_append (t : Text) {s : Text} (hs : Spaces s) : (t ++ s).trimEnd = t.trimEnd := by
  rw [trimEnd, trimEnd, List.reverse_append,
    dropForms_append _ prefixFree_spaceFormsReversed (Run.reverse hs)]

theorem exists_trimEnd_append (t : Text) : ∃ s, Spaces s ∧ t = t.trimEnd ++ s := by
  obtain ⟨⟨r, hr, he⟩, -⟩ := exists_append_dropForms ne_nil_of_mem_spaceFormsReversed t.reverse
  refine ⟨r.reverse, ?_, ?_⟩
  · rw [Spaces, ← run_map_reverse_iff, List.reverse_reverse]
    exact hr
  · have he' := congrArg List.reverse he
    rwa [List.reverse_reverse, List.reverse_append] at he'

theorem trimEnd_trimEnd (t : Text) : t.trimEnd.trimEnd = t.trimEnd := by
  obtain ⟨s, hs, he⟩ := exists_trimEnd_append t
  have h := trimEnd_append t.trimEnd hs
  rw [← he] at h
  exact h.symm

theorem trimEnd_eq_nil_iff {t : Text} : t.trimEnd = [] ↔ Spaces t := by
  rw [trimEnd, List.reverse_eq_nil_iff, dropForms_eq_nil_iff _ prefixFree_spaceFormsReversed]
  exact run_map_reverse_iff

theorem isSpaces_congr {t t' : Text} (h : t.trimEnd = t'.trimEnd) : t.isSpaces = t'.isSpaces := by
  rw [Bool.eq_iff_iff, isSpaces_iff, isSpaces_iff, ← trimEnd_eq_nil_iff, h, trimEnd_eq_nil_iff]

/-- Trimming only takes bytes away. -/
theorem trimEnd_isPrefix (t : Text) : t.trimEnd <+: t := by
  obtain ⟨s, -, he⟩ := exists_trimEnd_append t
  exact ⟨s, he.symm⟩

/-- A newline is a space character, and in no other. -/
theorem eq_newline_or_not_mem_of_mem_spaceForms :
    ∀ w ∈ spaceForms, w = [newline] ∨ newline ∉ w := by decide

/-- A text is trimmed if no space character stands at its end. -/
theorem trimEnd_eq_self_iff {t : Text} : t.trimEnd = t ↔ ∀ w ∈ spaceForms, ¬ w <:+ t := by
  constructor
  · rintro htrim w hw ⟨init, rfl⟩
    have hshort := (trimEnd_isPrefix init).length_le
    have hpos := List.length_pos_iff.2 (ne_nil_of_mem_spaceForms w hw)
    rw [trimEnd_append init (Run.single hw)] at htrim
    rw [htrim, List.length_append] at hshort
    omega
  · intro h
    obtain ⟨s, hs, he⟩ := exists_trimEnd_append t
    by_cases hnil : s = []
    · rw [hnil, List.append_nil] at he
      exact he.symm
    · obtain ⟨w, hw, hsuffix⟩ := Run.exists_isSuffix hs hnil
      have hend : s <:+ t := ⟨t.trimEnd, he.symm⟩
      exact absurd (hsuffix.trans hend) (h w hw)

/-! ### Blanks -/

/-- What is trimmed already can be trimmed again below a text. -/
theorem trimEnd_append_trimEnd (t u : Text) : (t ++ u.trimEnd).trimEnd = (t ++ u).trimEnd := by
  obtain ⟨s, hs, he⟩ := exists_trimEnd_append u
  rw [← trimEnd_append (t ++ u.trimEnd) hs, List.append_assoc, ← he]

/-- White space that begins after a newline takes the newline along. -/
theorem trimEnd_append_newline_of_spaces (t : Text) {s : Text} (hs : Spaces s) :
    (t ++ newline :: s).trimEnd = t.trimEnd :=
  trimEnd_append t (.cons (w := [newline]) (by decide) hs)

/-- Anything but white space after a newline protects the newline and what is before it. -/
theorem trimEnd_append_newline_of_not_spaces (t : Text) {u : Text} (hu : ¬ Spaces u) :
    (t ++ newline :: u).trimEnd = t ++ newline :: u.trimEnd := by
  obtain ⟨s, hs, he⟩ := exists_trimEnd_append u
  have hne : u.trimEnd ≠ [] := fun h => hu (trimEnd_eq_nil_iff.1 h)
  have hsplit : t ++ newline :: u = t ++ newline :: u.trimEnd ++ s := by
    rw [List.append_assoc, List.cons_append, ← he]
  rw [hsplit, trimEnd_append _ hs, trimEnd_eq_self_iff]
  intro w hw hsuffix
  -- a space character at the end either stands behind the newline or holds the newline itself
  rcases List.suffix_or_suffix_of_suffix hsuffix (t.suffix_append (newline :: u.trimEnd)) with h | h
  · rcases List.suffix_cons_iff.1 h with rfl | h
    · rcases eq_newline_or_not_mem_of_mem_spaceForms _ hw with h | h
      · exact hne (List.cons.inj h).2
      · exact h List.mem_cons_self
    · exact trimEnd_eq_self_iff.1 (trimEnd_trimEnd u) w hw h
  · rcases eq_newline_or_not_mem_of_mem_spaceForms _ hw with rfl | hnew
    · exact hne (List.eq_nil_of_length_eq_zero (by simpa using h.length_le))
    · exact hnew (h.subset List.mem_cons_self)

theorem spaces_append_newline_iff {t u : Text} :
    Spaces (t ++ newline :: u) ↔ Spaces t ∧ Spaces u := by
  rw [← trimEnd_eq_nil_iff]
  by_cases hu : Spaces u
  · rw [trimEnd_append_newline_of_spaces t hu, trimEnd_eq_nil_iff, and_iff_left hu]
  · rw [trimEnd_append_newline_of_not_spaces t hu]
    simp [hu]

theorem mem_spaceForms_of_isBlankByte {b : UInt8} (hb : isBlankByte b = true) :
    [b] ∈ spaceForms := by
  have hcases : b.toNat = 0x20 ∨ b.toNat = 0x09 ∨ b.toNat = 0x0a ∨ b.toNat = 0x0b ∨
      b.toNat = 0x0c ∨ b.toNat = 0x0d := by
    simp only [isBlankByte, Bool.or_eq_true, beq_iff_eq, Bool.and_eq_true, decide_eq_true_eq,
      UInt8.le_iff_toNat_le, ← UInt8.toNat_inj, UInt8.toNat_ofNat] at hb
    omega
  have hof : b = UInt8.ofNat b.toNat := by simp
  rcases hcases with h | h | h | h | h | h <;> rw [hof, h] <;> decide

theorem spaces_of_blanks {t : Text} (h : ∀ b ∈ t, isBlankByte b = true) : Spaces t := by
  induction t with
  | nil => exact .nil
  | cons b t ih =>
    have hb : [b] ∈ spaceForms := mem_spaceForms_of_isBlankByte (h b (by simp))
    exact Run.cons hb (ih fun c hc => h c (by simp [hc]))

/-- What `dropEndWhile` drops satisfies the predicate. -/
theorem exists_dropEndWhile_append (p : UInt8 → Bool) (t : Text) :
    ∃ s, (∀ b ∈ s, p b = true) ∧ t = t.dropEndWhile p ++ s := by
  refine ⟨(t.reverse.takeWhile p).reverse, ?_, ?_⟩
  · intro b hb
    exact List.mem_takeWhile_imp (List.mem_reverse.1 hb)
  · rw [dropEndWhile, ← List.reverse_append, List.takeWhile_append_dropWhile, List.reverse_reverse]

theorem dropEndWhile_append {p : UInt8 → Bool} {s : Text} (hs : ∀ b ∈ s, p b = true) (t : Text) :
    (t ++ s).dropEndWhile p = t.dropEndWhile p := by
  have hrev : ∀ b ∈ s.reverse, p b = true := fun b hb => hs b (List.mem_reverse.1 hb)
  rw [dropEndWhile, List.reverse_append, List.dropWhile_append_of_pos hrev, dropEndWhile]

/-- A text that ends with a byte of no space character is not trimmed. -/
theorem trimEnd_eq_self {t : Text} {b : UInt8} (hlast : t.getLast? = some b)
    (hb : ∀ w ∈ spaceForms, w.all (· != b) = true) : t.trimEnd = t := by
  rw [trimEnd_eq_self_iff]
  rintro w hw ⟨init, rfl⟩
  rw [List.getLast?_append_of_ne_nil _ (ne_nil_of_mem_spaceForms w hw)] at hlast
  have hne := List.all_eq_true.1 (hb w hw) b (List.mem_of_getLast? hlast)
  simp at hne

/-! ### Fields -/

/-- The bytes that continue a character and start none. -/
def isContinuation (b : UInt8) : Bool := 0x80 ≤ b && b ≤ 0xbf

theorem isContinuation_of_mem_tail :
    ∀ w ∈ spaceForms, w.tail.all isContinuation = true := by decide

/-- The first byte of a space character continues no other. -/
theorem isContinuation_head_of_isPrefix {w t : Text} (hw : w ∈ spaceForms) (h : w <+: t) :
    ∀ b ∈ t.head?, isContinuation b = false := by
  have hhead : ∀ w ∈ spaceForms, w.head?.all (fun c => !isContinuation c) = true := by decide
  obtain ⟨rest, rfl⟩ := h
  cases w with
  | nil => exact absurd rfl (ne_nil_of_mem_spaceForms _ hw)
  | cons c w =>
    intro b hb
    cases hb
    simpa using hhead _ hw

theorem Spaces.isContinuation_head {s : Text} (hs : Spaces s) :
    ∀ b ∈ s.head?, isContinuation b = false := by
  cases hs with
  | nil =>
    intro b hb
    cases hb
  | cons hw _ => exact isContinuation_head_of_isPrefix hw (List.prefix_append _ _)

/-- A space character that starts in `t` does not reach into a text that starts with a character. -/
theorem dropForm?_append_of_head {t s : Text} (ht : t ≠ [])
    (hs : ∀ b ∈ s.head?, isContinuation b = false) :
    dropForm? spaceForms (t ++ s) = (dropForm? spaceForms t).map (· ++ s) := by
  cases h : dropForm? spaceForms t with
  | some rest =>
    obtain ⟨w, hw, rfl⟩ := exists_of_dropForm? h
    rw [List.append_assoc, dropForm?_append prefixFree_spaceForms hw]
    rfl
  | none =>
    rw [Option.map_none, Option.eq_none_iff_forall_ne_some]
    intro rest hrest
    obtain ⟨w, hw, he⟩ := exists_of_dropForm? hrest
    rcases List.append_eq_append_iff.1 he with ⟨u, rfl, hu⟩ | ⟨u, rfl, -⟩
    · -- the form would have to go on with the first byte of `s`
      cases u with
      | nil =>
        rw [List.append_nil] at hw
        have hdrop := dropForm?_append prefixFree_spaceForms (t := []) hw
        rw [List.append_nil, h] at hdrop
        cases hdrop
      | cons b u =>
        obtain ⟨c, t, rfl⟩ := List.exists_cons_of_ne_nil ht
        have hcont : isContinuation b = true :=
          List.all_eq_true.1 (isContinuation_of_mem_tail _ hw) b (by simp)
        rw [hs b (by rw [hu]; rfl)] at hcont
        cases hcont
    · rw [dropForm?_append prefixFree_spaceForms hw] at h
      cases h

theorem fieldsFrom_of_some {word t rest : Text} (h : dropForm? spaceForms t = some rest) :
    fieldsFrom word t = [word].filter (· ≠ []) ++ fieldsFrom [] rest := by
  rw [fieldsFrom]
  split
  · next r hr => rw [h] at hr; cases hr; rfl
  · next hr => rw [h] at hr; cases hr

theorem fieldsFrom_cons_of_none {word t : Text} {b : UInt8}
    (h : dropForm? spaceForms (b :: t) = none) :
    fieldsFrom word (b :: t) = fieldsFrom (word ++ [b]) t := by
  rw [fieldsFrom]
  split
  · next r hr => rw [h] at hr; cases hr
  · rfl

theorem fieldsFrom_spaces (word : Text) {s : Text} (hs : Spaces s) :
    fieldsFrom word s = [word].filter (· ≠ []) := by
  have hnil : dropForm? spaceForms [] = none := by decide
  induction hs generalizing word with
  | nil =>
    rw [fieldsFrom]
    split
    · next r hr => rw [hnil] at hr; cases hr
    · rfl
  | cons hw _ ih =>
    rw [fieldsFrom_of_some (dropForm?_append prefixFree_spaceForms hw), ih]
    simp

/-- No field is empty. -/
theorem ne_nil_of_mem_fieldsFrom {word t w : Text} (h : w ∈ fieldsFrom word t) : w ≠ [] := by
  have hword {word : Text} (h : w ∈ [word].filter (· ≠ [])) : w ≠ [] := by
    simpa using (List.mem_filter.1 h).2
  fun_induction fieldsFrom word t with
  | case1 word t rest _ ih =>
    rcases List.mem_append.1 h with h | h
    · exact hword h
    · exact ih h
  | case2 word _ => exact hword h
  | case3 word b rest _ ih => exact ih h

theorem fieldsFrom_append (word t : Text) {s : Text} (hs : Spaces s) :
    fieldsFrom word (t ++ s) = fieldsFrom word t := by
  fun_induction fieldsFrom word t with
  | case1 word t rest h ih =>
    have ht : t ≠ [] := by
      rintro rfl
      have := length_dropForm?_lt ne_nil_of_mem_spaceForms h
      simp at this
    rw [fieldsFrom_of_some (by rw [dropForm?_append_of_head ht hs.isContinuation_head, h]; rfl), ih]
  | case2 word h => rw [List.nil_append, fieldsFrom_spaces word hs]
  | case3 word b r h ih =>
    have hnone : dropForm? spaceForms (b :: (r ++ s)) = none := by
      rw [← List.cons_append, dropForm?_append_of_head (by simp) hs.isContinuation_head, h]
      rfl
    rw [List.cons_append, fieldsFrom_cons_of_none hnone, ih]

theorem fields_append (t : Text) {s : Text} (hs : Spaces s) : (t ++ s).fields = t.fields :=
  fieldsFrom_append [] t hs

/-- Nor do fields see white space at the start. -/
theorem fields_prepend {s : Text} (hs : Spaces s) (t : Text) : (s ++ t).fields = t.fields := by
  induction hs with
  | nil => rfl
  | cons hw _ ih =>
    rw [List.append_assoc, fields, fieldsFrom_of_some (dropForm?_append prefixFree_spaceForms hw)]
    exact ih

theorem fields_dropWhile_isBlankByte (t : Text) : fields (t.dropWhile isBlankByte) = t.fields := by
  have hblank : Spaces (t.takeWhile isBlankByte) :=
    spaces_of_blanks fun b hb => List.mem_takeWhile_imp hb
  rw [← fields_prepend hblank, List.takeWhile_append_dropWhile]

theorem fields_dropEndWhile_isBlankByte (t : Text) :
    fields (t.dropEndWhile isBlankByte) = t.fields := by
  obtain ⟨s, hs, he⟩ := exists_dropEndWhile_append isBlankByte t
  rw [← fields_append _ (spaces_of_blanks hs), ← he]

end Text
end ShaderSplice
