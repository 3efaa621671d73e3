import ShaderSplice.Directive
import ShaderSplice.Proofs.Text.Space

/-!
# Directives and the white space after them

A directive is recognised by ASCII blanks, while lines are trimmed of all white space. The name of
a directive and the version that it declares do not depend on white space at the end
(`directiveName?_congr`, `declaredVersion?_congr`): the name ends before it, and the fields of the
argument do not see it. The target of an include directive may depend on it, for the closing mark
must be the last byte before the blanks.
-/

namespace ShaderSplice

/-- The name of the directive that comment-free code makes up. -/
def directiveName? (code : Text) : Option Text := (Directive.parse? code).map Directive.name

/-! ### What a directive needs -/

theorem parse?_eq_none_of_no_mark {code : Text} (h : 0x23 ∉ code) :
    Directive.parse? code = none := by
  rw [Directive.parse?]
  split
  · next afterMark hm =>
    have hmem : (0x23 : UInt8) ∈ code.dropWhile isBlankByte := by rw [hm]; simp
    exact absurd ((List.dropWhile_sublist _).subset hmem) h
  · rfl

/-- White space has no mark of a directive in it. -/
theorem Text.Spaces.mark_not_mem {s : Text} (hs : Text.Spaces s) : 0x23 ∉ s :=
  hs.not_mem (by decide)

/-- White space is no directive. -/
theorem Text.Spaces.parse?_eq_none {s : Text} (hs : Text.Spaces s) :
    Directive.parse? s = none :=
  parse?_eq_none_of_no_mark hs.mark_not_mem

/-- An argument is an include target if marks stand around it. -/
theorem Directive.include?_eq_some_iff {d : Directive} {target : Text} :
    d.include? = some target ↔
      d.name = Text.ofString "include" ∧ d.spaced = true ∧
        ∃ left right, (left, right) ∈ targetMarks ∧ d.arg = left :: target ++ [right] ∧
          target ≠ [] ∧ ∀ b ∈ target, isPrintableByte b = true := by
  constructor
  · intro h
    simp only [include?, Option.ite_none_right_eq_some, Option.some.injEq] at h
    obtain ⟨⟨hname, hspaced, hlength⟩, ⟨hmarks, hprintable⟩, rfl⟩ := h
    obtain ⟨⟨left, right⟩, hmem, hends⟩ := List.mem_map.1 hmarks
    obtain ⟨hhead, hlast⟩ := Prod.mk.inj hends
    refine ⟨hname, hspaced, left, right, hmem, ?_, ?_, List.all_eq_true.1 hprintable⟩
    · -- the argument is its first byte, its last byte and what stands between them
      obtain ⟨tail, harg⟩ := List.head?_eq_some_iff.1 hhead.symm
      rw [harg] at hlast hlength ⊢
      have hne : tail ≠ [] := by
        rintro rfl
        simp at hlength
      obtain ⟨b, tail, rfl⟩ := List.exists_cons_of_ne_nil hne
      rw [List.getLast?_cons_cons] at hlast
      obtain ⟨middle, hmiddle⟩ := List.getLast?_eq_some_iff.1 hlast.symm
      simp [hmiddle]
    · intro hnil
      have hzero := congrArg List.length hnil
      simp only [List.length_dropLast, List.length_tail, List.length_nil] at hzero
      omega
  · rintro ⟨hname, hspaced, left, right, hmem, harg, hne, hprintable⟩
    have hlength : 3 ≤ d.arg.length := by
      have hpos := List.length_pos_iff.2 hne
      simp only [harg, List.length_cons, List.length_append, List.length_nil]
      omega
    have hends : (d.arg.head?, d.arg.getLast?) = (some left, some right) := by
      rw [harg, List.cons_append, List.getLast?_cons, List.getLast?_append]
      simp
    have htarget : d.arg.tail.dropLast = target := by simp [harg]
    simp only [include?, hname, hspaced, hlength, hends, htarget, and_self, ite_true]
    rw [if_pos ⟨List.mem_map_of_mem hmem, List.all_eq_true.2 hprintable⟩]

/-- A line that names an include target declares no version. -/
theorem declaredVersion?_eq_none_of_includeTarget? {code target : Text}
    (h : includeTarget? code = some target) : declaredVersion? code = none := by
  obtain ⟨d, hd, hi⟩ := Option.bind_eq_some_iff.1 h
  have hne : d.name ≠ Text.ofString "version" := by
    rw [(Directive.include?_eq_some_iff.1 hi).1]
    decide
  simp [declaredVersion?, hd, Directive.version?, hne]

theorem not_spaces_of_includeTarget? {code target : Text}
    (h : includeTarget? code = some target) : ¬ Text.Spaces code := by
  intro hs
  rw [includeTarget?, hs.parse?_eq_none] at h
  cases h

theorem not_spaces_of_declaredVersion? {code version : Text}
    (h : declaredVersion? code = some version) : ¬ Text.Spaces code := by
  intro hs
  rw [declaredVersion?, hs.parse?_eq_none] at h
  cases h

/-! ### How a version is spelled -/

theorem isWordByte_of_isDigitByte {b : UInt8} (h : isDigitByte b = true) : isWordByte b = true := by
  rw [isDigitByte] at h
  rw [isWordByte, h, Bool.or_true]

theorem isWordByte_of_mem_profiles {profile : Text} (h : profile ∈ profiles) :
    ∀ b ∈ profile, isWordByte b = true := by
  have hprofile : ∀ profile ∈ profiles, profile.all isWordByte = true := by decide
  exact List.all_eq_true.1 (hprofile profile h)

/-- The one spelling of a version: its number, and its profile after a single space. -/
inductive VersionSpelling : Text → Prop
  | bare {number : Text} : number ≠ [] → (∀ b ∈ number, isDigitByte b = true) →
      VersionSpelling number
  | profiled {number profile : Text} : number ≠ [] → (∀ b ∈ number, isDigitByte b = true) →
      profile ∈ profiles → VersionSpelling (number ++ Text.space :: profile)

/-- The spelling of a version. -/
def versionText (number : Text) : (profile? : Option Text) → Text
  | none => number
  | some profile => number ++ Text.space :: profile

theorem Directive.version?_of_fields {d : Directive} (hname : d.name = Text.ofString "version")
    (hspaced : d.spaced = true) {number : Text} {more : List Text}
    (hfields : d.arg.fields = number :: more) :
    d.version? =
      if number.all isDigitByte then some (versionText number (more.head?.filter (· ∈ profiles)))
      else none := by
  rw [version?, if_pos ⟨hname, hspaced⟩, hfields]
  cases more with
  | nil => rfl
  | cons profile more =>
    have hfilter : (some profile).filter (· ∈ profiles) =
        if profile ∈ profiles then some profile else none := by simp [Option.filter_some]
    dsimp only
    rw [List.head?_cons, hfilter]
    by_cases hmem : profile ∈ profiles
    · simp only [if_pos hmem, versionText]
    · simp only [if_neg hmem, versionText]

/-- A directive declares a version if its first field is a number. -/
theorem Directive.version?_eq_some_iff {d : Directive} {v : Text} :
    d.version? = some v ↔
      d.name = Text.ofString "version" ∧ d.spaced = true ∧
        ∃ number more, d.arg.fields = number :: more ∧ (∀ b ∈ number, isDigitByte b = true) ∧
          v = versionText number (more.head?.filter (· ∈ profiles)) := by
  constructor
  · intro h
    have hdeclares := h
    rw [version?, Option.ite_none_right_eq_some] at h
    obtain ⟨⟨hname, hspaced⟩, h⟩ := h
    cases hfields : d.arg.fields with
    | nil =>
      rw [hfields] at h
      cases h
    | cons number more =>
      rw [version?_of_fields hname hspaced hfields, Option.ite_none_right_eq_some,
        Option.some.injEq] at hdeclares
      obtain ⟨hdigits, rfl⟩ := hdeclares
      exact ⟨hname, hspaced, number, more, rfl, List.all_eq_true.1 hdigits, rfl⟩
  · rintro ⟨hname, hspaced, number, more, hfields, hdigits, rfl⟩
    rw [version?_of_fields hname hspaced hfields, if_pos (List.all_eq_true.2 hdigits)]

/-- What a directive declares is spelled as a version. -/
theorem versionSpelling_of_declaredVersion? {code version : Text}
    (h : declaredVersion? code = some version) : VersionSpelling version := by
  obtain ⟨d, -, hv⟩ := Option.bind_eq_some_iff.1 h
  obtain ⟨-, -, number, more, hfields, hdigits, rfl⟩ := Directive.version?_eq_some_iff.1 hv
  have hmem : number ∈ d.arg.fields := by
    rw [hfields]
    exact List.mem_cons_self
  have hne : number ≠ [] := Text.ne_nil_of_mem_fieldsFrom hmem
  cases hprofile : more.head?.filter (· ∈ profiles) with
  | none => exact .bare hne hdigits
  | some profile =>
    have hmem := (Option.filter_eq_some_iff.1 hprofile).2
    exact .profiled hne hdigits (by simpa using hmem)

/-- A version is written with digits, the letters of a profile and a space. -/
theorem VersionSpelling.bytes {version : Text} (h : VersionSpelling version) :
    ∀ b ∈ version, isWordByte b = true ∨ b = Text.space := by
  cases h with
  | bare _ hdigits => exact fun b hb => .inl (isWordByte_of_isDigitByte (hdigits b hb))
  | profiled _ hdigits hprofile =>
    intro b hb
    rcases List.mem_append.1 hb with hb | hb
    · exact .inl (isWordByte_of_isDigitByte (hdigits b hb))
    · rcases List.mem_cons.1 hb with hb | hb
      · exact .inr hb
      · exact .inl (isWordByte_of_mem_profiles hprofile b hb)

/-! ### White space at the end -/

/-- Two directives that only differ in the white space at the end of their lines. -/
structure Directive.Agree (d d' : Directive) : Prop where
  name : d.name = d'.name
  fields : d.arg.fields = d'.arg.fields
  /-- A blank can only be what separates the name from nothing. -/
  spaced : d.spaced = d'.spaced ∨ d.arg.fields = []

theorem Directive.Agree.symm {d d' : Directive} (h : d.Agree d') : d'.Agree d where
  name := h.name.symm
  fields := h.fields.symm
  spaced := h.spaced.imp Eq.symm fun hf => h.fields ▸ hf

theorem Directive.Agree.trans {d d' d'' : Directive} (h : d.Agree d') (h' : d'.Agree d'') :
    d.Agree d'' where
  name := h.name.trans h'.name
  fields := h.fields.trans h'.fields
  spaced := by
    rcases h.spaced with hs | hs
    · exact h'.spaced.imp hs.trans fun hf => h.fields.trans hf
    · exact .inr hs

theorem Directive.Agree.version? {d d' : Directive} (h : d.Agree d') :
    d.version? = d'.version? := by
  rcases h.spaced with hs | hs
  · rw [Directive.version?, Directive.version?, h.name, hs, h.fields]
  · have hs' : d'.arg.fields = [] := by rw [← h.fields, hs]
    simp [Directive.version?, hs, hs']

theorem dropWhile_append_of_forall {p : UInt8 → Bool} {s : Text} (hs : ∀ b ∈ s, p b = false)
    (t : Text) : (t ++ s).dropWhile p = t.dropWhile p ++ s := by
  induction t with
  | nil =>
    cases s with
    | nil => rfl
    | cons b s => simp [hs b (by simp)]
  | cons a t ih =>
    rw [List.cons_append, List.dropWhile_cons, List.dropWhile_cons]
    split
    · exact ih
    · rfl

theorem takeWhile_append_of_forall {p : UInt8 → Bool} {s : Text} (hs : ∀ b ∈ s, p b = false)
    (t : Text) : (t ++ s).takeWhile p = t.takeWhile p := by
  induction t with
  | nil =>
    cases s with
    | nil => rfl
    | cons b s => simp [hs b (by simp)]
  | cons a t ih =>
    rw [List.cons_append, List.takeWhile_cons, List.takeWhile_cons, ih]

/-- What is read of a directive after its mark. -/
def Directive.ofWords (s : Text) : Option Directive :=
  let name := s.takeWhile isWordByte
  let rest := s.dropWhile isWordByte
  if name = [] then none
  else some
    { name
      arg := Text.dropEndWhile isBlankByte (rest.dropWhile isBlankByte)
      spaced := rest.head?.any isBlankByte }

theorem parse?_of_mark {code afterMark : Text}
    (h : code.dropWhile isBlankByte = 0x23 :: afterMark) :
    Directive.parse? code = Directive.ofWords (afterMark.dropWhile isBlankByte) := by
  rw [Directive.parse?]
  simp only [h, Directive.ofWords]

theorem parse?_of_no_mark {code more : Text} {b : UInt8}
    (h : code.dropWhile isBlankByte = b :: more) (hb : b ≠ 0x23) :
    Directive.parse? code = none := by
  rw [Directive.parse?]
  split
  · next afterMark hm => rw [h] at hm; cases hm; exact absurd rfl hb
  · rfl

theorem ofWords_eq_none {t : Text} (h : ∀ b ∈ t, isWordByte b = false) :
    Directive.ofWords t = none := by
  have hname := takeWhile_append_of_forall h []
  rw [List.nil_append] at hname
  simp [Directive.ofWords, hname]

/-- No byte of white space is part of a word. -/
theorem Text.Spaces.not_isWordByte {s : Text} (hs : Text.Spaces s) :
    ∀ b ∈ s, isWordByte b = false := by
  have hword : ∀ w ∈ spaceForms, w.all (fun b => !isWordByte b) = true := by decide
  intro b hb
  simpa using Text.Run.forall_mem hword hs b hb

/-- The directive with the given name, after which `rest` follows. -/
def Directive.ofRest (name rest : Text) : Directive where
  name := name
  arg := Text.dropEndWhile isBlankByte (rest.dropWhile isBlankByte)
  spaced := rest.head?.any isBlankByte

theorem Directive.agree_ofRest_append (name rest : Text) {s : Text} (hs : Text.Spaces s) :
    (Directive.ofRest name (rest ++ s)).Agree (Directive.ofRest name rest) := by
  have hfields (u : Text) :
      (Text.dropEndWhile isBlankByte (u.dropWhile isBlankByte)).fields = u.fields := by
    rw [Text.fields_dropEndWhile_isBlankByte, Text.fields_dropWhile_isBlankByte]
  refine ⟨rfl, ?_, ?_⟩
  · simp only [Directive.ofRest, hfields]
    exact Text.fields_append _ hs
  · simp only [Directive.ofRest, hfields]
    cases rest with
    | nil => exact .inr (Text.fieldsFrom_spaces [] hs)
    | cons b r => exact .inl rfl

theorem ofWords_append (t : Text) {s : Text} (hs : Text.Spaces s) :
    (Directive.ofWords (t ++ s) = none ∧ Directive.ofWords t = none) ∨
      ∃ name rest, Directive.ofWords (t ++ s) = some (.ofRest name (rest ++ s)) ∧
        Directive.ofWords t = some (.ofRest name rest) := by
  have hall := hs.not_isWordByte
  simp only [Directive.ofWords, takeWhile_append_of_forall hall, dropWhile_append_of_forall hall]
  by_cases hname : t.takeWhile isWordByte = []
  · simp [hname]
  · rw [if_neg hname, if_neg hname]
    exact .inr ⟨_, _, rfl, rfl⟩

/-- White space after a directive joins what follows its name. -/
theorem parse?_append (code : Text) {s : Text} (hs : Text.Spaces s) :
    (Directive.parse? (code ++ s) = none ∧ Directive.parse? code = none) ∨
      ∃ name rest, Directive.parse? (code ++ s) = some (.ofRest name (rest ++ s)) ∧
        Directive.parse? code = some (.ofRest name rest) := by
  cases h : code.dropWhile isBlankByte with
  | nil =>
    have hcode : Text.Spaces code :=
      Text.spaces_of_blanks (List.dropWhile_eq_nil_iff.1 h)
    exact .inl ⟨(hcode.append hs).parse?_eq_none, hcode.parse?_eq_none⟩
  | cons b rest =>
    have h' : (code ++ s).dropWhile isBlankByte = b :: (rest ++ s) := by
      rw [List.dropWhile_append, h]
      rfl
    by_cases hb : b = 0x23
    · subst hb
      rw [parse?_of_mark h, parse?_of_mark h', List.dropWhile_append]
      cases hrest : rest.dropWhile isBlankByte with
      | nil =>
        -- nothing but blanks after the mark, so no name either
        refine .inl ⟨ofWords_eq_none ?_, rfl⟩
        intro c hc
        exact hs.not_isWordByte c ((List.dropWhile_sublist _).subset hc)
      | cons c more => exact ofWords_append (c :: more) hs
    · exact .inl ⟨parse?_of_no_mark h' hb, parse?_of_no_mark h hb⟩

/-- Codes that are equal up to white space at the end make up directives that agree. -/
theorem parse?_congr {code code' : Text} (h : code.trimEnd = code'.trimEnd) :
    (Directive.parse? code = none ∧ Directive.parse? code' = none) ∨
      ∃ d d', Directive.parse? code = some d ∧ Directive.parse? code' = some d' ∧
        d.Agree d' := by
  obtain ⟨s, hs, hcode⟩ := Text.exists_trimEnd_append code
  obtain ⟨s', hs', hcode'⟩ := Text.exists_trimEnd_append code'
  have h₁ := parse?_append code.trimEnd hs
  have h₂ := parse?_append code'.trimEnd hs'
  rw [← hcode] at h₁
  rw [← hcode', ← h] at h₂
  rcases h₁ with ⟨hn, ht⟩ | ⟨name, rest, hd, he⟩
  · rcases h₂ with ⟨hn', -⟩ | ⟨name', rest', -, he'⟩
    · exact .inl ⟨hn, hn'⟩
    · rw [ht] at he'; cases he'
  · rcases h₂ with ⟨-, ht'⟩ | ⟨name', rest', hd', he'⟩
    · rw [ht'] at he; cases he
    · have hagree := Directive.agree_ofRest_append name rest hs
      rw [Option.some.inj (he.symm.trans he')] at hagree
      exact .inr ⟨_, _, hd, hd', hagree.trans (Directive.agree_ofRest_append name' rest' hs').symm⟩

theorem directiveName?_congr {code code' : Text} (h : code.trimEnd = code'.trimEnd) :
    directiveName? code = directiveName? code' := by
  rcases parse?_congr h with ⟨hn, hn'⟩ | ⟨d, d', hd, hd', hagree⟩
  · rw [directiveName?, directiveName?, hn, hn']
  · rw [directiveName?, directiveName?, hd, hd', Option.map_some, Option.map_some, hagree.name]

theorem declaredVersion?_congr {code code' : Text} (h : code.trimEnd = code'.trimEnd) :
    declaredVersion? code = declaredVersion? code' := by
  rcases parse?_congr h with ⟨hn, hn'⟩ | ⟨d, d', hd, hd', hagree⟩
  · rw [declaredVersion?, declaredVersion?, hn, hn']
  · rw [declaredVersion?, declaredVersion?, hd, hd']
    exact hagree.version?

/-! ### The shape of a directive -/

theorem takeWhile_append_of_head {p : UInt8 → Bool} {s t : Text} (hs : ∀ b ∈ s, p b = true)
    (ht : ∀ b ∈ t.head?, p b = false) : (s ++ t).takeWhile p = s := by
  rw [List.takeWhile_append_of_pos hs]
  cases t with
  | nil => simp
  | cons b t => simp [ht b rfl]

theorem dropWhile_append_of_head {p : UInt8 → Bool} {s t : Text} (hs : ∀ b ∈ s, p b = true)
    (ht : ∀ b ∈ t.head?, p b = false) : (s ++ t).dropWhile p = t := by
  rw [List.dropWhile_append_of_pos hs]
  cases t with
  | nil => rfl
  | cons b t => simp [ht b rfl]

theorem isBlankByte_eq_false_of_isWordByte {b : UInt8} (hb : isWordByte b = true) :
    isBlankByte b = false := by
  rw [← Bool.not_eq_true]
  intro hblank
  have hspaces : Text.Spaces [b] := Text.Run.single (Text.mem_spaceForms_of_isBlankByte hblank)
  rw [hspaces.not_isWordByte b List.mem_cons_self] at hb
  cases hb

/-- A text of blanks. -/
def Blanks (t : Text) : Prop := ∀ b ∈ t, isBlankByte b = true

theorem blanks_nil : Blanks [] := by simp [Blanks]

/-- `code` is the mark, the name of a directive and then `rest`, with blanks before and after the
mark. -/
inductive Directive.Shape (name rest : Text) : (code : Text) → Prop
  | mk {lead gap : Text} : Blanks lead → Blanks gap → name ≠ [] →
      (∀ b ∈ name, isWordByte b = true) → (∀ b ∈ rest.head?, isWordByte b = false) →
      Shape name rest (lead ++ 0x23 :: (gap ++ (name ++ rest)))

/-- Code of that shape is a directive, and the name is all of the first word. -/
theorem Directive.Shape.parse?_eq {name rest code : Text} (h : Shape name rest code) :
    parse? code = some (.ofRest name rest) := by
  obtain ⟨hlead, hgap, hne, hname, hrest⟩ := h
  rename_i lead gap
  have hmark : (lead ++ 0x23 :: (gap ++ (name ++ rest))).dropWhile isBlankByte =
      0x23 :: (gap ++ (name ++ rest)) := by
    apply dropWhile_append_of_head hlead
    intro b hb
    cases hb
    decide
  have hafter : (gap ++ (name ++ rest)).dropWhile isBlankByte = name ++ rest := by
    apply dropWhile_append_of_head hgap
    intro b hb
    obtain ⟨c, name', rfl⟩ := List.exists_cons_of_ne_nil hne
    cases hb
    exact isBlankByte_eq_false_of_isWordByte (hname b List.mem_cons_self)
  rw [parse?_of_mark hmark, hafter, ofWords]
  simp only [takeWhile_append_of_head hname hrest, dropWhile_append_of_head hname hrest, if_neg hne]
  rfl

/-- Nothing else is a directive. -/
theorem Directive.exists_shape {code : Text} {d : Directive} (h : parse? code = some d) :
    ∃ rest, Shape d.name rest code ∧ d = .ofRest d.name rest := by
  cases hmark : code.dropWhile isBlankByte with
  | nil =>
    have hcode := Text.spaces_of_blanks (List.dropWhile_eq_nil_iff.1 hmark)
    rw [hcode.parse?_eq_none] at h
    cases h
  | cons b afterMark =>
    by_cases hb : b = 0x23
    · subst hb
      rw [parse?_of_mark hmark, ofWords] at h
      simp only [Option.ite_none_left_eq_some, Option.some.injEq] at h
      obtain ⟨hne, rfl⟩ := h
      refine ⟨(afterMark.dropWhile isBlankByte).dropWhile isWordByte, ?_, rfl⟩
      have hcode : code = code.takeWhile isBlankByte ++ 0x23 :: (afterMark.takeWhile isBlankByte ++
          ((afterMark.dropWhile isBlankByte).takeWhile isWordByte ++
            (afterMark.dropWhile isBlankByte).dropWhile isWordByte)) := by
        rw [List.takeWhile_append_dropWhile, List.takeWhile_append_dropWhile, ← hmark,
          List.takeWhile_append_dropWhile]
      have hhead (b : UInt8)
          (hb : b ∈ ((afterMark.dropWhile isBlankByte).dropWhile isWordByte).head?) :
          isWordByte b = false := by
        have hnot := List.head?_dropWhile_not isWordByte (afterMark.dropWhile isBlankByte)
        rw [Option.mem_def.1 hb] at hnot
        simpa using hnot
      rw [hcode]
      refine .mk (fun b => List.mem_takeWhile_imp) (fun b => List.mem_takeWhile_imp) hne
        (fun b => List.mem_takeWhile_imp) hhead
    · rw [parse?_of_no_mark hmark hb] at h
      cases h

/-! ### Include directives and what follows them -/

theorem Directive.arg_ofRest_append (name rest : Text) {s : Text}
    (hs : ∀ b ∈ s, isBlankByte b = true) :
    (Directive.ofRest name (rest ++ s)).arg = (Directive.ofRest name rest).arg := by
  simp only [Directive.ofRest, List.dropWhile_append]
  split
  · next hempty =>
    rw [List.isEmpty_iff.1 hempty, List.dropWhile_eq_nil_iff.2 hs]
  · exact Text.dropEndWhile_append hs _

/-- Blanks after an include directive do not change its target. -/
theorem includeTarget?_append_blanks (code : Text) {s : Text}
    (hs : ∀ b ∈ s, isBlankByte b = true) : includeTarget? (code ++ s) = includeTarget? code := by
  rcases parse?_append code (Text.spaces_of_blanks hs) with ⟨hn, hn'⟩ | ⟨name, rest, hd, hd'⟩
  · rw [includeTarget?, includeTarget?, hn, hn']
  · rw [includeTarget?, includeTarget?, hd, hd', Option.bind_some, Option.bind_some,
      Directive.include?, Directive.include?, Directive.arg_ofRest_append name rest hs]
    cases rest with
    | nil => simp [Directive.ofRest, Text.dropEndWhile]
    | cons b rest => rfl

/-- The argument of a directive stands at the end of its code, up to blanks. -/
theorem exists_eq_append_arg {code : Text} {d : Directive} (h : Directive.parse? code = some d) :
    ∃ before s, (∀ b ∈ s, isBlankByte b = true) ∧ code = before ++ d.arg ++ s := by
  obtain ⟨rest, hshape, hd⟩ := Directive.exists_shape h
  -- dropping blanks and the name leaves an end of the code
  have hsuffix : rest.dropWhile isBlankByte <:+ code := by
    cases hshape with
    | @mk lead gap _ _ _ _ _ =>
      refine (List.dropWhile_suffix _).trans ⟨lead ++ 0x23 :: (gap ++ d.name), ?_⟩
      simp
  obtain ⟨before, hbefore⟩ := hsuffix
  obtain ⟨s, hs, harg⟩ := Text.exists_dropEndWhile_append isBlankByte (rest.dropWhile isBlankByte)
  refine ⟨before, s, hs, ?_⟩
  have hdarg : d.arg = Text.dropEndWhile isBlankByte (rest.dropWhile isBlankByte) := by
    rw [hd]
    rfl
  rw [hdarg, List.append_assoc, ← harg, hbefore]

/-- The argument of an include directive ends with the mark after its target. -/
theorem Directive.getLast?_arg {d : Directive} {target : Text} (h : d.include? = some target) :
    ∃ right ∈ targetMarks.map (·.2), d.arg.getLast? = some right := by
  obtain ⟨-, -, left, right, hmarks, harg, -⟩ := include?_eq_some_iff.1 h
  refine ⟨right, List.mem_map_of_mem hmarks, ?_⟩
  rw [harg, List.getLast?_append]
  rfl

/-- An include directive is still one without the white space after it. The converse fails: white
space other than blanks hides the mark at its end. -/
theorem includeTarget?_trimEnd {code target : Text} (h : includeTarget? code = some target) :
    includeTarget? code.trimEnd = some target := by
  have hmarks : ∀ right ∈ targetMarks.map (·.2),
      ∀ w ∈ spaceForms, w.all (· != right) = true := by decide +kernel
  obtain ⟨d, hd, hi⟩ := Option.bind_eq_some_iff.1 h
  obtain ⟨right, hright, hlast⟩ := Directive.getLast?_arg hi
  obtain ⟨before, s, hs, rfl⟩ := exists_eq_append_arg hd
  rw [includeTarget?_append_blanks _ hs] at h
  have hend : (before ++ d.arg).getLast? = some right := by
    rw [List.getLast?_append, hlast]
    rfl
  rw [Text.trimEnd_append _ (Text.spaces_of_blanks hs), Text.trimEnd_eq_self hend (hmarks _ hright)]
  exact h

theorem directiveName?_of_includeTarget? {code target : Text}
    (h : includeTarget? code = some target) :
    directiveName? code = some (Text.ofString "include") := by
  obtain ⟨d, hd, hi⟩ := Option.bind_eq_some_iff.1 h
  rw [directiveName?, hd, Option.map_some, (Directive.include?_eq_some_iff.1 hi).1]

/-- An include target is printable. -/
theorem printable_of_includeTarget? {code target : Text} (h : includeTarget? code = some target) :
    ∀ b ∈ target, isPrintableByte b = true := by
  obtain ⟨d, -, hd⟩ := Option.bind_eq_some_iff.1 h
  obtain ⟨-, -, left, right, -, -, -, hprintable⟩ := Directive.include?_eq_some_iff.1 hd
  exact hprintable

end ShaderSplice
