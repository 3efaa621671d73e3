import ShaderSplice.Proofs.Directive
import ShaderSplice.Proofs.Stripping

/-!
# The grammar of include directives

A directive is read by trimming, by the longest word after the mark and, if it is an include, by the
two ends of what is left. `DirectiveLine` and `IncludeLine` say what it looks like, without
reference to how it is read:

    blanks  #  blanks  word  blanks  body                     DirectiveLine
    blanks  #  blanks  include  blanks  " target "  blanks    IncludeLine
                                        < target >

The blanks after the word are there, the others may be missing. The target is any text of printable
characters, spaces and marks among them; the last mark of the line ends it, so a line has one target
(`includeTarget?_eq_some_iff`).

A scanner comes between a line and its target. The line has no slash outside its target, so comments
start in the target or nowhere.
-/

namespace ShaderSplice

/-- `code` is a directive with the name `word`, after which there are blanks and then `body`. -/
inductive DirectiveLine (word body : Text) : (code : Text) → Prop
  | mk {lead gap sep : Text} : Blanks lead → Blanks gap → Blanks sep → sep ≠ [] →
      DirectiveLine word body (lead ++ 0x23 :: gap ++ word ++ sep ++ body)

/-- `code` is an include directive for `target`. -/
inductive IncludeLine (code target : Text) : Prop
  | mk {trail : Text} {left right : UInt8} :
      DirectiveLine (Text.ofString "include") (left :: target ++ right :: trail) code →
      (left, right) ∈ targetMarks → target ≠ [] → (∀ b ∈ target, isPrintableByte b = true) →
      Blanks trail → IncludeLine code target

/-! ### Directives with blanks after their names -/

theorem isWordByte_eq_false_of_isBlankByte {b : UInt8} (hb : isBlankByte b = true) :
    isWordByte b = false := by
  rw [← Bool.not_eq_true]
  intro hword
  rw [isBlankByte_eq_false_of_isWordByte hword] at hb
  cases hb

/-- Such a line is a directive, and its argument is the body without the blanks around it. -/
theorem DirectiveLine.exists_parse? {word body code : Text} (h : DirectiveLine word body code)
    (hword : word.all isWordByte = true) (hne : word ≠ []) :
    ∃ d, Directive.parse? code = some d ∧ d.name = word ∧ d.spaced = true ∧
      d.arg = Text.dropEndWhile isBlankByte (body.dropWhile isBlankByte) := by
  cases h with
  | @mk lead gap sep hlead hgap hsep hsepne =>
    obtain ⟨b, sep, rfl⟩ := List.exists_cons_of_ne_nil hsepne
    have hb : isBlankByte b = true := hsep b List.mem_cons_self
    have hshape : Directive.Shape word (b :: sep ++ body)
        (lead ++ 0x23 :: (gap ++ (word ++ (b :: sep ++ body)))) := by
      refine .mk hlead hgap hne (List.all_eq_true.1 hword) ?_
      intro c hc
      cases hc
      exact isWordByte_eq_false_of_isBlankByte hb
    have hcode : lead ++ 0x23 :: gap ++ word ++ b :: sep ++ body =
        lead ++ 0x23 :: (gap ++ (word ++ (b :: sep ++ body))) := by simp
    rw [hcode]
    refine ⟨_, hshape.parse?_eq, rfl, hb, ?_⟩
    simp only [Directive.ofRest, List.dropWhile_append_of_pos hsep]

/-- A directive with a blank after its name is written like that. -/
theorem Directive.exists_directiveLine {code : Text} {d : Directive} (h : parse? code = some d)
    (hspaced : d.spaced = true) :
    ∃ body, DirectiveLine d.name body code ∧ d.arg = Text.dropEndWhile isBlankByte body := by
  obtain ⟨rest, hshape, hd⟩ := exists_shape h
  refine ⟨rest.dropWhile isBlankByte, ?_, by rw [hd]; rfl⟩
  have hsep : rest.takeWhile isBlankByte ≠ [] := by
    rw [hd] at hspaced
    cases rest with
    | nil => cases hspaced
    | cons b rest =>
      have hb : isBlankByte b = true := hspaced
      simp [hb]
  cases hshape with
  | @mk lead gap hlead hgap _ _ _ =>
    have hcode : lead ++ 0x23 :: (gap ++ (d.name ++ rest)) =
        lead ++ 0x23 :: gap ++ d.name ++ rest.takeWhile isBlankByte ++
          rest.dropWhile isBlankByte := by simp
    rw [hcode]
    exact .mk hlead hgap (fun b hb => List.mem_takeWhile_imp hb) hsep

/-! ### Include directives -/

theorem eq_of_mem_targetMarks {left right : UInt8} (h : (left, right) ∈ targetMarks) :
    (left = 0x22 ∧ right = 0x22) ∨ (left = 0x3c ∧ right = 0x3e) := by
  simpa [targetMarks] using h

/-- What is read as an include directive is what the grammar says. -/
theorem includeTarget?_eq_some_iff {code target : Text} :
    includeTarget? code = some target ↔ IncludeLine code target := by
  constructor
  · intro h
    obtain ⟨d, hd, hi⟩ := Option.bind_eq_some_iff.1 h
    obtain ⟨hname, hspaced, left, right, hmarks, harg, hne, hprintable⟩ :=
      Directive.include?_eq_some_iff.1 hi
    obtain ⟨body, hline, hbody⟩ := Directive.exists_directiveLine hd hspaced
    obtain ⟨trail, htrail, htext⟩ := Text.exists_dropEndWhile_append isBlankByte body
    rw [← hbody, harg] at htext
    rw [hname, htext] at hline
    rw [List.append_assoc, List.singleton_append] at hline
    exact .mk hline hmarks hne hprintable htrail
  · intro h
    cases h with
    | @mk trail left right hline hmarks hne hprintable htrail =>
      obtain ⟨hleft, hright⟩ : isBlankByte left = false ∧ isBlankByte right = false := by
        rcases eq_of_mem_targetMarks hmarks with ⟨rfl, rfl⟩ | ⟨rfl, rfl⟩ <;> decide
      obtain ⟨d, hd, hname, hspaced, harg⟩ := hline.exists_parse? (by decide) (by decide)
      -- neither mark is a blank, so trimming stops at them
      have hbody : (left :: target ++ right :: trail).dropWhile isBlankByte =
          left :: target ++ [right] ++ trail := by
        simp [hleft]
      have htrim : Text.dropEndWhile isBlankByte (left :: target ++ [right]) =
          left :: target ++ [right] := by
        simp [Text.dropEndWhile, hright]
      rw [hbody, Text.dropEndWhile_append htrail, htrim] at harg
      rw [includeTarget?, hd, Option.bind_some, Directive.include?_eq_some_iff]
      exact ⟨hname, hspaced, left, right, hmarks, harg, hne, hprintable⟩

/-! ### Comments in a target -/

/-- An include directive is its target between two texts without slashes, of which the second starts
with the closing mark. -/
theorem IncludeLine.exists_eq_append {code target : Text} (h : IncludeLine code target) :
    ∃ before after, code = before ++ target ++ after ∧ Text.slash ∉ before ∧ Text.slash ∉ after ∧
      ∀ b ∈ after.head?, b ∉ blockOpen := by
  have hblanks {s : Text} (hs : Blanks s) : Text.slash ∉ s := fun hmem =>
    absurd (hs _ hmem) (by decide)
  cases h with
  | @mk trail left right hline hmarks hne hprintable htrail =>
    obtain ⟨hleft, hright, hopen⟩ :
        Text.slash ≠ left ∧ Text.slash ≠ right ∧ right ∉ blockOpen := by
      rcases eq_of_mem_targetMarks hmarks with ⟨rfl, rfl⟩ | ⟨rfl, rfl⟩ <;> decide
    cases hline with
    | @mk lead gap sep hlead hgap hsep hsepne =>
      have hword : Text.slash ∉ Text.ofString "include" := by decide
      have hmark : Text.slash ≠ 0x23 := by decide
      refine ⟨lead ++ 0x23 :: gap ++ Text.ofString "include" ++ sep ++ [left], right :: trail,
        by simp, ?_, ?_, ?_⟩
      · simp [hblanks hlead, hblanks hgap, hblanks hsep, hword, hmark, hleft]
      · simp [hblanks htrail, hright]
      · intro b hb
        cases hb
        exact hopen

/-- Comments start in the target of an include directive or nowhere. -/
theorem IncludeLine.openerFree_iff {code target : Text} (h : IncludeLine code target) :
    OpenerFree code ↔ OpenerFree target := by
  obtain ⟨before, after, rfl, hbefore, hafter, hhead⟩ := h.exists_eq_append
  have hb := openerFree_of_no_slash hbefore
  have ha := openerFree_of_no_slash hafter
  have hend {c : UInt8} (hc : [Text.slash] <:+ before) : ¬ [c] <+: target ++ after :=
    absurd (hc.subset List.mem_cons_self) hbefore
  have hstart {c : UInt8} (hc : c ∈ blockOpen) : ¬ [c] <+: after := by
    rintro ⟨rest, rfl⟩
    exact hhead c rfl hc
  constructor
  · intro hfree
    exact hfree.of_isInfix (List.infix_append before target after)
  · intro hfree
    rw [List.append_assoc]
    constructor
    · apply not_infix_append hb.block _ hend
      exact not_infix_append hfree.block ha.block fun _ => hstart (by decide)
    · apply not_infix_append hb.line _ hend
      exact not_infix_append hfree.line ha.line fun _ => hstart (by decide)

/-- **The grammar of include directives.** Code is read as an include directive for a target exactly
if it is written as one, and no code is written as one for two targets. Read by a scanner outside a
comment, a line that is written so gives its target back exactly if no comment starts in the
target. -/
theorem includeTarget?_grammar (code target : Text) :
    (includeTarget? code = some target ↔ IncludeLine code target) ∧
    (∀ target', IncludeLine code target → IncludeLine code target' → target' = target) ∧
    (IncludeLine code target →
      (includeTarget? (scanLine false code).1.code = some target ↔
        ¬ lineComment <:+: target ∧ ¬ blockOpen <:+: target)) := by
  refine ⟨includeTarget?_eq_some_iff, ?_, ?_⟩
  · intro target' h h'
    have heq := (includeTarget?_eq_some_iff.2 h').symm.trans (includeTarget?_eq_some_iff.2 h)
    exact Option.some.inj heq
  · intro h
    constructor
    · intro hread
      -- the target was read from code, in which no comment starts
      have hfree : OpenerFree target :=
        (includeTarget?_eq_some_iff.1 hread).openerFree_iff.1 (openerFree_code false code)
      exact ⟨hfree.line, hfree.block⟩
    · rintro ⟨hline, hblock⟩
      have hfree : OpenerFree code := h.openerFree_iff.2 ⟨hblock, hline⟩
      rw [scanLine_of_openerFree hfree]
      exact includeTarget?_eq_some_iff.2 h

/-- A target with marks, spaces and slashes in it, and one in which a comment starts. -/
example :
    includeTarget? (Text.ofString "\t# include  <a \"/b> c>\r") = some (Text.ofString "a \"/b> c") ∧
      includeTarget? (scanLine false (Text.ofString "#include \"a//b\"")).1.code = none := by
  decide +kernel

end ShaderSplice
