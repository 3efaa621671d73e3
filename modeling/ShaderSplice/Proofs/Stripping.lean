import ShaderSplice.Proofs.Comment
import Mathlib.Data.List.Infix

/-!
# What is left when comments are stripped

A line that starts outside any comment is cut at its first delimiter, and, if that opens a block
comment, at the closer after it. `Strips t code isOpen` tells where the cuts fall, without reference
to a search:

    plain       code                        no delimiter starts in the line
    line        code // rest                a line comment starts first
    unclosed    code /* after               a block comment starts first and stays open
    closed      code /* skipped */ rest     it is closed, and the rest is stripped in the same way

In each of them the code before a delimiter does not end in a slash, for that slash would start a
delimiter one byte earlier. So no opener forms where a comment is cut out (`Strips.openerFree`), and
code that is read again is found without comments.
-/

namespace ShaderSplice

/-! ### The first occurrence of a needle -/

namespace Text

theorem isPrefixOf?_eq_none_iff {needle t : Text} :
    needle.isPrefixOf? t = none ↔ ¬ needle <+: t := by
  rw [Option.eq_none_iff_forall_ne_some]
  constructor
  · rintro h ⟨rest, hrest⟩
    exact h rest (List.isPrefixOf?_eq_some_iff_append_eq.2 hrest)
  · intro h rest hrest
    exact h ⟨rest, List.isPrefixOf?_eq_some_iff_append_eq.1 hrest⟩

/-- A text that cannot be cut does not have the needle in it. -/
theorem cut?_eq_none_iff {needle t : Text} : t.cut? needle = none ↔ ¬ needle <:+: t := by
  induction t with
  | nil =>
    rw [cut?, List.infix_nil]
    cases needle with
    | nil => simp [List.isPrefixOf?]
    | cons b needle => simp [List.isPrefixOf?]
  | cons b t ih =>
    rw [cut?, List.infix_cons_iff, not_or, ← ih, ← isPrefixOf?_eq_none_iff]
    cases needle.isPrefixOf? (b :: t) with
    | none => simp
    | some rest => simp

/-- A text is cut at the first occurrence of the needle: none ends before it. -/
theorem not_infix_of_cut? {needle t before after : Text} (hne : needle ≠ [])
    (h : t.cut? needle = some (before, after)) : ¬ needle <:+: before ++ needle.dropLast := by
  have hself : ¬ needle <:+: needle.dropLast := by
    intro hin
    have hlen := hin.length_le
    have hpos := List.length_pos_iff.2 hne
    rw [List.length_dropLast] at hlen
    omega
  induction t generalizing before with
  | nil =>
    rw [cut?] at h
    split at h
    · cases h
      exact hself
    · cases h
  | cons b t ih =>
    rw [cut?] at h
    split at h
    · cases h
      exact hself
    · next hbegins =>
      obtain ⟨⟨before', after'⟩, hcut, he⟩ := Option.map_eq_some_iff.1 h
      cases he
      rw [List.cons_append, List.infix_cons_iff, not_or]
      refine ⟨?_, ih hcut⟩
      -- what stands before the end of the needle is the beginning of the text
      have hbegin : b :: (before' ++ needle.dropLast) <+: b :: t := by
        rw [List.prefix_cons_inj, cut?_eq_some hcut, List.append_assoc,
          List.prefix_append_right_inj]
        exact (List.dropLast_prefix needle).trans (List.prefix_append needle _)
      intro hneedle
      exact isPrefixOf?_eq_none_iff.1 hbegins (hneedle.trans hbegin)

end Text

/-! ### Texts without openers -/

/-- A text in which no comment starts. -/
structure OpenerFree (t : Text) : Prop where
  block : ¬ blockOpen <:+: t
  line : ¬ lineComment <:+: t

theorem openerFree_nil : OpenerFree [] := ⟨by decide, by decide⟩

theorem OpenerFree.of_isInfix {t t' : Text} (h : OpenerFree t') (hin : t <:+: t') :
    OpenerFree t :=
  ⟨fun hblock => h.block (hblock.trans hin), fun hline => h.line (hline.trans hin)⟩

theorem openerFree_of_no_slash {t : Text} (h : Text.slash ∉ t) : OpenerFree t :=
  ⟨fun hblock => h (hblock.subset (by decide)), fun hline => h (hline.subset (by decide))⟩

/-- No delimiter of two bytes crosses the place where two texts meet, unless the first of its bytes
ends the first text and the second one starts the second text. -/
theorem not_infix_append {b c : UInt8} {s t : Text} (hs : ¬ [b, c] <:+: s) (ht : ¬ [b, c] <:+: t)
    (hcross : [b] <:+ s → ¬ [c] <+: t) : ¬ [b, c] <:+: s ++ t := by
  intro h
  rcases List.infix_append_iff.1 h with h | h | ⟨l₁, l₂, he, hl₁, hl₂⟩
  · exact hs h
  · exact ht h
  · match l₁, he with
    | [], he =>
      rw [List.nil_append] at he
      exact ht (he ▸ hl₂.isInfix)
    | [_], he =>
      cases he
      exact hcross hl₁ hl₂
    | _ :: _ :: _, he =>
      simp only [List.cons_append, List.cons.injEq] at he
      obtain ⟨rfl, rfl, hnil⟩ := he
      rw [(List.nil_eq_append_iff.1 hnil).1] at hl₁
      exact hs hl₁.isInfix

/-- A text that stays free of openers when a slash follows it stays so whatever follows it. -/
theorem OpenerFree.append {s t : Text} (hs : OpenerFree (s ++ [Text.slash])) (ht : OpenerFree t) :
    OpenerFree (s ++ t) := by
  have hs' : OpenerFree s := hs.of_isInfix (List.prefix_append s _).isInfix
  have hend : ¬ [Text.slash] <:+ s := by
    rintro ⟨u, rfl⟩
    apply hs.line
    rw [List.append_assoc]
    exact (List.suffix_append u lineComment).isInfix
  exact ⟨not_infix_append hs'.block ht.block fun h => absurd h hend,
    not_infix_append hs'.line ht.line fun h => absurd h hend⟩

/-- A text without openers is all code. -/
theorem stripComments_of_openerFree {t : Text} (h : OpenerFree t) :
    stripComments t = (t, false) := by
  rw [stripComments_of_none (Text.cut?_eq_none_iff.2 h.block), beforeLineComment,
    Text.cut?_eq_none_iff.2 h.line]

theorem scanLine_of_openerFree {t : Text} (h : OpenerFree t) :
    scanLine false t = (⟨t, false, false, false⟩, false) := by
  rw [scanLine_outside, stripComments_of_openerFree h]

/-- Lines without openers are read as they are, and no comment is open after any of them. -/
theorem scanLines_of_openerFree {ls : List Text} (h : ∀ l ∈ ls, OpenerFree l) :
    scanLines false ls = ls.map fun l => (⟨l, false, false, false⟩, false) := by
  induction ls with
  | nil => rfl
  | cons l ls ih =>
    rw [scanLines, scanLine_of_openerFree (h l List.mem_cons_self), List.map_cons,
      ih fun l' hl' => h l' (List.mem_cons_of_mem _ hl')]

/-! ### Where the cuts fall -/

/-- The line `t`, which starts outside any comment, has the given code, and `isOpen` tells whether a
block comment is open at its end. -/
inductive Strips : (t : Text) → (code : Text) → (isOpen : Bool) → Prop
  | plain {t : Text} : OpenerFree t → Strips t t false
  | line {code rest : Text} : OpenerFree (code ++ [Text.slash]) →
      Strips (code ++ lineComment ++ rest) code false
  | unclosed {code after : Text} : OpenerFree (code ++ [Text.slash]) → ¬ blockClose <:+: after →
      Strips (code ++ blockOpen ++ after) code true
  | closed {code skipped rest more : Text} {isOpen : Bool} : OpenerFree (code ++ [Text.slash]) →
      ¬ blockClose <:+: skipped ++ blockClose.dropLast → Strips rest more isOpen →
      Strips (code ++ blockOpen ++ (skipped ++ blockClose ++ rest)) (code ++ more) isOpen

/-- What stands before the first line comment is free of openers, and a slash after it does not
change that, if no block comment starts in the text. -/
theorem openerFree_of_cut?_lineComment {t code rest : Text} (hblock : ¬ blockOpen <:+: t)
    (h : t.cut? lineComment = some (code, rest)) : OpenerFree (code ++ [Text.slash]) := by
  refine ⟨?_, Text.not_infix_of_cut? (by decide) h⟩
  intro hin
  apply hblock
  rw [Text.cut?_eq_some h]
  have hbegins : code ++ [Text.slash] <+: code ++ lineComment ++ rest := by
    rw [List.append_assoc, List.prefix_append_right_inj]
    exact ⟨Text.slash :: rest, rfl⟩
  exact hin.trans hbegins.isInfix

/-- Stripping cuts a line where the first delimiters stand. -/
theorem strips_stripComments (t : Text) : Strips t (stripComments t).1 (stripComments t).2 := by
  fun_induction stripComments t with
  | case1 t h =>
    have hblock := Text.cut?_eq_none_iff.1 h
    rw [beforeLineComment]
    split
    · next code rest hline =>
      have hfree := openerFree_of_cut?_lineComment hblock hline
      rw [Text.cut?_eq_some hline]
      exact .line hfree
    · next hline => exact .plain ⟨hblock, Text.cut?_eq_none_iff.1 hline⟩
  | case2 t before after h code rest hline =>
    -- the line comment starts before the opener, and may share the opener's slash
    have hfree := openerFree_of_cut?_lineComment (Text.not_infix_of_cut? (by decide) h) hline
    have hopen : blockOpen = [Text.slash] ++ [0x2a] := by decide
    have ht : t = code ++ lineComment ++ (rest ++ 0x2a :: after) := by
      rw [← List.append_assoc, ← Text.cut?_eq_some hline, Text.cut?_eq_some h, hopen]
      simp
    rw [ht]
    exact .line hfree
  | case3 t before after h hline hend =>
    have hfree : OpenerFree (before ++ [Text.slash]) :=
      ⟨Text.not_infix_of_cut? (by decide) h, Text.cut?_eq_none_iff.1 hline⟩
    rw [Text.cut?_eq_some h]
    exact .unclosed hfree (Text.cut?_eq_none_iff.1 hend)
  | case4 t before after h hline skipped rest hend code isOpen heq ih =>
    have hfree : OpenerFree (before ++ [Text.slash]) :=
      ⟨Text.not_infix_of_cut? (by decide) h, Text.cut?_eq_none_iff.1 hline⟩
    rw [heq] at ih
    rw [Text.cut?_eq_some h, Text.cut?_eq_some hend]
    exact .closed hfree (Text.not_infix_of_cut? (by decide) hend) ih

/-- No opener forms where comments are cut out. -/
theorem Strips.openerFree {t code : Text} {isOpen : Bool} (h : Strips t code isOpen) :
    OpenerFree code := by
  have hbefore {code : Text} (hfree : OpenerFree (code ++ [Text.slash])) : OpenerFree code :=
    hfree.of_isInfix (List.prefix_append code _).isInfix
  induction h with
  | plain hfree => exact hfree
  | line hfree => exact hbefore hfree
  | unclosed hfree _ => exact hbefore hfree
  | closed hfree _ _ ih => exact hfree.append ih

theorem openerFree_code (inBlock : Bool) (line : Text) :
    OpenerFree (scanLine inBlock line).1.code := by
  cases inBlock with
  | false => exact (strips_stripComments line).openerFree
  | true =>
    cases h : line.cut? blockClose with
    | none =>
      rw [scanLine_inside_of_none h]
      exact openerFree_nil
    | some p =>
      rw [scanLine_inside_of_some h]
      exact (strips_stripComments p.2).openerFree

/-- **No comment starts in code.** Whatever the line and the state in which it is met, its code has
neither opener in it. Read again from a fresh state it comes out as it went in, and a line inside a
comment has no code at all. -/
theorem scanLine_code_openerFree (inBlock : Bool) (line : Text) :
    let scan := (scanLine inBlock line).1
    (¬ blockOpen <:+: scan.code ∧ ¬ lineComment <:+: scan.code) ∧
      scanLine false scan.code = (⟨scan.code, false, false, false⟩, false) ∧
      (scan.inComment = true → scan.code = []) := by
  intro scan
  have hfree : OpenerFree scan.code := openerFree_code inBlock line
  exact ⟨⟨hfree.block, hfree.line⟩, scanLine_of_openerFree hfree, code_eq_nil_of_inComment⟩

end ShaderSplice
