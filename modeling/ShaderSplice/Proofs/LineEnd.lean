import Mathlib.Data.List.Forall2
import ShaderSplice.Proofs.Line
import ShaderSplice.Proofs.Relevance

/-!
# How lines end

A line ends with a newline, with or without a carriage return before it, and the last line of a file
may end with the file. None of this belongs to the line, so a text that ends its lines in another
way has the same lines:

    lines t.withReturns = lines t              if `t` has no carriage return
    lines (t ++ [newline]) = lines t           if the last line of `t` has no newline yet

`Relined t u` puts both together. Whichever files of an assembly are relined, and whatever white
space stands at the end of the source, the outcome is the same: a walk sees source lines only
(`ReadAlikeFrom`), and the source is trimmed before it is cut into lines. Trimming and the carriage
returns do not get in each other's way (`Text.trimEnd_withReturns`).

Lines that are written one after the other are found again for the same reason, also in a text that
was given carriage returns (`withReturns_unlines`) or has lost its last newline
(`lines_of_unlines_eq_append`).
-/

namespace ShaderSplice

/-! ### Carriage returns before newlines -/

namespace Text

/-- `t` with a carriage return before every newline. -/
def withReturns (t : Text) : Text :=
  t.flatMap fun b => if b = newline then [carriageReturn, newline] else [b]

theorem withReturns_append (t u : Text) :
    (t ++ u).withReturns = t.withReturns ++ u.withReturns := List.flatMap_append

theorem withReturns_cons_newline (t : Text) :
    withReturns (newline :: t) = carriageReturn :: newline :: t.withReturns := rfl

theorem withReturns_cons {b : UInt8} (hb : b ≠ newline) (t : Text) :
    withReturns (b :: t) = b :: t.withReturns := by
  rw [withReturns, List.flatMap_cons, if_neg hb]
  rfl

theorem withReturns_eq_self {t : Text} (h : newline ∉ t) : t.withReturns = t := by
  induction t with
  | nil => rfl
  | cons b t ih =>
    rw [List.mem_cons, not_or] at h
    rw [withReturns_cons (Ne.symm h.1), ih h.2]

theorem getLast?_withReturns (t : Text) : t.withReturns.getLast? = t.getLast? := by
  rcases List.eq_nil_or_concat t with rfl | ⟨init, b, rfl⟩
  · rfl
  · rw [List.concat_eq_append, withReturns_append, List.getLast?_concat]
    by_cases hb : b = newline
    · subst hb
      have hlast : withReturns [newline] = [carriageReturn] ++ [newline] := rfl
      rw [hlast, ← List.append_assoc, List.getLast?_concat]
    · have hlast : withReturns [b] = [b] := withReturns_eq_self (by simpa using Ne.symm hb)
      rw [hlast, List.getLast?_concat]

/-- White space stays white space. -/
theorem Spaces.withReturns {s : Text} (hs : Spaces s) : Spaces s.withReturns := by
  induction hs with
  | nil => exact .nil
  | @cons w rest hw _ ih =>
    rw [withReturns_append]
    refine Run.append ?_ ih
    rcases eq_newline_or_not_mem_of_mem_spaceForms w hw with rfl | hnew
    · exact spaces_of_blanks (List.all_eq_true.1 (by decide))
    · rw [withReturns_eq_self hnew]
      exact Run.single hw

/-- What stands at the end without a newline in it has stood there before. -/
theorem isSuffix_of_withReturns {w t : Text} (hw : newline ∉ w) (h : w <:+ t.withReturns) :
    w <:+ t := by
  induction t with
  | nil => exact h
  | cons b t ih =>
    by_cases hb : b = newline
    · subst hb
      rw [withReturns_cons_newline, List.suffix_cons_iff, List.suffix_cons_iff] at h
      rcases h with rfl | rfl | h
      · simp at hw
      · simp at hw
      · exact (ih h).trans (List.suffix_cons _ t)
    · rw [withReturns_cons hb, List.suffix_cons_iff] at h
      rcases h with rfl | h
      · -- no newline follows, so nothing was put in
        have hnew : newline ∉ t := by
          intro hmem
          refine hw (List.mem_cons_of_mem _ (List.mem_flatMap.2 ⟨newline, hmem, ?_⟩))
          simp
        exact ⟨[], by rw [List.nil_append, withReturns_eq_self hnew]⟩
      · exact (ih h).trans (List.suffix_cons b t)

theorem trimEnd_withReturns (t : Text) : t.withReturns.trimEnd = t.trimEnd.withReturns := by
  obtain ⟨s, hs, he⟩ := exists_trimEnd_append t
  have hnone := trimEnd_eq_self_iff.1 (trimEnd_trimEnd t)
  have htrimmed : t.trimEnd.withReturns.trimEnd = t.trimEnd.withReturns := by
    rw [trimEnd_eq_self_iff]
    intro w hw hsuffix
    rcases eq_newline_or_not_mem_of_mem_spaceForms w hw with rfl | hnew
    · obtain ⟨init, hinit⟩ := hsuffix
      have hlast := getLast?_withReturns t.trimEnd
      rw [← hinit, List.getLast?_concat] at hlast
      obtain ⟨init', hinit'⟩ := List.getLast?_eq_some_iff.1 hlast.symm
      exact hnone _ hw ⟨init', hinit'.symm⟩
    · exact hnone w hw (isSuffix_of_withReturns hnew hsuffix)
  calc t.withReturns.trimEnd
      = (t.trimEnd.withReturns ++ s.withReturns).trimEnd := by rw [← withReturns_append, ← he]
    _ = t.trimEnd.withReturns.trimEnd := trimEnd_append _ hs.withReturns
    _ = t.trimEnd.withReturns := htrimmed

/-- Cut at newlines, every piece but the last gets a carriage return. -/
theorem exists_splitOn_withReturns (t : Text) :
    ∃ init last, t.splitOn newline = init ++ [last] ∧
      t.withReturns.splitOn newline = init.map (· ++ [carriageReturn]) ++ [last] := by
  induction t with
  | nil => exact ⟨[], [], List.splitOn_nil _, List.splitOn_nil _⟩
  | cons b t ih =>
    obtain ⟨init, last, hsplit, hsplit'⟩ := ih
    by_cases hb : b = newline
    · subst hb
      refine ⟨[] :: init, last, ?_, ?_⟩
      · rw [List.splitOn_cons_eq_if_modifyHead, if_pos (by simp), hsplit]
        rfl
      · have hreturn : withReturns (newline :: t) =
            [carriageReturn] ++ newline :: withReturns t := rfl
        rw [hreturn, List.splitOn_append_cons_self, hsplit']
        rfl
    · have hne : ¬ (b == newline) = true := by simpa using hb
      rw [withReturns_cons hb, List.splitOn_cons_eq_if_modifyHead,
        List.splitOn_cons_eq_if_modifyHead, if_neg hne, if_neg hne, hsplit, hsplit']
      cases init with
      | nil => exact ⟨[], b :: last, rfl, rfl⟩
      | cons first init => exact ⟨(b :: first) :: init, last, rfl, rfl⟩

end Text

/-! ### The same lines -/

theorem dropEmptyLast_concat (init : List Text) (last : Text) :
    dropEmptyLast (init ++ [last]) = init ++ [last].filter (· ≠ []) := by
  rw [dropEmptyLast, List.getLast?_concat, List.dropLast_concat]
  by_cases hlast : last = []
  · simp [hlast]
  · simp [hlast]

theorem lines_withReturns {t : Text} (h : Text.carriageReturn ∉ t) :
    lines t.withReturns = lines t := by
  obtain ⟨init, last, hsplit, hsplit'⟩ := t.exists_splitOn_withReturns
  have hclean : ∀ l ∈ init, dropCarriageReturn l = l := by
    intro l hl
    apply dropCarriageReturn_eq_self
    intro hlast
    have hpiece : l ∈ t.splitOn Text.newline := by simp [hsplit, hl]
    exact h (mem_of_mem_splitOn hpiece (List.mem_of_getLast? hlast))
  rw [lines, lines, hsplit, hsplit', dropEmptyLast_concat, dropEmptyLast_concat, List.map_append,
    List.map_append, List.map_map]
  congr 1
  apply List.map_congr_left
  intro l hl
  rw [hclean l hl, Function.comp_apply, dropCarriageReturn_append]

/-- A last line that has no newline yet can be given one. -/
theorem lines_append_newline {t : Text} (hne : t ≠ [])
    (hlast : t.getLast? ≠ some Text.newline) : lines (t ++ [Text.newline]) = lines t := by
  obtain ⟨init, b, rfl⟩ := (List.eq_nil_or_concat t).resolve_left hne
  rw [List.concat_eq_append] at hlast ⊢
  have hb : Text.newline ∉ [b] := by
    rw [List.getLast?_concat] at hlast
    simpa [eq_comm] using hlast
  obtain ⟨before, last, -, hsplit⟩ := exists_splitOn_append hb init
  have hpiece : last ++ [b] ≠ [] := by simp
  -- the newline adds an empty piece, which is dropped
  rw [lines, lines, List.splitOn_append_cons_self, List.splitOn_nil, dropEmptyLast_concat, hsplit,
    dropEmptyLast_concat]
  simp [hpiece]

/-- `u` is `t` with its lines ended in another way: with carriage returns, where there were none,
or with a newline after the last line, where there was none. -/
inductive Relined (t : Text) : Text → Prop
  | same : Relined t t
  | withReturns {u : Text} : Relined t u → Text.carriageReturn ∉ u → Relined t u.withReturns
  | finalNewline {u : Text} : Relined t u → u ≠ [] → u.getLast? ≠ some Text.newline →
      Relined t (u ++ [Text.newline])

namespace Relined

variable {t u : Text}

theorem lines_eq (h : Relined t u) : lines u = lines t := by
  induction h with
  | same => rfl
  | withReturns _ hclean ih => rw [lines_withReturns hclean, ih]
  | finalNewline _ hne hlast ih => rw [lines_append_newline hne hlast, ih]

/-- Also after trimming: the carriage returns inside the text stay, those at its end go. -/
theorem lines_trimEnd_eq (h : Relined t u) : lines u.trimEnd = lines t.trimEnd := by
  induction h with
  | same => rfl
  | @withReturns u _ hclean ih =>
    have hclean' : Text.carriageReturn ∉ u.trimEnd := by
      intro hmem
      exact hclean (u.trimEnd_isPrefix.subset hmem)
    rw [u.trimEnd_withReturns, lines_withReturns hclean', ih]
  | @finalNewline u _ _ _ ih =>
    rw [Text.trimEnd_append u (Text.spaces_of_blanks (List.all_eq_true.1 (by decide))), ih]

theorem sourceLines_eq (h : Relined t u) : sourceLines u = sourceLines t := by
  rw [sourceLines, sourceLines, h.lines_eq]

end Relined

/-! ### Lines that are written and read back -/

/-- Lines that are written with carriage returns have them at their ends. -/
theorem withReturns_unlines {ls : List Text} (hnew : ∀ l ∈ ls, Text.newline ∉ l) :
    (unlines ls).withReturns = unlines (ls.map (· ++ [Text.carriageReturn])) := by
  induction ls with
  | nil => rfl
  | cons l ls ih =>
    rw [unlines_cons, Text.withReturns_append, Text.withReturns_eq_self (hnew l List.mem_cons_self),
      Text.withReturns_cons_newline, ih fun l' hl' => hnew l' (List.mem_cons_of_mem _ hl'),
      List.map_cons, unlines_cons, List.append_assoc, List.singleton_append]

/-- The newline after the last line can be left out, unless nothing is left of the line then. -/
theorem lines_of_unlines_eq_append {ls : List Text} (hnew : ∀ l ∈ ls, Text.newline ∉ l)
    (hlast : ls.getLast? ≠ some []) {t : Text} (h : unlines ls = t ++ [Text.newline]) :
    lines t = ls.map dropCarriageReturn := by
  have hne : ls ≠ [] := by
    rintro rfl
    simp [unlines] at h
  rw [unlines_eq_join_append hne] at h
  rw [← List.append_cancel_right h, lines_join hne hnew hlast]

/-- **Cutting a text into lines undoes writing them.** Lines that hold no newline and do not end in
a carriage return are found again in the text they were written to, in that text with carriage
returns before its newlines, and in either one without its last newline, unless the last line is
empty.

The other way around, the lines of any text can be written and cut again: each one that ends in a
carriage return loses just that one, and the others stay as they are. So a text without carriage
returns gives the same lines. -/
theorem lines_undo_unlines :
    (∀ ls : List Text,
      (∀ l ∈ ls, Text.newline ∉ l ∧ l.getLast? ≠ some Text.carriageReturn) →
      ∀ u, u = unlines ls ∨ u = (unlines ls).withReturns →
        lines u = ls ∧ ∀ t, u = t ++ [Text.newline] → ls.getLast? ≠ some [] → lines t = ls) ∧
    ∀ t : Text,
      (∀ l ∈ lines t, Text.newline ∉ l) ∧
      List.Forall₂
        (fun l l' => if l.getLast? = some Text.carriageReturn then l = l' ++ [Text.carriageReturn]
          else l' = l)
        (lines t) (lines (unlines (lines t))) ∧
      (Text.carriageReturn ∉ t → lines (unlines (lines t)) = lines t) := by
  have hself {ls : List Text} (h : ∀ l ∈ ls, l.getLast? ≠ some Text.carriageReturn) :
      ls.map dropCarriageReturn = ls := by
    rw [List.map_congr_left fun l hl => dropCarriageReturn_eq_self (h l hl), List.map_id']
  refine ⟨?_, ?_⟩
  · intro ls hls u hu
    have hnew : ∀ l ∈ ls, Text.newline ∉ l := fun l hl => (hls l hl).1
    -- either way lines are written that come to `ls` without a carriage return at their ends
    obtain ⟨written, hwritten, hwnew, hreturn, hwlast⟩ : ∃ written, u = unlines written ∧
        (∀ l ∈ written, Text.newline ∉ l) ∧ written.map dropCarriageReturn = ls ∧
        (ls.getLast? ≠ some [] → written.getLast? ≠ some []) := by
      rcases hu with rfl | rfl
      · exact ⟨ls, rfl, hnew, hself fun l hl => (hls l hl).2, id⟩
      · refine ⟨_, withReturns_unlines hnew, ?_, ?_, ?_⟩
        · simpa using fun l hl => ⟨hnew l hl, by decide⟩
        · simp [Function.comp_def, dropCarriageReturn_append]
        · intro _ hlast
          simp at hlast
    subst hwritten
    refine ⟨(lines_unlines hwnew).trans hreturn, ?_⟩
    intro t ht hlast
    exact (lines_of_unlines_eq_append hwnew (hwlast hlast) ht).trans hreturn
  · intro t
    have hnew : ∀ l ∈ lines t, Text.newline ∉ l := fun l hl => newline_not_mem_of_mem_lines hl
    refine ⟨hnew, ?_, ?_⟩
    · rw [lines_unlines hnew, List.forall₂_map_right_iff, List.forall₂_same]
      intro l _
      split
      · next h =>
        obtain ⟨init, rfl⟩ := List.getLast?_eq_some_iff.1 h
        rw [dropCarriageReturn_append]
      · next h => exact dropCarriageReturn_eq_self h
    · intro hclean
      rw [lines_unlines hnew]
      exact hself fun l hl hlast => hclean (subset_of_mem_lines hl (List.mem_of_getLast? hlast))

/-- Empty lines count and a carriage return inside a line stays, also where the text ends in a
carriage return without its newline. -/
theorem lines_undo_unlines_carriage_returns :
    let ls := ["", "a\rb", "", "c"].map Text.ofString
    lines (Text.ofString "\r\na\rb\r\n\r\nc\r\n") = ls ∧
    lines (Text.ofString "\r\na\rb\r\n\r\nc\r") = ls ∧
    lines (unlines (lines (Text.ofString "\n\na\n"))) = lines (Text.ofString "\n\na\n") := by
  intro ls
  have hwritten : Text.ofString "\r\na\rb\r\n\r\nc\r\n" = (unlines ls).withReturns := by decide
  obtain ⟨hlines, hshort⟩ := lines_undo_unlines.1 ls (by decide) _ (.inr hwritten)
  exact ⟨hlines, hshort _ (by decide) (by decide), (lines_undo_unlines.2 _).2.2 (by decide)⟩

/-! ### The same assembly -/

/-- **The way lines end is not seen.** Any of the files may be given carriage returns before its
newlines, or a newline after a last line that has none, and any white space may be added at the end
of the source: the outcome is the same, with its result or failure, its registry and its records,
in either mode and from every registry. -/
theorem assemble_ignores_line_ends (language : Language) (mode : LineMode)
    (table table' : IncludeTable) (registry : Registry) (name text text' : Text)
    (htext : ∃ u s, Relined text u ∧ Text.Spaces s ∧ text' = u ++ s)
    (htable : ∀ n, Option.Rel Relined (table.find? n) (table'.find? n)) :
    assemble language mode table' registry name text' =
      assemble language mode table registry name text := by
  obtain ⟨u, s, hu, hs, rfl⟩ := htext
  have htop : topLines (u ++ s) = topLines text := by
    rw [topLines, topLines, Text.trimEnd_append u hs, sourceLines, sourceLines,
      hu.lines_trimEnd_eq]
  refine ReadAlikeFrom.assemble_eq htop ?_ language mode registry name
  intro n _
  have hn := htable n
  generalize table.find? n = found, table'.find? n = found' at hn ⊢
  cases hn with
  | none => rfl
  | some h => rw [Option.map_some, Option.map_some, h.sourceLines_eq]

/-- Carriage returns inside a comment and around a directive, a final newline in the include as
well, and a no-break space at the end of the source. -/
theorem assemble_ignores_line_ends_include :
    let a := Text.ofString "a"
    let table := IncludeTable.empty.insert a (Text.ofString "x\ny /*")
    let table' := IncludeTable.empty.insert a (Text.ofString "x\r\ny /*\n")
    let text := Text.ofString "/*\n*/ #include \"a\"\nz"
    let text' := Text.ofString "/*\r\n*/ #include \"a\"\r\nz\n\u00a0\n"
    assemble .openGL .keep table' ∅ [] text' = assemble .openGL .keep table ∅ [] text := by
  intro a table table' text text'
  apply assemble_ignores_line_ends
  · refine ⟨text.withReturns, Text.ofString "\n\u00a0\n", .withReturns .same (by decide), ?_, rfl⟩
    exact Text.trimEnd_eq_nil_iff.1 (by decide +kernel)
  · intro n
    rw [IncludeTable.find?_insert, IncludeTable.find?_insert]
    split
    · have hinner : Text.ofString "x\r\ny /*\n" =
          (Text.ofString "x\ny /*").withReturns ++ [Text.newline] := by decide
      rw [hinner]
      exact .some (.finalNewline (.withReturns .same (by decide)) (by decide) (by decide))
    · exact .none

end ShaderSplice
