import ShaderSplice.Line
import ShaderSplice.Proofs.Comment

/-!
# Cutting a text into lines

Lines that are joined by newlines are found again when the text is cut (`lines_join`), up to a
carriage return at the end of each. White space at the end of a whole text comes to white space at
the end of its lines and to empty lines (`exists_map_trimEnd_lines_trimEnd`), and to the scanner
neither makes a difference: the state after the lines stays the same
(`blockAfter_map_dropCarriageReturn`, `blockAfter_lines_trimEnd`).
-/

namespace ShaderSplice

theorem not_mem_of_mem_splitOn {b : UInt8} {t l : Text} (h : l ∈ t.splitOn b) : b ∉ l := by
  induction t generalizing l with
  | nil =>
    rw [List.splitOn_nil, List.mem_singleton] at h
    simp [h]
  | cons c t ih =>
    obtain ⟨first, more, hsplit⟩ := List.exists_cons_of_ne_nil (List.splitOn_ne_nil b t)
    rw [List.splitOn_cons_eq_if_modifyHead, hsplit] at h
    rw [hsplit] at ih
    split at h
    · rcases List.mem_cons.1 h with rfl | h
      · simp
      · exact ih h
    · next hc =>
      rw [List.modifyHead_cons] at h
      rcases List.mem_cons.1 h with rfl | h
      · have hne : c ≠ b := by simpa using hc
        simp [hne.symm, ih List.mem_cons_self]
      · exact ih (List.mem_cons_of_mem _ h)

theorem mem_of_mem_splitOn {b c : UInt8} {t l : Text} (h : l ∈ t.splitOn b) (hc : c ∈ l) :
    c ∈ t := by
  have hjoin : [b].intercalate (t.splitOn b) = t := List.intercalate_splitOn b
  obtain ⟨i, hi⟩ := List.mem_iff_getElem?.1 h
  have hpiece : ((t.splitOn b).intersperse [b])[2 * i]? = some l := by
    rw [List.getElem?_intersperse_two_mul, hi]
  rw [← hjoin, List.intercalate, List.mem_flatten]
  exact ⟨l, List.mem_of_getElem? hpiece, hc⟩

theorem dropCarriageReturn_isPrefix (l : Text) : dropCarriageReturn l <+: l := by
  rw [dropCarriageReturn]
  split
  · exact List.dropLast_prefix l
  · exact List.prefix_rfl

theorem mem_dropEmptyLast {ls : List Text} {l : Text} (h : l ∈ dropEmptyLast ls) : l ∈ ls := by
  have hpre := List.dropLast_prefix ls
  rw [dropEmptyLast] at h
  split at h
  · exact hpre.subset h
  · exact h

theorem newline_not_mem_of_mem_lines {t l : Text} (h : l ∈ lines t) : Text.newline ∉ l := by
  obtain ⟨l', hl', rfl⟩ := List.mem_map.1 h
  have hnew := not_mem_of_mem_splitOn (mem_dropEmptyLast hl')
  exact fun hmem => hnew ((dropCarriageReturn_isPrefix l').subset hmem)

theorem subset_of_mem_lines {t l : Text} (h : l ∈ lines t) : l ⊆ t := by
  obtain ⟨l', hl', rfl⟩ := List.mem_map.1 h
  intro b hb
  exact mem_of_mem_splitOn (mem_dropEmptyLast hl') ((dropCarriageReturn_isPrefix l').subset hb)

/-- A carriage return at the end of a line is white space. -/
theorem trimEnd_dropCarriageReturn (l : Text) : (dropCarriageReturn l).trimEnd = l.trimEnd := by
  rw [dropCarriageReturn]
  split
  · next h =>
    obtain ⟨init, hinit⟩ := List.getLast?_eq_some_iff.1 h
    have hspace : Text.Spaces [Text.carriageReturn] := Text.Run.single (by decide)
    rw [hinit, List.dropLast_concat, Text.trimEnd_append _ hspace]
  · rfl

/-- Joined lines are a line and what follows it. -/
theorem exists_join_cons (l : Text) (ls : List Text) :
    ∃ rest, Text.join [Text.newline] (l :: ls) = l ++ rest ∧
      (ls = [] ∧ rest = [] ∨ ls ≠ [] ∧ rest = Text.newline :: Text.join [Text.newline] ls) := by
  cases ls with
  | nil => exact ⟨[], by simp [Text.join], .inl ⟨rfl, rfl⟩⟩
  | cons l' ls =>
    refine ⟨_, ?_, .inr ⟨by simp, rfl⟩⟩
    simp [Text.join, List.intercalate_cons_cons]

/-- Lines that are joined come apart again. -/
theorem lines_join {ls : List Text} (hne : ls ≠ []) (hnew : ∀ l ∈ ls, Text.newline ∉ l)
    (hlast : ls.getLast? ≠ some []) :
    lines (Text.join [Text.newline] ls) = ls.map dropCarriageReturn := by
  rw [lines, Text.join, List.splitOn_intercalate _ hnew hne, dropEmptyLast, if_neg hlast]

theorem unlines_cons (l : Text) (ls : List Text) :
    unlines (l :: ls) = l ++ Text.newline :: unlines ls := by
  simp [unlines]

/-- Writing lines is joining them, with a newline after the last one too. -/
theorem unlines_eq_join_append {ls : List Text} (hne : ls ≠ []) :
    unlines ls = Text.join [Text.newline] ls ++ [Text.newline] := by
  induction ls with
  | nil => exact absurd rfl hne
  | cons l ls ih =>
    obtain ⟨rest, hjoin, ⟨rfl, rfl⟩ | ⟨hls, rfl⟩⟩ := exists_join_cons l ls
    · rw [hjoin, unlines_cons, List.append_nil]
      rfl
    · rw [hjoin, unlines_cons, ih hls, List.append_assoc, List.cons_append]

theorem splitOn_unlines {ls : List Text} (hnew : ∀ l ∈ ls, Text.newline ∉ l) :
    (unlines ls).splitOn Text.newline = ls ++ [[]] := by
  induction ls with
  | nil => rfl
  | cons l ls ih =>
    rw [unlines_cons, List.splitOn_append_cons_self,
      List.splitOn_eq_singleton (hnew l List.mem_cons_self),
      ih fun l' hl' => hnew l' (List.mem_cons_of_mem _ hl')]
    rfl

/-- Lines that are written come apart again. -/
theorem lines_unlines {ls : List Text} (hnew : ∀ l ∈ ls, Text.newline ∉ l) :
    lines (unlines ls) = ls.map dropCarriageReturn := by
  rw [lines, splitOn_unlines hnew, dropEmptyLast, List.getLast?_concat, if_pos rfl,
    List.dropLast_concat]

theorem dropCarriageReturn_eq_self {l : Text} (h : l.getLast? ≠ some Text.carriageReturn) :
    dropCarriageReturn l = l := if_neg h

theorem dropCarriageReturn_append (l : Text) :
    dropCarriageReturn (l ++ [Text.carriageReturn]) = l := by
  rw [dropCarriageReturn, if_pos List.getLast?_concat, List.dropLast_concat]

/-! ### The state after lines -/

/-- Lines that are equal one by one, up to white space at the end, leave the same state. -/
theorem blockAfter_map_congr {α : Type} {f g : α → Text} (inBlock : Bool) (xs : List α)
    (h : ∀ x ∈ xs, (f x).trimEnd = (g x).trimEnd) :
    blockAfter inBlock (xs.map f) = blockAfter inBlock (xs.map g) := by
  induction xs generalizing inBlock with
  | nil => rfl
  | cons x xs ih =>
    rw [List.map_cons, List.map_cons, blockAfter_cons, blockAfter_cons,
      (scanLine_congr inBlock (h x List.mem_cons_self)).2]
    exact ih _ fun y hy => h y (List.mem_cons_of_mem _ hy)

theorem blockAfter_map_dropCarriageReturn (inBlock : Bool) (ls : List Text) :
    blockAfter inBlock (ls.map dropCarriageReturn) = blockAfter inBlock ls := by
  have h := blockAfter_map_congr (f := dropCarriageReturn) (g := id) inBlock ls
    fun l _ => trimEnd_dropCarriageReturn l
  rwa [List.map_id] at h

/-- A text without newlines goes to the last of the pieces. -/
theorem exists_splitOn_append {b : UInt8} {s : Text} (hs : b ∉ s) (t : Text) :
    ∃ init last, t.splitOn b = init ++ [last] ∧ (t ++ s).splitOn b = init ++ [last ++ s] := by
  induction t with
  | nil => exact ⟨[], [], List.splitOn_nil b, List.splitOn_eq_singleton hs⟩
  | cons c t ih =>
    obtain ⟨init, last, hsplit, hsplit'⟩ := ih
    rw [List.cons_append, List.splitOn_cons_eq_if_modifyHead, List.splitOn_cons_eq_if_modifyHead,
      hsplit, hsplit']
    split
    · exact ⟨[] :: init, last, rfl, rfl⟩
    · cases init with
      | nil => exact ⟨[], c :: last, rfl, rfl⟩
      | cons first init => exact ⟨(c :: first) :: init, last, rfl, rfl⟩

/-! ### White space at the end of a text -/

/-- Cutting a text into lines drops an empty piece at most. -/
theorem exists_map_trimEnd_lines (t : Text) :
    ∃ n, (t.splitOn Text.newline).map Text.trimEnd =
      (lines t).map Text.trimEnd ++ List.replicate n [] := by
  have hreturn : (lines t).map Text.trimEnd =
      (dropEmptyLast (t.splitOn Text.newline)).map Text.trimEnd := by
    rw [lines, List.map_map]
    exact List.map_congr_left fun l _ => trimEnd_dropCarriageReturn l
  rw [hreturn, dropEmptyLast]
  split
  · next h =>
    obtain ⟨init, hinit⟩ := List.getLast?_eq_some_iff.1 h
    refine ⟨1, ?_⟩
    rw [hinit, List.dropLast_concat, List.map_append, List.map_singleton,
      Text.trimEnd_eq_nil_iff.2 Text.spaces_nil]
    rfl
  · exact ⟨0, (List.append_nil _).symm⟩

theorem exists_map_trimEnd_splitOn_append (t : Text) {s : Text} (hs : Text.Spaces s) :
    ∃ n, ((t ++ s).splitOn Text.newline).map Text.trimEnd =
      (t.splitOn Text.newline).map Text.trimEnd ++ List.replicate n [] := by
  induction hs generalizing t with
  | nil => exact ⟨0, by simp⟩
  | @cons w s hw _ ih =>
    obtain ⟨n, hn⟩ := ih (t ++ w)
    rw [← List.append_assoc, hn]
    -- a newline adds an empty piece, and any other space character stays in the last piece
    rcases Text.eq_newline_or_not_mem_of_mem_spaceForms w hw with rfl | hnew
    · refine ⟨n + 1, ?_⟩
      rw [List.splitOn_append_cons_self, List.splitOn_nil, List.map_append, List.map_singleton,
        Text.trimEnd_eq_nil_iff.2 Text.spaces_nil, List.append_assoc, List.replicate_succ]
      rfl
    · obtain ⟨init, last, hsplit, hsplit'⟩ := exists_splitOn_append hnew t
      refine ⟨n, ?_⟩
      rw [hsplit, hsplit', List.map_append, List.map_append, List.map_singleton,
        List.map_singleton, Text.trimEnd_append last (Text.Run.single hw)]

/-- Without the white space at its end a text has the same lines, up to white space at the end of a
line and to empty lines at the end of the text. -/
theorem exists_map_trimEnd_lines_trimEnd (t : Text) :
    ∃ m n, (lines t.trimEnd).map Text.trimEnd ++ List.replicate m [] =
      (lines t).map Text.trimEnd ++ List.replicate n [] := by
  obtain ⟨s, hs, he⟩ := Text.exists_trimEnd_append t
  obtain ⟨k, hk⟩ := exists_map_trimEnd_splitOn_append t.trimEnd hs
  obtain ⟨m, hm⟩ := exists_map_trimEnd_lines t.trimEnd
  obtain ⟨n, hn⟩ := exists_map_trimEnd_lines t
  rw [← he, hn, hm, List.append_assoc, List.replicate_append_replicate] at hk
  exact ⟨m + k, n, hk.symm⟩

theorem blockAfter_map_trimEnd_append (inBlock : Bool) (ls : List Text) (n : Nat) :
    blockAfter inBlock (ls.map Text.trimEnd ++ List.replicate n []) = blockAfter inBlock ls := by
  have htrim := blockAfter_map_congr (f := Text.trimEnd) (g := id) inBlock ls
    fun l _ => Text.trimEnd_trimEnd l
  rw [List.map_id] at htrim
  rw [blockAfter_append, htrim]
  induction n with
  | zero => rfl
  | succ n ih => rw [List.replicate_succ, blockAfter_cons, scanLine_spaces _ Text.spaces_nil, ih]

/-- White space at the end of a text leaves the state after its lines as it is. -/
theorem blockAfter_lines_trimEnd (inBlock : Bool) (t : Text) :
    blockAfter inBlock (lines t.trimEnd) = blockAfter inBlock (lines t) := by
  obtain ⟨m, n, h⟩ := exists_map_trimEnd_lines_trimEnd t
  rw [← blockAfter_map_trimEnd_append inBlock (lines t.trimEnd) m, h,
    blockAfter_map_trimEnd_append]

end ShaderSplice
