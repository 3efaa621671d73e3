import ShaderSplice.Comment
import ShaderSplice.Proofs.Text.Space

/-!
# Scanning a line, and scanning it without the white space at its end

White space has no comment delimiter in it, so what stands at the end of a line has no say in how
the line is read: the flags and the state after the line stay, and its code changes by white space
at the end (`scanLine_congr`). Two scans of that kind *agree* (`Scan.Agree`).

`blockAfter` runs the scanner over lines and keeps the state only. It is the state in which a line
is met:

    (scanLines b ls)[i]? = ls[i]?.map (scanLine (blockAfter b (ls.take i)))
-/

namespace ShaderSplice

/-! ### Cutting at a needle -/

namespace Text

theorem isPrefixOf?_append {needle s : Text} (hs : ∀ b ∈ needle, b ∉ s) (t : Text) :
    needle.isPrefixOf? (t ++ s) = (needle.isPrefixOf? t).map (· ++ s) := by
  cases h : needle.isPrefixOf? t with
  | some rest =>
    have ht := eq_append_of_isPrefixOf? h
    rw [ht, List.append_assoc, Option.map_some, List.isPrefixOf?_eq_some_iff_append_eq]
  | none =>
    rw [Option.map_none, Option.eq_none_iff_forall_ne_some]
    intro rest hrest
    have he := eq_append_of_isPrefixOf? hrest
    rcases List.append_eq_append_iff.1 he with ⟨u, hu, hs'⟩ | ⟨u, hu, -⟩
    · -- the needle would have to end inside `s`
      cases u with
      | nil =>
        rw [List.append_nil] at hu
        have hself : needle.isPrefixOf? t = some [] := by
          rw [List.isPrefixOf?_eq_some_iff_append_eq, hu, List.append_nil]
        rw [h] at hself
        cases hself
      | cons b u =>
        have hb : b ∈ needle := by rw [hu]; simp
        exact hs b hb (by rw [hs']; simp)
    · have hpre : needle.isPrefixOf? t = some u := by
        rw [List.isPrefixOf?_eq_some_iff_append_eq, hu]
      rw [h] at hpre
      cases hpre

theorem cut?_eq_none_of_not_mem {needle t : Text} {b : UInt8} (hb : b ∈ needle) (ht : b ∉ t) :
    t.cut? needle = none := by
  rw [Option.eq_none_iff_forall_ne_some]
  rintro ⟨before, after⟩ h
  apply ht
  rw [cut?_eq_some h]
  simp [hb]

/-- A text that shares no byte with the needle adds nothing to the places where it is found. -/
theorem cut?_append {needle s : Text} (hne : needle ≠ []) (hs : ∀ b ∈ needle, b ∉ s) (t : Text) :
    (t ++ s).cut? needle = (t.cut? needle).map fun (before, after) => (before, after ++ s) := by
  obtain ⟨b, hb⟩ := List.exists_mem_of_ne_nil needle hne
  induction t with
  | nil =>
    rw [List.nil_append, cut?_eq_none_of_not_mem hb (hs b hb), cut?_eq_none_of_not_mem hb (by simp),
      Option.map_none]
  | cons c t ih =>
    rw [List.cons_append, cut?, cut?, ← List.cons_append, isPrefixOf?_append hs]
    cases needle.isPrefixOf? (c :: t) with
    | some rest => rfl
    | none =>
      rw [Option.map_none, ih]
      cases cut? t needle <;> rfl

end Text

/-! ### Stripping comments -/

/-- White space is free of comment delimiters. -/
theorem Text.Spaces.free_of_delimiters {s : Text} (hs : Text.Spaces s) :
    ∀ needle ∈ [blockOpen, blockClose, lineComment], ∀ b ∈ needle, b ∉ s := by
  have hbytes : ∀ needle ∈ [blockOpen, blockClose, lineComment],
      needle.all (fun b => spaceForms.all fun w => w.all (· != b)) = true := by decide
  intro needle hn b hb
  have hforms := List.all_eq_true.1 (hbytes needle hn) b hb
  exact hs.not_mem (List.all_eq_true.1 hforms)

theorem beforeLineComment_append (t : Text) {s : Text} (hs : Text.Spaces s) :
    ∃ s', Text.Spaces s' ∧ beforeLineComment (t ++ s) = beforeLineComment t ++ s' := by
  rw [beforeLineComment, beforeLineComment,
    Text.cut?_append (by decide) (hs.free_of_delimiters _ (by simp))]
  cases t.cut? lineComment with
  | none => exact ⟨s, hs, rfl⟩
  | some p => exact ⟨[], Text.spaces_nil, by simp⟩

theorem stripComments_of_none {t : Text} (h : t.cut? blockOpen = none) :
    stripComments t = (beforeLineComment t, false) := by
  rw [stripComments]
  split
  · rfl
  · next h' => rw [h] at h'; cases h'

theorem stripComments_of_some {t before after : Text}
    (h : t.cut? blockOpen = some (before, after)) :
    stripComments t =
      match (before ++ [Text.slash]).cut? lineComment with
      | some (code, _) => (code, false)
      | none =>
        match after.cut? blockClose with
        | none => (before, true)
        | some (_, rest) => (before ++ (stripComments rest).1, (stripComments rest).2) := by
  rw [stripComments]
  split
  · next h' => rw [h] at h'; cases h'
  · next b a h' =>
    rw [h] at h'
    cases h'
    cases Text.cut? (before ++ [Text.slash]) lineComment with
    | some p => rfl
    | none =>
      dsimp only
      split
      · next hc => rw [hc]
      · next hc => rw [hc]

/-- White space at the end of a line stays in its code or disappears with a comment. -/
theorem stripComments_append (t : Text) {s : Text} (hs : Text.Spaces s) :
    ∃ s', Text.Spaces s' ∧
      stripComments (t ++ s) = ((stripComments t).1 ++ s', (stripComments t).2) := by
  have hfree := hs.free_of_delimiters
  have hopen (u : Text) := Text.cut?_append (by decide) (hfree blockOpen (by simp)) u
  have hclose (u : Text) := Text.cut?_append (by decide) (hfree blockClose (by simp)) u
  fun_induction stripComments t with
  | case1 t h =>
    obtain ⟨s', hs', he⟩ := beforeLineComment_append t hs
    refine ⟨s', hs', ?_⟩
    rw [stripComments_of_none (by rw [hopen, h]; rfl), he]
  | case2 t before after h code rest hline =>
    refine ⟨[], Text.spaces_nil, ?_⟩
    rw [stripComments_of_some (by rw [hopen, h]; rfl), hline, List.append_nil]
  | case3 t before after h hline hend =>
    refine ⟨[], Text.spaces_nil, ?_⟩
    rw [stripComments_of_some (by rw [hopen, h]; rfl), hline, hclose, hend, List.append_nil]
    rfl
  | case4 t before after h hline skipped rest hend code isOpen heq ih =>
    obtain ⟨s', hs', he⟩ := ih
    refine ⟨s', hs', ?_⟩
    rw [stripComments_of_some (by rw [hopen, h]; rfl), hline, hclose, hend]
    simp only [Option.map_some, he, heq, List.append_assoc]

/-- A line without a slash is all code. -/
theorem stripComments_of_no_slash {t : Text} (h : Text.slash ∉ t) :
    stripComments t = (t, false) := by
  have hopen : t.cut? blockOpen = none := Text.cut?_eq_none_of_not_mem (by decide) h
  have hline : t.cut? lineComment = none := Text.cut?_eq_none_of_not_mem (by decide) h
  rw [stripComments_of_none hopen, beforeLineComment, hline]

/-- Code is what is left of a line: it has no other bytes. -/
theorem stripComments_subset (t : Text) : (stripComments t).1 ⊆ t := by
  have hbefore {t needle before after : Text} (h : t.cut? needle = some (before, after)) :
      before ⊆ t ∧ after ⊆ t := by
    rw [Text.cut?_eq_some h]
    exact ⟨fun b hb => by simp [hb], fun b hb => by simp [hb]⟩
  fun_induction stripComments t with
  | case1 t h =>
    rw [beforeLineComment]
    split
    · next before after hc => exact (hbefore hc).1
    · exact List.Subset.refl t
  | case2 t before after h code rest hline =>
    -- a line comment starts before the opener, so its first byte at most is the opener's
    obtain ⟨more, hmore⟩ : code <+: before := by
      have he := Text.cut?_eq_some hline
      have hlen : code.length ≤ before.length := by
        have hlength := congrArg List.length he
        have htwo : lineComment.length = 2 := by decide
        simp only [List.length_append, List.length_singleton, htwo] at hlength
        omega
      rw [List.append_assoc] at he
      exact List.prefix_of_prefix_length_le ⟨_, he.symm⟩ (List.prefix_append _ _) hlen
    exact fun b hb => (hbefore h).1 (by rw [← hmore]; simp [hb])
  | case3 t before after h hline hend => exact (hbefore h).1
  | case4 t before after h hline skipped rest hend code isOpen heq ih =>
    rw [heq] at ih
    intro b hb
    rcases List.mem_append.1 hb with hb | hb
    · exact (hbefore h).1 hb
    · exact (hbefore h).2 ((hbefore hend).2 (ih hb))

/-! ### Scans that agree -/

namespace Scan

/-- Two scans that differ at most in white space at the end of their codes. -/
structure Agree (a b : Scan) : Prop where
  inComment : a.inComment = b.inComment
  closes : a.closes = b.closes
  opens : a.opens = b.opens
  code : a.code.trimEnd = b.code.trimEnd

theorem Agree.symm {a b : Scan} (h : a.Agree b) : b.Agree a :=
  ⟨h.inComment.symm, h.closes.symm, h.opens.symm, h.code.symm⟩

theorem Agree.trans {a b c : Scan} (h : a.Agree b) (h' : b.Agree c) : a.Agree c :=
  ⟨h.inComment.trans h'.inComment, h.closes.trans h'.closes, h.opens.trans h'.opens,
    h.code.trans h'.code⟩

end Scan

/-! ### Reading a line -/

theorem scanLine_outside (t : Text) :
    scanLine false t =
      (⟨(stripComments t).1, false, false, (stripComments t).2⟩, (stripComments t).2) := rfl

theorem scanLine_inside_of_none {t : Text} (h : t.cut? blockClose = none) :
    scanLine true t = (⟨[], true, false, false⟩, true) := by
  rw [scanLine, if_pos rfl, h]

theorem scanLine_inside_of_some {t skipped rest : Text}
    (h : t.cut? blockClose = some (skipped, rest)) :
    scanLine true t =
      (⟨(stripComments rest).1, false, true, (stripComments rest).2⟩, (stripComments rest).2) := by
  rw [scanLine, if_pos rfl, h]

theorem scanLine_append (inBlock : Bool) (t : Text) {s : Text} (hs : Text.Spaces s) :
    (scanLine inBlock (t ++ s)).1.Agree (scanLine inBlock t).1 ∧
      (scanLine inBlock (t ++ s)).2 = (scanLine inBlock t).2 := by
  cases inBlock with
  | false =>
    obtain ⟨s', hs', he⟩ := stripComments_append t hs
    rw [scanLine_outside, scanLine_outside, he]
    exact ⟨⟨rfl, rfl, rfl, Text.trimEnd_append _ hs'⟩, rfl⟩
  | true =>
    have hcut := Text.cut?_append (by decide) (hs.free_of_delimiters blockClose (by simp)) t
    cases h : t.cut? blockClose with
    | none =>
      rw [h, Option.map_none] at hcut
      rw [scanLine_inside_of_none h, scanLine_inside_of_none hcut]
      exact ⟨⟨rfl, rfl, rfl, rfl⟩, rfl⟩
    | some p =>
      obtain ⟨s', hs', he⟩ := stripComments_append p.2 hs
      rw [h, Option.map_some] at hcut
      rw [scanLine_inside_of_some h, scanLine_inside_of_some hcut, he]
      exact ⟨⟨rfl, rfl, rfl, Text.trimEnd_append _ hs'⟩, rfl⟩

/-- Lines that are equal up to white space at the end are read in the same way. -/
theorem scanLine_congr (inBlock : Bool) {t t' : Text} (h : t.trimEnd = t'.trimEnd) :
    (scanLine inBlock t).1.Agree (scanLine inBlock t').1 ∧
      (scanLine inBlock t).2 = (scanLine inBlock t').2 := by
  obtain ⟨s, hs, ht⟩ := Text.exists_trimEnd_append t
  obtain ⟨s', hs', ht'⟩ := Text.exists_trimEnd_append t'
  have h₁ := scanLine_append inBlock t.trimEnd hs
  have h₂ := scanLine_append inBlock t'.trimEnd hs'
  rw [← ht] at h₁
  rw [← ht', ← h] at h₂
  exact ⟨h₁.1.trans h₂.1.symm, h₁.2.trans h₂.2.symm⟩

theorem code_subset (inBlock : Bool) (t : Text) : (scanLine inBlock t).1.code ⊆ t := by
  cases inBlock with
  | false => exact stripComments_subset t
  | true =>
    cases h : t.cut? blockClose with
    | none =>
      rw [scanLine_inside_of_none h]
      exact List.nil_subset t
    | some p =>
      rw [scanLine_inside_of_some h]
      intro b hb
      rw [Text.cut?_eq_some h]
      simp [stripComments_subset p.2 hb]

/-! ### The state around a line -/

/-- Whether the line starts inside a block comment can be told from its scan. -/
theorem scanLine_start (inBlock : Bool) (t : Text) :
    ((scanLine inBlock t).1.inComment || (scanLine inBlock t).1.closes) = inBlock := by
  cases inBlock with
  | false => rfl
  | true =>
    cases h : t.cut? blockClose with
    | none => rw [scanLine_inside_of_none h]; rfl
    | some p => rw [scanLine_inside_of_some h]; rfl

/-- So can whether it ends inside one. -/
theorem scanLine_end (inBlock : Bool) (t : Text) :
    ((scanLine inBlock t).1.inComment || (scanLine inBlock t).1.opens) =
      (scanLine inBlock t).2 := by
  cases inBlock with
  | false => rfl
  | true =>
    cases h : t.cut? blockClose with
    | none => rw [scanLine_inside_of_none h]; rfl
    | some p => rw [scanLine_inside_of_some h]; rfl

/-- A line inside a comment has no code. -/
theorem code_eq_nil_of_inComment {inBlock : Bool} {t : Text}
    (h : (scanLine inBlock t).1.inComment = true) : (scanLine inBlock t).1.code = [] := by
  cases inBlock with
  | false => cases h
  | true =>
    cases hc : t.cut? blockClose with
    | none => rw [scanLine_inside_of_none hc]
    | some p => rw [scanLine_inside_of_some hc] at h; cases h

theorem isBlank_of_inComment {inBlock : Bool} {t : Text}
    (h : (scanLine inBlock t).1.inComment = true) : (scanLine inBlock t).1.isBlank = true := by
  rw [Scan.isBlank, code_eq_nil_of_inComment h, Text.isSpaces_iff]
  exact Text.spaces_nil

theorem scanLine_of_no_slash {t : Text} (h : Text.slash ∉ t) :
    scanLine false t = (⟨t, false, false, false⟩, false) := by
  rw [scanLine_outside, stripComments_of_no_slash h]

/-- White space leaves the state as it is. -/
theorem scanLine_spaces (inBlock : Bool) {s : Text} (hs : Text.Spaces s) :
    (scanLine inBlock s).2 = inBlock := by
  have hslash : Text.slash ∉ ([] : Text) := by simp
  rw [← List.nil_append s, (scanLine_append inBlock [] hs).2]
  cases inBlock with
  | false => rw [scanLine_of_no_slash hslash]
  | true => rfl

/-! ### The state after lines -/

/-- Whether a block comment is open after lines of which the first starts in the given state. -/
def blockAfter (inBlock : Bool) (ls : List Text) : Bool :=
  ls.foldl (fun b l => (scanLine b l).2) inBlock

@[simp] theorem blockAfter_nil (inBlock : Bool) : blockAfter inBlock [] = inBlock := rfl

@[simp] theorem blockAfter_cons (inBlock : Bool) (l : Text) (ls : List Text) :
    blockAfter inBlock (l :: ls) = blockAfter (scanLine inBlock l).2 ls := rfl

@[simp] theorem blockAfter_append (inBlock : Bool) (ls ls' : List Text) :
    blockAfter inBlock (ls ++ ls') = blockAfter (blockAfter inBlock ls) ls' :=
  List.foldl_append ..

/-- Each line is read in the state that the lines before it leave behind. -/
theorem getElem?_scanLines (inBlock : Bool) (ls : List Text) (i : Nat) :
    (scanLines inBlock ls)[i]? = ls[i]?.map (scanLine (blockAfter inBlock (ls.take i))) := by
  induction ls generalizing inBlock i with
  | nil => simp [scanLines]
  | cons l ls ih =>
    cases i with
    | zero => simp [scanLines]
    | succ i => simpa [scanLines] using ih _ i

theorem scanLines_append (inBlock : Bool) (ls ls' : List Text) :
    scanLines inBlock (ls ++ ls') =
      scanLines inBlock ls ++ scanLines (blockAfter inBlock ls) ls' := by
  induction ls generalizing inBlock with
  | nil => rfl
  | cons l ls ih => simp [scanLines, ih]

end ShaderSplice
