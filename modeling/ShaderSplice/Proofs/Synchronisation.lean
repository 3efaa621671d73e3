import ShaderSplice.Proofs.Site

/-!
# The scanner on an assembled text

An assembly that keeps its lines is read back by the same scanner as the files that it is made of.
This module shows that the scanner stays in step: each copied line is met in the comment state that
it has in its own file, and every generated line in the state that it was made for.

`Passes` says this about a run of lines, from the state before the first to the state after the
last. Runs are put together with `Leads.append`, so that there is one lemma for each piece of a
body, and an induction for the whole:

    seam          closes ──▶ opens
    marker         false ──▶ false
    a source line  state before it ──▶ state after it
    a frame        false ──▶ false      (the frame of the source itself: ──▶ state after its lines)
-/

namespace ShaderSplice

/-! ### Lines that are in step -/

/-- `l` is the source line of which an output line is a copy. Only white space at its end may be
lost. -/
structure CopyOf (table : IncludeTable) (top : Text) (site : List Nat) (file : FileRef)
    (number : Nat) (t : Text) (l : SourceLine) : Prop where
  source : ∃ content, expandedAt table .top top site = some (file, content) ∧
    l ∈ sourceLines content
  number_eq : l.number = number
  text_eq : t = l.raw ∨ t = l.raw.trimEnd

theorem CopyOf.trimEnd_eq {table : IncludeTable} {top : Text} {site : List Nat} {file : FileRef}
    {number : Nat} {t : Text} {l : SourceLine} (h : CopyOf table top site file number t l) :
    t.trimEnd = l.raw.trimEnd := by
  rcases h.text_eq with ht | ht
  · rw [ht]
  · rw [ht, Text.trimEnd_trimEnd]

namespace PlacedLine

/-- The comment state after a line, given the state before it. -/
def blockStep (idOf : FileRef → FileId) (inBlock : Bool) (p : PlacedLine) : Bool :=
  (scanLine inBlock (p.text idOf)).2

/-- A line is met in the comment state in which it was written. -/
def InStep (table : IncludeTable) (top : Text) (inBlock : Bool) (p : PlacedLine) : Prop :=
  match p.line with
  | .version v => inBlock = false ∧ Text.slash ∉ v
  | .marker _ _ => inBlock = false
  | .seam closes _ => inBlock = closes
  | .copy file number t =>
    ∃ l, CopyOf table top p.site file number t l ∧ scanLine inBlock l.raw = (l.scan, l.openAfter)

end PlacedLine

theorem foldl_blockStep (idOf : FileRef → FileId) (inBlock : Bool) (ps : List PlacedLine) :
    ps.foldl (PlacedLine.blockStep idOf) inBlock =
      blockAfter inBlock (ps.map (PlacedLine.text idOf)) := by
  rw [blockAfter, List.foldl_map]
  rfl

/-- White space at the end of a line does not bring it out of step. -/
theorem PlacedLine.InStep.of_trimEnd? {table : IncludeTable} {top : Text} {inBlock : Bool}
    {p q : PlacedLine} (hq : p.trimEnd? = some q) (h : p.InStep table top inBlock) :
    q.InStep table top inBlock := by
  rcases p.trimEnd?_eq_some hq with ⟨rfl, -⟩ | ⟨file, number, t, hp, -, rfl⟩
  · exact h
  · rw [InStep, hp] at h
    obtain ⟨l, hl, hscan⟩ := h
    exact ⟨l, ⟨hl.source, hl.number_eq, .inr hl.trimEnd_eq⟩, hscan⟩

/-- The lines `ps` are in step if the first is met in the state `before`, and the state after the
last is `after`. -/
def Passes (table : IncludeTable) (top : Text) (idOf : FileRef → FileId) (before : Bool)
    (ps : List PlacedLine) (after : Bool) : Prop :=
  Leads (PlacedLine.blockStep idOf) (PlacedLine.InStep table top) before ps after

section
variable {table : IncludeTable} {top : Text} {idOf : FileRef → FileId}

theorem Passes.blockAfter_eq {before after : Bool} {ps : List PlacedLine}
    (h : Passes table top idOf before ps after) :
    blockAfter before (ps.map (PlacedLine.text idOf)) = after := by
  rw [← foldl_blockStep]
  exact h.ends

theorem Passes.trimPlaced {before after : Bool} {ps : List PlacedLine}
    (h : Passes table top idOf before ps after) :
    Passes table top idOf before (trimPlaced ps) after := by
  constructor
  · exact h.along.trimPlaced fun _ _ _ hq hp => hp.of_trimEnd? hq
  · rw [foldl_blockStep, blockAfter_trimPlaced, h.blockAfter_eq]

theorem passes_single {inBlock after : Bool} {p : PlacedLine} (h : p.InStep table top inBlock)
    (hafter : (scanLine inBlock (p.text idOf)).2 = after) :
    Passes table top idOf inBlock [p] after := by
  subst hafter
  exact Leads.single h

/-! ### The pieces of a body -/

/-- A seam takes the scanner from one state to the other, and has no code. -/
theorem scanLine_seamText (closes opens : Bool) :
    (scanLine closes (seamText closes opens)).2 = opens ∧
      (scanLine closes (seamText closes opens)).1.isBlank = true := by
  have hopen : ∀ t ∈ [Text.ofString "/*", Text.ofString " /*"],
      (stripComments t).2 = true ∧ (stripComments t).1.isSpaces = true := by
    intro t ht
    have hcut : t.cut? blockOpen = some (t.takeWhile isBlankByte, []) ∧
        Text.cut? (t.takeWhile isBlankByte ++ [Text.slash]) lineComment = none := by
      revert t
      decide
    rw [stripComments_of_some hcut.1, hcut.2]
    refine ⟨rfl, Text.isSpaces_iff.2 (Text.spaces_of_blanks ?_)⟩
    exact fun b hb => List.mem_takeWhile_imp hb
  have hclose : ∀ opens, (seamText true opens).cut? blockClose =
      some ([], (seamText true opens).drop 2) := by decide
  have hnil : stripComments [] = ([], false) := stripComments_of_no_slash (by simp)
  have hblank : Scan.isBlank ⟨[], false, closes, false⟩ = true :=
    Text.isSpaces_iff.2 Text.spaces_nil
  cases closes with
  | false =>
    rw [scanLine_outside]
    cases opens with
    | false => exact ⟨congrArg Prod.snd hnil, by rw [seamText, hnil]; exact hblank⟩
    | true => exact hopen _ (by simp [seamText])
  | true =>
    rw [scanLine_inside_of_some (hclose opens)]
    cases opens with
    | false =>
      have hrest : (seamText true false).drop 2 = [] := by decide
      rw [hrest, hnil]
      exact ⟨rfl, hblank⟩
    | true => exact hopen _ (by decide)

theorem passes_seam (site : List Nat) (closes opens : Bool) :
    Passes table top idOf closes [⟨site, .seam closes opens⟩] opens :=
  passes_single rfl (scanLine_seamText closes opens).1

theorem scanLine_marker (number : Nat) (file : FileRef) :
    scanLine false ((OutputLine.marker number file).render idOf) =
      (⟨(OutputLine.marker number file).render idOf, false, false, false⟩, false) :=
  scanLine_of_no_slash (not_mem_render_marker (by decide) (by decide) idOf number file)

theorem scanLine_version {v : Text} (hv : Text.slash ∉ v) :
    scanLine false ((OutputLine.version v).render idOf) =
      (⟨(OutputLine.version v).render idOf, false, false, false⟩, false) := by
  have hword : Text.slash ∉ Text.ofString "#version " := by decide
  exact scanLine_of_no_slash (by simp [OutputLine.render, hword, hv])

theorem passes_marker (site : List Nat) (number : Nat) (file : FileRef) :
    Passes table top idOf false [⟨site, .marker number file⟩] false :=
  passes_single rfl (congrArg Prod.snd (scanLine_marker number file))

variable {site : List Nat} {file : FileRef} {content : Text} {l : SourceLine} {inBlock : Bool}

/-- The scan of a line tells the states before and after it. -/
theorem SourceLine.states_eq (hscan : scanLine inBlock l.raw = (l.scan, l.openAfter)) :
    (l.scan.inComment || l.scan.closes) = inBlock ∧
      (l.scan.inComment || l.scan.opens) = l.openAfter := by
  have hstart := scanLine_start inBlock l.raw
  have hend := scanLine_end inBlock l.raw
  rw [hscan] at hstart hend
  exact ⟨hstart, hend⟩

/-- What is written for a line that is no include directive leads where the line itself leads. -/
theorem passes_output (hsite : expandedAt table .top top site = some (file, content))
    (hl : l ∈ sourceLines content) (hfirst : l.number = 1 → inBlock = false)
    (hscan : scanLine inBlock l.raw = (l.scan, l.openAfter)) :
    Passes table top idOf inBlock (placeAt site (l.output .keep file)) l.openAfter := by
  obtain ⟨hstart, hend⟩ := l.states_eq hscan
  rcases l.output_keep_cases file with ⟨he, hone, hopen, -⟩ | ⟨he, -⟩ | ⟨he, hsome⟩
  · -- nothing is written, and nothing happens to the state
    rw [he, hfirst hone, hopen]
    exact Leads.nil
  · rw [he]
    refine passes_single ⟨l, ⟨⟨content, hsite, hl⟩, rfl, .inl rfl⟩, hscan⟩ ?_
    exact congrArg Prod.snd hscan
  · -- a version declaration is code, so what the scan says about its ends is all there is to say
    obtain ⟨v, hv⟩ := Option.isSome_iff_exists.1 hsome
    obtain ⟨started, hhas⟩ := hasRole_of_mem hl
    rw [SourceLine.leadVersion?_eq_some_iff.1 hv] at hhas
    cases hhas with
    | lead _ hcomment _ =>
      rw [hcomment, Bool.false_or] at hstart hend
      rw [he, ← hstart, ← hend]
      exact passes_seam site l.scan.closes l.scan.opens

/-- Before an include the comment around the directive is closed. -/
theorem passes_beforeSplice (hcomment : l.scan.inComment = false)
    (hscan : scanLine inBlock l.raw = (l.scan, l.openAfter)) :
    Passes table top idOf inBlock (placeAt site (l.beforeSplice .keep)) false := by
  have hstart := (l.states_eq hscan).1
  rw [hcomment, Bool.false_or] at hstart
  rw [SourceLine.beforeSplice, ← hstart]
  cases l.scan.closes with
  | true => exact passes_seam site true false
  | false => exact Leads.nil

/-- After an include the comment that the directive's line opens is opened again. -/
theorem passes_afterSplice :
    Passes table top idOf false (placeAt site (l.afterSplice .keep file)) l.openAfter := by
  rw [SourceLine.afterSplice]
  cases l.openAfter with
  | true => exact (passes_marker site l.number file).append (passes_seam site false true)
  | false => exact passes_marker site (l.number + 1) file

theorem passes_placedFrame {ls : List SourceLine} {inner : List PlacedLine} {after : Bool}
    (hinner : Passes table top idOf false (inner ++ placeAt site (closing .keep file ls)) after) :
    Passes table top idOf false (placedFrame .keep site file ls inner) after :=
  (passes_marker site _ file).append hinner.trimPlaced

/-- An included file ends outside a comment, wherever its lines end. -/
theorem passes_included {name : Text} {ls : List SourceLine} {inner : List PlacedLine}
    (hinner : Passes table top idOf false inner (endsOpen ls)) :
    Passes table top idOf false (placedFrame .keep site (.included name) ls inner) false := by
  refine passes_placedFrame (hinner.append ?_)
  rw [closing]
  cases endsOpen ls with
  | true => exact passes_seam site true false
  | false => exact Leads.nil

/-! ### A whole body -/

theorem Expands.passes {version : Text} {path : List Text} {ls : List SourceLine} {body : Body}
    (h : Expands table version path ls body) {index : Nat} (hplace : InPlace index inBlock ls)
    (hsite : expandedAt table .top top site = some (file, content))
    (hls : ∀ l ∈ ls, l ∈ sourceLines content) :
    Passes table top idOf inBlock (body.placed .keep site file)
      (blockAfter inBlock (ls.map SourceLine.raw)) := by
  induction h generalizing index inBlock site file content with
  | nil => exact Leads.nil
  | @keep path l rest body _ _ _ ih =>
    cases hplace with
    | cons hnumber hfirst hscan _ hrest =>
      have hl := hls l List.mem_cons_self
      have hhead : Passes table top idOf _ (placeAt site (l.output .keep file)) l.openAfter :=
        passes_output hsite hl (fun h => hfirst (by omega)) hscan
      have htail := ih hrest hsite fun l' hl' => hls l' (List.mem_cons_of_mem _ hl')
      rw [List.map_cons, blockAfter_cons, hscan]
      exact hhead.append htail
  | @splice path l rest target text child body hrole hfind _ hchild _ ihchild ih =>
    cases hplace with
    | cons hnumber hfirst hscan hhas hrest =>
      have hcomment := HasRole.inComment_of_splice hhas hrole
      have hsite' := expandedAt_number hsite (hls l List.mem_cons_self) hrole hfind
      have hinner := ihchild (inPlace_sourceLines text) hsite' fun l' hl' => hl'
      have hframe : Passes table top idOf false
          (placedFrame .keep (site ++ [l.number]) (.included target) child.lines
            (child.placed .keep (site ++ [l.number]) (.included target))) false := by
        apply passes_included
        rw [hchild.lines_eq, (inPlace_sourceLines text).endsOpen_eq]
        exact hinner
      have htail := ih hrest hsite fun l' hl' => hls l' (List.mem_cons_of_mem _ hl')
      rw [List.map_cons, blockAfter_cons, hscan]
      exact (((passes_beforeSplice hcomment hscan).append hframe).append
        passes_afterSplice).append htail

/-- The frame of an included file starts and ends outside a comment. -/
theorem Expands.passes_frame {version : Text} {path : List Text} {body : Body} {name : Text}
    (h : Expands table version path (sourceLines content) body)
    (hsite : expandedAt table .top top site = some (.included name, content)) :
    Passes table top idOf false (placedFrame .keep site (.included name) body.lines
      (body.placed .keep site (.included name))) false := by
  apply passes_included
  rw [h.lines_eq, (inPlace_sourceLines content).endsOpen_eq]
  exact h.passes (inPlace_sourceLines content) hsite fun l hl => hl

end

/-! ### A whole assembly -/

theorem slash_not_mem_treeVersion (language : Language) (text : Text) :
    Text.slash ∉ treeVersion language (topLines text) := by
  intro hmem
  rcases bytes_of_treeVersion language text _ hmem with hb | hb
  · exact absurd hb (by decide)
  · exact absurd hb (by decide)

section
variable {language : Language} {table : IncludeTable} {registry : Registry} {name text : Text}
  {a : Assembly}

/-- The lines of an assembly are in step from the first to the last. -/
theorem passes_layout
    (h : (assemble language .keep table registry name text).result = .ok a) :
    Passes table text.trimEnd (assemble language .keep table registry name text).registry.idOf
      false (layout language .keep table name text) (blockAfter false (lines text)) := by
  obtain ⟨body, hexp, hlayout, -, -⟩ := exists_expands_of_assemble h
  generalize (assemble language .keep table registry name text).registry.idOf = idOf
  have hbody : Passes table text.trimEnd idOf false (body.placed .keep [] .top)
      (blockAfter false (lines text)) := by
    have hsite : expandedAt table .top text.trimEnd [] = some (.top, text.trimEnd) := rfl
    rw [← blockAfter_lines_trimEnd, ← map_raw_sourceLinesFrom 1 false false (lines text.trimEnd)]
    exact hexp.passes (inPlace_sourceLines text.trimEnd) hsite fun l hl => hl
  have hframe : Passes table text.trimEnd idOf false
      (placedFrame .keep [] .top body.lines (body.placed .keep [] .top))
      (blockAfter false (lines text)) := by
    -- the source itself is not closed, so it may end inside a comment
    refine passes_placedFrame (hbody.append ?_)
    simp only [closing, ne_eq, not_true_eq_false, false_and, and_false, if_false]
    exact Leads.nil
  have hslash := slash_not_mem_treeVersion language text
  have hhead : Passes table text.trimEnd idOf false
      [⟨[], .version (treeVersion language (topLines text))⟩] false :=
    passes_single ⟨rfl, hslash⟩ (congrArg Prod.snd (scanLine_version hslash))
  rw [hlayout, Body.layout]
  exact hhead.append hframe

/-- The scanner meets an output line in the state that the layout tells. -/
theorem blockAfter_take_lines
    (h : (assemble language .keep table registry name text).result = .ok a) (i : Nat) :
    blockAfter false ((lines a.source).take i) =
      ((layout language .keep table name text).take i).foldl (PlacedLine.blockStep
        (assemble language .keep table registry name text).registry.idOf) false := by
  rw [(lines_source h).2, ← List.map_take, ← List.map_take, blockAfter_map_dropCarriageReturn,
    foldl_blockStep]

end

/-- The line at index `i` of `out` is read as the line at index `k` of `own` is: it starts and ends
in the same comment state, with the same flags and the same code. -/
structure ReadsAlike (out : List Text) (i : Nat) (own : List Text) (k : Nat) : Prop where
  starts : blockAfter false (out.take i) = blockAfter false (own.take k)
  reads : ∃ s s', (scanLines false out)[i]? = some s ∧ (scanLines false own)[k]? = some s' ∧
    s.1.Agree s'.1 ∧ s.2 = s'.2

theorem CopyOf.exists_readsAlike {table : IncludeTable} {top : Text} {site : List Nat}
    {file : FileRef} {number : Nat} {t : Text} {l : SourceLine}
    (h : CopyOf table top site file number t l) {out : List Text} {i : Nat}
    (hscan : scanLine (blockAfter false (out.take i)) l.raw = (l.scan, l.openAfter))
    (hout : out[i]? = some (dropCarriageReturn t)) :
    ∃ content k raw, expandedAt table .top top site = some (file, content) ∧ number = k + 1 ∧
      (lines content)[k]? = some raw ∧ (t = raw ∨ t = raw.trimEnd) ∧
      ReadsAlike out i (lines content) k := by
  obtain ⟨content, hsite, hl⟩ := h.source
  obtain ⟨k, hk, hget⟩ := exists_index_of_mem hl
  obtain ⟨-, hraw, hown⟩ := getElem?_sourceLines hget
  have hread : scanLine (blockAfter false ((lines content).take k)) l.raw =
      (l.scan, l.openAfter) := by
    rw [getElem?_scanLines, hraw] at hown
    exact Option.some.inj hown
  have hagree := scanLine_congr (blockAfter false (out.take i)) (t := dropCarriageReturn t)
    ((trimEnd_dropCarriageReturn t).trans h.trimEnd_eq)
  rw [hscan] at hagree
  refine ⟨content, k, l.raw, hsite, h.number_eq.symm.trans hk, hraw, h.text_eq, ?_, ?_⟩
  · -- both states are the one that the scan of the line tells
    exact (l.states_eq hscan).1.symm.trans (l.states_eq hread).1
  · exact ⟨_, _, by rw [getElem?_scanLines, hout]; rfl, hown, hagree⟩

/-- The lines of a part that stands in one piece are those that belong to its site. -/
theorem isPrefix_site_iff {site : List Nat} {pre part post : List PlacedLine}
    (hpart : ∀ p ∈ part, site <+: p.site) (hout : ∀ p ∈ pre ++ post, ¬ site <+: p.site) {i : Nat}
    {p : PlacedLine} (hp : (pre ++ part ++ post)[i]? = some p) :
    site <+: p.site ↔ pre.length ≤ i ∧ i < pre.length + part.length := by
  by_cases hfirst : i < pre.length
  · rw [List.append_assoc, List.getElem?_append_left hfirst] at hp
    have hnot := hout p (List.mem_append_left _ (List.mem_of_getElem? hp))
    exact ⟨fun hs => absurd hs hnot, fun hi => by omega⟩
  · by_cases hlast : i < pre.length + part.length
    · rw [List.append_assoc, List.getElem?_append_right (by omega),
        List.getElem?_append_left (by omega)] at hp
      exact ⟨fun _ => ⟨by omega, hlast⟩, fun _ => hpart p (List.mem_of_getElem? hp)⟩
    · rw [List.getElem?_append_right (by rw [List.length_append]; omega)] at hp
      have hnot := hout p (List.mem_append_right _ (List.mem_of_getElem? hp))
      exact ⟨fun hs => absurd hs hnot, fun hi => by omega⟩

/-- A marker tells the state in front of a part that begins with it. -/
theorem Passes.states_around {table : IncludeTable} {top : Text} {idOf : FileRef → FileId}
    {before after : Bool} {pre part post : List PlacedLine} {site : List Nat} {number : Nat}
    {file : FileRef} (h : Passes table top idOf before (pre ++ part ++ post) after)
    (hhead : part.head? = some ⟨site, .marker number file⟩)
    (hpart : Passes table top idOf false part false) :
    pre.foldl (PlacedLine.blockStep idOf) before = false ∧
      (pre ++ part).foldl (PlacedLine.blockStep idOf) before = false := by
  have hpre : pre.foldl (PlacedLine.blockStep idOf) before = false := by
    obtain ⟨more, rfl⟩ := List.head?_eq_some_iff.1 hhead
    have halong := h.along
    rw [along_append, along_append] at halong
    exact halong.1.2.1
  rw [List.foldl_append, hpre]
  exact ⟨rfl, hpart.ends⟩

/-- The text of an included file starts and ends outside a comment. -/
theorem exists_range_of_expandedAt {language : Language} {table : IncludeTable}
    {registry : Registry} {name text : Text} {a : Assembly}
    (h : (assemble language .keep table registry name text).result = .ok a) {site : List Nat}
    {file : FileRef} {content : Text} (hsite : site ≠ [])
    (hat : expandedAt table .top text.trimEnd site = some (file, content)) :
    ∃ first last, first < last ∧ last ≤ (lines a.source).length ∧
      (∀ (i : Nat) (p : PlacedLine), (layout language .keep table name text)[i]? = some p →
        (site <+: p.site ↔ first ≤ i ∧ i < last)) ∧
      blockAfter false ((lines a.source).take first) = false ∧
      blockAfter false ((lines a.source).take last) = false := by
  obtain ⟨whole, hlayout, hframes⟩ := exists_layout_eq_cons h
  obtain ⟨path, body, hexp, hstands⟩ := hframes site file content hat
  obtain ⟨target, rfl⟩ := exists_eq_included hsite hat
  -- the version stands before the frame of the source and belongs to no site below it
  have hin := @StandsIn.cons _ _ _ ⟨[], .version (treeVersion language (topLines text))⟩ hstands
    fun hs => hsite (List.prefix_nil.1 hs)
  rw [← hlayout] at hin
  obtain ⟨pre, post, hall, hout⟩ := hin
  have hlength : (lines a.source).length = (layout language .keep table name text).length := by
    rw [(lines_source h).2, List.length_map, List.length_map]
  have hpasses := passes_layout h
  rw [hall] at hpasses hlength
  obtain ⟨hfirst, hlast⟩ := hpasses.states_around rfl (hexp.passes_frame hat)
  refine ⟨pre.length, pre.length + (placedFrame .keep site (.included target) body.lines
    (body.placed .keep site (.included target))).length, ?_, ?_, ?_, ?_, ?_⟩
  · rw [placedFrame, List.length_cons]
    omega
  · rw [hlength, List.length_append, List.length_append]
    omega
  · intro i p hp
    rw [hall] at hp
    exact isPrefix_site_iff Body.isPrefix_of_mem_frame hout hp
  · rw [blockAfter_take_lines h, hall, List.append_assoc, List.take_left, hfirst]
  · rw [blockAfter_take_lines h, hall, ← List.length_append, List.take_left, hlast]

/-- **The scanner stays in step with an assembly that keeps its lines.** The assembled text is read
from its first line on. A copy of a source line is read as the line is read in its own file; a
marker and the version start outside a comment; what is written for an included file starts and
ends outside a comment; and the text ends inside a comment if the source does. -/
theorem assemble_keep_in_step {language : Language} {table : IncludeTable} {registry : Registry}
    {name text : Text} {a : Assembly}
    (h : (assemble language .keep table registry name text).result = .ok a) :
    let placed := layout language .keep table name text
    let out := lines a.source
    out = (placed.map (PlacedLine.text
      (assemble language .keep table registry name text).registry.idOf)).map dropCarriageReturn ∧
    (∀ i site file number t, placed[i]? = some ⟨site, .copy file number t⟩ →
      ∃ content k raw, expandedAt table .top text.trimEnd site = some (file, content) ∧
        number = k + 1 ∧ (lines content)[k]? = some raw ∧ (t = raw ∨ t = raw.trimEnd) ∧
        ReadsAlike out i (lines content) k) ∧
    (∀ i site line, placed[i]? = some ⟨site, line⟩ →
      ((∃ v, line = .version v) ∨ ∃ number file, line = .marker number file) →
      blockAfter false (out.take i) = false) ∧
    (∀ site file content, site ≠ [] →
      expandedAt table .top text.trimEnd site = some (file, content) →
      ∃ first last, first < last ∧ last ≤ out.length ∧
        (∀ i p, placed[i]? = some p → (site <+: p.site ↔ first ≤ i ∧ i < last)) ∧
        blockAfter false (out.take first) = false ∧ blockAfter false (out.take last) = false) ∧
    blockAfter false out = blockAfter false (lines text) := by
  have hout := (lines_source h).2
  have hpasses := passes_layout h
  have hmet {i : Nat} {p : PlacedLine} (hp : (layout language .keep table name text)[i]? = some p) :
      p.InStep table text.trimEnd (blockAfter false ((lines a.source).take i)) := by
    rw [blockAfter_take_lines h]
    exact hpasses.along.getElem? hp
  refine ⟨hout, ?_, ?_, fun site file content => exists_range_of_expandedAt h, ?_⟩
  · intro i site file number t hp
    obtain ⟨l, hcopy, hscan⟩ := hmet hp
    refine hcopy.exists_readsAlike hscan ?_
    rw [hout, List.getElem?_map, List.getElem?_map, hp]
    rfl
  · intro i site line hp hline
    rcases hline with ⟨v, rfl⟩ | ⟨number, file, rfl⟩
    · exact (hmet hp).1
    · exact hmet hp
  · rw [hout, blockAfter_map_dropCarriageReturn]
    exact hpasses.blockAfter_eq

/-- An include that leaves a comment open, on a line that opens another. -/
theorem assemble_keep_in_step_open_include :
    let table := IncludeTable.ofList [(Text.ofString "b", Text.ofString "/* x")]
    let text := Text.ofString "#include \"b\" /*\ny*/ z"
    ∃ a, (assemble .openGL .keep table ∅ [] text).result = .ok a ∧
      (∃ first last, first < last ∧ blockAfter false ((lines a.source).take first) = false ∧
        blockAfter false ((lines a.source).take last) = false) ∧
      blockAfter false (lines a.source) = false := by
  intro table text
  obtain ⟨a, ha⟩ : ∃ a, (assemble .openGL .keep table ∅ [] text).result = .ok a :=
    exists_assemble_of_leaves (by decide +kernel)
  obtain ⟨-, -, -, hinclude, hend⟩ := assemble_keep_in_step ha
  refine ⟨a, ha, ?_, ?_⟩
  · obtain ⟨first, last, hlt, -, -, hfirst, hlast⟩ := hinclude [1] (.included (Text.ofString "b"))
      (Text.ofString "/* x") (by simp) (by decide +kernel)
    exact ⟨first, last, hlt, hfirst, hlast⟩
  · rw [hend]
    decide +kernel

end ShaderSplice
