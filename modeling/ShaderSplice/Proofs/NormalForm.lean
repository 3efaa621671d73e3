import ShaderSplice.Proofs.Leftover
import ShaderSplice.Proofs.Stripping

/-!
# The normal form of an assembly without its lines

With its lines discarded, an assembly is a version line, the marker of the source, and then code
and markers in any order:

    #version 330 core          the version of the tree
    #line 2 0
    code of the source         no line is blank, and no comment starts in a line
    #line 1 1
    code of an include
    code of the source

The version line is the only line that declares a version, whatever the includes declare, unless the
source declares a version below its first code. For an include drops all its versions; the source
drops the one it leads with and keeps the others (`PlacedLine.Redeclares`).
-/

namespace ShaderSplice

/-! ### The code of a file and white space at its end -/

theorem codeOf_cons (inBlock : Bool) (l : Text) (ls : List Text) :
    codeOf inBlock (l :: ls) =
      (if (scanLine inBlock l).1.isBlank then [] else [(scanLine inBlock l).1.code]) ++
        codeOf (scanLine inBlock l).2 ls := by
  simp only [codeOf, scanLines, List.filter_cons]
  cases (scanLine inBlock l).1.isBlank with
  | true => rfl
  | false => rfl

theorem codeOf_append (inBlock : Bool) (ls ls' : List Text) :
    codeOf inBlock (ls ++ ls') = codeOf inBlock ls ++ codeOf (blockAfter inBlock ls) ls' := by
  simp only [codeOf, scanLines_append, List.filter_append, List.map_append]

theorem codeOf_replicate_nil (inBlock : Bool) (n : Nat) :
    codeOf inBlock (List.replicate n []) = [] := by
  have hcode : (scanLine inBlock []).1.code = [] :=
    List.eq_nil_of_subset_nil (code_subset inBlock [])
  have hblank : (scanLine inBlock []).1.isBlank = true := by
    rw [Scan.isBlank, hcode, Text.isSpaces_iff]
    exact Text.spaces_nil
  induction n with
  | zero => rfl
  | succ n ih =>
    rw [List.replicate_succ, codeOf_cons, hblank, scanLine_spaces _ Text.spaces_nil, ih]
    rfl

/-- Up to white space at its end, code is the same whether or not its lines are trimmed, and empty
lines add nothing to it. -/
theorem codeOf_map_trimEnd_append (inBlock : Bool) (ls : List Text) (n : Nat) :
    (codeOf inBlock (ls.map Text.trimEnd ++ List.replicate n [])).map Text.trimEnd =
      (codeOf inBlock ls).map Text.trimEnd := by
  rw [codeOf_append, codeOf_replicate_nil, List.append_nil]
  induction ls generalizing inBlock with
  | nil => rfl
  | cons l ls ih =>
    obtain ⟨hagree, hafter⟩ := scanLine_congr inBlock (Text.trimEnd_trimEnd l)
    rw [List.map_cons, codeOf_cons, codeOf_cons, List.map_append, List.map_append, hafter, ih,
      Scan.isBlank, Text.isSpaces_congr hagree.code, ← Scan.isBlank]
    cases (scanLine inBlock l).1.isBlank with
    | true => rfl
    | false => simp [hagree.code]

theorem codeOf_lines_trimEnd (inBlock : Bool) (t : Text) :
    (codeOf inBlock (lines t.trimEnd)).map Text.trimEnd =
      (codeOf inBlock (lines t)).map Text.trimEnd := by
  obtain ⟨m, n, h⟩ := exists_map_trimEnd_lines_trimEnd t
  rw [← codeOf_map_trimEnd_append inBlock (lines t.trimEnd) m, h, codeOf_map_trimEnd_append]

/-! ### Versions that are declared again -/

/-- A line that plays a part contributes its code. -/
theorem code_mem_codeOf {number : Nat} {inBlock started : Bool} {raws : List Text} {l : SourceLine}
    (hl : l ∈ sourceLinesFrom number inBlock started raws) (hne : l.role ≠ .silent) :
    l.scan.code ∈ codeOf inBlock raws := by
  obtain ⟨started', hrole⟩ := hasRole_of_mem hl
  have hblank := hrole.isBlank_eq_false hne
  have hmem : (l.scan, l.openAfter) ∈ scanLines inBlock raws := by
    rw [← map_scan_sourceLinesFrom number inBlock started]
    exact List.mem_map_of_mem hl
  refine List.mem_map.2 ⟨(l.scan, l.openAfter), List.mem_filter.2 ⟨hmem, ?_⟩, rfl⟩
  simp [hblank]

/-- A line that declares a version again stands below the first code of its file. -/
theorem code_mem_tail_codeOf {number : Nat} {inBlock : Bool} {raws : List Text} {l : SourceLine}
    (hl : l ∈ sourceLinesFrom number inBlock false raws) (hagain : l.role = .ordinary true) :
    l.scan.code ∈ (codeOf inBlock raws).tail := by
  induction raws generalizing number inBlock with
  | nil => cases hl
  | cons raw raws ih =>
    have hrole := hasRole_ofRaw number inBlock false raw
    rw [sourceLinesFrom_cons] at hl
    rw [codeOf_cons]
    rcases List.mem_cons.1 hl with rfl | hl
    · rw [hagain] at hrole
      cases hrole with
      | again hstarted => cases hstarted
    · by_cases hsilent : (SourceLine.ofRaw number inBlock false raw).role = .silent
      · rw [hsilent] at hrole hl
        cases hrole with
        | silent hblank =>
          rw [hblank]
          exact ih hl
      · rw [hrole.isBlank_eq_false hsilent]
        exact code_mem_codeOf hl (by simp [hagain])

/-- A copy that declares a version is the copy of a line of the source that declares it again. -/
def PlacedLine.Redeclares (top : Text) (p : PlacedLine) : Prop :=
  ∀ file number t v, p.line = .copy file number t → declaredVersion? t = some v →
    ∃ l ∈ sourceLines top, l.role = .ordinary true ∧ declaredVersion? l.scan.code = some v

theorem PlacedLine.Redeclares.of_trimEnd? {top : Text} {p q : PlacedLine} (hq : p.trimEnd? = some q)
    (h : p.Redeclares top) : q.Redeclares top := by
  rcases p.trimEnd?_eq_some hq with ⟨rfl, -⟩ | ⟨file, number, t, hp, -, rfl⟩
  · exact h
  · intro file' number' t' v hline hv
    cases hline
    apply h file number t v hp
    rw [← hv]
    exact declaredVersion?_congr (Text.trimEnd_trimEnd t).symm

theorem writesAll_redeclares {table : IncludeTable} {top : Text} {site : List Nat} {file : FileRef}
    {content : Text}
    (hsite : expandedAt table .top top site = some (file, content)) :
    WritesAll (PlacedLine.Redeclares top) .discard site file content := by
  constructor
  · intro number file' number' t v hline
    cases hline
  · intro closes opens file' number t v hline
    cases hline
  · intro l hl _ o ho file' number t v hline hv
    dsimp only at hline
    subst hline
    obtain ⟨heq, redeclares, hordinary, htop⟩ := SourceLine.eq_of_mem_output_discard ho
    cases heq
    obtain ⟨started, hrole⟩ := hasRole_of_mem hl
    rw [hordinary] at hrole
    cases hrole with
    | plain _ _ hnone =>
      rw [hnone] at hv
      cases hv
    | again _ _ hdeclared =>
      -- only the source keeps the line, and it is expanded nowhere below itself
      have hnil : site = [] := by
        by_contra hne
        obtain ⟨name, hname⟩ := exists_eq_included hne hsite
        rw [htop rfl] at hname
        cases hname
      subst hnil
      cases hsite
      exact ⟨l, hl, hordinary, hv⟩

/-! ### Markers and code -/

/-- A line that is a marker or a copy. -/
def PlacedLine.IsMarkerOrCopy (p : PlacedLine) : Prop :=
  (∃ number file, p.line = .marker number file) ∨ ∃ file number t, p.line = .copy file number t

theorem PlacedLine.IsMarkerOrCopy.of_trimEnd? {p q : PlacedLine} (hq : p.trimEnd? = some q)
    (h : p.IsMarkerOrCopy) : q.IsMarkerOrCopy := by
  rcases p.trimEnd?_eq_some hq with ⟨rfl, -⟩ | ⟨file, number, t, -, -, rfl⟩
  · exact h
  · exact .inr ⟨file, number, t.trimEnd, rfl⟩

theorem isMarkerOrCopy_placedFrame {site : List Nat} {file : FileRef} {ls : List SourceLine}
    {inner : List PlacedLine} (h : ∀ p ∈ inner, p.IsMarkerOrCopy) :
    ∀ p ∈ placedFrame .discard site file ls inner, p.IsMarkerOrCopy := by
  intro q hq
  rw [placedFrame_discard] at hq
  rcases List.mem_cons.1 hq with rfl | hq
  · exact .inl ⟨_, _, rfl⟩
  · obtain ⟨p, hp, rfl | hpq⟩ := mem_trimPlaced hq
    · exact h q hp
    · exact (h p hp).of_trimEnd? hpq

/-- When lines are discarded a body writes markers and copies. -/
theorem Body.isMarkerOrCopy_placed (body : Body) (site : List Nat) (file : FileRef) :
    ∀ p ∈ body.placed .discard site file, p.IsMarkerOrCopy := by
  induction body generalizing site file with
  | nil =>
    intro p hp
    cases hp
  | keep l rest ih =>
    intro p hp
    rcases List.mem_append.1 hp with hp | hp
    · obtain ⟨o, ho, rfl⟩ := List.mem_map.1 hp
      exact .inr ⟨file, l.number, l.scan.code, (SourceLine.eq_of_mem_output_discard ho).1⟩
    · exact ih site file p hp
  | splice l target child rest ihchild ih =>
    intro p hp
    simp only [Body.placed, SourceLine.beforeSplice, SourceLine.afterSplice, placeAt,
      List.map_nil, List.nil_append, List.append_nil] at hp
    rcases List.mem_append.1 hp with hp | hp
    · exact isMarkerOrCopy_placedFrame (ihchild (site ++ [l.number]) (.included target)) p hp
    · exact ih site file p hp

/-! ### The version line -/

/-- The version line declares its version. -/
theorem declaredVersion?_version {v : Text} (h : VersionSpelling v) (idOf : FileRef → FileId) :
    declaredVersion? ((OutputLine.version v).render idOf) = some v := by
  obtain ⟨d, hparse, hname, hspaced, hfields⟩ := parse?_version idOf v
  rw [declaredVersion?, hparse, Option.bind_some, Directive.version?, if_pos ⟨hname, hspaced⟩,
    hfields]
  cases h with
  | bare hne hdigits =>
    have hword : ∀ b ∈ v, isWordByte b = true := fun b hb =>
      isWordByte_of_isDigitByte (hdigits b hb)
    rw [Text.fields_word hword hne]
    exact if_pos (List.all_eq_true.2 hdigits)
  | @profiled number profile hne hdigits hprofile =>
    have hword : ∀ b ∈ number, isWordByte b = true := fun b hb =>
      isWordByte_of_isDigitByte (hdigits b hb)
    have hne' : profile ≠ [] := by
      rintro rfl
      exact absurd hprofile (by decide)
    rw [Text.fields_two_words hword hne (isWordByte_of_mem_profiles hprofile) hne']
    dsimp only
    rw [if_pos (List.all_eq_true.2 hdigits), if_pos hprofile]

/-- A marker declares no version. -/
theorem declaredVersion?_marker (idOf : FileRef → FileId) (number : Nat) (file : FileRef) :
    declaredVersion? ((OutputLine.marker number file).render idOf) = none := by
  rw [Option.eq_none_iff_forall_ne_some]
  intro v hv
  obtain ⟨d, hparse, hd⟩ := Option.bind_eq_some_iff.1 hv
  have hname := directiveName?_marker idOf number file
  rw [directiveName?, hparse, Option.map_some, Option.some.injEq] at hname
  have hne : d.name ≠ Text.ofString "version" := by
    rw [hname]
    decide
  simp [Directive.version?, hne] at hd

/-! ### A whole assembly -/

section
variable {language : Language} {table : IncludeTable} {registry : Registry} {name text : Text}
  {a : Assembly}

/-- The layout is the version line and the frame of the source, which has markers and copies. -/
theorem exists_layout_discard
    (h : (assemble language .discard table registry name text).result = .ok a) :
    ∃ frame, layout language .discard table name text = ⟨[], .version a.version⟩ :: frame ∧
      (∃ number below, frame = ⟨[], .marker number .top⟩ :: below) ∧
      ∀ p ∈ frame, p.IsMarkerOrCopy := by
  obtain ⟨body, -, hlayout, hversion, -⟩ := exists_expands_of_assemble h
  rw [hversion, hlayout, Body.layout]
  exact ⟨_, rfl, ⟨_, _, rfl⟩, isMarkerOrCopy_placedFrame (body.isMarkerOrCopy_placed [] .top)⟩

/-- The text of such a layout starts with the version line and the beginning of a marker. -/
theorem header_isPrefix (idOf : FileRef → FileId) (v : Text) (number : Nat)
    (below : List PlacedLine) :
    Text.ofString "#version " ++ v ++ [Text.newline] ++ Text.ofString "#line " <+:
      Text.join [Text.newline]
        ((⟨[], .version v⟩ :: ⟨[], .marker number .top⟩ :: below : List PlacedLine).map
          (PlacedLine.text idOf)) := by
  obtain ⟨rest, hjoin, -⟩ := exists_join_cons ((OutputLine.marker number .top).render idOf)
    (below.map (PlacedLine.text idOf))
  rw [List.map_cons, List.map_cons, Text.join, List.intercalate_cons_cons, ← Text.join]
  simp only [PlacedLine.text] at hjoin ⊢
  rw [hjoin]
  simp [OutputLine.render, List.append_assoc]

/-- No comment starts in a marker or in code. -/
theorem PlacedLine.IsMarkerOrCopy.openerFree {top : Text} {p : PlacedLine} (h : p.IsMarkerOrCopy)
    (hfrom : p.FromSource table top .discard) (idOf : FileRef → FileId) :
    OpenerFree (p.text idOf) := by
  rcases h with ⟨number, file, hline⟩ | ⟨file, number, t, hline⟩
  · rw [PlacedLine.text, hline]
    apply openerFree_of_no_slash
    exact not_mem_render_marker (by decide) (by decide) idOf number file
  · obtain ⟨l, hl⟩ := hfrom file number t hline
    obtain ⟨content, -, hmem⟩ := hl.source
    obtain ⟨inBlock, hscan⟩ := exists_scanLine_of_mem hmem
    have hfree := openerFree_code inBlock l.raw
    rw [hscan] at hfree
    rw [PlacedLine.text, hline]
    show OpenerFree t
    rcases hl.text_eq with rfl | rfl
    · exact hfree
    · exact hfree.of_isInfix (Text.trimEnd_isPrefix _).isInfix

theorem openerFree_splitOn
    (h : (assemble language .discard table registry name text).result = .ok a) :
    ∀ l ∈ a.source.splitOn Text.newline, OpenerFree l := by
  have hfrom := fromSource_layout h
  obtain ⟨frame, hlayout, -, hframe⟩ := exists_layout_discard h
  obtain ⟨-, -, -, hversion, -⟩ := exists_expands_of_assemble h
  rw [(lines_source h).1]
  intro l hl
  obtain ⟨p, hp, rfl⟩ := List.mem_map.1 hl
  have hfromp := hfrom p hp
  rw [hlayout] at hp
  rcases List.mem_cons.1 hp with rfl | hp
  · apply openerFree_of_no_slash
    rw [hversion]
    exact not_mem_render_version (by decide) (by decide) (bytes_of_treeVersion language text) _
  · exact (hframe p hp).openerFree hfromp _

theorem redeclares_layout
    (h : (assemble language .discard table registry name text).result = .ok a) :
    ∀ p ∈ layout language .discard table name text, p.Redeclares text.trimEnd := by
  obtain ⟨body, hexp, hlayout, -, -⟩ := exists_expands_of_assemble h
  rw [hlayout]
  refine hexp.forall_mem_layout (fun p q hq hp => hp.of_trimEnd? hq)
    (fun site file content => writesAll_redeclares) ?_
  intro file number t v hline
  cases hline

/-- A version that the source declares again is declared below its first code, also before the white
space at its end is dropped. -/
theorem exists_code_of_again {l : SourceLine} (hl : l ∈ sourceLines text.trimEnd)
    (hagain : l.role = .ordinary true) :
    ∃ code ∈ (codeOf false (lines text)).tail,
      declaredVersion? code = declaredVersion? l.scan.code := by
  have hmem : l.scan.code.trimEnd ∈ ((codeOf false (lines text)).map Text.trimEnd).tail := by
    rw [← codeOf_lines_trimEnd, ← List.map_tail]
    exact List.mem_map_of_mem (code_mem_tail_codeOf hl hagain)
  rw [← List.map_tail] at hmem
  obtain ⟨code, hcode, htrim⟩ := List.mem_map.1 hmem
  exact ⟨code, hcode, declaredVersion?_congr htrim⟩

/-- Below the version line no version is declared, if the source declares none again. -/
theorem PlacedLine.IsMarkerOrCopy.declaredVersion?_eq_none {p : PlacedLine} (h : p.IsMarkerOrCopy)
    (hagain : p.Redeclares text.trimEnd)
    (hnone : ∀ code ∈ (codeOf false (lines text)).tail, declaredVersion? code = none)
    (idOf : FileRef → FileId) : declaredVersion? (p.text idOf) = none := by
  rcases h with ⟨number, file, hline⟩ | ⟨file, number, t, hline⟩
  · rw [PlacedLine.text, hline]
    exact declaredVersion?_marker idOf number file
  · rw [PlacedLine.text, hline, Option.eq_none_iff_forall_ne_some]
    intro v hv
    obtain ⟨l, hl, hrole, hdeclared⟩ := hagain file number t v hline hv
    obtain ⟨code, hcode, heq⟩ := exists_code_of_again hl hrole
    rw [hnone code hcode, hdeclared] at heq
    cases heq

/-- **The normal form of an assembly without its lines.** The text starts with the version and a
marker. No line of it is blank and no comment starts in a line, so that a scanner gives back each of
them as it is and is never inside a comment. If the source declares no version below its first code,
the first line is the only one that declares a version, whatever the includes declare. -/
theorem assemble_discard_normal_form
    (h : (assemble language .discard table registry name text).result = .ok a) :
    Text.ofString "#version " ++ a.version ++ [Text.newline] ++ Text.ofString "#line " <+:
      a.source ∧
    (∀ l ∈ a.source.splitOn Text.newline,
      Text.isSpaces l = false ∧ ¬ blockOpen <:+: l ∧ ¬ lineComment <:+: l ∧
      scanLine false l = (⟨l, false, false, false⟩, false)) ∧
    scanLines false (a.source.splitOn Text.newline) =
      (a.source.splitOn Text.newline).map (fun l => (⟨l, false, false, false⟩, false)) ∧
    ((∀ code ∈ (codeOf false (lines text)).tail, declaredVersion? code = none) →
      ∀ i l v, (a.source.splitOn Text.newline)[i]? = some l →
        (declaredVersion? l = some v ↔ i = 0 ∧ v = a.version)) := by
  have hfree := openerFree_splitOn h
  have hspaces := not_spaces_layout h
  have hagain := redeclares_layout h
  obtain ⟨frame, hlayout, ⟨number, below, hframe⟩, hplain⟩ := exists_layout_discard h
  obtain ⟨-, -, -, hversion, hsource⟩ := exists_expands_of_assemble h
  have hsplit := (lines_source h).1
  generalize (assemble language .discard table registry name text).registry.idOf = idOf
    at hsource hsplit
  refine ⟨?_, ?_, ?_, ?_⟩
  · rw [hsource, hlayout, hframe]
    exact header_isPrefix idOf a.version number below
  · intro l hl
    refine ⟨?_, (hfree l hl).block, (hfree l hl).line, scanLine_of_openerFree (hfree l hl)⟩
    rw [hsplit] at hl
    obtain ⟨p, hp, rfl⟩ := List.mem_map.1 hl
    rw [← Bool.not_eq_true, Text.isSpaces_iff]
    exact hspaces idOf p hp
  · exact scanLines_of_openerFree hfree
  · intro hnone i l v hl
    rw [hsplit, hlayout] at hl
    cases i with
    | zero =>
      cases hl
      have hspelling := versionSpelling_treeVersion language text
      rw [← hversion] at hspelling
      rw [PlacedLine.text, declaredVersion?_version hspelling]
      simp [eq_comm]
    | succ i =>
      rw [List.map_cons, List.getElem?_cons_succ] at hl
      obtain ⟨p, hp, rfl⟩ := List.mem_map.1 (List.mem_of_getElem? hl)
      have hmem : p ∈ layout language .discard table name text := by
        rw [hlayout]
        exact List.mem_cons_of_mem _ hp
      rw [(hplain p hp).declaredVersion?_eq_none (hagain p hmem) hnone]
      simp

end

/-- The version of the include, which is not the version of the tree, does not come through. -/
theorem assemble_discard_normal_form_include :
    let table := IncludeTable.ofList
      [(Text.ofString "a", Text.ofString "x /* y */\n#version 450 // z\nw /*")]
    let text := Text.ofString "/**/ #version 330 core\n#include \"a\"\nv // u"
    ∃ out, (assemble .openGL .discard table ∅ [] text).result = .ok out ∧
      (∀ l ∈ out.source.splitOn Text.newline, ¬ blockOpen <:+: l ∧ ¬ lineComment <:+: l) ∧
      ∀ i l v, (out.source.splitOn Text.newline)[i]? = some l →
        (declaredVersion? l = some v ↔ i = 0 ∧ v = out.version) := by
  intro table text
  obtain ⟨out, hok⟩ : ∃ out, (assemble .openGL .discard table ∅ [] text).result = .ok out :=
    exists_assemble_of_leaves (by decide +kernel)
  obtain ⟨-, hlines, -, hversions⟩ := assemble_discard_normal_form hok
  refine ⟨out, hok, ?_, hversions (by decide +kernel)⟩
  intro l hl
  exact ⟨(hlines l hl).2.1, (hlines l hl).2.2.1⟩

end ShaderSplice
