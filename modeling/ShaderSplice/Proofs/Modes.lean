import ShaderSplice.Proofs.Numbering

/-!
# Keeping and discarding lines

An assembly can keep the lines of its files or discard all but their code. Both ways come from one
walk, so they fail alike and register alike; what differs is what they write. This module shows
that they write the same code: reading the kept lines with the scanner gives the lines that are
written when lines are discarded.

    keep:     text ──lines, scanner──▶ codes ──▶ without blanks, markers and versions
    discard:  text ──lines───────────────────▶ without markers and versions

Each line contributes its `significant` code. Trimming, seams and markers contribute nothing, and a
source line contributes the same in both modes (`significantCode_output`); the induction on the
expansion adds the contributions up.
-/

namespace ShaderSplice

/-! ### Code that counts -/

/-- Whether code is a line directive or declares a version. -/
def isBookkeeping (code : Text) : Bool :=
  directiveName? code = some (Text.ofString "line") || (declaredVersion? code).isSome

/-- The code of lines that are read one after the other, without blank lines. -/
def codeOf (inBlock : Bool) (ls : List Text) : List Text :=
  ((scanLines inBlock ls).filter fun step => !step.1.isBlank).map fun step => step.1.code

/-- What code contributes to an assembly, without white space at its end. -/
def significant (code : Text) : List Text :=
  if code.isSpaces || isBookkeeping code then [] else [code.trimEnd]

/-- What lines contribute when they are read one after the other. -/
def significantCode (inBlock : Bool) (ls : List Text) : List Text :=
  (scanLines inBlock ls).flatMap fun step => significant step.1.code

theorem isBookkeeping_congr {code code' : Text} (h : code.trimEnd = code'.trimEnd) :
    isBookkeeping code = isBookkeeping code' := by
  rw [isBookkeeping, isBookkeeping, directiveName?_congr h, declaredVersion?_congr h]

theorem significant_congr {code code' : Text} (h : code.trimEnd = code'.trimEnd) :
    significant code = significant code' := by
  rw [significant, significant, isBookkeeping_congr h, Text.isSpaces_congr h, h]

theorem significant_of_spaces {code : Text} (h : Text.Spaces code) : significant code = [] := by
  rw [significant, Text.isSpaces_iff.2 h, Bool.true_or, if_pos rfl]

theorem significant_of_isBookkeeping {code : Text} (h : isBookkeeping code = true) :
    significant code = [] := by
  rw [significant, h, Bool.or_true, if_pos rfl]

theorem significantCode_nil (inBlock : Bool) : significantCode inBlock [] = [] := rfl

theorem significantCode_single (inBlock : Bool) (l : Text) :
    significantCode inBlock [l] = significant (scanLine inBlock l).1.code :=
  List.append_nil _

theorem significantCode_append (inBlock : Bool) (ls ls' : List Text) :
    significantCode inBlock (ls ++ ls') =
      significantCode inBlock ls ++ significantCode (blockAfter inBlock ls) ls' := by
  rw [significantCode, scanLines_append, List.flatMap_append]
  rfl

theorem significantCode_cons (inBlock : Bool) (l : Text) (ls : List Text) :
    significantCode inBlock (l :: ls) =
      significant (scanLine inBlock l).1.code ++ significantCode (scanLine inBlock l).2 ls := rfl

/-- White space at the end of lines does not count. -/
theorem significantCode_map_congr {α : Type} {f g : α → Text} (inBlock : Bool) (xs : List α)
    (h : ∀ x ∈ xs, (f x).trimEnd = (g x).trimEnd) :
    significantCode inBlock (xs.map f) = significantCode inBlock (xs.map g) := by
  induction xs generalizing inBlock with
  | nil => rfl
  | cons x xs ih =>
    obtain ⟨hagree, hafter⟩ := scanLine_congr inBlock (h x List.mem_cons_self)
    rw [List.map_cons, List.map_cons, significantCode_cons, significantCode_cons,
      significant_congr hagree.code, hafter, ih _ fun y hy => h y (List.mem_cons_of_mem _ hy)]

theorem significantCode_map_dropCarriageReturn (inBlock : Bool) (ls : List Text) :
    significantCode inBlock (ls.map dropCarriageReturn) = significantCode inBlock ls := by
  have h := @significantCode_map_congr Text dropCarriageReturn id inBlock ls
    fun l _ => trimEnd_dropCarriageReturn l
  rwa [List.map_id] at h

theorem flatMap_significant_map_dropCarriageReturn (ls : List Text) :
    (ls.map dropCarriageReturn).flatMap significant = ls.flatMap significant := by
  have hcongr (l : Text) : significant (dropCarriageReturn l) = significant l :=
    significant_congr (trimEnd_dropCarriageReturn l)
  simp only [List.flatMap_map, hcongr]

/-- What counts is the code that is left when bookkeeping is removed. -/
theorem map_trimEnd_codeOf (inBlock : Bool) (ls : List Text) :
    ((codeOf inBlock ls).filter fun code => !isBookkeeping code).map Text.trimEnd =
      significantCode inBlock ls := by
  rw [codeOf, significantCode]
  induction scanLines inBlock ls with
  | nil => rfl
  | cons step steps ih =>
    rw [List.flatMap_cons, ← ih, significant, ← Scan.isBlank]
    cases hblank : step.1.isBlank with
    | true => simp [hblank]
    | false =>
      cases hbook : isBookkeeping step.1.code with
      | true => simp [hblank, hbook]
      | false => simp [hblank, hbook]

theorem map_trimEnd_filter {ls : List Text} (h : ∀ l ∈ ls, ¬ Text.Spaces l) :
    (ls.filter fun code => !isBookkeeping code).map Text.trimEnd = ls.flatMap significant := by
  induction ls with
  | nil => rfl
  | cons l ls ih =>
    have hspaces : l.isSpaces = false := by
      rw [← Bool.not_eq_true, Text.isSpaces_iff]
      exact h l List.mem_cons_self
    rw [List.flatMap_cons, ← ih fun l' hl' => h l' (List.mem_cons_of_mem _ hl'), significant,
      hspaces]
    cases hbook : isBookkeeping l with
    | true => simp [hbook]
    | false => simp [hbook]

/-! ### Lines that do not count -/

theorem significant_scanLine_spaces (inBlock : Bool) {s : Text} (hs : Text.Spaces s) :
    significant (scanLine inBlock s).1.code = [] := by
  have hnil : s.trimEnd = Text.trimEnd [] := by
    rw [Text.trimEnd_eq_nil_iff.2 hs, Text.trimEnd_eq_nil_iff.2 Text.spaces_nil]
  rw [significant_congr (scanLine_congr inBlock hnil).1.code]
  apply significant_of_spaces
  cases inBlock with
  | false =>
    rw [scanLine_of_no_slash (by simp)]
    exact Text.spaces_nil
  | true => exact Text.spaces_nil

section
variable (idOf : FileRef → FileId)

theorem significantCode_trimPlaced (inBlock : Bool) (ps : List PlacedLine) :
    significantCode inBlock ((trimPlaced ps).map (PlacedLine.text idOf)) =
      significantCode inBlock (ps.map (PlacedLine.text idOf)) := by
  induction ps generalizing inBlock with
  | nil => rfl
  | cons p ps ih =>
    rw [trimPlaced, List.map_cons, significantCode_cons, ← ih]
    cases hps : trimPlaced ps with
    | nil =>
      rw [List.map_nil, significantCode_nil, List.append_nil]
      cases hp : p.trimEnd? with
      | none => exact (significant_scanLine_spaces inBlock (p.spaces_of_trimEnd? hp idOf)).symm
      | some q =>
        have hagree := (scanLine_congr inBlock (PlacedLine.trimEnd_text_of_trimEnd? hp idOf)).1
        rw [← significant_congr hagree.code]
        exact significantCode_single inBlock (q.text idOf)
    | cons q qs => rfl

theorem flatMap_significant_trimPlaced (ps : List PlacedLine) :
    ((trimPlaced ps).map (PlacedLine.text idOf)).flatMap significant =
      (ps.map (PlacedLine.text idOf)).flatMap significant := by
  induction ps with
  | nil => rfl
  | cons p ps ih =>
    rw [trimPlaced, List.map_cons, List.flatMap_cons, ← ih]
    cases hps : trimPlaced ps with
    | nil =>
      rw [List.map_nil, List.flatMap_nil, List.append_nil]
      cases hp : p.trimEnd? with
      | none => exact (significant_of_spaces (p.spaces_of_trimEnd? hp idOf)).symm
      | some q =>
        rw [← significant_congr (PlacedLine.trimEnd_text_of_trimEnd? hp idOf)]
        exact List.append_nil _
    | cons q qs => rfl

theorem significant_marker (number : Nat) (file : FileRef) :
    significant ((OutputLine.marker number file).render idOf) = [] := by
  apply significant_of_isBookkeeping
  rw [isBookkeeping, directiveName?_marker]
  rfl

theorem significant_seam (closes opens : Bool) :
    significant (scanLine closes (seamText closes opens)).1.code = [] :=
  significant_of_spaces (Text.isSpaces_iff.1 (scanLine_seamText closes opens).2)

/-! ### What one line contributes -/

theorem significant_of_declaredVersion? {code version : Text}
    (h : declaredVersion? code = some version) : significant code = [] := by
  apply significant_of_isBookkeeping
  rw [isBookkeeping, h, Option.isSome_some, Bool.or_true]

/-- When lines are discarded, a line that is no include directive contributes its code. -/
theorem flatMap_significant_output {started : Bool} {l : SourceLine}
    (h : HasRole started l.scan l.role) (htarget : l.target? = none) (site : List Nat)
    (file : FileRef) :
    ((placeAt site (l.output .discard file)).map (PlacedLine.text idOf)).flatMap significant =
      significant l.scan.code := by
  cases hrole : l.role with
  | silent =>
    rw [hrole] at h
    cases h with
    | silent hblank =>
      rw [SourceLine.output_discard (by simp [hrole]),
        significant_of_spaces (Text.isSpaces_iff.1 hblank)]
      rfl
  | lead version =>
    rw [hrole] at h
    cases h with
    | lead _ _ hv =>
      rw [SourceLine.output_discard (by simp [hrole]), significant_of_declaredVersion? hv]
      rfl
  | splice target =>
    rw [SourceLine.target?, hrole] at htarget
    cases htarget
  | ordinary redeclares =>
    rw [SourceLine.output_discard_ordinary hrole]
    split
    · next hagain =>
      -- an included file that declares its version again does not repeat it
      rw [hrole, hagain.1] at h
      cases h with
      | again _ _ hv =>
        rw [significant_of_declaredVersion? hv]
        rfl
    · exact List.append_nil _

/-- When lines are kept, it contributes the same. -/
theorem significantCode_output {started inBlock : Bool} {l : SourceLine}
    (h : HasRole started l.scan l.role) (hscan : scanLine inBlock l.raw = (l.scan, l.openAfter))
    (site : List Nat) (file : FileRef) :
    significantCode inBlock ((placeAt site (l.output .keep file)).map (PlacedLine.text idOf)) =
      significant l.scan.code := by
  have hlead (hsome : l.leadVersion?.isSome) :
      l.scan.inComment = false ∧ significant l.scan.code = [] := by
    obtain ⟨v, hv⟩ := Option.isSome_iff_exists.1 hsome
    rw [SourceLine.leadVersion?_eq_some_iff.1 hv] at h
    cases h with
    | lead _ hcomment hdeclared => exact ⟨hcomment, significant_of_declaredVersion? hdeclared⟩
  rcases l.output_keep_cases file with ⟨he, -, -, hsome⟩ | ⟨he, -⟩ | ⟨he, hsome⟩
  · rw [he, (hlead hsome).2]
    rfl
  · have hcopy := significantCode_single inBlock l.raw
    rw [hscan] at hcopy
    rw [he]
    exact hcopy
  · -- the seam closes the comment in which the declaration starts
    have hstart := (l.states_eq hscan).1
    rw [(hlead hsome).1, Bool.false_or] at hstart
    rw [he, (hlead hsome).2, ← hstart, ← significant_seam l.scan.closes l.scan.opens]
    exact significantCode_single _ _

theorem significantCode_beforeSplice {inBlock : Bool} {l : SourceLine}
    (hcomment : l.scan.inComment = false)
    (hscan : scanLine inBlock l.raw = (l.scan, l.openAfter)) (site : List Nat) :
    significantCode inBlock ((placeAt site (l.beforeSplice .keep)).map (PlacedLine.text idOf)) =
      [] := by
  have hstart := (l.states_eq hscan).1
  rw [hcomment, Bool.false_or] at hstart
  rw [SourceLine.beforeSplice, ← hstart]
  cases l.scan.closes with
  | true => exact (significantCode_single _ _).trans (significant_seam true false)
  | false => rfl

theorem significantCode_marker (site : List Nat) (number : Nat) (file : FileRef)
    (ps : List PlacedLine) :
    significantCode false ((⟨site, .marker number file⟩ :: ps : List PlacedLine).map
      (PlacedLine.text idOf)) = significantCode false (ps.map (PlacedLine.text idOf)) := by
  rw [List.map_cons, significantCode_cons, PlacedLine.text, scanLine_marker, significant_marker,
    List.nil_append]

theorem significantCode_afterSplice (site : List Nat) (file : FileRef) (l : SourceLine) :
    significantCode false ((placeAt site (l.afterSplice .keep file)).map (PlacedLine.text idOf)) =
      [] := by
  rw [SourceLine.afterSplice]
  cases l.openAfter with
  | true =>
    refine (significantCode_marker idOf site l.number file [⟨site, .seam false true⟩]).trans ?_
    exact (significantCode_single _ _).trans (significant_seam false true)
  | false => exact significantCode_marker idOf site (l.number + 1) file []

/-! ### What a body contributes -/

/-- Nothing is closed when lines are discarded. -/
theorem placedFrame_discard (site : List Nat) (file : FileRef) (ls : List SourceLine)
    (inner : List PlacedLine) :
    placedFrame .discard site file ls inner =
      ⟨site, .marker (firstLine .discard file ls) file⟩ :: trimPlaced inner := by
  have hnone : closing .discard file ls = [] := by rw [closing, if_neg (by simp)]
  rw [placedFrame, hnone, placeAt, List.map_nil, List.append_nil]

/-- The frame of a file contributes what its lines contribute, in either mode. -/
theorem significantCode_placedFrame {site : List Nat} {file : FileRef} {ls : List SourceLine}
    {kept discarded : List PlacedLine}
    (hends : file ≠ .top → blockAfter false (kept.map (PlacedLine.text idOf)) = endsOpen ls)
    (h : significantCode false (kept.map (PlacedLine.text idOf)) =
      (discarded.map (PlacedLine.text idOf)).flatMap significant) :
    significantCode false ((placedFrame .keep site file ls kept).map (PlacedLine.text idOf)) =
      ((placedFrame .discard site file ls discarded).map (PlacedLine.text idOf)).flatMap
        significant := by
  have hclosing : significantCode (blockAfter false (kept.map (PlacedLine.text idOf)))
      ((placeAt site (closing .keep file ls)).map (PlacedLine.text idOf)) = [] := by
    rw [closing]
    split
    · next hopen =>
      rw [hends hopen.2.1, hopen.2.2]
      exact (significantCode_single _ _).trans (significant_seam true false)
    · rfl
  have hdiscard : ((placedFrame .discard site file ls discarded).map
      (PlacedLine.text idOf)).flatMap significant =
        (discarded.map (PlacedLine.text idOf)).flatMap significant := by
    rw [placedFrame_discard, List.map_cons, List.flatMap_cons, flatMap_significant_trimPlaced,
      PlacedLine.text, significant_marker, List.nil_append]
  rw [hdiscard, placedFrame, significantCode_marker, significantCode_trimPlaced, List.map_append,
    significantCode_append, hclosing, List.append_nil, h]

variable {table : IncludeTable} {top : Text}

/-- So does the frame of an include, which closes the comment in which its lines end. -/
theorem Expands.significantCode_frame {version : Text} {path : List Text} {content : Text}
    {body : Body} (h : Expands table version path (sourceLines content) body) {site : List Nat}
    {name : Text} (hsite : expandedAt table .top top site = some (.included name, content))
    (hbody : significantCode false
        ((body.placed .keep site (.included name)).map (PlacedLine.text idOf)) =
      ((body.placed .discard site (.included name)).map (PlacedLine.text idOf)).flatMap
        significant) :
    significantCode false ((placedFrame .keep site (.included name) body.lines
        (body.placed .keep site (.included name))).map (PlacedLine.text idOf)) =
      ((placedFrame .discard site (.included name) body.lines
        (body.placed .discard site (.included name))).map (PlacedLine.text idOf)).flatMap
          significant := by
  refine significantCode_placedFrame idOf ?_ hbody
  intro _
  have hpasses : Passes table top idOf false (body.placed .keep site (.included name)) _ :=
    h.passes (inPlace_sourceLines content) hsite fun l hl => hl
  rw [hpasses.blockAfter_eq, h.lines_eq, (inPlace_sourceLines content).endsOpen_eq]

/-- The lines of a body contribute the same in both modes. -/
theorem Expands.significantCode_eq {version : Text} {path : List Text} {ls : List SourceLine}
    {body : Body} (h : Expands table version path ls body) {index : Nat} {inBlock : Bool}
    (hplace : InPlace index inBlock ls) {site : List Nat} {file : FileRef} {content : Text}
    (hsite : expandedAt table .top top site = some (file, content))
    (hls : ∀ l ∈ ls, l ∈ sourceLines content) :
    significantCode inBlock ((body.placed .keep site file).map (PlacedLine.text idOf)) =
      ((body.placed .discard site file).map (PlacedLine.text idOf)).flatMap significant := by
  induction h generalizing index inBlock site file content with
  | nil => rfl
  | @keep path l rest body htarget _ _ ih =>
    cases hplace with
    | @cons _ _ _ _ hnumber hfirst hscan hhas hrest =>
      obtain ⟨started, hrole⟩ := hhas
      have hl := hls l List.mem_cons_self
      have hpasses : Passes table top idOf inBlock (placeAt site (l.output .keep file))
          l.openAfter := passes_output hsite hl (fun h => hfirst (by omega)) hscan
      have htail := ih hrest hsite fun l' hl' => hls l' (List.mem_cons_of_mem _ hl')
      rw [Body.placed, Body.placed, List.map_append, List.map_append, significantCode_append,
        List.flatMap_append, hpasses.blockAfter_eq, htail,
        significantCode_output idOf hrole hscan, flatMap_significant_output idOf hrole htarget]
  | @splice path l rest target text child body hrole hfind _ hchild _ ihchild ih =>
    cases hplace with
    | @cons _ _ _ _ hnumber hfirst hscan hhas hrest =>
      have hcomment := HasRole.inComment_of_splice hhas hrole
      have hsite' := expandedAt_number hsite (hls l List.mem_cons_self) hrole hfind
      have hframe := hchild.significantCode_frame idOf hsite'
        (ihchild (inPlace_sourceLines text) hsite' fun l' hl' => hl')
      have htail := ih hrest hsite fun l' hl' => hls l' (List.mem_cons_of_mem _ hl')
      -- the states between the pieces are those in which the pieces were written
      have hbefore : Passes table top idOf inBlock (placeAt site (l.beforeSplice .keep)) false :=
        passes_beforeSplice hcomment hscan
      have hinside : Passes table top idOf false (placedFrame .keep (site ++ [l.number])
          (.included target) child.lines (child.placed .keep (site ++ [l.number])
            (.included target))) false := hchild.passes_frame hsite'
      have hafter : Passes table top idOf false (placeAt site (l.afterSplice .keep file))
          l.openAfter := passes_afterSplice
      have hdiscard : (Body.splice l target child body).placed .discard site file =
          placedFrame .discard (site ++ [l.number]) (.included target) child.lines
            (child.placed .discard (site ++ [l.number]) (.included target)) ++
            body.placed .discard site file := by
        simp [Body.placed, SourceLine.beforeSplice, SourceLine.afterSplice, placeAt]
      rw [hdiscard, Body.placed]
      simp only [List.map_append, significantCode_append, List.flatMap_append, blockAfter_append]
      rw [hbefore.blockAfter_eq, hinside.blockAfter_eq, hafter.blockAfter_eq, htail, hframe,
        significantCode_beforeSplice idOf hcomment hscan, significantCode_afterSplice,
        List.nil_append, List.append_nil]

/-! ### Discarded lines -/

theorem not_spaces_placedFrame {site : List Nat} {file : FileRef} {ls : List SourceLine}
    {inner : List PlacedLine} (h : ∀ p ∈ inner, ¬ Text.Spaces (p.text idOf)) :
    ∀ p ∈ placedFrame .discard site file ls inner, ¬ Text.Spaces (p.text idOf) := by
  intro q hq
  rw [placedFrame_discard] at hq
  rcases List.mem_cons.1 hq with rfl | hq
  · have hmark : (0x23 : UInt8) ∈ Text.ofString "#line " := by decide
    exact fun hs => hs.mark_not_mem (by simp [PlacedLine.text, OutputLine.render, hmark])
  · obtain ⟨p, hp, hpq⟩ := mem_trimPlaced hq
    have hnot := h p hp
    rcases hpq with rfl | hpq
    · exact hnot
    · rwa [← Text.trimEnd_eq_nil_iff, PlacedLine.trimEnd_text_of_trimEnd? hpq,
        Text.trimEnd_eq_nil_iff]

/-- No line is blank when lines are discarded. -/
theorem Expands.not_spaces {version : Text} {path : List Text} {ls : List SourceLine} {body : Body}
    (h : Expands table version path ls body) {index : Nat} {inBlock : Bool}
    (hplace : InPlace index inBlock ls) (site : List Nat) (file : FileRef) :
    ∀ p ∈ body.placed .discard site file, ¬ Text.Spaces (p.text idOf) := by
  induction h generalizing index inBlock site file with
  | nil => intro p hp; simp [Body.placed] at hp
  | @keep path l rest body _ _ _ ih =>
    cases hplace with
    | cons _ _ _ hhas hrest =>
      intro p hp
      rcases List.mem_append.1 hp with hp | hp
      · obtain ⟨o, ho, rfl⟩ := List.mem_map.1 hp
        obtain ⟨rfl, redeclares, hrole, -⟩ := SourceLine.eq_of_mem_output_discard ho
        obtain ⟨started, hhas⟩ := hhas
        exact hhas.not_spaces (by simp [hrole])
      · exact ih hrest site file p hp
  | @splice path l rest target text child body _ _ _ _ _ ihchild ih =>
    cases hplace with
    | cons _ _ _ _ hrest =>
      intro p hp
      simp only [Body.placed, SourceLine.beforeSplice, SourceLine.afterSplice, placeAt,
        List.map_nil, List.nil_append, List.append_nil] at hp
      rcases List.mem_append.1 hp with hp | hp
      · exact not_spaces_placedFrame idOf
          (ihchild (inPlace_sourceLines text) (site ++ [l.number]) (.included target)) p hp
      · exact ih hrest site file p hp

end

/-! ### A whole assembly -/

theorem significantCode_layout {language : Language} {table : IncludeTable} {name text : Text}
    {body : Body} (h : (walkTop language table name text).result = .ok body)
    (idOf : FileRef → FileId) :
    significantCode false ((layout language .keep table name text).map (PlacedLine.text idOf)) =
      ((layout language .discard table name text).map (PlacedLine.text idOf)).flatMap
        significant := by
  have hexp := expands_of_walk h
  have hplace := inPlace_sourceLines text.trimEnd
  have hsite : expandedAt table .top text.trimEnd [] = some (.top, text.trimEnd) := rfl
  have hbody := hexp.significantCode_eq idOf hplace hsite fun l hl => hl
  have hframe := @significantCode_placedFrame idOf [] .top body.lines _ _
    (fun hne => absurd rfl hne) hbody
  have hslash := slash_not_mem_treeVersion language text
  rw [layout, layout, h]
  simp only [Body.layout, List.map_cons, significantCode_cons, List.flatMap_cons]
  rw [PlacedLine.text, scanLine_version hslash, hframe]

/-- No line of an assembly is blank when lines are discarded. -/
theorem not_spaces_layout {language : Language} {table : IncludeTable} {registry : Registry}
    {name text : Text} {a : Assembly}
    (h : (assemble language .discard table registry name text).result = .ok a)
    (idOf : FileRef → FileId) :
    ∀ p ∈ layout language .discard table name text, ¬ Text.Spaces (p.text idOf) := by
  obtain ⟨body, hexp, hlayout, -, -⟩ := exists_expands_of_assemble h
  intro p hp
  rw [hlayout] at hp
  rcases List.mem_cons.1 hp with rfl | hp
  · have hmark : (0x23 : UInt8) ∈ Text.ofString "#version " := by decide
    exact fun hs => hs.mark_not_mem (by simp [PlacedLine.text, OutputLine.render, hmark])
  · exact not_spaces_placedFrame idOf
      (hexp.not_spaces idOf (inPlace_sourceLines text.trimEnd) [] .top) p hp

theorem not_spaces_lines {language : Language} {table : IncludeTable} {registry : Registry}
    {name text : Text} {a : Assembly}
    (h : (assemble language .discard table registry name text).result = .ok a) :
    ∀ l ∈ lines a.source, ¬ Text.Spaces l := by
  rw [(lines_source h).2]
  intro l hl
  obtain ⟨t, ht, rfl⟩ := List.mem_map.1 hl
  obtain ⟨p, hp, rfl⟩ := List.mem_map.1 ht
  rw [← Text.trimEnd_eq_nil_iff, trimEnd_dropCarriageReturn, Text.trimEnd_eq_nil_iff]
  exact not_spaces_layout h _ p hp

/-- **Both modes fail alike or write the same code.** From the same state, one failure stands for
the other, the registries end up the same, and so do the versions. Read back by the scanner, the
kept lines have the code that is written when lines are discarded, up to line directives, version
declarations and white space at the end. -/
theorem assemble_modes_agree (language : Language) (table : IncludeTable) (registry : Registry)
    (name text : Text) :
    (assemble language .keep table registry name text).registry =
      (assemble language .discard table registry name text).registry ∧
    match (assemble language .keep table registry name text).result,
      (assemble language .discard table registry name text).result with
    | .error f, .error f' => f = f'
    | .ok a, .ok a' =>
      a.version = a'.version ∧
      ((codeOf false (lines a.source)).filter fun code => !isBookkeeping code).map Text.trimEnd =
        ((lines a'.source).filter fun code => !isBookkeeping code).map Text.trimEnd
    | _, _ => False := by
  refine ⟨rfl, ?_⟩
  cases hwalk : (walkTop language table name text).result with
  | error f => simp [assemble, hwalk, Except.map]
  | ok body =>
    have hkeep : (assemble language .keep table registry name text).result = .ok _ :=
      assemble_eq_ok_iff.2 ⟨body, hwalk, rfl⟩
    have hdiscard : (assemble language .discard table registry name text).result = .ok _ :=
      assemble_eq_ok_iff.2 ⟨body, hwalk, rfl⟩
    have hlines := (lines_source hkeep).2
    have hlines' := (lines_source hdiscard).2
    have hspaces := not_spaces_lines hdiscard
    rw [hkeep, hdiscard]
    refine ⟨rfl, ?_⟩
    rw [map_trimEnd_codeOf, map_trimEnd_filter hspaces, hlines, hlines',
      significantCode_map_dropCarriageReturn, flatMap_significant_map_dropCarriageReturn]
    exact significantCode_layout hwalk _

end ShaderSplice
