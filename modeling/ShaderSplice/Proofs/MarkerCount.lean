import ShaderSplice.Proofs.Leftover
import ShaderSplice.Proofs.Replay

/-!
# How many markers an assembly has

A file is expanded once for every include directive that names it, in every expansion of the file
that the directive stands in. The number of expansions under a file follows from the graph of
includes alone,

    expansions under a file  =  Σ over its directives  (1 + expansions under the target)

and it tells how many markers are written. Each file starts with one, and if lines are kept another
one leads back to the file of the directive. No marker is lost in trimming, and unless a file brings
its own, no other line of the assembly is read as one.
-/

namespace ShaderSplice

variable {table : IncludeTable} {version : Text}

/-! ### Counting in the graph -/

/-- The expansions under a file with directives for `targets`, if `count` tells those under each
target. -/
def expansionsUnder (count : Text → Nat) : List Text → Nat
  | [] => 0
  | target :: targets => 1 + count target + expansionsUnder count targets

/-- `count` tells the expansions under every file that is reached from `starts`. -/
def CountsExpansions (table : IncludeTable) (starts : List Text) (count : Text → Nat) : Prop :=
  ∀ name content, ReachableFrom table starts name → table.find? name = some content →
    count name = expansionsUnder count (activeTargets content)

theorem expansionsUnder_targets_keep {count : Text → Nat} {l : SourceLine}
    {rest : List SourceLine} (htarget : l.target? = none) :
    expansionsUnder count (targets (l :: rest)) = expansionsUnder count (targets rest) := by
  rw [targets, List.filterMap_cons_none htarget, targets]

theorem expansionsUnder_targets_splice {count : Text → Nat} {l : SourceLine}
    {rest : List SourceLine} {target : Text} (hrole : l.role = .splice target) :
    expansionsUnder count (targets (l :: rest)) =
      1 + count target + expansionsUnder count (targets rest) := by
  have htarget := SourceLine.target?_eq_some_iff.2 hrole
  rw [targets, List.filterMap_cons_some htarget, expansionsUnder, targets]

theorem Body.length_spliced_splice (l : SourceLine) (target : Text) (child rest : Body) :
    (Body.splice l target child rest).spliced.length =
      1 + child.spliced.length + rest.spliced.length := by
  rw [spliced, List.cons_append, List.length_cons, List.length_append]
  omega

/-- What is spliced into a body is as many files as the graph tells. -/
theorem Expands.length_spliced {path : List Text} {ls : List SourceLine} {body : Body}
    (h : Expands table version path ls body) {count : Text → Nat}
    (hcount : CountsExpansions table (targets ls) count) :
    body.spliced.length = expansionsUnder count (targets ls) := by
  induction h with
  | nil => rfl
  | keep htarget _ _ ih =>
    rw [expansionsUnder_targets_keep htarget, Body.spliced]
    exact ih fun name content hname => hcount name content hname.of_tail
  | @splice path l rest target text child body hrole hfind _ _ _ ihchild ih =>
    -- the target counts what is below it, and its own directives reach nothing new
    have hchild : child.spliced.length = count target := by
      rw [hcount target text (reachableFrom_target hrole) hfind, ← targets_sourceLines]
      exact ihchild fun name content hname => hcount name content (hname.of_child hrole hfind)
    have hbody := ih fun name content hname => hcount name content hname.of_tail
    rw [expansionsUnder_targets_splice hrole, ← hchild, ← hbody, Body.length_spliced_splice]

/-! ### The graph can be counted -/

/-- The names that a walk over the file `name` enters, counted. -/
def enteredCount (table : IncludeTable) (version name : Text) : Nat :=
  ((table.find? name).map fun content =>
    (walk table version name [] (sourceLines content)).entered.length).getD 0

theorem Expands.enteredCount_eq {path : List Text} {name content : Text} {body : Body}
    (h : Expands table version path (sourceLines content) body)
    (hfind : table.find? name = some content) :
    enteredCount table version name = body.spliced.length := by
  have hfree := h.of_subset (List.nil_subset path)
  rw [enteredCount, hfind, Option.map_some, Option.getD_some, hfree.entered_eq]

theorem Expands.length_spliced_eq_enteredCount {path : List Text} {ls : List SourceLine}
    {body : Body} (h : Expands table version path ls body) :
    body.spliced.length = expansionsUnder (enteredCount table version) (targets ls) := by
  induction h with
  | nil => rfl
  | keep htarget _ _ ih => rw [expansionsUnder_targets_keep htarget, Body.spliced, ih]
  | splice hrole hfind _ hchild _ _ ih =>
    rw [expansionsUnder_targets_splice hrole, hchild.enteredCount_eq hfind, ← ih,
      Body.length_spliced_splice]

/-- Every file that is reached where an expansion succeeds expands by itself. -/
theorem Expands.exists_of_reachable {path : List Text} {ls : List SourceLine} {body : Body}
    (h : Expands table version path ls body) {name content : Text}
    (hname : ReachableFrom table (targets ls) name) (hfind : table.find? name = some content) :
    ∃ child, Expands table version [] (sourceLines content) child := by
  have hviable : Viable table version [] (sourceLines content) := by
    constructor
    · apply lead_eq_of_openingVersion?
      intro v hv
      exact (h.clean name hname).2.version_eq content v hfind hv
    · intro n hn
      obtain ⟨start, hstart, hpath⟩ := hname
      rw [targets_sourceLines] at hn
      have hbelow := (Reachable.transGen hfind hn).to_reflTransGen
      exact ⟨by simp, (h.clean n ⟨start, hstart, hpath.trans hbelow⟩).2⟩
  obtain ⟨child, hchild⟩ :
      ∃ child, (walk table version name [] (sourceLines content)).result = .ok child :=
    hviable.exists_walk_eq_ok
  exact ⟨child, expands_of_walk hchild⟩

/-- Where an expansion succeeds, the expansions under every file can be told. -/
theorem Expands.countsExpansions {path : List Text} {ls : List SourceLine} {body : Body}
    (h : Expands table version path ls body) :
    CountsExpansions table (targets ls) (enteredCount table version) := by
  intro name content hname hfind
  obtain ⟨child, hchild⟩ := h.exists_of_reachable hname hfind
  rw [hchild.enteredCount_eq hfind, ← targets_sourceLines, hchild.length_spliced_eq_enteredCount]

/-! ### Markers -/

/-- The markers that are written for one expansion: one at the start of the file, and one that
leads back. -/
def LineMode.markersPerInclude : LineMode → Nat
  | .keep => 2
  | .discard => 1

theorem length_markedFiles_afterSplice (mode : LineMode) (file : FileRef) (l : SourceLine) :
    1 + (markedFiles (l.afterSplice mode file)).length = mode.markersPerInclude := by
  cases mode with
  | keep =>
    rw [SourceLine.afterSplice]
    split
    · rfl
    · rfl
  | discard => rfl

theorem Body.length_markedFiles_emit (mode : LineMode) (file : FileRef) (body : Body) :
    (markedFiles (body.emit mode file)).length =
      mode.markersPerInclude * body.spliced.length := by
  induction body generalizing file with
  | nil => rfl
  | keep l rest ih =>
    rw [emit, markedFiles_append, markedFiles_output, List.nil_append, ih, spliced]
  | splice l target child rest ihchild ih =>
    have hback := length_markedFiles_afterSplice mode file l
    rw [emit, markedFiles_append, markedFiles_append, markedFiles_append,
      markedFiles_beforeSplice, List.nil_append, markedFiles_frame, length_spliced_splice]
    simp only [List.length_append, List.length_cons, ihchild, ih, Nat.mul_add, Nat.mul_one]
    omega

/-- `l` is read as a line directive. -/
def isLineDirective (l : Text) : Bool := directiveName? l = some (Text.ofString "line")

/-- Nothing that is copied from a file below a source is a line directive. -/
def CopiesNoMarkers (mode : LineMode) (table : IncludeTable) (top : Text) : Prop :=
  ∀ site file content, expandedAt table .top top site = some (file, content) →
    ∀ l ∈ sourceLines content, isLineDirective (l.written mode) = false

/-- The line is a marker. -/
def OutputLine.isMarker : OutputLine → Bool
  | .marker _ _ => true
  | _ => false

theorem length_markedFiles (ls : List OutputLine) :
    (markedFiles ls).length = ls.countP OutputLine.isMarker := by
  rw [markedFiles, List.length_filterMap_eq_countP]
  apply List.countP_congr
  intro o _
  cases o <;> simp [OutputLine.isMarker]

section
variable {language : Language} {mode : LineMode} {registry : Registry} {name text : Text}
  {a : Assembly}

/-- The markers are the lines of an assembly that are read as such. -/
theorem isLineDirective_text {top : Text} (hfree : CopiesNoMarkers mode table top)
    {p : PlacedLine} (hfrom : p.FromSource table top mode) (idOf : FileRef → FileId) :
    isLineDirective (p.text idOf) = p.line.isMarker := by
  obtain ⟨site, line⟩ := p
  cases line with
  | version v =>
    rw [isLineDirective, PlacedLine.text, directiveName?_version]
    exact decide_eq_false (by decide)
  | marker number file =>
    rw [isLineDirective, PlacedLine.text, directiveName?_marker]
    exact decide_eq_true rfl
  | copy file number t =>
    obtain ⟨l, hl⟩ := hfrom file number t rfl
    obtain ⟨content, hsite, hmem⟩ := hl.source
    -- white space at the end has no part in the name of a directive
    have htrim : t.trimEnd = (l.written mode).trimEnd := by
      rcases hl.text_eq with rfl | rfl
      · rfl
      · exact Text.trimEnd_trimEnd _
    have hline := hfree site file content hsite l hmem
    rw [isLineDirective, ← directiveName?_congr htrim] at hline
    exact hline
  | seam closes opens =>
    rw [isLineDirective, PlacedLine.text, OutputLine.render, directiveName?,
      parse?_eq_none_of_no_mark (mark_not_mem_seamText closes opens)]
    exact decide_eq_false (by simp)

theorem countP_isLineDirective
    (h : (assemble language mode table registry name text).result = .ok a)
    (hfree : CopiesNoMarkers mode table text.trimEnd) :
    ∃ body, Expands table (treeVersion language (topLines text)) [] (topLines text) body ∧
      (a.source.splitOn Text.newline).countP isLineDirective =
        1 + mode.markersPerInclude * body.spliced.length := by
  obtain ⟨body, hexp, hlayout, -, -⟩ := exists_expands_of_assemble h
  refine ⟨body, hexp, ?_⟩
  calc (a.source.splitOn Text.newline).countP isLineDirective
      = (layout language mode table name text).countP fun p => p.line.isMarker := by
        rw [(lines_source h).1, List.countP_map]
        apply List.countP_congr
        intro p hp
        rw [Function.comp_apply, isLineDirective_text hfree (fromSource_layout h p hp)]
    _ = (markedFiles (body.assembly mode (treeVersion language (topLines text)))).length := by
        rw [length_markedFiles, ← map_line_layout, ← hlayout, List.countP_map]
        rfl
    _ = 1 + mode.markersPerInclude * body.spliced.length := by
        have hassembly : markedFiles (body.assembly mode (treeVersion language (topLines text))) =
            .top :: markedFiles (body.emit mode .top) := markedFiles_frame body.lines _
        rw [hassembly, List.length_cons, body.length_markedFiles_emit, Nat.add_comm]

/-! ### Records -/

/-- The record tells that an include is expanded. -/
def Record.isExpansion (r : Record) : Bool :=
  r.level = .debug ∧ r.message = "expanding include"

theorem countP_isExpansion (language : Language) (mode : LineMode) (table : IncludeTable)
    (registry : Registry) (name text : Text) :
    (assemble language mode table registry name text).log.countP Record.isExpansion =
      (walkTop language table name text).entered.length := by
  rw [assemble, Walk.entered, List.length_filterMap_eq_countP, List.countP_map]
  apply List.countP_congr
  intro e _
  cases e <;> simp [Event.record, Event.entered?, Record.isExpansion]

/-- **Markers and records are as many as the graph of includes tells.** An assembly that succeeds
has one marker for its source, and one or two for each expansion under it, as long as no file brings
line directives of its own; and each expansion is recorded once. The number of expansions is the one
that the include directives of each file, taken alone, add up to. -/
theorem assemble_counts_expansions
    (h : (assemble language mode table registry name text).result = .ok a)
    (hfree : CopiesNoMarkers mode table text.trimEnd) :
    (∃ count, CountsExpansions table (activeTargets text.trimEnd) count) ∧
    ∀ count, CountsExpansions table (activeTargets text.trimEnd) count →
      (a.source.splitOn Text.newline).countP isLineDirective =
        1 + mode.markersPerInclude * expansionsUnder count (activeTargets text.trimEnd) ∧
      (assemble language mode table registry name text).log.countP Record.isExpansion =
        expansionsUnder count (activeTargets text.trimEnd) := by
  obtain ⟨body, hexp, hmarkers⟩ := countP_isLineDirective h hfree
  rw [← targets_sourceLines, ← topLines]
  refine ⟨⟨_, hexp.countsExpansions⟩, ?_⟩
  intro count hcount
  have hspliced := hexp.length_spliced hcount
  constructor
  · rw [hmarkers, hspliced]
  · rw [countP_isExpansion, walkTop, hexp.entered_eq, hspliced]

end

/-- An include that is expanded twice, once in front of a comment that stays open over it. -/
theorem assemble_counts_expansions_twice :
    let table := IncludeTable.ofList [(Text.ofString "a", Text.ofString "x /*\ny")]
    let text := Text.ofString "#include \"a\" /*\n*/ #include \"a\"\n// #line 7"
    ∃ a, (assemble .openGL .keep table ∅ [] text).result = .ok a ∧
      (a.source.splitOn Text.newline).countP isLineDirective = 5 ∧
      (assemble .openGL .keep table ∅ [] text).log.countP Record.isExpansion = 2 := by
  intro table text
  obtain ⟨a, ha⟩ : ∃ a, (assemble .openGL .keep table ∅ [] text).result = .ok a :=
    exists_assemble_of_leaves (by decide +kernel)
  have hfree : CopiesNoMarkers .keep table text.trimEnd := by
    have hentries : ∀ content ∈ text.trimEnd :: table.entries.map (·.2),
        ∀ l ∈ sourceLines content, isLineDirective (l.written .keep) = false := by
      decide +kernel
    intro site file content hat
    exact hentries content (mem_of_expandedAt List.mem_cons_self hat)
  have hcount : CountsExpansions table (activeTargets text.trimEnd) fun _ => 0 := by
    have hentries : ∀ content ∈ table.entries.map (·.2), activeTargets content = [] := by
      decide +kernel
    intro name content _ hfind
    obtain ⟨l₁, l₂, he, -⟩ := List.lookup_eq_some_iff.1 hfind
    rw [hentries content (by simp [he])]
    rfl
  have hexpansions : expansionsUnder (fun _ => 0) (activeTargets text.trimEnd) = 2 := by
    decide +kernel
  obtain ⟨hmarkers, hrecords⟩ := (assemble_counts_expansions ha hfree).2 _ hcount
  rw [hexpansions] at hmarkers hrecords
  exact ⟨a, ha, hmarkers, hrecords⟩

end ShaderSplice
