import ShaderSplice.Proofs.Modes
import ShaderSplice.Proofs.Registry

/-!
# Include directives that are left

An assembly splices every include directive of its files. A directive is recognised by the blanks
around it, though, and what is written for a file is trimmed of all white space at its end. Code may
therefore *hide* a directive: it names no target as it stands, and names one when white space other
than blanks is gone from its end.

    #include "b"⎵      ──includeTarget?──▶  none
    #include "b"       ──includeTarget?──▶  some b

An include directive of an assembled text is a line of some file that hides it, and nothing else:
markers, seams and the version are no include directives, and a copied line is read as the line is
read in its own file, up to white space at its end.
-/

namespace ShaderSplice

/-- The targets of the include directives that stand in an assembled text. Lines that are kept are
read by the scanner, and lines of code are read as they are. -/
def leftTargets (mode : LineMode) (source : Text) : List Text :=
  match mode with
  | .keep => activeTargets source
  | .discard => (source.splitOn Text.newline).filterMap includeTarget?

/-- Code that is no include directive, and would be one for `target` without the white space at its
end. -/
structure HidesTarget (code target : Text) : Prop where
  none : includeTarget? code = none
  trimmed : includeTarget? code.trimEnd = some target

/-- A line of a file that is expanded at some site hides an include directive for `target`. -/
def Hidden (table : IncludeTable) (top target : Text) : Prop :=
  ∃ site file content, expandedAt table .top top site = some (file, content) ∧
    ∃ step ∈ scanLines false (lines content), HidesTarget step.1.code target

/-! ### The lines that are copied -/

/-- What is copied of a line: the line as it stands, or its code. -/
def SourceLine.written (mode : LineMode) (l : SourceLine) : Text :=
  match mode with
  | .keep => l.raw
  | .discard => l.scan.code

/-- `t` is what is copied of the line `l`, which is no include directive. White space at its end
may be lost. -/
structure WrittenFor (table : IncludeTable) (top : Text) (mode : LineMode) (site : List Nat)
    (file : FileRef) (number : Nat) (t : Text) (l : SourceLine) : Prop where
  source : ∃ content, expandedAt table .top top site = some (file, content) ∧
    l ∈ sourceLines content
  target_eq : l.target? = none
  number_eq : l.number = number
  text_eq : t = l.written mode ∨ t = (l.written mode).trimEnd

/-- A line that is a copy is the copy of a line that is no include directive. -/
def PlacedLine.FromSource (table : IncludeTable) (top : Text) (mode : LineMode) (p : PlacedLine) :
    Prop :=
  ∀ file number t, p.line = .copy file number t →
    ∃ l, WrittenFor table top mode p.site file number t l

section
variable {table : IncludeTable} {top : Text} {mode : LineMode}

theorem PlacedLine.FromSource.of_trimEnd? {p q : PlacedLine} (hq : p.trimEnd? = some q)
    (h : p.FromSource table top mode) : q.FromSource table top mode := by
  rcases p.trimEnd?_eq_some hq with ⟨rfl, -⟩ | ⟨file, number, t, hp, -, rfl⟩
  · exact h
  · intro file' number' t' hline
    obtain ⟨l, hl⟩ := h file number t hp
    simp only [OutputLine.copy.injEq] at hline
    obtain ⟨rfl, rfl, rfl⟩ := hline
    refine ⟨l, hl.source, hl.target_eq, hl.number_eq, .inr ?_⟩
    -- trimming twice is trimming once
    rcases hl.text_eq with rfl | rfl
    · rfl
    · exact Text.trimEnd_trimEnd _

/-- Copies of one place come from one line. -/
theorem WrittenFor.eq_of_copyOf {site : List Nat} {file : FileRef} {number : Nat} {t t' : Text}
    {l l' : SourceLine} (h : WrittenFor table top mode site file number t l)
    (h' : CopyOf table top site file number t' l') : l = l' := by
  obtain ⟨content, hsite, hl⟩ := h.source
  obtain ⟨content', hsite', hl'⟩ := h'.source
  rw [hsite] at hsite'
  cases hsite'
  obtain ⟨k, hk, hget⟩ := exists_index_of_mem hl
  obtain ⟨k', hk', hget'⟩ := exists_index_of_mem hl'
  have hkk : k = k' := by
    have hn := h.number_eq
    have hn' := h'.number_eq
    omega
  rw [hkk, hget'] at hget
  exact (Option.some.inj hget).symm

theorem SourceLine.eq_of_mem_output {l : SourceLine} {file file' : FileRef} {number : Nat}
    {t : Text} (h : .copy file' number t ∈ l.output mode file) :
    file' = file ∧ number = l.number ∧ t = l.written mode := by
  cases mode with
  | keep =>
    rcases l.output_keep_cases file with ⟨he, -⟩ | ⟨he, -⟩ | ⟨he, -⟩
    · simp [he] at h
    · simpa [he, written] using h
    · simp [he] at h
  | discard =>
    cases (eq_of_mem_output_discard h).1
    exact ⟨rfl, rfl, rfl⟩

theorem writesAll_fromSource {site : List Nat} {file : FileRef} {content : Text}
    (hsite : expandedAt table .top top site = some (file, content)) :
    WritesAll (PlacedLine.FromSource table top mode) mode site file content := by
  constructor
  · intro number file' number' t hline
    cases hline
  · intro closes opens file' number t hline
    cases hline
  · intro l hl htarget o ho file' number t hline
    dsimp only at hline
    subst hline
    obtain ⟨rfl, rfl, ht⟩ := SourceLine.eq_of_mem_output ho
    exact ⟨l, ⟨content, hsite, hl⟩, htarget, rfl, .inl ht⟩

end

section
variable {language : Language} {mode : LineMode} {table : IncludeTable} {registry : Registry}
  {name text : Text} {a : Assembly}

theorem fromSource_layout
    (h : (assemble language mode table registry name text).result = .ok a) :
    ∀ p ∈ layout language mode table name text, p.FromSource table text.trimEnd mode := by
  obtain ⟨body, hexp, hlayout, -, -⟩ := exists_expands_of_assemble h
  have htrim (p q : PlacedLine) (hq : p.trimEnd? = some q)
      (hp : p.FromSource table text.trimEnd mode) : q.FromSource table text.trimEnd mode :=
    hp.of_trimEnd? hq
  rw [hlayout]
  refine hexp.forall_mem_layout htrim (fun site file content => writesAll_fromSource) ?_
  intro file number t hline
  cases hline

/-! ### What hides a directive -/

/-- A copied line hides the directive that is read where it is copied to. -/
theorem WrittenFor.hidden {top : Text} {site : List Nat} {file : FileRef} {number : Nat}
    {t code target : Text} {l : SourceLine} (h : WrittenFor table top mode site file number t l)
    (hcode : code.trimEnd = l.scan.code.trimEnd) (hleft : includeTarget? code = some target) :
    Hidden table top target := by
  obtain ⟨content, hsite, hl⟩ := h.source
  obtain ⟨k, -, hget⟩ := exists_index_of_mem hl
  obtain ⟨started, hrole⟩ := hasRole_of_mem hl
  refine ⟨site, file, content, hsite, (l.scan, l.openAfter), ?_, ?_, ?_⟩
  · exact List.mem_of_getElem? (getElem?_sourceLines hget).2.2
  · rw [← hrole.target_eq, h.target_eq]
  · rw [← hcode]
    exact includeTarget?_trimEnd hleft

theorem mark_not_mem_seamText (closes opens : Bool) : 0x23 ∉ seamText closes opens := by
  revert closes opens
  decide

/-- What is written besides copies is no include directive. -/
theorem directiveName?_text_ne {p : PlacedLine}
    (hp : ∀ file number t, p.line ≠ .copy file number t) (idOf : FileRef → FileId) :
    directiveName? (p.text idOf) ≠ some (Text.ofString "include") := by
  obtain ⟨site, line⟩ := p
  cases line with
  | version v =>
    rw [PlacedLine.text, directiveName?_version]
    decide
  | marker number file =>
    rw [PlacedLine.text, directiveName?_marker]
    decide
  | copy file number t => exact absurd rfl (hp file number t)
  | seam closes opens =>
    rw [PlacedLine.text, OutputLine.render, directiveName?,
      parse?_eq_none_of_no_mark (mark_not_mem_seamText closes opens)]
    simp

/-- Nor is its code, when it is read by the scanner. -/
theorem PlacedLine.InStep.directiveName?_ne {top : Text} {inBlock : Bool} {p : PlacedLine}
    (h : p.InStep table top inBlock) (hp : ∀ file number t, p.line ≠ .copy file number t)
    (idOf : FileRef → FileId) :
    directiveName? (scanLine inBlock (p.text idOf)).1.code ≠ some (Text.ofString "include") := by
  have htext := directiveName?_text_ne hp idOf
  obtain ⟨site, line⟩ := p
  cases line with
  | version v =>
    obtain ⟨rfl, hv⟩ := h
    rw [PlacedLine.text, scanLine_version hv]
    exact htext
  | marker number file =>
    obtain rfl : inBlock = false := h
    rw [PlacedLine.text, scanLine_marker]
    exact htext
  | copy file number t => exact absurd rfl (hp file number t)
  | seam closes opens =>
    have hmark : 0x23 ∉ (scanLine inBlock (seamText closes opens)).1.code := fun hmem =>
      mark_not_mem_seamText closes opens (code_subset inBlock _ hmem)
    rw [PlacedLine.text, OutputLine.render, directiveName?, parse?_eq_none_of_no_mark hmark]
    simp

/-- A line that is met in step and read as an include directive is the copy of a line that hides
it. -/
theorem PlacedLine.InStep.hidden {top target : Text} {inBlock : Bool} {p : PlacedLine}
    (h : p.InStep table top inBlock) (hfrom : p.FromSource table top .keep)
    (idOf : FileRef → FileId)
    (htarget : includeTarget? (scanLine inBlock (dropCarriageReturn (p.text idOf))).1.code =
      some target) : Hidden table top target := by
  by_cases hcopy : ∃ file number t, p.line = .copy file number t
  · -- read in step with its own file, the copy has the code of its line
    obtain ⟨file, number, t, hline⟩ := hcopy
    obtain ⟨l, hl⟩ := hfrom file number t hline
    rw [PlacedLine.InStep, hline] at h
    obtain ⟨l', hl', hscan⟩ := h
    obtain rfl := hl.eq_of_copyOf hl'
    have hagree :=
      (scanLine_congr inBlock ((trimEnd_dropCarriageReturn t).trans hl'.trimEnd_eq)).1
    rw [hscan] at hagree
    rw [PlacedLine.text, hline] at htarget
    exact hl.hidden hagree.code htarget
  · have hne : ∀ file number t, p.line ≠ .copy file number t :=
      fun file number t hline => hcopy ⟨file, number, t, hline⟩
    have hagree := (scanLine_congr inBlock (trimEnd_dropCarriageReturn (p.text idOf))).1
    have hname := directiveName?_of_includeTarget? htarget
    rw [directiveName?_congr hagree.code] at hname
    exact absurd hname (h.directiveName?_ne hne idOf)

/-- With its lines kept, an assembly has no include directives but those that a line hides. -/
theorem hidden_of_mem_activeTargets
    (h : (assemble language .keep table registry name text).result = .ok a) {target : Text}
    (hleft : target ∈ activeTargets a.source) : Hidden table text.trimEnd target := by
  obtain ⟨step, hstep, htarget⟩ := List.mem_filterMap.1 hleft
  obtain ⟨i, hi⟩ := List.mem_iff_getElem?.1 hstep
  rw [getElem?_scanLines, blockAfter_take_lines h, (lines_source h).2, List.getElem?_map,
    List.getElem?_map, Option.map_map, Option.map_map] at hi
  obtain ⟨p, hp, rfl⟩ := Option.map_eq_some_iff.1 hi
  have hmet := (passes_layout h).along.getElem? hp
  exact hmet.hidden (fromSource_layout h p (List.mem_of_getElem? hp)) _ htarget

/-- With its lines discarded, neither. -/
theorem hidden_of_mem_splitOn
    (h : (assemble language .discard table registry name text).result = .ok a) {line target : Text}
    (hline : line ∈ a.source.splitOn Text.newline) (htarget : includeTarget? line = some target) :
    Hidden table text.trimEnd target := by
  rw [(lines_source h).1] at hline
  obtain ⟨p, hp, rfl⟩ := List.mem_map.1 hline
  by_cases hcopy : ∃ file number t, p.line = .copy file number t
  · obtain ⟨file, number, t, hline⟩ := hcopy
    obtain ⟨l, hl⟩ := fromSource_layout h p hp file number t hline
    rw [PlacedLine.text, hline] at htarget
    refine hl.hidden ?_ htarget
    rcases hl.text_eq with rfl | rfl
    · rfl
    · exact Text.trimEnd_trimEnd _
  · have hne : ∀ file number t, p.line ≠ .copy file number t :=
      fun file number t hline => hcopy ⟨file, number, t, hline⟩
    exact absurd (directiveName?_of_includeTarget? htarget) (directiveName?_text_ne hne _)

/-- **An include directive that an assembly leaves was hidden in one of its files.** Whatever
stands in an assembled text as an include directive is the copy of a line that is none, and became
one when the white space at its end was trimmed. Where no line of the expanded files hides a
directive, none is left. -/
theorem assemble_leaves_hidden_only
    (h : (assemble language mode table registry name text).result = .ok a) :
    ∀ target ∈ leftTargets mode a.source, Hidden table text.trimEnd target := by
  intro target hleft
  cases mode with
  | keep => exact hidden_of_mem_activeTargets h hleft
  | discard =>
    obtain ⟨line, hline, htarget⟩ := List.mem_filterMap.1 hleft
    exact hidden_of_mem_splitOn h hline htarget

end

/-- A directive that an include hides in its last line, where it is left when the lines are kept. -/
theorem assemble_leaves_hidden_only_include :
    let a := Text.ofString "a"
    let b := Text.ofString "b"
    let inner := Text.ofString "#include \"b\"\u00a0"
    let table := IncludeTable.ofList [(a, inner), (b, Text.ofString "x")]
    let text := Text.ofString "#include \"a\""
    ∃ out, (assemble .openGL .keep table ∅ [] text).result = .ok out ∧
      leftTargets .keep out.source = [b] ∧ Hidden table text.trimEnd b := by
  intro a b inner table text
  have hinner : sourceLines inner = [.ofRaw 1 false false inner] :=
    sourceLines_of_lines_eq (by decide +kernel)
  have htop : topLines text = [.ofRaw 1 false false text] := by
    rw [topLines, show text.trimEnd = text by decide +kernel]
    exact sourceLines_of_lines_eq (by decide +kernel)
  have hchild (version : Text) : Expands table version [a] (sourceLines inner)
      (.keep (.ofRaw 1 false false inner) .nil) := by
    rw [hinner]
    exact .keep_of_role (by decide +kernel) (by decide +kernel) .nil
  have hexp (version : Text) : Expands table version [] (topLines text)
      (.splice (.ofRaw 1 false false text) a (.keep (.ofRaw 1 false false inner) .nil) .nil) := by
    have hrole : (SourceLine.ofRaw 1 false false text).role = .splice a := by decide +kernel
    have hfind : table.find? a = some inner := by decide +kernel
    rw [htop]
    exact .splice hrole hfind (by simp) (hchild version) .nil
  obtain ⟨out, hok, hleft⟩ : ∃ out, (assemble .openGL .keep table ∅ [] text).result = .ok out ∧
      leftTargets .keep out.source = [b] :=
    ⟨_, assemble_of_expands (hexp _), by decide +kernel⟩
  refine ⟨out, hok, hleft, ?_⟩
  apply assemble_leaves_hidden_only hok
  rw [hleft]
  exact List.mem_singleton_self b

/-- **An assembly may leave an include directive.** Code that ends in a no-break space hides one,
and trimming uncovers it. -/
theorem assemble_leaves_include :
    let b := Text.ofString "b"
    let table := IncludeTable.ofList [(b, Text.ofString "x")]
    let text := Text.ofString "#include \"b\"\u00a0//"
    ∃ out, (assemble .openGL .discard table ∅ [] text).result = .ok out ∧
      leftTargets .discard out.source = [b] := by
  intro b table text
  have htop : topLines text = [.ofRaw 1 false false text] := by
    rw [topLines, show text.trimEnd = text by decide +kernel]
    exact sourceLines_of_lines_eq (by decide +kernel)
  have hexp (version : Text) : Expands table version [] (topLines text)
      (.keep (.ofRaw 1 false false text) .nil) := by
    rw [htop]
    exact .keep_of_role (by decide +kernel) (by decide +kernel) .nil
  exact ⟨_, assemble_of_expands (hexp _), by decide +kernel⟩

end ShaderSplice
