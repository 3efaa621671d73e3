import ShaderSplice.Proofs.Provenance

/-!
# The markers of an assembly and their ids

In both modes a marker stands for the file that is expanded at its site, and every file that is
expanded is opened by one:

    expandedAt … site = (file, content)    ⟸    ⟨site, marker number file⟩ in the layout
                                           ⟹    for some number

The ids in the markers are those of the registry after the assembly, and of every later one: names
only join. An id is zero, or at most the number of names.
-/

namespace ShaderSplice

/-! ### Markers and sites -/

section
variable {language : Language} {mode : LineMode} {table : IncludeTable} {registry : Registry}
  {name text : Text} {a : Assembly}

/-- A line that is a marker stands for the file that is expanded at its site. -/
def PlacedLine.MarksFile (table : IncludeTable) (top : Text) (p : PlacedLine) : Prop :=
  ∀ number file, p.line = .marker number file →
    ∃ content, expandedAt table .top top p.site = some (file, content)

theorem PlacedLine.MarksFile.of_trimEnd? {top : Text} {p q : PlacedLine}
    (hq : p.trimEnd? = some q) (h : p.MarksFile table top) : q.MarksFile table top := by
  rcases p.trimEnd?_eq_some hq with ⟨rfl, -⟩ | ⟨_, _, _, -, -, rfl⟩
  · exact h
  · intro number file hline
    cases hline

theorem SourceLine.marker_not_mem_output (l : SourceLine) (mode : LineMode) (file : FileRef)
    (number : Nat) (file' : FileRef) : .marker number file' ∉ l.output mode file := by
  intro h
  cases mode with
  | keep =>
    rcases l.output_keep_cases file with ⟨he, -⟩ | ⟨he, -⟩ | ⟨he, -⟩
    · simp [he] at h
    · simp [he] at h
    · simp [he] at h
  | discard => cases (eq_of_mem_output_discard h).1

theorem writesAll_marksFile {top : Text} {site : List Nat} {file : FileRef} {content : Text}
    (hsite : expandedAt table .top top site = some (file, content)) :
    WritesAll (PlacedLine.MarksFile table top) mode site file content := by
  constructor
  · intro number number' file' hline
    cases hline
    exact ⟨content, hsite⟩
  · intro closes opens number' file' hline
    cases hline
  · intro l _ _ o ho number' file' hline
    dsimp only at hline
    subst hline
    exact absurd ho (l.marker_not_mem_output mode file number' file')

theorem marksFile_layout (h : (assemble language mode table registry name text).result = .ok a) :
    ∀ p ∈ layout language mode table name text, p.MarksFile table text.trimEnd := by
  obtain ⟨body, hexp, hlayout, -, -⟩ := exists_expands_of_assemble h
  rw [hlayout]
  refine hexp.forall_mem_layout (fun p q hq hp => hp.of_trimEnd? hq)
    (fun site file content => writesAll_marksFile) ?_
  intro number file hline
  cases hline

/-- A line that trimming does not touch stays in the frame. -/
theorem mem_placedFrame {site : List Nat} {file : FileRef} {ls : List SourceLine}
    {inner : List PlacedLine} {p : PlacedLine} (htrim : p.trimEnd? = some p) (hp : p ∈ inner) :
    p ∈ placedFrame mode site file ls inner := by
  obtain ⟨before, after, rfl⟩ := List.append_of_mem hp
  rw [placedFrame, List.append_assoc, List.cons_append, trimPlaced_append_cons htrim]
  simp

/-- What is written for an include directive is among the lines of the body. -/
theorem Expands.exists_placedFrame {version : Text} {path : List Text} {ls : List SourceLine}
    {body : Body} (h : Expands table version path ls body) (mode : LineMode) (site : List Nat)
    (file : FileRef) {l : SourceLine} (hl : l ∈ ls) {target content : Text}
    (hrole : l.role = .splice target) (hfind : table.find? target = some content) :
    ∃ path' child, Expands table version path' (sourceLines content) child ∧
      ∀ p ∈ placedFrame mode (site ++ [l.number]) (.included target) child.lines
        (child.placed mode (site ++ [l.number]) (.included target)),
        p ∈ body.placed mode site file := by
  induction h with
  | nil => cases hl
  | @keep path l' rest body htarget _ _ ih =>
    have hne : l ≠ l' := by
      rintro rfl
      rw [SourceLine.target?, hrole] at htarget
      cases htarget
    obtain ⟨path', child, hchild, hmem⟩ := ih ((List.mem_cons.1 hl).resolve_left hne)
    refine ⟨path', child, hchild, fun p hp => ?_⟩
    rw [Body.placed]
    exact List.mem_append_right _ (hmem p hp)
  | @splice path l' rest target' text child body hrole' hfind' _ hchild _ _ ih =>
    rcases List.mem_cons.1 hl with rfl | hl
    · rw [hrole] at hrole'
      cases hrole'
      rw [hfind] at hfind'
      cases hfind'
      refine ⟨_, child, hchild, fun p hp => ?_⟩
      simp only [Body.placed, List.mem_append]
      exact .inl (.inl (.inr hp))
    · obtain ⟨path', child', hchild', hmem⟩ := ih hl
      refine ⟨path', child', hchild', fun p hp => ?_⟩
      rw [Body.placed]
      exact List.mem_append_right _ (hmem p hp)

/-- The frame of a file has a marker for every file that is expanded below it. -/
theorem Expands.exists_marker {version : Text} {path : List Text} {content : Text} {body : Body}
    (h : Expands table version path (sourceLines content) body) (mode : LineMode) (site : List Nat)
    (file : FileRef) {site' : List Nat} {file' : FileRef} {content' : Text}
    (hat : expandedAt table file content site' = some (file', content')) :
    ∃ number, ⟨site ++ site', .marker number file'⟩ ∈
      placedFrame mode site file body.lines (body.placed mode site file) := by
  induction site' generalizing path content body site file with
  | nil =>
    cases hat
    rw [List.append_nil]
    exact ⟨_, List.mem_cons_self⟩
  | cons n site' ih =>
    rw [expandedAt] at hat
    obtain ⟨target, hdirective, hbelow⟩ := Option.bind_eq_some_iff.1 hat
    obtain ⟨text, hfind, hchildAt⟩ := Option.bind_eq_some_iff.1 hbelow
    obtain ⟨l, hl, rfl, hrole⟩ := exists_line_of_directiveAt? hdirective
    obtain ⟨path', child, hchild, hmem⟩ := h.exists_placedFrame mode site file hl hrole hfind
    obtain ⟨number, hmarker⟩ := ih hchild (site ++ [l.number]) (.included target) hchildAt
    rw [List.append_assoc] at hmarker
    exact ⟨number, mem_placedFrame rfl (hmem _ hmarker)⟩

/-- A file that is expanded is opened by a marker. -/
theorem exists_marker_of_expandedAt
    (h : (assemble language mode table registry name text).result = .ok a) {site : List Nat}
    {file : FileRef} {content : Text}
    (hat : expandedAt table .top text.trimEnd site = some (file, content)) :
    ∃ number, ⟨site, .marker number file⟩ ∈ layout language mode table name text := by
  obtain ⟨body, hexp, hlayout, -, -⟩ := exists_expands_of_assemble h
  obtain ⟨number, hmarker⟩ := Expands.exists_marker hexp mode [] .top hat
  rw [hlayout, Body.layout]
  exact ⟨number, List.mem_cons_of_mem _ hmarker⟩

/-! ### Ids that last -/

/-- A line has the same text with other ids, if they agree on the file that it is a marker for. -/
theorem PlacedLine.text_congr {p : PlacedLine} {idOf idOf' : FileRef → FileId}
    (h : ∀ number file, p.line = .marker number file → idOf file = idOf' file) :
    p.text idOf = p.text idOf' := by
  obtain ⟨site, line⟩ := p
  cases line with
  | version v => rfl
  | marker number file => rw [text, text, OutputLine.render, OutputLine.render, h number file rfl]
  | copy file number t => rfl
  | seam closes opens => rfl

/-- The lines of the assembled text show the ids of every registry that comes later. -/
theorem lines_source_of_isPrefix
    (h : (assemble language mode table registry name text).result = .ok a) {later : Registry}
    (hlater : (assemble language mode table registry name text).registry.names <+: later.names) :
    a.source.splitOn Text.newline =
        (layout language mode table name text).map (PlacedLine.text later.idOf) ∧
      ∀ p ∈ layout language mode table name text, ∀ number file, p.line = .marker number file →
        later.HasId file (later.idOf file) := by
  have hid {p : PlacedLine} (hp : p ∈ layout language mode table name text) {number : Nat}
      {file : FileRef} (hline : p.line = .marker number file) :
      later.HasId file
        ((assemble language mode table registry name text).registry.idOf file) := by
    obtain ⟨content, hsite⟩ := marksFile_layout h p hp number file hline
    exact (hasId_of_expandedAt h hsite).of_isPrefix hlater
  constructor
  · rw [(lines_source h).1]
    apply List.map_congr_left
    intro p hp
    exact PlacedLine.text_congr fun number file hline => (hid hp hline).idOf_eq.symm
  · intro p hp number file hline
    rw [(hid hp hline).idOf_eq]
    exact hid hp hline

end

/-- An id is zero, or at most the number of names. -/
theorem Registry.HasId.zero_or_le {r : Registry} {file : FileRef} {id : FileId}
    (h : r.HasId file id) : id = 0 ∨ 1 ≤ id.toNat ∧ id.toNat ≤ r.size := by
  cases h with
  | top => exact .inl rfl
  | included hfind =>
    obtain ⟨i, hi, rfl⟩ := Option.map_eq_some_iff.1 hfind
    obtain ⟨hlt, -, -⟩ := List.idxOf?_eq_some_iff.1 hi
    by_cases hzero : UInt32.ofNat (i + 1) = 0
    · exact .inl hzero
    · have hne : (UInt32.ofNat (i + 1)).toNat ≠ 0 := fun hnat => hzero (UInt32.toNat_inj.1 hnat)
      have hle : (UInt32.ofNat (i + 1)).toNat ≤ i + 1 := by
        rw [UInt32.toNat_ofNat']
        exact Nat.mod_le _ _
      rw [Registry.size]
      omega

end ShaderSplice
