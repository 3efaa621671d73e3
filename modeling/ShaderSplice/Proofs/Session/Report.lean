import Mathlib.Data.List.Forall2
import ShaderSplice.Session.Report
import ShaderSplice.Proofs.Registry
import ShaderSplice.Proofs.Relevance

/-!
# What processing a session gives

Processing goes through the sources one after the other, with a registry that only grows. Each
artifact of a report comes from one source, assembled with some registry whose names all are in the
registry of the report (`Session.Makes`).

An optimizer may be a program that changes files. Where it is a function of the stage and the text
(`Session.IsFunctional`), processing leaves the files alone and does not depend on them.

Of the session it depends on little besides the sources: how they are assembled and optimized, and
which text an include name stands for (`Session.Alike`).
-/

namespace ShaderSplice
namespace Session

variable {s : Session}

/-! ### Optimizers that are functions -/

/-- A session without an optimizer, or with one that has nothing to do with files. -/
def IsFunctional (s : Session) : Prop := ∀ o, s.optimizer = some o → o.IsFunction

theorem isFunctional_of_none (h : s.optimizer = none) : s.IsFunctional := by
  intro o ho
  rw [h] at ho
  cases ho

section
variable (h : s.IsFunctional)
include h

theorem IsFunctional.optimize (tree tree' : FileTree) (a : Artifact) :
    s.optimize tree' a = { s.optimize tree a with tree := tree' } := by
  unfold Session.optimize
  cases ho : s.optimizer with
  | none => rfl
  | some o =>
    obtain ⟨f, rfl⟩ := h o ho
    cases checkVersion s.language a.version s.allowUntested with
    | error e => rfl
    | ok _ =>
      simp only [Optimizer.ofFunction]
      cases f a.stage a.text with
      | error e => rfl
      | ok text => rfl

theorem IsFunctional.processSource (tree tree' : FileTree) (registry : Registry)
    (source : SourceEntry) :
    s.processSource tree' registry source =
      ((s.processSource tree registry source).1,
        { (s.processSource tree registry source).2 with tree := tree' }) := by
  unfold Session.processSource
  cases hresult : (assemble s.language s.mode s.includes registry source.name
      source.text).result with
  | error f => simp only [hresult]
  | ok a => simp only [hresult, h.optimize tree tree']

theorem IsFunctional.processSources (tree tree' : FileTree) (registry : Registry)
    (sources : List SourceEntry) :
    s.processSources tree' registry sources =
      { s.processSources tree registry sources with tree := tree' } := by
  induction sources generalizing tree tree' registry with
  | nil => rfl
  | cons source sources ih =>
    unfold Session.processSources
    simp only [h.processSource tree tree']
    cases (s.processSource tree registry source).2.result with
    | error e => rfl
    | ok artifact => simp only [ih (s.processSource tree registry source).2.tree tree']

/-- Processing gives the same whatever the files are, and leaves them as they are. -/
theorem IsFunctional.process (tree tree' : FileTree) :
    s.process tree' = { s.process tree with tree := tree' } := by
  unfold Session.process Session.processAll
  cases s.error with
  | some e => rfl
  | none => simp only [h.processSources tree tree']

theorem IsFunctional.tree_process (tree : FileTree) : (s.process tree).tree = tree := by
  rw [h.process tree tree]

theorem IsFunctional.result_process (tree tree' : FileTree) :
    (s.process tree').result = (s.process tree).result := by
  rw [h.process tree tree']

end

/-! ### Sessions that process alike -/

/-- Processing does not tell `s` from `s'`: the sources are assembled and optimized in the same way,
and a name stands for the same text. -/
structure Alike (s s' : Session) : Prop where
  language : s'.language = s.language
  mode : s'.mode = s.mode
  optimizer : s'.optimizer = s.optimizer
  allowUntested : s'.allowUntested = s.allowUntested
  includes : ∀ name, s'.includes.find? name = s.includes.find? name

theorem Alike.processSources {s' : Session} (h : s.Alike s') (tree : FileTree)
    (registry : Registry) (sources : List SourceEntry) :
    s'.processSources tree registry sources = s.processSources tree registry sources := by
  have hassemble (registry : Registry) (source : SourceEntry) :
      assemble s'.language s'.mode s'.includes registry source.name source.text =
        assemble s.language s.mode s.includes registry source.name source.text := by
    rw [h.language, h.mode]
    exact AgreeFrom.assemble_eq (fun n _ => h.includes n) s.language s.mode registry
  have hoptimize (tree : FileTree) (a : Artifact) : s'.optimize tree a = s.optimize tree a := by
    simp only [Session.optimize, h.optimizer, h.language, h.allowUntested]
  induction sources generalizing tree registry with
  | nil => rfl
  | cons source sources ih =>
    have hsource :
        s'.processSource tree registry source = s.processSource tree registry source := by
      simp only [processSource, hassemble, hoptimize]
    simp only [Session.processSources, hsource, ih]

/-! ### Artifacts and their sources -/

theorem name_of_optimize {tree : FileTree} {a b : Artifact}
    (h : (s.optimize tree a).result = .ok b) : b.name = a.name := by
  unfold optimize at h
  split at h
  · cases h
    rfl
  · split at h
    · cases h
      rfl
    · split at h
      · cases h
      · cases h
        rfl

theorem registry_processSource (tree : FileTree) (registry : Registry) (source : SourceEntry) :
    (s.processSource tree registry source).1 =
      (assemble s.language s.mode s.includes registry source.name source.text).registry := by
  rw [processSource]
  split
  · rfl
  · rfl

theorem name_of_processSource {tree : FileTree} {registry : Registry} {source : SourceEntry}
    {a : Artifact} (h : (s.processSource tree registry source).2.result = .ok a) :
    a.name = source.name := by
  rw [processSource] at h
  split at h
  · cases h
  · exact name_of_optimize h

/-- An artifact is made of an assembly, and is the assembly if there is no optimizer. -/
theorem exists_assembly {tree : FileTree} {registry : Registry} {source : SourceEntry}
    {a : Artifact} (h : (s.processSource tree registry source).2.result = .ok a) :
    ∃ assembly,
      (assemble s.language s.mode s.includes registry source.name source.text).result =
        .ok assembly ∧
      (s.optimizer = none → a.text = assembly.source) := by
  rw [processSource] at h
  split at h
  · cases h
  · next assembly hassembly =>
    refine ⟨assembly, hassembly, ?_⟩
    intro hoptimizer
    simp only [optimize, hoptimizer] at h
    cases h
    rfl

/-- Sources are processed one after the other: the registry before, the artifacts, and the registry
after. -/
inductive Runs (s : Session) : Registry → List SourceEntry → List Artifact → Registry → Prop
  | nil {registry : Registry} : Runs s registry [] [] registry
  | cons {tree : FileTree} {registry after : Registry} {source : SourceEntry}
      {sources : List SourceEntry} {a : Artifact} {artifacts : List Artifact} :
      (s.processSource tree registry source).2.result = .ok a →
      Runs s (s.processSource tree registry source).1 sources artifacts after →
      Runs s registry (source :: sources) (a :: artifacts) after

theorem runs_of_processSources {tree : FileTree} {registry : Registry}
    {sources : List SourceEntry} {report : Report}
    (h : (s.processSources tree registry sources).result = .ok report) :
    s.Runs registry sources report.artifacts report.registry := by
  induction sources generalizing tree registry report with
  | nil =>
    cases h
    exact .nil
  | cons source sources ih =>
    rw [processSources] at h
    cases hsource : (s.processSource tree registry source).2.result with
    | error e =>
      simp only [hsource] at h
      cases h
    | ok a =>
      simp only [hsource] at h
      cases hrest : (s.processSources (s.processSource tree registry source).2.tree
          (s.processSource tree registry source).1 sources).result with
      | error e =>
        rw [hrest] at h
        cases h
      | ok rest =>
        rw [hrest] at h
        cases h
        exact .cons hsource (ih hrest)

theorem Runs.isPrefix {registry after : Registry} {sources : List SourceEntry}
    {artifacts : List Artifact} (h : s.Runs registry sources artifacts after) :
    registry.names <+: after.names := by
  induction h with
  | nil => exact List.prefix_rfl
  | cons _ _ ih =>
    rw [registry_processSource] at ih
    exact (Registry.isPrefix_insertAll _ _).trans ih

/-- An artifact that a source gives, at a moment whose registry grows to `final`. -/
def Makes (s : Session) (final : Registry) (source : SourceEntry) (a : Artifact) : Prop :=
  ∃ tree registry, (s.processSource tree registry source).2.result = .ok a ∧
    (s.processSource tree registry source).1.names <+: final.names

theorem Runs.makes {registry after : Registry} {sources : List SourceEntry}
    {artifacts : List Artifact} (h : s.Runs registry sources artifacts after) :
    List.Forall₂ (s.Makes after) sources artifacts := by
  induction h with
  | nil => exact .nil
  | cons hsource hrest ih => exact .cons ⟨_, _, hsource, hrest.isPrefix⟩ ih

theorem runs_of_process {tree : FileTree} {report : Report}
    (h : (s.process tree).result = .ok report) :
    s.Runs ∅ s.sources report.artifacts report.registry := by
  rw [process, processAll] at h
  split at h
  · cases h
  · exact runs_of_processSources h

theorem name_of_makes {final : Registry} {source : SourceEntry} {a : Artifact}
    (h : s.Makes final source a) : a.name = source.name := by
  obtain ⟨tree, registry, hresult, -⟩ := h
  exact name_of_processSource hresult

theorem map_name_artifacts {tree : FileTree} {report : Report}
    (h : (s.process tree).result = .ok report) :
    report.artifacts.map Artifact.name = s.sources.map SourceEntry.name := by
  have hmakes := (runs_of_process h).makes
  generalize s.sources = sources, report.artifacts = artifacts at hmakes ⊢
  induction hmakes with
  | nil => rfl
  | cons hmakes _ ih => rw [List.map_cons, List.map_cons, name_of_makes hmakes, ih]

/-- Where names are distinct, an artifact is found by its name. -/
theorem artifact?_eq_some {report : Report} (h : (report.artifacts.map Artifact.name).Nodup)
    {a : Artifact} (ha : a ∈ report.artifacts) : report.artifact? a.name = some a := by
  rw [Report.artifact?]
  generalize report.artifacts = artifacts at h ha ⊢
  induction artifacts with
  | nil => cases ha
  | cons b artifacts ih =>
    rw [List.map_cons, List.nodup_cons] at h
    rcases List.mem_cons.1 ha with rfl | ha
    · simp
    · have hne : b.name ≠ a.name := fun heq => h.1 (heq ▸ List.mem_map_of_mem ha)
      rw [List.find?_cons_of_neg (by simpa using hne)]
      exact ih h.2 ha

theorem emit_eq_ok {tree : FileTree} {report : Report} (h : (s.process tree).result = .ok report)
    (hnodup : (s.sources.map SourceEntry.name).Nodup) {a : Artifact} (ha : a ∈ report.artifacts) :
    (s.emit tree a.name).result = .ok a.text := by
  rw [← map_name_artifacts h] at hnodup
  rw [emit, Outcome.andThen, h]
  simp [Except.bind, artifact?_eq_some hnodup ha]

/-! ### What keeps processing from its end -/

/-- An error of the sources themselves, and of no file that is written. -/
inductive IsProcessing : BuildError → Prop
  | discovery {e : DiscoveryError} : IsProcessing (.discovery e)
  | processing {source : Text} {f : Failure} : IsProcessing (.processing source f)
  | optimization {source : Text} {e : OptimizeError} : IsProcessing (.optimization source e)

theorem processSource_eq_error {tree : FileTree} {registry : Registry} {source : SourceEntry}
    {e : BuildError} (h : (s.processSource tree registry source).2.result = .error e) :
    IsProcessing e := by
  rw [processSource] at h
  split at h
  · cases h
    exact .processing
  · unfold optimize at h
    split at h
    · cases h
    · split at h
      · cases h
      · split at h
        · cases h
          exact .optimization
        · cases h

theorem processSources_eq_error {tree : FileTree} {registry : Registry}
    {sources : List SourceEntry} {e : BuildError}
    (h : (s.processSources tree registry sources).result = .error e) : IsProcessing e := by
  induction sources generalizing tree registry with
  | nil => cases h
  | cons source sources ih =>
    rw [processSources] at h
    cases hsource : (s.processSource tree registry source).2.result with
    | error e' =>
      simp only [hsource] at h
      cases h
      exact processSource_eq_error hsource
    | ok a =>
      simp only [hsource] at h
      cases hrest : (s.processSources (s.processSource tree registry source).2.tree
          (s.processSource tree registry source).1 sources).result with
      | error e' =>
        rw [hrest] at h
        cases h
        exact ih hrest
      | ok rest =>
        rw [hrest] at h
        cases h

theorem process_eq_error {tree : FileTree} {e : BuildError}
    (h : (s.process tree).result = .error e) : IsProcessing e := by
  rw [process, processAll] at h
  split at h
  · cases h
    exact .discovery
  · exact processSources_eq_error h

/-! ### A session of one source -/

/-- What a session of one source and without an optimizer gives, where the lines of the source
expand. -/
theorem process_singleton {source : SourceEntry} {body : Body} (herror : s.error = none)
    (hoptimizer : s.optimizer = none) (hsources : s.sources = [source])
    (h : Expands s.includes (treeVersion s.language (topLines source.text)) []
      (topLines source.text) body) (tree : FileTree) :
    (s.process tree).result =
      .ok ⟨[{ name := source.name
              path := source.path
              stage := source.stage
              version := treeVersion s.language (topLines source.text)
              text := render ((∅ : Registry).insertAll body.spliced).idOf
                (body.assembly s.mode (treeVersion s.language (topLines source.text)))
              optimized := false }],
        (∅ : Registry).insertAll body.spliced⟩ := by
  have hregistry := registry_processSource (s := s) tree ∅ source
  rw [registry_assemble, walkTop, h.entered_eq] at hregistry
  rw [process, processAll, herror, hsources]
  simp only [processSources]
  rw [hregistry, processSource]
  simp only [assemble_of_expands h, optimize, hoptimizer]
  rfl

end Session
end ShaderSplice
