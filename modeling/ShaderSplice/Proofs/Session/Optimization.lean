import ShaderSplice.Proofs.IncludeGraph
import ShaderSplice.Proofs.Session.Calls
import ShaderSplice.Proofs.Session.Report

/-!
# Where an optimizer comes in

Sources are assembled one after the other with one registry. An optimizer sees the text of a source
only after that, and only if the version of the source allows it:

    assemblies:    out₁ ──registry──▶ out₂ ──registry──▶ out₃ …
                     │                  │                  │
    `Settles`:     artifact or        artifact or        artifact or
                   error              error              error

What becomes of a source is settled by its own assembly and the optimizer alone, so optimizing one
source does not touch the others. The first error ends it all. If there is none, each source has its
artifact, and the registry is the one that the assemblies leave without an optimizer.
-/

namespace ShaderSplice

/-- The artifact of a source. -/
def SourceEntry.artifact (source : SourceEntry) (version text : Text) (optimized : Bool) :
    Artifact :=
  { name := source.name, path := source.path, stage := source.stage, text, version, optimized }

namespace Session

variable {s : Session}

/-! ### What becomes of a source -/

/-- There is an optimizer, and it takes the version. -/
def Eligible (s : Session) (version : Text) : Prop :=
  s.optimizer ≠ none ∧ checkVersion s.language version s.allowUntested = .ok ()

/-- What becomes of a source with the given outcome of its assembly. -/
inductive Settles (s : Session) (source : SourceEntry) (out : ShaderSplice.Outcome) :
    Except BuildError Artifact → Prop
  | unassembled {f : Failure} :
      out.result = .error f → Settles s source out (.error (.processing source.name f))
  | unoptimized {a : Assembly} :
      out.result = .ok a → ¬ s.Eligible a.version →
      Settles s source out (.ok (source.artifact a.version a.source false))
  | optimized {a : Assembly} {f : Stage → Text → Except OptimizeError Text} {text : Text} :
      out.result = .ok a → s.Eligible a.version → s.optimizer = some (.ofFunction f) →
      f source.stage a.source = .ok text →
      Settles s source out (.ok (source.artifact a.version text true))
  | rejected {a : Assembly} {f : Stage → Text → Except OptimizeError Text} {e : OptimizeError} :
      out.result = .ok a → s.Eligible a.version → s.optimizer = some (.ofFunction f) →
      f source.stage a.source = .error e →
      Settles s source out (.error (.optimization source.name e))

/-- The sources with the outcomes of their assemblies. Each starts from the registry that the one
before it leaves, whether that one succeeds or not. -/
def assemblies (s : Session) (registry : Registry) :
    List SourceEntry → List (SourceEntry × ShaderSplice.Outcome)
  | [] => []
  | source :: sources =>
    let out := assemble s.language s.mode s.includes registry source.name source.text
    (source, out) :: s.assemblies out.registry sources

theorem optimize_of_not_eligible {a : Artifact} (h : ¬ s.Eligible a.version) (tree : FileTree) :
    (s.optimize tree a).result = .ok a := by
  rw [optimize]
  split
  · rfl
  · next o ho =>
    split
    · rfl
    · next hcheck => exact absurd ⟨by simp [ho], hcheck⟩ h

theorem optimize_of_eligible {a : Artifact} (h : s.Eligible a.version)
    {f : Stage → Text → Except OptimizeError Text} (hf : s.optimizer = some (.ofFunction f))
    (tree : FileTree) :
    (s.optimize tree a).result =
      match f a.stage a.text with
      | .error e => .error (.optimization a.name e)
      | .ok text => .ok { a with text, optimized := true } := by
  rw [optimize, hf]
  simp only [h.2, Optimizer.ofFunction]
  cases f a.stage a.text with
  | error e => rfl
  | ok text => rfl

section
variable {registry : Registry} {source : SourceEntry}

theorem processSource_of_error {f : Failure}
    (h : (assemble s.language s.mode s.includes registry source.name source.text).result =
      .error f) (tree : FileTree) :
    (s.processSource tree registry source).2.result = .error (.processing source.name f) := by
  simp only [processSource, h]

theorem processSource_of_ok {a : Assembly}
    (h : (assemble s.language s.mode s.includes registry source.name source.text).result = .ok a)
    (tree : FileTree) :
    (s.processSource tree registry source).2.result =
      (s.optimize tree (source.artifact a.version a.source false)).result := by
  simp only [processSource, h]
  rfl

/-- What settles a source is what processing it gives. -/
theorem Settles.processSource_eq {r : Except BuildError Artifact}
    (h : s.Settles source
      (assemble s.language s.mode s.includes registry source.name source.text) r)
    (tree : FileTree) : (s.processSource tree registry source).2.result = r := by
  cases h with
  | unassembled hout => exact processSource_of_error hout tree
  | unoptimized hout hnot => rw [processSource_of_ok hout, optimize_of_not_eligible hnot]
  | optimized hout heligible hf htext =>
    rw [processSource_of_ok hout, optimize_of_eligible heligible hf]
    simp only [SourceEntry.artifact, htext]
  | rejected hout heligible hf herror =>
    rw [processSource_of_ok hout, optimize_of_eligible heligible hf]
    simp only [SourceEntry.artifact, herror]

theorem IsFunctional.settles (hfun : s.IsFunctional) (tree : FileTree) (registry : Registry)
    (source : SourceEntry) :
    s.Settles source (assemble s.language s.mode s.includes registry source.name source.text)
      (s.processSource tree registry source).2.result := by
  cases hout : (assemble s.language s.mode s.includes registry source.name source.text).result with
  | error f =>
    rw [processSource_of_error hout]
    exact .unassembled hout
  | ok a =>
    by_cases heligible : s.Eligible a.version
    · -- only here the optimizer runs, and a function leaves no trace in the files
      obtain ⟨o, ho⟩ := Option.ne_none_iff_exists'.1 heligible.1
      obtain ⟨f, rfl⟩ := hfun o ho
      rw [processSource_of_ok hout, optimize_of_eligible heligible ho]
      cases htext : f source.stage a.source with
      | error e =>
        simp only [SourceEntry.artifact, htext]
        exact .rejected hout heligible ho htext
      | ok text =>
        simp only [SourceEntry.artifact, htext]
        exact .optimized hout heligible ho htext
    · rw [processSource_of_ok hout, optimize_of_not_eligible heligible]
      exact .unoptimized hout heligible

end

theorem map_fst_assemblies (registry : Registry) (sources : List SourceEntry) :
    (s.assemblies registry sources).map Prod.fst = sources := by
  induction sources generalizing registry with
  | nil => rfl
  | cons source sources ih => rw [assemblies, List.map_cons, ih]

theorem exists_assemble_of_mem_assemblies {registry : Registry} {sources : List SourceEntry}
    {p : SourceEntry × ShaderSplice.Outcome} (h : p ∈ s.assemblies registry sources) :
    ∃ before, p.2 = assemble s.language s.mode s.includes before p.1.name p.1.text := by
  induction sources generalizing registry with
  | nil => cases h
  | cons source sources ih =>
    rw [assemblies] at h
    rcases List.mem_cons.1 h with rfl | h
    · exact ⟨registry, rfl⟩
    · exact ih h

/-- A source is settled in one way only. -/
theorem Settles.unique {registry : Registry} {sources : List SourceEntry}
    {p : SourceEntry × ShaderSplice.Outcome} (hp : p ∈ s.assemblies registry sources)
    {r r' : Except BuildError Artifact} (h : s.Settles p.1 p.2 r) (h' : s.Settles p.1 p.2 r') :
    r = r' := by
  obtain ⟨before, hout⟩ := exists_assemble_of_mem_assemblies hp
  rw [hout] at h h'
  rw [← h.processSource_eq ∅, ← h'.processSource_eq ∅]

/-- A version that the optimizer does not take leaves the assembled text as it is. -/
theorem Settles.eq_of_unsupported {source : SourceEntry} {out : ShaderSplice.Outcome}
    {r : Except BuildError Artifact} (h : s.Settles source out r) {a : Assembly}
    (hout : out.result = .ok a) {e : UnsupportedVersion}
    (hcheck : checkVersion s.language a.version s.allowUntested = .error e) :
    r = .ok (source.artifact a.version a.source false) := by
  have hnot {a' : Assembly} (hout' : out.result = .ok a') : ¬ s.Eligible a'.version := by
    rw [hout] at hout'
    cases hout'
    intro heligible
    rw [heligible.2] at hcheck
    cases hcheck
  cases h with
  | unassembled hf =>
    rw [hout] at hf
    cases hf
  | unoptimized hout' _ =>
    rw [hout] at hout'
    cases hout'
    rfl
  | optimized hout' heligible => exact absurd heligible (hnot hout')
  | rejected hout' heligible => exact absurd heligible (hnot hout')

/-! ### What becomes of all sources -/

section
variable (hfun : s.IsFunctional)
include hfun

/-- Each source has its artifact. -/
theorem Runs.forall₂_settles {registry after : Registry} {sources : List SourceEntry}
    {artifacts : List Artifact} (h : s.Runs registry sources artifacts after) :
    List.Forall₂ (fun p a => s.Settles p.1 p.2 (.ok a)) (s.assemblies registry sources)
      artifacts := by
  induction h with
  | nil => exact .nil
  | @cons tree registry after source sources a artifacts hsource _ ih =>
    rw [registry_processSource] at ih
    refine .cons ?_ ih
    have hsettles := hfun.settles tree registry source
    rwa [hsource] at hsettles

/-- The first source that ends in an error ends the processing of all. -/
theorem processSources_eq_error_iff {tree : FileTree} {registry : Registry}
    {sources : List SourceEntry} {e : BuildError} :
    (s.processSources tree registry sources).result = .error e ↔
      ∃ before p after, s.assemblies registry sources = before ++ p :: after ∧
        (∀ q ∈ before, ∃ a, s.Settles q.1 q.2 (.ok a)) ∧ s.Settles p.1 p.2 (.error e) := by
  induction sources generalizing tree registry with
  | nil => simp [processSources, assemblies]
  | cons source sources ih =>
    have hsettles := hfun.settles tree registry source
    rw [assemblies, processSources]
    cases hsource : (s.processSource tree registry source).2.result with
    | error e' =>
      -- this is the first error, and nothing can stand before it
      rw [hsource] at hsettles
      simp only [hsource]
      constructor
      · rintro ⟨⟩
        exact ⟨[], _, _, rfl, by simp, hsettles⟩
      · rintro ⟨before, p, after, hsplit, hbefore, hp⟩
        rcases List.cons_eq_append_iff.1 hsplit with ⟨rfl, hcons⟩ | ⟨before, rfl, -⟩
        · cases hcons
          have hresult := hp.processSource_eq tree
          rw [hsource] at hresult
          cases hresult
          rfl
        · obtain ⟨a, ha⟩ := hbefore _ List.mem_cons_self
          rw [ha.processSource_eq tree] at hsource
          cases hsource
    | ok a =>
      -- the first error, if there is one, is that of the other sources
      rw [hsource] at hsettles
      have hmap {rest : Except BuildError Report} {g : Report → Report} :
          rest.map g = .error e ↔ rest = .error e := by
        cases rest <;> simp [Except.map]
      simp only [hsource, hmap, ih, registry_processSource]
      constructor
      · rintro ⟨before, p, after, hsplit, hbefore, hp⟩
        refine ⟨_ :: before, p, after, by rw [hsplit]; rfl, ?_, hp⟩
        exact List.forall_mem_cons.2 ⟨⟨a, hsettles⟩, hbefore⟩
      · rintro ⟨before, p, after, hsplit, hbefore, hp⟩
        rcases List.cons_eq_append_iff.1 hsplit with ⟨rfl, hcons⟩ | ⟨before, rfl, hrest⟩
        · cases hcons
          rw [hp.processSource_eq tree] at hsource
          cases hsource
        · exact ⟨before, p, after, hrest, (List.forall_mem_cons.1 hbefore).2, hp⟩

end

/-- Processing fails exactly if some source ends in an error. -/
theorem exists_processSources_eq_error_iff (hfun : s.IsFunctional) {tree : FileTree}
    {registry : Registry} {sources : List SourceEntry} :
    (∃ e, (s.processSources tree registry sources).result = .error e) ↔
      ∃ p ∈ s.assemblies registry sources, ∃ e, s.Settles p.1 p.2 (.error e) := by
  constructor
  · rintro ⟨e, he⟩
    obtain ⟨before, p, after, hsplit, -, hp⟩ := (processSources_eq_error_iff hfun).1 he
    exact ⟨p, by simp [hsplit], e, hp⟩
  · rintro ⟨p, hp, e, he⟩
    cases hresult : (s.processSources tree registry sources).result with
    | error e' => exact ⟨e', rfl⟩
    | ok report =>
      -- then the source has an artifact, and cannot end in an error as well
      have hartifacts := Runs.forall₂_settles hfun (runs_of_processSources hresult)
      have hsettles := hartifacts.imp fun p a ha =>
        (⟨⟨a, ha⟩, ha⟩ : (∃ a, s.Settles p.1 p.2 (.ok a)) ∧ s.Settles p.1 p.2 (.ok a))
      obtain ⟨a, ha⟩ := ((List.forall₂_and_left _ _).1 hsettles).1 p hp
      cases Settles.unique hp he ha

/-! ### The registry -/

theorem Runs.registry_eq {registry after : Registry} {sources : List SourceEntry}
    {artifacts : List Artifact} (h : s.Runs registry sources artifacts after) :
    after = registry.insertAll (sources.flatMap fun source =>
      (walkTop s.language s.includes source.name source.text).entered) := by
  induction h with
  | nil => rfl
  | cons _ _ ih =>
    rw [ih, registry_processSource, registry_assemble, List.flatMap_cons,
      Registry.insertAll_append]

theorem Runs.exists_walkTop_eq_ok {registry after : Registry} {sources : List SourceEntry}
    {artifacts : List Artifact} (h : s.Runs registry sources artifacts after) :
    ∀ source ∈ sources,
      ∃ body, (walkTop s.language s.includes source.name source.text).result = .ok body := by
  induction h with
  | nil => simp
  | cons hsource _ ih =>
    obtain ⟨assembly, hassembly, -⟩ := exists_assembly hsource
    obtain ⟨body, hbody, -⟩ := assemble_eq_ok_iff.1 hassembly
    exact List.forall_mem_cons.2 ⟨⟨body, hbody⟩, ih⟩

/-- Without an optimizer, sources that assemble are processed. -/
theorem exists_processSources_eq_ok (hoptimizer : s.optimizer = none) (tree : FileTree)
    (registry : Registry) {sources : List SourceEntry}
    (h : ∀ source ∈ sources,
      ∃ body, (walkTop s.language s.includes source.name source.text).result = .ok body) :
    ∃ report, (s.processSources tree registry sources).result = .ok report := by
  induction sources generalizing tree registry with
  | nil => exact ⟨_, rfl⟩
  | cons source sources ih =>
    obtain ⟨⟨body, hbody⟩, hrest⟩ := List.forall_mem_cons.1 h
    obtain ⟨a, hassembly⟩ : ∃ a,
        (assemble s.language s.mode s.includes registry source.name source.text).result = .ok a :=
      ⟨_, assemble_eq_ok_iff.2 ⟨body, hbody, rfl⟩⟩
    have hnot (version : Text) : ¬ s.Eligible version := fun heligible => heligible.1 hoptimizer
    have hsource := (Settles.unoptimized hassembly (hnot _)).processSource_eq tree
    obtain ⟨report, hreport⟩ := ih (s.processSource tree registry source).2.tree
      (s.processSource tree registry source).1 hrest
    rw [processSources]
    simp only [hsource, hreport]
    exact ⟨_, rfl⟩

theorem result_process (h : s.error = none) (tree : FileTree) :
    (s.process tree).result = (s.processSources tree ∅ s.sources).result := by
  rw [process, processAll, h]

/-! ### Calls that have to do with optimization -/

/-- The optimizer that a call sets, which may be none. -/
def Call.optimizer? : Call → Option (Option Optimizer)
  | .optimize o => some o
  | _ => none

/-- A session with another optimizer and another treatment of lines. -/
def withOptimization (s : Session) (o : Option Optimizer) (mode : LineMode) : Session :=
  { s with optimizer := o, mode }

section
variable {disk : Disk} {o : Option Optimizer} {mode : LineMode}

theorem addSourcesAt_withOptimization (stageOf : Text → Stage) (s : Session) (paths : List Text) :
    (s.withOptimization o mode).addSourcesAt disk stageOf paths =
      (s.addSourcesAt disk stageOf paths).withOptimization o mode := by
  induction paths generalizing s with
  | nil => rfl
  | cons path paths ih =>
    have hsame : (s.withOptimization o mode).hasSource (Path.base path) =
      s.hasSource (Path.base path) := rfl
    rw [addSourcesAt, addSourcesAt]
    cases disk.read path with
    | error e => rfl
    | ok text =>
      simp only [hsame]
      split
      · rfl
      · exact ih { s with sources := s.sources ++ [⟨Path.base path, path, stageOf path, text⟩] }

theorem addIncludesAt_withOptimization (s : Session) (paths : List Text) :
    ((s.withOptimization o mode).addIncludesAt disk paths).1 =
      (s.addIncludesAt disk paths).1.withOptimization o mode := by
  induction paths generalizing s with
  | nil => rfl
  | cons path paths ih =>
    rw [addIncludesAt, addIncludesAt]
    cases disk.read path with
    | error e => rfl
    | ok text => exact ih { s with includes := s.includes.insert (Path.base path) text }

theorem withMatches_withOptimization {add : Session → List Text → Session × List Record}
    (hadd : ∀ s paths, (add (s.withOptimization o mode) paths).1 =
      (add s paths).1.withOptimization o mode) (pattern : Text) :
    ((s.withOptimization o mode).withMatches disk pattern add).1 =
      (s.withMatches disk pattern add).1.withOptimization o mode := by
  have herror : (s.withOptimization o mode).error = s.error := rfl
  rw [withMatches, withMatches, herror]
  split
  · rfl
  · cases disk.glob pattern with
    | error e => rfl
    | ok paths => exact hadd s _

theorem addMatches_withOptimization (stageOf : Text → Stage) (pattern : Text) :
    ((s.withOptimization o mode).addMatches disk pattern stageOf).1 =
      (s.addMatches disk pattern stageOf).1.withOptimization o mode :=
  withMatches_withOptimization (addSourcesAt_withOptimization stageOf) pattern

/-- Whatever the optimizer and the treatment of lines are, a call does the same to the rest of a
session. -/
theorem exists_call_withOptimization (s : Session) (disk : Disk) (o : Option Optimizer)
    (mode : LineMode) (c : Call) :
    ∃ mode', (mode = .discard ∨ c.optimizer?.isSome → mode' = .discard) ∧
      ((s.withOptimization o mode).call disk c).1 =
        (s.call disk c).1.withOptimization (c.optimizer?.getD o) mode' := by
  have hsame {c : Call} (hc : c.optimizer? = none)
      (h : ((s.withOptimization o mode).call disk c).1 =
        (s.call disk c).1.withOptimization o mode) :
      ∃ mode', (mode = .discard ∨ c.optimizer?.isSome → mode' = .discard) ∧
        ((s.withOptimization o mode).call disk c).1 =
          (s.call disk c).1.withOptimization (c.optimizer?.getD o) mode' := by
    refine ⟨mode, ?_, ?_⟩
    · simp [hc]
    · rw [hc, h, Option.getD_none]
  cases c with
  | vertex pattern => exact hsame rfl (addMatches_withOptimization _ pattern)
  | fragment pattern => exact hsame rfl (addMatches_withOptimization _ pattern)
  | source pattern => exact hsame rfl (addMatches_withOptimization _ pattern)
  | includes pattern =>
    exact hsame rfl (withMatches_withOptimization addIncludesAt_withOptimization pattern)
  | addSource name stage text =>
    have hname : (s.withOptimization o mode).hasSource name = s.hasSource name := rfl
    refine hsame rfl ?_
    simp only [call, applyCall, hname]
    split
    · rfl
    · rfl
  | addInclude name text => exact hsame rfl rfl
  | optimize o' => exact ⟨.discard, fun _ => rfl, rfl⟩
  | discardLineInfo => exact ⟨.discard, fun _ => rfl, rfl⟩
  | allowUntested => exact hsame rfl rfl
  | package name => exact hsame rfl rfl
  | logger logger => exact hsame rfl rfl

theorem optimizer_call (s : Session) (disk : Disk) (c : Call) :
    (s.call disk c).1.optimizer = c.optimizer?.getD s.optimizer := by
  obtain ⟨mode', -, h⟩ := exists_call_withOptimization s disk s.optimizer s.mode c
  exact congrArg Session.optimizer h

theorem mode_call (s : Session) (disk : Disk) {c : Call}
    (h : s.mode = .discard ∨ c.optimizer?.isSome) : (s.call disk c).1.mode = .discard := by
  obtain ⟨mode', hmode', hcall⟩ := exists_call_withOptimization s disk s.optimizer s.mode c
  exact (congrArg Session.mode hcall).trans (hmode' h)

/-- The optimizer is the one that was set last. -/
theorem optimizer_after (s : Session) (disk : Disk) (cs : List Call) :
    (s.after disk cs).optimizer = (cs.reverse.findSome? Call.optimizer?).getD s.optimizer := by
  induction cs generalizing s with
  | nil => rfl
  | cons c cs ih =>
    rw [after_cons, ih, optimizer_call, List.reverse_cons, List.findSome?_append, Option.getD_or,
      List.findSome?_singleton]

/-- Lines are discarded from the call that sets an optimizer on. -/
theorem mode_after {cs : List Call}
    (h : s.mode = .discard ∨ ∃ c ∈ cs, c.optimizer?.isSome = true) :
    (s.after disk cs).mode = .discard := by
  induction cs generalizing s with
  | nil => simpa using h
  | cons c cs ih =>
    rw [after_cons]
    apply ih
    rcases h with h | ⟨c', hmem, hc'⟩
    · exact .inl (mode_call s disk (.inl h))
    · rcases List.mem_cons.1 hmem with rfl | hmem
      · exact .inl (mode_call s disk (.inr hc'))
      · exact .inr ⟨c', hmem, hc'⟩

/-- Calls that set an optimizer change nothing else. -/
theorem exists_after_eq_withOptimization (s : Session) (disk : Disk) (o : Option Optimizer)
    (mode : LineMode) (cs : List Call) :
    ∃ o' mode', (s.withOptimization o mode).after disk cs =
      (s.after disk (cs.filter (·.optimizer?.isNone))).withOptimization o' mode' := by
  induction cs generalizing s o mode with
  | nil => exact ⟨o, mode, rfl⟩
  | cons c cs ih =>
    cases hc : c.optimizer? with
    | none =>
      obtain ⟨mode', -, hcall⟩ := exists_call_withOptimization s disk o mode c
      rw [after_cons, hcall, List.filter_cons_of_pos (by simp [hc]), after_cons]
      exact ih _ _ _
    | some o' =>
      have hcall : ((s.withOptimization o mode).call disk c).1 =
          s.withOptimization o' .discard := by
        cases c <;> cases hc
        rfl
      rw [after_cons, hcall, List.filter_cons_of_neg (by simp [hc])]
      exact ih _ _ _

/-- Without the calls that set an optimizer, the session is the same without an optimizer. -/
theorem exists_after_filter (language : Language) (cs : List Call) :
    ∃ mode, (start language).after disk (cs.filter (·.optimizer?.isNone)) =
      ((start language).after disk cs).withOptimization none mode := by
  obtain ⟨o, mode, h⟩ := exists_after_eq_withOptimization (start language) disk none .keep cs
  have hnone :
      ((start language).after disk (cs.filter (·.optimizer?.isNone))).optimizer = none := by
    have hunset : (cs.filter (·.optimizer?.isNone)).reverse.findSome? Call.optimizer? = none := by
      simp [List.findSome?_eq_none_iff]
    rw [optimizer_after, hunset, Option.getD_none]
    rfl
  have hstart : (start language).withOptimization none .keep = start language := rfl
  rw [hstart] at h
  refine ⟨((start language).after disk (cs.filter (·.optimizer?.isNone))).mode, ?_⟩
  rw [h, ← hnone]
  rfl

end

/-- A report has the registry that it would have without an optimizer. -/
theorem exists_process_withOptimization {tree : FileTree} {report : Report}
    (h : (s.process tree).result = .ok report) (mode : LineMode) :
    ∃ report', ((s.withOptimization none mode).process tree).result = .ok report' ∧
      report'.registry = report.registry := by
  have herror : (s.withOptimization none mode).error = none := by
    cases he : s.error with
    | none => exact he
    | some e =>
      rw [process_of_error he] at h
      cases h
  have hruns := runs_of_process h
  obtain ⟨report', hreport'⟩ :=
    exists_processSources_eq_ok (s := s.withOptimization none mode) rfl tree ∅
      hruns.exists_walkTop_eq_ok
  refine ⟨report', (result_process herror tree).trans hreport', ?_⟩
  rw [hruns.registry_eq, (runs_of_processSources hreport').registry_eq]
  rfl

/-- **The optimizer sees finished texts, and only those it takes.** Take a session that its calls
built up without an error. Its optimizer is the one that was set last, if it was not taken away
again, and if one was set or taken away at any point, lines are discarded. Processing fails if and
only if some source does not assemble or is rejected by the optimizer, and then with the error of
the first such source; a version that the optimizer does not take is none. If processing succeeds,
there is one artifact for each source, with the optimized text where there is an optimizer that
takes the version, and with the assembled text otherwise. The registry is the one that the session
gives without an optimizer, in either treatment of lines; and that is the session of the other
calls. -/
theorem process_optimizes (disk : Disk) (language : Language) (cs : List Call) (tree : FileTree)
    (herror : ((start language).after disk cs).error = none)
    (hfun : ((start language).after disk cs).IsFunctional) :
    let s := (start language).after disk cs
    let outs := s.assemblies ∅ s.sources
    s.optimizer = (cs.reverse.findSome? Call.optimizer?).getD none ∧
    ((∃ o, Call.optimize o ∈ cs) → s.mode = .discard) ∧
    outs.map Prod.fst = s.sources ∧
    (∀ e, (s.process tree).result = .error e ↔
      ∃ before p after, outs = before ++ p :: after ∧
        (∀ q ∈ before, ∃ a, s.Settles q.1 q.2 (.ok a)) ∧ s.Settles p.1 p.2 (.error e)) ∧
    ((∃ e, (s.process tree).result = .error e) ↔ ∃ p ∈ outs, ∃ e, s.Settles p.1 p.2 (.error e)) ∧
    (∀ p ∈ outs, ∀ a v r, p.2.result = .ok a →
      checkVersion s.language a.version s.allowUntested = .error v → s.Settles p.1 p.2 r →
      r = .ok (p.1.artifact a.version a.source false)) ∧
    (∀ report, (s.process tree).result = .ok report →
      List.Forall₂ (fun p a => s.Settles p.1 p.2 (.ok a)) outs report.artifacts ∧
      ∀ mode, ∃ report', ((s.withOptimization none mode).process tree).result = .ok report' ∧
        report'.registry = report.registry) ∧
    ∃ mode, (start language).after disk (cs.filter (·.optimizer?.isNone)) =
      s.withOptimization none mode := by
  intro s outs
  have hprocess : (s.process tree).result = (s.processSources tree ∅ s.sources).result :=
    result_process herror tree
  refine ⟨?_, ?_, map_fst_assemblies ∅ s.sources, ?_, ?_, ?_, ?_, exists_after_filter language cs⟩
  · exact optimizer_after _ disk cs
  · rintro ⟨o, ho⟩
    exact mode_after (.inr ⟨_, ho, rfl⟩)
  · intro e
    rw [hprocess]
    exact processSources_eq_error_iff hfun
  · rw [hprocess]
    exact exists_processSources_eq_error_iff hfun
  · intro p _ a v r hout hcheck hr
    exact hr.eq_of_unsupported hout hcheck
  · intro report h
    exact ⟨Runs.forall₂_settles hfun (runs_of_process h), exists_process_withOptimization h⟩

/-- Of two sources the first has a version that the optimizer does not take, and is let through; the
second is rejected. -/
theorem process_optimizes_rejected :
    let a := Text.ofString "a"
    let b := Text.ofString "b"
    let rejects : Optimizer := .ofFunction fun _ _ => .error (.failed [])
    let cs := [Call.optimize (some rejects), .addSource a .vertex (Text.ofString "#version 450"),
      .addSource b .fragment (Text.ofString "x")]
    let s := (start .openGL).after (∅ : FileTree).disk cs
    s.mode = .discard ∧ (s.process ∅).result = .error (.optimization b (.failed [])) := by
  intro a b rejects cs s
  have hfun : s.IsFunctional := by
    rintro o ⟨⟩
    exact ⟨_, rfl⟩
  have hassemble (text version : Text) (htargets : activeTargets text.trimEnd = [])
      (hversion : treeVersion .openGL (topLines text) = version) (registry : Registry)
      (name : Text) :
      ∃ out, (assemble .openGL .discard ∅ registry name text).result = .ok out ∧
        out.version = version := by
    obtain ⟨out, hout⟩ : ∃ out, (assemble .openGL .discard ∅ registry name text).result = .ok out :=
      exists_assemble_of_leaves (by simp [htargets])
    obtain ⟨body, -, hbody⟩ := assemble_eq_ok_iff.1 hout
    exact ⟨out, hout, by rw [hbody, hversion]⟩
  obtain ⟨-, hmode, -, hfirst, -⟩ := process_optimizes (∅ : FileTree).disk .openGL cs ∅ rfl hfun
  refine ⟨hmode ⟨some rejects, List.mem_cons_self⟩, (hfirst _).2 ⟨[_], _, [], rfl, ?_, ?_⟩⟩
  · obtain ⟨out, hout, hversion⟩ :=
      hassemble (Text.ofString "#version 450") (Text.ofString "450") (by decide +kernel)
        (by decide +kernel) ∅ a
    rw [List.forall_mem_singleton]
    refine ⟨_, .unoptimized hout ?_⟩
    rintro ⟨-, hcheck⟩
    rw [hversion] at hcheck
    revert hcheck
    decide +kernel
  · obtain ⟨out, hout, hversion⟩ :=
      hassemble (Text.ofString "x") (Text.ofString "110") (by decide +kernel)
        (by decide +kernel) _ b
    refine .rejected hout ⟨Option.some_ne_none _, ?_⟩ rfl rfl
    rw [hversion]
    decide +kernel

end Session
end ShaderSplice
