import Mathlib.Data.List.Nodup
import ShaderSplice.Proofs.FileTree
import ShaderSplice.Proofs.Session.Calls
import ShaderSplice.Proofs.Session.Report

/-!
# What a build leaves in the files

A build can end in four ways (`Session.Ends`): what it was told to process is rejected, the system
refuses to make or write something, the lookup file has no valid package, or everything is written.
What the files are like afterwards follows from the way in which it ends.

    process ──▶ directories ──▶ artifacts ──▶ lookup file
       │                            │
       └ rejected: files as         └ invalid package: found only here,
         processing left them         with the artifacts already written

All that is written goes into one directory, under names that sources choose. Two outputs may
therefore have the same path, and the later one is what stays. Which paths lead to the same file is
decided by `FileTree.location`, which knows of no links, keeps names in their case, and lets no path
that climbs out of the working directory come back in.
-/

namespace ShaderSplice

/-- What is written for an artifact: a path in the directory `dir`, and a text. -/
def Artifact.output (dir : Text) (a : Artifact) : Text × Text := (Path.join dir a.name, a.text)

/-- All that a build writes into the directory `dir`, in its order. -/
def Report.outputs (r : Report) (dir lookup : Text) : List (Text × Text) :=
  r.artifacts.map (·.output dir) ++ [(Path.join dir lookupFile, lookup)]

/-- Whether an error is one of the system that makes directories and writes files. -/
def BuildError.isSystem : BuildError → Bool
  | .creating _ | .writing _ _ => true
  | _ => false

/-! ### Writing a report -/

theorem writeArtifacts_eq_ok {dir : Text} {tree : FileTree} {artifacts : List Artifact}
    (h : (writeArtifacts dir tree artifacts).2.2 = .ok ()) :
    tree.Writes (artifacts.map (·.output dir)) (writeArtifacts dir tree artifacts).1 := by
  induction artifacts generalizing tree with
  | nil => exact .nil
  | cons a artifacts ih =>
    rw [writeArtifacts] at h ⊢
    cases hwrite : tree.write (Path.join dir a.name) a.text with
    | error e =>
      simp only [hwrite] at h
      cases h
    | ok tree' =>
      simp only [hwrite] at h ⊢
      exact .cons hwrite (ih h)

theorem writeArtifacts_eq_error {dir : Text} {tree : FileTree} {artifacts : List Artifact}
    {e : BuildError} (h : (writeArtifacts dir tree artifacts).2.2 = .error e) :
    e.isSystem = true := by
  induction artifacts generalizing tree with
  | nil => cases h
  | cons a artifacts ih =>
    rw [writeArtifacts] at h
    cases hwrite : tree.write (Path.join dir a.name) a.text with
    | error e' =>
      simp only [hwrite] at h
      cases h
      rfl
    | ok tree' =>
      simp only [hwrite] at h
      exact ih h

theorem ne_nil_of_makeAll {t : FileTree} {dir : Text} (h : (t.makeAll dir).2 = .ok ()) :
    dir ≠ [] := by
  rintro rfl
  rw [FileTree.makeAll] at h
  cases h

namespace Session

/-- How a build in the directory `dir` ends: the files afterwards, and what comes out. -/
inductive Ends (s : Session) (tree : FileTree) (dir : Text) :
    FileTree → Except BuildError Report → Prop
  /-- The session does not come to a report. -/
  | rejected {e : BuildError} :
      (s.process tree).result = .error e → Ends s tree dir (s.process tree).tree (.error e)
  /-- The system refuses something. -/
  | refused {report : Report} {after : FileTree} {e : BuildError} :
      (s.process tree).result = .ok report → e.isSystem = true → Ends s tree dir after (.error e)
  /-- The lookup file has no package, and all artifacts have been written by then. -/
  | unnamed {report : Report} {made after : FileTree} :
      (s.process tree).result = .ok report → isPackageName s.package = false → dir ≠ [] →
      (s.process tree).tree.OnlyDirectories made →
      made.Writes (report.artifacts.map (·.output dir)) after →
      Ends s tree dir after (.error (.lookup ⟨s.package⟩))
  /-- Everything is written. -/
  | done {report : Report} {made after : FileTree} {lookup : Text} :
      (s.process tree).result = .ok report →
      generateLookup s.package report.registry.names = .ok lookup → dir ≠ [] →
      (s.process tree).tree.OnlyDirectories made → made.Writes (report.outputs dir lookup) after →
      Ends s tree dir after (.ok report)

theorem build_ends (s : Session) (tree : FileTree) (dir : Text) :
    s.Ends tree dir (s.build tree dir).tree (s.build tree dir).result := by
  rw [build]
  cases hprocess : (s.process tree).result with
  | error e =>
    simp only
    exact .rejected hprocess
  | ok report =>
    simp only [writeReport]
    cases hmade : ((s.process tree).tree.makeAll dir).2 with
    | error e => exact .refused hprocess rfl
    | ok _ =>
      have hdir := ne_nil_of_makeAll hmade
      have honly := (s.process tree).tree.makeAll_onlyDirectories dir
      generalize ((s.process tree).tree.makeAll dir).1 = made at honly ⊢
      simp only
      cases hwritten : (writeArtifacts dir made report.artifacts).2.2 with
      | error e => exact .refused hprocess (writeArtifacts_eq_error hwritten)
      | ok _ =>
        have hwrites := writeArtifacts_eq_ok hwritten
        simp only [writeLookup]
        cases hlookup : generateLookup s.package report.registry.names with
        | error e =>
          rw [generateLookup] at hlookup
          split at hlookup
          · cases hlookup
          · next hpackage =>
            cases hlookup
            exact .unnamed hprocess (by simpa using hpackage) hdir honly hwrites
        | ok lookup =>
          simp only
          cases hwrite : (writeArtifacts dir made report.artifacts).1.write
              (Path.join dir lookupFile) lookup with
          | error e => exact .refused hprocess rfl
          | ok after =>
            exact .done hprocess hlookup hdir honly (hwrites.append (.cons hwrite .nil))

/-! An optimizer that is a function leaves the files to the report. -/

section
variable {s : Session} (hs : s.IsFunctional) {tree : FileTree} {report : Report}
  (h : (s.process tree).result = .ok report) (dir : Text)
include hs h

theorem tree_build :
    (s.build tree dir).tree = (writeReport dir s.package tree report).1 := by
  rw [build, h, hs.tree_process]

theorem result_build :
    (s.build tree dir).result =
      (writeReport dir s.package tree report).2.2.map fun _ => report := by
  rw [build, h, hs.tree_process]

end

end Session

/-! ### Outputs and their files -/

section
variable {dir : Text} (hdir : dir ≠ [])
include hdir

/-- Of outputs in one directory, the last one to a path is what the path holds. -/
theorem FileTree.Writes.read_of_lookup {t t' : FileTree} {outputs : List (Text × Text)}
    (h : t.Writes outputs t') (hjoin : ∀ o ∈ outputs, ∃ name, o.1 = Path.join dir name)
    {path text : Text} (hlast : outputs.reverse.lookup path = some text) :
    t'.read path = .ok text := by
  obtain ⟨later, before, hsplit, hlater⟩ := List.lookup_eq_some_iff.1 hlast
  have houtputs : outputs = before.reverse ++ (path, text) :: later.reverse := by
    rw [← List.reverse_reverse outputs, hsplit]
    simp
  rw [houtputs] at h hjoin
  obtain ⟨name, hname⟩ := hjoin (path, text) (by simp)
  apply h.read_eq
  -- paths into one directory are clean, so a later output to the same place has the same path
  intro o ho hlocation
  obtain ⟨name', hname'⟩ := hjoin o (by simp [List.mem_reverse.1 ho])
  have hne := hlater o (List.mem_reverse.1 ho)
  rw [hname'] at hlocation hne
  simp only at hname
  rw [hname] at hlocation hne
  rw [Path.join_eq_of_location_eq hdir hlocation] at hne
  simp at hne

end

theorem exists_join_of_mem_outputs {r : Report} {dir lookup : Text} :
    ∀ o ∈ r.outputs dir lookup, ∃ name, o.1 = Path.join dir name := by
  intro o ho
  rcases List.mem_append.1 ho with ho | ho
  · obtain ⟨a, -, rfl⟩ := List.mem_map.1 ho
    exact ⟨a.name, rfl⟩
  · rw [List.mem_singleton.1 ho]
    exact ⟨lookupFile, rfl⟩

theorem lookup_reverse_outputs (r : Report) (dir lookup : Text) :
    (r.outputs dir lookup).reverse.lookup (Path.join dir lookupFile) = some lookup := by
  simp [Report.outputs]

theorem agreeing_of_read {t : FileTree} {outputs : List (Text × Text)}
    (h : ∀ o ∈ outputs, t.read o.1 = .ok o.2) : Agreeing outputs := by
  intro o ho o' ho' hpath
  have hread := h o ho
  rw [hpath, h o' ho'] at hread
  exact (Except.ok.inj hread).symm

/-- Outputs to different paths agree. -/
theorem agreeing_outputs {r : Report} {dir : Text} (lookup : Text)
    (h : (r.artifacts.map (fun a => Path.join dir a.name) ++ [Path.join dir lookupFile]).Nodup) :
    Agreeing (r.outputs dir lookup) := by
  have hpaths : ((r.outputs dir lookup).map Prod.fst).Nodup := by
    rw [Report.outputs, List.map_append, List.map_map]
    exact h
  intro o ho o' ho' hpath
  rw [List.inj_on_of_nodup_map hpaths ho ho' hpath]

theorem expands_topLines_nil (table : IncludeTable) (version : Text) :
    Expands table version [] (topLines []) .nil := by
  rw [show topLines [] = [] by decide +kernel]
  exact .nil

/-! ### Builds that succeed -/

namespace Session

variable (disk : Disk) (language : Language) (cs : List Call) (tree : FileTree) (dir : Text)

/-- **What a build that succeeds leaves in the files.** Every path that it writes to holds the last
text that was written there. The lookup file comes last and is there; the artifacts are all there if
and only if no two outputs to one path differ. No other file is made or changed, after what an
optimizer may have done while the sources were processed. The text of an artifact is what is emitted
under its name, and an optimizer that is a function changes no file.

Files are told apart by their locations, under the assumptions of `FileTree`: there are no links,
names that differ in case are different names, and no path that climbs out of the working directory
through `..` leads back in. -/
theorem build_writes_report {report : Report}
    (h : (((start language).after disk cs).build tree dir).result = .ok report) :
    let s := (start language).after disk cs
    let before := (s.process tree).tree
    let after := (s.build tree dir).tree
    (∃ lookup, generateLookup s.package report.registry.names = .ok lookup ∧
      after.read (Path.join dir lookupFile) = .ok lookup ∧
      (∀ path text, (report.outputs dir lookup).reverse.lookup path = some text →
        after.read path = .ok text) ∧
      ((∀ a ∈ report.artifacts, after.read (Path.join dir a.name) = .ok a.text) ↔
        Agreeing (report.outputs dir lookup)) ∧
      ∀ l, (∀ o ∈ report.outputs dir lookup, FileTree.location o.1 ≠ l) →
        ∀ text, after.find? l = some (.file text) ↔ before.find? l = some (.file text)) ∧
    (∀ a ∈ report.artifacts, (s.emit tree a.name).result = .ok a.text) ∧
    (s.IsFunctional → before = tree ∧
      ∀ tree', ∀ a ∈ report.artifacts, (s.emit tree' a.name).result = .ok a.text) := by
  intro s before after
  have hends : s.Ends tree dir after (.ok report) := h ▸ s.build_ends tree dir
  clear_value after
  cases hends with
  | @done _ made _ lookup hprocess hlookup hdir honly hwrites =>
    have hnodup : (sourceNames s.sources).Nodup :=
      nodup_after (s := start language) List.nodup_nil cs
    have hlast (path text : Text)
        (hlast : (report.outputs dir lookup).reverse.lookup path = some text) :
        after.read path = .ok text :=
      hwrites.read_of_lookup hdir exists_join_of_mem_outputs hlast
    have hfile := hlast _ _ (lookup_reverse_outputs report dir lookup)
    refine ⟨⟨lookup, hlookup, hfile, hlast, ⟨?_, ?_⟩, ?_⟩,
      fun a ha => emit_eq_ok hprocess hnodup ha, fun hs => ⟨hs.tree_process tree, ?_⟩⟩
    · -- one path cannot hold two texts
      intro hartifacts
      apply agreeing_of_read
      intro o ho
      rcases List.mem_append.1 ho with ho | ho
      · obtain ⟨a, ha, rfl⟩ := List.mem_map.1 ho
        exact hartifacts a ha
      · rw [List.mem_singleton.1 ho]
        exact hfile
    · intro hagreeing a ha
      apply hlast
      have hmem : a.output dir ∈ report.outputs dir lookup :=
        List.mem_append_left _ (List.mem_map_of_mem ha)
      exact hagreeing.lookup_reverse hmem
    · intro l hl text
      rw [hwrites.find?_eq hl]
      exact honly.find?_file l text
    · intro tree' a ha
      exact emit_eq_ok ((hs.result_process tree tree').trans hprocess) hnodup ha

/-- A build of one source. -/
theorem build_writes_report_singleton :
    let out := Text.ofString "out"
    let s := (start .openGL).after (∅ : FileTree).disk [.addSource (Text.ofString "a") .vertex []]
    ∃ report, (s.build ∅ out).result = .ok report ∧
      report.artifacts.map Artifact.name = [Text.ofString "a"] ∧
      ∀ a ∈ report.artifacts, (s.build ∅ out).tree.read (Path.join out a.name) = .ok a.text := by
  intro out s
  have hprocess := process_singleton (s := s) rfl rfl rfl (expands_topLines_nil _ _) ∅
  have hs : s.IsFunctional := isFunctional_of_none rfl
  have hbuild := result_build hs hprocess out
  rw [show (writeReport _ _ _ _).2.2 = .ok () by decide +kernel] at hbuild
  refine ⟨_, hbuild, rfl, ?_⟩
  obtain ⟨⟨lookup, -, -, -, hartifacts, -⟩, -⟩ :=
    build_writes_report (∅ : FileTree).disk .openGL
      [.addSource (Text.ofString "a") .vertex []] ∅ out hbuild
  exact hartifacts.2 (agreeing_outputs lookup (by decide +kernel))

/-- **The lookup file may take the place of an artifact.** A source may have its name, and then what
is reported for the source is not what its file holds. -/
theorem build_overwrites_artifact :
    let out := Text.ofString "out"
    let s := (start .openGL).after (∅ : FileTree).disk [.addSource lookupFile .vertex []]
    ∃ report, (s.build ∅ out).result = .ok report ∧
      ∃ a ∈ report.artifacts, (s.build ∅ out).tree.read (Path.join out a.name) ≠ .ok a.text := by
  intro out s
  have hprocess := process_singleton (s := s) rfl rfl rfl (expands_topLines_nil _ _) ∅
  have hs : s.IsFunctional := isFunctional_of_none rfl
  have hbuild := result_build hs hprocess out
  rw [show (writeReport _ _ _ _).2.2 = .ok () by decide +kernel] at hbuild
  refine ⟨_, hbuild, ?_⟩
  rw [tree_build hs hprocess out]
  exact ⟨_, List.mem_singleton_self _, by decide +kernel⟩

/-- A build that succeeds has written the lookup file of its registry. -/
theorem exists_lookup_of_build {s : Session} {tree : FileTree} {dir : Text} {report : Report}
    (h : (s.build tree dir).result = .ok report) :
    (s.process tree).result = .ok report ∧ isPackageName s.package = true ∧
      (s.build tree dir).tree.read (Path.join dir lookupFile) =
        .ok (lookupText s.package report.registry.names) := by
  have hends := s.build_ends tree dir
  rw [h] at hends
  generalize (s.build tree dir).tree = after at hends
  cases hends with
  | @done _ made _ lookup hprocess hlookup hdir _ hwrites =>
    have hread := hwrites.read_of_lookup hdir exists_join_of_mem_outputs
      (lookup_reverse_outputs report dir lookup)
    rw [generateLookup] at hlookup
    split at hlookup
    · next hpackage =>
      cases hlookup
      exact ⟨hprocess, hpackage, hread⟩
    · cases hlookup

/-! ### Builds that are rejected -/

/-- **What a rejected build leaves in the files.** Where the error is not the system's, either the
sources were rejected, and then the files are as processing left them, or the package of the lookup
file is not valid. Only in the second case has anything been written: directories and, in full, the
artifacts. So with a valid package, and with an optimizer that is a function, no file and no
directory changes. -/
theorem build_rejected_leaves_files {e : BuildError}
    (h : (((start language).after disk cs).build tree dir).result = .error e)
    (hsystem : e.isSystem = false) :
    let s := (start language).after disk cs
    let before := (s.process tree).tree
    let after := (s.build tree dir).tree
    (isPackageName s.package = true → after = before) ∧
    ((∀ p, e ≠ .lookup p) → IsProcessing e ∧ after = before) ∧
    (s.IsFunctional → before = tree) ∧
    ∀ p, e = .lookup p → p = ⟨s.package⟩ ∧ isPackageName s.package = false ∧
      ∃ report, (s.process tree).result = .ok report ∧
        (∀ path text, (report.artifacts.map (·.output dir)).reverse.lookup path = some text →
          after.read path = .ok text) ∧
        ∀ l, (∀ a ∈ report.artifacts, FileTree.location (Path.join dir a.name) ≠ l) →
          ∀ text, after.find? l = some (.file text) ↔ before.find? l = some (.file text) := by
  intro s before after
  have hends : s.Ends tree dir after (.error e) := h ▸ s.build_ends tree dir
  clear_value after
  have hfunctional (hs : s.IsFunctional) : before = tree := hs.tree_process tree
  cases hends with
  | rejected hprocess =>
    have hprocessing := process_eq_error hprocess
    refine ⟨fun _ => rfl, fun _ => ⟨hprocessing, rfl⟩, hfunctional, ?_⟩
    rintro p rfl
    cases hprocessing
  | refused _ hrefused =>
    rw [hsystem] at hrefused
    cases hrefused
  | @unnamed report made _ hprocess hpackage hdir honly hwrites =>
    refine ⟨?_, fun hne => absurd rfl (hne _), hfunctional, ?_⟩
    · intro hvalid
      rw [hpackage] at hvalid
      cases hvalid
    · rintro p hp
      refine ⟨(BuildError.lookup.inj hp).symm, hpackage, report, hprocess, ?_, ?_⟩
      · intro path text hlast
        refine hwrites.read_of_lookup hdir ?_ hlast
        intro o ho
        obtain ⟨a, -, rfl⟩ := List.mem_map.1 ho
        exact ⟨a.name, rfl⟩
      · intro l hl text
        rw [hwrites.find?_eq (List.forall_mem_map.2 hl)]
        exact honly.find?_file l text

/-- A build that is rejected for two sources of one name. -/
theorem build_rejected_leaves_files_discovery :
    let out := Text.ofString "out"
    let source := Call.addSource (Text.ofString "a") .vertex []
    let s := (start .openGL).after (∅ : FileTree).disk [source, source]
    ∃ e, (s.build ∅ out).result = .error e ∧ (s.build ∅ out).tree = ∅ := by
  intro out source s
  have hbuild : (s.build ∅ out).result =
      .error (.discovery (.duplicate (Text.ofString "a") none)) := by
    rw [build, process_of_error (e := .duplicate (Text.ofString "a") none) (by decide +kernel)]
  refine ⟨_, hbuild, ?_⟩
  obtain ⟨hvalid, -, hfunctional, -⟩ :=
    build_rejected_leaves_files (∅ : FileTree).disk .openGL [source, source] ∅ out hbuild rfl
  rw [hvalid (by decide +kernel), hfunctional (isFunctional_of_none rfl)]

/-- **A build with an invalid package has written its artifacts.** -/
theorem build_rejected_writes_artifact :
    let out := Text.ofString "out"
    let s := (start .openGL).after (∅ : FileTree).disk
      [.addSource (Text.ofString "a") .vertex [], .package (Text.ofString "1x")]
    (s.build ∅ out).result = .error (.lookup ⟨Text.ofString "1x"⟩) ∧
      (∅ : FileTree).find? [out, Text.ofString "a"] = none ∧
      (s.build ∅ out).tree.find? [out, Text.ofString "a"] =
        some (.file (Text.ofString "#version 110\n#line 1 0")) := by
  intro out s
  have hprocess := process_singleton (s := s) rfl rfl rfl (expands_topLines_nil _ _) ∅
  have hs : s.IsFunctional := isFunctional_of_none rfl
  have hbuild := result_build hs hprocess out
  rw [show (writeReport _ _ _ _).2.2 = .error (.lookup ⟨Text.ofString "1x"⟩)
    by decide +kernel] at hbuild
  refine ⟨hbuild, by decide +kernel, ?_⟩
  rw [tree_build hs hprocess out]
  decide +kernel

end Session
end ShaderSplice
