import ShaderSplice.Proofs.IncludeGraph
import ShaderSplice.Proofs.Registry

/-!
# Assemblies and the registry they start from

A registry gives names their ids and has no other part in an assembly. What an assembly writes is
the same list of output lines whatever it starts from; the markers among them name files, and the
registry that it leaves behind turns each name into an id:

                          ╭──▶  result of the run that starts from `r`
    output lines ──idOf───┤
                          ╰──▶  result of the run that starts from `r'`

Each file that a marker names has been registered by then, and a registered name keeps its id. So a
source that is assembled again gives the same text again, whatever was assembled in between.
-/

namespace ShaderSplice

variable {table : IncludeTable} {version : Text}

/-! ### The files that markers name -/

/-- The files that the markers among `ls` name. -/
def markedFiles (ls : List OutputLine) : List FileRef :=
  ls.filterMap fun o =>
    match o with
    | .marker _ file => some file
    | _ => none

theorem mem_markedFiles {ls : List OutputLine} {line : Nat} {file : FileRef}
    (h : .marker line file ∈ ls) : file ∈ markedFiles ls :=
  List.mem_filterMap.2 ⟨_, h, rfl⟩

theorem markedFiles_append (ls ls' : List OutputLine) :
    markedFiles (ls ++ ls') = markedFiles ls ++ markedFiles ls' :=
  List.filterMap_append

/-- Trimming does not touch markers. -/
theorem markedFiles_trimLines (ls : List OutputLine) :
    markedFiles (trimLines ls) = markedFiles ls := by
  have htrim (o : OutputLine) : markedFiles o.trimEnd?.toList = markedFiles [o] := by
    cases o with
    | version v => rfl
    | marker line file => rfl
    | copy file number text =>
      rw [OutputLine.trimEnd?]
      split
      · rfl
      · rfl
    | seam closes opens => cases closes <;> cases opens <;> rfl
  induction ls with
  | nil => rfl
  | cons o ls ih =>
    rw [← List.singleton_append, markedFiles_append, ← ih, ← htrim o, List.singleton_append,
      trimLines]
    -- a line is trimmed only if nothing is left behind it, and then nothing there was marked
    split
    · next hnil =>
      rw [hnil]
      exact (List.append_nil _).symm
    · next rest hrest =>
      rw [← List.singleton_append, markedFiles_append, htrim o]

/-- Equal ids for the files that are named give equal texts of the lines. -/
theorem map_render_congr {idOf idOf' : FileRef → FileId} {ls : List OutputLine}
    (h : ∀ file ∈ markedFiles ls, idOf file = idOf' file) :
    ls.map (·.render idOf) = ls.map (·.render idOf') := by
  apply List.map_congr_left
  intro o ho
  cases o with
  | marker line file => rw [OutputLine.render, h file (mem_markedFiles ho), OutputLine.render]
  | version v => rfl
  | copy file number text => rfl
  | seam closes opens => rfl

theorem render_congr {idOf idOf' : FileRef → FileId} {ls : List OutputLine}
    (h : ∀ file ∈ markedFiles ls, idOf file = idOf' file) : render idOf ls = render idOf' ls := by
  rw [render, render, map_render_congr h]

section
variable {mode : LineMode} {file : FileRef} {l : SourceLine}

theorem markedFiles_output : markedFiles (l.output mode file) = [] := by
  unfold SourceLine.output
  split
  · split <;> rfl
  · rfl
  · split <;> rfl
  · rfl

theorem markedFiles_beforeSplice : markedFiles (l.beforeSplice mode) = [] := by
  cases mode with
  | keep =>
    rw [SourceLine.beforeSplice]
    split <;> rfl
  | discard => rfl

/-- What leads back from an include names the file itself. -/
theorem markedFiles_afterSplice : ∀ f ∈ markedFiles (l.afterSplice mode file), f = file := by
  intro f hf
  cases mode with
  | keep =>
    rw [SourceLine.afterSplice] at hf
    split at hf
    · exact List.mem_singleton.1 hf
    · exact List.mem_singleton.1 hf
  | discard => cases hf

theorem markedFiles_closing (ls : List SourceLine) : markedFiles (closing mode file ls) = [] := by
  rw [closing]
  split <;> rfl

theorem markedFiles_frame (ls : List SourceLine) (inner : List OutputLine) :
    markedFiles (frame mode file ls inner) = file :: markedFiles inner := by
  rw [frame, ← List.singleton_append, markedFiles_append, markedFiles_trimLines,
    markedFiles_append, markedFiles_closing, List.append_nil]
  rfl

end

/-- Markers name the file itself and the files spliced into it. -/
theorem Body.file_of_marker {mode : LineMode} {body : Body} {file f : FileRef}
    (h : f ∈ markedFiles (body.emit mode file)) :
    f = file ∨ ∃ name ∈ body.spliced, f = .included name := by
  induction body generalizing file f with
  | nil => cases h
  | keep l rest ih =>
    rw [emit, markedFiles_append, markedFiles_output, List.nil_append] at h
    exact ih h
  | splice l target child rest ihchild ih =>
    rw [emit, markedFiles_append, markedFiles_append, markedFiles_append,
      markedFiles_beforeSplice, List.nil_append, markedFiles_frame] at h
    simp only [List.mem_append, List.mem_cons] at h
    have hspliced (name : Text) :
        name ∈ (Body.splice l target child rest).spliced ↔
          name = target ∨ name ∈ child.spliced ∨ name ∈ rest.spliced := by
      simp [spliced]
    -- the frame of the include, what is inside it, the way back, and the rest of the file
    rcases h with ((rfl | h) | h) | h
    · exact .inr ⟨target, (hspliced target).2 (.inl rfl), rfl⟩
    · rcases ihchild h with rfl | ⟨name, hname, rfl⟩
      · exact .inr ⟨target, (hspliced target).2 (.inl rfl), rfl⟩
      · exact .inr ⟨name, (hspliced name).2 (.inr (.inl hname)), rfl⟩
    · exact .inl (markedFiles_afterSplice f h)
    · rcases ih h with rfl | ⟨name, hname, rfl⟩
      · exact .inl rfl
      · exact .inr ⟨name, (hspliced name).2 (.inr (.inr hname)), rfl⟩

/-! ### Two runs -/

section
variable {language : Language} {mode : LineMode} {name text : Text}

/-- Every file that a marker of an assembly names has its id in the registry that is left. -/
theorem hasId_of_marked {body : Body} (h : (walkTop language table name text).result = .ok body)
    (r : Registry) {version : Text} {file : FileRef}
    (hfile : file ∈ markedFiles (body.assembly mode version)) :
    (assemble language mode table r name text).registry.HasId file
      ((assemble language mode table r name text).registry.idOf file) := by
  have hassembly : markedFiles (body.assembly mode version) =
      .top :: markedFiles (body.emit mode .top) :=
    markedFiles_frame body.lines _
  rw [hassembly] at hfile
  have hcases : file = .top ∨ ∃ n ∈ body.spliced, file = .included n := by
    rcases List.mem_cons.1 hfile with hfile | hfile
    · exact .inl hfile
    · exact Body.file_of_marker hfile
  rcases hcases with rfl | ⟨n, hn, rfl⟩
  · exact .top
  · apply Registry.hasId_of_mem
    rw [registry_assemble, Registry.mem_insertAll_iff, walkTop, (expands_of_walk h).entered_eq name]
    exact .inr hn

/-- From every registry, an assembly has the given version and the lines `ls`, in which each file
that a marker names stands for its id in the registry that is left. -/
structure WritesLines (language : Language) (mode : LineMode) (table : IncludeTable)
    (name text version : Text) (ls : List OutputLine) : Prop where
  result_eq : ∀ r, (assemble language mode table r name text).result =
    .ok { name, version
          source := render (assemble language mode table r name text).registry.idOf ls }
  hasId : ∀ r, ∀ file ∈ markedFiles ls,
    (assemble language mode table r name text).registry.HasId file
      ((assemble language mode table r name text).registry.idOf file)

/-- Whether an assembly fails, and what it writes, does not depend on the registry. -/
theorem fails_or_writesLines :
    (∃ f, ∀ r, (assemble language mode table r name text).result = .error f) ∨
      ∃ version ls, WritesLines language mode table name text version ls := by
  cases hwalk : (walkTop language table name text).result with
  | error f =>
    refine .inl ⟨f, fun r => ?_⟩
    rw [assemble, hwalk]
    rfl
  | ok body =>
    refine .inr ⟨treeVersion language (topLines text),
      body.assembly mode (treeVersion language (topLines text)), ?_, ?_⟩
    · exact fun r => assemble_eq_ok_iff.2 ⟨body, hwalk, rfl⟩
    · exact fun r file => hasId_of_marked hwalk r

theorem WritesLines.result_of_isPrefix {version : Text} {ls : List OutputLine}
    (h : WritesLines language mode table name text version ls) {r r' : Registry}
    (hpre : (assemble language mode table r name text).registry.names <+: r'.names) :
    (assemble language mode table r' name text).result =
      (assemble language mode table r name text).result := by
  have hkept : (assemble language mode table r name text).registry.names <+:
      (assemble language mode table r' name text).registry.names :=
    hpre.trans (Registry.isPrefix_insertAll _ _)
  -- the ids of the first run are still the ids after the second
  have hids : ∀ file ∈ markedFiles ls,
      (assemble language mode table r' name text).registry.idOf file =
        (assemble language mode table r name text).registry.idOf file := by
    intro file hfile
    exact ((h.hasId r file hfile).of_isPrefix hkept).idOf_eq
  rw [h.result_eq r, h.result_eq r', render_congr hids]

/-- **A registry only gives ids.** From every registry an assembly fails in the same way, or it
writes the same lines, in which each file that a marker names stands for its id in the registry that
is left. An id that is given out on the way is the one that is written. And a source that is
assembled again, after any other assemblies, gives the same result again. -/
theorem assemble_registry_independent (language : Language) (mode : LineMode)
    (table : IncludeTable) (name text : Text) :
    ((∃ f, ∀ r, (assemble language mode table r name text).result = .error f) ∨
      ∃ version ls, WritesLines language mode table name text version ls) ∧
    (∀ r before target after,
      (walkTop language table name text).entered = before ++ target :: after →
      ((r.insertAll before).resolve target).1 =
        (assemble language mode table r name text).registry.idOf (.included target)) ∧
    ∀ r requests,
      (assemble language mode table
        ((assemble language mode table r name text).registry.after requests) name text).result =
        (assemble language mode table r name text).result := by
  refine ⟨fails_or_writesLines, ?_, ?_⟩
  · intro r before target after hentered
    rw [registry_assemble, hentered]
    exact r.resolve_eq_idOf before target after
  · intro r requests
    rcases fails_or_writesLines with ⟨f, hf⟩ | ⟨version, ls, hls⟩
    · rw [hf, hf]
    · exact hls.result_of_isPrefix (Registry.isPrefix_after _ requests)

end

end ShaderSplice
