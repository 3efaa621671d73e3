import ShaderSplice.Proofs.Layout
import ShaderSplice.Proofs.Replay

/-!
# Assembling in one pass

`assemble` walks the includes first, registers what the walk entered, and only then gives the
markers their ids. `assembleOnePass` does everything line by line, and has nothing but the registry
that it was handed:

    r ──resolve──▶ id of the include , r₁ ──lines of the include──▶ r₂ ──lines below──▶ …

An include gets its id before its own lines are read. All markers of a file are written at once with
the id of the file, white space at the end is taken from the text that is there, and the version is
the one that was met so far.

Both leave the same registry, the same log and the same result behind (`assembleOnePass_eq`). The
reason is that a registry only grows: an id that is given out on the way is still the id of its name
in the registry at the end, which the markers of `assemble` are rendered with. And as every line is
written with a newline after it, a text loses the same white space as its lines do.
-/

namespace ShaderSplice

/-! ### One pass -/

/-- The texts of output lines, each ended by a newline. -/
def writeLines (idOf : FileRef → FileId) (ls : List OutputLine) : Text :=
  unlines (ls.map (·.render idOf))

/-- A file that is passed over. -/
structure OpenFile where
  /-- The name that failures and records give it. -/
  name : Text
  ref : FileRef
  /-- The id that its markers get. -/
  id : FileId

namespace OpenFile

/-- A top-level source. -/
def top (name : Text) : OpenFile := ⟨name, .top, topLevelId⟩

/-- An include, once it has an id. -/
def included (target : Text) (id : FileId) : OpenFile := ⟨target, .included target, id⟩

@[simp] theorem name_included (target : Text) (id : FileId) : (included target id).name = target :=
  rfl

/-- The text of lines that the file writes. -/
def write (f : OpenFile) (ls : List OutputLine) : Text := writeLines (fun _ => f.id) ls

/-- The record of something that happens to the file. -/
def record (f : OpenFile) (e : Event) : Record := e.record fun _ => f.id

/-- The whole text of the file with source lines `ls`, for which `inner` was written, below the
lines `above`. -/
def text (f : OpenFile) (mode : LineMode) (ls : List SourceLine) (above : List OutputLine)
    (inner : Text) : Text :=
  (f.write (above ++ [.marker (firstLine mode f.ref ls) f.ref]) ++
    (inner ++ f.write (closing mode f.ref ls)).trimEnd).trimEnd

end OpenFile

/-- What a pass over the lines of a file leaves behind: the registry, the log, and what was written
with the version that holds after the last line. -/
structure Pass where
  registry : Registry
  log : List Record
  result : Except Failure (Text × Text)

namespace Pass

/-- A pass that stops where it starts. -/
def fail (r : Registry) (cause : Cause) : Pass := ⟨r, [], .error ⟨[], cause⟩⟩

/-- A pass that logs `log` and writes `text` before what `next` does. -/
def after (log : List Record) (text : Text) (next : Pass) : Pass :=
  { next with
    log := log ++ next.log
    result := next.result.map fun (written, version) => (text ++ written, version) }

/-- The pass at the include directive `l` of `f`. The include `g` has the source lines `ls`, over
which the pass `inner` went, and `next` goes on below the directive. -/
def splice (mode : LineMode) (f g : OpenFile) (l : SourceLine) (ls : List SourceLine)
    (inner : Pass) (next : Registry → Pass) : Pass :=
  let entered := g.record (.enter f.name g.name l.number)
  match inner.result with
  | .error e => ⟨inner.registry, entered :: inner.log, .error (e.inside g.name)⟩
  | .ok (written, _) =>
    let left := if endsOpen ls then [g.record (.unclosed g.name)] else []
    (next inner.registry).after (entered :: inner.log ++ left)
      (f.write (l.beforeSplice mode) ++ (g.text mode ls [] written ++ [Text.newline]) ++
        f.write (l.afterSplice mode f.ref))

end Pass

/-- Passes over the lines `ls` of `f`, to which the includes `path` lead, with the registry `r`.
Below the first code of a tree the version is settled; before that there is none. -/
def pass (language : Language) (mode : LineMode) (table : IncludeTable) (f : OpenFile)
    (path : List Text) (version : Option Text) (r : Registry) (ls : List SourceLine) : Pass :=
  match ls with
  | [] => ⟨r, [], .ok ([], version.getD language.defaultVersion)⟩
  | l :: rest =>
    let settled := version.getD language.defaultVersion
    match l.role with
    | .silent =>
      (pass language mode table f path version r rest).after [] (f.write (l.output mode f.ref))
    | .lead declared =>
      if declared = version.getD declared then
        (pass language mode table f path (some declared) r rest).after []
          (f.write (l.output mode f.ref))
      else .fail r (.mismatch f.name declared (version.getD declared))
    | .splice target =>
      match _ : table.find? target with
      | none => .fail r (.missing f.name target)
      | some text =>
        if target ∈ path then .fail r (.cycle f.name target (path ++ [target]))
        else
          let g := OpenFile.included target (r.resolve target).1
          let inner := pass language mode table g (path ++ [target]) (some settled)
            (r.resolve target).2 (sourceLines text)
          .splice mode f g l (sourceLines text) inner fun r =>
            pass language mode table f path (some settled) r rest
    | .ordinary _ =>
      (pass language mode table f path (some settled) r rest).after []
        (f.write (l.output mode f.ref))
termination_by ((table.unvisited path).length, ls.length)
decreasing_by
  · decreasing_tactic
  · decreasing_tactic
  · exact Prod.Lex.left _ _ (IncludeTable.length_unvisited_lt
      (IncludeTable.mem_names_of_find? ‹table.find? target = some text›) ‹target ∉ path›)
  · decreasing_tactic
  · decreasing_tactic

/-- Assembles the source `name` with the given text in one pass. -/
def assembleOnePass (language : Language) (mode : LineMode) (table : IncludeTable)
    (registry : Registry) (name text : Text) : Outcome :=
  let f := OpenFile.top name
  let passed := pass language mode table f [] none registry (topLines text)
  { registry := passed.registry
    log := passed.log
    result := passed.result.map fun (inner, version) =>
      { name, version, source := f.text mode (topLines text) [.version version] inner } }

/-! ### Lines and their text -/

section
variable {idOf idOf' : FileRef → FileId}

theorem writeLines_cons (o : OutputLine) (ls : List OutputLine) :
    writeLines idOf (o :: ls) = o.render idOf ++ Text.newline :: writeLines idOf ls :=
  unlines_cons _ _

theorem writeLines_append (ls ls' : List OutputLine) :
    writeLines idOf (ls ++ ls') = writeLines idOf ls ++ writeLines idOf ls' := by
  rw [writeLines, List.map_append, unlines, List.flatMap_append]
  rfl

theorem writeLines_eq_render_append {ls : List OutputLine} (h : ls ≠ []) :
    writeLines idOf ls = render idOf ls ++ [Text.newline] :=
  unlines_eq_join_append fun hnil => h (List.map_eq_nil_iff.1 hnil)

/-- Lines that name no file are written in the same way with all ids. -/
theorem writeLines_of_unmarked {ls : List OutputLine} (h : markedFiles ls = []) :
    writeLines idOf ls = writeLines idOf' ls := by
  rw [writeLines, writeLines, map_render_congr]
  rw [h]
  intro file hfile
  cases hfile

theorem render_singleton (o : OutputLine) : render idOf [o] = o.render idOf := by
  simp [render, Text.join]

theorem render_cons (o : OutputLine) {ls : List OutputLine} (h : ls ≠ []) :
    render idOf (o :: ls) = o.render idOf ++ Text.newline :: render idOf ls := by
  obtain ⟨rest, hjoin, ⟨hnil, -⟩ | ⟨-, rfl⟩⟩ :=
    exists_join_cons (o.render idOf) (ls.map (·.render idOf))
  · exact absurd (List.map_eq_nil_iff.1 hnil) h
  · exact hjoin

theorem render_append (ls : List OutputLine) {ls' : List OutputLine} (h : ls' ≠ []) :
    render idOf (ls ++ ls') = writeLines idOf ls ++ render idOf ls' := by
  induction ls with
  | nil => rfl
  | cons o ls ih =>
    have hne : ls ++ ls' ≠ [] := fun hnil => h (List.append_eq_nil_iff.1 hnil).2
    rw [List.cons_append, render_cons o hne, ih, writeLines_cons, List.append_assoc,
      List.cons_append]

/-! ### White space at the end -/

/-- A marker ends in a digit. -/
theorem trimEnd_marker (number : Nat) (file : FileRef) :
    ((OutputLine.marker number file).render idOf).trimEnd =
      (OutputLine.marker number file).render idOf := by
  have hnodigit : ∀ w ∈ spaceForms, w.all (!isDigitByte ·) = true := by decide
  obtain ⟨digits, last, hlast⟩ := (List.eq_nil_or_concat' _).resolve_left
    (Text.ofNat_ne_nil (idOf file).toNat)
  have hdigit : isDigitByte last = true :=
    Text.isDigitByte_of_mem_ofNat (n := (idOf file).toNat) (by rw [hlast]; simp)
  apply Text.trimEnd_eq_self (b := last)
  · rw [OutputLine.render, hlast, ← List.append_assoc, List.getLast?_concat]
  · intro w hw
    simp only [List.all_eq_true, bne_iff_ne]
    rintro b hb rfl
    have hno := List.all_eq_true.1 (hnodigit w hw) b hb
    rw [hdigit] at hno
    cases hno

/-- What is left of a line is its text without the white space at the end. -/
theorem render_trimEnd? {o : OutputLine} (ho : ∀ v, o ≠ .version v) :
    render idOf o.trimEnd?.toList = (o.render idOf).trimEnd := by
  cases hs : o.trimEnd? with
  | none => exact (Text.trimEnd_eq_nil_iff.2 (OutputLine.trimEnd?_eq_none_iff.1 hs)).symm
  | some o' =>
    rw [Option.toList_some, render_singleton]
    rcases OutputLine.trimEnd?_eq_some hs with ⟨rfl, hcopy⟩ | ⟨file, number, t, rfl, -, rfl⟩
    · cases o' with
      | version v => exact absurd rfl (ho v)
      | marker number file => exact (trimEnd_marker number file).symm
      | copy file number t => exact absurd rfl (hcopy file number t)
      | seam closes opens =>
        cases closes <;> cases opens
        · cases hs
        all_goals exact (Text.trimEnd_eq_self rfl (by decide)).symm
    · rfl

theorem trimLines_eq_nil_iff {ls : List OutputLine} :
    trimLines ls = [] ↔ Text.Spaces (writeLines idOf ls) := by
  induction ls with
  | nil => exact iff_of_true rfl .nil
  | cons o ls ih =>
    rw [writeLines_cons, Text.spaces_append_newline_iff, ← ih, trimLines]
    cases trimLines ls with
    | nil => simp [← OutputLine.trimEnd?_eq_none_iff]
    | cons o' ls' => simp

/-- Trimming lines is trimming what is written for them. -/
theorem render_trimLines {ls : List OutputLine} (hls : ∀ v, .version v ∉ ls) :
    render idOf (trimLines ls) = (writeLines idOf ls).trimEnd := by
  induction ls with
  | nil => exact (Text.trimEnd_eq_nil_iff.2 .nil).symm
  | cons o ls ih =>
    have ih := ih fun v hv => hls v (List.mem_cons_of_mem _ hv)
    have ho (v : Text) : o ≠ .version v := fun he => hls v (he ▸ List.mem_cons_self)
    rw [writeLines_cons, trimLines]
    cases htrim : trimLines ls with
    | nil =>
      rw [Text.trimEnd_append_newline_of_spaces _ (trimLines_eq_nil_iff.1 htrim)]
      exact render_trimEnd? ho
    | cons o' ls' =>
      have hne : trimLines ls ≠ [] := by simp [htrim]
      rw [Text.trimEnd_append_newline_of_not_spaces _ fun h => hne (trimLines_eq_nil_iff.2 h),
        ← ih, htrim]
      exact render_cons o (by simp)

/-- What is written below protects the lines above it. -/
theorem trimEnd_writeLines_append (ls : List OutputLine) {t : Text} (ht : ¬ Text.Spaces t) :
    (writeLines idOf ls ++ t).trimEnd = writeLines idOf ls ++ t.trimEnd := by
  induction ls with
  | nil => rfl
  | cons o ls ih =>
    have hne : ¬ Text.Spaces (writeLines idOf ls ++ t) := by
      intro hs
      rw [← Text.trimEnd_eq_nil_iff, ih] at hs
      exact ht (Text.trimEnd_eq_nil_iff.1 (List.append_eq_nil_iff.1 hs).2)
    rw [writeLines_cons, List.append_assoc, List.cons_append,
      Text.trimEnd_append_newline_of_not_spaces _ hne, ih, List.append_assoc, List.cons_append]

end

/-! ### Versions -/

/-- Trimming puts no version in. -/
theorem version_mem_of_mem_trimLines {ls : List OutputLine} {v : Text}
    (h : .version v ∈ trimLines ls) : .version v ∈ ls := by
  induction ls with
  | nil => cases h
  | cons o ls ih =>
    rw [trimLines] at h
    cases htrim : trimLines ls with
    | nil =>
      rw [htrim] at h
      have ho : o.trimEnd? = some (.version v) := by simpa using h
      rcases OutputLine.trimEnd?_eq_some ho with ⟨rfl, -⟩ | ⟨file, number, t, -, -, hcopy⟩
      · exact List.mem_cons_self
      · cases hcopy
    | cons o' ls' =>
      rw [htrim] at h ih
      rcases List.mem_cons.1 h with rfl | h
      · exact List.mem_cons_self
      · exact List.mem_cons_of_mem _ (ih h)

section
variable {mode : LineMode} {file : FileRef}

theorem version_not_mem_closing (ls : List SourceLine) (v : Text) :
    .version v ∉ closing mode file ls := by
  rw [closing]
  split <;> simp

/-- The version is written above an assembly, and nowhere in it. -/
theorem Body.version_not_mem_emit (body : Body) (v : Text) :
    .version v ∉ body.emit mode file := by
  have houtput (l : SourceLine) (file : FileRef) : .version v ∉ l.output mode file := by
    unfold SourceLine.output
    split
    · split <;> simp
    · simp
    · split <;> simp
    · simp
  have hbefore (l : SourceLine) : .version v ∉ l.beforeSplice mode := by
    unfold SourceLine.beforeSplice
    split
    · split <;> simp
    · simp
  have hafter (l : SourceLine) (file : FileRef) : .version v ∉ l.afterSplice mode file := by
    unfold SourceLine.afterSplice
    split
    · split <;> simp
    · simp
  induction body generalizing file with
  | nil => simp [emit]
  | keep l rest ih => simp [emit, houtput, ih]
  | splice l target child rest ihchild ih =>
    have hframe : .version v ∉ frame mode (.included target) child.lines
        (child.emit mode (.included target)) := by
      intro h
      rcases List.mem_cons.1 h with h | h
      · cases h
      · rcases List.mem_append.1 (version_mem_of_mem_trimLines h) with h | h
        · exact ihchild h
        · exact version_not_mem_closing _ v h
    simp [emit, hbefore, hframe, hafter, ih]

end

/-! ### The text of a file -/

/-- A marker is never trimmed, so the marker of a frame may as well be trimmed with the rest. -/
theorem frame_eq_trimLines (mode : LineMode) (file : FileRef) (ls : List SourceLine)
    (inner : List OutputLine) :
    frame mode file ls inner =
      trimLines (.marker (firstLine mode file ls) file :: (inner ++ closing mode file ls)) := by
  rw [frame, trimLines]
  cases trimLines (inner ++ closing mode file ls) with
  | nil => rfl
  | cons o ls' => rfl

section
variable {idOf : FileRef → FileId} {f : OpenFile} (hid : idOf f.ref = f.id)
include hid

/-- With its id in place, a file writes lines as they are written at the end. -/
theorem OpenFile.write_eq {ls : List OutputLine} (h : ∀ file ∈ markedFiles ls, file = f.ref) :
    f.write ls = writeLines idOf ls := by
  rw [write, writeLines, writeLines, map_render_congr]
  intro file hfile
  rw [h file hfile, hid]

/-- The text of a file is its frame as it is rendered at the end. -/
theorem OpenFile.text_eq_render {mode : LineMode} (ls : List SourceLine)
    {above inner : List OutputLine} (habove : markedFiles above = [])
    (hinner : ∀ v, .version v ∉ inner) :
    f.text mode ls above (writeLines idOf inner) =
      render idOf (above ++ frame mode f.ref ls inner) := by
  have hhead : f.write (above ++ [.marker (firstLine mode f.ref ls) f.ref]) =
      writeLines idOf (above ++ [.marker (firstLine mode f.ref ls) f.ref]) := by
    apply write_eq hid
    intro file hfile
    rw [markedFiles_append, habove] at hfile
    exact List.mem_singleton.1 hfile
  have hclosing : f.write (closing mode f.ref ls) = writeLines idOf (closing mode f.ref ls) :=
    writeLines_of_unmarked (markedFiles_closing ls)
  have hversion (v : Text) :
      .version v ∉ .marker (firstLine mode f.ref ls) f.ref :: (inner ++ closing mode f.ref ls) := by
    simp [hinner, version_not_mem_closing]
  have hne : frame mode f.ref ls inner ≠ [] := by simp [frame]
  rw [text, hhead, hclosing, Text.trimEnd_append_trimEnd, ← writeLines_append, writeLines_append,
    List.append_assoc, ← writeLines_append, List.singleton_append, trimEnd_writeLines_append,
    ← render_trimLines hversion, ← frame_eq_trimLines, render_append _ hne]
  rw [← trimLines_eq_nil_iff, ← frame_eq_trimLines]
  exact hne

end

/-! ### Passes and walks -/

/-- The pass that a walk over lines of `file` amounts to, once each file has an id. -/
def Walk.toPass (mode : LineMode) (file : FileRef) (version : Text) (idOf : FileRef → FileId)
    (r : Registry) (w : Walk) : Pass :=
  { registry := r.insertAll w.entered
    log := w.events.map (Event.record idOf)
    result := w.result.map fun body => (writeLines idOf (body.emit mode file), version) }

section
variable {mode : LineMode} {version : Text} {idOf : FileRef → FileId} {r : Registry}
  {f : OpenFile} (hid : idOf f.ref = f.id)
include hid

/-- A walk that goes on below a line. -/
theorem Walk.toPass_keep (l : SourceLine) (next : Walk) :
    (Walk.keep l next).toPass mode f.ref version idOf r =
      (next.toPass mode f.ref version idOf r).after [] (f.write (l.output mode f.ref)) := by
  have hwrite : f.write (l.output mode f.ref) = writeLines idOf (l.output mode f.ref) := by
    apply OpenFile.write_eq hid
    simp [markedFiles_output]
  rw [hwrite]
  obtain ⟨events, result⟩ := next
  cases result with
  | error e => rfl
  | ok body =>
    simp only [toPass, keep, Pass.after, Except.map, Body.emit, writeLines_append]
    rfl

omit hid in
/-- The record of an include tells no id but its own. -/
theorem OpenFile.record_eq {target : Text} {id : FileId} (htarget : idOf (.included target) = id)
    (source : Text) (line : Nat) :
    (OpenFile.included target id).record (.enter source target line) =
      (Event.enter source target line).record idOf := by
  rw [record, Event.record, Event.record, htarget]
  rfl

omit hid in
/-- A walk that fails in an include. -/
theorem Walk.toPass_abandon {target : Text} {id : FileId} (htarget : idOf (.included target) = id)
    (l : SourceLine) (ls : List SourceLine) {child : Walk} {e : Failure}
    (hchild : child.result = .error e) (next : Registry → Pass) :
    (Walk.abandon f.name l target child.events e).toPass mode f.ref version idOf r =
      .splice mode f (.included target id) l ls
        (child.toPass mode (.included target) version idOf (r.insert target)) next := by
  rw [Pass.splice, toPass, toPass, hchild, ← htarget]
  rfl

/-- A walk that comes back from an include. -/
theorem Walk.toPass_resume {target : Text} {id : FileId} (htarget : idOf (.included target) = id)
    (l : SourceLine) {ls : List SourceLine} {child : Walk} {body : Body}
    (hchild : child.result = .ok body) (hlines : body.lines = ls) {w : Walk}
    {next : Registry → Pass}
    (hnext : next ((r.insert target).insertAll child.entered) =
      w.toPass mode f.ref version idOf ((r.insert target).insertAll child.entered)) :
    (Walk.resume f.name l target child.events body w).toPass mode f.ref version idOf r =
      .splice mode f (.included target id) l ls
        (child.toPass mode (.included target) version idOf (r.insert target)) next := by
  cases hlines
  have hregistry : r.insertAll (target :: child.entered ++ w.entered) =
      ((r.insert target).insertAll child.entered).insertAll w.entered :=
    Registry.insertAll_append (r.insert target) child.entered w.entered
  have hbefore : f.write (l.beforeSplice mode) = writeLines idOf (l.beforeSplice mode) :=
    writeLines_of_unmarked markedFiles_beforeSplice
  have hafter : f.write (l.afterSplice mode f.ref) = writeLines idOf (l.afterSplice mode f.ref) :=
    OpenFile.write_eq hid markedFiles_afterSplice
  have htext : (OpenFile.included target id).text mode body.lines []
      (writeLines idOf (body.emit mode (.included target))) ++ [Text.newline] =
      writeLines idOf (frame mode (.included target) body.lines
        (body.emit mode (.included target))) := by
    rw [OpenFile.text_eq_render htarget _ rfl (body.version_not_mem_emit),
      writeLines_eq_render_append (by simp [frame])]
    rfl
  have hlog : (OpenFile.included target id).record (.enter f.name target l.number) ::
        child.events.map (Event.record idOf) ++
          (if endsOpen body.lines then
            [(OpenFile.included target id).record (.unclosed target)] else []) =
      (.enter f.name target l.number :: child.events ++
        if endsOpen body.lines then [Event.unclosed target] else []).map (Event.record idOf) := by
    rw [List.map_append, List.map_cons, OpenFile.record_eq htarget]
    split <;> rfl
  rw [toPass, entered_resume, hregistry]
  simp only [Pass.splice, toPass, hchild, Except.map, hnext, htext, hbefore, hafter,
    OpenFile.name_included, hlog]
  obtain ⟨events, result⟩ := w
  cases result with
  | error e => simp only [resume, Pass.after, Except.map, List.map_append]
  | ok rest =>
    simp only [resume, Pass.after, Except.map, List.map_append, Body.emit, writeLines_append]

end

/-! ### One pass is the walk -/

section
variable {language : Language} {mode : LineMode} {table : IncludeTable} {version : Text}
  {f : OpenFile} {path : List Text} {r : Registry}

/-- What a pass does at an include directive. -/
theorem pass_cons_splice {l : SourceLine} {rest : List SourceLine} {target : Text}
    (hrole : l.role = .splice target) (version : Option Text) :
    pass language mode table f path version r (l :: rest) =
      match table.find? target with
      | none => .fail r (.missing f.name target)
      | some text =>
        let settled := version.getD language.defaultVersion
        if target ∈ path then .fail r (.cycle f.name target (path ++ [target]))
        else
          .splice mode f (.included target (r.resolve target).1) l (sourceLines text)
            (pass language mode table (.included target (r.resolve target).1) (path ++ [target])
              (some settled) (r.resolve target).2 (sourceLines text))
            fun r => pass language mode table f path (some settled) r rest := by
  cases hfind : table.find? target with
  | none =>
    rw [pass]
    simp only [hrole]
    split
    · rfl
    · next text hsome =>
      rw [hfind] at hsome
      cases hsome
  | some text =>
    rw [pass]
    simp only [hrole]
    split
    · next hnone =>
      rw [hfind] at hnone
      cases hnone
    · next text' hsome =>
      rw [hfind] at hsome
      cases hsome
      rfl

/-- At a settled version a pass over lines is the walk over them. The registry `final` may be any
that grows out of what the walk enters. -/
theorem pass_eq_toPass {name : Text} {ls : List SourceLine} {final : Registry}
    (hname : f.name = name) (hid : final.HasId f.ref f.id)
    (hfinal : (r.insertAll (walk table version name path ls).entered).names <+: final.names) :
    pass language mode table f path (some version) r ls =
      (walk table version name path ls).toPass mode f.ref version final.idOf r := by
  fun_induction walk table version name path ls generalizing r f with
  | case1 name path =>
    rw [pass]
    rfl
  | case2 name path l rest hrole ih =>
    rw [Walk.toPass_keep hid.idOf_eq, ← ih hname hid hfinal, pass]
    simp only [hrole, Option.getD_some, if_true]
  | case3 name path l rest declared hrole hv =>
    rw [pass]
    simp only [hrole, Option.getD_some, if_neg hv, hname]
    rfl
  | case4 name path l rest target hrole hfind =>
    simp only [pass_cons_splice hrole, hfind, hname]
    rfl
  | case5 name path l rest target hrole content hfind hpath =>
    simp only [pass_cons_splice hrole, hfind, if_pos hpath, hname]
    rfl
  | case6 name path l rest target hrole content hfind hpath child e hchild =>
    rename_i ih
    have hchildId : final.HasId (.included target) (r.resolve target).1 :=
      Registry.hasId_resolve ((Registry.isPrefix_insertAll _ child.entered).trans hfinal)
    have hinner := @ih (.included target (r.resolve target).1) (r.resolve target).2 rfl hchildId
      hfinal
    cases hname
    simp only [pass_cons_splice hrole, hfind, if_neg hpath, Option.getD_some]
    rw [hinner]
    exact (Walk.toPass_abandon hchildId.idOf_eq l _ hchild _).symm
  | case7 name path l rest target hrole content hfind hpath child body hchild ihchild =>
    rename_i ih
    -- the names of the include join first, and then those of the lines below it
    have hrest : (((r.insert target).insertAll child.entered).insertAll
        (walk table version name path rest).entered).names <+: final.names := by
      rw [Walk.entered_resume] at hfinal
      rwa [← Registry.insertAll_append]
    have hchildFinal := (Registry.isPrefix_insertAll _ _).trans hrest
    have hchildId : final.HasId (.included target) (r.resolve target).1 :=
      Registry.hasId_resolve ((Registry.isPrefix_insertAll _ _).trans hchildFinal)
    have hinner := @ihchild (.included target (r.resolve target).1) (r.resolve target).2 rfl
      hchildId hchildFinal
    have hlines : body.lines = sourceLines content := (expands_of_walk hchild).lines_eq
    cases hname
    simp only [pass_cons_splice hrole, hfind, if_neg hpath, Option.getD_some]
    rw [hinner]
    symm
    apply Walk.toPass_resume hid.idOf_eq hchildId.idOf_eq l hchild hlines
    exact ih rfl hid hrest
  | case8 name path l rest hrole ih =>
    rw [Walk.toPass_keep hid.idOf_eq, ← ih hname hid hfinal, pass]
    simp only [hrole]
  | case9 name path l rest redeclares hrole ih =>
    rw [Walk.toPass_keep hid.idOf_eq, ← ih hname hid hfinal, pass]
    simp only [hrole, Option.getD_some]

/-- A pass finds the version of its tree on the way. -/
theorem pass_none (number : Nat) (inBlock : Bool) (raws : List Text) :
    pass language mode table f path none r (sourceLinesFrom number inBlock false raws) =
      pass language mode table f path
        (some (treeVersion language (sourceLinesFrom number inBlock false raws))) r
        (sourceLinesFrom number inBlock false raws) := by
  induction raws generalizing number inBlock with
  | nil =>
    rw [sourceLinesFrom, pass, pass]
    rfl
  | cons raw raws ih =>
    -- any other code settles the version for the default, and no line below it leads
    have hbelow (h : (SourceLine.ofRaw number inBlock false raw).role ≠ .silent) :=
      leadVersion?_below h raws
    rw [sourceLinesFrom_cons, treeVersion, leadVersion?, List.findSome?_cons,
      SourceLine.leadVersion?, ← leadVersion?]
    cases hrole : (SourceLine.ofRaw number inBlock false raw).role with
    | silent =>
      rw [pass, pass]
      simp only [hrole]
      exact congrArg _ (ih _ _)
    | lead declared =>
      rw [pass, pass]
      simp only [hrole]
      rfl
    | splice target =>
      rw [hrole] at hbelow
      simp only [pass_cons_splice hrole, hbelow (by simp), Option.getD_none, Option.getD_some]
    | ordinary redeclares =>
      rw [hrole] at hbelow
      rw [pass, pass]
      simp only [hrole, hbelow (by simp), Option.getD_none, Option.getD_some]

end

/-- **One pass is enough.** Whatever registry they start from, and whether they fail or not, the
pass that writes each marker with the id at hand and the assembly that renders at the end leave the
same registry, the same log and the same result behind. -/
theorem assembleOnePass_eq (language : Language) (mode : LineMode) (table : IncludeTable)
    (registry : Registry) (name text : Text) :
    assembleOnePass language mode table registry name text =
      assemble language mode table registry name text := by
  let version := treeVersion language (topLines text)
  let final := registry.insertAll (walkTop language table name text).entered
  have hpass : pass language mode table (.top name) [] none registry (topLines text) =
      (walkTop language table name text).toPass mode .top version final.idOf registry := by
    rw [topLines, sourceLines, pass_none]
    exact pass_eq_toPass rfl .top List.prefix_rfl
  rw [assembleOnePass, hpass, assemble, ← Walk.entered, Walk.toPass]
  cases hwalk : (walkTop language table name text).result with
  | error e => rfl
  | ok body =>
    have hlines : body.lines = topLines text := (expands_of_walk hwalk).lines_eq
    have htext : (OpenFile.top name).text mode (topLines text) [.version version]
        (writeLines final.idOf (body.emit mode .top)) =
        render final.idOf (body.assembly mode version) := by
      rw [OpenFile.text_eq_render rfl (topLines text) rfl body.version_not_mem_emit, ← hlines]
      rfl
    simp only [Except.map]
    rw [htext]

end ShaderSplice
