import ShaderSplice.Assembly.Walk

/-!
# When a walk comes to its end

`Expands table version path ls body` tells, line by line, what a walk that does not fail has met:
every version that leads a file is the version of the tree, and every include directive names an
entry of the table that is not on the path, whose own lines expand to the body that is spliced in.

    (walk table version name path ls).result = .ok body  ↔  Expands table version path ls body

What holds of an assembly is proved by induction on it, with one case for a line that stays and one
for an include directive.
-/

namespace ShaderSplice

/-- The lines `ls` of a file to which `path` leads have the body `body`. -/
inductive Expands (table : IncludeTable) (version : Text) :
    List Text → List SourceLine → Body → Prop
  | nil {path : List Text} : Expands table version path [] .nil
  | keep {path : List Text} {l : SourceLine} {rest : List SourceLine} {body : Body} :
      l.target? = none → (∀ v, l.leadVersion? = some v → v = version) →
      Expands table version path rest body → Expands table version path (l :: rest) (.keep l body)
  | splice {path : List Text} {l : SourceLine} {rest : List SourceLine} {target text : Text}
      {child body : Body} :
      l.role = .splice target → table.find? target = some text → target ∉ path →
      Expands table version (path ++ [target]) (sourceLines text) child →
      Expands table version path rest body →
      Expands table version path (l :: rest) (.splice l target child body)

variable {table : IncludeTable} {version : Text}

theorem Walk.keep_eq_ok_iff {l : SourceLine} {next : Walk} {body : Body} :
    (Walk.keep l next).result = .ok body ↔ ∃ b, next.result = .ok b ∧ body = .keep l b := by
  rw [Walk.keep]
  cases next.result <;> simp [Except.map, eq_comm]

theorem Walk.resume_eq_ok_iff {source : Text} {l : SourceLine} {target : Text}
    {events : List Event} {child : Body} {next : Walk} {body : Body} :
    (Walk.resume source l target events child next).result = .ok body ↔
      ∃ b, next.result = .ok b ∧ body = .splice l target child b := by
  rw [Walk.resume]
  cases next.result <;> simp [Except.map, eq_comm]

/-- A line that is no include directive stays, and a version that it leads with is the tree's. -/
theorem Expands.keep_of_role {path : List Text} {l : SourceLine} {rest : List SourceLine}
    {body : Body} (htarget : l.target? = none) (hlead : l.leadVersion? = none)
    (h : Expands table version path rest body) :
    Expands table version path (l :: rest) (.keep l body) := by
  refine .keep htarget ?_ h
  intro v hv
  rw [hlead] at hv
  cases hv

theorem expands_of_walk {name : Text} {path : List Text} {ls : List SourceLine} {body : Body}
    (h : (walk table version name path ls).result = .ok body) :
    Expands table version path ls body := by
  fun_induction walk table version name path ls generalizing body with
  | case1 name path => cases h; exact .nil
  | case2 name path l rest hrole ih =>
    obtain ⟨b, hb, rfl⟩ := Walk.keep_eq_ok_iff.1 h
    refine .keep (by rw [SourceLine.target?, hrole]) ?_ (ih hb)
    intro v hv
    rw [SourceLine.leadVersion?, hrole] at hv
    exact (Option.some.inj hv).symm
  | case3 name path l rest declared hrole hv => cases h
  | case4 name path l rest target hrole hfind => cases h
  | case5 name path l rest target hrole text hfind hpath => cases h
  | case6 name path l rest target hrole text hfind hpath child f => cases h
  | case7 name path l rest target hrole text hfind hpath child b hchild ihchild =>
    rename_i ih
    obtain ⟨b', hb', rfl⟩ := Walk.resume_eq_ok_iff.1 h
    exact .splice hrole hfind hpath (ihchild hchild) (ih hb')
  | case8 name path l rest hrole ih =>
    obtain ⟨b, hb, rfl⟩ := Walk.keep_eq_ok_iff.1 h
    exact .keep_of_role (by rw [SourceLine.target?, hrole]) (by rw [SourceLine.leadVersion?, hrole])
      (ih hb)
  | case9 name path l rest redeclares hrole ih =>
    obtain ⟨b, hb, rfl⟩ := Walk.keep_eq_ok_iff.1 h
    exact .keep_of_role (by rw [SourceLine.target?, hrole]) (by rw [SourceLine.leadVersion?, hrole])
      (ih hb)

/-! ### One line of a walk -/

theorem walk_cons_of_keep {source : Text} {path : List Text} {l : SourceLine}
    {rest : List SourceLine} (htarget : l.target? = none)
    (hlead : ∀ v, l.leadVersion? = some v → v = version) :
    walk table version source path (l :: rest) = .keep l (walk table version source path rest) := by
  rw [walk]
  rw [SourceLine.target?] at htarget
  rw [SourceLine.leadVersion?] at hlead
  cases hrole : l.role with
  | silent => rfl
  | lead v =>
    rw [hrole] at hlead
    exact if_pos (hlead v rfl)
  | splice target =>
    rw [hrole] at htarget
    cases htarget
  | ordinary redeclares => rfl

theorem walk_cons_of_lead {source declared : Text} {path : List Text} {l : SourceLine}
    {rest : List SourceLine} (hrole : l.role = .lead declared) (hne : declared ≠ version) :
    walk table version source path (l :: rest) = .fail (.mismatch source declared version) := by
  rw [walk]
  simp only [hrole, if_neg hne]

theorem walk_cons_of_splice {source target content : Text} {path : List Text} {l : SourceLine}
    {rest : List SourceLine} {child : Body} (hrole : l.role = .splice target)
    (hfind : table.find? target = some content) (hpath : target ∉ path)
    (hchild : (walk table version target (path ++ [target]) (sourceLines content)).result =
      .ok child) :
    walk table version source path (l :: rest) =
      .resume source l target
        (walk table version target (path ++ [target]) (sourceLines content)).events child
        (walk table version source path rest) := by
  rw [walk]
  simp only [hrole]
  split
  · next hnone =>
    rw [hfind] at hnone
    cases hnone
  · next text htext =>
    rw [hfind] at htext
    cases htext
    simp only [if_neg hpath, hchild]

theorem walk_cons_of_abandon {source target content : Text} {path : List Text} {l : SourceLine}
    {rest : List SourceLine} {f : Failure} (hrole : l.role = .splice target)
    (hfind : table.find? target = some content) (hpath : target ∉ path)
    (hchild : (walk table version target (path ++ [target]) (sourceLines content)).result =
      .error f) :
    (walk table version source path (l :: rest)).result = .error (f.inside target) := by
  rw [walk]
  simp only [hrole]
  split
  · next hnone =>
    rw [hfind] at hnone
    cases hnone
  · next text htext =>
    rw [hfind] at htext
    cases htext
    simp only [if_neg hpath, hchild]
    rfl

theorem walk_cons_of_cycle {source target : Text} {path : List Text} {l : SourceLine}
    {rest : List SourceLine} (hrole : l.role = .splice target)
    (hfind : (table.find? target).isSome) (hpath : target ∈ path) :
    walk table version source path (l :: rest) =
      .fail (.cycle source target (path ++ [target])) := by
  rw [walk]
  simp only [hrole]
  split
  · next hnone =>
    rw [hnone] at hfind
    cases hfind
  · exact if_pos hpath

theorem Expands.walk_eq_ok {path : List Text} {ls : List SourceLine} {body : Body}
    (h : Expands table version path ls body) (source : Text) :
    (walk table version source path ls).result = .ok body := by
  induction h generalizing source with
  | nil =>
    rw [walk]
  | @keep path l rest body htarget hlead _ ih =>
    rw [walk_cons_of_keep htarget hlead, Walk.keep_eq_ok_iff]
    exact ⟨body, ih source, rfl⟩
  | @splice path l rest target text child body hrole hfind hpath _ _ ihchild ih =>
    rw [walk_cons_of_splice hrole hfind hpath (ihchild target), Walk.resume_eq_ok_iff]
    exact ⟨body, ih source, rfl⟩

/-! ### What expands -/

/-- A body has the lines of its file. -/
theorem Expands.lines_eq {path : List Text} {ls : List SourceLine} {body : Body}
    (h : Expands table version path ls body) : body.lines = ls := by
  induction h with
  | nil => rfl
  | keep _ _ _ ih => rw [Body.lines, ih]
  | splice _ _ _ _ _ _ ih => rw [Body.lines, ih]

/-- A file expands also if fewer names are on the path. -/
theorem Expands.of_subset {path path' : List Text} {ls : List SourceLine} {body : Body}
    (h : Expands table version path ls body) (hsub : path' ⊆ path) :
    Expands table version path' ls body := by
  induction h generalizing path' with
  | nil => exact .nil
  | keep htarget hlead _ ih => exact .keep htarget hlead (ih hsub)
  | splice hrole hfind hpath _ _ ihchild ih =>
    refine .splice hrole hfind (fun hmem => hpath (hsub hmem)) (ihchild ?_) (ih hsub)
    exact List.append_subset.2
      ⟨List.subset_append_of_subset_left _ hsub, List.subset_append_right _ _⟩

theorem Expands.lead_eq {path : List Text} {ls : List SourceLine} {body : Body}
    (h : Expands table version path ls body) :
    ∀ l ∈ ls, ∀ v, l.leadVersion? = some v → v = version := by
  induction h with
  | nil => intro l hl; simp at hl
  | keep _ hlead _ ih =>
    intro l hl
    rcases List.mem_cons.1 hl with rfl | hl
    · exact hlead
    · exact ih l hl
  | splice hrole _ _ _ _ _ ih =>
    intro l hl
    rcases List.mem_cons.1 hl with rfl | hl
    · intro v hv
      rw [SourceLine.leadVersion?, hrole] at hv
      cases hv
    · exact ih l hl

end ShaderSplice
