import ShaderSplice.Proofs.Association
import ShaderSplice.Proofs.IncludeGraph

/-!
# What an assembly reads of its table

An include table is asked for the names that include directives give, and for nothing else. The
names that come up are those that the source reaches in the graph of includes, so two tables that
agree on these are the same to an assembly:

    agree on the reachable names ──▶ same walk ──▶ same registry, same records, same result

Of each text it sees the source lines only, so the same holds of tables that give texts of the same
lines (`ReadAlikeFrom`).

A cycle or a missing file changes nothing about this: the walk stops there, and has asked only for
names that are reachable. An entry that is not reachable can be added, replaced or taken away.
-/

namespace ShaderSplice

variable {table table' : IncludeTable} {version : Text}

/-! ### Agreement below a line -/

/-- The tables give the same text, or none, to every name that is reached from `starts` in
`table`. -/
def AgreeFrom (table table' : IncludeTable) (starts : List Text) : Prop :=
  ∀ name, ReachableFrom table starts name → table'.find? name = table.find? name

/-- The tables give the same source lines, or none, to every name that is reached from `starts` in
`table`. That is all that a walk sees of a text. -/
def ReadAlikeFrom (table table' : IncludeTable) (starts : List Text) : Prop :=
  ∀ name, ReachableFrom table starts name →
    (table'.find? name).map sourceLines = (table.find? name).map sourceLines

theorem AgreeFrom.readAlike {starts : List Text} (h : AgreeFrom table table' starts) :
    ReadAlikeFrom table table' starts := by
  intro name hname
  rw [h name hname]

theorem ReadAlikeFrom.tail {l : SourceLine} {rest : List SourceLine}
    (h : ReadAlikeFrom table table' (targets (l :: rest))) :
    ReadAlikeFrom table table' (targets rest) :=
  fun name hname => h name hname.of_tail

/-- The tables are alike on the target of an include directive. -/
theorem ReadAlikeFrom.find?_eq {l : SourceLine} {rest : List SourceLine} {target : Text}
    (h : ReadAlikeFrom table table' (targets (l :: rest))) (hrole : l.role = .splice target) :
    (table'.find? target).map sourceLines = (table.find? target).map sourceLines :=
  h target (reachableFrom_target hrole)

theorem ReadAlikeFrom.find?_eq_none {l : SourceLine} {rest : List SourceLine} {target : Text}
    (h : ReadAlikeFrom table table' (targets (l :: rest))) (hrole : l.role = .splice target)
    (hfind : table.find? target = none) : table'.find? target = none := by
  have hlines := h.find?_eq hrole
  rwa [hfind, Option.map_none, Option.map_eq_none_iff] at hlines

theorem ReadAlikeFrom.exists_find?_eq {l : SourceLine} {rest : List SourceLine}
    {target content : Text} (h : ReadAlikeFrom table table' (targets (l :: rest)))
    (hrole : l.role = .splice target) (hfind : table.find? target = some content) :
    ∃ content', table'.find? target = some content' ∧
      sourceLines content' = sourceLines content := by
  have hlines := h.find?_eq hrole
  rwa [hfind, Option.map_some, Option.map_eq_some_iff] at hlines

/-- And on what is reached from the file that the target stands for. -/
theorem ReadAlikeFrom.child {l : SourceLine} {rest : List SourceLine} {target content : Text}
    (h : ReadAlikeFrom table table' (targets (l :: rest))) (hrole : l.role = .splice target)
    (hfind : table.find? target = some content) :
    ReadAlikeFrom table table' (targets (sourceLines content)) :=
  fun name hname => h name (hname.of_child hrole hfind)

/-! ### Walks -/

/-- What a walk does at an include directive. -/
theorem walk_cons_splice {name target : Text} {path : List Text} {l : SourceLine}
    {rest : List SourceLine} (hrole : l.role = .splice target) :
    walk table version name path (l :: rest) =
      match table.find? target with
      | none => .fail (.missing name target)
      | some content =>
        let child := walk table version target (path ++ [target]) (sourceLines content)
        if target ∈ path then .fail (.cycle name target (path ++ [target]))
        else
          match child.result with
          | .error f => .abandon name l target child.events f
          | .ok body =>
            .resume name l target child.events body (walk table version name path rest) := by
  cases hfind : table.find? target with
  | none =>
    rw [walk]
    simp only [hrole]
    split
    · rfl
    · next content hsome =>
      rw [hfind] at hsome
      cases hsome
  | some content =>
    rw [walk]
    simp only [hrole]
    split
    · next hnone =>
      rw [hfind] at hnone
      cases hnone
    · next content' hsome =>
      rw [hfind] at hsome
      cases hsome
      rfl

/-- Tables that are alike on what is reachable are walked in the same way, however the walk
ends. -/
theorem walk_congr {name : Text} {path : List Text} {ls : List SourceLine}
    (h : ReadAlikeFrom table table' (targets ls)) :
    walk table' version name path ls = walk table version name path ls := by
  have hkeep {name : Text} {path : List Text} {l : SourceLine} {rest : List SourceLine}
      (htarget : l.target? = none) (hlead : ∀ v, l.leadVersion? = some v → v = version)
      (ih : ReadAlikeFrom table table' (targets rest) →
        walk table' version name path rest = walk table version name path rest)
      (h : ReadAlikeFrom table table' (targets (l :: rest))) :
      walk table' version name path (l :: rest) =
        .keep l (walk table version name path rest) := by
    rw [walk_cons_of_keep htarget hlead, ih h.tail]
  fun_induction walk table version name path ls with
  | case1 name path => rw [walk]
  | case2 name path l rest hrole ih =>
    apply hkeep (by simp [SourceLine.target?, hrole]) _ ih h
    simp [SourceLine.leadVersion?, hrole]
  | case3 name path l rest declared hrole hv => exact walk_cons_of_lead hrole hv
  | case4 name path l rest target hrole hfind =>
    simp only [walk_cons_splice hrole, h.find?_eq_none hrole hfind]
  | case5 name path l rest target hrole content hfind hpath =>
    obtain ⟨content', hfind', -⟩ := h.exists_find?_eq hrole hfind
    simp only [walk_cons_splice hrole, hfind', if_pos hpath]
  | case6 name path l rest target hrole content hfind hpath child f hchild =>
    rename_i ih
    obtain ⟨content', hfind', hlines⟩ := h.exists_find?_eq hrole hfind
    have hresult : (walk table version target (path ++ [target]) (sourceLines content)).result =
      .error f := hchild
    simp only [walk_cons_splice hrole, hfind', hlines, if_neg hpath, ih (h.child hrole hfind),
      hresult, child]
  | case7 name path l rest target hrole content hfind hpath child body hchild ihchild =>
    rename_i ih
    obtain ⟨content', hfind', hlines⟩ := h.exists_find?_eq hrole hfind
    have hresult : (walk table version target (path ++ [target]) (sourceLines content)).result =
      .ok body := hchild
    simp only [walk_cons_splice hrole, hfind', hlines, if_neg hpath,
      ihchild (h.child hrole hfind), ih h.tail, hresult, child]
  | case8 name path l rest hrole ih =>
    apply hkeep (by simp [SourceLine.target?, hrole]) _ ih h
    simp [SourceLine.leadVersion?, hrole]
  | case9 name path l rest redeclares hrole ih =>
    apply hkeep (by simp [SourceLine.target?, hrole]) _ ih h
    simp [SourceLine.leadVersion?, hrole]

/-! ### Assemblies -/

/-- What is reachable is the same in both tables. -/
theorem AgreeFrom.reachableFrom_iff {starts : List Text} (h : AgreeFrom table table' starts)
    {name : Text} : ReachableFrom table' starts name ↔ ReachableFrom table starts name := by
  constructor
  · rintro ⟨start, hstart, hpath⟩
    refine ⟨start, hstart, ?_⟩
    induction hpath with
    | refl => exact .refl
    | tail _ hedge ih =>
      obtain ⟨content, hfind, hmem⟩ := hedge
      rw [h _ ⟨start, hstart, ih⟩] at hfind
      exact ih.tail ⟨content, hfind, hmem⟩
  · rintro ⟨start, hstart, hpath⟩
    refine ⟨start, hstart, ?_⟩
    induction hpath with
    | refl => exact .refl
    | tail hbefore hedge ih =>
      obtain ⟨content, hfind, hmem⟩ := hedge
      rw [← h _ ⟨start, hstart, hbefore⟩] at hfind
      exact ih.tail ⟨content, hfind, hmem⟩

/-- Sources of the same lines, and tables that are alike below them, give the same outcome. -/
theorem ReadAlikeFrom.assemble_eq {text text' : Text} (htop : topLines text' = topLines text)
    (h : ReadAlikeFrom table table' (activeTargets text.trimEnd)) (language : Language)
    (mode : LineMode) (registry : Registry) (name : Text) :
    assemble language mode table' registry name text' =
      assemble language mode table registry name text := by
  have hwalk : walkTop language table' name text' = walkTop language table name text := by
    rw [walkTop, walkTop, htop]
    apply walk_congr
    rwa [topLines, targets_sourceLines]
  simp only [assemble, hwalk, htop]

theorem AgreeFrom.assemble_eq {name text : Text}
    (h : AgreeFrom table table' (activeTargets text.trimEnd)) (language : Language)
    (mode : LineMode) (registry : Registry) :
    assemble language mode table' registry name text =
      assemble language mode table registry name text :=
  h.readAlike.assemble_eq rfl language mode registry name

/-- **Only reachable includes matter.** Two tables that agree on the names that a source reaches,
where a name may be missing from both, give the same outcome: the same result or failure, the same
registry and the same records, in either mode and from every registry; and the source reaches the
same names in both. So an entry that is not reached may be added, replaced or taken away. -/
theorem assemble_reads_reachable_only (language : Language) (mode : LineMode)
    (table : IncludeTable) (registry : Registry) (name text : Text) :
    (∀ table' : IncludeTable,
      (∀ n, Reachable table text.trimEnd n → table'.find? n = table.find? n) →
      assemble language mode table' registry name text =
          assemble language mode table registry name text ∧
        ∀ n, Reachable table' text.trimEnd n ↔ Reachable table text.trimEnd n) ∧
    ∀ n, ¬ Reachable table text.trimEnd n →
      (∀ content, assemble language mode (table.insert n content) registry name text =
        assemble language mode table registry name text) ∧
      assemble language mode (table.erase n) registry name text =
        assemble language mode table registry name text := by
  refine ⟨?_, ?_⟩
  · intro table' h
    exact ⟨AgreeFrom.assemble_eq h language mode registry, fun n => AgreeFrom.reachableFrom_iff h⟩
  · intro n hn
    have hne {m : Text} (hm : Reachable table text.trimEnd m) : m ≠ n := by
      rintro rfl
      exact hn hm
    constructor
    · intro content
      apply AgreeFrom.assemble_eq
      intro m hm
      rw [IncludeTable.find?_insert, if_neg (hne hm)]
    · apply AgreeFrom.assemble_eq
      intro m hm
      rw [IncludeTable.find?_erase, if_neg (hne hm)]

end ShaderSplice
