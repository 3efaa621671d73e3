import ShaderSplice.Assembly
import ShaderSplice.Proofs.Expansion
import ShaderSplice.Proofs.SourceLine
import Mathlib.Logic.Relation

/-!
# The graph of includes

Whether an assembly succeeds can be read off a graph: its nodes are include names, and `Includes
table a b` is an edge if the file that `a` stands for names `b` in an include directive. A walk is
a depth-first search of what is reachable from the source, and it fails exactly where the graph has
a defect:

    ∃ a, (assemble …).result = .ok a  ↔  every reachable name has a file,
                                         no reachable name reaches itself,
                                         every reachable file that opens with a version
                                           opens with the version of the tree

The walk judges a cycle by its path and the graph by paths of any length. Going down, every name
that can still be reached is off the path, which is the invariant on both sides of the proof.
-/

namespace ShaderSplice

/-- The file that `a` stands for has an include directive for `b`. -/
def Includes (table : IncludeTable) (a b : Text) : Prop :=
  ∃ text, table.find? a = some text ∧ b ∈ activeTargets text

/-- `name` is reached from one of `starts` by a chain of include directives. -/
def ReachableFrom (table : IncludeTable) (starts : List Text) (name : Text) : Prop :=
  ∃ start ∈ starts, Relation.ReflTransGen (Includes table) start name

/-- `name` is reached from a file with the given text. -/
def Reachable (table : IncludeTable) (text name : Text) : Prop :=
  ReachableFrom table (activeTargets text) name

variable {table : IncludeTable} {version : Text}

theorem ReachableFrom.cons {start name : Text} {starts : List Text}
    (h : ReachableFrom table starts name) : ReachableFrom table (start :: starts) name := by
  obtain ⟨a, ha, hpath⟩ := h
  exact ⟨a, List.mem_cons_of_mem _ ha, hpath⟩

theorem reachableFrom_target {l : SourceLine} {rest : List SourceLine} {target : Text}
    (hrole : l.role = .splice target) : ReachableFrom table (targets (l :: rest)) target :=
  ⟨target, mem_targets List.mem_cons_self hrole, .refl⟩

theorem ReachableFrom.of_tail {l : SourceLine} {rest : List SourceLine} {name : Text}
    (h : ReachableFrom table (targets rest) name) :
    ReachableFrom table (targets (l :: rest)) name := by
  cases htarget : l.target? with
  | none => rwa [targets, List.filterMap_cons_none htarget]
  | some target =>
    rw [targets, List.filterMap_cons_some htarget]
    exact h.cons

/-- What a file reaches is reached from its name by at least one step. -/
theorem Reachable.transGen {target text name : Text} (hfind : table.find? target = some text)
    (h : Reachable table text name) : Relation.TransGen (Includes table) target name := by
  obtain ⟨a, ha, hpath⟩ := h
  exact Relation.TransGen.head' ⟨text, hfind, ha⟩ hpath

theorem reachable_of_transGen {target text name : Text} (hfind : table.find? target = some text)
    (h : Relation.TransGen (Includes table) target name) : Reachable table text name := by
  obtain ⟨a, ⟨text', hfind', ha⟩, hpath⟩ := Relation.TransGen.head'_iff.1 h
  rw [hfind] at hfind'
  cases hfind'
  exact ⟨a, ha, hpath⟩

/-- What the target of an include directive reaches is reached from the directive. -/
theorem ReachableFrom.of_child {l : SourceLine} {rest : List SourceLine} {target text name : Text}
    (hrole : l.role = .splice target) (hfind : table.find? target = some text)
    (h : ReachableFrom table (targets (sourceLines text)) name) :
    ReachableFrom table (targets (l :: rest)) name := by
  rw [targets_sourceLines] at h
  have hbelow : Relation.TransGen (Includes table) target name := Reachable.transGen hfind h
  exact ⟨target, mem_targets List.mem_cons_self hrole, hbelow.to_reflTransGen⟩

/-! ### A defect at a name -/

theorem IncludeTable.find?_isSome_iff {table : IncludeTable} {name : Text} :
    (table.find? name).isSome ↔ name ∈ table.names := by
  constructor
  · intro h
    obtain ⟨text, htext⟩ := Option.isSome_iff_exists.1 h
    exact IncludeTable.mem_names_of_find? htext
  · intro h
    rw [Option.isSome_iff_ne_none, IncludeTable.find?, Ne, List.lookup_eq_none_iff]
    intro hnone
    obtain ⟨entry, hentry, rfl⟩ := List.mem_map.1 h
    simpa using hnone entry hentry

/-- A name at which no walk fails: it has a file, the file opens with the right version, and the
name does not lead back to itself. -/
structure Clean (table : IncludeTable) (version name : Text) : Prop where
  present : (table.find? name).isSome
  version_eq : ∀ text v, table.find? name = some text → openingVersion? text = some v → v = version
  acyclic : ¬ Relation.TransGen (Includes table) name name

theorem openingVersion?_eq_of_lead {text : Text}
    (h : ∀ l ∈ sourceLines text, ∀ v, l.leadVersion? = some v → v = version) {v : Text}
    (hv : openingVersion? text = some v) : v = version := by
  rw [← leadVersion?_sourceLines] at hv
  obtain ⟨l, hl, hlead⟩ := List.exists_of_findSome?_eq_some hv
  exact h l hl v hlead

theorem lead_eq_of_openingVersion? {text : Text}
    (h : ∀ v, openingVersion? text = some v → v = version) :
    ∀ l ∈ sourceLines text, ∀ v, l.leadVersion? = some v → v = version := by
  intro l hl v hv
  apply h
  rw [← leadVersion?_sourceLines]
  exact leadVersion?_of_mem hl hv

/-! ### A walk that succeeds meets no defect -/

theorem Expands.clean {path : List Text} {ls : List SourceLine} {body : Body}
    (h : Expands table version path ls body) :
    ∀ name, ReachableFrom table (targets ls) name → name ∉ path ∧ Clean table version name := by
  induction h with
  | nil =>
    rintro name ⟨a, ha, -⟩
    simp [targets] at ha
  | keep htarget _ _ ih =>
    intro name hname
    rw [targets, List.filterMap_cons_none htarget] at hname
    exact ih name hname
  | @splice path l rest target text child body hrole hfind hpath hchild _ ihchild ih =>
    have htarget := SourceLine.target?_eq_some_iff.2 hrole
    rw [targets_sourceLines] at ihchild
    rintro name ⟨a, ha, hreach⟩
    rw [targets, List.filterMap_cons_some htarget, List.mem_cons] at ha
    rcases ha with rfl | ha
    · rcases hreach.cases_head with rfl | ⟨b, hb, hreach⟩
      · refine ⟨hpath, by simp [hfind], ?_, ?_⟩
        · intro text' v htext' hv
          rw [hfind] at htext'
          cases htext'
          exact openingVersion?_eq_of_lead hchild.lead_eq hv
        · -- a way back to the name would be met below it, where the name is on the path
          intro hcycle
          have hback := (ihchild a (reachable_of_transGen hfind hcycle)).1
          simp at hback
      · have hdown := ihchild name (reachable_of_transGen hfind (.head' hb hreach))
        exact ⟨fun hmem => hdown.1 (List.mem_append_left _ hmem), hdown.2⟩
    · exact ih name ⟨a, ha, hreach⟩

/-! ### Without a defect a walk succeeds -/

/-- The lines `ls`, to which `path` leads, lead to no defect. -/
structure Viable (table : IncludeTable) (version : Text) (path : List Text)
    (ls : List SourceLine) : Prop where
  lead_eq : ∀ l ∈ ls, ∀ v, l.leadVersion? = some v → v = version
  clean : ∀ name, ReachableFrom table (targets ls) name → name ∉ path ∧ Clean table version name

theorem Viable.tail {path : List Text} {l : SourceLine} {rest : List SourceLine}
    (h : Viable table version path (l :: rest)) : Viable table version path rest where
  lead_eq := fun l' hl' => h.lead_eq l' (List.mem_cons_of_mem _ hl')
  clean := fun name hname => h.clean name hname.of_tail

theorem Viable.clean_target {path : List Text} {l : SourceLine} {rest : List SourceLine}
    {target : Text} (h : Viable table version path (l :: rest)) (hrole : l.role = .splice target) :
    target ∉ path ∧ Clean table version target :=
  h.clean target (reachableFrom_target hrole)

/-- What is below an include directive is off the path that goes through the directive. -/
theorem Viable.child {path : List Text} {l : SourceLine} {rest : List SourceLine}
    {target text : Text} (h : Viable table version path (l :: rest))
    (hrole : l.role = .splice target) (hfind : table.find? target = some text) :
    Viable table version (path ++ [target]) (sourceLines text) where
  lead_eq := by
    apply lead_eq_of_openingVersion?
    intro v hv
    exact (h.clean_target hrole).2.version_eq text v hfind hv
  clean := by
    intro name hname
    obtain ⟨hpath, hclean⟩ := h.clean name (hname.of_child hrole hfind)
    rw [targets_sourceLines] at hname
    have hbelow : Relation.TransGen (Includes table) target name := Reachable.transGen hfind hname
    refine ⟨?_, hclean⟩
    intro hmem
    rcases List.mem_append.1 hmem with hmem | hmem
    · exact hpath hmem
    · -- below `target` again: that would be a cycle through it
      rw [List.mem_singleton.1 hmem] at hbelow
      exact (h.clean_target hrole).2.acyclic hbelow

theorem Viable.exists_walk_eq_ok {name : Text} {path : List Text} {ls : List SourceLine}
    (h : Viable table version path ls) :
    ∃ body, (walk table version name path ls).result = .ok body := by
  have hkeep (l : SourceLine) {next : Walk} (hnext : ∃ body, next.result = .ok body) :
      ∃ body, (Walk.keep l next).result = .ok body := by
    obtain ⟨b, hb⟩ := hnext
    exact ⟨_, Walk.keep_eq_ok_iff.2 ⟨b, hb, rfl⟩⟩
  -- the failing branches are those that the graph rules out
  fun_induction walk table version name path ls with
  | case1 name path => exact ⟨.nil, rfl⟩
  | case2 name path l rest hrole ih => exact hkeep l (ih h.tail)
  | case3 name path l rest declared hrole hv =>
    have hlead := SourceLine.leadVersion?_eq_some_iff.2 hrole
    exact absurd (h.lead_eq l List.mem_cons_self declared hlead) hv
  | case4 name path l rest target hrole hfind =>
    have hpresent := (h.clean_target hrole).2.present
    rw [hfind] at hpresent
    cases hpresent
  | case5 name path l rest target hrole text hfind hpath =>
    exact absurd hpath (h.clean_target hrole).1
  | case6 name path l rest target hrole text hfind hpath child f hchild =>
    rename_i ih
    obtain ⟨b, hb⟩ := ih (h.child hrole hfind)
    rw [show child.result = .ok b from hb] at hchild
    cases hchild
  | case7 name path l rest target hrole text hfind hpath child b hchild ihchild =>
    rename_i ih
    obtain ⟨b', hb'⟩ := ih h.tail
    exact ⟨_, Walk.resume_eq_ok_iff.2 ⟨b', hb', rfl⟩⟩
  | case8 name path l rest hrole ih => exact hkeep l (ih h.tail)
  | case9 name path l rest redeclares hrole ih => exact hkeep l (ih h.tail)

/-! ### Assemblies -/

/-- The version of the tree under a source: the one that the source opens with, or the default. -/
theorem treeVersion_topLines (language : Language) (text : Text) :
    treeVersion language (topLines text) =
      (openingVersion? text.trimEnd).getD language.defaultVersion := by
  rw [treeVersion, topLines, leadVersion?_sourceLines]

/-- It is spelled as a version. -/
theorem versionSpelling_treeVersion (language : Language) (text : Text) :
    VersionSpelling (treeVersion language (topLines text)) := by
  rw [treeVersion_topLines]
  cases h : openingVersion? text.trimEnd with
  | none =>
    have hdefault : ∀ isES : Bool, Text.ofString (if isES then "100" else "110") ≠ [] ∧
        (Text.ofString (if isES then "100" else "110")).all isDigitByte = true := by decide
    obtain ⟨hne, hdigits⟩ := hdefault language.isES
    exact .bare hne (List.all_eq_true.1 hdigits)
  | some v =>
    obtain ⟨code, -, hcode⟩ := Option.bind_eq_some_iff.1 h
    exact versionSpelling_of_declaredVersion? hcode

theorem bytes_of_treeVersion (language : Language) (text : Text) :
    ∀ b ∈ treeVersion language (topLines text), isWordByte b = true ∨ b = Text.space :=
  (versionSpelling_treeVersion language text).bytes

theorem assemble_eq_ok_iff {language : Language} {mode : LineMode} {registry : Registry}
    {name text : Text} {a : Assembly} :
    (assemble language mode table registry name text).result = .ok a ↔
      ∃ body, (walkTop language table name text).result = .ok body ∧
        a = { name
              version := treeVersion language (topLines text)
              source := render
                (assemble language mode table registry name text).registry.idOf
                (body.assembly mode (treeVersion language (topLines text))) } := by
  simp only [assemble]
  cases (walkTop language table name text).result <;> simp [Except.map, eq_comm]

theorem exists_walkTop_eq_ok_iff {language : Language} {name text : Text} :
    (∃ body, (walkTop language table name text).result = .ok body) ↔
      ∀ n, Reachable table text.trimEnd n →
        Clean table (treeVersion language (topLines text)) n := by
  constructor
  · rintro ⟨body, hbody⟩ n hn
    have hexp := expands_of_walk hbody
    rw [Reachable, ← targets_sourceLines] at hn
    exact (hexp.clean n hn).2
  · intro h
    refine Viable.exists_walk_eq_ok ⟨?_, ?_⟩
    · apply lead_eq_of_openingVersion?
      intro v hv
      rw [treeVersion_topLines, hv, Option.getD_some]
    · intro n hn
      rw [topLines, targets_sourceLines] at hn
      exact ⟨by simp, h n hn⟩

/-- A source assembles if its includes are there, include nothing and open with no version. -/
theorem exists_assemble_of_leaves {language : Language} {mode : LineMode} {registry : Registry}
    {name text : Text}
    (h : ∀ n ∈ activeTargets text.trimEnd, (table.find? n).any (fun content =>
      activeTargets content = [] ∧ openingVersion? content = none) = true) :
    ∃ a, (assemble language mode table registry name text).result = .ok a := by
  have hclean : ∀ n, Reachable table text.trimEnd n →
      Clean table (treeVersion language (topLines text)) n := by
    rintro n ⟨start, hstart, hpath⟩
    obtain ⟨content, hfind, hleaf⟩ := (Option.any_eq_true _ _).1 (h start hstart)
    obtain ⟨hnone, hversion⟩ := of_decide_eq_true hleaf
    have hedge : ∀ m, ¬ Includes table start m := by
      rintro m ⟨text', hfind', hm⟩
      rw [hfind] at hfind'
      cases hfind'
      rw [hnone] at hm
      simp at hm
    obtain rfl : start = n := by
      rcases Relation.ReflTransGen.cases_head hpath with hn | ⟨m, hm, -⟩
      · exact hn
      · exact absurd hm (hedge m)
    refine ⟨by rw [hfind]; rfl, ?_, ?_⟩
    · intro text' v hfind' hv
      rw [hfind] at hfind'
      cases hfind'
      rw [hversion] at hv
      cases hv
    · intro hcycle
      obtain ⟨m, hm, -⟩ := Relation.TransGen.head'_iff.1 hcycle
      exact hedge m hm
  obtain ⟨body, hbody⟩ := exists_walkTop_eq_ok_iff.2 hclean
  exact ⟨_, assemble_eq_ok_iff.2 ⟨body, hbody, rfl⟩⟩

/-- **An assembly succeeds exactly when the graph under its source has no defect**, whatever the
source itself is called, and then it has the version of its tree. -/
theorem assemble_succeeds_iff (language : Language) (mode : LineMode) (table : IncludeTable)
    (registry : Registry) (name text : Text) :
    ((∃ a, (assemble language mode table registry name text).result = .ok a) ↔
      (∀ n, Reachable table text.trimEnd n → n ∈ table.names) ∧
      (∀ n, Reachable table text.trimEnd n → ¬ Relation.TransGen (Includes table) n n) ∧
      (∀ n content v, Reachable table text.trimEnd n → table.find? n = some content →
        openingVersion? content = some v →
        v = (openingVersion? text.trimEnd).getD language.defaultVersion)) ∧
    ∀ a, (assemble language mode table registry name text).result = .ok a →
      a.version = (openingVersion? text.trimEnd).getD language.defaultVersion := by
  rw [← treeVersion_topLines]
  constructor
  · have hwalk : (∃ a, (assemble language mode table registry name text).result = .ok a) ↔
        ∃ body, (walkTop language table name text).result = .ok body := by
      constructor
      · rintro ⟨a, ha⟩
        obtain ⟨body, hbody, -⟩ := assemble_eq_ok_iff.1 ha
        exact ⟨body, hbody⟩
      · rintro ⟨body, hbody⟩
        exact ⟨_, assemble_eq_ok_iff.2 ⟨body, hbody, rfl⟩⟩
    rw [hwalk, exists_walkTop_eq_ok_iff]
    constructor
    · intro h
      refine ⟨fun n hn => ?_, fun n hn => (h n hn).acyclic,
        fun n content v hn => (h n hn).version_eq content v⟩
      exact IncludeTable.find?_isSome_iff.1 (h n hn).present
    · rintro ⟨hpresent, hacyclic, hversion⟩ n hn
      exact ⟨IncludeTable.find?_isSome_iff.2 (hpresent n hn),
        fun content v => hversion n content v hn, hacyclic n hn⟩
  · intro a ha
    obtain ⟨body, -, rfl⟩ := assemble_eq_ok_iff.1 ha
    rfl

end ShaderSplice
