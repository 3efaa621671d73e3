import ShaderSplice.Proofs.Course

/-!
# Which names an assembly registers

An assembly comes to include directives in document order, until it has come to all of them or to
the first defect (`Reached`). The targets of these directives are what it resolves, so the registry
afterwards can be told without running anything:

    names after  =  names before  ++  first occurrences of new targets, in document order

Only a target without a file is passed over. When an assembly fails, the files on its chain have
been registered all the same; when it succeeds, everything reachable has been.
-/

namespace ShaderSplice

/-- The directives that an assembly of `text` comes to, in document order: all of them if it
succeeds, and otherwise those up to the first defect. -/
structure Reached (table : IncludeTable) (version top text : Text)
    (result : Except Failure Assembly) (visits : List Visit) : Prop where
  sorted : visits.Pairwise fun v w => v.site < w.site
  all : ∀ a, result = .ok a → ∀ v, v ∈ visits ↔ Occurs table text v
  upTo : ∀ f, result = .error f → ∃ site, FirstDefect table version top text site f ∧
    ∀ v, v ∈ visits ↔ Occurs table text v ∧ v.site ≤ site

/-- The names of a registry keep their places and their ids in another. -/
structure Registry.Keeps (r r' : Registry) : Prop where
  names : r.names <+: r'.names
  ids : ∀ name id, r.find? name = some id → r'.find? name = some id
  meanings : ∀ id name, r.name? id = some name → r'.name? id = some name

theorem Registry.keeps_after (r : Registry) (requests : List Request) :
    r.Keeps (r.after requests) where
  names := r.isPrefix_after requests
  ids := fun _ _ => find?_of_isPrefix (r.isPrefix_after requests)
  meanings := fun _ _ => name?_of_isPrefix (r.isPrefix_after requests)

section
variable {table : IncludeTable} {version top text : Text} {site : List Nat} {chain : List Text}

/-- A missing include is missing from the table. -/
theorem FirstDefect.target_not_mem {source target : Text}
    (h : FirstDefect table version top text site ⟨chain, .missing source target⟩) :
    target ∉ table.names := by
  obtain ⟨v, -, -, hdefect⟩ := h.visit
  cases hdefect with
  | missing hnone =>
    rw [← IncludeTable.find?_isSome_iff, hnone]
    simp

/-- A file with the wrong version stands at the end of its own chain. -/
theorem FirstDefect.file_mem_chain {file found inherited : Text}
    (h : FirstDefect table version top text site ⟨chain, .mismatch file found inherited⟩) :
    file ∈ chain := by
  obtain ⟨v, -, -, hdefect⟩ := h.visit
  cases hdefect with
  | mismatch => simp

end

section
variable {language : Language} {mode : LineMode} {table : IncludeTable} {registry : Registry}
  {name text : Text} {t : Track}
  (hcourse : Course table (treeVersion language (topLines text)) name [] (topLines text) t)
  (ht : t.Of (walkTop language table name text))
include hcourse

include ht in
theorem Course.reached :
    Reached table (treeVersion language (topLines text)) name text.trimEnd
      (assemble language mode table registry name text).result t.visits where
  sorted := hcourse.sorted (inPlace_sourceLines _)
  all := by
    intro a ha v
    have hmem := hcourse.mem_visits_iff (inPlace_sourceLines _) (v := v)
    rw [ht.stop?_eq_none ha, topLines, occursIn_sourceLines] at hmem
    simpa using hmem
  upTo := by
    intro f hf
    obtain ⟨s, hs, rfl⟩ := ht.exists_stop hf
    refine ⟨s.site, hcourse.firstDefect hs, ?_⟩
    intro v
    have hmem := hcourse.mem_visits_iff (inPlace_sourceLines _) (v := v)
    rw [hs, topLines, occursIn_sourceLines] at hmem
    simpa using hmem

/-- What a walk comes to and what it enters add the same names to a registry. -/
theorem Course.fresh_targets (r : Registry) :
    r.fresh ((t.visits.map Visit.target).filter (· ∈ table.names)) = r.fresh t.entered := by
  obtain ⟨again, htargets, -, hagain⟩ := hcourse.exists_targets_eq
  rw [htargets]
  apply Registry.fresh_append_of_subset
  simpa using hagain

/-- A walk that comes to its end has entered everything below the source. -/
theorem Course.mem_entered_of_reachable (hstop : t.stop? = none) {n : Text}
    (hn : Reachable table text.trimEnd n) : n ∈ t.entered := by
  obtain ⟨v, hv, rfl⟩ := exists_occurs_of_reachable hn
  have hoccurs : OccursIn table (topLines text) v := occursIn_sourceLines.2 hv
  -- the target has a file, for otherwise the walk would have stopped there
  have hname : v.target ∈ table.names := by
    rw [← IncludeTable.find?_isSome_iff, Option.isSome_iff_ne_none]
    intro hnone
    obtain ⟨s, hs, -⟩ := hcourse.exists_stop (inPlace_sourceLines _) hoccurs (.missing hnone)
    rw [hstop] at hs
    cases hs
  have hvisit : v ∈ t.visits := by
    rw [hcourse.mem_visits_iff (inPlace_sourceLines _), hstop]
    exact ⟨hoccurs, by simp⟩
  have hmem : v.target ∈ (t.visits.map Visit.target).filter (· ∈ table.names) := by
    rw [List.mem_filter]
    exact ⟨List.mem_map_of_mem hvisit, by simpa using hname⟩
  obtain ⟨again, htargets, -, hagain⟩ := hcourse.exists_targets_eq
  rw [htargets] at hmem
  rcases List.mem_append.1 hmem with hmem | hmem
  · exact hmem
  · simpa using hagain _ hmem

end

/-- **An assembly registers what it comes to.** The names that join a registry are the targets of
the directives that the assembly comes to, each where it occurs first in document order, if the
table has a file for it. Names that are in a registry stay where they are, and keep their ids, over
any number of assemblies. -/
theorem assemble_registers (language : Language) (mode : LineMode) (table : IncludeTable)
    (registry : Registry) (name text : Text) :
    let out := assemble language mode table registry name text
    let version := (openingVersion? text.trimEnd).getD language.defaultVersion
    (∃ visits, Reached table version name text.trimEnd out.result visits ∧
      ∃ joined, joined = registry.fresh ((visits.map Visit.target).filter (· ∈ table.names)) ∧
        out.registry.names = registry.names ++ joined ∧ joined.Nodup ∧
        (∀ n ∈ joined, n ∈ table.names) ∧
        ∀ chain source target, out.result = .error ⟨chain, .missing source target⟩ →
          target ∉ joined) ∧
    (∀ f, out.result = .error f → ∀ n ∈ f.chain, n ∈ out.registry.names) ∧
    (∀ chain file found inherited, out.result = .error ⟨chain, .mismatch file found inherited⟩ →
      file ∈ out.registry.names) ∧
    (∀ a, out.result = .ok a → ∀ n, Reachable table text.trimEnd n → n ∈ out.registry.names) ∧
    ∀ requests, registry.Keeps (registry.after requests) ∧
      ((registry.after requests).size < UInt32.size → ∀ n id,
        (registry.after requests).find? n = some id ↔
          (registry.after requests).name? id = some n) := by
  rw [← treeVersion_topLines]
  intro out version
  obtain ⟨t, hcourse, ht⟩ := exists_course_walkTop language table name text
  have hregistry : out.registry = registry.insertAll t.entered := by
    rw [ht.entered_eq]
    exact registry_assemble language mode table registry name text
  have hreached : Reached table version name text.trimEnd out.result t.visits :=
    hcourse.reached ht
  have hentered : ∀ n ∈ t.entered, n ∈ out.registry.names := by
    intro n hn
    rw [hregistry]
    exact Registry.mem_insertAll_iff.2 (.inr hn)
  have hchain : ∀ f, out.result = .error f → ∀ n ∈ f.chain, n ∈ out.registry.names := by
    intro f hf n hn
    obtain ⟨s, hs, rfl⟩ := ht.exists_stop hf
    exact hentered n (hcourse.chain_subset_entered hs hn)
  have htable : ∀ n ∈ registry.fresh ((t.visits.map Visit.target).filter (· ∈ table.names)),
      n ∈ table.names := by
    intro n hn
    exact of_decide_eq_true (List.mem_filter.1 (Registry.mem_fresh_iff.1 hn).1).2
  refine ⟨⟨t.visits, hreached, _, rfl, ?_, registry.nodup_fresh _, htable, ?_⟩, hchain, ?_, ?_, ?_⟩
  · rw [hregistry, Registry.names_insertAll, hcourse.fresh_targets]
  · intro chain source target hmissing hmem
    obtain ⟨site, hfirst, -⟩ := hreached.upTo _ hmissing
    exact hfirst.target_not_mem (htable target hmem)
  · intro chain file found inherited hmismatch
    obtain ⟨site, hfirst, -⟩ := hreached.upTo _ hmismatch
    exact hchain _ hmismatch file hfirst.file_mem_chain
  · intro a ha n hn
    exact hentered n (hcourse.mem_entered_of_reachable (ht.stop?_eq_none ha) hn)
  · intro requests
    exact ⟨registry.keeps_after requests, fun hsize n id => Registry.find?_eq_some_iff_name? hsize⟩

end ShaderSplice
