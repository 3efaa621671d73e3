import ShaderSplice.Proofs.Course
import Mathlib.Data.List.Chain

/-!
# Failures tell the truth

The failure of an assembly names files: a chain of includes, and a cause at its end. All of it can
be checked against the files themselves. The chain is a path of the include graph that starts in the
source and visits no file twice, and the cause is a fact about its last file:

    missing   the file names a target that the table does not have
    cycle     the file names a target that is on the chain
    mismatch  the file opens with a version that is not the version of the tree

Of all the defects below a source it is the first in document order that is reported.
-/

namespace ShaderSplice

/-- A chain of includes below a file with the given text: the file names the first, and each names
the next. -/
structure IncludeChain (table : IncludeTable) (text : Text) (names : List Text) : Prop where
  first : ∀ n, names.head? = some n → n ∈ activeTargets text
  next : names.IsChain (Includes table)

/-- What a failure says about the source `top` is so. -/
inductive Failure.Truthful (table : IncludeTable) (version top text : Text) : Failure → Prop
  | missing {chain : List Text} {target : Text} :
      IncludeChain table text (chain ++ [target]) → target ∉ table.names →
      Truthful table version top text ⟨chain, .missing (chain.getLast?.getD top) target⟩
  | cycle {chain : List Text} {source target : Text} :
      chain.getLast? = some source → IncludeChain table text (chain ++ [target]) →
      target ∈ chain →
      Truthful table version top text ⟨chain, .cycle source target (chain ++ [target])⟩
  | mismatch {chain : List Text} {file content found : Text} :
      chain.getLast? = some file → table.find? file = some content →
      openingVersion? content = some found → found ≠ version →
      Truthful table version top text ⟨chain, .mismatch file found version⟩

variable {table : IncludeTable} {version : Text}

/-! ### Chains -/

/-- The includes that lead to a directive, and then its target, are a chain. -/
theorem Occurs.includeChain {text : Text} {v : Visit} (h : Occurs table text v) :
    IncludeChain table text (v.chain ++ [v.target]) := by
  induction h with
  | own hat =>
    refine ⟨?_, .singleton _⟩
    intro n hn
    cases hn
    exact mem_activeTargets_iff.2 ⟨_, hat⟩
  | @deeper text name content number v hat hfind _ ih =>
    refine ⟨?_, ?_⟩
    · intro n hn
      cases hn
      exact mem_activeTargets_iff.2 ⟨number, hat⟩
    · refine List.isChain_cons.2 ⟨?_, ih.next⟩
      intro n hn
      exact ⟨content, hfind, ih.first n hn⟩

theorem IncludeChain.of_append {text : Text} {names more : List Text}
    (h : IncludeChain table text (names ++ more)) : IncludeChain table text names := by
  refine ⟨?_, h.next.left_of_append⟩
  intro n hn
  apply h.first
  rw [List.head?_append, hn, Option.some_or]

theorem Failure.Truthful.of_defect {top text : Text} {v : Visit} {f : Failure}
    (hv : Occurs table text v) (h : Defect table version top [] v f) :
    f.Truthful table version top text := by
  cases h with
  | missing hnone =>
    refine .missing hv.includeChain ?_
    rw [← IncludeTable.find?_isSome_iff, hnone]
    simp
  | cycle hfind hmem =>
    rw [List.nil_append] at hmem
    -- the chain is not empty, so the directive stands in an include
    have hlast : v.chain.getLast? = some (v.source top) := by
      rw [Visit.source, List.getLast?_eq_some_getLast (List.ne_nil_of_mem hmem), Option.getD_some]
    exact .cycle hlast hv.includeChain hmem
  | mismatch hfind _ hfound hne => exact .mismatch (by simp) hfind hfound hne

/-- The chain of a failure leads to the file that it speaks of. -/
theorem Defect.includeChain {top text : Text} {v : Visit} {f : Failure}
    (hv : Occurs table text v) (h : Defect table version top [] v f) :
    IncludeChain table text f.chain := by
  cases h with
  | missing => exact hv.includeChain.of_append
  | cycle => exact hv.includeChain.of_append
  | mismatch => exact hv.includeChain

/-- **A failure tells the truth.** Its chain leads from the source to a file without coming to any
file twice, its cause holds of that file, and nothing before it in document order is wrong. -/
theorem assemble_failure_truthful {language : Language} {mode : LineMode} {table : IncludeTable}
    {registry : Registry} {name text : Text} {f : Failure}
    (h : (assemble language mode table registry name text).result = .error f) :
    let version := (openingVersion? text.trimEnd).getD language.defaultVersion
    IncludeChain table text.trimEnd f.chain ∧ f.chain.Nodup ∧
    f.Truthful table version name text.trimEnd ∧
    ∃ site, FirstDefect table version name text.trimEnd site f := by
  rw [← treeVersion_topLines]
  intro version
  obtain ⟨t, hcourse, ht⟩ := exists_course_walkTop language table name text
  obtain ⟨s, hs, rfl⟩ := ht.exists_stop h
  -- the failure reports one directive, and all that it says can be read off that directive
  have hfirst : FirstDefect table version name text.trimEnd s.site s.failure :=
    hcourse.firstDefect hs
  obtain ⟨v, hv, -, hdefect⟩ := hfirst.visit
  have hnodup := hcourse.nodup_chain List.nodup_nil hs
  exact ⟨hdefect.includeChain hv, by simpa using hnodup, .of_defect hv hdefect, s.site, hfirst⟩

/-- A cycle of two includes, to which the source itself does not belong. -/
theorem assemble_failure_truthful_cycle :
    let a := Text.ofString "a"
    let b := Text.ofString "b"
    let table := IncludeTable.ofList
      [(a, Text.ofString "#include \"b\""), (b, Text.ofString "#include \"a\"")]
    let text := Text.ofString "#include \"a\""
    let f : Failure := ⟨[a, b], .cycle b a [a, b, a]⟩
    (assemble .openGL .keep table ∅ a text).result = .error f ∧
      IncludeChain table text.trimEnd [a, b] ∧
      f.Truthful table (Text.ofString "110") a text.trimEnd ∧
      ∃ site, FirstDefect table (Text.ofString "110") a text.trimEnd site f := by
  intro a b table text f
  have htop : sourceLines text = [.ofRaw 1 false false text] :=
    sourceLines_of_lines_eq (by decide +kernel)
  have hinner : sourceLines (Text.ofString "#include \"b\"") =
      [.ofRaw 1 false false (Text.ofString "#include \"b\"")] :=
    sourceLines_of_lines_eq (by decide +kernel)
  have hrole : (SourceLine.ofRaw 1 false false text).role = .splice a := by decide +kernel
  have hb : (walk table (Text.ofString "110") b [a, b] (sourceLines text)).result =
      .error ⟨[], .cycle b a [a, b, a]⟩ := by
    rw [htop, walk_cons_of_cycle hrole (by decide +kernel) (by decide +kernel)]
    rfl
  have ha : (walk table (Text.ofString "110") a [a]
      (sourceLines (Text.ofString "#include \"b\""))).result =
      .error ⟨[b], .cycle b a [a, b, a]⟩ := by
    have hrole' : (SourceLine.ofRaw 1 false false (Text.ofString "#include \"b\"")).role =
        .splice b := by decide +kernel
    rw [hinner, walk_cons_of_abandon hrole' (by decide +kernel) (by decide +kernel) hb]
    rfl
  have herror : (assemble .openGL .keep table ∅ a text).result = .error f := by
    have hversion : treeVersion .openGL (topLines text) = Text.ofString "110" := by decide +kernel
    have htrim : topLines text = sourceLines text := by decide +kernel
    rw [assemble_eq_error_iff, walkTop, hversion, htrim, htop, Walk.failure?,
      walk_cons_of_abandon hrole (by decide +kernel) (by decide +kernel) ha]
    rfl
  have htruth := assemble_failure_truthful herror
  have hversion : (openingVersion? text.trimEnd).getD Language.openGL.defaultVersion =
      Text.ofString "110" := by decide +kernel
  rw [hversion] at htruth
  exact ⟨herror, htruth.1, htruth.2.2.1, htruth.2.2.2⟩

end ShaderSplice
