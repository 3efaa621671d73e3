import ShaderSplice.Proofs.Failure
import Mathlib.Data.List.Perm.Subperm
import Mathlib.Data.Prod.Lex

/-!
# Why a walk ends

The text of an include may be longer than the text that names it, and nothing keeps a table from
leading back to where the walk comes from. A walk ends all the same, and the reason is in its calls.
`WalkCall.round` writes down the work of one call as a tree: it asks for the walks of other calls
and goes on with the answers. What a call may ask for is then read off the tree,

    ⟨source, path, l :: rest⟩ ──▶ ⟨source, path, rest⟩                            the next line
                              ──▶ ⟨target, path ++ [target], sourceLines content⟩  a descent

and a descent is made to a name of the table off the path. So each path is a chain of includes that
holds no name twice, there are at most as many names on it as the table has, and with each call

    (names of the table − names on the path , lines that remain)

decreases lexicographically.
-/

namespace ShaderSplice

/-- A call of the walk: the file `source`, to which the includes `path` lead, and the lines of it
that remain. -/
structure WalkCall where
  source : Text
  path : List Text
  rest : List SourceLine

/-- The work of one call: it asks for the walks of other calls, and goes on with what it is told. -/
inductive Round where
  | done (w : Walk)
  | ask (c : WalkCall) (next : Walk → Round)

namespace Round

/-- What the work comes to if `answer` tells the walks that it asks for. -/
def run (answer : WalkCall → Walk) : Round → Walk
  | .done w => w
  | .ask c next => (next (answer c)).run answer

/-- The work may ask for the walk of `c`; whether it does can depend on what it is told before. -/
inductive Asks : Round → WalkCall → Prop
  | now {c : WalkCall} {next : Walk → Round} : Asks (.ask c next) c
  | later {c c' : WalkCall} {next : Walk → Round} {w : Walk} :
      Asks (next w) c' → Asks (.ask c next) c'

/-- The work comes to the same if it is told the same. -/
theorem run_congr {round : Round} {answer answer' : WalkCall → Walk}
    (h : ∀ c, round.Asks c → answer c = answer' c) : round.run answer = round.run answer' := by
  induction round with
  | done w => rfl
  | ask c next ih =>
    rw [run, run, h c .now]
    apply ih
    intro c' hc'
    exact h c' (.later hc')

end Round

namespace WalkCall

/-- The walk that a call gives. -/
def walk (table : IncludeTable) (version : Text) (c : WalkCall) : Walk :=
  ShaderSplice.walk table version c.source c.path c.rest

/-- The work of a call on its first line. -/
def round (table : IncludeTable) (version : Text) : WalkCall → Round
  | ⟨_, _, []⟩ => .done ⟨[], .ok .nil⟩
  | ⟨source, path, l :: rest⟩ =>
    match l.role with
    | .lead declared =>
      if declared = version then .ask ⟨source, path, rest⟩ fun next => .done (.keep l next)
      else .done (.fail (.mismatch source declared version))
    | .splice target =>
      match table.find? target with
      | none => .done (.fail (.missing source target))
      | some content =>
        if target ∈ path then .done (.fail (.cycle source target (path ++ [target])))
        else
          .ask ⟨target, path ++ [target], sourceLines content⟩ fun child =>
            match child.result with
            | .error f => .done (.abandon source l target child.events f)
            | .ok body =>
              .ask ⟨source, path, rest⟩ fun next =>
                .done (.resume source l target child.events body next)
    | .silent | .ordinary _ => .ask ⟨source, path, rest⟩ fun next => .done (.keep l next)

/-- How much is left for a call to do: how many names of the table are not on the path, and how many
lines remain. -/
def measure (table : IncludeTable) (c : WalkCall) : Nat × Nat :=
  (table.entries.length - c.path.length, c.rest.length)

end WalkCall

variable {table : IncludeTable} {version : Text}

/-! ### The rounds of a walk -/

/-- A walk is what its rounds come to. -/
theorem WalkCall.walk_eq_run_round (c : WalkCall) :
    c.walk table version = (c.round table version).run (WalkCall.walk table version) := by
  obtain ⟨source, path, ls⟩ := c
  cases ls with
  | nil => rw [WalkCall.walk, ShaderSplice.walk, round, Round.run]
  | cons l rest =>
    rw [WalkCall.walk, ShaderSplice.walk, round]
    cases l.role with
    | silent => rfl
    | ordinary redeclares => rfl
    | lead declared =>
      dsimp only
      split
      · rfl
      · rfl
    | splice target =>
      dsimp only
      split
      · next hnone =>
        rw [hnone]
        rfl
      · next content hfind =>
        rw [hfind]
        dsimp only
        split
        · rfl
        · rw [Round.run, WalkCall.walk]
          dsimp only
          cases (ShaderSplice.walk table version target (path ++ [target])
            (sourceLines content)).result with
          | error f => rfl
          | ok body => rfl

/-- A call to the next line, or a descent to a name of the table that is off the path. -/
inductive WalkCall.Step (table : IncludeTable) : WalkCall → WalkCall → Prop
  | next {source : Text} {path : List Text} {l : SourceLine} {rest : List SourceLine} :
      Step table ⟨source, path, l :: rest⟩ ⟨source, path, rest⟩
  | descend {source target content : Text} {path : List Text} {l : SourceLine}
      {rest : List SourceLine} :
      l.role = .splice target → table.find? target = some content → target ∉ path →
      Step table ⟨source, path, l :: rest⟩ ⟨target, path ++ [target], sourceLines content⟩

/-- The calls that a call may ask for. -/
theorem WalkCall.step_of_asks {c c' : WalkCall} (h : (c.round table version).Asks c') :
    c.Step table c' := by
  obtain ⟨source, path, ls⟩ := c
  cases ls with
  | nil => cases h
  | cons l rest =>
    have hnext {next : Walk → Walk}
        (h : (Round.ask ⟨source, path, rest⟩ fun w => .done (next w)).Asks c') :
        WalkCall.Step table ⟨source, path, l :: rest⟩ c' := by
      cases h with
      | now => exact .next
      | later h => cases h
    rw [round] at h
    cases hrole : l.role with
    | silent =>
      rw [hrole] at h
      exact hnext h
    | ordinary redeclares =>
      rw [hrole] at h
      exact hnext h
    | lead declared =>
      rw [hrole] at h
      dsimp only at h
      split at h
      · exact hnext h
      · cases h
    | splice target =>
      rw [hrole] at h
      dsimp only at h
      split at h
      · cases h
      · next content hfind =>
        split at h
        · cases h
        · next hpath =>
          cases h with
          | now => exact .descend hrole hfind hpath
          | later h =>
            dsimp only at h
            split at h
            · cases h
            · exact hnext h

/-! ### The path of a call -/

/-- The text of the file to which `path` leads from a source with the given text. -/
def IncludeTable.fileAt? (table : IncludeTable) (text : Text) (path : List Text) : Option Text :=
  match path.getLast? with
  | none => some text
  | some name => table.find? name

@[simp] theorem IncludeTable.fileAt?_concat (table : IncludeTable) (text name : Text)
    (path : List Text) : table.fileAt? text (path ++ [name]) = table.find? name := by
  rw [fileAt?, List.getLast?_concat]

/-- A chain goes on with a name in the file to which it leads. -/
theorem IncludeChain.concat {text content target : Text} {names : List Text}
    (h : IncludeChain table text names) (hfile : table.fileAt? text names = some content)
    (htarget : target ∈ activeTargets content) : IncludeChain table text (names ++ [target]) := by
  cases hlast : names.getLast? with
  | none =>
    obtain rfl : names = [] := List.getLast?_eq_none_iff.1 hlast
    cases hfile
    refine ⟨?_, .singleton _⟩
    intro n hn
    cases hn
    exact htarget
  | some name =>
    rw [IncludeTable.fileAt?, hlast] at hfile
    refine ⟨?_, ?_⟩
    · intro n hn
      apply h.first
      obtain ⟨first, hfirst⟩ : ∃ first, names.head? = some first := by
        cases names with
        | nil => cases hlast
        | cons first rest => exact ⟨first, rfl⟩
      rwa [List.head?_append, hfirst, Option.some_or, ← hfirst] at hn
    · refine List.isChain_append.2 ⟨h.next, .singleton _, ?_⟩
      intro a ha b hb
      rw [hlast] at ha
      cases ha
      cases hb
      exact ⟨content, hfile, htarget⟩

/-- What holds of each call in a walk over the source `top` with the given text. -/
structure WalkCall.Placed (table : IncludeTable) (top text : Text) (c : WalkCall) : Prop where
  nodup : c.path.Nodup
  names : c.path ⊆ table.names
  chain : IncludeChain table text c.path
  source : c.source = c.path.getLast?.getD top
  rest : ∃ content, table.fileAt? text c.path = some content ∧ c.rest <:+ sourceLines content

theorem WalkCall.placed_top (table : IncludeTable) (top text : Text) :
    WalkCall.Placed table top text ⟨top, [], sourceLines text⟩ where
  nodup := List.nodup_nil
  names := List.nil_subset _
  chain := ⟨nofun, .nil⟩
  source := rfl
  rest := ⟨text, rfl, List.suffix_refl _⟩

theorem WalkCall.Placed.step {top text : Text} {c c' : WalkCall} (h : c.Placed table top text)
    (hstep : c.Step table c') : c'.Placed table top text := by
  obtain ⟨content, hfile, hrest⟩ := h.rest
  cases hstep with
  | next =>
    have hshorter := (List.suffix_cons _ _).trans hrest
    exact ⟨h.nodup, h.names, h.chain, h.source, content, hfile, hshorter⟩
  | @descend _ target inner path l rest hrole hfind hpath =>
    have hactive : target ∈ activeTargets content := by
      rw [← targets_sourceLines]
      exact mem_targets (hrest.subset List.mem_cons_self) hrole
    refine ⟨?_, ?_, h.chain.concat hfile hactive, by simp, inner, by simp [hfind],
      List.suffix_refl _⟩
    · have hdisjoint : path.Disjoint [target] := by simpa using hpath
      exact h.nodup.append (List.nodup_singleton target) hdisjoint
    · intro n hn
      rcases List.mem_append.1 hn with hn | hn
      · exact h.names hn
      · rw [List.mem_singleton.1 hn]
        exact IncludeTable.mem_names_of_find? hfind

theorem WalkCall.Placed.of_reflTransGen {top text : Text} {c c' : WalkCall}
    (h : c.Placed table top text) (hcalls : Relation.ReflTransGen (WalkCall.Step table) c c') :
    c'.Placed table top text := by
  induction hcalls with
  | refl => exact h
  | tail _ hstep ih => exact ih.step hstep

/-- A path has at most as many names as the table. -/
theorem WalkCall.Placed.length_path_le {top text : Text} {c : WalkCall}
    (h : c.Placed table top text) : c.path.length ≤ table.entries.length := by
  have hlength := (List.subperm_of_subset h.nodup h.names).length_le
  rwa [IncludeTable.names, List.length_map] at hlength

/-! ### The descent ends -/

/-- Each call leaves less to do. -/
theorem WalkCall.Placed.measure_lt {top text : Text} {c c' : WalkCall}
    (h : c.Placed table top text) (hstep : c.Step table c') :
    Prod.Lex (· < ·) (· < ·) (c'.measure table) (c.measure table) := by
  have hlength := (h.step hstep).length_path_le
  cases hstep with
  | next => exact .right _ (Nat.lt_succ_self _)
  | @descend _ target _ path _ _ _ _ _ =>
    apply Prod.Lex.left
    rw [List.length_append, List.length_singleton] at hlength ⊢
    show table.entries.length - (path.length + 1) < table.entries.length - path.length
    omega

/-- No call of a walk leads to calls without end. -/
theorem WalkCall.Placed.acc {top text : Text} {c : WalkCall} (h : c.Placed table top text) :
    Acc (fun c' c => WalkCall.Step table c c') c := by
  have hwf : WellFounded (Prod.Lex (· < ·) (· < ·) : Nat × Nat → Nat × Nat → Prop) :=
    WellFounded.prod_lex wellFounded_lt wellFounded_lt
  generalize hm : c.measure table = m
  induction m using hwf.induction generalizing c with
  | _ m ih =>
    constructor
    intro c' hstep
    subst hm
    exact ih _ (h.measure_lt hstep) (h.step hstep) rfl

/-- Whatever tells the walks of all calls below a call, each by its round, tells the walk. -/
theorem WalkCall.eq_walk_of_acc {c : WalkCall}
    (hacc : Acc (fun c' c => (c.round table version).Asks c') c) {answer : WalkCall → Walk}
    (h : ∀ c', Relation.ReflTransGen (fun c c' => (c.round table version).Asks c') c c' →
      answer c' = (c'.round table version).run answer) :
    answer c = c.walk table version := by
  induction hacc with
  | intro c _ ih =>
    rw [h c .refl, walk_eq_run_round]
    apply Round.run_congr
    intro c' hasks
    apply ih c' hasks
    intro c'' hcalls
    exact h c'' (.head hasks hcalls)

/-- **A walk ends on every table.** Take the calls that the walk over a source may make, directly or
through others. Each has as its path a chain of includes from the source to the file it walks over;
no name occurs twice on the path and all are names of the table, so there are at most as many as
the table has entries; and with every further call the number of entries less the length of the
path, and then the number of lines that remain, decreases. There is thus no endless sequence of
calls, and with no bound on their depth the rounds of the calls determine one walk. -/
theorem walk_terminates (language : Language) (table : IncludeTable) (name text : Text) :
    let version := treeVersion language (topLines text)
    let calls : WalkCall → WalkCall → Prop := fun c c' => (c.round table version).Asks c'
    let start : WalkCall := ⟨name, [], topLines text⟩
    (∀ c, Relation.ReflTransGen calls start c →
      c.path.Nodup ∧ c.path ⊆ table.names ∧ IncludeChain table text.trimEnd c.path ∧
      c.source = c.path.getLast?.getD name ∧ c.path.length ≤ table.entries.length ∧
      ∀ c', calls c c' → Prod.Lex (· < ·) (· < ·) (c'.measure table) (c.measure table)) ∧
    Acc (fun c' c => calls c c') start ∧
    (∀ c : WalkCall, c.walk table version =
      (c.round table version).run (WalkCall.walk table version)) ∧
    ∀ answer : WalkCall → Walk,
      (∀ c, Relation.ReflTransGen calls start c →
        answer c = (c.round table version).run answer) →
      answer start = walkTop language table name text := by
  intro version calls start
  have hstart : start.Placed table name text.trimEnd := WalkCall.placed_top _ _ _
  have hacc : Acc (fun c' c => calls c c') start :=
    Subrelation.accessible WalkCall.step_of_asks hstart.acc
  refine ⟨?_, hacc, WalkCall.walk_eq_run_round, ?_⟩
  · intro c hc
    have hsteps : Relation.ReflTransGen (WalkCall.Step table) start c :=
      Relation.ReflTransGen.mono (fun _ _ => WalkCall.step_of_asks) _ _ hc
    have hplaced := hstart.of_reflTransGen hsteps
    refine ⟨hplaced.nodup, hplaced.names, hplaced.chain, hplaced.source,
      hplaced.length_path_le, ?_⟩
    intro c' hcall
    exact hplaced.measure_lt (WalkCall.step_of_asks hcall)
  · intro answer hanswer
    exact WalkCall.eq_walk_of_acc hacc hanswer

end ShaderSplice
