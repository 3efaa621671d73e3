import Mathlib.Data.List.Flatten
import Mathlib.Data.List.Forall2
import ShaderSplice.Proofs.Session.Calls
import ShaderSplice.Proofs.Session.Report

/-!
# Calls in any interleaving

A call adds sources, or it adds include files, or it is a setting. As long as no call fails, the
three kinds do not get in each other's way: sources are read when they are found, and include files
are looked up only when the session is processed. So calls can be interleaved in any way that keeps
the order of each kind.

    sources    c₁  c₂        c₁ d₁ c₂ e₁ d₂
    includes   d₁  d₂   ──▶  d₁ d₂ e₁ c₁ c₂   ──▶  the same session
    settings   e₁            …

Of include files not even the order counts, if they have different names (`Rearranges`). Then the
sessions may differ in how the entries of the table are ordered, but process alike.
-/

namespace ShaderSplice

/-! ### Interleavings -/

/-- `cs` has the members of three lists, those of each list in its order. -/
inductive Interleaves {α : Type} : List α → List α → List α → List α → Prop
  | nil : Interleaves [] [] [] []
  | first {a : α} {as bs ds cs : List α} :
      Interleaves as bs ds cs → Interleaves (a :: as) bs ds (a :: cs)
  | second {b : α} {as bs ds cs : List α} :
      Interleaves as bs ds cs → Interleaves as (b :: bs) ds (b :: cs)
  | third {d : α} {as bs ds cs : List α} :
      Interleaves as bs ds cs → Interleaves as bs (d :: ds) (d :: cs)

namespace Interleaves
variable {α β : Type} {as bs ds cs : List α}

theorem rotate (h : Interleaves as bs ds cs) : Interleaves bs ds as cs := by
  induction h with
  | nil => exact .nil
  | first _ ih => exact .third ih
  | second _ ih => exact .first ih
  | third _ ih => exact .second ih

/-- What goes with the members one by one goes with those of the first list, in their order. -/
theorem sublistForall₂ {R : α → β → Prop} {gs : List β} (h : Interleaves as bs ds cs)
    (hgs : List.Forall₂ R cs gs) : List.SublistForall₂ R as gs := by
  induction h generalizing gs with
  | nil => exact .nil
  | first _ ih =>
    cases hgs with
    | cons hg hgs => exact .cons hg (ih hgs)
  | second _ ih =>
    cases hgs with
    | cons _ hgs => exact .cons_right (ih hgs)
  | third _ ih =>
    cases hgs with
    | cons _ hgs => exact .cons_right (ih hgs)

end Interleaves

namespace Session

/-! ### Three kinds of calls -/

namespace Call
variable {disk : Disk} {c : Call} {g : Gain}

/-- Whether a call adds sources. -/
def addsSources : Call → Bool
  | .vertex _ | .fragment _ | .source _ | .addSource .. => true
  | _ => false

/-- Whether a call adds include files. -/
def addsIncludes : Call → Bool
  | .includes _ | .addInclude .. => true
  | _ => false

/-- The names of the include files that a call adds. -/
def includeNames (disk : Disk) : Call → List Text
  | .includes pattern =>
    match disk.glob pattern with
    | .ok paths => paths.map Path.base
    | .error _ => []
  | .addInclude name _ => [name]
  | _ => []

theorem isSetting_of_addsSources (hc : c.addsSources) : c.isSetting = false := by
  cases c <;> cases hc <;> rfl

theorem isSetting_of_addsIncludes (hc : c.addsIncludes) : c.isSetting = false := by
  cases c <;> cases hc <;> rfl

theorem Gains.includes_eq_nil (hg : c.Gains disk g) (hc : c.addsSources) : g.includes = [] := by
  cases hg with
  | sources => rfl
  | includes => cases hc
  | addSource => rfl
  | addInclude => cases hc
  | setting => rfl

theorem Gains.sources_eq_nil (hg : c.Gains disk g) (hc : c.addsIncludes) : g.sources = [] := by
  cases hg with
  | sources hpattern => cases c <;> cases hpattern <;> cases hc
  | includes => rfl
  | addSource => cases hc
  | addInclude => rfl
  | setting => rfl

theorem Gains.mem_includeNames (hg : c.Gains disk g) {e : Text × Text} (he : e ∈ g.includes) :
    e.1 ∈ c.includeNames disk := by
  cases hg with
  | sources => cases he
  | @includes pattern paths entries hfinds hgood =>
    obtain ⟨found, hglob, hperm⟩ := hfinds.listed
    have hnames : entries.map Prod.fst = paths.map Path.base := by
      clear hfinds he hperm
      induction hgood with
      | nil => rfl
      | cons hread _ ih => rw [List.map_cons, List.map_cons, hread.name_eq, ih]
    have hmem : e.1 ∈ paths.map Path.base := hnames ▸ List.mem_map_of_mem he
    rw [includeNames, hglob]
    exact (hperm.map Path.base).subset hmem
  | addSource => cases he
  | addInclude =>
    rw [List.mem_singleton.1 he]
    exact List.mem_singleton_self _
  | setting => cases he

end Call

/-! ### What interleaved calls come to -/

section
variable {disk : Disk} {s : Session} {c : Call}

theorem gain_gain (s : Session) (g g' : Gain) :
    (s.gain g).gain g' = s.gain ⟨g.sources ++ g'.sources, g.includes ++ g'.includes⟩ := by
  simp only [gain, List.append_assoc, IncludeTable.insertAll_append]

/-- Settings and what is brought in do not touch each other. -/
theorem gain_call (hc : c.isSetting) (g : Gain) :
    ((s.gain g).call disk c).1 = (s.call disk c).1.gain g := by
  cases c <;> cases hc <;> rfl

theorem gain_after {settings : List Call} (hsettings : ∀ c ∈ settings, c.isSetting) (g : Gain) :
    (s.gain g).after disk settings = (s.after disk settings).gain g := by
  induction settings generalizing s with
  | nil => rfl
  | cons c settings ih =>
    rw [List.forall_mem_cons] at hsettings
    rw [after_cons, gain_call hsettings.1, ih hsettings.2, after_cons]

/-- However calls are interleaved, they come to the settings and all that is brought in. -/
theorem after_of_interleaves {sources includes settings cs : List Call}
    (h : Interleaves sources includes settings cs) (hsources : ∀ c ∈ sources, c.addsSources)
    (hincludes : ∀ c ∈ includes, c.addsIncludes) (hsettings : ∀ c ∈ settings, c.isSetting)
    (herror : s.error = none) {gs is : List Gain}
    (hgs : List.Forall₂ (Call.Gains disk) sources gs)
    (his : List.Forall₂ (Call.Gains disk) includes is)
    (hnodup : (sourceNames (s.sources ++ gs.flatMap Gain.sources)).Nodup) :
    s.after disk cs =
      (s.after disk settings).gain ⟨gs.flatMap Gain.sources, is.flatMap Gain.includes⟩ := by
  induction h generalizing s gs is with
  | nil =>
    cases hgs
    cases his
    simp [gain, IncludeTable.insertAll]
  | @first c sources includes settings cs _ ih =>
    rw [List.forall_mem_cons] at hsources
    obtain _ | @⟨_, g, _, gs, hg, hgs⟩ := hgs
    rw [List.flatMap_cons, ← List.append_assoc] at hnodup
    have hnodup' : (sourceNames (s.sources ++ g.sources)).Nodup :=
      hnodup.sublist ((List.sublist_append_left _ _).map _)
    have hcall := call_of_gains herror hg (Call.isSetting_of_addsSources hsources.1) hnodup'
    rw [after_cons, hcall, ih (s := s.gain g) hsources.2 hincludes hsettings herror hgs his hnodup,
      gain_after hsettings, gain_gain, hg.includes_eq_nil hsources.1, List.flatMap_cons,
      List.nil_append]
  | @second c sources includes settings cs _ ih =>
    rw [List.forall_mem_cons] at hincludes
    obtain _ | @⟨_, g, _, is, hg, his⟩ := his
    have hnone := hg.sources_eq_nil hincludes.1
    have hsame : s.sources ++ g.sources = s.sources := by rw [hnone, List.append_nil]
    have hnodup' : (sourceNames (s.sources ++ g.sources)).Nodup := by
      rw [hsame]
      exact hnodup.sublist ((List.sublist_append_left _ _).map _)
    have hcall := call_of_gains herror hg (Call.isSetting_of_addsIncludes hincludes.1) hnodup'
    rw [← hsame] at hnodup
    rw [after_cons, hcall, ih (s := s.gain g) hsources hincludes.2 hsettings herror hgs his hnodup,
      gain_after hsettings, gain_gain, hnone, List.flatMap_cons, List.nil_append]
  | @third c sources includes settings cs _ ih =>
    rw [List.forall_mem_cons] at hsettings
    have hgrows : s.Grows (s.call disk c).1 ⟨[], []⟩ := grows_of_isSetting hsettings.1
    rw [after_cons, after_cons]
    apply ih hsources hincludes hsettings.2 (hgrows.error.trans herror) hgs his
    rwa [hgrows.sources, List.append_nil]

end

/-! ### Include files that change places -/

/-- `ds` are the calls `cs`, where neighbours have changed places that add include files of
different names. -/
inductive Rearranges (disk : Disk) : List Call → List Call → Prop
  | refl (cs : List Call) : Rearranges disk cs cs
  | swap {c d : Call} {cs : List Call} :
      (c.includeNames disk).Disjoint (d.includeNames disk) →
      Rearranges disk (c :: d :: cs) (d :: c :: cs)
  | cons {c : Call} {cs ds : List Call} :
      Rearranges disk cs ds → Rearranges disk (c :: cs) (c :: ds)
  | trans {cs ds es : List Call} :
      Rearranges disk cs ds → Rearranges disk ds es → Rearranges disk cs es

namespace Rearranges
variable {disk : Disk} {cs ds : List Call}

theorem perm (h : Rearranges disk cs ds) : cs.Perm ds := by
  induction h with
  | refl cs => exact .refl cs
  | swap _ => exact .swap _ _ _
  | cons _ ih => exact ih.cons _
  | trans _ _ ih ih' => exact ih.trans ih'

/-- The calls bring in the same, in another order, and no table shows the difference. -/
theorem exists_gains (h : Rearranges disk cs ds) {gs : List Gain}
    (hgs : List.Forall₂ (Call.Gains disk) cs gs) :
    ∃ gs', List.Forall₂ (Call.Gains disk) ds gs' ∧
      ∀ (t : IncludeTable) name, (t.insertAll (gs'.flatMap Gain.includes)).find? name =
        (t.insertAll (gs.flatMap Gain.includes)).find? name := by
  induction h generalizing gs with
  | refl cs => exact ⟨gs, hgs, fun _ _ => rfl⟩
  | @swap c d cs hdisjoint =>
    obtain _ | @⟨_, g, _, _, hg, _ | @⟨_, g', _, gs, hg', hgs⟩⟩ := hgs
    refine ⟨g' :: g :: gs, .cons hg' (.cons hg hgs), ?_⟩
    intro t name
    have hne : ∀ x ∈ g'.includes, ∀ y ∈ g.includes, x.1 ≠ y.1 := by
      intro x hx y hy heq
      exact hdisjoint (hg.mem_includeNames hy) (heq ▸ hg'.mem_includeNames hx)
    simp only [List.flatMap_cons, IncludeTable.insertAll_append]
    rw [IncludeTable.find?_insertAll, t.find?_insertAll_comm hne, ← IncludeTable.find?_insertAll]
  | cons _ ih =>
    obtain _ | @⟨_, g, _, gs, hg, hgs⟩ := hgs
    obtain ⟨gs', hgs', hfind⟩ := ih hgs
    refine ⟨g :: gs', .cons hg hgs', ?_⟩
    intro t name
    simp only [List.flatMap_cons, IncludeTable.insertAll_append]
    exact hfind _ name
  | trans _ _ ih ih' =>
    obtain ⟨gs', hgs', hfind⟩ := ih hgs
    obtain ⟨gs'', hgs'', hfind'⟩ := ih' hgs'
    exact ⟨gs'', hgs'', fun t name => (hfind' t name).trans (hfind t name)⟩

end Rearranges

/-! ### The same outcomes -/

/-- Tables that find the same texts are the same to a session. -/
theorem outcomes_includes {s : Session} {table : IncludeTable}
    (h : ∀ name, table.find? name = s.includes.find? name) (tree : FileTree) :
    let s' : Session := { s with includes := table }
    s'.process tree = s.process tree ∧ (∀ dir, s'.build tree dir = s.build tree dir) ∧
      ∀ name, s'.emit tree name = s.emit tree name := by
  intro s'
  have hprocess : s'.process tree = s.process tree := by
    have halike : s.Alike s' := ⟨rfl, rfl, rfl, rfl, h⟩
    simp only [process, processAll, halike.processSources]
    rfl
  refine ⟨hprocess, fun dir => ?_, fun name => ?_⟩
  · simp only [build, hprocess]
    rfl
  · simp only [emit, hprocess]

/-- **Sources, include files and settings can be given in any interleaving.** Take calls of the
three kinds of which none fails in one interleaving. Then none fails in any other, also where
include calls have changed places that add different names. The session has the same sources in the
same order and finds the same text for each name, and processing, building and emitting give the
same on all files: the files they leave, what they log, and the report or the error. -/
theorem interleavings_agree (disk : Disk) (language : Language)
    {sources includes settings cs includes' cs' : List Call}
    (hsources : ∀ c ∈ sources, c.addsSources) (hincludes : ∀ c ∈ includes, c.addsIncludes)
    (hsettings : ∀ c ∈ settings, c.isSetting)
    (hcs : Interleaves sources includes settings cs)
    (herror : ((start language).after disk cs).error = none)
    (hincludes' : Rearranges disk includes includes')
    (hcs' : Interleaves sources includes' settings cs') :
    let s := (start language).after disk cs
    let s' := (start language).after disk cs'
    s'.error = none ∧ s'.sources = s.sources ∧
    (∀ name, s'.includes.find? name = s.includes.find? name) ∧
    ∀ tree, s'.process tree = s.process tree ∧
      (∀ dir, s'.build tree dir = s.build tree dir) ∧
      ∀ name, s'.emit tree name = s.emit tree name := by
  intro s s'
  have hstart : (sourceNames (start language).sources).Nodup := List.nodup_nil
  -- what the calls of each kind bring in can be told without the others
  obtain ⟨gs, hgs, hbrought, -⟩ := exists_gains rfl hstart herror
  obtain ⟨sourceGains, hsourceGains, hsub⟩ := List.sublistForall₂_iff.1 (hcs.sublistForall₂ hgs)
  obtain ⟨includeGains, hincludeGains, -⟩ :=
    List.sublistForall₂_iff.1 (hcs.rotate.sublistForall₂ hgs)
  obtain ⟨includeGains', hincludeGains', hfind⟩ := hincludes'.exists_gains hincludeGains
  have hnodup : (sourceNames ((start language).sources ++
      sourceGains.flatMap Gain.sources)).Nodup := by
    have hall : (sourceNames s.sources).Nodup := nodup_after hstart cs
    rw [hbrought] at hall
    exact hall.sublist (((hsub.flatMap Gain.sources).append_left _).map _)
  have hs := after_of_interleaves hcs hsources hincludes hsettings rfl hsourceGains hincludeGains
    hnodup
  have hs' := after_of_interleaves hcs' hsources
    (fun c hc => hincludes c (hincludes'.perm.mem_iff.2 hc)) hsettings rfl hsourceGains
    hincludeGains' hnodup
  have hfinds (name : Text) : s'.includes.find? name = s.includes.find? name := by
    simp only [s, s', hs, hs']
    exact hfind _ name
  have hsame : s' = { s with includes := s'.includes } := by
    simp only [s, s', hs, hs']
    rfl
  refine ⟨?_, ?_, hfinds, ?_⟩
  · rw [hsame]
    exact herror
  · rw [hsame]
  · intro tree
    rw [hsame]
    exact outcomes_includes hfinds tree

/-- Two sources, a setting, and include files of which a pattern finds two, listed in another order
than that of their bytes; the include calls change places. -/
theorem interleavings_agree_files :
    let a := Text.ofString "a"
    let b := Text.ofString "b"
    let disk : Disk := { glob := fun _ => .ok [b, a], read := fun path => .ok path }
    let first := Call.addSource (Text.ofString "x") .vertex (Text.ofString "#include \"c\"")
    let second := Call.addSource (Text.ofString "y") .fragment (Text.ofString "#include \"a\"")
    let files := Call.includes (Text.ofString "*")
    let text := Call.addInclude (Text.ofString "c") (Text.ofString "#include \"b\"")
    let s := (start .openGL).after disk [first, second, files, text, .discardLineInfo]
    let s' := (start .openGL).after disk [text, .discardLineInfo, first, files, second]
    s.error = none ∧ s'.process ∅ = s.process ∅ ∧
      s'.build ∅ (Text.ofString "out") = s.build ∅ (Text.ofString "out") := by
  intro a b disk first second files text s s'
  have hcs : Interleaves [first, second] [files, text] [.discardLineInfo]
      [first, second, files, text, .discardLineInfo] :=
    .first (.first (.second (.second (.third .nil))))
  have hcs' : Interleaves [first, second] [text, files] [.discardLineInfo]
      [text, .discardLineInfo, first, files, second] :=
    .second (.third (.first (.second (.first .nil))))
  have hfinds : disk.Finds (Text.ofString "*") [a, b] := ⟨⟨[b, a], rfl, .swap b a []⟩, by decide⟩
  have hfiles : files.Gains disk ⟨[], [(a, a), (b, b)]⟩ :=
    .includes hfinds (.cons ⟨by decide +kernel, rfl⟩ (.cons ⟨by decide +kernel, rfl⟩ .nil))
  have hs := after_of_interleaves hcs (by decide) (by decide) (by decide)
    (s := start .openGL) rfl (.cons .addSource (.cons .addSource .nil))
    (.cons hfiles (.cons .addInclude .nil)) (by decide)
  have herror : s.error = none := congrArg Session.error hs
  have hswap : Rearranges disk [files, text] [text, files] := by
    refine .swap ?_
    rw [List.disjoint_left]
    decide +kernel
  obtain ⟨-, -, -, hsame⟩ := interleavings_agree disk .openGL (by decide) (by decide) (by decide)
    hcs herror hswap hcs'
  exact ⟨herror, (hsame ∅).1, (hsame ∅).2.1 _⟩

end Session
end ShaderSplice
