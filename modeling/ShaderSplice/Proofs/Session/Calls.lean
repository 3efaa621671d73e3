import Mathlib.Data.List.Forall2
import ShaderSplice.Session.Build
import ShaderSplice.Proofs.Association

/-!
# What calls make of a session

A session is built up by calls, and what it comes to can be told without following them step by
step. `Call.Gains` says what a call brings in when nothing goes wrong, and `Call.Fails` what goes
wrong, both by the files alone:

    no call fails      sources  = gains of the calls, one after the other
                       includes = the same, the last text of a name counting
    some call fails    error    = that of the first one, whatever comes later

A pattern lists what it finds in any order. Both notions go by the sorted list (`Disk.Finds`), so
the order in which a disk lists its files makes no difference.
-/

namespace ShaderSplice

/-! ### What a pattern finds -/

/-- `paths` are what a pattern finds, in the order of their bytes. -/
structure Disk.Finds (disk : Disk) (pattern : Text) (paths : List Text) : Prop where
  listed : ∃ found, disk.glob pattern = .ok found ∧ paths.Perm found
  sorted : paths.Pairwise (· ≤ ·)

theorem pairwise_mergeSort_text (paths : List Text) :
    (paths.mergeSort (· ≤ ·)).Pairwise (· ≤ ·) := by
  have htrans (a b c : Text) (hab : decide (a ≤ b) = true) (hbc : decide (b ≤ c) = true) :
      decide (a ≤ c) = true :=
    decide_eq_true (List.le_trans (of_decide_eq_true hab) (of_decide_eq_true hbc))
  have htotal (a b : Text) : (decide (a ≤ b) || decide (b ≤ a)) = true := by
    simpa using List.le_total a b
  simpa using List.pairwise_mergeSort htrans htotal paths

/-- Only one order is sorted. -/
theorem eq_of_perm_of_sorted {paths paths' : List Text} (h : paths.Perm paths')
    (hs : paths.Pairwise (· ≤ ·)) (hs' : paths'.Pairwise (· ≤ ·)) : paths = paths' :=
  h.eq_of_pairwise (fun _ _ _ _ hab hba => List.le_antisymm hab hba) hs hs'

theorem Disk.finds_iff {disk : Disk} {pattern : Text} {found paths : List Text}
    (h : disk.glob pattern = .ok found) :
    disk.Finds pattern paths ↔ paths = found.mergeSort (· ≤ ·) := by
  have hperm := List.mergeSort_perm found (· ≤ ·)
  constructor
  · intro hfinds
    obtain ⟨found', hfound', hpaths⟩ := hfinds.listed
    rw [h] at hfound'
    cases hfound'
    exact eq_of_perm_of_sorted (hpaths.trans hperm.symm) hfinds.sorted (pairwise_mergeSort_text _)
  · rintro rfl
    exact ⟨⟨found, h, hperm⟩, pairwise_mergeSort_text found⟩

/-- The files of `disk'` are those of `disk`, and a pattern finds the same, in whatever order. -/
structure Disk.Reorders (disk disk' : Disk) : Prop where
  read_eq : disk'.read = disk.read
  error : ∀ pattern e, disk.glob pattern = .error e → disk'.glob pattern = .error e
  found : ∀ pattern paths, disk.glob pattern = .ok paths →
    ∃ paths', disk'.glob pattern = .ok paths' ∧ paths'.Perm paths

/-! ### Entries of an include table -/

namespace IncludeTable

/-- The table after entries are added one after the other. -/
def insertAll (t : IncludeTable) (entries : List (Text × Text)) : IncludeTable :=
  entries.foldl (fun t e => t.insert e.1 e.2) t

/-- The last entry of a name counts. -/
theorem find?_insertAll (t : IncludeTable) (entries : List (Text × Text)) (name : Text) :
    (t.insertAll entries).find? name = (entries.reverse.lookup name).or (t.find? name) := by
  induction entries generalizing t with
  | nil => rfl
  | cons e entries ih =>
    obtain ⟨m, x⟩ := e
    have hstep : t.insertAll ((m, x) :: entries) = (t.insert m x).insertAll entries := rfl
    rw [hstep, ih, find?_insert, List.reverse_cons, List.lookup_append, Option.or_assoc]
    congr 1
    by_cases hm : name = m
    · simp [hm]
    · have hne : (name == m) = false := by simp [hm]
      simp [List.lookup_cons, hm, hne]

theorem insertAll_append (t : IncludeTable) (entries entries' : List (Text × Text)) :
    t.insertAll (entries ++ entries') = (t.insertAll entries).insertAll entries' :=
  List.foldl_append

/-- Entries of different names can be added in either order. -/
theorem find?_insertAll_comm (t : IncludeTable) {xs ys : List (Text × Text)}
    (h : ∀ x ∈ xs, ∀ y ∈ ys, x.1 ≠ y.1) (name : Text) :
    ((t.insertAll xs).insertAll ys).find? name = ((t.insertAll ys).insertAll xs).find? name := by
  simp only [find?_insertAll]
  cases hx : xs.reverse.lookup name with
  | none => simp
  | some text =>
    obtain ⟨before, after, hsplit, -⟩ := List.lookup_eq_some_iff.1 hx
    have hmem : (name, text) ∈ xs := by
      rw [← List.mem_reverse, hsplit]
      simp
    have hy : ys.reverse.lookup name = none := by
      rw [List.lookup_eq_none_iff]
      intro y hy
      simpa using h _ hmem y (List.mem_reverse.1 hy)
    rw [hy, Option.none_or, Option.none_or]

end IncludeTable

/-! ### What a call brings in -/

/-- `e` is the source that is read at `path`. -/
structure SourceEntry.ReadAt (disk : Disk) (stageOf : Text → Stage) (path : Text)
    (e : SourceEntry) : Prop where
  name_eq : e.name = Path.base path
  path_eq : e.path = path
  stage_eq : e.stage = stageOf path
  text_eq : disk.read path = .ok e.text

/-- `e` is the include file that is read at `path`, under its name. -/
structure IncludeReadAt (disk : Disk) (path : Text) (e : Text × Text) : Prop where
  name_eq : e.1 = Path.base path
  text_eq : disk.read path = .ok e.2

/-- The names of sources. -/
def sourceNames (sources : List SourceEntry) : List Text := sources.map SourceEntry.name

namespace Session

/-- What a call brings into a session. -/
structure Gain where
  sources : List SourceEntry
  includes : List (Text × Text)

namespace Call

/-- The pattern by which a call looks for sources, and the stages that they are for. -/
def sourcePattern? : Call → Option (Text × (Text → Stage))
  | .vertex pattern => some (pattern, fun _ => .vertex)
  | .fragment pattern => some (pattern, fun _ => .fragment)
  | .source pattern => some (pattern, Stage.ofPath)
  | _ => none

/-- The pattern by which a call looks for files. -/
def pattern? : Call → Option Text
  | .vertex pattern | .fragment pattern | .source pattern | .includes pattern => some pattern
  | _ => none

/-- Whether a call only sets how sources are processed. -/
def isSetting : Call → Bool
  | .optimize _ | .discardLineInfo | .allowUntested | .package _ | .logger _ => true
  | _ => false

/-- What a call brings in when nothing goes wrong. -/
inductive Gains (disk : Disk) : Call → Gain → Prop
  | sources {c : Call} {pattern : Text} {stageOf : Text → Stage} {paths : List Text}
      {entries : List SourceEntry} :
      c.sourcePattern? = some (pattern, stageOf) → disk.Finds pattern paths →
      List.Forall₂ (SourceEntry.ReadAt disk stageOf) paths entries → Gains disk c ⟨entries, []⟩
  | includes {pattern : Text} {paths : List Text} {entries : List (Text × Text)} :
      disk.Finds pattern paths → List.Forall₂ (IncludeReadAt disk) paths entries →
      Gains disk (.includes pattern) ⟨[], entries⟩
  | addSource {name text : Text} {stage : Stage} :
      Gains disk (.addSource name stage text) ⟨[⟨name, [], stage, text⟩], []⟩
  | addInclude {name text : Text} : Gains disk (.addInclude name text) ⟨[], [(name, text)]⟩
  | setting {c : Call} : c.isSetting → Gains disk c ⟨[], []⟩

/-- Why the source at `path` does not join the sources that are there. -/
inductive Refuses (disk : Disk) (present : List SourceEntry) (path : Text) :
    DiscoveryError → Prop
  | unreadable {e : PathError} :
      disk.read path = .error e → Refuses disk present path (.unreadableSource path e)
  | duplicate {text : Text} :
      disk.read path = .ok text → Path.base path ∈ sourceNames present →
      Refuses disk present path (.duplicate (Path.base path) (some path))

/-- What goes wrong with a call where the sources `present` are there. Of the paths that a pattern
finds, those before the one that is refused are good. -/
inductive Fails (disk : Disk) (present : List SourceEntry) : Call → DiscoveryError → Prop
  | badPattern {c : Call} {pattern : Text} {e : Glob.BadPattern} :
      c.pattern? = some pattern → disk.glob pattern = .error e →
      Fails disk present c (.badPattern e)
  | source {c : Call} {pattern : Text} {stageOf : Text → Stage} {good rest : List Text}
      {path : Text} {entries : List SourceEntry} {e : DiscoveryError} :
      c.sourcePattern? = some (pattern, stageOf) → disk.Finds pattern (good ++ path :: rest) →
      List.Forall₂ (SourceEntry.ReadAt disk stageOf) good entries →
      (sourceNames (present ++ entries)).Nodup → Refuses disk (present ++ entries) path e →
      Fails disk present c e
  | unreadableInclude {pattern : Text} {good rest : List Text} {path : Text}
      {entries : List (Text × Text)} {e : PathError} :
      disk.Finds pattern (good ++ path :: rest) → List.Forall₂ (IncludeReadAt disk) good entries →
      disk.read path = .error e → Fails disk present (.includes pattern) (.unreadableInclude path e)
  | duplicate {name text : Text} {stage : Stage} :
      name ∈ sourceNames present →
      Fails disk present (.addSource name stage text) (.duplicate name none)

end Call

/-! ### Sources and include files at paths -/

section
variable {disk : Disk} {stageOf : Text → Stage} {s : Session}

@[simp] theorem hasSource_iff {name : Text} :
    s.hasSource name = true ↔ name ∈ sourceNames s.sources := by
  simp [hasSource, sourceNames]

theorem nodup_concat {sources : List SourceEntry} (h : (sourceNames sources).Nodup)
    {e : SourceEntry} (he : e.name ∉ sourceNames sources) :
    (sourceNames (sources ++ [e])).Nodup := by
  simp only [sourceNames, List.map_append, List.map_singleton]
  rw [List.nodup_append]
  refine ⟨h, by simp, ?_⟩
  intro name hname name' hname'
  rw [List.mem_singleton.1 hname']
  exact fun heq => he (heq ▸ hname)

/-- Good paths are added one after the other. -/
theorem addSourcesAt_append {good : List Text} {entries : List SourceEntry}
    (hgood : List.Forall₂ (SourceEntry.ReadAt disk stageOf) good entries)
    (hnodup : (sourceNames (s.sources ++ entries)).Nodup) (rest : List Text) :
    s.addSourcesAt disk stageOf (good ++ rest) =
      ({ s with sources := s.sources ++ entries } : Session).addSourcesAt disk stageOf rest := by
  induction hgood generalizing s with
  | nil => simp
  | @cons path e good entries he _ ih =>
    have hsplit : s.sources ++ e :: entries = (s.sources ++ [e]) ++ entries := by simp
    rw [hsplit] at hnodup ⊢
    -- names are distinct in the end, so this one is new when its turn comes
    have hfresh : e.name ∉ sourceNames s.sources := by
      intro hmem
      have hdup := (hnodup.sublist ((List.sublist_append_left _ _).map _))
      rw [List.map_append, List.nodup_append] at hdup
      exact hdup.2.2 _ hmem _ (by simp) rfl
    have hentry : (⟨Path.base path, path, stageOf path, e.text⟩ : SourceEntry) = e := by
      rw [← he.name_eq, ← he.stage_eq]
      nth_rewrite 1 [← he.path_eq]
      rfl
    rw [List.cons_append, addSourcesAt, he.text_eq]
    have hnot : s.hasSource (Path.base path) = false := by
      rw [← he.name_eq, Bool.eq_false_iff, Ne, hasSource_iff]
      exact hfresh
    simp only [hnot, Bool.false_eq_true, if_false, hentry]
    exact ih hnodup

theorem addSourcesAt_of_refuses {path : Text} {e : DiscoveryError}
    (h : Call.Refuses disk s.sources path e) (rest : List Text) :
    s.addSourcesAt disk stageOf (path :: rest) = s.fail e := by
  rw [addSourcesAt]
  cases h with
  | unreadable hread => rw [hread]
  | duplicate hread hname => simp [hread, hasSource_iff.2 hname]

/-- All paths are good, or there is a first one that is not. -/
theorem exists_good_paths (disk : Disk) (stageOf : Text → Stage) (paths : List Text)
    {present : List SourceEntry} (h : (sourceNames present).Nodup) :
    (∃ entries, List.Forall₂ (SourceEntry.ReadAt disk stageOf) paths entries ∧
        (sourceNames (present ++ entries)).Nodup) ∨
      ∃ good path rest entries e, paths = good ++ path :: rest ∧
        List.Forall₂ (SourceEntry.ReadAt disk stageOf) good entries ∧
        (sourceNames (present ++ entries)).Nodup ∧
        Call.Refuses disk (present ++ entries) path e := by
  induction paths generalizing present with
  | nil => exact .inl ⟨[], .nil, by simpa using h⟩
  | cons path paths ih =>
    cases hread : disk.read path with
    | error err =>
      refine .inr ⟨[], path, paths, [], .unreadableSource path err, rfl, .nil, ?_, ?_⟩
      · simpa using h
      · exact .unreadable hread
    | ok text =>
      by_cases hname : Path.base path ∈ sourceNames present
      · refine .inr
          ⟨[], path, paths, [], .duplicate (Path.base path) (some path), rfl, .nil, ?_, ?_⟩
        · simpa using h
        · exact .duplicate hread (by simpa using hname)
      · -- the source joins, and the other paths are judged with it present
        let e : SourceEntry := ⟨Path.base path, path, stageOf path, text⟩
        have hread' : e.ReadAt disk stageOf path := ⟨rfl, rfl, rfl, hread⟩
        rcases ih (nodup_concat h (e := e) hname) with ⟨entries, hgood, hnodup⟩ |
          ⟨good, path', rest, entries, err, rfl, hgood, hnodup, hrefuses⟩
        · exact .inl ⟨e :: entries, .cons hread' hgood, by simpa using hnodup⟩
        · exact .inr ⟨path :: good, path', rest, e :: entries, err, rfl, .cons hread' hgood,
            by simpa using hnodup, by simpa using hrefuses⟩

theorem addIncludesAt_append {good : List Text} {entries : List (Text × Text)}
    (hgood : List.Forall₂ (IncludeReadAt disk) good entries) (rest : List Text) :
    (s.addIncludesAt disk (good ++ rest)).1 =
      (({ s with includes := s.includes.insertAll entries } : Session).addIncludesAt disk rest).1
    := by
  induction hgood generalizing s with
  | nil => rfl
  | @cons path e good entries he _ ih =>
    rw [List.cons_append, addIncludesAt, he.text_eq]
    simp only [← he.name_eq]
    exact ih

theorem exists_good_includes (disk : Disk) (paths : List Text) :
    (∃ entries, List.Forall₂ (IncludeReadAt disk) paths entries) ∨
      ∃ good path rest entries e, paths = good ++ path :: rest ∧
        List.Forall₂ (IncludeReadAt disk) good entries ∧ disk.read path = .error e := by
  induction paths with
  | nil => exact .inl ⟨[], .nil⟩
  | cons path paths ih =>
    cases hread : disk.read path with
    | error e => exact .inr ⟨[], path, paths, [], e, rfl, .nil, hread⟩
    | ok text =>
      have hread' : IncludeReadAt disk path (Path.base path, text) := ⟨rfl, hread⟩
      rcases ih with ⟨entries, hgood⟩ | ⟨good, path', rest, entries, e, rfl, hgood, he⟩
      · exact .inl ⟨_, .cons hread' hgood⟩
      · exact .inr ⟨path :: good, path', rest, _, e, rfl, .cons hread' hgood, he⟩

end

/-! ### One call -/

section
variable {disk : Disk} {s : Session} {c : Call}

theorem error_fail (s : Session) (e : DiscoveryError) :
    (s.fail e).error = s.error.or (some e) := rfl

theorem call_of_finds {pattern : Text} {stageOf : Text → Stage} {paths : List Text}
    (herror : s.error = none) (hc : c.sourcePattern? = some (pattern, stageOf))
    (hfinds : disk.Finds pattern paths) :
    (s.call disk c).1 = s.addSourcesAt disk stageOf paths := by
  obtain ⟨found, hglob, -⟩ := hfinds.listed
  rw [(Disk.finds_iff hglob).1 hfinds]
  cases c <;> cases hc <;>
    simp [call, applyCall, addMatches, withMatches, herror, hglob]

theorem call_includes_of_finds {pattern : Text} {paths : List Text} (herror : s.error = none)
    (hfinds : disk.Finds pattern paths) :
    (s.call disk (.includes pattern)).1 = (s.addIncludesAt disk paths).1 := by
  obtain ⟨found, hglob, -⟩ := hfinds.listed
  rw [(Disk.finds_iff hglob).1 hfinds]
  simp [call, applyCall, withMatches, herror, hglob]

theorem call_of_badPattern {pattern : Text} {e : Glob.BadPattern} (herror : s.error = none)
    (hc : c.pattern? = some pattern) (hglob : disk.glob pattern = .error e) :
    (s.call disk c).1 = s.fail (.badPattern e) := by
  cases c <;> cases hc <;>
    simp [call, applyCall, addMatches, withMatches, herror, hglob]

/-- After something went wrong, patterns are not looked at. -/
theorem call_of_error {pattern : Text} {e : DiscoveryError} (herror : s.error = some e)
    (hc : c.pattern? = some pattern) : (s.call disk c).1 = s := by
  cases c <;> cases hc <;> simp [call, applyCall, addMatches, withMatches, herror]

/-- The session `s'` is `s` with what a call brought in. -/
structure Grows (s s' : Session) (g : Gain) : Prop where
  error : s'.error = s.error
  sources : s'.sources = s.sources ++ g.sources
  includes : s'.includes = s.includes.insertAll g.includes

theorem grows_of_isSetting (h : c.isSetting) : s.Grows (s.call disk c).1 ⟨[], []⟩ := by
  cases c <;> cases h <;> exact ⟨rfl, (List.append_nil _).symm, rfl⟩

/-- A session with what a call brings in. -/
def gain (s : Session) (g : Gain) : Session :=
  { s with sources := s.sources ++ g.sources, includes := s.includes.insertAll g.includes }

/-- A call that is no setting leaves everything else as it is. -/
theorem call_of_gains (herror : s.error = none) {g : Gain} (hg : c.Gains disk g)
    (hc : c.isSetting = false) (hnodup : (sourceNames (s.sources ++ g.sources)).Nodup) :
    (s.call disk c).1 = s.gain g := by
  have hincludes (entries : List (Text × Text)) :
      ({ s with includes := s.includes.insertAll entries } : Session) = s.gain ⟨[], entries⟩ := by
    simp [gain]
  cases hg with
  | sources hpattern hfinds hgood =>
    have hadd := addSourcesAt_append hgood hnodup []
    rw [List.append_nil, addSourcesAt] at hadd
    rw [call_of_finds herror hpattern hfinds, hadd]
    rfl
  | includes hfinds hgood =>
    have hadd := addIncludesAt_append (s := s) hgood []
    rw [List.append_nil, addIncludesAt] at hadd
    rw [call_includes_of_finds herror hfinds, hadd, hincludes]
  | @addSource name text stage =>
    have hfresh : s.hasSource name = false := by
      rw [Bool.eq_false_iff, Ne, hasSource_iff]
      intro hmem
      rw [sourceNames, List.map_append, List.nodup_append] at hnodup
      exact hnodup.2.2 name hmem name (by simp) rfl
    simp only [call, applyCall, hfresh, Bool.false_eq_true, if_false]
    rfl
  | @addInclude name text => exact hincludes [(name, text)]
  | setting hset =>
    rw [hc] at hset
    cases hset

theorem Call.Gains.eq_of_isSetting {g : Gain} (hg : c.Gains disk g) (hc : c.isSetting) :
    g = ⟨[], []⟩ := by
  cases hg with
  | sources hpattern => cases c <;> cases hpattern <;> cases hc
  | includes => cases hc
  | addSource => cases hc
  | addInclude => cases hc
  | setting => rfl

theorem grows_of_gains (herror : s.error = none) {g : Gain} (hg : c.Gains disk g)
    (hnodup : (sourceNames (s.sources ++ g.sources)).Nodup) : s.Grows (s.call disk c).1 g := by
  cases hc : c.isSetting with
  | true =>
    rw [hg.eq_of_isSetting hc]
    exact grows_of_isSetting hc
  | false =>
    rw [call_of_gains herror hg hc hnodup]
    exact ⟨rfl, rfl, rfl⟩

theorem call_of_fails (herror : s.error = none) {e : DiscoveryError}
    (he : c.Fails disk s.sources e) (hnodup : (sourceNames s.sources).Nodup) :
    (s.call disk c).1.error = some e ∧ (sourceNames (s.call disk c).1.sources).Nodup := by
  cases he with
  | badPattern hc hglob =>
    rw [call_of_badPattern herror hc hglob, error_fail, herror]
    exact ⟨rfl, hnodup⟩
  | source hc hfinds hgood hnodup' hrefuses =>
    rw [call_of_finds herror hc hfinds, addSourcesAt_append hgood hnodup',
      addSourcesAt_of_refuses hrefuses, error_fail]
    exact ⟨by rw [herror, Option.none_or], hnodup'⟩
  | unreadableInclude hfinds hgood hread =>
    rw [call_includes_of_finds herror hfinds, addIncludesAt_append hgood, addIncludesAt, hread]
    simp only [error_fail, herror, Option.none_or]
    exact ⟨trivial, hnodup⟩
  | duplicate hname =>
    simp only [call, applyCall, hasSource_iff.2 hname, if_true, error_fail, herror, Option.none_or]
    exact ⟨trivial, hnodup⟩

/-- A call brings something in, or it fails. -/
theorem gains_or_fails (disk : Disk) (c : Call) {present : List SourceEntry}
    (hnodup : (sourceNames present).Nodup) :
    (∃ g, c.Gains disk g ∧ (sourceNames (present ++ g.sources)).Nodup) ∨
      ∃ e, c.Fails disk present e := by
  have hsame : (sourceNames (present ++ [])).Nodup := by simpa using hnodup
  have hsources {pattern : Text} {stageOf : Text → Stage}
      (hc : c.sourcePattern? = some (pattern, stageOf)) (hp : c.pattern? = some pattern) :
      (∃ g, c.Gains disk g ∧ (sourceNames (present ++ g.sources)).Nodup) ∨
        ∃ e, c.Fails disk present e := by
    cases hglob : disk.glob pattern with
    | error e => exact .inr ⟨_, .badPattern hp hglob⟩
    | ok found =>
      have hfinds := (Disk.finds_iff hglob).2 rfl
      rcases exists_good_paths disk stageOf (found.mergeSort (· ≤ ·)) hnodup with
        ⟨entries, hgood, hentries⟩ | ⟨good, path, rest, entries, e, hpaths, hgood, hentries, hr⟩
      · exact .inl ⟨_, .sources hc hfinds hgood, hentries⟩
      · rw [hpaths] at hfinds
        exact .inr ⟨e, .source hc hfinds hgood hentries hr⟩
  cases c with
  | vertex pattern => exact hsources rfl rfl
  | fragment pattern => exact hsources rfl rfl
  | source pattern => exact hsources rfl rfl
  | includes pattern =>
    cases hglob : disk.glob pattern with
    | error e => exact .inr ⟨_, .badPattern rfl hglob⟩
    | ok found =>
      have hfinds := (Disk.finds_iff hglob).2 rfl
      rcases exists_good_includes disk (found.mergeSort (· ≤ ·)) with
        ⟨entries, hgood⟩ | ⟨good, path, rest, entries, e, hpaths, hgood, he⟩
      · exact .inl ⟨_, .includes hfinds hgood, hsame⟩
      · rw [hpaths] at hfinds
        exact .inr ⟨_, .unreadableInclude hfinds hgood he⟩
  | addSource name stage text =>
    by_cases hname : name ∈ sourceNames present
    · exact .inr ⟨_, .duplicate hname⟩
    · exact .inl ⟨_, .addSource, nodup_concat hnodup hname⟩
  | addInclude name text => exact .inl ⟨_, .addInclude, hsame⟩
  | optimize _ => exact .inl ⟨_, .setting rfl, hsame⟩
  | discardLineInfo => exact .inl ⟨_, .setting rfl, hsame⟩
  | allowUntested => exact .inl ⟨_, .setting rfl, hsame⟩
  | package _ => exact .inl ⟨_, .setting rfl, hsame⟩
  | logger _ => exact .inl ⟨_, .setting rfl, hsame⟩

/-- The first thing that went wrong stays, and so do distinct names. -/
theorem call_after_error (disk : Disk) (c : Call) {e : DiscoveryError} (herror : s.error = some e)
    (hnodup : (sourceNames s.sources).Nodup) :
    (s.call disk c).1.error = some e ∧ (sourceNames (s.call disk c).1.sources).Nodup := by
  have hpattern {pattern : Text} (hc : c.pattern? = some pattern) :
      (s.call disk c).1.error = some e ∧ (sourceNames (s.call disk c).1.sources).Nodup := by
    rw [call_of_error herror hc]
    exact ⟨herror, hnodup⟩
  cases c with
  | vertex pattern => exact hpattern rfl
  | fragment pattern => exact hpattern rfl
  | source pattern => exact hpattern rfl
  | includes pattern => exact hpattern rfl
  | addSource name stage text =>
    by_cases hname : s.hasSource name = true
    · simp only [call, applyCall, hname, if_true, error_fail, herror, Option.some_or]
      exact ⟨trivial, hnodup⟩
    · simp only [call, applyCall, hname]
      exact ⟨herror, nodup_concat hnodup (by simpa using hname)⟩
  | addInclude name text => exact ⟨herror, hnodup⟩
  | optimize _ => exact ⟨herror, hnodup⟩
  | discardLineInfo => exact ⟨herror, hnodup⟩
  | allowUntested => exact ⟨herror, hnodup⟩
  | package _ => exact ⟨herror, hnodup⟩
  | logger _ => exact ⟨herror, hnodup⟩

/-- **Names stay distinct**, whether the call fails or not. -/
theorem nodup_call (hnodup : (sourceNames s.sources).Nodup) :
    (sourceNames (s.call disk c).1.sources).Nodup := by
  cases herror : s.error with
  | some e => exact (call_after_error disk c herror hnodup).2
  | none =>
    rcases gains_or_fails disk c hnodup with ⟨g, hg, hg'⟩ | ⟨e, he⟩
    · rw [(grows_of_gains herror hg hg').sources]
      exact hg'
    · exact (call_of_fails herror he hnodup).2

end

/-! ### Calls one after the other -/

section
variable {disk : Disk} {s : Session}

/-- The session after calls. -/
def after (disk : Disk) (s : Session) (cs : List Call) : Session := (s.calls disk cs).1

@[simp] theorem after_nil : s.after disk [] = s := rfl

@[simp] theorem after_cons (c : Call) (cs : List Call) :
    s.after disk (c :: cs) = (s.call disk c).1.after disk cs := rfl

theorem after_append (cs ds : List Call) :
    s.after disk (cs ++ ds) = (s.after disk cs).after disk ds := by
  induction cs generalizing s with
  | nil => rfl
  | cons c cs ih => exact ih

theorem nodup_after (hnodup : (sourceNames s.sources).Nodup) (cs : List Call) :
    (sourceNames (s.after disk cs).sources).Nodup := by
  induction cs generalizing s with
  | nil => exact hnodup
  | cons c cs ih => exact ih (nodup_call hnodup)

theorem after_error (disk : Disk) {e : DiscoveryError} (herror : s.error = some e)
    (hnodup : (sourceNames s.sources).Nodup) (cs : List Call) :
    (s.after disk cs).error = some e := by
  induction cs generalizing s with
  | nil => exact herror
  | cons c cs ih =>
    obtain ⟨herror', hnodup'⟩ := call_after_error disk c herror hnodup
    exact ih herror' hnodup'

theorem exists_gains (herror : s.error = none) (hnodup : (sourceNames s.sources).Nodup)
    {cs : List Call} (h : (s.after disk cs).error = none) :
    ∃ gs, List.Forall₂ (Call.Gains disk) cs gs ∧
      (s.after disk cs).sources = s.sources ++ gs.flatMap Gain.sources ∧
      (s.after disk cs).includes = s.includes.insertAll (gs.flatMap Gain.includes) := by
  induction cs generalizing s with
  | nil => exact ⟨[], .nil, (List.append_nil _).symm, rfl⟩
  | cons c cs ih =>
    rcases gains_or_fails disk c hnodup with ⟨g, hg, hg'⟩ | ⟨e, he⟩
    · have hgrows := grows_of_gains herror hg hg'
      rw [← hgrows.sources] at hg'
      obtain ⟨gs, hgs, hsources, hincludes⟩ := ih (hgrows.error.trans herror) hg' h
      refine ⟨g :: gs, .cons hg hgs, ?_, ?_⟩
      · rw [after_cons, hsources, hgrows.sources, List.flatMap_cons, List.append_assoc]
      · rw [after_cons, hincludes, hgrows.includes, List.flatMap_cons,
          IncludeTable.insertAll_append]
    · -- what went wrong at this call would still be there
      obtain ⟨he', hnodup'⟩ := call_of_fails herror he hnodup
      rw [after_cons, after_error disk he' hnodup'] at h
      cases h

theorem exists_first_failure (herror : s.error = none) (hnodup : (sourceNames s.sources).Nodup)
    {cs : List Call} {e : DiscoveryError} (h : (s.after disk cs).error = some e) :
    ∃ before c later, cs = before ++ c :: later ∧ (s.after disk before).error = none ∧
      c.Fails disk (s.after disk before).sources e := by
  induction cs generalizing s with
  | nil =>
    rw [after_nil, herror] at h
    cases h
  | cons c cs ih =>
    rcases gains_or_fails disk c hnodup with ⟨g, hg, hg'⟩ | ⟨e', he⟩
    · have hgrows := grows_of_gains herror hg hg'
      rw [← hgrows.sources] at hg'
      obtain ⟨before, c', later, rfl, hbefore, hfails⟩ := ih (hgrows.error.trans herror) hg' h
      exact ⟨c :: before, c', later, rfl, hbefore, hfails⟩
    · -- this is the first failure, and later calls keep it
      obtain ⟨he', hnodup'⟩ := call_of_fails herror he hnodup
      rw [after_cons, after_error disk he' hnodup'] at h
      cases h
      exact ⟨[], c, cs, rfl, herror, he⟩

theorem error_after_iff (herror : s.error = none) (hnodup : (sourceNames s.sources).Nodup)
    {cs : List Call} {e : DiscoveryError} :
    (s.after disk cs).error = some e ↔
      ∃ before c later, cs = before ++ c :: later ∧ (s.after disk before).error = none ∧
        c.Fails disk (s.after disk before).sources e := by
  constructor
  · exact exists_first_failure herror hnodup
  · rintro ⟨before, c, later, rfl, hbefore, hfails⟩
    obtain ⟨he, hnodup'⟩ := call_of_fails hbefore hfails (nodup_after hnodup before)
    rw [after_append, after_cons]
    exact after_error disk he hnodup' later

end

/-! ### Disks that list in another order -/

section
variable {disk disk' : Disk} (h : disk.Reorders disk')
include h

theorem addSourcesAt_reorders (stageOf : Text → Stage) (s : Session) (paths : List Text) :
    s.addSourcesAt disk' stageOf paths = s.addSourcesAt disk stageOf paths := by
  induction paths generalizing s with
  | nil => rfl
  | cons path paths ih => simp only [addSourcesAt, h.read_eq, ih]

theorem addIncludesAt_reorders (s : Session) (paths : List Text) :
    s.addIncludesAt disk' paths = s.addIncludesAt disk paths := by
  induction paths generalizing s with
  | nil => rfl
  | cons path paths ih => simp only [addIncludesAt, h.read_eq, ih]

theorem withMatches_reorders (s : Session) (pattern : Text)
    (add : Session → List Text → Session × List Record) :
    s.withMatches disk' pattern add = s.withMatches disk pattern add := by
  rw [withMatches, withMatches]
  cases hglob : disk.glob pattern with
  | error e => rw [h.error pattern e hglob]
  | ok paths =>
    obtain ⟨paths', hglob', hperm⟩ := h.found pattern paths hglob
    -- all that is used of the list is its sorted form, and whether it is empty
    have hsorted : paths'.mergeSort (· ≤ ·) = paths.mergeSort (· ≤ ·) := by
      apply eq_of_perm_of_sorted _ (pairwise_mergeSort_text _) (pairwise_mergeSort_text _)
      exact ((List.mergeSort_perm _ _).trans hperm).trans (List.mergeSort_perm _ _).symm
    have hempty : paths' = [] ↔ paths = [] := by
      rw [← List.length_eq_zero_iff, hperm.length_eq, List.length_eq_zero_iff]
    simp only [hglob', hsorted, hempty]

theorem calls_reorders (s : Session) (cs : List Call) : s.calls disk' cs = s.calls disk cs := by
  have happly (s : Session) (c : Call) : s.applyCall disk' c = s.applyCall disk c := by
    cases c <;>
      simp only [applyCall, addMatches, withMatches_reorders h, addSourcesAt_reorders h,
        funext₂ (addIncludesAt_reorders h)]
  induction cs generalizing s with
  | nil => rfl
  | cons c cs ih => simp only [calls, call, happly, ih]

end

/-! ### The outcome of a session with an error -/

theorem process_of_error {s : Session} {e : DiscoveryError} (h : s.error = some e)
    (tree : FileTree) : s.process tree = ⟨tree, [], .error (.discovery e)⟩ := by
  simp [process, processAll, h, Logger.filter]

/-- **What calls make of a session.** The names of its sources are distinct, always. If nothing
went wrong, its sources are what the calls brought in, in their order, and its table has the last
text that they gave for each name. Something went wrong if and only if some call fails, and then the
first failure is what the session keeps: no later call changes that, patterns bring in nothing more,
and processing, building and emitting end with it. The order in which patterns list what they find
plays no part. -/
theorem session_of_calls (disk : Disk) (language : Language) (cs : List Call) :
    let s := (start language).after disk cs
    (sourceNames s.sources).Nodup ∧
    (s.error = none → ∃ gs, List.Forall₂ (Call.Gains disk) cs gs ∧
      s.sources = gs.flatMap Gain.sources ∧
      ∀ name, s.includes.find? name = (gs.flatMap Gain.includes).reverse.lookup name) ∧
    (∀ e, s.error = some e ↔ ∃ before c later, cs = before ++ c :: later ∧
      ((start language).after disk before).error = none ∧
      c.Fails disk ((start language).after disk before).sources e) ∧
    (∀ e, s.error = some e →
      (∀ later, (s.after disk later).error = some e) ∧
      (∀ later c pattern, c.pattern? = some pattern →
        ((s.after disk later).call disk c).1.sources = (s.after disk later).sources ∧
        ((s.after disk later).call disk c).1.includes = (s.after disk later).includes) ∧
      ∀ tree, (s.process tree).result = .error (.discovery e) ∧
        (∀ dir, (s.build tree dir).result = .error (.discovery e)) ∧
        ∀ name, (s.emit tree name).result = .error (.discovery e)) ∧
    ∀ disk', disk.Reorders disk' → (start language).calls disk' cs = (start language).calls disk cs
    := by
  intro s
  have hstart : (sourceNames (start language).sources).Nodup := List.nodup_nil
  have hnodup : (sourceNames s.sources).Nodup := nodup_after hstart cs
  refine ⟨hnodup, ?_, fun e => error_after_iff rfl hstart, ?_,
    fun disk' h => calls_reorders h _ cs⟩
  · intro herror
    obtain ⟨gs, hgs, hsources, hincludes⟩ := exists_gains rfl hstart herror
    refine ⟨gs, hgs, hsources, ?_⟩
    intro name
    have hempty : (start language).includes.find? name = none := rfl
    rw [hincludes, IncludeTable.find?_insertAll, hempty, Option.or_none]
  · intro e herror
    have hlater (later : List Call) := after_error disk herror hnodup later
    refine ⟨hlater, ?_, ?_⟩
    · intro later c pattern hc
      rw [call_of_error (hlater later) hc]
      exact ⟨rfl, rfl⟩
    · intro tree
      have hprocess := process_of_error herror tree
      refine ⟨by rw [hprocess], fun dir => ?_, fun name => ?_⟩
      · rw [build, hprocess]
      · rw [emit, hprocess]
        rfl

end Session
end ShaderSplice
