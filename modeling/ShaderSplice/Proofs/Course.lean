import ShaderSplice.Proofs.Visit
import ShaderSplice.Proofs.Registry
import Mathlib.Data.List.Nodup

/-!
# The course of a walk

A walk comes to include directives one after the other, enters the files that they name, and stops
early at a directive with a defect. `Course` tells this line by line, for walks that fail as well as
for those that succeed:

    walk ──▶ Track:  visits   the directives it comes to
                     entered  the names it enters
                     stop?    where and why it stops early

Whatever can be said about the order of a walk is proved by induction on its course. The visits are
sorted by their sites; they are all the directives up to the stop; and the stop is the first defect
in document order (`Course.sorted`, `Course.mem_visits_iff`, `Course.firstDefect`).
-/

namespace ShaderSplice

/-- Where and why a walk stops early. -/
structure Stop where
  site : List Nat
  failure : Failure

/-- A stop inside the include `name`, seen from the file that includes it on line `number`. -/
def Stop.inside (number : Nat) (name : Text) (s : Stop) : Stop :=
  ⟨number :: s.site, s.failure.inside name⟩

/-- What a walk leaves behind. -/
structure Track where
  visits : List Visit
  entered : List Text
  stop? : Option Stop

/-- The course of a walk over the lines `ls` of the file `source`, to which `path` leads. -/
inductive Course (table : IncludeTable) (version : Text) :
    (source : Text) → (path : List Text) → (ls : List SourceLine) → Track → Prop
  | nil {source : Text} {path : List Text} : Course table version source path [] ⟨[], [], none⟩
  /-- A line that is no include directive leaves nothing behind. -/
  | keep {source : Text} {path : List Text} {l : SourceLine} {rest : List SourceLine} {t : Track} :
      l.target? = none → Course table version source path rest t →
      Course table version source path (l :: rest) t
  /-- The walk comes to a directive with a defect. What it has entered there is what the failure
  says: a file with the wrong version, or nothing. -/
  | stop {source : Text} {path : List Text} {l : SourceLine} {rest : List SourceLine}
      {target : Text} {f : Failure} :
      l.role = .splice target → Defect table version source path (.own l.number target) f →
      Course table version source path (l :: rest)
        ⟨[.own l.number target], f.chain, some ⟨[l.number], f⟩⟩
  /-- The walk descends and does not come back. -/
  | abandon {source : Text} {path : List Text} {l : SourceLine} {rest : List SourceLine}
      {target content : Text} {visits : List Visit} {names : List Text} {s : Stop} :
      l.role = .splice target → Sound table version path target content →
      Course table version target (path ++ [target]) (sourceLines content)
        ⟨visits, names, some s⟩ →
      Course table version source path (l :: rest)
        ⟨.own l.number target :: visits.map (.below l.number target), target :: names,
          some (s.inside l.number target)⟩
  /-- The walk descends, comes back and goes on. -/
  | resume {source : Text} {path : List Text} {l : SourceLine} {rest : List SourceLine}
      {target content : Text} {visits : List Visit} {names : List Text} {t : Track} :
      l.role = .splice target → Sound table version path target content →
      Course table version target (path ++ [target]) (sourceLines content)
        ⟨visits, names, none⟩ →
      Course table version source path rest t →
      Course table version source path (l :: rest)
        ⟨.own l.number target :: visits.map (.below l.number target) ++ t.visits,
          target :: names ++ t.entered, t.stop?⟩

variable {table : IncludeTable} {version : Text}

/-! ### Every walk has its course -/

/-- The failure with which a walk ends. -/
def Walk.failure? (w : Walk) : Option Failure :=
  match w.result with
  | .ok _ => none
  | .error f => some f

theorem Walk.failure?_keep (l : SourceLine) (next : Walk) :
    (keep l next).failure? = next.failure? := by
  rw [failure?, keep, failure?]
  cases next.result <;> rfl

theorem Walk.failure?_resume (source : Text) (l : SourceLine) (target : Text) (child : List Event)
    (body : Body) (next : Walk) :
    (resume source l target child body next).failure? = next.failure? := by
  rw [failure?, resume, failure?]
  cases next.result <;> rfl

/-- The version that leads a file is met before anything else happens in it. -/
theorem walk_of_lead {source found : Text} {path : List Text} (number : Nat) (inBlock : Bool)
    (raws : List Text)
    (hfound : leadVersion? (sourceLinesFrom number inBlock false raws) = some found)
    (hne : found ≠ version) :
    walk table version source path (sourceLinesFrom number inBlock false raws) =
      .fail (.mismatch source found version) := by
  induction raws generalizing number inBlock with
  | nil => cases hfound
  | cons raw raws ih =>
    rw [sourceLinesFrom_cons] at hfound ⊢
    rw [leadVersion?, List.findSome?_cons, SourceLine.leadVersion?, ← leadVersion?] at hfound
    cases hrole : (SourceLine.ofRaw number inBlock false raw).role with
    | silent =>
      rw [hrole] at hfound
      rw [walk_cons_of_keep (by rw [SourceLine.target?, hrole])
        (by rw [SourceLine.leadVersion?, hrole]; simp)]
      exact congrArg (Walk.keep _) (ih _ _ hfound)
    | lead declared =>
      rw [hrole] at hfound
      cases hfound
      exact walk_cons_of_lead hrole hne
    | splice target =>
      rw [leadVersion?_below (by rw [hrole]; simp), hrole] at hfound
      cases hfound
    | ordinary redeclares =>
      rw [leadVersion?_below (by rw [hrole]; simp), hrole] at hfound
      cases hfound

theorem walk_of_mismatch {source content found : Text} {path : List Text}
    (hfound : openingVersion? content = some found) (hne : found ≠ version) :
    walk table version source path (sourceLines content) =
      .fail (.mismatch source found version) := by
  rw [← leadVersion?_sourceLines] at hfound
  exact walk_of_lead 1 false (lines content) hfound hne

/-- The track of a walk: what it enters and how it ends. -/
structure Track.Of (t : Track) (w : Walk) : Prop where
  entered_eq : t.entered = w.entered
  failure_eq : t.stop?.map Stop.failure = w.failure?

theorem exists_course {source : Text} {path : List Text} {ls : List SourceLine}
    (hlead : ∀ l ∈ ls, ∀ v, l.leadVersion? = some v → v = version) :
    ∃ t, Course table version source path ls t ∧ t.Of (walk table version source path ls) := by
  have hkeep {source : Text} {path : List Text} {l : SourceLine} {rest : List SourceLine}
      {next : Walk} (htarget : l.target? = none)
      (hnext : ∃ t, Course table version source path rest t ∧ t.Of next) :
      ∃ t, Course table version source path (l :: rest) t ∧ t.Of (.keep l next) := by
    obtain ⟨t, hcourse, ht⟩ := hnext
    refine ⟨t, .keep htarget hcourse, ht.entered_eq, ?_⟩
    rw [Walk.failure?_keep]
    exact ht.failure_eq
  fun_induction walk table version source path ls with
  | case1 source path => exact ⟨_, .nil, rfl, rfl⟩
  | case2 source path l rest hrole ih =>
    refine hkeep (by rw [SourceLine.target?, hrole]) (ih ?_)
    exact fun l' hl' => hlead l' (List.mem_cons_of_mem _ hl')
  | case3 source path l rest declared hrole hv =>
    exact absurd (hlead l List.mem_cons_self declared (SourceLine.leadVersion?_eq_some_iff.2 hrole))
      hv
  | case4 source path l rest target hrole hfind =>
    exact ⟨_, .stop hrole (.missing hfind), rfl, rfl⟩
  | case5 source path l rest target hrole content hfind hpath =>
    refine ⟨_, .stop hrole (.cycle hfind (by simpa using hpath)), rfl, ?_⟩
    simp [Walk.failure?, Walk.fail]
  | case6 source path l rest target hrole content hfind hpath child f hchild =>
    -- the walk fails in the include: at its leading version, or at a directive further down
    rename_i ih
    by_cases hv : ∀ v, openingVersion? content = some v → v = version
    · obtain ⟨⟨visits, names, stop⟩, hcourse, hentered, hfailure⟩ :=
        ih (lead_eq_of_openingVersion? hv)
      rw [Walk.failure?, show (walk table version target (path ++ [target])
        (sourceLines content)).result = .error f from hchild] at hfailure
      obtain ⟨s, rfl, rfl⟩ := Option.map_eq_some_iff.1 hfailure
      refine ⟨_, .abandon hrole ⟨hfind, hpath, hv⟩ hcourse, ?_, rfl⟩
      rw [Walk.entered_abandon]
      exact congrArg (target :: ·) hentered
    · -- the include leads with another version, which is all that is met in it
      simp only [not_forall] at hv
      obtain ⟨found, hfound, hne⟩ := hv
      have hfail : child = .fail (.mismatch target found version) := walk_of_mismatch hfound hne
      rw [hfail] at hchild ⊢
      cases hchild
      exact ⟨_, .stop hrole (.mismatch hfind (by simpa using hpath) hfound hne), rfl,
        rfl⟩
  | case7 source path l rest target hrole content hfind hpath child body hchild ihchild =>
    rename_i ih
    have hlead' := (expands_of_walk hchild).lead_eq
    obtain ⟨⟨visits, names, stop⟩, hcourse, hentered, hfailure⟩ := ihchild hlead'
    obtain ⟨t, hcourse', hentered', hfailure'⟩ :=
      ih fun l' hl' => hlead l' (List.mem_cons_of_mem _ hl')
    rw [Walk.failure?, show (walk table version target (path ++ [target])
      (sourceLines content)).result = .ok body from hchild, Option.map_eq_none_iff] at hfailure
    subst hfailure
    have hsound : Sound table version path target content :=
      ⟨hfind, hpath, fun v => openingVersion?_eq_of_lead hlead'⟩
    refine ⟨_, .resume hrole hsound hcourse hcourse', ?_, ?_⟩
    · rw [Walk.entered_resume, ← hentered']
      exact congrArg (fun ns => target :: ns ++ t.entered) hentered
    · rw [Walk.failure?_resume]
      exact hfailure'
  | case8 source path l rest hrole ih =>
    refine hkeep (by rw [SourceLine.target?, hrole]) (ih ?_)
    exact fun l' hl' => hlead l' (List.mem_cons_of_mem _ hl')
  | case9 source path l rest redeclares hrole ih =>
    refine hkeep (by rw [SourceLine.target?, hrole]) (ih ?_)
    exact fun l' hl' => hlead l' (List.mem_cons_of_mem _ hl')

/-! ### Where a walk stops -/

section
variable {source : Text} {path : List Text} {ls : List SourceLine} {t : Track}

/-- A walk stops at a directive with a defect. -/
theorem Course.exists_defect (h : Course table version source path ls t) {s : Stop}
    (hs : t.stop? = some s) :
    ∃ v, OccursIn table ls v ∧ v.site = s.site ∧
      Defect table version source path v s.failure := by
  induction h generalizing s with
  | nil => cases hs
  | keep htarget _ ih =>
    obtain ⟨v, hv, hdefect⟩ := ih hs
    exact ⟨v, occursIn_cons.2 (.inr hv), hdefect⟩
  | stop hrole hdefect =>
    cases hs
    exact ⟨_, occursIn_cons.2 (.inl ⟨_, hrole, .inl rfl⟩), rfl, hdefect⟩
  | abandon hrole hsound _ ih =>
    cases hs
    -- the defect of the include is, seen from here, a defect below the directive
    obtain ⟨v, hv, hsite, hdefect⟩ := ih rfl
    refine ⟨_, occursIn_cons.2 (.inl ((hsound.starts_iff hrole).2 (.inr ⟨v, hv, rfl⟩))), ?_, ?_⟩
    · exact congrArg (_ :: ·) hsite
    · exact defect_below_iff.2 ⟨_, hdefect, rfl⟩
  | resume hrole hsound _ _ _ ih =>
    obtain ⟨v, hv, hdefect⟩ := ih hs
    exact ⟨v, occursIn_cons.2 (.inr hv), hdefect⟩

/-- It stops at the first of them, and only if there is none it comes to the end. -/
theorem Course.exists_stop (h : Course table version source path ls t) {index : Nat}
    {inBlock : Bool} (hplace : InPlace index inBlock ls) {v : Visit} {f : Failure}
    (hv : OccursIn table ls v) (hdefect : Defect table version source path v f) :
    ∃ s, t.stop? = some s ∧ s.site ≤ v.site := by
  induction h generalizing index inBlock v f with
  | nil =>
    obtain ⟨l, hl, -⟩ := hv
    simp at hl
  | keep htarget _ ih =>
    exact ih hplace.tail ((occursIn_cons_of_target? htarget).1 hv) hdefect
  | stop hrole _ =>
    refine ⟨_, rfl, ?_⟩
    rcases occursIn_cons.1 hv with hv | hv
    · obtain ⟨site, hsite⟩ := hv.exists_site_eq
      rw [hsite, cons_le_cons_iff_le]
      exact not_lt.1 (List.not_lt_nil site)
    · exact (hplace.cons_lt_site hv _).le
  | abandon hrole hsound _ ih =>
    refine ⟨_, rfl, ?_⟩
    rcases occursIn_cons.1 hv with hv | hv
    · rcases (hsound.starts_iff hrole).1 hv with rfl | ⟨w, hw, rfl⟩
      · exact absurd hdefect (Sound.not_defect (by simpa using hsound))
      · obtain ⟨g, hg, -⟩ := defect_below_iff.1 hdefect
        obtain ⟨s, hs, hle⟩ := ih (inPlace_sourceLines _) hw hg
        cases hs
        exact cons_le_cons_iff_le.2 hle
    · exact (hplace.cons_lt_site hv _).le
  | resume hrole hsound _ _ ihchild ih =>
    rcases occursIn_cons.1 hv with hv | hv
    · rcases (hsound.starts_iff hrole).1 hv with rfl | ⟨w, hw, rfl⟩
      · exact absurd hdefect (Sound.not_defect (by simpa using hsound))
      · -- the walk came back from the include, so nothing in it has a defect
        obtain ⟨g, hg, -⟩ := defect_below_iff.1 hdefect
        obtain ⟨s, hs, -⟩ := ihchild (inPlace_sourceLines _) hw hg
        cases hs
    · exact ih hplace.tail hv hdefect

/-- The names that lead to a stop are different, and off the path to the file. -/
theorem Course.nodup_chain (h : Course table version source path ls t) (hpath : path.Nodup)
    {s : Stop} (hs : t.stop? = some s) : (path ++ s.failure.chain).Nodup := by
  have hconcat {path : List Text} {target : Text} (hpath : path.Nodup) (htarget : target ∉ path) :
      (path ++ [target]).Nodup := by
    rw [← List.concat_eq_append]
    exact List.Nodup.concat htarget hpath
  induction h generalizing s with
  | nil => cases hs
  | keep _ _ ih => exact ih hpath hs
  | stop _ hdefect =>
    cases hs
    cases hdefect with
    | missing => simpa using hpath
    | cycle => simpa using hpath
    | mismatch _ htarget => exact hconcat hpath (by simpa using htarget)
  | abandon _ hsound _ ih =>
    cases hs
    -- below the include its name is on the path, so the chain cannot come back to it
    have hchild := ih (hconcat hpath hsound.off_path) rfl
    rwa [List.append_assoc] at hchild
  | resume _ _ _ _ _ ih => exact ih hpath hs

/-! ### What a walk comes to -/

/-- A walk comes to all directives up to its stop. -/
theorem Course.mem_visits_iff (h : Course table version source path ls t) {index : Nat}
    {inBlock : Bool} (hplace : InPlace index inBlock ls) {v : Visit} :
    v ∈ t.visits ↔ OccursIn table ls v ∧ ∀ s, t.stop? = some s → v.site ≤ s.site := by
  induction h generalizing index inBlock v with
  | nil => simp [OccursIn]
  | keep htarget _ ih => rw [occursIn_cons_of_target? htarget, ih hplace.tail]
  | @stop source path l rest target f hrole _ =>
    simp only [List.mem_singleton, Option.some.injEq, forall_eq']
    constructor
    · rintro rfl
      exact ⟨occursIn_cons.2 (.inl ⟨target, hrole, .inl rfl⟩), le_rfl⟩
    · rintro ⟨hv, hle⟩
      rcases occursIn_cons.1 hv with ⟨name, hname, hv⟩ | hv
      · rw [hrole] at hname
        cases hname
        rcases hv with rfl | ⟨content, w, -, hw, rfl⟩
        · rfl
        · -- what is below the directive comes after it
          have hnil : w.site ≤ [] := cons_le_cons_iff_le.1 hle
          exact absurd (nil_lt_of_ne_nil (occursIn_sourceLines.2 hw).site_ne_nil) (not_lt.2 hnil)
      · exact absurd (hplace.cons_lt_site hv []) (not_lt.2 hle)
  | @abandon source path l rest target content visits names s hrole hsound _ ih =>
    have hchild (w : Visit) :
        w ∈ visits ↔ OccursIn table (sourceLines content) w ∧ w.site ≤ s.site := by
      simpa using ih (inPlace_sourceLines content) (v := w)
    simp only [List.mem_cons, List.mem_map, Option.some.injEq, forall_eq', occursIn_cons,
      hsound.starts_iff hrole]
    constructor
    · rintro (rfl | ⟨w, hw, rfl⟩)
      · exact ⟨.inl (.inl rfl), cons_le_cons_iff_le.2 (not_lt.1 (List.not_lt_nil _))⟩
      · obtain ⟨hoccurs, hle⟩ := (hchild w).1 hw
        exact ⟨.inl (.inr ⟨w, hoccurs, rfl⟩), cons_le_cons_iff_le.2 hle⟩
    · rintro ⟨(rfl | ⟨w, hw, rfl⟩) | hv, hle⟩
      · exact .inl rfl
      · exact .inr ⟨w, (hchild w).2 ⟨hw, cons_le_cons_iff_le.1 hle⟩, rfl⟩
      · exact absurd (hplace.cons_lt_site hv _) (not_lt.2 hle)
  | @resume source path l rest target content visits names t hrole hsound _ hrest ihchild ih =>
    have hchild (w : Visit) : w ∈ visits ↔ OccursIn table (sourceLines content) w := by
      simpa using ihchild (inPlace_sourceLines content) (v := w)
    -- a stop lies in the rest, and the rest comes after the line
    have hstop (site : List Nat) : ∀ s, t.stop? = some s → l.number :: site ≤ s.site := by
      intro s hs
      obtain ⟨v', hv', hsite, -⟩ := hrest.exists_defect hs
      rw [← hsite]
      exact (hplace.cons_lt_site hv' site).le
    simp only [List.cons_append, List.mem_cons, List.mem_append, List.mem_map, occursIn_cons,
      hsound.starts_iff hrole]
    constructor
    · rintro (rfl | ⟨w, hw, rfl⟩ | hv)
      · exact ⟨.inl (.inl rfl), hstop []⟩
      · exact ⟨.inl (.inr ⟨w, (hchild w).1 hw, rfl⟩), hstop w.site⟩
      · obtain ⟨hoccurs, hle⟩ := (ih hplace.tail).1 hv
        exact ⟨.inr hoccurs, hle⟩
    · rintro ⟨(rfl | ⟨w, hw, rfl⟩) | hv, hle⟩
      · exact .inl rfl
      · exact .inr (.inl ⟨w, (hchild w).2 hw, rfl⟩)
      · exact .inr (.inr ((ih hplace.tail).2 ⟨hv, hle⟩))

/-- And it comes to them in document order. -/
theorem Course.sorted (h : Course table version source path ls t) {index : Nat} {inBlock : Bool}
    (hplace : InPlace index inBlock ls) : t.visits.Pairwise fun v w => v.site < w.site := by
  -- an include directive, and then what is below it
  have hdown {number : Nat} {target content : Text} {visits : List Visit}
      (hoccurs : ∀ w ∈ visits, OccursIn table (sourceLines content) w)
      (hsorted : visits.Pairwise fun v w => v.site < w.site) :
      (Visit.own number target :: visits.map (.below number target)).Pairwise
        fun v w => v.site < w.site := by
    rw [List.pairwise_cons, List.pairwise_map]
    constructor
    · intro w' hw'
      obtain ⟨w, hw, rfl⟩ := List.mem_map.1 hw'
      exact List.cons_lt_cons_iff.2 (.inr ⟨rfl, nil_lt_of_ne_nil (hoccurs w hw).site_ne_nil⟩)
    · exact hsorted.imp fun hlt => List.cons_lt_cons_iff.2 (.inr ⟨rfl, hlt⟩)
  induction h generalizing index inBlock with
  | nil => exact .nil
  | keep _ _ ih => exact ih hplace.tail
  | stop => exact List.pairwise_singleton _ _
  | abandon _ _ hchild ih =>
    have hin := inPlace_sourceLines
    exact hdown (fun w hw => ((hchild.mem_visits_iff (hin _)).1 hw).1) (ih (hin _))
  | resume _ _ hchild hrest ihchild ih =>
    have hin := inPlace_sourceLines
    rw [List.pairwise_append]
    refine ⟨hdown (fun w hw => ((hchild.mem_visits_iff (hin _)).1 hw).1) (ihchild (hin _)),
      ih hplace.tail, ?_⟩
    intro v hv w hw
    have hoccurs := ((hrest.mem_visits_iff hplace.tail).1 hw).1
    rcases List.mem_cons.1 hv with rfl | hv
    · exact hplace.cons_lt_site hoccurs []
    · obtain ⟨v', -, rfl⟩ := List.mem_map.1 hv
      exact hplace.cons_lt_site hoccurs v'.site

/-! ### What a walk enters -/

/-- The includes that lead to a stop have been entered. -/
theorem Course.chain_subset_entered (h : Course table version source path ls t) {s : Stop}
    (hs : t.stop? = some s) : s.failure.chain ⊆ t.entered := by
  induction h generalizing s with
  | nil => cases hs
  | keep _ _ ih => exact ih hs
  | stop =>
    cases hs
    exact List.Subset.refl _
  | abandon _ _ _ ih =>
    cases hs
    exact List.cons_subset_cons _ (ih rfl)
  | resume _ _ _ _ _ ih => exact List.subset_append_of_subset_right _ (ih hs)

/-- A walk enters the targets of its visits, in their order. It leaves out a target without a file,
and at the end perhaps one that it has entered already. -/
theorem Course.exists_targets_eq (h : Course table version source path ls t) :
    ∃ again, (t.visits.map Visit.target).filter (· ∈ table.names) = t.entered ++ again ∧
      (t.stop? = none → again = []) ∧ ∀ n ∈ again, n ∈ path ∨ n ∈ t.entered := by
  -- an include directive, and then what is below it
  have hdown {number : Nat} {target content : Text} {path : List Text} {visits : List Visit}
      (hsound : Sound table version path target content) :
      ((Visit.own number target :: visits.map (.below number target)).map Visit.target).filter
          (· ∈ table.names) =
        target :: (visits.map Visit.target).filter (· ∈ table.names) := by
    have hmem := IncludeTable.mem_names_of_find? hsound.find
    simp [hmem, Function.comp_def]
  induction h with
  | nil => exact ⟨[], by simp⟩
  | keep _ _ ih => exact ih
  | @stop source path l rest target f _ hdefect =>
    cases hdefect with
    | missing hnone =>
      have hnot := IncludeTable.find?_isSome_iff.not.1 (by rw [hnone]; simp)
      rw [Visit.target_own] at hnot
      exact ⟨[], by simp [hnot], by simp⟩
    | cycle hfind hmem =>
      -- the one target with a file that is not entered: it is on the path already
      have hname := IncludeTable.mem_names_of_find? hfind
      rw [Visit.target_own] at hname
      exact ⟨[target], by simp [hname], by simp, by simpa using hmem⟩
    | mismatch hfind =>
      have hname := IncludeTable.mem_names_of_find? hfind
      rw [Visit.target_own] at hname
      exact ⟨[], by simp [hname], by simp⟩
  | abandon _ hsound _ ih =>
    obtain ⟨again, htargets, -, hagain⟩ := ih
    refine ⟨again, by rw [hdown hsound, htargets]; rfl, by simp, ?_⟩
    intro n hn
    rcases hagain n hn with hn | hn
    · rcases List.mem_append.1 hn with hn | hn
      · exact .inl hn
      · exact .inr (List.mem_cons.2 (.inl (List.mem_singleton.1 hn)))
    · exact .inr (List.mem_cons_of_mem _ hn)
  | resume _ hsound _ _ ihchild ih =>
    obtain ⟨again, htargets, hnone, -⟩ := ihchild
    obtain ⟨again', htargets', hnone', hagain'⟩ := ih
    -- the include came to its end, so all its targets were entered
    rw [hnone rfl, List.append_nil] at htargets
    refine ⟨again', ?_, hnone', ?_⟩
    · rw [List.map_append, List.filter_append, hdown hsound, htargets, htargets',
        List.append_assoc]
    · intro n hn
      exact (hagain' n hn).imp_right fun hn => List.mem_append_right _ hn

end

/-! ### The walk over a source -/

theorem Course.firstDefect {name text : Text} {t : Track}
    (h : Course table version name [] (sourceLines text) t) {s : Stop} (hs : t.stop? = some s) :
    FirstDefect table version name text s.site s.failure := by
  constructor
  · obtain ⟨v, hv, hdefect⟩ := h.exists_defect hs
    exact ⟨v, occursIn_sourceLines.1 hv, hdefect⟩
  · intro v g hv hdefect
    obtain ⟨s', hs', hle⟩ :=
      h.exists_stop (inPlace_sourceLines text) (occursIn_sourceLines.2 hv) hdefect
    rw [hs] at hs'
    cases hs'
    exact hle

theorem exists_course_walkTop (language : Language) (table : IncludeTable) (name text : Text) :
    ∃ t, Course table (treeVersion language (topLines text)) name [] (topLines text) t ∧
      t.Of (walkTop language table name text) := by
  apply exists_course
  apply lead_eq_of_openingVersion?
  intro v hv
  rw [treeVersion_topLines, hv, Option.getD_some]

section
variable {language : Language} {mode : LineMode} {registry : Registry} {name text : Text}

/-- An assembly fails as its walk does. -/
theorem assemble_eq_error_iff {f : Failure} :
    (assemble language mode table registry name text).result = .error f ↔
      (walkTop language table name text).failure? = some f := by
  simp only [assemble, Walk.failure?]
  cases (walkTop language table name text).result <;> simp [Except.map]

theorem Track.Of.exists_stop {t : Track} (ht : t.Of (walkTop language table name text))
    {f : Failure}
    (h : (assemble language mode table registry name text).result = .error f) :
    ∃ s, t.stop? = some s ∧ s.failure = f := by
  have hfailure := ht.failure_eq
  rw [assemble_eq_error_iff.1 h] at hfailure
  exact Option.map_eq_some_iff.1 hfailure

theorem Track.Of.stop?_eq_none {t : Track} (ht : t.Of (walkTop language table name text))
    {a : Assembly} (h : (assemble language mode table registry name text).result = .ok a) :
    t.stop? = none := by
  obtain ⟨body, hbody, -⟩ := assemble_eq_ok_iff.1 h
  have hfailure := ht.failure_eq
  rw [Walk.failure?, hbody] at hfailure
  exact Option.map_eq_none_iff.1 hfailure

end

end ShaderSplice
