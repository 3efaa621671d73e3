import ShaderSplice.FileTree
import ShaderSplice.Proofs.Line

/-!
# Where clean paths lead

`FileTree.location` is the place that a path leads to, whatever tree it is followed in: a tree only
decides whether the path can be followed at all (`FileTree.resolve_eq_ok`). A clean path has its own
elements for its location, so two clean paths lead to one place only if they are the same path
(`Path.eq_of_location_eq`).
-/

namespace ShaderSplice

namespace FileTree

/-- The place that a path leads to, if it can be followed. -/
def location (path : Text) : Location :=
  if Path.isRooted path then (Path.elements path).tail.foldl stepTo [[]]
  else (Path.elements path).foldl stepTo []

theorem resolveFrom_eq_ok {t : FileTree} {l l' : Location} {es : List Text}
    (h : t.resolveFrom l es = .ok l') : l' = es.foldl stepTo l := by
  induction es generalizing l with
  | nil =>
    cases h
    rfl
  | cons e es ih =>
    rw [resolveFrom] at h
    split at h
    · cases h
    · cases h
    · split at h
      · cases h
      · exact ih h

/-- A path leads to its location or nowhere. -/
theorem resolve_eq_ok {t : FileTree} {path : Text} {l : Location} (h : t.resolve path = .ok l) :
    path ≠ [] ∧ l = location path := by
  rw [resolve] at h
  split at h
  · cases h
  · next hne =>
    split at h
    · cases h
    · refine ⟨hne, ?_⟩
      rw [location]
      split at h
      · next hrooted =>
        rw [if_pos hrooted]
        exact resolveFrom_eq_ok h
      · next hrooted =>
        rw [if_neg hrooted]
        exact resolveFrom_eq_ok h

end FileTree

namespace Path

/-! ### Clean elements -/

/-- An element that leads down: neither empty nor `.` nor `..`. -/
structure IsName (e : Text) : Prop where
  ne_nil : e ≠ []
  ne_here : e ≠ here
  ne_above : e ≠ above
  no_slash : Text.slash ∉ e

/-- Elements that lead up some times, which they never do from the root, and then down. -/
def IsClean (rooted : Bool) (es : List Text) : Prop :=
  ∃ ups names, es = List.replicate ups above ++ names ∧ (∀ e ∈ names, IsName e) ∧
    (rooted = true → ups = 0)

theorem slash_not_mem_above : Text.slash ∉ above := by decide

theorem IsClean.no_slash {rooted : Bool} {es : List Text} (h : IsClean rooted es) :
    ∀ e ∈ es, Text.slash ∉ e := by
  obtain ⟨ups, names, rfl, hnames, -⟩ := h
  intro e he
  rcases List.mem_append.1 he with he | he
  · rw [(List.mem_replicate.1 he).2]
    exact slash_not_mem_above
  · exact (hnames e he).no_slash

theorem IsClean.ne_nil {rooted : Bool} {es : List Text} (h : IsClean rooted es) :
    ∀ e ∈ es, e ≠ [] := by
  obtain ⟨ups, names, rfl, hnames, -⟩ := h
  intro e he
  rcases List.mem_append.1 he with he | he
  · rw [(List.mem_replicate.1 he).2]
    decide
  · exact (hnames e he).ne_nil

/-- One more element keeps elements clean. -/
theorem IsClean.cleanStep {rooted : Bool} {done : List Text} (h : IsClean rooted done.reverse)
    {e : Text} (he : Text.slash ∉ e) : IsClean rooted (cleanStep rooted done e).reverse := by
  obtain ⟨ups, names, hdone, hnames, hups⟩ := h
  unfold Path.cleanStep
  split
  · exact ⟨ups, names, hdone, hnames, hups⟩
  · next hstay =>
    split
    · -- `..` takes the last name away, if there is one
      rcases List.eq_nil_or_concat names with rfl | ⟨init, last, rfl⟩
      · rw [List.append_nil] at hdone
        cases done with
        | nil =>
          cases rooted with
          | true => exact ⟨0, [], rfl, by simp, fun _ => rfl⟩
          | false => exact ⟨1, [], rfl, by simp, by simp⟩
        | cons last rest =>
          have hall : ∀ x ∈ last :: rest, x = above := by
            intro x hx
            rw [← List.mem_reverse, hdone] at hx
            exact (List.mem_replicate.1 hx).2
          have hrooted : rooted ≠ true := by
            intro hr
            rw [hups hr] at hdone
            simp at hdone
          simp only [hall last List.mem_cons_self, if_true]
          refine ⟨ups + 1, [], ?_, by simp, fun hr => absurd hr hrooted⟩
          rw [hall last List.mem_cons_self] at hdone
          rw [List.reverse_cons, hdone, List.append_nil, List.replicate_succ']
      · have hrev : done = last :: (List.replicate ups above ++ init).reverse := by
          rw [← List.reverse_reverse done, hdone]
          simp
        have hlast : last ≠ above := (hnames last (by simp)).ne_above
        subst hrev
        simp only [if_neg hlast, List.reverse_reverse]
        exact ⟨ups, init, rfl, fun x hx => hnames x (by simp [hx]), hups⟩
    · next hup =>
      refine ⟨ups, names ++ [e], by rw [List.reverse_cons, hdone, List.append_assoc], ?_, hups⟩
      intro x hx
      rcases List.mem_append.1 hx with hx | hx
      · exact hnames x hx
      · rw [List.mem_singleton.1 hx]
        exact ⟨fun h => hstay (.inl h), fun h => hstay (.inr h), hup, he⟩

theorem isClean_cleanElements (p : Text) : IsClean (isRooted p) (cleanElements p) := by
  -- the elements that are done are kept in reverse
  have hfold (es done : List Text) (hes : ∀ e ∈ es, Text.slash ∉ e)
      (h : IsClean (isRooted p) done.reverse) :
      IsClean (isRooted p) (es.foldl (cleanStep (isRooted p)) done).reverse := by
    induction es generalizing done with
    | nil => exact h
    | cons e es ih =>
      exact ih _ (fun x hx => hes x (List.mem_cons_of_mem _ hx))
        (h.cleanStep (hes e List.mem_cons_self))
  exact hfold _ _ (fun e he => not_mem_of_mem_splitOn he) ⟨0, [], rfl, by simp, fun _ => rfl⟩

/-! ### The location of a clean path -/

theorem stepTo_name {e : Text} (h : IsName e) (l : Location) : FileTree.stepTo l e = l ++ [e] := by
  rw [FileTree.stepTo, if_neg (by simp [h.ne_nil, h.ne_here]), if_neg h.ne_above]

theorem foldl_stepTo_names {names : List Text} (h : ∀ e ∈ names, IsName e) (l : Location) :
    names.foldl FileTree.stepTo l = l ++ names := by
  induction names generalizing l with
  | nil => simp
  | cons e names ih =>
    rw [List.foldl_cons, stepTo_name (h e List.mem_cons_self),
      ih fun x hx => h x (List.mem_cons_of_mem _ hx)]
    simp

theorem foldl_stepTo_above (ups : Nat) :
    (List.replicate ups above).foldl FileTree.stepTo [] = List.replicate ups above := by
  have hstep (k : Nat) : FileTree.stepTo (List.replicate k above) above =
      List.replicate (k + 1) above := by
    have habove : above ≠ [] := by decide
    rw [FileTree.stepTo, if_neg (by decide), if_pos rfl]
    cases k with
    | zero => rfl
    | succ k => simp [List.replicate_succ', habove]
  induction ups with
  | zero => rfl
  | succ ups ih =>
    rw [List.replicate_succ', List.foldl_append, ih, List.foldl_cons, List.foldl_nil, hstep,
      List.replicate_succ']

theorem IsClean.foldl_stepTo {es : List Text} (h : IsClean false es) :
    es.foldl FileTree.stepTo [] = es := by
  obtain ⟨ups, names, rfl, hnames, -⟩ := h
  rw [List.foldl_append, foldl_stepTo_above, foldl_stepTo_names hnames]

theorem IsClean.foldl_stepTo_root {es : List Text} (h : IsClean true es) :
    es.foldl FileTree.stepTo [[]] = [] :: es := by
  obtain ⟨ups, names, rfl, hnames, hups⟩ := h
  rw [hups rfl, List.replicate_zero, List.nil_append]
  exact foldl_stepTo_names hnames [[]]

theorem elements_ofElements {es : List Text} (hne : es ≠ []) (h : ∀ e ∈ es, Text.slash ∉ e) :
    elements (ofElements es) = es :=
  List.splitOn_intercalate _ h hne

theorem elements_root (es : List Text) :
    elements (Text.slash :: ofElements es) = [] :: elements (ofElements es) := by
  rw [elements, List.splitOn_cons_eq_if_modifyHead]
  simp [elements]

theorem isRooted_ofElements {es : List Text} (h : ∀ e ∈ es, e ≠ [] ∧ Text.slash ∉ e) :
    isRooted (ofElements es) = false := by
  cases es with
  | nil => rfl
  | cons e es =>
    obtain ⟨hne, hslash⟩ := h e List.mem_cons_self
    obtain ⟨b, e, rfl⟩ := List.exists_cons_of_ne_nil hne
    have hb : b ≠ Text.slash := by
      rintro rfl
      exact hslash List.mem_cons_self
    cases es with
    | nil => simpa [isRooted, ofElements, Text.join] using hb
    | cons e' es => simpa [isRooted, ofElements, Text.join, List.intercalate_cons_cons] using hb

/-- A clean path leads where its elements say. -/
theorem location_clean (p : Text) :
    FileTree.location (clean p) =
      if isRooted p then [] :: cleanElements p else cleanElements p := by
  have hclean := isClean_cleanElements p
  by_cases hnil : cleanElements p = []
  · -- nothing is left but the root, or the directory itself
    rw [clean, hnil]
    cases isRooted p with
    | true => rfl
    | false => rfl
  · have helements := elements_ofElements hnil hclean.no_slash
    cases hrooted : isRooted p with
    | true =>
      rw [hrooted] at hclean
      have hroot : isRooted (Text.slash :: ofElements (cleanElements p)) = true := rfl
      rw [clean, hrooted, if_pos rfl, FileTree.location, hroot, if_pos rfl, elements_root,
        helements, List.tail_cons, hclean.foldl_stepTo_root, if_pos rfl]
    | false =>
      rw [hrooted] at hclean
      have hne : ofElements (cleanElements p) ≠ [] := by
        intro hempty
        rw [hempty] at helements
        exact hclean.ne_nil [] (by rw [← helements]; exact List.mem_cons_self) rfl
      have hroot : isRooted (ofElements (cleanElements p)) = false :=
        isRooted_ofElements fun e he => ⟨hclean.ne_nil e he, hclean.no_slash e he⟩
      rw [clean, hrooted, if_neg (by simp), if_neg hne, FileTree.location, hroot,
        if_neg (by simp), helements, hclean.foldl_stepTo, if_neg (by simp)]

/-- **Different clean paths lead to different places.** -/
theorem eq_of_location_eq {p q : Text}
    (h : FileTree.location (clean p) = FileTree.location (clean q)) : clean p = clean q := by
  -- an empty element comes first in the location of a rooted path, and nowhere else
  have hdiffers (p q : Text) : [] :: cleanElements p ≠ cleanElements q := by
    intro heq
    exact (isClean_cleanElements q).ne_nil [] (heq ▸ List.mem_cons_self) rfl
  rw [location_clean, location_clean] at h
  cases hp : isRooted p <;> cases hq : isRooted q <;>
    simp only [hp, hq, if_true, Bool.false_eq_true, if_false] at h
  · rw [clean, clean, hp, hq, h]
  · exact absurd h.symm (hdiffers q p)
  · exact absurd h (hdiffers p q)
  · rw [List.cons.injEq] at h
    rw [clean, clean, hp, hq, h.2]

/-- A path into a directory is clean. -/
theorem exists_join_eq_clean {dir : Text} (h : dir ≠ []) (name : Text) :
    ∃ p, join dir name = clean p := by
  refine ⟨ofElements ([dir, name].filter (· ≠ [])), ?_⟩
  rw [join, if_neg]
  intro hempty
  have hmem : dir ∈ [dir, name].filter (· ≠ []) := by simp [h]
  rw [hempty] at hmem
  cases hmem

theorem join_eq_of_location_eq {dir name name' : Text} (h : dir ≠ [])
    (hlocation : FileTree.location (join dir name) = FileTree.location (join dir name')) :
    join dir name = join dir name' := by
  obtain ⟨p, hp⟩ := exists_join_eq_clean h name
  obtain ⟨q, hq⟩ := exists_join_eq_clean h name'
  rw [hp, hq] at hlocation ⊢
  exact eq_of_location_eq hlocation

end Path
end ShaderSplice
