import ShaderSplice.Proofs.Association
import ShaderSplice.Proofs.Path

/-!
# What operations do to a file tree

Making directories takes nothing away and makes no files (`FileTree.makeAll_onlyDirectories`).
Writing changes one place. After a run of writes (`FileTree.Writes`) a place therefore holds what
was written to it last, and a place that no write leads to holds what it held before:

    t ──write──▶ ── … ──write──▶ t'       t'.read p = text of the last write to p

Both keep directories, so a path that could be followed before can be followed afterwards.
-/

namespace ShaderSplice
namespace FileTree

variable {t t' : FileTree}

theorem find?_insert {l : Location} (h : t.find? l ≠ some .directory) (n : Node) (l' : Location) :
    (t.insert l n).find? l' = if l' = l then some n else t.find? l' := by
  have hfree : ¬ (l.all (· = Path.above) ∨ l = [[]]) := by
    intro hfixed
    exact h (if_pos hfixed)
  by_cases hl : l' = l
  · subst hl
    rw [if_pos rfl, find?, if_neg hfree]
    exact (lookup_replace t.nodes l' n l').trans (if_pos rfl)
  · have hlookup := lookup_replace t.nodes l n l'
    rw [if_neg hl] at hlookup
    rw [if_neg hl, find?, find?, insert, hlookup]

/-! ### Directories stay -/

/-- Every directory of `t` is one of `t'`. -/
def KeepsDirectories (t t' : FileTree) : Prop :=
  ∀ l, t.find? l = some .directory → t'.find? l = some .directory

theorem KeepsDirectories.resolveFrom (h : t.KeepsDirectories t') {l l' : Location}
    {es : List Text} (hes : t.resolveFrom l es = .ok l') : t'.resolveFrom l es = .ok l' := by
  induction es generalizing l with
  | nil => exact hes
  | cons e es ih =>
    rw [FileTree.resolveFrom] at hes ⊢
    split at hes
    · cases hes
    · cases hes
    · next hl =>
      -- what the path goes through was a directory and still is
      rw [h l hl]
      split at hes
      · cases hes
      · next hlen =>
        simp only [if_neg hlen]
        exact ih hes

/-- A path that could be followed can still be followed. -/
theorem KeepsDirectories.resolve (h : t.KeepsDirectories t') {path : Text} {l : Location}
    (hpath : t.resolve path = .ok l) : t'.resolve path = .ok l := by
  rw [FileTree.resolve] at hpath ⊢
  split at hpath
  · cases hpath
  · next hne =>
    split at hpath
    · cases hpath
    · next hzero =>
      rw [if_neg hne, if_neg hzero]
      split at hpath
      · next hrooted =>
        rw [if_pos hrooted]
        exact h.resolveFrom hpath
      · next hrooted =>
        rw [if_neg hrooted]
        exact h.resolveFrom hpath

/-! ### Making directories -/

/-- All that `t` holds is in `t'`, and what is new there are directories. -/
structure OnlyDirectories (t t' : FileTree) : Prop where
  kept : ∀ l n, t.find? l = some n → t'.find? l = some n
  new : ∀ l n, t'.find? l = some n → t.find? l = some n ∨ n = .directory

theorem OnlyDirectories.refl (t : FileTree) : t.OnlyDirectories t :=
  ⟨fun _ _ h => h, fun _ _ h => .inl h⟩

theorem OnlyDirectories.trans {t'' : FileTree} (h : t.OnlyDirectories t')
    (h' : t'.OnlyDirectories t'') : t.OnlyDirectories t'' where
  kept l n hn := h'.kept l n (h.kept l n hn)
  new l n hn := by
    rcases h'.new l n hn with hn | hn
    · exact h.new l n hn
    · exact .inr hn

/-- The files are the same. -/
theorem OnlyDirectories.find?_file (h : t.OnlyDirectories t') (l : Location) (text : Text) :
    t'.find? l = some (.file text) ↔ t.find? l = some (.file text) := by
  constructor
  · intro hfile
    rcases h.new l _ hfile with hold | hnode
    · exact hold
    · cases hnode
  · exact h.kept l (.file text)

theorem makeDirectory_onlyDirectories {path : Text} (h : t.makeDirectory path = .ok t') :
    t.OnlyDirectories t' := by
  rw [makeDirectory] at h
  split at h
  · cases h
  · next l _ =>
    split at h
    · cases h
    · next hfree =>
      cases h
      have hnone : t.find? l = none := by simpa using hfree
      have hinsert := find?_insert (t := t) (l := l) (by rw [hnone]; simp) .directory
      constructor
      · intro l' n hn
        have hl : l' ≠ l := by
          rintro rfl
          rw [hnone] at hn
          cases hn
        rw [hinsert, if_neg hl, hn]
      · intro l' n hn
        rw [hinsert] at hn
        split at hn
        · exact .inr (Option.some.inj hn).symm
        · exact .inl hn

theorem makeAll_onlyDirectories (t : FileTree) (path : Text) :
    t.OnlyDirectories (t.makeAll path).1 := by
  have hfst {r : FileTree × Except PathError Unit} {t₁ : FileTree} {made : Except PathError Unit}
      (hr : t.OnlyDirectories r.1) (h : r = (t₁, made)) : t.OnlyDirectories t₁ := by
    rwa [h] at hr
  fun_induction makeAll t path with
  | case1 path h => exact .refl t
  | case2 path text h => exact .refl t
  | case3 path e h t₁ e' hstep ih
  | case5 path e h t₁ e' hstat hmade hstep ih
  | case6 path e h t₁ e' hmade hstat hstep ih =>
    split at hstep
    · next p hp => exact hfst (ih p hp) hstep
    · exact hfst (.refl t) hstep
  | case4 path e h t₁ t₂ hmade hstep ih =>
    apply OnlyDirectories.trans _ (makeDirectory_onlyDirectories hmade)
    split at hstep
    · next p hp => exact hfst (ih p hp) hstep
    · exact hfst (.refl t) hstep

/-! ### Writing -/

/-- Writing succeeds where a path can be followed to what is no directory, and puts a file there. -/
theorem write_eq_ok {path text : Text} (h : t.write path text = .ok t') :
    t.resolve path = .ok (location path) ∧ t.find? (location path) ≠ some .directory ∧
      t' = t.insert (location path) (.file text) := by
  rw [write] at h
  split at h
  · cases h
  · next l hl =>
    obtain ⟨-, rfl⟩ := resolve_eq_ok hl
    refine ⟨hl, ?_⟩
    split at h
    · cases h
    · next hfile =>
      cases h
      exact ⟨by rw [hfile]; simp, rfl⟩
    · next hnone =>
      split at h
      · cases h
        exact ⟨by rw [hnone]; simp, rfl⟩
      · cases h
      · cases h

theorem find?_write {path text : Text} (h : t.write path text = .ok t') (l : Location) :
    t'.find? l = if l = location path then some (.file text) else t.find? l := by
  obtain ⟨-, hfree, rfl⟩ := write_eq_ok h
  exact find?_insert hfree _ l

theorem write_keepsDirectories {path text : Text} (h : t.write path text = .ok t') :
    t.KeepsDirectories t' := by
  intro l hl
  rw [find?_write h, if_neg, hl]
  rintro rfl
  exact (write_eq_ok h).2.1 hl

theorem read_eq_ok_iff {path text : Text} :
    t.read path = .ok text ↔
      t.resolve path = .ok (location path) ∧ t.find? (location path) = some (.file text) := by
  rw [read, stat]
  cases hresolve : t.resolve path with
  | error e => simp [bind, Except.bind]
  | ok l =>
    obtain ⟨-, rfl⟩ := resolve_eq_ok hresolve
    cases hfind : t.find? (location path) with
    | none => simp [bind, Except.bind, hfind]
    | some n => cases n <;> simp [bind, Except.bind, hfind, pure, Except.pure]

/-- Texts are written to paths one after the other. -/
inductive Writes : FileTree → List (Text × Text) → FileTree → Prop
  | nil {t : FileTree} : Writes t [] t
  | cons {t t₁ t' : FileTree} {path text : Text} {outputs : List (Text × Text)} :
      t.write path text = .ok t₁ → Writes t₁ outputs t' → Writes t ((path, text) :: outputs) t'

theorem Writes.keepsDirectories {outputs : List (Text × Text)} (h : Writes t outputs t') :
    t.KeepsDirectories t' := by
  induction h with
  | nil => exact fun _ hl => hl
  | cons hwrite _ ih => exact fun l hl => ih l (write_keepsDirectories hwrite l hl)

theorem Writes.append {t'' : FileTree} {outputs outputs' : List (Text × Text)}
    (h : Writes t outputs t') (h' : Writes t' outputs' t'') :
    Writes t (outputs ++ outputs') t'' := by
  induction h with
  | nil => exact h'
  | cons hwrite _ ih => exact .cons hwrite (ih h')

/-- A place that no write leads to stays what it is. -/
theorem Writes.find?_eq {outputs : List (Text × Text)} (h : Writes t outputs t') {l : Location}
    (hl : ∀ o ∈ outputs, location o.1 ≠ l) : t'.find? l = t.find? l := by
  induction h with
  | nil => rfl
  | @cons t t₁ t' path text outputs hwrite _ ih =>
    have hne : l ≠ location path := (hl (path, text) List.mem_cons_self).symm
    rw [ih fun o ho => hl o (List.mem_cons_of_mem _ ho), find?_write hwrite, if_neg hne]

/-- **A path holds what was written to it last.** -/
theorem Writes.read_eq {before later : List (Text × Text)} {path text : Text}
    (h : Writes t (before ++ (path, text) :: later) t')
    (hlater : ∀ o ∈ later, location o.1 ≠ location path) : t'.read path = .ok text := by
  induction before generalizing t with
  | nil =>
    cases h with
    | cons hwrite hrest =>
      -- no later write takes a directory of the path away, or comes to the same place
      obtain ⟨hresolve, -, -⟩ := write_eq_ok hwrite
      rw [read_eq_ok_iff]
      constructor
      · exact hrest.keepsDirectories.resolve (write_keepsDirectories hwrite |>.resolve hresolve)
      · rw [hrest.find?_eq hlater, find?_write hwrite, if_pos rfl]
  | cons o before ih =>
    cases h with
    | cons _ hrest => exact ih hrest

end FileTree
end ShaderSplice
