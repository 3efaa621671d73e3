import ShaderSplice.Proofs.Layout
import Mathlib.Data.List.Lex

/-!
# Include directives in document order

A reader who opens every include where it stands comes to the include directives below a source one
after the other. A `Visit` is one of them: its site, of which the last number is that of its own
line, and the includes that lead to its file. Sites are compared lexicographically,

    [2]  <  [2, 1]  <  [2, 3]  <  [2, 3, 1]  <  [4]

so a directive comes before those of the file that it names, and these come before the next line.

A visit may be a `Defect`: then the failure that reports it can be read off the visit. The first
defect in document order is the one that an assembly has to report (`FirstDefect`).
-/

namespace ShaderSplice

/-- An include directive below a source. -/
structure Visit where
  /-- The numbers of the directives that lead to its file, outermost first, and of its own line. -/
  site : List Nat
  /-- The includes that lead to its file, outermost first. -/
  chain : List Text
  target : Text

namespace Visit

/-- A directive of the source itself. -/
def own (number : Nat) (target : Text) : Visit := ⟨[number], [], target⟩

/-- A directive below the include `name`, seen from the file that includes it on line `number`. -/
def below (number : Nat) (name : Text) (v : Visit) : Visit :=
  ⟨number :: v.site, name :: v.chain, v.target⟩

/-- The file in which a directive stands, if the source is called `top`. -/
def source (top : Text) (v : Visit) : Text := v.chain.getLast?.getD top

@[simp] theorem site_own (number : Nat) (target : Text) : (own number target).site = [number] := rfl

@[simp] theorem chain_own (number : Nat) (target : Text) : (own number target).chain = [] := rfl

@[simp] theorem target_own (number : Nat) (target : Text) : (own number target).target = target :=
  rfl

@[simp] theorem source_own (number : Nat) (target top : Text) :
    (own number target).source top = top := rfl

@[simp] theorem site_below (number : Nat) (name : Text) (v : Visit) :
    (below number name v).site = number :: v.site := rfl

@[simp] theorem chain_below (number : Nat) (name : Text) (v : Visit) :
    (below number name v).chain = name :: v.chain := rfl

@[simp] theorem target_below (number : Nat) (name : Text) (v : Visit) :
    (below number name v).target = v.target := rfl

@[simp] theorem source_below (number : Nat) (name top : Text) (v : Visit) :
    (below number name v).source top = v.source name := by
  rw [source, source, chain_below, List.getLast?_cons, Option.getD_some]

end Visit

/-- `v` is an include directive of the file with the given text, or of a file below it. -/
inductive Occurs (table : IncludeTable) : (text : Text) → (v : Visit) → Prop
  | own {text target : Text} {number : Nat} :
      directiveAt? text number = some target → Occurs table text (.own number target)
  | deeper {text name content : Text} {number : Nat} {v : Visit} :
      directiveAt? text number = some name → table.find? name = some content →
      Occurs table content v → Occurs table text (.below number name v)

/-- What is wrong with a directive, and the failure that reports it. The source is called `top`, and
the includes `path` lead to it. -/
inductive Defect (table : IncludeTable) (version top : Text) (path : List Text) (v : Visit) :
    Failure → Prop
  | missing : table.find? v.target = none →
      Defect table version top path v ⟨v.chain, .missing (v.source top) v.target⟩
  | cycle {content : Text} : table.find? v.target = some content → v.target ∈ path ++ v.chain →
      Defect table version top path v
        ⟨v.chain, .cycle (v.source top) v.target (path ++ v.chain ++ [v.target])⟩
  | mismatch {content found : Text} : table.find? v.target = some content →
      v.target ∉ path ++ v.chain → openingVersion? content = some found → found ≠ version →
      Defect table version top path v ⟨v.chain ++ [v.target], .mismatch v.target found version⟩

/-- The failure `f` reports the directive at `site` below the source `top`, and no directive before
it has a defect. -/
structure FirstDefect (table : IncludeTable) (version top text : Text) (site : List Nat)
    (f : Failure) : Prop where
  visit : ∃ v, Occurs table text v ∧ v.site = site ∧ Defect table version top [] v f
  first : ∀ v g, Occurs table text v → Defect table version top [] v g → site ≤ v.site

variable {table : IncludeTable} {version : Text}

/-- What can be reached from a file is the target of a directive. -/
theorem exists_occurs_of_reachable {text name : Text} (h : Reachable table text name) :
    ∃ v, Occurs table text v ∧ v.target = name := by
  obtain ⟨start, hstart, hpath⟩ := h
  induction hpath using Relation.ReflTransGen.head_induction_on generalizing text with
  | refl =>
    obtain ⟨number, hat⟩ := mem_activeTargets_iff.1 hstart
    exact ⟨_, .own hat, rfl⟩
  | head hedge _ ih =>
    obtain ⟨content, hfind, hmem⟩ := hedge
    obtain ⟨number, hat⟩ := mem_activeTargets_iff.1 hstart
    obtain ⟨v, hv, htarget⟩ := ih hmem
    exact ⟨_, .deeper hat hfind hv, htarget⟩

/-! ### Directives without a defect -/

/-- The include `target` can be expanded below `path`, and `content` is its text. -/
structure Sound (table : IncludeTable) (version : Text) (path : List Text)
    (target content : Text) : Prop where
  find : table.find? target = some content
  off_path : target ∉ path
  version_eq : ∀ v, openingVersion? content = some v → v = version

theorem Sound.not_defect {top content : Text} {path : List Text} {v : Visit} {f : Failure}
    (h : Sound table version (path ++ v.chain) v.target content) :
    ¬ Defect table version top path v f := by
  intro hdefect
  cases hdefect with
  | missing hnone =>
    rw [h.find] at hnone
    cases hnone
  | cycle _ hmem => exact h.off_path hmem
  | mismatch hfind _ hfound hne =>
    rw [h.find] at hfind
    cases hfind
    exact hne (h.version_eq _ hfound)

/-- A defect further down is a defect of the file that stands there. -/
theorem defect_below_iff {top name : Text} {path : List Text} {number : Nat} {v : Visit}
    {f : Failure} :
    Defect table version top path (.below number name v) f ↔
      ∃ g, Defect table version name (path ++ [name]) v g ∧ f = g.inside name := by
  -- where `v` stands in the include, the path leads through the include
  have hpath : path ++ (Visit.below number name v).chain = path ++ [name] ++ v.chain := by simp
  constructor
  · intro h
    cases h with
    | missing hnone => exact ⟨_, .missing hnone, by simp [Failure.inside]⟩
    | cycle hfind hmem => exact ⟨_, .cycle hfind (hpath ▸ hmem), by simp [Failure.inside]⟩
    | mismatch hfind hmem hfound hne =>
      exact ⟨_, .mismatch hfind (hpath ▸ hmem) hfound hne, rfl⟩
  · rintro ⟨g, h, rfl⟩
    cases h with
    | missing hnone =>
      simpa [Failure.inside] using Defect.missing (v := .below number name v) hnone
    | cycle hfind hmem =>
      simpa [Failure.inside] using
        Defect.cycle (v := .below number name v) hfind (hpath.symm ▸ hmem)
    | mismatch hfind hmem hfound hne =>
      exact .mismatch (v := .below number name v) hfind (hpath.symm ▸ hmem) hfound hne

/-! ### Visits line by line -/

/-- `v` is the include directive on the line `l`, or a directive below it. -/
def SourceLine.Starts (table : IncludeTable) (l : SourceLine) (v : Visit) : Prop :=
  ∃ name, l.role = .splice name ∧
    (v = .own l.number name ∨
      ∃ content w, table.find? name = some content ∧ Occurs table content w ∧
        v = .below l.number name w)

/-- `v` is an include directive on one of the lines `ls`, or a directive below one. -/
def OccursIn (table : IncludeTable) (ls : List SourceLine) (v : Visit) : Prop :=
  ∃ l ∈ ls, l.Starts table v

theorem occursIn_sourceLines {text : Text} {v : Visit} :
    OccursIn table (sourceLines text) v ↔ Occurs table text v := by
  constructor
  · rintro ⟨l, hl, name, hrole, rfl | ⟨content, w, hfind, hbelow, rfl⟩⟩
    · exact .own (directiveAt?_number hl hrole)
    · exact .deeper (directiveAt?_number hl hrole) hfind hbelow
  · intro h
    cases h with
    | own hat =>
      obtain ⟨l, hl, rfl, hrole⟩ := exists_line_of_directiveAt? hat
      exact ⟨l, hl, _, hrole, .inl rfl⟩
    | deeper hat hfind hbelow =>
      obtain ⟨l, hl, rfl, hrole⟩ := exists_line_of_directiveAt? hat
      exact ⟨l, hl, _, hrole, .inr ⟨_, _, hfind, hbelow, rfl⟩⟩

section
variable {l : SourceLine} {rest : List SourceLine} {v : Visit}

theorem occursIn_cons :
    OccursIn table (l :: rest) v ↔ l.Starts table v ∨ OccursIn table rest v := by
  rw [OccursIn, List.exists_mem_cons_iff, OccursIn]

theorem occursIn_cons_of_target? (h : l.target? = none) :
    OccursIn table (l :: rest) v ↔ OccursIn table rest v := by
  rw [occursIn_cons, or_iff_right_iff_imp]
  rintro ⟨name, hrole, -⟩
  rw [SourceLine.target?_eq_some_iff.2 hrole] at h
  cases h

/-- The visits that start at a directive without a defect. -/
theorem Sound.starts_iff {path : List Text} {target content : Text}
    (h : Sound table version path target content) (hrole : l.role = .splice target) :
    l.Starts table v ↔
      v = .own l.number target ∨ ∃ w, OccursIn table (sourceLines content) w ∧
        v = .below l.number target w := by
  simp only [occursIn_sourceLines]
  constructor
  · rintro ⟨name, hname, hv⟩
    rw [hrole] at hname
    cases hname
    rcases hv with rfl | ⟨content', w, hfind, hw, rfl⟩
    · exact .inl rfl
    · rw [h.find] at hfind
      cases hfind
      exact .inr ⟨w, hw, rfl⟩
  · rintro (rfl | ⟨w, hw, rfl⟩)
    · exact ⟨target, hrole, .inl rfl⟩
    · exact ⟨target, hrole, .inr ⟨content, w, h.find, hw, rfl⟩⟩

theorem SourceLine.Starts.exists_site_eq (h : l.Starts table v) :
    ∃ site, v.site = l.number :: site := by
  obtain ⟨name, -, rfl | ⟨content, w, -, -, rfl⟩⟩ := h
  · exact ⟨[], rfl⟩
  · exact ⟨w.site, rfl⟩

/-- What starts at a line comes before what starts at a later line. -/
theorem InPlace.cons_lt_site {index : Nat} {inBlock : Bool} (h : InPlace index inBlock (l :: rest))
    (hv : OccursIn table rest v) (site : List Nat) : l.number :: site < v.site := by
  obtain ⟨l', hl', hstarts⟩ := hv
  obtain ⟨site', hsite'⟩ := hstarts.exists_site_eq
  cases h with
  | cons hnumber _ _ _ hrest =>
    rw [hsite', List.cons_lt_cons_iff, hnumber]
    exact .inl (hrest.lt_number l' hl')

end

/-- Every visit has a site. -/
theorem OccursIn.site_ne_nil {ls : List SourceLine} {v : Visit} (h : OccursIn table ls v) :
    v.site ≠ [] := by
  obtain ⟨l, -, hl⟩ := h
  obtain ⟨site, hsite⟩ := hl.exists_site_eq
  rw [hsite]
  exact List.cons_ne_nil _ _

theorem cons_le_cons_iff_le {n : Nat} {s t : List Nat} : n :: s ≤ n :: t ↔ s ≤ t := by
  rw [← not_lt, ← not_lt, List.cons_lt_cons_iff]
  simp

theorem nil_lt_of_ne_nil {s : List Nat} (h : s ≠ []) : [] < s := by
  cases s with
  | nil => exact absurd rfl h
  | cons n s => exact List.nil_lt_cons n s

end ShaderSplice
