import ShaderSplice.SourceLine
import ShaderSplice.Proofs.Comment
import ShaderSplice.Proofs.Directive

/-!
# What the lines of a file say

The source lines of a file are its physical lines, numbered, each with what the scanner says about
it when the file is read alone (`map_raw_sourceLinesFrom`, `map_scan_sourceLinesFrom`,
`map_number_sourceLinesFrom`). The role of a line is another way to say which directive its code is
(`HasRole`), so that a file can be asked without reference to roles:

    targets (sourceLines text) = activeTargets text
    leadVersion? (sourceLines text) = openingVersion? text
-/

namespace ShaderSplice

/-! ### Asking a file -/

/-- The targets of the include directives of a file, in the order of its lines. -/
def activeTargets (text : Text) : List Text :=
  (scanLines false (lines text)).filterMap fun step => includeTarget? step.1.code

/-- The code of the first line of a file that has code. -/
def firstCode? (text : Text) : Option Text :=
  ((scanLines false (lines text)).find? fun step => !step.1.isBlank).map fun step => step.1.code

/-- The version that a file declares before it has any other code. -/
def openingVersion? (text : Text) : Option Text := (firstCode? text).bind declaredVersion?

/-! ### Numbers, texts and scans -/

/-- One line, read in its place. -/
def SourceLine.ofRaw (number : Nat) (inBlock started : Bool) (raw : Text) : SourceLine :=
  ⟨number, raw, (scanLine inBlock raw).1, Role.of started (scanLine inBlock raw).1,
    (scanLine inBlock raw).2⟩

theorem sourceLinesFrom_cons (number : Nat) (inBlock started : Bool) (raw : Text)
    (raws : List Text) :
    sourceLinesFrom number inBlock started (raw :: raws) =
      .ofRaw number inBlock started raw ::
        sourceLinesFrom (number + 1) (scanLine inBlock raw).2
          (started || (SourceLine.ofRaw number inBlock started raw).role != .silent) raws := rfl

/-- The source line of a file that is one line. -/
theorem sourceLines_of_lines_eq {text : Text} (h : lines text = [text]) :
    sourceLines text = [.ofRaw 1 false false text] := by
  rw [sourceLines, h]
  rfl

section
variable (number : Nat) (inBlock started : Bool) (raws : List Text)

theorem map_raw_sourceLinesFrom :
    (sourceLinesFrom number inBlock started raws).map SourceLine.raw = raws := by
  induction raws generalizing number inBlock started with
  | nil => rfl
  | cons raw raws ih => simp [sourceLinesFrom, ih]

theorem map_scan_sourceLinesFrom :
    (sourceLinesFrom number inBlock started raws).map (fun l => (l.scan, l.openAfter)) =
      scanLines inBlock raws := by
  induction raws generalizing number inBlock started with
  | nil => rfl
  | cons raw raws ih => simp [sourceLinesFrom, scanLines, ih]

theorem map_number_sourceLinesFrom :
    (sourceLinesFrom number inBlock started raws).map SourceLine.number =
      List.range' number raws.length := by
  induction raws generalizing number inBlock started with
  | nil => rfl
  | cons raw raws ih => simp [sourceLinesFrom, ih, List.range'_succ]

end

/-- The line with number `i + 1` is the line at index `i`. -/
theorem getElem?_sourceLines {text : Text} {i : Nat} {l : SourceLine}
    (h : (sourceLines text)[i]? = some l) :
    l.number = i + 1 ∧ (lines text)[i]? = some l.raw ∧
      (scanLines false (lines text))[i]? = some (l.scan, l.openAfter) := by
  have hnumber := congrArg (·[i]?) (map_number_sourceLinesFrom 1 false false (lines text))
  have hraw := congrArg (·[i]?) (map_raw_sourceLinesFrom 1 false false (lines text))
  have hscan := congrArg (·[i]?) (map_scan_sourceLinesFrom 1 false false (lines text))
  rw [sourceLines] at h
  simp only [List.getElem?_map, h, Option.map_some] at hnumber hraw hscan
  refine ⟨?_, hraw.symm, hscan.symm⟩
  have hrange := List.getElem?_eq_some_iff.1 hnumber.symm
  obtain ⟨hlt, he⟩ := hrange
  rw [List.getElem_range'] at he
  omega

/-! ### Roles -/

/-- What the role of a line says about its code. -/
inductive HasRole (started : Bool) (scan : Scan) : Role → Prop
  | silent : scan.isBlank = true → HasRole started scan .silent
  | lead {version : Text} : started = false → scan.inComment = false →
      declaredVersion? scan.code = some version → HasRole started scan (.lead version)
  | again {version : Text} : started = true → scan.inComment = false →
      declaredVersion? scan.code = some version → HasRole started scan (.ordinary true)
  | splice {target : Text} : scan.inComment = false →
      includeTarget? scan.code = some target → HasRole started scan (.splice target)
  | plain : scan.inComment = false → scan.isBlank = false → declaredVersion? scan.code = none →
      includeTarget? scan.code = none → HasRole started scan (.ordinary false)

theorem hasRole_ofRaw (number : Nat) (inBlock started : Bool) (raw : Text) :
    HasRole started (scanLine inBlock raw).1
      (SourceLine.ofRaw number inBlock started raw).role := by
  rw [SourceLine.ofRaw]
  have hcomment := @isBlank_of_inComment inBlock raw
  generalize (scanLine inBlock raw).1 = scan at hcomment
  rw [Role.of]
  split
  · next h =>
    rcases Bool.or_eq_true_iff.1 h with h | h
    · exact .silent (hcomment h)
    · exact .silent h
  · next h =>
    simp only [Bool.or_eq_true, not_or, Bool.not_eq_true] at h
    split
    · next version hv =>
      split
      · next hs => exact .again hs h.1 hv
      · next hs => exact .lead (by simpa using hs) h.1 hv
    · next hv =>
      split
      · next target ht => exact .splice h.1 ht
      · next ht => exact .plain h.1 h.2 hv ht

/-- Every line has its role for its reason. -/
theorem hasRole_of_mem {number : Nat} {inBlock started : Bool} {raws : List Text} {l : SourceLine}
    (h : l ∈ sourceLinesFrom number inBlock started raws) :
    ∃ started', HasRole started' l.scan l.role := by
  induction raws generalizing number inBlock started with
  | nil => simp [sourceLinesFrom] at h
  | cons raw raws ih =>
    rw [sourceLinesFrom_cons] at h
    rcases List.mem_cons.1 h with rfl | h
    · exact ⟨started, hasRole_ofRaw number inBlock started raw⟩
    · exact ih h

/-! ### Targets -/

theorem SourceLine.leadVersion?_eq_some_iff {l : SourceLine} {v : Text} :
    l.leadVersion? = some v ↔ l.role = .lead v := by
  rw [leadVersion?]
  cases l.role <;> simp

theorem SourceLine.target?_eq_some_iff {l : SourceLine} {target : Text} :
    l.target? = some target ↔ l.role = .splice target := by
  rw [target?]
  cases l.role <;> simp

theorem mem_targets {ls : List SourceLine} {l : SourceLine} {target : Text} (hl : l ∈ ls)
    (hrole : l.role = .splice target) : target ∈ targets ls :=
  List.mem_filterMap.2 ⟨l, hl, SourceLine.target?_eq_some_iff.2 hrole⟩

theorem HasRole.target_eq {started : Bool} {l : SourceLine} (h : HasRole started l.scan l.role) :
    l.target? = includeTarget? l.scan.code := by
  rw [SourceLine.target?]
  cases hrole : l.role with
  | silent =>
    rw [hrole] at h
    cases h with
    | silent hblank =>
      have hs := Text.isSpaces_iff.1 hblank
      rw [includeTarget?, hs.parse?_eq_none]
      rfl
  | lead version =>
    rw [hrole] at h
    cases h with
    | lead _ _ hv =>
      cases ht : includeTarget? l.scan.code with
      | none => rfl
      | some target => rw [declaredVersion?_eq_none_of_includeTarget? ht] at hv; cases hv
  | splice target =>
    rw [hrole] at h
    cases h with
    | splice _ ht => exact ht.symm
  | ordinary redeclares =>
    rw [hrole] at h
    cases h with
    | again _ _ hv =>
      cases ht : includeTarget? l.scan.code with
      | none => rfl
      | some target => rw [declaredVersion?_eq_none_of_includeTarget? ht] at hv; cases hv
    | plain _ _ _ ht => exact ht.symm

/-- An include directive does not stand inside a comment. -/
theorem HasRole.inComment_of_splice {l : SourceLine} {target : Text}
    (h : ∃ started, HasRole started l.scan l.role) (hrole : l.role = .splice target) :
    l.scan.inComment = false := by
  obtain ⟨started, hhas⟩ := h
  rw [hrole] at hhas
  cases hhas with
  | splice hcomment _ => exact hcomment

theorem targets_sourceLines (text : Text) : targets (sourceLines text) = activeTargets text := by
  rw [activeTargets, ← map_scan_sourceLinesFrom 1 false false, List.filterMap_map, targets]
  apply List.filterMap_congr
  intro l hl
  obtain ⟨started, hrole⟩ := hasRole_of_mem hl
  exact hrole.target_eq

/-! ### The opening version -/

/-- Once a file has code, no line leads any more. -/
theorem leadVersion?_of_started (number : Nat) (inBlock : Bool) (raws : List Text) :
    ∀ l ∈ sourceLinesFrom number inBlock true raws, l.leadVersion? = none := by
  induction raws generalizing number inBlock with
  | nil => intro l hl; simp [sourceLinesFrom] at hl
  | cons raw raws ih =>
    intro l hl
    rw [sourceLinesFrom_cons, Bool.true_or] at hl
    rcases List.mem_cons.1 hl with rfl | hl
    · have hrole := hasRole_ofRaw number inBlock true raw
      rw [SourceLine.leadVersion?]
      split
      · next version hv =>
        rw [hv] at hrole
        cases hrole with
        | lead hs => cases hs
      · rfl
    · exact ih _ _ l hl

/-- Below the first line of a file that plays a part, no line leads. -/
theorem leadVersion?_below {number : Nat} {inBlock : Bool} {raw : Text}
    (h : (SourceLine.ofRaw number inBlock false raw).role ≠ .silent) (raws : List Text) :
    leadVersion? (sourceLinesFrom (number + 1) (scanLine inBlock raw).2
      (false || (SourceLine.ofRaw number inBlock false raw).role != .silent) raws) = none := by
  rw [show (false || (SourceLine.ofRaw number inBlock false raw).role != .silent) = true by
    simpa using h]
  exact List.findSome?_eq_none_iff.2 (leadVersion?_of_started _ _ raws)

/-- A line that plays a part has code. -/
theorem HasRole.not_spaces {started : Bool} {scan : Scan} {role : Role}
    (h : HasRole started scan role) (hne : role ≠ .silent) : ¬ Text.Spaces scan.code := by
  cases h with
  | silent => exact absurd rfl hne
  | lead _ _ hv => exact not_spaces_of_declaredVersion? hv
  | again _ _ hv => exact not_spaces_of_declaredVersion? hv
  | splice _ ht => exact not_spaces_of_includeTarget? ht
  | plain _ hblank =>
    intro hs
    rw [Scan.isBlank, Text.isSpaces_iff.2 hs] at hblank
    cases hblank

theorem HasRole.isBlank_eq_false {started : Bool} {scan : Scan} {role : Role}
    (h : HasRole started scan role) (hne : role ≠ .silent) : scan.isBlank = false := by
  rw [Scan.isBlank, ← Bool.not_eq_true, Text.isSpaces_iff]
  exact h.not_spaces hne

theorem leadVersion?_sourceLinesFrom (number : Nat) (inBlock : Bool) (raws : List Text) :
    leadVersion? (sourceLinesFrom number inBlock false raws) =
      (((scanLines inBlock raws).find? fun step => !step.1.isBlank).map
        fun step => step.1.code).bind declaredVersion? := by
  induction raws generalizing number inBlock with
  | nil => rfl
  | cons raw raws ih =>
    have hrole := hasRole_ofRaw number inBlock false raw
    have hblank := hrole.isBlank_eq_false
    have hafter (n : Nat) (b : Bool) :
        (sourceLinesFrom n b true raws).findSome? SourceLine.leadVersion? = none :=
      List.findSome?_eq_none_iff.2 (leadVersion?_of_started n b raws)
    rw [sourceLinesFrom_cons, scanLines, leadVersion?, List.findSome?_cons, List.find?_cons,
      SourceLine.leadVersion?]
    generalize (SourceLine.ofRaw number inBlock false raw).role = role at hrole hblank
    cases hrole with
    | silent h =>
      -- both searches go on with the next line
      rw [h]
      exact ih _ _
    | lead _ _ hv =>
      rw [hblank (by simp)]
      exact hv.symm
    | again hs => cases hs
    | splice _ ht =>
      rw [hblank (by simp)]
      exact (hafter _ _).trans (declaredVersion?_eq_none_of_includeTarget? ht).symm
    | plain _ _ hv _ =>
      rw [hblank (by simp)]
      exact (hafter _ _).trans hv.symm

theorem leadVersion?_sourceLines (text : Text) :
    leadVersion? (sourceLines text) = openingVersion? text :=
  leadVersion?_sourceLinesFrom 1 false (lines text)

/-- A file has one line at most that leads, so each such line declares the opening version. -/
theorem leadVersion?_of_mem {number : Nat} {inBlock : Bool} {raws : List Text} {l : SourceLine}
    {version : Text} (hl : l ∈ sourceLinesFrom number inBlock false raws)
    (hv : l.leadVersion? = some version) :
    leadVersion? (sourceLinesFrom number inBlock false raws) = some version := by
  induction raws generalizing number inBlock with
  | nil => simp [sourceLinesFrom] at hl
  | cons raw raws ih =>
    rw [sourceLinesFrom_cons] at hl ⊢
    rw [leadVersion?, List.findSome?_cons]
    rcases List.mem_cons.1 hl with rfl | hl
    · rw [hv]
    · by_cases hs : (SourceLine.ofRaw number inBlock false raw).role = .silent
      · rw [hs] at hl ⊢
        rw [SourceLine.leadVersion?, hs]
        exact ih hl
      · rw [List.findSome?_eq_none_iff.1 (leadVersion?_below hs raws) l hl] at hv
        cases hv

/-! ### Lines in their places -/

/-- Lines that stand one after the other in a file: `index` lines stand before the first of them,
and `inBlock` tells whether that one starts inside a block comment. -/
inductive InPlace : (index : Nat) → (inBlock : Bool) → List SourceLine → Prop
  | nil {index : Nat} {inBlock : Bool} : InPlace index inBlock []
  | cons {index : Nat} {inBlock : Bool} {l : SourceLine} {ls : List SourceLine} :
      l.number = index + 1 → (index = 0 → inBlock = false) →
      scanLine inBlock l.raw = (l.scan, l.openAfter) →
      (∃ started, HasRole started l.scan l.role) →
      InPlace (index + 1) l.openAfter ls → InPlace index inBlock (l :: ls)

theorem inPlace_sourceLinesFrom (index : Nat) (inBlock started : Bool) (raws : List Text)
    (h : index = 0 → inBlock = false) :
    InPlace index inBlock (sourceLinesFrom (index + 1) inBlock started raws) := by
  induction raws generalizing index inBlock started with
  | nil => exact .nil
  | cons raw raws ih =>
    rw [sourceLinesFrom_cons]
    exact .cons rfl h rfl ⟨started, hasRole_ofRaw _ inBlock started raw⟩ (ih _ _ _ (by simp))

theorem inPlace_sourceLines (text : Text) : InPlace 0 false (sourceLines text) :=
  inPlace_sourceLinesFrom 0 false false (lines text) fun _ => rfl

theorem InPlace.tail {index : Nat} {inBlock : Bool} {l : SourceLine} {rest : List SourceLine}
    (h : InPlace index inBlock (l :: rest)) : InPlace (index + 1) l.openAfter rest := by
  cases h with
  | cons _ _ _ _ hrest => exact hrest

theorem InPlace.lt_number {index : Nat} {inBlock : Bool} {ls : List SourceLine}
    (h : InPlace index inBlock ls) : ∀ l ∈ ls, index < l.number := by
  induction h with
  | nil => intro l hl; simp at hl
  | cons hnumber _ _ _ _ ih =>
    intro l hl
    rcases List.mem_cons.1 hl with rfl | hl
    · omega
    · exact Nat.lt_of_succ_lt (ih l hl)

/-- A file ends inside a block comment if the scanner does. -/
theorem InPlace.endsOpen_eq {index : Nat} {ls : List SourceLine} (h : InPlace index false ls) :
    endsOpen ls = blockAfter false (ls.map SourceLine.raw) := by
  have hlast {index : Nat} {inBlock : Bool} {ls : List SourceLine} (h : InPlace index inBlock ls) :
      blockAfter inBlock (ls.map SourceLine.raw) =
        (ls.getLast?.map SourceLine.openAfter).getD inBlock := by
    induction h with
    | nil => rfl
    | @cons _ _ l ls _ _ hscan _ _ ih =>
      rw [List.map_cons, blockAfter_cons, hscan, ih]
      cases ls with
      | nil => rfl
      | cons l' ls => rfl
  rw [endsOpen, hlast h]
  cases ls.getLast? with
  | none => rfl
  | some l => rfl

end ShaderSplice
