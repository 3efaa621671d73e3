import ShaderSplice.Assembly
import ShaderSplice.Proofs.IncludeGraph
import ShaderSplice.Proofs.Line
import ShaderSplice.Proofs.Text.Decimal

/-!
# Where the lines of an assembly stand

A file can be expanded at several places of one assembly. A *site* tells them apart: it lists the
numbers of the include directives that lead to the place, outermost first, and `expandedAt` follows
it through the files. The layout of an assembly is its output lines, each with the site at which it
was written:

    Body ──layout──▶ List PlacedLine ──line──▶ Body.assembly        (`map_line_layout`)
                                     ──text──▶ the lines of the assembled text

The layout is what statements about single output lines speak of. `Along` states such a property
for all lines of a run, each in the state in which it is met, and `Leads` adds the state after the
last, so that runs can be put together.
-/

namespace ShaderSplice

/-! ### Sites -/

/-- The target of the include directive on the line with the given number. -/
def directiveAt? (text : Text) : Nat → Option Text
  | 0 => none
  | i + 1 => (scanLines false (lines text))[i]?.bind fun step => includeTarget? step.1.code

/-- The file that is expanded at a site below the file with the given text. -/
def expandedAt (table : IncludeTable) : FileRef → Text → List Nat → Option (FileRef × Text)
  | file, text, [] => some (file, text)
  | _, text, number :: site =>
    (directiveAt? text number).bind fun target =>
      (table.find? target).bind fun content => expandedAt table (.included target) content site

theorem expandedAt_append (table : IncludeTable) (file : FileRef) (text : Text)
    (site site' : List Nat) :
    expandedAt table file text (site ++ site') =
      (expandedAt table file text site).bind fun p => expandedAt table p.1 p.2 site' := by
  induction site generalizing file text with
  | nil => rfl
  | cons number site ih =>
    rw [List.cons_append, expandedAt, expandedAt]
    cases directiveAt? text number with
    | none => rfl
    | some target =>
      rw [Option.bind_some, Option.bind_some]
      cases table.find? target with
      | none => rfl
      | some content => exact ih _ _

/-- Below the source itself there are only included files. -/
theorem exists_eq_included {table : IncludeTable} {file file' : FileRef} {text content : Text}
    {site : List Nat} (hsite : site ≠ [])
    (h : expandedAt table file text site = some (file', content)) :
    ∃ name, file' = .included name := by
  induction site generalizing file text with
  | nil => exact absurd rfl hsite
  | cons number site ih =>
    rw [expandedAt] at h
    obtain ⟨target, -, hbelow⟩ := Option.bind_eq_some_iff.1 h
    obtain ⟨text', -, hchild⟩ := Option.bind_eq_some_iff.1 hbelow
    cases site with
    | nil =>
      cases hchild
      exact ⟨target, rfl⟩
    | cons number' site => exact ih (by simp) hchild

theorem exists_index_of_mem {text : Text} {l : SourceLine} (h : l ∈ sourceLines text) :
    ∃ i, l.number = i + 1 ∧ (sourceLines text)[i]? = some l := by
  obtain ⟨i, hi⟩ := List.mem_iff_getElem?.1 h
  exact ⟨i, (getElem?_sourceLines hi).1, hi⟩

/-- Each line of a file is read in some state. -/
theorem exists_scanLine_of_mem {text : Text} {l : SourceLine} (h : l ∈ sourceLines text) :
    ∃ inBlock, scanLine inBlock l.raw = (l.scan, l.openAfter) := by
  obtain ⟨i, -, hi⟩ := exists_index_of_mem h
  obtain ⟨-, hraw, hscan⟩ := getElem?_sourceLines hi
  rw [getElem?_scanLines, hraw, Option.map_some] at hscan
  exact ⟨_, Option.some.inj hscan⟩

/-- An include directive is found by the number of its line. -/
theorem directiveAt?_number {text target : Text} {l : SourceLine} (h : l ∈ sourceLines text)
    (hrole : l.role = .splice target) : directiveAt? text l.number = some target := by
  obtain ⟨i, hi, hl⟩ := exists_index_of_mem h
  obtain ⟨started, hrole'⟩ := hasRole_of_mem h
  have htarget := hrole'.target_eq
  rw [SourceLine.target?, hrole] at htarget
  rw [hi, directiveAt?, (getElem?_sourceLines hl).2.2, Option.bind_some, ← htarget]

/-- One directive further down, the file that it names is expanded. -/
theorem expandedAt_number {table : IncludeTable} {file file' : FileRef} {text content : Text}
    {site : List Nat} (hsite : expandedAt table file text site = some (file', content))
    {l : SourceLine} (hl : l ∈ sourceLines content) {target content' : Text}
    (hrole : l.role = .splice target) (hfind : table.find? target = some content') :
    expandedAt table file text (site ++ [l.number]) = some (.included target, content') := by
  rw [expandedAt_append, hsite, Option.bind_some, expandedAt, directiveAt?_number hl hrole,
    Option.bind_some, hfind, Option.bind_some, expandedAt]

theorem exists_line_of_directiveAt? {text target : Text} {number : Nat}
    (h : directiveAt? text number = some target) :
    ∃ l ∈ sourceLines text, l.number = number ∧ l.role = .splice target := by
  cases number with
  | zero => cases h
  | succ i =>
    rw [directiveAt?, ← map_scan_sourceLinesFrom 1 false false, List.getElem?_map] at h
    obtain ⟨step, hstep, ht⟩ := Option.bind_eq_some_iff.1 h
    obtain ⟨l, hl, rfl⟩ := Option.map_eq_some_iff.1 hstep
    have hmem : l ∈ sourceLines text := List.mem_iff_getElem?.2 ⟨i, hl⟩
    obtain ⟨started, hrole⟩ := hasRole_of_mem hmem
    have htarget := hrole.target_eq.trans ht
    exact ⟨l, hmem, (getElem?_sourceLines hl).1, SourceLine.target?_eq_some_iff.1 htarget⟩

theorem mem_activeTargets_iff {text target : Text} :
    target ∈ activeTargets text ↔ ∃ number, directiveAt? text number = some target := by
  rw [← targets_sourceLines]
  constructor
  · intro h
    obtain ⟨l, hl, htarget⟩ := List.mem_filterMap.1 h
    exact ⟨l.number, directiveAt?_number hl (SourceLine.target?_eq_some_iff.1 htarget)⟩
  · rintro ⟨number, h⟩
    obtain ⟨l, hl, -, hrole⟩ := exists_line_of_directiveAt? h
    exact mem_targets hl hrole

/-! ### Placed lines -/

/-- An output line, and the site of the expansion that wrote it. -/
structure PlacedLine where
  site : List Nat
  line : OutputLine

namespace PlacedLine

/-- The text of a placed line, once each file has an id. -/
def text (idOf : FileRef → FileId) (p : PlacedLine) : Text := p.line.render idOf

/-- A placed line without white space at its end, unless nothing is left of it. -/
def trimEnd? (p : PlacedLine) : Option PlacedLine := p.line.trimEnd?.map (⟨p.site, ·⟩)

end PlacedLine

/-- Placed lines without the white space at their end. -/
def trimPlaced : List PlacedLine → List PlacedLine
  | [] => []
  | p :: ps =>
    match trimPlaced ps with
    | [] => p.trimEnd?.toList
    | rest => p :: rest

/-- Output lines that are all written at one site. -/
def placeAt (site : List Nat) (ls : List OutputLine) : List PlacedLine := ls.map (⟨site, ·⟩)

/-- The frame around the lines of a file, at the site where the file is expanded. -/
def placedFrame (mode : LineMode) (site : List Nat) (file : FileRef) (ls : List SourceLine)
    (inner : List PlacedLine) : List PlacedLine :=
  ⟨site, .marker (firstLine mode file ls) file⟩ ::
    trimPlaced (inner ++ placeAt site (closing mode file ls))

/-- The lines written for the body of `file` at a site, each with the site that it belongs to. -/
def Body.placed (mode : LineMode) (site : List Nat) (file : FileRef) : Body → List PlacedLine
  | .nil => []
  | .keep l rest => placeAt site (l.output mode file) ++ rest.placed mode site file
  | .splice l target child rest =>
    placeAt site (l.beforeSplice mode) ++
      placedFrame mode (site ++ [l.number]) (.included target) child.lines
        (child.placed mode (site ++ [l.number]) (.included target)) ++
      placeAt site (l.afterSplice mode file) ++ rest.placed mode site file

/-- The lines of the assembly of a top-level source, with their sites. -/
def Body.layout (mode : LineMode) (version : Text) (body : Body) : List PlacedLine :=
  ⟨[], .version version⟩ :: placedFrame mode [] .top body.lines (body.placed mode [] .top)

/-- The layout of an assembly, which has no lines if the assembly fails. -/
def layout (language : Language) (mode : LineMode) (table : IncludeTable) (name text : Text) :
    List PlacedLine :=
  match (walkTop language table name text).result with
  | .ok body => body.layout mode (treeVersion language (topLines text))
  | .error _ => []

/-! ### What one line writes -/

namespace SourceLine

theorem output_keep_lead {l : SourceLine} {v : Text} (h : l.role = .lead v) (file : FileRef) :
    l.output .keep file =
      if l.number = 1 ∧ ¬ l.openAfter then [] else [.seam l.scan.closes l.scan.opens] := by
  simp only [output, h]

theorem output_keep {l : SourceLine} (h : l.leadVersion? = none) (file : FileRef) :
    l.output .keep file = [.copy file l.number l.raw] := by
  cases hrole : l.role with
  | lead v => rw [leadVersion?, hrole] at h; cases h
  | silent => simp only [output, hrole]
  | splice target => simp only [output, hrole]
  | ordinary redeclares => simp only [output, hrole]

/-- With its lines kept, a line writes nothing, a copy of itself, or a seam. It writes nothing only
if it is the first of its file, leads with a version and leaves no comment open. -/
theorem output_keep_cases (l : SourceLine) (file : FileRef) :
    (l.output .keep file = [] ∧ l.number = 1 ∧ l.openAfter = false ∧ l.leadVersion?.isSome) ∨
      (l.output .keep file = [.copy file l.number l.raw] ∧ l.leadVersion? = none) ∨
      (l.output .keep file = [.seam l.scan.closes l.scan.opens] ∧ l.leadVersion?.isSome) := by
  cases hlead : l.leadVersion? with
  | none => exact .inr (.inl ⟨output_keep hlead file, rfl⟩)
  | some v =>
    rw [output_keep_lead (leadVersion?_eq_some_iff.1 hlead)]
    split
    · next h => exact .inl ⟨rfl, h.1, by simpa using h.2, rfl⟩
    · exact .inr (.inr ⟨rfl, rfl⟩)

theorem output_discard_ordinary {l : SourceLine} {redeclares : Bool}
    (h : l.role = .ordinary redeclares) (file : FileRef) :
    l.output .discard file =
      if redeclares ∧ file ≠ .top then [] else [.copy file l.number l.scan.code] := by
  simp only [output, h]

theorem output_discard {l : SourceLine} (h : ∀ redeclares, l.role ≠ .ordinary redeclares)
    (file : FileRef) : l.output .discard file = [] := by
  cases hrole : l.role with
  | ordinary redeclares => exact absurd hrole (h redeclares)
  | silent => simp only [output, hrole]
  | lead v => simp only [output, hrole]
  | splice target => simp only [output, hrole]

/-- With lines discarded, all that a line writes is its code, and only the source writes a version
that is declared again. -/
theorem eq_of_mem_output_discard {l : SourceLine} {file : FileRef} {o : OutputLine}
    (h : o ∈ l.output .discard file) :
    o = .copy file l.number l.scan.code ∧
      ∃ redeclares, l.role = .ordinary redeclares ∧ (redeclares = true → file = .top) := by
  by_cases hrole : ∃ redeclares, l.role = .ordinary redeclares
  · obtain ⟨redeclares, hrole⟩ := hrole
    rw [output_discard_ordinary hrole] at h
    split at h
    · simp at h
    · next hkept => exact ⟨List.mem_singleton.1 h, redeclares, hrole, by simpa using hkept⟩
  · rw [output_discard fun redeclares hr => hrole ⟨redeclares, hr⟩] at h
    simp at h

end SourceLine

/-! ### The lines of a layout -/

theorem map_line_placeAt (site : List Nat) (ls : List OutputLine) :
    (placeAt site ls).map PlacedLine.line = ls := by
  rw [placeAt, List.map_map]
  exact List.map_id ls

theorem map_line_trimPlaced (ps : List PlacedLine) :
    (trimPlaced ps).map PlacedLine.line = trimLines (ps.map PlacedLine.line) := by
  induction ps with
  | nil => rfl
  | cons p ps ih =>
    rw [trimPlaced, List.map_cons, trimLines, ← ih]
    cases trimPlaced ps with
    | nil =>
      rw [List.map_nil, PlacedLine.trimEnd?]
      cases p.line.trimEnd? <;> rfl
    | cons q qs => rfl

theorem map_line_placedFrame (mode : LineMode) (site : List Nat) (file : FileRef)
    (ls : List SourceLine) (inner : List PlacedLine) :
    (placedFrame mode site file ls inner).map PlacedLine.line =
      frame mode file ls (inner.map PlacedLine.line) := by
  rw [placedFrame, frame, List.map_cons, map_line_trimPlaced, List.map_append, map_line_placeAt]

theorem map_line_placed (mode : LineMode) (site : List Nat) (file : FileRef) (body : Body) :
    (body.placed mode site file).map PlacedLine.line = body.emit mode file := by
  induction body generalizing site file with
  | nil => rfl
  | keep l rest ih =>
    rw [Body.placed, Body.emit, List.map_append, map_line_placeAt, ih]
  | splice l target child rest ihchild ih =>
    rw [Body.placed, Body.emit, List.map_append, List.map_append, List.map_append,
      map_line_placeAt, map_line_placedFrame, map_line_placeAt, ihchild, ih]

/-- The layout of an assembly has the output lines of the assembly. -/
theorem map_line_layout (mode : LineMode) (version : Text) (body : Body) :
    (body.layout mode version).map PlacedLine.line = body.assembly mode version := by
  rw [Body.layout, Body.assembly, List.map_cons, map_line_placedFrame, map_line_placed]

/-- The assembled text has the texts of the layout, with a newline between two of them. -/
theorem render_assembly (idOf : FileRef → FileId) (mode : LineMode) (version : Text) (body : Body) :
    render idOf (body.assembly mode version) =
      Text.join [Text.newline] ((body.layout mode version).map (PlacedLine.text idOf)) := by
  rw [render, ← map_line_layout, List.map_map]
  rfl

/-! ### White space at the end -/

/-- A line disappears if there is nothing but white space in it. -/
theorem OutputLine.trimEnd?_eq_none_iff {o : OutputLine} {idOf : FileRef → FileId} :
    o.trimEnd? = none ↔ Text.Spaces (o.render idOf) := by
  -- a directive starts with a number sign, and a seam has a slash in it
  have hmark {t : Text} (h : t.head? = some 0x23 ∨ Text.slash ∈ t) : ¬ Text.Spaces t := by
    intro hs
    rcases h with h | h
    · exact hs.not_mem (by decide) (List.mem_of_mem_head? h)
    · exact hs.not_mem (by decide) h
  cases o with
  | version v => exact iff_of_false (by simp [trimEnd?]) (hmark (.inl rfl))
  | marker number file => exact iff_of_false (by simp [trimEnd?]) (hmark (.inl rfl))
  | copy file number t =>
    rw [trimEnd?, render, ← Text.isSpaces_iff]
    split
    · next h => exact iff_of_true rfl h
    · next h => exact iff_of_false (by simp) h
  | seam closes opens =>
    cases closes <;> cases opens
    · exact iff_of_true rfl Text.spaces_nil
    all_goals exact iff_of_false (by simp [trimEnd?]) (hmark (.inr (by rw [render]; decide)))

/-- A line that stays is the same line; at most white space at the end of a copy is lost. -/
theorem OutputLine.trimEnd?_eq_some {o o' : OutputLine} (h : o.trimEnd? = some o') :
    (o' = o ∧ ∀ file number t, o ≠ .copy file number t) ∨
      ∃ file number t, o = .copy file number t ∧ ¬ Text.Spaces t ∧
        o' = .copy file number t.trimEnd := by
  cases o with
  | version v => cases h; exact .inl ⟨rfl, by simp⟩
  | marker number file => cases h; exact .inl ⟨rfl, by simp⟩
  | copy file number t =>
    rw [trimEnd?] at h
    split at h
    · cases h
    · next hs => cases h; exact .inr ⟨file, number, t, rfl, by rwa [← Text.isSpaces_iff], rfl⟩
  | seam closes opens =>
    cases closes <;> cases opens
    · cases h
    · cases h; exact .inl ⟨rfl, by simp⟩
    · cases h; exact .inl ⟨rfl, by simp⟩
    · cases h; exact .inl ⟨rfl, by simp⟩

theorem PlacedLine.spaces_of_trimEnd? {p : PlacedLine} (h : p.trimEnd? = none)
    (idOf : FileRef → FileId) : Text.Spaces (p.text idOf) :=
  OutputLine.trimEnd?_eq_none_iff.1 (Option.map_eq_none_iff.1 h)

theorem PlacedLine.trimEnd?_eq_some {p q : PlacedLine} (h : p.trimEnd? = some q) :
    (q = p ∧ ∀ file number t, p.line ≠ .copy file number t) ∨
      ∃ file number t, p.line = .copy file number t ∧ ¬ Text.Spaces t ∧
        q = ⟨p.site, .copy file number t.trimEnd⟩ := by
  obtain ⟨o, ho, rfl⟩ := Option.map_eq_some_iff.1 h
  rcases OutputLine.trimEnd?_eq_some ho with ⟨rfl, hcopy⟩ | ⟨file, number, t, hline, hs, rfl⟩
  · exact .inl ⟨rfl, hcopy⟩
  · exact .inr ⟨file, number, t, hline, hs, rfl⟩

theorem PlacedLine.site_of_trimEnd? {p q : PlacedLine} (h : p.trimEnd? = some q) :
    q.site = p.site := by
  rcases p.trimEnd?_eq_some h with ⟨rfl, -⟩ | ⟨_, _, _, -, -, rfl⟩ <;> rfl

theorem PlacedLine.trimEnd_text_of_trimEnd? {p q : PlacedLine} (h : p.trimEnd? = some q)
    (idOf : FileRef → FileId) : (q.text idOf).trimEnd = (p.text idOf).trimEnd := by
  rcases p.trimEnd?_eq_some h with ⟨rfl, -⟩ | ⟨file, number, t, hp, -, rfl⟩
  · rfl
  · simp only [PlacedLine.text, hp, OutputLine.render, Text.trimEnd_trimEnd]

theorem PlacedLine.text_subset_of_trimEnd? {p q : PlacedLine} (h : p.trimEnd? = some q)
    (idOf : FileRef → FileId) : q.text idOf ⊆ p.text idOf := by
  rcases p.trimEnd?_eq_some h with ⟨rfl, -⟩ | ⟨file, number, t, hp, -, rfl⟩
  · exact List.Subset.refl _
  · simp only [PlacedLine.text, hp, OutputLine.render]
    exact (Text.trimEnd_isPrefix t).subset

theorem PlacedLine.text_ne_nil_of_trimEnd? {p q : PlacedLine} (h : p.trimEnd? = some q)
    (idOf : FileRef → FileId) : q.text idOf ≠ [] := by
  intro hnil
  have htrim := PlacedLine.trimEnd_text_of_trimEnd? h idOf
  rw [hnil, Text.trimEnd_eq_nil_iff.2 Text.spaces_nil, eq_comm, Text.trimEnd_eq_nil_iff] at htrim
  rw [PlacedLine.trimEnd?, OutputLine.trimEnd?_eq_none_iff.2 htrim] at h
  cases h

theorem trimPlaced_append_of_ne_nil {a b : List PlacedLine} (hb : trimPlaced b ≠ []) :
    trimPlaced (a ++ b) = a ++ trimPlaced b := by
  induction a with
  | nil => rfl
  | cons p a ih =>
    rw [List.cons_append, trimPlaced, ih]
    cases hab : a ++ trimPlaced b with
    | nil => exact absurd (List.append_eq_nil_iff.1 hab).2 hb
    | cons q qs => rw [List.cons_append, hab]

theorem trimPlaced_append_of_eq_nil {a b : List PlacedLine} (hb : trimPlaced b = []) :
    trimPlaced (a ++ b) = trimPlaced a := by
  induction a with
  | nil => exact hb
  | cons p a ih => rw [List.cons_append, trimPlaced, trimPlaced, ih]

/-- A line that trimming does not touch protects the lines before it. -/
theorem trimPlaced_append_cons {a b : List PlacedLine} {p : PlacedLine} (hp : p.trimEnd? = some p) :
    trimPlaced (a ++ p :: b) = a ++ p :: trimPlaced b := by
  have hcons : trimPlaced (p :: b) = p :: trimPlaced b := by
    rw [trimPlaced]
    cases trimPlaced b with
    | nil => rw [hp]; rfl
    | cons q qs => rfl
  rw [trimPlaced_append_of_ne_nil (by rw [hcons]; simp), hcons]

/-- Trimmed lines are the old lines, the last perhaps without white space at its end. -/
theorem mem_trimPlaced {ps : List PlacedLine} {q : PlacedLine} (h : q ∈ trimPlaced ps) :
    ∃ p ∈ ps, q = p ∨ p.trimEnd? = some q := by
  induction ps with
  | nil => simp [trimPlaced] at h
  | cons p ps ih =>
    rw [trimPlaced] at h
    cases hps : trimPlaced ps with
    | nil =>
      rw [hps] at h
      exact ⟨p, List.mem_cons_self, .inr (by simpa [eq_comm] using h)⟩
    | cons r rs =>
      rw [hps] at h ih
      rcases List.mem_cons.1 h with rfl | h
      · exact ⟨q, List.mem_cons_self, .inl rfl⟩
      · obtain ⟨p', hp', hq⟩ := ih h
        exact ⟨p', List.mem_cons_of_mem _ hp', hq⟩

theorem getLast?_trimPlaced {ps : List PlacedLine} {q : PlacedLine}
    (h : (trimPlaced ps).getLast? = some q) : ∃ p : PlacedLine, p.trimEnd? = some q := by
  induction ps with
  | nil => cases h
  | cons p ps ih =>
    rw [trimPlaced] at h
    cases hps : trimPlaced ps with
    | nil =>
      rw [hps] at h
      refine ⟨p, ?_⟩
      cases hp : p.trimEnd? with
      | none => rw [hp] at h; cases h
      | some r => rw [hp] at h; exact h
    | cons r rs =>
      rw [hps] at h ih
      rw [List.getLast?_cons_cons] at h
      exact ih h

/-- To the scanner the lines before and after trimming are the same. -/
theorem blockAfter_trimPlaced (idOf : FileRef → FileId) (inBlock : Bool) (ps : List PlacedLine) :
    blockAfter inBlock ((trimPlaced ps).map (PlacedLine.text idOf)) =
      blockAfter inBlock (ps.map (PlacedLine.text idOf)) := by
  induction ps generalizing inBlock with
  | nil => rfl
  | cons p ps ih =>
    rw [trimPlaced, List.map_cons, blockAfter_cons, ← ih]
    cases hps : trimPlaced ps with
    | nil =>
      rw [List.map_nil, blockAfter_nil]
      cases hp : p.trimEnd? with
      | none => exact (scanLine_spaces inBlock (p.spaces_of_trimEnd? hp idOf)).symm
      | some q => exact (scanLine_congr inBlock (PlacedLine.trimEnd_text_of_trimEnd? hp idOf)).2
    | cons q qs => rfl

/-! ### Along a run -/

section
variable {σ α : Type}

/-- `P` holds of each member of a list in the state in which it is met, if `step` takes the state
before a member to the state after it. -/
def Along (step : σ → α → σ) (P : σ → α → Prop) : σ → List α → Prop
  | _, [] => True
  | s, x :: xs => P s x ∧ Along step P (step s x) xs

/-- `P` holds along a list that leads from the state `before` to the state `after`. -/
structure Leads (step : σ → α → σ) (P : σ → α → Prop) (before : σ) (xs : List α) (after : σ) :
    Prop where
  along : Along step P before xs
  ends : xs.foldl step before = after

variable {step : σ → α → σ} {P : σ → α → Prop} {s : σ} {xs ys : List α}

theorem along_append :
    Along step P s (xs ++ ys) ↔ Along step P s xs ∧ Along step P (xs.foldl step s) ys := by
  induction xs generalizing s with
  | nil => simp [Along]
  | cons x xs ih => rw [List.cons_append, Along, Along, ih, List.foldl_cons, and_assoc]

/-- Each member is met in the state that the members before it lead to. -/
theorem Along.getElem? (h : Along step P s xs) {i : Nat} {x : α} (hx : xs[i]? = some x) :
    P ((xs.take i).foldl step s) x := by
  induction xs generalizing s i with
  | nil => simp at hx
  | cons y xs ih =>
    cases i with
    | zero =>
      cases hx
      exact h.1
    | succ i => exact ih h.2 hx

theorem Leads.nil : Leads step P s [] s := ⟨trivial, rfl⟩

theorem Leads.single {x : α} (h : P s x) : Leads step P s [x] (step s x) := ⟨⟨h, trivial⟩, rfl⟩

theorem Leads.append {middle after : σ} (h : Leads step P s xs middle)
    (h' : Leads step P middle ys after) : Leads step P s (xs ++ ys) after := by
  constructor
  · rw [along_append, h.ends]
    exact ⟨h.along, h'.along⟩
  · rw [List.foldl_append, h.ends, h'.ends]

end

/-- A property that white space has no say in holds along trimmed lines as well. -/
theorem Along.trimPlaced {σ : Type} {step : σ → PlacedLine → σ} {P : σ → PlacedLine → Prop} {s : σ}
    {ps : List PlacedLine} (h : Along step P s ps)
    (htrim : ∀ s p q, p.trimEnd? = some q → P s p → P s q) : Along step P s (trimPlaced ps) := by
  induction ps generalizing s with
  | nil => trivial
  | cons p ps ih =>
    have hrest := ih h.2
    rw [ShaderSplice.trimPlaced]
    cases hps : ShaderSplice.trimPlaced ps with
    | nil =>
      cases hp : p.trimEnd? with
      | none => trivial
      | some q => exact ⟨htrim s p q hp h.1, trivial⟩
    | cons q qs =>
      rw [hps] at hrest
      exact ⟨h.1, hrest⟩

/-! ### A property of all lines -/

/-- A property of all that a file with the given text writes at a site. -/
structure WritesAll (P : PlacedLine → Prop) (mode : LineMode) (site : List Nat) (file : FileRef)
    (content : Text) : Prop where
  marker : ∀ number, P ⟨site, .marker number file⟩
  seam : ∀ closes opens, P ⟨site, .seam closes opens⟩
  output : ∀ l ∈ sourceLines content, l.target? = none → ∀ o ∈ l.output mode file, P ⟨site, o⟩

section
variable {table : IncludeTable} {top : Text} {mode : LineMode} {P : PlacedLine → Prop}

theorem WritesAll.beforeSplice {site : List Nat} {file : FileRef} {content : Text}
    (h : WritesAll P mode site file content) (l : SourceLine) :
    ∀ p ∈ placeAt site (l.beforeSplice mode), P p := by
  intro p hp
  obtain ⟨o, ho, rfl⟩ := List.mem_map.1 hp
  cases mode with
  | discard => simp [SourceLine.beforeSplice] at ho
  | keep =>
    rw [SourceLine.beforeSplice] at ho
    split at ho
    · rw [List.mem_singleton.1 ho]
      exact h.seam true false
    · simp at ho

theorem WritesAll.afterSplice {site : List Nat} {file : FileRef} {content : Text}
    (h : WritesAll P mode site file content) (l : SourceLine) :
    ∀ p ∈ placeAt site (l.afterSplice mode file), P p := by
  intro p hp
  obtain ⟨o, ho, rfl⟩ := List.mem_map.1 hp
  cases mode with
  | discard => simp [SourceLine.afterSplice] at ho
  | keep =>
    rw [SourceLine.afterSplice] at ho
    split at ho
    · rcases List.mem_cons.1 ho with rfl | ho
      · exact h.marker l.number
      · rw [List.mem_singleton.1 ho]
        exact h.seam false true
    · rw [List.mem_singleton.1 ho]
      exact h.marker (l.number + 1)

variable (htrim : ∀ p q : PlacedLine, p.trimEnd? = some q → P p → P q)
include htrim

theorem WritesAll.placedFrame {site : List Nat} {file : FileRef} {content : Text}
    (h : WritesAll P mode site file content) {ls : List SourceLine} {inner : List PlacedLine}
    (hinner : ∀ p ∈ inner, P p) : ∀ p ∈ placedFrame mode site file ls inner, P p := by
  have hclosing : ∀ p ∈ placeAt site (closing mode file ls), P p := by
    intro p hp
    obtain ⟨o, ho, rfl⟩ := List.mem_map.1 hp
    rw [closing] at ho
    split at ho
    · rw [List.mem_singleton.1 ho]
      exact h.seam true false
    · simp at ho
  intro q hq
  rcases List.mem_cons.1 hq with rfl | hq
  · exact h.marker _
  · obtain ⟨p, hp, hpq⟩ := mem_trimPlaced hq
    have hP : P p := by
      rcases List.mem_append.1 hp with hp | hp
      · exact hinner p hp
      · exact hclosing p hp
    rcases hpq with rfl | hpq
    · exact hP
    · exact htrim p q hpq hP

variable (hwrites : ∀ site file content, expandedAt table .top top site = some (file, content) →
  WritesAll P mode site file content)
include hwrites

/-- What holds of all that is written at each site holds of all lines of a body. -/
theorem Expands.forall_mem_placed {version : Text} {path : List Text} {ls : List SourceLine}
    {body : Body} (h : Expands table version path ls body) {site : List Nat} {file : FileRef}
    {content : Text} (hsite : expandedAt table .top top site = some (file, content))
    (hls : ∀ l ∈ ls, l ∈ sourceLines content) : ∀ p ∈ body.placed mode site file, P p := by
  induction h generalizing site file content with
  | nil => intro p hp; simp [Body.placed] at hp
  | @keep path l rest body htarget _ _ ih =>
    intro p hp
    rcases List.mem_append.1 hp with hp | hp
    · obtain ⟨o, ho, rfl⟩ := List.mem_map.1 hp
      exact (hwrites site file content hsite).output l (hls l List.mem_cons_self) htarget o ho
    · exact ih hsite (fun l' hl' => hls l' (List.mem_cons_of_mem _ hl')) p hp
  | @splice path l rest target text child body hrole hfind _ _ _ ihchild ih =>
    have hsite' := expandedAt_number hsite (hls l List.mem_cons_self) hrole hfind
    have hchild := ihchild hsite' fun l' hl' => hl'
    intro p hp
    simp only [Body.placed, List.mem_append] at hp
    rcases hp with ((hp | hp) | hp) | hp
    · exact (hwrites site file content hsite).beforeSplice l p hp
    · exact (hwrites _ _ _ hsite').placedFrame htrim hchild p hp
    · exact (hwrites site file content hsite).afterSplice l p hp
    · exact ih hsite (fun l' hl' => hls l' (List.mem_cons_of_mem _ hl')) p hp

/-- And of all lines of a layout, if it holds of the version. -/
theorem Expands.forall_mem_layout {version : Text} {body : Body}
    (h : Expands table version [] (sourceLines top) body) (hversion : P ⟨[], .version version⟩) :
    ∀ p ∈ body.layout mode version, P p := by
  have hsite : expandedAt table .top top [] = some (.top, top) := rfl
  intro p hp
  rw [Body.layout] at hp
  rcases List.mem_cons.1 hp with rfl | hp
  · exact hversion
  · exact (hwrites _ _ _ hsite).placedFrame htrim
      (h.forall_mem_placed htrim hwrites hsite fun l hl => hl) p hp

end

/-! ### The lines of the assembled text -/

theorem not_mem_render_marker {b : UInt8} (hdigit : isDigitByte b = false)
    (hb : b ∉ Text.ofString "#line ") (idOf : FileRef → FileId) (number : Nat) (file : FileRef) :
    b ∉ (OutputLine.marker number file).render idOf := by
  have hspace : b ∉ Text.ofString " " := by
    intro h
    have hsub : Text.ofString " " ⊆ Text.ofString "#line " := by decide
    exact hb (hsub h)
  simp [OutputLine.render, hb, hspace, Text.not_mem_ofNat hdigit]

theorem not_mem_render_version {b : UInt8} (hword : isWordByte b = false)
    (hb : b ∉ Text.ofString "#version ") {v : Text}
    (hv : ∀ c ∈ v, isWordByte c = true ∨ c = Text.space) (idOf : FileRef → FileId) :
    b ∉ (OutputLine.version v).render idOf := by
  have hv' : b ∉ v := by
    intro h
    rcases hv b h with hw | rfl
    · rw [hword] at hw; cases hw
    · exact hb (by decide)
  simp [OutputLine.render, hb, hv']

section
variable {table : IncludeTable} {version : Text} (idOf : FileRef → FileId)

/-- No line of a file, nor its code, has a newline in it. -/
theorem newline_not_mem_of_mem_sourceLines {text : Text} {l : SourceLine}
    (h : l ∈ sourceLines text) : Text.newline ∉ l.raw ∧ Text.newline ∉ l.scan.code := by
  obtain ⟨i, -, hi⟩ := exists_index_of_mem h
  have hnew := newline_not_mem_of_mem_lines (List.mem_of_getElem? (getElem?_sourceLines hi).2.1)
  obtain ⟨inBlock, hscan⟩ := exists_scanLine_of_mem h
  refine ⟨hnew, fun hmem => hnew ?_⟩
  have hcode := code_subset inBlock l.raw
  rw [hscan] at hcode
  exact hcode hmem

theorem newline_not_mem_seamText (closes opens : Bool) :
    Text.newline ∉ seamText closes opens := by
  revert closes opens
  decide

theorem newline_not_mem_render_marker (number : Nat) (file : FileRef) :
    Text.newline ∉ (OutputLine.marker number file).render idOf :=
  not_mem_render_marker (by decide) (by decide) idOf number file

theorem newline_not_mem_output {l : SourceLine}
    (h : Text.newline ∉ l.raw ∧ Text.newline ∉ l.scan.code) (mode : LineMode) (file : FileRef) :
    ∀ o ∈ l.output mode file, Text.newline ∉ o.render idOf := by
  intro o ho
  cases mode with
  | keep =>
    rcases l.output_keep_cases file with ⟨he, -⟩ | ⟨he, -⟩ | ⟨he, -⟩
    · rw [he] at ho
      simp at ho
    · rw [he] at ho
      rw [List.mem_singleton.1 ho]
      exact h.1
    · rw [he] at ho
      rw [List.mem_singleton.1 ho]
      exact newline_not_mem_seamText _ _
  | discard =>
    rw [(SourceLine.eq_of_mem_output_discard ho).1]
    exact h.2

theorem Expands.newline_not_mem {top : Text} {body : Body}
    (h : Expands table version [] (sourceLines top) body) (mode : LineMode)
    (hversion : Text.newline ∉ (OutputLine.version version).render idOf) :
    ∀ p ∈ body.layout mode version, Text.newline ∉ p.text idOf := by
  have htrim (p q : PlacedLine) (hq : p.trimEnd? = some q) (hp : Text.newline ∉ p.text idOf) :
      Text.newline ∉ q.text idOf :=
    fun hmem => hp (PlacedLine.text_subset_of_trimEnd? hq idOf hmem)
  refine h.forall_mem_layout htrim ?_ hversion
  intro site file content _
  constructor
  · exact fun number => newline_not_mem_render_marker idOf number file
  · exact newline_not_mem_seamText
  · intro l hl _
    exact newline_not_mem_output idOf (newline_not_mem_of_mem_sourceLines hl) mode file

end

/-- The last line of a frame is not empty. -/
theorem getLast?_placedFrame {mode : LineMode} {site : List Nat} {file : FileRef}
    {ls : List SourceLine} {inner : List PlacedLine} {q : PlacedLine} (idOf : FileRef → FileId)
    (h : (placedFrame mode site file ls inner).getLast? = some q) : q.text idOf ≠ [] := by
  rw [placedFrame] at h
  cases htrim : trimPlaced (inner ++ placeAt site (closing mode file ls)) with
  | nil =>
    rw [htrim] at h
    have hmarker : PlacedLine.trimEnd? ⟨site, .marker (firstLine mode file ls) file⟩ = some q := h
    exact PlacedLine.text_ne_nil_of_trimEnd? hmarker idOf
  | cons p ps =>
    rw [htrim, List.getLast?_cons_cons, ← htrim] at h
    obtain ⟨p, hp⟩ := getLast?_trimPlaced h
    exact PlacedLine.text_ne_nil_of_trimEnd? hp idOf

/-- What an assembly that succeeds is made of. -/
theorem exists_expands_of_assemble {language : Language} {mode : LineMode} {table : IncludeTable}
    {registry : Registry} {name text : Text} {a : Assembly}
    (h : (assemble language mode table registry name text).result = .ok a) :
    ∃ body, Expands table (treeVersion language (topLines text)) [] (topLines text) body ∧
      layout language mode table name text =
        body.layout mode (treeVersion language (topLines text)) ∧
      a.version = treeVersion language (topLines text) ∧
      a.source = Text.join [Text.newline] ((layout language mode table name text).map
        (PlacedLine.text (assemble language mode table registry name text).registry.idOf)) := by
  obtain ⟨body, hbody, rfl⟩ := assemble_eq_ok_iff.1 h
  have hlayout : layout language mode table name text =
      body.layout mode (treeVersion language (topLines text)) := by rw [layout, hbody]
  refine ⟨body, expands_of_walk hbody, hlayout, rfl, ?_⟩
  rw [hlayout]
  exact render_assembly _ mode _ body

/-- **The layout tells the lines of the assembled text**: cut at newlines, the text has the texts
of the layout, and each line loses a carriage return at most when it is cut into lines. -/
theorem lines_source {language : Language} {mode : LineMode} {table : IncludeTable}
    {registry : Registry} {name text : Text} {a : Assembly}
    (h : (assemble language mode table registry name text).result = .ok a) :
    a.source.splitOn Text.newline = (layout language mode table name text).map
        (PlacedLine.text (assemble language mode table registry name text).registry.idOf) ∧
      lines a.source = ((layout language mode table name text).map
        (PlacedLine.text
          (assemble language mode table registry name text).registry.idOf)).map
            dropCarriageReturn := by
  obtain ⟨body, hexp, hlayout, -, hsource⟩ := exists_expands_of_assemble h
  generalize (assemble language mode table registry name text).registry.idOf = idOf at hsource ⊢
  have hnew : ∀ l ∈ (layout language mode table name text).map (PlacedLine.text idOf),
      Text.newline ∉ l := by
    intro l hl
    obtain ⟨p, hp, rfl⟩ := List.mem_map.1 hl
    rw [hlayout] at hp
    exact hexp.newline_not_mem idOf mode (not_mem_render_version (by decide) (by decide)
      (bytes_of_treeVersion language text) idOf) p hp
  have hne : (layout language mode table name text).map (PlacedLine.text idOf) ≠ [] := by
    simp [hlayout, Body.layout]
  -- cutting into lines would drop an empty last line
  have hlast : ((layout language mode table name text).map (PlacedLine.text idOf)).getLast? ≠
      some [] := by
    rw [List.getLast?_map, hlayout, Body.layout, placedFrame, List.getLast?_cons_cons]
    intro hnil
    obtain ⟨q, hq, hqnil⟩ := Option.map_eq_some_iff.1 hnil
    exact getLast?_placedFrame idOf hq hqnil
  rw [hsource]
  exact ⟨List.splitOn_intercalate _ hnew hne, lines_join hne hnew hlast⟩

end ShaderSplice
