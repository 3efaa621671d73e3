import ShaderSplice.Proofs.DirectiveGrammar
import ShaderSplice.Proofs.Synchronisation
import ShaderSplice.Proofs.Text.Field

/-!
# Where markers say that a line comes from

`#line n f` says that the next line is line `n` of the file with id `f`; lines after that count up.
`Reader` follows this rule through a text, outside block comments. On an assembly that keeps its
lines, each copied line is met when the reader expects exactly its number and its file.

The proof has two halves. On the layout, markers are symbols and can be counted without reading any
text (`Expands.counts`). The reader sees in the text what the layout says (`Reader.step_text`), for
it is in step with the comments and no copied line is a marker itself.
-/

namespace ShaderSplice

/-! ### Reading markers -/

/-- What comment-free code says about the next line, if it is a line directive: its number and the
id of its file. -/
def lineMarker? (code : Text) : Option (Nat × Nat) :=
  (Directive.parse? code).bind fun d =>
    if d.name = Text.ofString "line" then
      match d.arg.fields with
      | [number, id] =>
        if number.all isDigitByte ∧ id.all isDigitByte then some (number.toNat, id.toNat) else none
      | _ => none
    else none

/-- What is known between two lines of a text. -/
structure Reader where
  /-- Whether a block comment is open. -/
  inBlock : Bool
  /-- The number of the next line and the id of its file, once a marker has told them. -/
  next : Option (Nat × Nat)

/-- Reads one line. -/
def Reader.step (r : Reader) (l : Text) : Reader :=
  let (scan, openAfter) := scanLine r.inBlock l
  { inBlock := openAfter
    next := (lineMarker? scan.code).or (r.next.map fun (number, id) => (number + 1, id)) }

/-- The number and the file id that the markers give to the line at index `i`. -/
def attributed (ls : List Text) (i : Nat) : Option (Nat × Nat) :=
  ((ls.take i).foldl Reader.step ⟨false, none⟩).next

/-! ### The text of a marker -/

namespace Text

/-- There is no white space in a word. -/
theorem isField_of_isWordByte {w : Text} (hw : ∀ b ∈ w, isWordByte b = true) (hne : w ≠ []) :
    IsField w := by
  refine ⟨hne, ?_⟩
  intro form hform hin
  obtain ⟨b, hb⟩ := List.exists_mem_of_ne_nil form (ne_nil_of_mem_spaceForms form hform)
  have hspaces : Spaces form := Run.single hform
  have hword := hw b (hin.subset hb)
  rw [hspaces.not_isWordByte b hb] at hword
  cases hword

/-- A word is its only field. -/
theorem fields_word {w : Text} (hw : ∀ b ∈ w, isWordByte b = true) (hne : w ≠ []) :
    fields w = [w] := by
  have h : HasFields (w ++ []) [w] := .field (isField_of_isWordByte hw hne) (.inl rfl) .nil
  rw [List.append_nil] at h
  exact h.fields_eq

/-- Two words with a space between them are two fields. -/
theorem fields_two_words {w w' : Text} (hw : ∀ b ∈ w, isWordByte b = true) (hne : w ≠ [])
    (hw' : ∀ b ∈ w', isWordByte b = true) (hne' : w' ≠ []) :
    fields (w ++ space :: w') = [w, w'] := by
  have hform : [space] ∈ spaceForms := by decide
  have hrest : HasFields ([space] ++ w') [w'] :=
    .space hform (fields_eq_iff.1 (fields_word hw' hne'))
  have h : HasFields (w ++ ([space] ++ w')) [w, w'] :=
    .field (isField_of_isWordByte hw hne) (.inr ⟨_, hform, List.prefix_append _ _⟩) hrest
  exact h.fields_eq

end Text

/-- The directive of a word, a blank and something more. -/
theorem parse?_word {word more : Text} (hword : word.all isWordByte = true) (hne : word ≠ []) :
    ∃ d, Directive.parse? (0x23 :: word ++ Text.space :: more) = some d ∧ d.name = word ∧
      d.spaced = true ∧ d.arg.fields = more.fields := by
  have hsep : Blanks [Text.space] := by
    intro b hb
    rw [List.mem_singleton.1 hb]
    decide
  have hline : DirectiveLine word more (0x23 :: word ++ Text.space :: more) := by
    simpa using @DirectiveLine.mk word more [] [] _ blanks_nil blanks_nil hsep (by simp)
  obtain ⟨d, hd, hname, hspaced, harg⟩ := hline.exists_parse? hword hne
  refine ⟨d, hd, hname, hspaced, ?_⟩
  rw [harg, Text.fields_dropEndWhile_isBlankByte, Text.fields_dropWhile_isBlankByte]

theorem lineMarker?_marker (idOf : FileRef → FileId) (number : Nat) (file : FileRef) :
    lineMarker? ((OutputLine.marker number file).render idOf) =
      some (number, (idOf file).toNat) := by
  obtain ⟨d, hparse, hname, -, hfields⟩ := @parse?_word (Text.ofString "line")
    (Text.ofNat number ++ Text.space :: Text.ofNat (idOf file).toNat) (by decide) (by decide)
  have htext : (OutputLine.marker number file).render idOf =
      0x23 :: Text.ofString "line" ++ Text.space ::
        (Text.ofNat number ++ Text.space :: Text.ofNat (idOf file).toNat) := by
    have hline : Text.ofString "#line " = 0x23 :: Text.ofString "line" ++ [Text.space] := by decide
    have hspace : Text.ofString " " = [Text.space] := by decide
    rw [OutputLine.render, hline, hspace]
    simp only [List.append_assoc, List.cons_append, List.nil_append]
  have hdigits (n : Nat) : (Text.ofNat n).all isDigitByte = true :=
    List.all_eq_true.2 fun b hb => Text.isDigitByte_of_mem_ofNat hb
  have hword (n : Nat) : ∀ b ∈ Text.ofNat n, isWordByte b = true := fun b hb =>
    isWordByte_of_isDigitByte (Text.isDigitByte_of_mem_ofNat hb)
  rw [Text.fields_two_words (hword _) (Text.ofNat_ne_nil _) (hword _) (Text.ofNat_ne_nil _)]
    at hfields
  rw [htext, lineMarker?, hparse, Option.bind_some, if_pos hname, hfields]
  simp only [hdigits, and_self, if_true, Text.toNat_ofNat]

theorem lineMarker?_eq_none {code : Text} (h : directiveName? code ≠ some (Text.ofString "line")) :
    lineMarker? code = none := by
  rw [lineMarker?]
  cases hparse : Directive.parse? code with
  | none => rfl
  | some d =>
    rw [directiveName?, hparse] at h
    have hname : d.name ≠ Text.ofString "line" := fun hn => h (congrArg some hn)
    rw [Option.bind_some, if_neg hname]

theorem directiveName?_marker (idOf : FileRef → FileId) (number : Nat) (file : FileRef) :
    directiveName? ((OutputLine.marker number file).render idOf) =
      some (Text.ofString "line") := by
  by_contra hne
  have hnone := lineMarker?_eq_none hne
  rw [lineMarker?_marker] at hnone
  cases hnone

/-- The version line is a directive that goes by its version. -/
theorem parse?_version (idOf : FileRef → FileId) (v : Text) :
    ∃ d, Directive.parse? ((OutputLine.version v).render idOf) = some d ∧
      d.name = Text.ofString "version" ∧ d.spaced = true ∧ d.arg.fields = v.fields := by
  have hversion : Text.ofString "#version " =
      0x23 :: Text.ofString "version" ++ [Text.space] := by decide
  have htext : (OutputLine.version v).render idOf =
      0x23 :: Text.ofString "version" ++ Text.space :: v := by
    rw [OutputLine.render, hversion]
    simp only [List.append_assoc, List.cons_append, List.nil_append]
  rw [htext]
  exact parse?_word (by decide) (by decide)

theorem directiveName?_version (idOf : FileRef → FileId) (v : Text) :
    directiveName? ((OutputLine.version v).render idOf) = some (Text.ofString "version") := by
  obtain ⟨d, hparse, hname, -⟩ := parse?_version idOf v
  rw [directiveName?, hparse, Option.map_some, hname]

/-! ### Counting on the layout -/

namespace PlacedLine

/-- The number and the file of the line after `p`, given those of `p` itself. -/
def countStep (place : Option (Nat × FileRef)) (p : PlacedLine) : Option (Nat × FileRef) :=
  match p.line with
  | .marker number file => some (number, file)
  | _ => place.map fun (number, file) => (number + 1, file)

/-- A copy stands where its number and its file are expected. -/
def Counted (place : Option (Nat × FileRef)) (p : PlacedLine) : Prop :=
  ∀ file number t, p.line = .copy file number t → place = some (number, file)

theorem Counted.of_trimEnd? {place : Option (Nat × FileRef)} {p q : PlacedLine}
    (hq : p.trimEnd? = some q) (h : p.Counted place) : q.Counted place := by
  rcases p.trimEnd?_eq_some hq with ⟨rfl, -⟩ | ⟨file, number, t, hp, -, rfl⟩
  · exact h
  · intro file' number' t' he
    cases he
    exact h file number t hp

theorem counted_of_ne_copy {p : PlacedLine} (h : ∀ file number t, p.line ≠ .copy file number t)
    (place : Option (Nat × FileRef)) : p.Counted place :=
  fun file number t he => absurd he (h file number t)

end PlacedLine

/-- The lines `ps` are counted rightly from `before` on, and `after` is expected after them. -/
def Counts (before : Option (Nat × FileRef)) (ps : List PlacedLine)
    (after : Option (Nat × FileRef)) : Prop :=
  Leads PlacedLine.countStep PlacedLine.Counted before ps after

theorem counts_marker (before : Option (Nat × FileRef)) (site : List Nat) (number : Nat)
    (file : FileRef) : Counts before [⟨site, .marker number file⟩] (some (number, file)) :=
  Leads.single (PlacedLine.counted_of_ne_copy (by simp) before)

theorem counts_seam (number : Nat) (file : FileRef) (site : List Nat) (closes opens : Bool) :
    Counts (some (number, file)) [⟨site, .seam closes opens⟩] (some (number + 1, file)) :=
  Leads.single (PlacedLine.counted_of_ne_copy (by simp) _)

/-! ### The first line of a file -/

theorem firstLine_eq_one {file : FileRef} {ls : List SourceLine}
    (h : ∀ l ∈ ls, l.output .keep file ≠ []) : firstLine .keep file ls = 1 := by
  rw [firstLine, if_neg]
  simp only [List.any_eq_true, Bool.and_eq_true, List.isEmpty_iff, not_exists, not_and]
  exact fun l hl _ => h l hl

theorem firstLine_eq_two {file : FileRef} {l : SourceLine} {ls : List SourceLine}
    (h : l.output .keep file = []) (hlead : l.leadVersion?.isSome) :
    firstLine .keep file (l :: ls) = 2 := by
  rw [firstLine, if_pos]
  simp [h, hlead]

/-- After its first line a file leaves no line out. -/
theorem InPlace.output_ne_nil {index : Nat} {inBlock : Bool} {ls : List SourceLine}
    (h : InPlace (index + 1) inBlock ls) (file : FileRef) :
    ∀ l ∈ ls, l.output .keep file ≠ [] := by
  intro l hl hnil
  have hlt := h.lt_number l hl
  rcases l.output_keep_cases file with ⟨-, hone, -, -⟩ | ⟨he, -⟩ | ⟨he, -⟩
  · omega
  · rw [hnil] at he; cases he
  · rw [hnil] at he; cases he

/-! ### Counting through a body -/

/-- What a line writes is counted as one line, or is left out of the count from the start. -/
theorem counts_output {index : Nat} {inBlock : Bool} {l : SourceLine} {ls : List SourceLine}
    (hnumber : l.number = index + 1) (hrest : InPlace (index + 1) inBlock ls) (site : List Nat)
    (file : FileRef) :
    Counts (some (index + firstLine .keep file (l :: ls), file))
      (placeAt site (l.output .keep file)) (some (index + 2, file)) := by
  have hfirst (hne : l.output .keep file ≠ []) : firstLine .keep file (l :: ls) = 1 := by
    apply firstLine_eq_one
    intro l' hl'
    rcases List.mem_cons.1 hl' with rfl | hl'
    · exact hne
    · exact hrest.output_ne_nil file l' hl'
  rcases l.output_keep_cases file with ⟨he, -, -, hlead⟩ | ⟨he, -⟩ | ⟨he, -⟩
  · -- nothing is written, but the marker has already announced the second line
    rw [firstLine_eq_two he hlead, he]
    exact Leads.nil
  · rw [hfirst (by rw [he]; simp), he]
    refine Leads.single ?_
    intro file' number t hcopy
    cases hcopy
    rw [hnumber]
  · rw [hfirst (by rw [he]; simp), he]
    exact counts_seam (index + 1) file site _ _

theorem counts_beforeSplice (before : Option (Nat × FileRef)) (site : List Nat) (l : SourceLine) :
    ∃ after, Counts before (placeAt site (l.beforeSplice .keep)) after := by
  rw [SourceLine.beforeSplice]
  cases l.scan.closes with
  | false => exact ⟨before, Leads.nil⟩
  | true => exact ⟨_, Leads.single (PlacedLine.counted_of_ne_copy (by simp) before)⟩

/-- The line after an include directive is expected after the include. -/
theorem counts_afterSplice (before : Option (Nat × FileRef)) (site : List Nat) (file : FileRef)
    (l : SourceLine) :
    Counts before (placeAt site (l.afterSplice .keep file)) (some (l.number + 1, file)) := by
  rw [SourceLine.afterSplice]
  cases l.openAfter with
  | true =>
    exact (counts_marker before site l.number file).append
      (counts_seam l.number file site false true)
  | false => exact counts_marker before site (l.number + 1) file

/-- Inside a frame the count starts afresh. -/
theorem counts_placedFrame {site : List Nat} {file : FileRef} {ls : List SourceLine}
    {inner : List PlacedLine} {last : Option (Nat × FileRef)}
    (hinner : Counts (some (firstLine .keep file ls, file)) inner last)
    (before : Option (Nat × FileRef)) :
    ∃ after, Counts before (placedFrame .keep site file ls inner) after := by
  have hclosing : Along PlacedLine.countStep PlacedLine.Counted last
      (placeAt site (closing .keep file ls)) := by
    rw [closing]
    split
    · exact ⟨PlacedLine.counted_of_ne_copy (by simp) _, trivial⟩
    · trivial
  have hbody : Along PlacedLine.countStep PlacedLine.Counted (some (firstLine .keep file ls, file))
      (inner ++ placeAt site (closing .keep file ls)) := by
    rw [along_append, hinner.ends]
    exact ⟨hinner.along, hclosing⟩
  refine ⟨_, ⟨PlacedLine.counted_of_ne_copy (by simp) before, ?_⟩, rfl⟩
  exact hbody.trimPlaced fun _ _ _ hq hp => hp.of_trimEnd? hq

/-- The lines of a body are counted rightly from the line that is written first. -/
theorem Expands.counts {table : IncludeTable} {version : Text} {path : List Text}
    {ls : List SourceLine} {body : Body} (h : Expands table version path ls body) {index : Nat}
    {inBlock : Bool} (hplace : InPlace index inBlock ls) (site : List Nat) (file : FileRef) :
    ∃ after, Counts (some (index + firstLine .keep file ls, file)) (body.placed .keep site file)
      after := by
  induction h generalizing index inBlock site file with
  | nil => exact ⟨_, Leads.nil⟩
  | @keep path l rest body _ _ _ ih =>
    cases hplace with
    | cons hnumber _ _ _ hrest =>
      have hhead := counts_output hnumber hrest site file
      obtain ⟨after, htail⟩ := ih hrest site file
      -- past the first line the count and the number of the line are the same
      rw [firstLine_eq_one (hrest.output_ne_nil file)] at htail
      exact ⟨after, hhead.append htail⟩
  | @splice path l rest target text child body _ _ _ hchild _ ihchild ih =>
    cases hplace with
    | cons hnumber _ _ _ hrest =>
      obtain ⟨last, hinner⟩ :=
        ihchild (inPlace_sourceLines text) (site ++ [l.number]) (.included target)
      rw [Nat.zero_add, ← hchild.lines_eq] at hinner
      obtain ⟨place, hbefore⟩ :=
        counts_beforeSplice (some (index + firstLine .keep file (l :: rest), file)) site l
      -- where the frame leaves the count does not matter: the marker after it sets it anew
      obtain ⟨place', hframe⟩ := counts_placedFrame hinner place
      have hback := counts_afterSplice place' site file l
      obtain ⟨after, htail⟩ := ih hrest site file
      rw [firstLine_eq_one (hrest.output_ne_nil file)] at htail
      rw [hnumber] at hback
      exact ⟨after, ((hbefore.append hframe).append hback).append htail⟩

/-! ### Reading the text -/

/-- No line of a file that is expanded below a source is a line directive. -/
def FreeOfMarkers (table : IncludeTable) (top : Text) : Prop :=
  ∀ site file content, expandedAt table .top top site = some (file, content) →
    ∀ step ∈ scanLines false (lines content),
      directiveName? step.1.code ≠ some (Text.ofString "line")

/-- What is expanded is the source or an entry of the table. -/
theorem mem_of_expandedAt {table : IncludeTable} {file file' : FileRef} {top text content : Text}
    {site : List Nat} (htext : text ∈ top :: table.entries.map (·.2))
    (hat : expandedAt table file text site = some (file', content)) :
    content ∈ top :: table.entries.map (·.2) := by
  induction site generalizing file text with
  | nil =>
    cases hat
    exact htext
  | cons number site ih =>
    rw [expandedAt] at hat
    obtain ⟨target, -, hbelow⟩ := Option.bind_eq_some_iff.1 hat
    obtain ⟨text', hfind, hchild⟩ := Option.bind_eq_some_iff.1 hbelow
    refine ih (List.mem_cons_of_mem _ ?_) hchild
    obtain ⟨l₁, l₂, he, -⟩ := List.lookup_eq_some_iff.1 hfind
    simp [he]

/-- It is enough to look at the source and at the entries of the table. -/
theorem freeOfMarkers_of_entries {table : IncludeTable} {top : Text}
    (h : ∀ content ∈ top :: table.entries.map (·.2), ∀ step ∈ scanLines false (lines content),
      directiveName? step.1.code ≠ some (Text.ofString "line")) : FreeOfMarkers table top := by
  intro site file content hat
  exact h content (mem_of_expandedAt List.mem_cons_self hat)

/-- A place with the id of its file. -/
def placeId (idOf : FileRef → FileId) (place : Nat × FileRef) : Nat × Nat :=
  (place.1, (idOf place.2).toNat)

section
variable {table : IncludeTable} {top : Text} (idOf : FileRef → FileId)

theorem CopyOf.directiveName?_ne {site : List Nat} {file : FileRef} {number : Nat} {t : Text}
    {l : SourceLine} (h : CopyOf table top site file number t l) (hfree : FreeOfMarkers table top) :
    directiveName? l.scan.code ≠ some (Text.ofString "line") := by
  obtain ⟨content, hsite, hl⟩ := h.source
  obtain ⟨k, -, hget⟩ := exists_index_of_mem hl
  have hstep := List.mem_of_getElem? (getElem?_sourceLines hget).2.2
  exact hfree site file content hsite _ hstep

/-- The markers among the lines of an assembly are found, and nothing else is taken for one. -/
theorem lineMarker?_text (hfree : FreeOfMarkers table top) {inBlock : Bool} {p : PlacedLine}
    (h : p.InStep table top inBlock) :
    lineMarker? (scanLine inBlock (p.text idOf)).1.code =
      match p.line with
      | .marker number file => some (placeId idOf (number, file))
      | _ => none := by
  obtain ⟨site, line⟩ := p
  cases line with
  | version v =>
    obtain ⟨rfl, hv⟩ := h
    apply lineMarker?_eq_none
    rw [PlacedLine.text, scanLine_version hv, directiveName?_version]
    decide
  | marker number file =>
    obtain rfl : inBlock = false := h
    rw [PlacedLine.text, scanLine_marker, lineMarker?_marker]
    rfl
  | copy file number t =>
    -- in step with the comments, the code is the one that the line has in its own file
    obtain ⟨l, hcopy, hscan⟩ := h
    have hagree := (scanLine_congr inBlock hcopy.trimEnd_eq).1
    rw [hscan] at hagree
    apply lineMarker?_eq_none
    rw [PlacedLine.text, OutputLine.render, directiveName?_congr hagree.code]
    exact hcopy.directiveName?_ne hfree
  | seam closes opens =>
    obtain rfl : inBlock = closes := h
    have hblank := Text.isSpaces_iff.1 (scanLine_seamText inBlock opens).2
    rw [PlacedLine.text, OutputLine.render, lineMarker?, hblank.parse?_eq_none]
    rfl

/-- One line of an assembly is read as the layout says. -/
theorem Reader.step_text (hfree : FreeOfMarkers table top) {inBlock : Bool} {p : PlacedLine}
    (h : p.InStep table top inBlock) (place : Option (Nat × FileRef)) :
    Reader.step ⟨inBlock, place.map (placeId idOf)⟩ (p.text idOf) =
      ⟨p.blockStep idOf inBlock, (p.countStep place).map (placeId idOf)⟩ := by
  have hstep : Reader.step ⟨inBlock, place.map (placeId idOf)⟩ (p.text idOf) =
      ⟨p.blockStep idOf inBlock, (lineMarker? (scanLine inBlock (p.text idOf)).1.code).or
        ((place.map (placeId idOf)).map fun (number, id) => (number + 1, id))⟩ := rfl
  rw [hstep, lineMarker?_text idOf hfree h, PlacedLine.countStep]
  cases p.line with
  | marker number file => rfl
  | version v => rw [Option.none_or, Option.map_map, Option.map_map]; rfl
  | copy file number t => rw [Option.none_or, Option.map_map, Option.map_map]; rfl
  | seam closes opens => rw [Option.none_or, Option.map_map, Option.map_map]; rfl

/-- So are all its lines. -/
theorem Reader.foldl_text (hfree : FreeOfMarkers table top) {inBlock : Bool}
    {ps : List PlacedLine}
    (h : Along (PlacedLine.blockStep idOf) (PlacedLine.InStep table top) inBlock ps)
    (place : Option (Nat × FileRef)) :
    (ps.map (PlacedLine.text idOf)).foldl Reader.step ⟨inBlock, place.map (placeId idOf)⟩ =
      ⟨ps.foldl (PlacedLine.blockStep idOf) inBlock,
        (ps.foldl PlacedLine.countStep place).map (placeId idOf)⟩ := by
  induction ps generalizing inBlock place with
  | nil => rfl
  | cons p ps ih =>
    rw [List.map_cons, List.foldl_cons, Reader.step_text idOf hfree h.1, ih h.2]
    rfl

end

/-- **Markers attribute each copied line to its place**: to its own number and its own file. -/
theorem attributed_copy {language : Language} {table : IncludeTable} {registry : Registry}
    {name text : Text} {a : Assembly}
    (h : (assemble language .keep table registry name text).result = .ok a)
    (hfree : FreeOfMarkers table text.trimEnd) {i : Nat} {site : List Nat} {file : FileRef}
    {number : Nat} {t : Text}
    (hp : (layout language .keep table name text)[i]? = some ⟨site, .copy file number t⟩) :
    attributed (a.source.splitOn Text.newline) i = some (number,
      ((assemble language .keep table registry name text).registry.idOf file).toNat) := by
  obtain ⟨body, hexp, hlayout, -, -⟩ := exists_expands_of_assemble h
  have hcounted : Along PlacedLine.countStep PlacedLine.Counted none
      (layout language .keep table name text) := by
    obtain ⟨last, hbody⟩ := hexp.counts (inPlace_sourceLines text.trimEnd) [] .top
    rw [Nat.zero_add, ← hexp.lines_eq] at hbody
    obtain ⟨after, hframe⟩ := counts_placedFrame hbody none
    rw [hlayout, Body.layout]
    exact ⟨PlacedLine.counted_of_ne_copy (by simp) none, hframe.along⟩
  have hplace := hcounted.getElem? hp file number t rfl
  have hsteps := (passes_layout h).along
  rw [← List.take_append_drop i (layout language .keep table name text), along_append] at hsteps
  have hread := Reader.foldl_text _ hfree hsteps.1 none
  rw [attributed, (lines_source h).1, ← List.map_take]
  rw [Option.map_none] at hread
  rw [hread, hplace]
  rfl

end ShaderSplice
