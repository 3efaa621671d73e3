import ShaderSplice.Proofs.Lookup

/-!
# Names cannot break out of a lookup file

The names in a lookup file are arbitrary bytes, and the file is cut into lines before any of them is
read. A name stays within its quotes: its quoted form has no newline and no bare quote, it is valid
UTF-8 although the name may not be, and reading it gives the name back whatever comes behind it
(`IsQuotation`). So the lines of the file are those that the number of names accounts for, no line
but the right ones starts a case, and the file determines its names.
-/

namespace ShaderSplice

/-! ### Quotations -/

/-- `q` is `t` between quotes, on one line, in valid UTF-8, and ends where it is read to end. -/
structure IsQuotation (t q : Text) : Prop where
  newline_not_mem : Text.newline ∉ q
  isUtf8 : q.isUtf8 = true
  exists_body : ∃ body, q = Text.quoteMark :: body ++ [Text.quoteMark] ∧
    Text.hasBareQuote body = false
  read : ∀ rest, Text.readQuoted? (q ++ rest) = some (t, rest)

theorem isQuotation_quoteWith {printable : Char → Bool} (hnewline : printable '\n' = false)
    (t : Text) : IsQuotation t (Text.quoteWith printable t) where
  newline_not_mem := Text.newline_not_mem_quoteWith hnewline t
  isUtf8 := Text.isUtf8_quoteWith printable t
  exists_body := ⟨_, rfl, Text.hasBareQuote_flatMap_escape hnewline t.symbols⟩
  read := Text.readQuoted?_quoteWith hnewline t

namespace LookupProgram

/-! ### The lines that start a case -/

/-- The labels of the lines that start a case, wherever they stand in a file. -/
def caseLabels (t : Text) : List Nat := (lines t).filterMap fun l => label? (statement l)

theorem label?_eq_none {l : Text} (h : l.head? ≠ some 'c'.toUInt8) : label? l = none := by
  have hcase : Text.ofString "case " = 'c'.toUInt8 :: Text.ofString "ase " := by decide
  have hprefix : (Text.ofString "case ").isPrefixOf? l = none := by
    rw [Option.eq_none_iff_forall_ne_some]
    intro rest hrest
    rw [hcase, List.isPrefixOf?_eq_some_iff_append_eq] at hrest
    rw [← hrest] at h
    exact h rfl
  rw [label?, hprefix]
  rfl

/-- Lines that say nothing start no case. -/
theorem caseLabels_eq (t : Text) : caseLabels t = (statements t).filterMap label? := by
  have hidle {l : Text} (h : isIdle l = true) : label? l = none := by
    have hcomment : Text.ofString "//" = [Text.slash, Text.slash] := by decide
    apply label?_eq_none
    rw [isIdle, Bool.or_eq_true] at h
    rcases h with h | h
    · rw [List.isEmpty_iff.1 h]
      simp
    · rw [hcomment, List.isPrefixOf_iff_prefix] at h
      obtain ⟨rest, rfl⟩ := h
      rw [List.head?_append_of_ne_nil _ (by simp)]
      decide
  rw [statements, List.filterMap_filter, List.filterMap_map]
  apply List.filterMap_congr
  intro l _
  by_cases h : isIdle (statement l) = true
  · simp [h, hidle h]
  · simp [h]

theorem filterMap_label?_caseStatements (id : Nat) (names : List Text) :
    (caseStatements id names).filterMap label? = List.range' id names.length := by
  induction names generalizing id with
  | nil => rfl
  | cons name names ih =>
    have hreturn : label? (Text.ofString "return " ++ name.quote ++ Text.ofString ", true") =
        none := by
      apply label?_eq_none
      rw [List.append_assoc, List.head?_append_of_ne_nil _ (by decide)]
      decide
    rw [caseStatements, List.filterMap_cons_some (label?_case id),
      List.filterMap_cons_none hreturn, ih, List.length_cons, List.range'_succ]

/-! ### The bytes of the file -/

theorem isUtf8_ofNat (n : Nat) : (Text.ofNat n).isUtf8 = true := by
  refine Text.isUtf8_of_ascii (List.all_eq_true.2 fun b hb => decide_eq_true ?_)
  have hdigit := Text.isDigitByte_of_mem_ofNat hb
  simp only [isDigitByte, Bool.and_eq_true, decide_eq_true_eq, UInt8.le_iff_toNat_le] at hdigit
  have hle : b.toNat ≤ 0x39 := hdigit.2
  omega

theorem isUtf8_of_isPackageName {package : Text} (h : isPackageName package = true) :
    package.isUtf8 = true := by
  refine List.all_eq_true.2 fun s hs => ?_
  have hidentifier := continuesIdentifier_of_isPackageName h s hs
  cases s with
  | char c => rfl
  | stray b => cases hidentifier

theorem isUtf8_lookupCases (id : Nat) (names : List Text) :
    (lookupCases id names).isUtf8 = true := by
  induction names generalizing id with
  | nil => exact Text.isUtf8_of_ascii rfl
  | cons name names ih =>
    rw [lookupCases, lookupCase]
    refine Text.isUtf8_append (Text.isUtf8_append (Text.isUtf8_append (Text.isUtf8_append
      (Text.isUtf8_append ?_ (isUtf8_ofNat id)) ?_) (Text.isUtf8_quoteWith _ name)) ?_)
      (ih (id + 1))
    all_goals exact Text.isUtf8_of_ascii (by decide)

/-! ### The file as a whole -/

section
variable {package : Text} (h : isPackageName package = true) (names : List Text)
include h

/-- There is a case line for each name, and no other. -/
theorem caseLabels_lookupText :
    caseLabels (lookupText package names) = List.range' 1 names.length := by
  have hpackage : label? (Text.ofString "package " ++ package) = none := by
    apply label?_eq_none
    rw [List.head?_append_of_ne_nil _ (by decide)]
    decide
  have hopening : opening.filterMap label? = [] := by decide
  have hending : ending.filterMap label? = [] := by decide
  rw [caseLabels_eq, statements_lookupText h, List.filterMap_cons_none hpackage,
    List.filterMap_append, List.filterMap_append, hopening, hending,
    filterMap_label?_caseStatements, List.nil_append, List.append_nil]

theorem length_lines_lookupText :
    (lines (lookupText package names)).length = 2 * names.length + 10 := by
  have hcases (id : Nat) (names : List Text) :
      (caseLines id names).length = 2 * names.length := by
    induction names generalizing id with
    | nil => rfl
    | cons name names ih =>
      rw [caseLines, List.length_cons, List.length_cons, ih, List.length_cons]
      omega
  have hconstant : headLines.length = 2 ∧ openingLines.length = 4 ∧ endingLines.length = 3 :=
    ⟨rfl, rfl, rfl⟩
  rw [lookupText_eq_unlines, lines_unlines (newline_not_mem_fileLines h names), List.length_map,
    fileLines]
  simp only [List.length_append, List.length_cons, hcases, hconstant]
  omega

theorem isUtf8_lookupText : (lookupText package names).isUtf8 = true := by
  have hpackage := isUtf8_of_isPackageName h
  have hcases := isUtf8_lookupCases 1 names
  rw [lookupText]
  refine Text.isUtf8_append (Text.isUtf8_append (Text.isUtf8_append (Text.isUtf8_append
    (Text.isUtf8_append ?_ hpackage) ?_) ?_) hcases) ?_
  all_goals exact Text.isUtf8_of_ascii (by decide)

end

theorem mem_cases_numbered {package : Text} {names : List Text} {k : Nat} {name : Text} :
    (k, name) ∈ (numbered package names).cases ↔ ∃ i, k = i + 1 ∧ names[i]? = some name := by
  rw [numbered, List.mem_map_swap, List.mk_mem_zipIdx_iff_le_and_getElem?_sub]
  constructor
  · rintro ⟨hk, hname⟩
    exact ⟨k - 1, by omega, hname⟩
  · rintro ⟨i, rfl, hname⟩
    exact ⟨by omega, hname⟩

theorem numbered_inj {package package' : Text} {names names' : List Text}
    (h : numbered package names = numbered package' names') :
    package = package' ∧ names = names' := by
  have hnames (package : Text) (names : List Text) :
      (numbered package names).cases.map Prod.snd = names := by
    rw [numbered, List.map_map]
    exact List.zipIdx_map_fst 1 names
  refine ⟨congrArg LookupProgram.package h, ?_⟩
  rw [← hnames package names, h, hnames]

end LookupProgram

/-- **A lookup file decodes to its names.** For a package that can be named, the file is valid
UTF-8 and is read as the program that returns the name with index `i` for `i + 1`, and nothing for
other numbers. A name, whatever its bytes, adds two lines and starts one case, so other names or
another package give another file. Quoted forms are read back for every choice of the printable
characters that leaves out the newline. -/
theorem generateLookup_decodes {package : Text} (h : isPackageName package = true)
    (names : List Text) :
    (∃ file, generateLookup package names = .ok file ∧
      LookupProgram.read? file = some (.numbered package names) ∧
      (∀ k name, (k, name) ∈ (LookupProgram.numbered package names).cases ↔
        ∃ i, k = i + 1 ∧ names[i]? = some name) ∧
      (LookupProgram.numbered package names).labels.Nodup ∧
      LookupProgram.caseLabels file = List.range' 1 names.length ∧
      (lines file).length = 2 * names.length + 10 ∧
      file.isUtf8 = true ∧
      ∀ package' names', generateLookup package' names' = .ok file →
        package' = package ∧ names' = names) ∧
    ∀ printable : Char → Bool, printable '\n' = false →
      ∀ t, IsQuotation t (Text.quoteWith printable t) := by
  have hread := LookupProgram.read?_lookupText h names
  refine ⟨⟨lookupText package names, if_pos h, hread, ?_, ?_,
    LookupProgram.caseLabels_lookupText h names, LookupProgram.length_lines_lookupText h names,
    LookupProgram.isUtf8_lookupText h names, ?_⟩, ?_⟩
  · exact fun k name => LookupProgram.mem_cases_numbered
  · rw [LookupProgram.labels_numbered]
    exact List.nodup_range'
  · intro package' names' hfile
    rw [generateLookup] at hfile
    split at hfile
    · next h' =>
      have hread' := LookupProgram.read?_lookupText h' names'
      rw [Except.ok.inj hfile, hread] at hread'
      exact LookupProgram.numbered_inj (Option.some.inj hread').symm
    · cases hfile
  · intro printable hnewline t
    exact isQuotation_quoteWith hnewline t

/-- Names that look like the end of a string and a case of their own, a stray byte, the replacement
character and a character beyond the first plane. -/
theorem generateLookup_decodes_breakout :
    let names := [Text.ofString "a\", true\n\tcase 9:\n\t\treturn \"b", [0xff],
      Text.ofString "\ufffd", Text.ofString "\\\x07😀"]
    ∃ file, generateLookup (Text.ofString "p") names = .ok file ∧
      LookupProgram.caseLabels file = [1, 2, 3, 4] ∧
      LookupProgram.read? file = some ⟨Text.ofString "p",
        [(1, Text.ofString "a\", true\n\tcase 9:\n\t\treturn \"b"), (2, [0xff]),
          (3, Text.ofString "\ufffd"), (4, Text.ofString "\\\x07😀")]⟩ := by
  intro names
  have hpackage : isPackageName (Text.ofString "p") = true := by decide +kernel
  obtain ⟨⟨file, hfile, hread, -, -, hlabels, -⟩, -⟩ := generateLookup_decodes hpackage names
  exact ⟨file, hfile, hlabels, hread⟩

end ShaderSplice
