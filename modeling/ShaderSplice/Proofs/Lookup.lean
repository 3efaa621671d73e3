import Mathlib.Data.List.Nodup
import Mathlib.Data.List.ProdSigma
import ShaderSplice.Line
import ShaderSplice.Lookup
import ShaderSplice.Registry
import ShaderSplice.Proofs.Association
import ShaderSplice.Proofs.Line
import ShaderSplice.Proofs.Text.Decimal
import ShaderSplice.Proofs.Text.Quoted

/-!
# Reading a lookup file

A lookup file is read back as a program: its package, and the cases of its switch
(`LookupProgram.read?`). Blank lines, comments and indentation do not count, so a formatter that
only lays out lines makes no difference.

    names ──lookupText──▶ text ──read?──▶ 1 ↦ first name, 2 ↦ second name, …    (`read?_lookupText`)

The function of the program maps an id to the name of its case (`LookupProgram.fileName?`). There is
one only if a compiler takes the switch: its labels have to be distinct numbers of 32 bits.
-/

namespace ShaderSplice

/-- What a lookup file says: its package, and the cases of its switch with the names that they
return. -/
structure LookupProgram where
  package : Text
  cases : List (Nat × Text)
deriving DecidableEq, Repr

namespace LookupProgram

/-! ### Reading -/

/-- A line without its indentation. -/
def statement (l : Text) : Text := l.dropWhile isBlankByte

/-- Whether a line without indentation says nothing: it is blank or a comment. -/
def isIdle (l : Text) : Bool := l.isEmpty || (Text.ofString "//").isPrefixOf l

/-- The lines of a source file that say something, without their indentation. -/
def statements (t : Text) : List Text := ((lines t).map statement).filter fun l => !isIdle l

/-- The label of a line that starts a case. -/
def label? (l : Text) : Option Nat :=
  ((Text.ofString "case ").isPrefixOf? l).bind fun rest =>
    if rest.getLast? = some 0x3a ∧ rest.dropLast ≠ [] ∧ rest.dropLast.all isDigitByte then
      some (Text.toNat rest.dropLast)
    else none

/-- The text that a line returns as a name that was found. -/
def returned? (l : Text) : Option Text :=
  ((Text.ofString "return ").isPrefixOf? l).bind fun rest =>
    (Text.readQuoted? rest).bind fun (t, rest) =>
      if rest = Text.ofString ", true" then some t else none

/-- The cases at the start of a list of statements, and the statements after them. -/
def readCases? : List Text → Option (List (Nat × Text) × List Text)
  | [] => some ([], [])
  | l :: ls =>
    match label? l with
    | none => some ([], l :: ls)
    | some k =>
      match ls with
      | [] => none
      | r :: rest =>
        (returned? r).bind fun name =>
          (readCases? rest).map fun (cases, left) => ((k, name) :: cases, left)

/-- The statements after the package and before the cases. -/
def opening : List Text :=
  ["func FileName(id uint32) (string, bool) \x7b", "switch id \x7b"].map Text.ofString

/-- The statements after the cases. -/
def ending : List Text := ["\x7d", "return \"\", false", "\x7d"].map Text.ofString

/-- The program that a source file holds, if it is a lookup. -/
def read? (t : Text) : Option LookupProgram :=
  match statements t with
  | p :: f :: s :: rest =>
    ((Text.ofString "package ").isPrefixOf? p).bind fun package =>
      if [f, s] = opening then
        (readCases? rest).bind fun (cases, left) =>
          if left = ending then some ⟨package, cases⟩ else none
      else none
  | _ => none

/-! ### The function of a program -/

/-- The labels of the switch. -/
def labels (p : LookupProgram) : List Nat := p.cases.map Prod.fst

/-- What the function of a program returns for an id: the name of its case, and whether there is
one. -/
def fileName (p : LookupProgram) (id : FileId) : Text × Bool :=
  match p.cases.lookup id.toNat with
  | some name => (name, true)
  | none => ([], false)

/-- The program of a package with a case for each name, numbered from 1. -/
def numbered (package : Text) (names : List Text) : LookupProgram :=
  ⟨package, (names.zipIdx 1).map Prod.swap⟩

/-- The function of a program whose switch a compiler takes: the labels are distinct, and none is
too large for an id. -/
def fileName? (p : LookupProgram) : Option (FileId → Text × Bool) :=
  if p.labels.Nodup ∧ ∀ k ∈ p.labels, k < UInt32.size then some p.fileName else none

end LookupProgram

/-! ### The lines of a lookup file -/

/-- A character is only in ranges that start at or before it. -/
theorem inRanges_eq_filter {n bound : Nat} (h : n < bound) (ranges : List (Nat × Nat)) :
    inRanges ranges n = inRanges (ranges.filter fun r => r.1 < bound) n := by
  induction ranges with
  | nil => rfl
  | cons r ranges ih =>
    rw [inRanges] at ih ⊢
    rw [List.any_cons, ih]
    by_cases hr : r.1 < bound
    · rw [List.filter_cons_of_pos (by simpa using hr)]
      rfl
    · have hbefore : ¬ r.1 ≤ n := by omega
      rw [List.filter_cons_of_neg (by simpa using hr)]
      simp [hbefore]

/-- A package name is made of characters that can stand in an identifier. -/
theorem continuesIdentifier_of_isPackageName {p : Text} (h : isPackageName p = true) :
    ∀ s ∈ p.symbols, s.continuesIdentifier = true := by
  rw [isPackageName] at h
  cases hp : p.symbols with
  | nil => simp
  | cons s rest =>
    simp only [hp, Bool.and_eq_true] at h
    intro s' hs'
    rcases List.mem_cons.1 hs' with rfl | hs'
    · cases s' with
      | char c =>
        have hstart := h.1.1
        simp only [Symbol.startsIdentifier, Bool.or_eq_true] at hstart
        simp only [Symbol.continuesIdentifier, Bool.or_eq_true]
        exact .inl hstart
      | stray b => exact absurd h.1.1 (by simp [Symbol.startsIdentifier])
    · exact List.all_eq_true.1 h.1.2 s' hs'

/-- The bytes of a package name are letters, digits, underscores, or no ASCII characters. -/
theorem bytes_of_isPackageName {p : Text} (h : isPackageName p = true) :
    ∀ b ∈ p, isWordByte b = true ∨ 0x80 ≤ b.toNat := by
  have hascii : ∀ n < 0x80, (inRanges letterRanges n || n == '_'.toNat || inRanges digitRanges n) →
      isWordByte (UInt8.ofNat n) = true := by
    -- of the tables only the ranges that start below 0x80 matter
    have hletters : (letterRanges.filter fun r => r.1 < 0x80) = [(0x41, 0x5a), (0x61, 0x7a)] := by
      decide +kernel
    have hdigits : (digitRanges.filter fun r => r.1 < 0x80) = [(0x30, 0x39)] := by
      decide +kernel
    intro n hn
    rw [inRanges_eq_filter hn, inRanges_eq_filter hn digitRanges, hletters, hdigits]
    revert n
    decide +kernel
  have hsymbols := continuesIdentifier_of_isPackageName h
  intro b hb
  by_cases hbig : 0x80 ≤ b.toNat
  · exact .inr hbig
  · rw [← Text.encode_symbols p] at hb
    obtain ⟨s, hs, hbs⟩ := List.mem_flatMap.1 hb
    cases s with
    | stray c => exact absurd (hsymbols _ hs) (by simp [Symbol.continuesIdentifier])
    | char c =>
      have hc := Text.eq_of_mem_utf8EncodeChar (by omega) hbs
      have hword := hsymbols _ hs
      have hunderscore : (c == '_') = (c.toNat == '_'.toNat) := by
        rw [Bool.eq_iff_iff, beq_iff_eq, beq_iff_eq, Char.toNat_inj]
      rw [Symbol.continuesIdentifier, isLetter, isDigit, hunderscore, hc,
        Bool.or_right_comm] at hword
      left
      rw [← UInt8.ofNat_toNat (x := b)]
      refine hascii _ (by omega) ?_
      rw [Bool.or_right_comm]
      exact hword

namespace LookupProgram

/-- The lines of the cases for `names`, of which the first has the given id. -/
def caseLines (id : Nat) : List Text → List Text
  | [] => []
  | name :: names =>
    (Text.ofString "\tcase " ++ Text.ofNat id ++ Text.ofString ":") ::
      (Text.ofString "\t\treturn " ++ name.quote ++ Text.ofString ", true") ::
      caseLines (id + 1) names

/-- The lines before the package. -/
def headLines : List Text := ["// Code generated by glossy. DO NOT EDIT.", ""].map Text.ofString

/-- The lines between the package and the cases. -/
def openingLines : List Text :=
  ["", "// FileName returns the include file name for a #line file id.",
    "func FileName(id uint32) (string, bool) \x7b", "\tswitch id \x7b"].map Text.ofString

/-- The lines after the cases. -/
def endingLines : List Text := ["\t\x7d", "\treturn \"\", false", "\x7d"].map Text.ofString

/-- The lines of a lookup file. -/
def fileLines (package : Text) (names : List Text) : List Text :=
  headLines ++ (Text.ofString "package " ++ package) ::
    (openingLines ++ (caseLines 1 names ++ endingLines))

theorem lookupCases_eq_unlines (id : Nat) (names : List Text) :
    lookupCases id names = unlines (caseLines id names) := by
  induction names generalizing id with
  | nil => rfl
  | cons name names ih =>
    have hlabel : Text.ofString ":\n\t\treturn " =
        Text.ofString ":" ++ Text.newline :: Text.ofString "\t\treturn " := by decide
    have hend : Text.ofString ", true\n" = Text.ofString ", true" ++ [Text.newline] := by decide
    rw [lookupCases, lookupCase, ih, caseLines, hlabel, hend]
    simp [unlines]

theorem lookupText_eq_unlines (package : Text) (names : List Text) :
    lookupText package names = unlines (fileLines package names) := by
  have hhead : Text.ofString "// Code generated by glossy. DO NOT EDIT.\n\npackage " =
      unlines headLines ++ Text.ofString "package " := by decide
  have hopening : Text.ofString
      "\n\n// FileName returns the include file name for a #line file id.\n" ++
      Text.ofString "func FileName(id uint32) (string, bool) \x7b\n\tswitch id \x7b\n" =
      Text.newline :: unlines openingLines := by decide
  have hending : Text.ofString "\t\x7d\n\treturn \"\", false\n\x7d\n" =
      unlines endingLines := by decide
  rw [lookupText, hhead, lookupCases_eq_unlines, hending, List.append_assoc _ (Text.ofString _)
    (Text.ofString _), hopening]
  simp [fileLines, unlines]

/-! ### The statements of a lookup file -/

/-- The statements of the cases for `names`, of which the first has the given id. -/
def caseStatements (id : Nat) : List Text → List Text
  | [] => []
  | name :: names =>
    (Text.ofString "case " ++ Text.ofNat id ++ Text.ofString ":") ::
      (Text.ofString "return " ++ name.quote ++ Text.ofString ", true") ::
      caseStatements (id + 1) names

theorem newline_not_mem_caseLines {id : Nat} {names : List Text} :
    ∀ l ∈ caseLines id names, Text.newline ∉ l := by
  induction names generalizing id with
  | nil => simp [caseLines]
  | cons name names ih =>
    have hlabel : Text.newline ∉ Text.ofString "\tcase " ++ Text.ofNat id ++ Text.ofString ":" := by
      simp only [List.mem_append, not_or]
      exact ⟨⟨by decide, Text.not_mem_ofNat (by decide) id⟩, by decide⟩
    have hreturn : Text.newline ∉
        Text.ofString "\t\treturn " ++ name.quote ++ Text.ofString ", true" := by
      simp only [List.mem_append, not_or]
      exact ⟨⟨by decide, Text.newline_not_mem_quote name⟩, by decide⟩
    rw [caseLines]
    intro l hl
    rcases List.mem_cons.1 hl with rfl | hl
    · exact hlabel
    · rcases List.mem_cons.1 hl with rfl | hl
      · exact hreturn
      · exact ih l hl

/-- What is read of lines one by one. -/
def said (ls : List Text) : List Text :=
  (ls.map fun l => statement (dropCarriageReturn l)).filter fun l => !isIdle l

theorem said_append (ls ls' : List Text) : said (ls ++ ls') = said ls ++ said ls' := by
  rw [said, List.map_append, List.filter_append]
  rfl

/-- A line is read by its start, unless that is white space or may start a comment. -/
theorem said_cons_append {start body : Text}
    (hstart : (statement start).head?.any (· != Text.slash) = true)
    (hlast : (start ++ body).getLast? ≠ some Text.carriageReturn) (ls : List Text) :
    said ((start ++ body) :: ls) = (statement start ++ body) :: said ls := by
  obtain ⟨b, hb, hslash⟩ := (Option.any_eq_true _ _).1 hstart
  obtain ⟨start', hstart'⟩ := List.head?_eq_some_iff.1 hb
  have hstatement : statement (start ++ body) = statement start ++ body := by
    rw [statement] at hstart' ⊢
    rw [List.dropWhile_append, ← statement, statement, hstart']
    rfl
  have hcomment : Text.ofString "//" = [Text.slash, Text.slash] := by decide
  have hne : Text.slash ≠ b := by
    rintro rfl
    simp at hslash
  have hidle : isIdle (statement start ++ body) = false := by
    simp [isIdle, hcomment, hstart', List.isPrefixOf, hne]
  rw [said, List.map_cons, dropCarriageReturn_eq_self hlast, hstatement,
    List.filter_cons_of_pos (by rw [hidle]; rfl)]
  rfl

theorem constant_lines :
    (∀ l ∈ headLines ++ openingLines ++ endingLines, Text.newline ∉ l) ∧ said headLines = [] ∧
      said openingLines = opening ∧ said endingLines = ending :=
  ⟨by decide, by decide, by decide, by decide⟩

theorem statements_unlines {ls : List Text} (hnew : ∀ l ∈ ls, Text.newline ∉ l) :
    statements (unlines ls) = said ls := by
  rw [statements, lines_unlines hnew, List.map_map]
  rfl

theorem said_caseLines (id : Nat) (names : List Text) :
    said (caseLines id names) = caseStatements id names := by
  induction names generalizing id with
  | nil => rfl
  | cons name names ih =>
    have hcolon : Text.ofString ":" = [0x3a] := by decide
    have htrue : Text.ofString ", true" = Text.ofString ", tru" ++ [0x65] := by decide
    have hcase : statement (Text.ofString "\tcase ") = Text.ofString "case " := by decide
    have hreturn : statement (Text.ofString "\t\treturn ") = Text.ofString "return " := by decide
    rw [caseLines, caseStatements, List.append_assoc, said_cons_append (by rw [hcase]; decide),
      List.append_assoc, said_cons_append (by rw [hreturn]; decide), hcase, hreturn, ih]
    · simp only [List.append_assoc]
    · rw [htrue, ← List.append_assoc, ← List.append_assoc, List.getLast?_concat]
      decide
    · rw [hcolon, ← List.append_assoc, List.getLast?_concat]
      decide

/-- No byte of a package name is an ASCII character that is no letter, digit or underscore. -/
theorem not_mem_of_isPackageName {package : Text} (h : isPackageName package = true) {b : UInt8}
    (hword : isWordByte b = false) (hb : b.toNat < 0x80) : b ∉ package := by
  intro hmem
  rcases bytes_of_isPackageName h b hmem with hw | hbig
  · rw [hword] at hw
    cases hw
  · omega

theorem newline_not_mem_fileLines {package : Text} (h : isPackageName package = true)
    (names : List Text) : ∀ l ∈ fileLines package names, Text.newline ∉ l := by
  have hnew := constant_lines.1
  have hline : Text.newline ∉ Text.ofString "package " ++ package := by
    rw [List.mem_append, not_or]
    exact ⟨by decide, not_mem_of_isPackageName h (by decide) (by decide)⟩
  simp only [fileLines, List.forall_mem_append, List.forall_mem_cons]
  exact ⟨fun l hl => hnew l (by simp [hl]), hline, fun l hl => hnew l (by simp [hl]),
    newline_not_mem_caseLines, fun l hl => hnew l (by simp [hl])⟩

theorem statements_lookupText {package : Text} (h : isPackageName package = true)
    (names : List Text) :
    statements (lookupText package names) =
      (Text.ofString "package " ++ package) ::
        (opening ++ caseStatements 1 names ++ ending) := by
  obtain ⟨-, hhead, hopening, hending⟩ := constant_lines
  have hlast : (Text.ofString "package " ++ package).getLast? ≠ some Text.carriageReturn := by
    intro hlast
    rcases List.mem_append.1 (List.mem_of_getLast? hlast) with hmem | hmem
    · exact absurd hmem (by decide)
    · exact not_mem_of_isPackageName h (by decide) (by decide) hmem
  have hpackage : statement (Text.ofString "package ") = Text.ofString "package " := by decide
  rw [lookupText_eq_unlines, statements_unlines (newline_not_mem_fileLines h names), fileLines,
    said_append, hhead, List.nil_append, said_cons_append (by rw [hpackage]; decide) hlast,
    hpackage, said_append, said_append, said_caseLines, hopening, hending, List.append_assoc]

/-! ### What is read -/

theorem isPrefixOf?_append_self (needle rest : Text) :
    needle.isPrefixOf? (needle ++ rest) = some rest :=
  List.isPrefixOf?_eq_some_iff_append_eq.2 rfl

theorem label?_case (id : Nat) :
    label? (Text.ofString "case " ++ Text.ofNat id ++ Text.ofString ":") = some id := by
  have hcolon : Text.ofString ":" = [0x3a] := by decide
  have hdigits : (Text.ofNat id).all isDigitByte = true :=
    List.all_eq_true.2 fun b hb => Text.isDigitByte_of_mem_ofNat hb
  rw [label?, List.append_assoc, isPrefixOf?_append_self, Option.bind_some, hcolon,
    List.dropLast_concat, List.getLast?_concat, if_pos ⟨rfl, Text.ofNat_ne_nil id, hdigits⟩,
    Text.toNat_ofNat]

theorem returned?_quote (name : Text) :
    returned? (Text.ofString "return " ++ name.quote ++ Text.ofString ", true") = some name := by
  rw [returned?, List.append_assoc, isPrefixOf?_append_self, Option.bind_some,
    Text.readQuoted?_quote, Option.bind_some]
  exact if_pos rfl

theorem readCases?_caseStatements (id : Nat) (names : List Text) :
    readCases? (caseStatements id names ++ ending) =
      some ((names.zipIdx id).map Prod.swap, ending) := by
  induction names generalizing id with
  | nil => rfl
  | cons name names ih =>
    rw [caseStatements, List.cons_append, List.cons_append, readCases?]
    simp only [label?_case, returned?_quote, ih, Option.bind_some, Option.map_some,
      List.zipIdx_cons, List.map_cons, Prod.swap_prod_mk]

/-- **What a lookup file says** are its package and a case for each name, numbered from 1. -/
theorem read?_lookupText {package : Text} (h : isPackageName package = true) (names : List Text) :
    read? (lookupText package names) = some (numbered package names) := by
  rw [read?, statements_lookupText h]
  simp only [opening, List.map_cons, List.map_nil, List.cons_append, List.nil_append,
    isPrefixOf?_append_self, readCases?_caseStatements, Option.bind_some, if_true]
  rfl

/-! ### The function of numbered names -/

section
variable (package : Text) (names : List Text)

theorem labels_numbered : (numbered package names).labels = List.range' 1 names.length := by
  rw [labels, numbered, List.map_map, ← List.zipIdx_map_snd]
  rfl

/-- A compiler takes the switch if there are ids for all names. -/
theorem isSome_fileName?_numbered :
    (numbered package names).fileName?.isSome ↔ names.length < UInt32.size := by
  have hlabels : (numbered package names).labels.Nodup ∧
      (∀ k ∈ (numbered package names).labels, k < UInt32.size) ↔ names.length < UInt32.size := by
    rw [labels_numbered]
    constructor
    · -- the largest label is the number of names
      rintro ⟨-, hsmall⟩
      by_cases hnames : names.length = 0
      · rw [hnames]
        decide
      · exact hsmall _ (List.mem_range'_1.2 ⟨by omega, by omega⟩)
    · intro hsmall
      refine ⟨List.nodup_range', ?_⟩
      intro k hk
      have hk' := List.mem_range'_1.1 hk
      omega
  rw [fileName?, ← hlabels]
  split
  · next h => exact iff_of_true rfl h
  · next h => exact iff_of_false Bool.false_ne_true h

end

theorem fileName_eq_of_fileName? {p : LookupProgram} {fileName : FileId → Text × Bool}
    (h : p.fileName? = some fileName) : fileName = p.fileName := by
  rw [fileName?] at h
  split at h
  · exact (Option.some.inj h).symm
  · cases h

/-- For a registry, the program gives the names that the registry gives. -/
theorem fileName_numbered (package : Text) (r : Registry) (id : FileId) :
    (numbered package r.names).fileName id =
      match r.name? id with
      | some name => (name, true)
      | none => ([], false) := by
  have hlookup : (numbered package r.names).cases.lookup id.toNat = r.name? id := by
    have hzero : id.toNat < 1 ↔ id = topLevelId := by
      rw [← UInt32.toNat_inj]
      show id.toNat < 1 ↔ id.toNat = 0
      omega
    rw [numbered, lookup_zipIdx, Registry.name?]
    simp only [hzero]
  rw [fileName, hlookup]

theorem fileName_numbered_eq_iff {package name : Text} {r : Registry} {id : FileId} :
    (numbered package r.names).fileName id = (name, true) ↔ r.name? id = some name := by
  rw [fileName_numbered]
  cases r.name? id with
  | none => simp
  | some n => simp

theorem mem_cases_numbered_iff {package name : Text} {r : Registry} {id : FileId} :
    (id.toNat, name) ∈ (numbered package r.names).cases ↔ r.name? id = some name := by
  have hzero : id = topLevelId ↔ id.toNat = 0 := UInt32.toNat_inj.symm
  rw [numbered, List.mem_map_swap, List.mk_mem_zipIdx_iff_le_and_getElem?_sub, Registry.name?]
  split
  · next hid => simp [hzero.1 hid]
  · next hid =>
    have hpos : 1 ≤ id.toNat := Nat.pos_of_ne_zero fun h => hid (hzero.2 h)
    simp [hpos]

/-- The id of a top-level source and ids that are not given out have no names. -/
theorem fileName_numbered_eq_none {r : Registry} {id : FileId}
    (h : id = topLevelId ∨ r.size < id.toNat) (package : Text) :
    (numbered package r.names).fileName id = ([], false) := by
  have hnone : r.name? id = none := by
    rw [Registry.name?]
    split
    · rfl
    · next hid =>
      rcases h with h | h
      · exact absurd h hid
      · rw [List.getElem?_eq_none_iff]
        rw [Registry.size] at h
        omega
  rw [fileName_numbered, hnone]

end LookupProgram

end ShaderSplice
