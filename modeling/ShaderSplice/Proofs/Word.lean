import ShaderSplice.Proofs.CommentAutomaton
import ShaderSplice.Proofs.Leftover

/-!
# Words and the comments between them

The words of a text are its longest runs of letters, digits and underscores: names, keywords and
numbers. A comment is cut out of a line and nothing is put in its place, so a word that ends where a
comment starts runs on into a word that starts where it ends:

    int /**/ x;   ──scanLine──▶   int  x;       int, x
    int/**/x;     ──scanLine──▶   intx;         intx

`codePieces` reads a line byte by byte and tells its pieces of code, one by one. The words of the
code are the words of the pieces, in their order and with nothing lost, except that words which
meet where pieces meet are joined (`Text.JoinsWords`). They are the same words exactly if nowhere in
the line there are bytes of words on both sides of a cut.
-/

namespace ShaderSplice
namespace Text

/-! ### The words of a text -/

/-- The longest runs of letters, digits and underscores. -/
def words (t : Text) : List Text := (t.splitOnP fun b => !isWordByte b).filter (· ≠ [])

/-- The last byte of `s` and the first byte of `t` are bytes of words. -/
def Meets (s t : Text) : Prop :=
  s.getLast?.any isWordByte = true ∧ t.head?.any isWordByte = true

theorem words_nil : words [] = [] := by simp [words]

/-- Any other byte ends a word. -/
theorem words_append_cons {b : UInt8} (hb : isWordByte b = false) (s t : Text) :
    words (s ++ b :: t) = words s ++ words t := by
  rw [words, List.splitOnP_append_cons s t (by simp [hb]), List.filter_append]
  rfl

theorem words_of_isWordByte {w : Text} (hw : ∀ b ∈ w, isWordByte b = true) (hne : w ≠ []) :
    words w = [w] := by
  rw [words, List.splitOnP_eq_singleton fun b hb => by simp [hw b hb]]
  simp [hne]

theorem words_append_of_getLast? {s : Text} (hs : s.getLast?.any isWordByte = false) (t : Text) :
    words (s ++ t) = words s ++ words t := by
  rcases List.eq_nil_or_concat' s with rfl | ⟨s, b, rfl⟩
  · rw [words_nil]
    rfl
  · have hb : isWordByte b = false := by simpa using hs
    rw [List.append_assoc, List.singleton_append, words_append_cons hb, words_append_cons hb,
      words_nil, List.append_nil]

theorem words_append_of_head? {t : Text} (ht : t.head?.any isWordByte = false) (s : Text) :
    words (s ++ t) = words s ++ words t := by
  cases t with
  | nil => simp [words_nil]
  | cons b t =>
    have hb : isWordByte b = false := by simpa using ht
    have hrest := words_append_cons hb [] t
    rw [words_nil, List.nil_append, List.nil_append] at hrest
    rw [words_append_cons hb, hrest]

/-- Where no words meet, none are joined. -/
theorem words_append_of_not_meets {s t : Text} (h : ¬ Meets s t) :
    words (s ++ t) = words s ++ words t := by
  rcases not_and_or.1 h with hs | ht
  · exact words_append_of_getLast? (by simpa using hs) t
  · exact words_append_of_head? (by simpa using ht) s

theorem exists_word_append {t : Text} (h : t.head?.any isWordByte = true) :
    ∃ w rest, t = w ++ rest ∧ w ≠ [] ∧ (∀ b ∈ w, isWordByte b = true) ∧
      rest.head?.any isWordByte = false := by
  refine ⟨t.takeWhile isWordByte, t.dropWhile isWordByte, by simp, ?_,
    fun b => List.mem_takeWhile_imp, ?_⟩
  · cases t with
    | nil => cases h
    | cons b t =>
      have hb : isWordByte b = true := h
      simp [hb]
  · have hnot := List.head?_dropWhile_not isWordByte t
    cases hhead : (t.dropWhile isWordByte).head? with
    | none => rfl
    | some b =>
      rw [hhead] at hnot
      simpa using hnot

theorem exists_append_word {s : Text} (h : s.getLast?.any isWordByte = true) :
    ∃ rest w, s = rest ++ w ∧ w ≠ [] ∧ (∀ b ∈ w, isWordByte b = true) ∧
      rest.getLast?.any isWordByte = false := by
  rw [← List.head?_reverse] at h
  obtain ⟨w, rest, he, hne, hw, hrest⟩ := exists_word_append h
  refine ⟨rest.reverse, w.reverse, ?_, by simpa using hne, by simpa using hw, ?_⟩
  · rw [← List.reverse_append, ← he, List.reverse_reverse]
  · rw [List.getLast?_reverse]
    exact hrest

/-- Where words meet, the last of the first text and the first of the second are joined. -/
theorem words_append_of_meets {s t : Text} (h : Meets s t) :
    ∃ before w w' after, words s = before ++ [w] ∧ words t = w' :: after ∧
      words (s ++ t) = before ++ (w ++ w') :: after := by
  obtain ⟨before, w, rfl, hne, hw, hbefore⟩ := exists_append_word h.1
  obtain ⟨w', after, rfl, hne', hw', hafter⟩ := exists_word_append h.2
  have hjoined : ∀ b ∈ w ++ w', isWordByte b = true := by
    intro b hb
    rcases List.mem_append.1 hb with hb | hb
    · exact hw b hb
    · exact hw' b hb
  refine ⟨words before, w, w', words after, ?_, ?_, ?_⟩
  · rw [words_append_of_getLast? hbefore, words_of_isWordByte hw hne]
  · rw [words_append_of_head? hafter, words_of_isWordByte hw' hne']
    rfl
  · rw [List.append_assoc, words_append_of_getLast? hbefore, ← List.append_assoc w,
      words_append_of_head? hafter, words_of_isWordByte hjoined (by simp [hne])]
    rfl

/-- There are no words in white space at the end of a text. -/
theorem words_trimEnd (t : Text) : words t.trimEnd = words t := by
  have hdrop {s : Text} (hs : ∀ b ∈ s, isWordByte b = false) (t : Text) :
      words (t ++ s) = words t := by
    induction s generalizing t with
    | nil => rw [List.append_nil]
    | cons b s ih =>
      have hnil := ih (fun c hc => hs c (List.mem_cons_of_mem _ hc)) []
      rw [List.nil_append, words_nil] at hnil
      rw [words_append_cons (hs b List.mem_cons_self), hnil, List.append_nil]
  obtain ⟨s, hs, he⟩ := exists_trimEnd_append t
  have h := hdrop hs.not_isWordByte t.trimEnd
  rw [← he] at h
  exact h.symm

/-! ### The words of pieces -/

/-- The words of `t` are the words of the pieces, taken one by one, but where pieces meet words may
be joined. Each word of `t` is made up of one or more of theirs, and the words are the same if there
is no place where words meet. -/
structure JoinsWords (pieces : List Text) (t : Text) : Prop where
  groups : ∃ groups : List (List Text), [] ∉ groups ∧ groups.flatten = pieces.flatMap words ∧
    groups.map List.flatten = words t
  same_iff : words t = pieces.flatMap words ↔
    ∀ before after, pieces = before ++ after → ¬ Meets before.flatten after.flatten

/-- Each word of the whole is made up of words of the pieces. -/
theorem exists_groups (pieces : List Text) :
    ∃ groups : List (List Text), [] ∉ groups ∧ groups.flatten = pieces.flatMap words ∧
      groups.map List.flatten = words pieces.flatten := by
  have halone (ws : List Text) : (ws.map ([·])).flatten = ws :=
    List.flatMap_def.symm.trans (List.flatMap_singleton' ws)
  induction pieces with
  | nil => exact ⟨[], by simp, rfl, by simp [words_nil]⟩
  | cons p pieces ih =>
    obtain ⟨groups, hne, hwords, hjoined⟩ := ih
    rw [List.flatten_cons, List.flatMap_cons, ← hwords]
    by_cases h : Meets p pieces.flatten
    · -- the last word of the piece goes to the group of the first word of what follows
      obtain ⟨before, w, w', after, hp, hrest, heq⟩ := words_append_of_meets h
      rw [hrest] at hjoined
      obtain ⟨group, groups, rfl, rfl, rfl⟩ := List.map_eq_cons_iff.1 hjoined
      simp only [List.mem_cons, not_or] at hne
      refine ⟨before.map ([·]) ++ (w :: group) :: groups, ?_, ?_, ?_⟩
      · simp [hne.2]
      · rw [List.flatten_append, halone, hp]
        simp
      · simp [heq, Function.comp_def]
    · refine ⟨(words p).map ([·]) ++ groups, by simp [hne], ?_, ?_⟩
      · rw [List.flatten_append, halone]
      · rw [List.map_append, hjoined, words_append_of_not_meets h]
        simp [Function.comp_def]

theorem length_words_flatten_le (pieces : List Text) :
    (words pieces.flatten).length ≤ (pieces.flatMap words).length := by
  have happend (s t : Text) : (words (s ++ t)).length ≤ (words s).length + (words t).length := by
    by_cases h : Meets s t
    · obtain ⟨before, w, w', after, hs, ht, hjoined⟩ := words_append_of_meets h
      rw [hs, ht, hjoined]
      simp only [List.length_append, List.length_cons, List.length_nil]
      omega
    · rw [words_append_of_not_meets h, List.length_append]
  induction pieces with
  | nil => simp [words_nil]
  | cons p pieces ih =>
    have hp := happend p pieces.flatten
    rw [List.flatten_cons, List.flatMap_cons, List.length_append]
    omega

theorem words_flatten_eq_iff (pieces : List Text) :
    words pieces.flatten = pieces.flatMap words ↔
      ∀ before after, pieces = before ++ after → ¬ Meets before.flatten after.flatten := by
  constructor
  · -- joining makes words fewer
    rintro h before after rfl hmeets
    obtain ⟨ws, w, w', ws', hbefore, hafter, hjoined⟩ := words_append_of_meets hmeets
    have hlength := congrArg List.length h
    have hle := length_words_flatten_le before
    have hle' := length_words_flatten_le after
    rw [List.flatten_append, hjoined, List.flatMap_append] at hlength
    rw [hbefore] at hle
    rw [hafter] at hle'
    simp only [List.length_append, List.length_cons, List.length_nil] at hlength hle hle'
    omega
  · intro h
    induction pieces with
    | nil => simp [words_nil]
    | cons p pieces ih =>
      have hp : ¬ Meets p pieces.flatten := by simpa using h [p] pieces rfl
      rw [List.flatten_cons, List.flatMap_cons, words_append_of_not_meets hp, ih]
      rintro before after rfl ⟨hlast, hhead⟩
      refine h (p :: before) after rfl ⟨?_, hhead⟩
      cases hb : before.flatten.getLast? with
      | none =>
        rw [hb] at hlast
        cases hlast
      | some b =>
        rw [hb] at hlast
        rw [List.flatten_cons, List.getLast?_append, hb]
        exact hlast

theorem joinsWords_flatten (pieces : List Text) : JoinsWords pieces pieces.flatten :=
  ⟨exists_groups pieces, words_flatten_eq_iff pieces⟩

theorem JoinsWords.trimEnd {pieces : List Text} {t : Text} (h : JoinsWords pieces t) :
    JoinsWords pieces t.trimEnd := by
  obtain ⟨hgroups, hsame⟩ := h
  rw [← words_trimEnd t] at hgroups hsame
  exact ⟨hgroups, hsame⟩

end Text

/-! ### The pieces of code of a line -/

/-- The pieces of code of a line. `piece?` is what has been read of the first of them, or nothing
inside a block comment. -/
def codePieces : (piece? : Option Text) → (t : Text) → List Text
  | none, [] => []
  | none, 0x2a :: 0x2f :: t => codePieces (some []) t
  | none, _ :: t => codePieces none t
  | some piece, [] => [piece]
  | some piece, 0x2f :: 0x2f :: _ => [piece]
  | some piece, 0x2f :: 0x2a :: t => piece :: codePieces none t
  | some piece, b :: t => codePieces (some (piece ++ [b])) t

/-- The pieces of code of a line, given whether it starts inside a block comment. -/
def piecesOf (inBlock : Bool) (line : Text) : List Text :=
  codePieces (if inBlock then none else some []) line

/-- Where a line is read. -/
def pieceRegion : (piece? : Option Text) → Region
  | none => .blockComment
  | some _ => .code

/-- A byte at which no delimiter starts is read alone. -/
theorem codePieces_cons {piece? : Option Text} {b : UInt8} {t : Text}
    (h : ∀ d ∈ (pieceRegion piece?).exits, ¬ d <+: b :: t) :
    codePieces piece? (b :: t) = codePieces (piece?.map (· ++ [b])) t := by
  cases piece? with
  | none =>
    rw [codePieces]
    · rfl
    · rintro rest rfl rfl
      exact h blockClose (by simp [pieceRegion, Region.exits]) ⟨rest, rfl⟩
  | some piece =>
    rw [codePieces]
    · rfl
    · rintro rest rfl rfl
      exact h lineComment (by simp [pieceRegion, Region.exits]) ⟨rest, rfl⟩
    · rintro rest rfl rfl
      exact h blockOpen (by simp [pieceRegion, Region.exits]) ⟨rest, rfl⟩

/-- Bytes among which no delimiter starts are read one after the other. -/
theorem codePieces_append {piece? : Option Text} {s t : Text}
    (h : ∀ d ∈ (pieceRegion piece?).exits, ¬ d <:+: s ++ t.take 1) :
    codePieces piece? (s ++ t) = codePieces (piece?.map (· ++ s)) t := by
  induction s generalizing piece? with
  | nil => simp
  | cons b s ih =>
    have hregion : pieceRegion (piece?.map (· ++ [b])) = pieceRegion piece? := by
      cases piece? <;> rfl
    have hbyte : codePieces piece? (b :: (s ++ t)) =
        codePieces (piece?.map (· ++ [b])) (s ++ t) := by
      apply codePieces_cons
      intro d hd
      exact not_isPrefix_of_not_infix_take (Region.length_of_mem_exits hd) (h d hd)
    rw [List.cons_append, hbyte, ih]
    · simp [Function.comp_def]
    · intro d hd hin
      rw [hregion] at hd
      exact h d hd (List.infix_cons hin)

/-- Code is read up to the first delimiter. -/
theorem codePieces_code {code t : Text} (hfree : OpenerFree (code ++ t.take 1)) (piece : Text) :
    codePieces (some piece) (code ++ t) = codePieces (some (piece ++ code)) t :=
  codePieces_append hfree.not_infix_of_mem_exits

/-- A block comment is read up to the first closer. -/
theorem codePieces_skipped {skipped t : Text} (hclose : ¬ blockClose <:+: skipped ++ t.take 1) :
    codePieces none (skipped ++ t) = codePieces none t :=
  codePieces_append (not_infix_of_mem_exits_blockComment hclose)

theorem codePieces_unclosed {t : Text} (hclose : ¬ blockClose <:+: t) : codePieces none t = [] := by
  have hall := @codePieces_skipped t [] (by simpa using hclose)
  rwa [List.append_nil] at hall

/-- The pieces of code of a line make up its code. -/
theorem Strips.flatten_codePieces {t code : Text} {isOpen : Bool} (h : Strips t code isOpen)
    (piece : Text) : (codePieces (some piece) t).flatten = piece ++ code := by
  induction h generalizing piece with
  | @plain t hfree =>
    have hplain := @codePieces_code t [] (by simpa using hfree) piece
    rw [List.append_nil] at hplain
    rw [hplain]
    simp [codePieces]
  | @line code rest hfree =>
    rw [List.append_assoc, codePieces_code hfree]
    exact List.append_nil _
  | @unclosed code after hfree hclose =>
    have hopen : codePieces (some (piece ++ code)) (blockOpen ++ after) =
        (piece ++ code) :: codePieces none after := rfl
    rw [List.append_assoc, codePieces_code hfree, hopen, codePieces_unclosed hclose]
    simp
  | @closed code skipped after more isOpen hfree hclose _ ih =>
    have hopen : codePieces (some (piece ++ code)) (blockOpen ++ (skipped ++ blockClose ++ after)) =
        (piece ++ code) :: codePieces none (skipped ++ blockClose ++ after) := rfl
    have hback : codePieces none (blockClose ++ after) = codePieces (some []) after := rfl
    rw [List.append_assoc, codePieces_code hfree, hopen, List.append_assoc,
      codePieces_skipped hclose, hback, List.flatten_cons, ih, List.nil_append, List.append_assoc]

theorem flatten_piecesOf (inBlock : Bool) (line : Text) :
    (piecesOf inBlock line).flatten = (scanLine inBlock line).1.code := by
  cases inBlock with
  | false => exact (strips_stripComments line).flatten_codePieces []
  | true =>
    cases h : line.cut? blockClose with
    | none =>
      have hclose := Text.cut?_eq_none_iff.1 h
      rw [scanLine_inside_of_none h]
      exact congrArg List.flatten (codePieces_unclosed hclose)
    | some p =>
      obtain ⟨skipped, after⟩ := p
      have hline := Text.cut?_eq_some h
      rw [List.append_assoc] at hline
      have hclose := Text.not_infix_of_cut? (by decide) h
      rw [scanLine_inside_of_some h, ← List.nil_append (stripComments after).1,
        ← (strips_stripComments after).flatten_codePieces, hline]
      exact congrArg List.flatten (codePieces_skipped hclose)

/-! ### The words of code -/

theorem joinsWords_code (inBlock : Bool) (line : Text) :
    Text.JoinsWords (piecesOf inBlock line) (scanLine inBlock line).1.code := by
  rw [← flatten_piecesOf]
  exact Text.joinsWords_flatten _

/-- What is written of a line when lines are discarded has the words of its code. -/
theorem WrittenFor.joinsWords {table : IncludeTable} {top : Text} {site : List Nat} {file : FileRef}
    {number : Nat} {t : Text} {l : SourceLine}
    (h : WrittenFor table top .discard site file number t l) :
    ∃ content k, expandedAt table .top top site = some (file, content) ∧ number = k + 1 ∧
      (lines content)[k]? = some l.raw ∧
      Text.JoinsWords (piecesOf (blockAfter false ((lines content).take k)) l.raw) t := by
  obtain ⟨content, hsite, hmem⟩ := h.source
  obtain ⟨k, hk, hget⟩ := exists_index_of_mem hmem
  obtain ⟨-, hraw, hscan⟩ := getElem?_sourceLines hget
  refine ⟨content, k, hsite, h.number_eq.symm.trans hk, hraw, ?_⟩
  have hjoins := joinsWords_code (blockAfter false ((lines content).take k)) l.raw
  rw [getElem?_scanLines, hraw, Option.map_some, Option.some.injEq] at hscan
  rw [hscan] at hjoins
  rcases h.text_eq with rfl | rfl
  · exact hjoins
  · exact hjoins.trimEnd

/-- **Stripping comments joins words that have only comments between them, and no others.** If
lines are read one after the other, the code of each is its pieces of code put together. Its words
are the words of the pieces, but for those that meet. The same holds of every line of code that an
assembly without its lines has, and of the line that it was copied from. -/
theorem scanLines_joinsWords (inBlock : Bool) (ls : List Text) (language : Language)
    (table : IncludeTable) (registry : Registry) (name text : Text) :
    (∀ (i : Nat) line, ls[i]? = some line →
      ∃ step, (scanLines inBlock ls)[i]? = some step ∧
        step.1.code = (piecesOf (blockAfter inBlock (ls.take i)) line).flatten ∧
        Text.JoinsWords (piecesOf (blockAfter inBlock (ls.take i)) line) step.1.code) ∧
    (∀ a, (assemble language .discard table registry name text).result = .ok a →
      ∀ (i : Nat) site file number t,
        (layout language .discard table name text)[i]? = some ⟨site, .copy file number t⟩ →
        (a.source.splitOn Text.newline)[i]? = some t ∧
        ∃ content k raw, expandedAt table .top text.trimEnd site = some (file, content) ∧
          number = k + 1 ∧ (lines content)[k]? = some raw ∧
          Text.JoinsWords (piecesOf (blockAfter false ((lines content).take k)) raw) t) := by
  constructor
  · intro i line hline
    refine ⟨scanLine (blockAfter inBlock (ls.take i)) line, ?_, (flatten_piecesOf _ _).symm,
      joinsWords_code _ _⟩
    rw [getElem?_scanLines, hline, Option.map_some]
  · intro a h i site file number t hp
    obtain ⟨l, hl⟩ := fromSource_layout h _ (List.mem_of_getElem? hp) file number t rfl
    obtain ⟨content, k, hsite, hk, hraw, hjoins⟩ := hl.joinsWords
    refine ⟨?_, content, k, l.raw, hsite, hk, hraw, hjoins⟩
    rw [(lines_source h).1, List.getElem?_map, hp]
    rfl

/-- **A comment does not count as a space.** Two words with nothing but a comment between them are
one in the code, and one in the text of an assembly without its lines. An assembly that keeps its
lines has both. -/
theorem scanLine_comment_not_space :
    let text := Text.ofString "int/**/x;"
    (piecesOf false text).flatMap Text.words = [Text.ofString "int", Text.ofString "x"] ∧
    Text.words (scanLine false text).1.code = [Text.ofString "intx"] ∧
    (∃ a, (assemble .openGL .discard ∅ ∅ [] text).result = .ok a ∧
      a.source = Text.ofString "#version 110\n#line 1 0\nintx;") ∧
    ∃ a, (assemble .openGL .keep ∅ ∅ [] text).result = .ok a ∧
      a.source = Text.ofString "#version 110\n#line 1 0\nint/**/x;" := by
  intro text
  have htop : topLines text = [.ofRaw 1 false false text] := by
    rw [topLines, show text.trimEnd = text by decide +kernel]
    exact sourceLines_of_lines_eq (by decide +kernel)
  have hexp (version : Text) : Expands ∅ version [] (topLines text)
      (.keep (.ofRaw 1 false false text) .nil) := by
    rw [htop]
    exact .keep_of_role (by decide +kernel) (by decide +kernel) .nil
  refine ⟨by decide +kernel, by decide +kernel, ⟨_, assemble_of_expands (hexp _), ?_⟩,
    ⟨_, assemble_of_expands (hexp _), ?_⟩⟩
  · decide +kernel
  · decide +kernel

end ShaderSplice
