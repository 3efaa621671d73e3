import ShaderSplice.Proofs.Line
import ShaderSplice.Proofs.Stripping
import Mathlib.Data.List.Forall2

/-!
# Comments byte by byte

What a comment is can be said about bytes alone. `automaton` reads a text from left to right and is
always in one of three regions:

    code ─── // ───▶ line comment ─── newline ───▶ code
    code ─── /* ───▶ block comment ─── */ ───▶ code

A delimiter is read as a whole, so the star of `/*` does not help to close the comment again. Bytes
of code are put out and bytes of comments are not; at a newline the automaton hands over what it has
read of the line.

The scanner is given one line at a time and searches it for delimiters. Where its cuts fall is known
from `Strips`, and between two cuts no delimiter starts, so the automaton runs through the piece
without leaving its region (`automaton_append`). Line by line the two then agree.
-/

namespace ShaderSplice

/-- Where a byte of a text stands. -/
inductive Region where
  | code
  | lineComment
  | blockComment
deriving DecidableEq, Repr

namespace Region

/-- The region in which a line starts, given whether a block comment is open before it. -/
def ofBlock (inBlock : Bool) : Region := if inBlock then .blockComment else .code

/-- The region in which the next line starts. A line comment ends with its line. -/
def nextLine : Region → Region
  | .lineComment => .code
  | r => r

end Region

/-- What the automaton has read of a line. -/
structure LineReading where
  /-- The region in which the line starts. -/
  atStart : Region
  /-- The bytes of code, in their order. -/
  output : Text
  /-- The region that is reached. -/
  region : Region
deriving DecidableEq, Repr

namespace LineReading

/-- Nothing has been read yet of a line that starts in the given region. -/
def start (r : Region) : LineReading := ⟨r, [], r⟩

/-- The bytes `s` are read without leaving the region, and put out if they are code. -/
def read (x : LineReading) (s : Text) : LineReading :=
  match x.region with
  | .code => { x with output := x.output ++ s }
  | _ => x

/-- What the scanner says about a line is what the automaton reads of it. -/
structure Agrees (line : Text) (x : LineReading) (step : Scan × Bool) : Prop where
  code : step.1.code = x.output
  inBlock : step.2 = true ↔ x.region = .blockComment
  inComment : step.1.inComment = true ↔ x.atStart = .blockComment ∧ ¬ blockClose <:+: line
  closes : step.1.closes = true ↔ x.atStart = .blockComment ∧ blockClose <:+: line
  opens : step.1.opens = true ↔ x.region = .blockComment ∧ step.1.inComment = false

end LineReading

/-- Reads a text to its end, of whose first line `x` has been read already, and tells what is read
of each line. -/
def automaton : LineReading → Text → List LineReading
  | x, [] => [x]
  | ⟨r, out, .code⟩, 0x2f :: 0x2f :: t => automaton ⟨r, out, .lineComment⟩ t
  | ⟨r, out, .code⟩, 0x2f :: 0x2a :: t => automaton ⟨r, out, .blockComment⟩ t
  | ⟨r, out, .blockComment⟩, 0x2a :: 0x2f :: t => automaton ⟨r, out, .code⟩ t
  | x, b :: t =>
    if b = Text.newline then x :: automaton (.start x.region.nextLine) t
    else automaton (x.read [b]) t

/-! ### Reading without leaving the region -/

/-- The delimiters that lead out of a region before the end of the line. -/
def Region.exits : Region → List Text
  | .code => [blockOpen, ShaderSplice.lineComment]
  | .lineComment => []
  | .blockComment => [blockClose]

theorem Region.length_of_mem_exits {r : Region} {d : Text} (h : d ∈ r.exits) : d.length = 2 := by
  have hall : ∀ r : Region, ∀ d ∈ r.exits, d.length = 2 := by
    intro r
    cases r <;> decide
  exact hall r d h

theorem Region.newline_not_mem_of_mem_exits {r : Region} {d : Text} (h : d ∈ r.exits) :
    Text.newline ∉ d := by
  have hall : ∀ r : Region, ∀ d ∈ r.exits, Text.newline ∉ d := by
    intro r
    cases r <;> decide
  exact hall r d h

namespace LineReading

@[simp] theorem region_read (x : LineReading) (s : Text) : (x.read s).region = x.region := by
  rw [read]
  split <;> rfl

@[simp] theorem read_nil (x : LineReading) : x.read [] = x := by
  rw [read]
  split <;> simp

theorem read_read (x : LineReading) (s t : Text) : (x.read s).read t = x.read (s ++ t) := by
  obtain ⟨r, out, region⟩ := x
  cases region <;> simp [read]

end LineReading

theorem automaton_newline (x : LineReading) (t : Text) :
    automaton x (Text.newline :: t) = x :: automaton (.start x.region.nextLine) t := by
  rw [automaton, if_pos rfl]
  all_goals
    intro r out rest hx hb
    cases hb

/-- A byte at which no delimiter starts is read alone. -/
theorem automaton_cons {x : LineReading} {b : UInt8} {t : Text} (hb : b ≠ Text.newline)
    (h : ∀ d ∈ x.region.exits, ¬ d <+: b :: t) :
    automaton x (b :: t) = automaton (x.read [b]) t := by
  rw [automaton, if_neg hb]
  · rintro r out rest rfl rfl rfl
    exact h lineComment (by simp [Region.exits]) ⟨rest, rfl⟩
  · rintro r out rest rfl rfl rfl
    exact h blockOpen (by simp [Region.exits]) ⟨rest, rfl⟩
  · rintro r out rest rfl rfl rfl
    exact h blockClose (by simp [Region.exits]) ⟨rest, rfl⟩

/-- One byte of what follows decides whether a delimiter starts at the end of a text. -/
theorem not_isPrefix_of_not_infix_take {d s t : Text} {b : UInt8} (hlength : d.length = 2)
    (h : ¬ d <:+: b :: (s ++ t.take 1)) : ¬ d <+: b :: (s ++ t) := by
  have htake : (s ++ t).take 1 = (s ++ t.take 1).take 1 := by
    cases s with
    | nil => simp [List.take_take]
    | cons c s => simp
  intro hbegins
  apply h
  rw [List.prefix_iff_eq_take, hlength, List.take_succ_cons, htake, ← List.take_succ_cons]
    at hbegins
  rw [hbegins]
  exact (List.take_prefix _ _).isInfix

/-- A piece of a line in which no delimiter starts is read in one region. -/
theorem automaton_append {x : LineReading} {s t : Text} (hnew : Text.newline ∉ s)
    (h : ∀ d ∈ x.region.exits, ¬ d <:+: s ++ t.take 1) :
    automaton x (s ++ t) = automaton (x.read s) t := by
  induction s generalizing x with
  | nil => simp
  | cons b s ih =>
    simp only [List.mem_cons, not_or] at hnew
    have hbyte : automaton x (b :: (s ++ t)) = automaton (x.read [b]) (s ++ t) := by
      apply automaton_cons (Ne.symm hnew.1)
      intro d hd
      exact not_isPrefix_of_not_infix_take (Region.length_of_mem_exits hd) (h d hd)
    have hrest : automaton (x.read [b]) (s ++ t) = automaton ((x.read [b]).read s) t := by
      apply ih hnew.2
      intro d hd hin
      rw [LineReading.region_read] at hd
      exact h d hd (List.infix_cons hin)
    rw [List.cons_append, hbyte, hrest, LineReading.read_read]
    rfl

/-! ### Reading to the end of a line -/

/-- What follows the last byte of a line: nothing, or a newline and more. -/
def EndsLine (rest : Text) : Prop := rest = [] ∨ ∃ t, rest = Text.newline :: t

/-- No delimiter reaches over the end of a line. -/
theorem EndsLine.not_infix {rest d s : Text} (hrest : EndsLine rest) (hd : Text.newline ∉ d)
    (h : ¬ d <:+: s) : ¬ d <:+: s ++ rest.take 1 := by
  rcases hrest with rfl | ⟨t, rfl⟩
  · simpa using h
  · rw [List.take_succ_cons, List.take_zero, List.infix_concat_iff, not_or]
    refine ⟨?_, h⟩
    intro hsuffix
    rcases List.suffix_concat_iff.1 hsuffix with rfl | ⟨u, rfl, -⟩
    · exact h List.nil_infix
    · exact hd (by simp)

theorem automaton_append_of_endsLine {x : LineReading} {s rest : Text} (hrest : EndsLine rest)
    (hnew : Text.newline ∉ s) (h : ∀ d ∈ x.region.exits, ¬ d <:+: s) :
    automaton x (s ++ rest) = automaton (x.read s) rest := by
  apply automaton_append hnew
  intro d hd
  exact hrest.not_infix (Region.newline_not_mem_of_mem_exits hd) (h d hd)

theorem OpenerFree.not_infix_of_mem_exits {t : Text} (h : OpenerFree t) :
    ∀ d ∈ Region.code.exits, ¬ d <:+: t := by
  intro d hd
  rcases List.mem_pair.1 hd with rfl | rfl
  · exact h.block
  · exact h.line

theorem not_infix_of_mem_exits_blockComment {t : Text} (h : ¬ blockClose <:+: t) :
    ∀ d ∈ Region.blockComment.exits, ¬ d <:+: t := by
  intro d hd
  rw [List.mem_singleton.1 hd]
  exact h

/-- The automaton puts out the code before a line comment. -/
theorem OpenerFree.automaton_lineComment {code : Text} (h : OpenerFree (code ++ [Text.slash]))
    (hnew : Text.newline ∉ code) (r : Region) (out t : Text) :
    automaton ⟨r, out, .code⟩ (code ++ lineComment ++ t) =
      automaton ⟨r, out ++ code, .lineComment⟩ t := by
  rw [List.append_assoc]
  exact automaton_append hnew h.not_infix_of_mem_exits

/-- And the code before a block comment. -/
theorem OpenerFree.automaton_blockOpen {code : Text} (h : OpenerFree (code ++ [Text.slash]))
    (hnew : Text.newline ∉ code) (r : Region) (out t : Text) :
    automaton ⟨r, out, .code⟩ (code ++ blockOpen ++ t) =
      automaton ⟨r, out ++ code, .blockComment⟩ t := by
  rw [List.append_assoc]
  exact automaton_append hnew h.not_infix_of_mem_exits

/-- It is back in code after the first closer. -/
theorem automaton_blockClose {skipped : Text}
    (h : ¬ blockClose <:+: skipped ++ blockClose.dropLast) (hnew : Text.newline ∉ skipped)
    (r : Region) (out t : Text) :
    automaton ⟨r, out, .blockComment⟩ (skipped ++ blockClose ++ t) =
      automaton ⟨r, out, .code⟩ t := by
  rw [List.append_assoc]
  exact automaton_append hnew (not_infix_of_mem_exits_blockComment h)

/-- What stripping leaves of a line is what the automaton puts out, and a block comment is open for
one as for the other. -/
theorem Strips.exists_automaton {t code : Text} {isOpen : Bool} (h : Strips t code isOpen)
    (hnew : Text.newline ∉ t) {rest : Text} (hrest : EndsLine rest) (r : Region) (out : Text) :
    ∃ region, (isOpen = true ↔ region = .blockComment) ∧
      automaton ⟨r, out, .code⟩ (t ++ rest) = automaton ⟨r, out ++ code, region⟩ rest := by
  induction h generalizing out with
  | plain hfree =>
    refine ⟨.code, by simp, ?_⟩
    exact automaton_append_of_endsLine hrest hnew hfree.not_infix_of_mem_exits
  | line hfree =>
    simp only [List.mem_append, not_or] at hnew
    refine ⟨.lineComment, by simp, ?_⟩
    rw [List.append_assoc, hfree.automaton_lineComment hnew.1.1]
    exact automaton_append_of_endsLine hrest hnew.2 (by simp [Region.exits])
  | unclosed hfree hclose =>
    simp only [List.mem_append, not_or] at hnew
    refine ⟨.blockComment, by simp, ?_⟩
    rw [List.append_assoc, hfree.automaton_blockOpen hnew.1.1]
    exact automaton_append_of_endsLine hrest hnew.2 (not_infix_of_mem_exits_blockComment hclose)
  | @closed code skipped after more isOpen hfree hclose _ ih =>
    simp only [List.mem_append, not_or] at hnew
    obtain ⟨region, hregion, hafter⟩ := ih hnew.2.2 (out ++ code)
    refine ⟨region, hregion, ?_⟩
    rw [List.append_assoc, hfree.automaton_blockOpen hnew.1.1, List.append_assoc,
      automaton_blockClose hclose hnew.2.1.1, hafter, List.append_assoc]

/-! ### Line by line -/

theorem Region.nextLine_eq_ofBlock {region : Region} {inBlock : Bool}
    (h : inBlock = true ↔ region = .blockComment) : region.nextLine = .ofBlock inBlock := by
  cases region <;> cases inBlock <;> simp_all [nextLine, ofBlock]

/-- The automaton reads of a line what the scanner says about it, whatever follows the line. -/
theorem exists_automaton_scanLine (inBlock : Bool) {l : Text} (hnew : Text.newline ∉ l)
    {rest : Text} (hrest : EndsLine rest) :
    ∃ region, ((scanLine inBlock l).2 = true ↔ region = .blockComment) ∧
      automaton (.start (.ofBlock inBlock)) (l ++ rest) =
        automaton ⟨.ofBlock inBlock, (scanLine inBlock l).1.code, region⟩ rest := by
  cases inBlock with
  | false => exact (strips_stripComments l).exists_automaton hnew hrest .code []
  | true =>
    cases h : l.cut? blockClose with
    | none =>
      rw [scanLine_inside_of_none h]
      refine ⟨.blockComment, by simp, ?_⟩
      have hclose := Text.cut?_eq_none_iff.1 h
      exact automaton_append_of_endsLine hrest hnew (not_infix_of_mem_exits_blockComment hclose)
    | some p =>
      obtain ⟨skipped, after⟩ := p
      rw [scanLine_inside_of_some h]
      rw [Text.cut?_eq_some h] at hnew ⊢
      simp only [List.mem_append, not_or] at hnew
      obtain ⟨region, hregion, hafter⟩ :=
        (strips_stripComments after).exists_automaton hnew.2 hrest .blockComment []
      refine ⟨region, hregion, ?_⟩
      have hskipped := Text.not_infix_of_cut? (by decide) h
      rw [List.append_assoc]
      exact (automaton_blockClose hskipped hnew.1.1 .blockComment [] (after ++ rest)).trans hafter

/-- The flags of a line are told by the region in which it starts, the region in which it ends, and
whether a closer stands in it. -/
theorem agrees_scanLine (inBlock : Bool) (l : Text) {region : Region}
    (h : (scanLine inBlock l).2 = true ↔ region = .blockComment) :
    LineReading.Agrees l ⟨.ofBlock inBlock, (scanLine inBlock l).1.code, region⟩
      (scanLine inBlock l) := by
  cases inBlock with
  | false =>
    rw [scanLine_outside] at h ⊢
    exact ⟨rfl, h, by simp [Region.ofBlock], by simp [Region.ofBlock], by simpa using h⟩
  | true =>
    cases hcut : l.cut? blockClose with
    | none =>
      have hclose := Text.cut?_eq_none_iff.1 hcut
      rw [scanLine_inside_of_none hcut] at h ⊢
      exact ⟨rfl, h, by simp [Region.ofBlock, hclose], by simp [hclose], by simp⟩
    | some p =>
      have hclose : blockClose <:+: l := by
        rw [Text.cut?_eq_some hcut]
        exact List.infix_append p.1 blockClose p.2
      rw [scanLine_inside_of_some hcut] at h ⊢
      exact ⟨rfl, h, by simp [hclose], by simp [Region.ofBlock, hclose], by simpa using h⟩

/-- **The scanner reads comments as the automaton does.** Lines that are scanned one after the other
give what the automaton reads of them when it is given all of them, joined by newlines: the same
code, and the same state at the end of each line. A line lies inside a comment if it starts in a
block comment and has no closer; it closes one if it starts in one and has a closer; and it opens
one if it ends in a block comment and does not lie inside one. -/
theorem scanLines_refines_automaton (inBlock : Bool) {ls : List Text}
    (hnew : ∀ l ∈ ls, Text.newline ∉ l) :
    let readings := automaton (.start (.ofBlock inBlock)) (Text.join [Text.newline] ls)
    List.Forall₂ (fun (l, x) step => LineReading.Agrees l x step) (ls.zip readings)
        (scanLines inBlock ls) ∧
      (ls ≠ [] → readings.length = ls.length) := by
  induction ls generalizing inBlock with
  | nil => exact ⟨.nil, fun hne => absurd rfl hne⟩
  | cons l ls ih =>
    obtain ⟨rest, hjoin, hcases⟩ := exists_join_cons l ls
    have hrest : EndsLine rest := by
      rcases hcases with ⟨-, h⟩ | ⟨-, h⟩
      · exact .inl h
      · exact .inr ⟨_, h⟩
    obtain ⟨region, hregion, hread⟩ :=
      exists_automaton_scanLine inBlock (hnew l List.mem_cons_self) hrest
    have hagrees := agrees_scanLine inBlock l hregion
    obtain ⟨htail, hlength⟩ :=
      ih (scanLine inBlock l).2 fun l' hl' => hnew l' (List.mem_cons_of_mem _ hl')
    rw [hjoin, hread, scanLines]
    rcases hcases with ⟨rfl, rfl⟩ | ⟨hne, rfl⟩
    · exact ⟨.cons hagrees .nil, fun _ => rfl⟩
    · rw [automaton_newline, Region.nextLine_eq_ofBlock hregion]
      exact ⟨.cons hagrees htail, fun _ => congrArg (· + 1) (hlength hne)⟩

/-- Delimiters that overlap: a line comment hides an opener, the star of an opener closes nothing,
and a closer is followed by an opener at once. -/
theorem scanLines_refines_automaton_overlaps :
    let ls := ["a//*b", "c/*/d", "*/*e", "/**/f/**/g"].map Text.ofString
    let readings := automaton (.start .code) (Text.join [Text.newline] ls)
    (∀ l ∈ ls, Text.newline ∉ l) ∧
      List.Forall₂ (fun (l, x) step => LineReading.Agrees l x step) (ls.zip readings)
        (scanLines false ls) := by
  intro ls readings
  have hnew : ∀ l ∈ ls, Text.newline ∉ l := by decide
  exact ⟨hnew, (scanLines_refines_automaton false hnew).1⟩

end ShaderSplice
