import Mathlib.Algebra.Group.Nat.Defs
import ShaderSplice.Text.Quoted
import ShaderSplice.Proofs.Text.Utf8

/-!
# Reading quoted texts

`readQuoted?` reads a text between double quotes as a compiler does: what is escaped by a letter or
a number stands for the byte or the character that it names, everything else for itself, and the
text has to end on its line.

    t ──quoteWith printable──▶ "…" rest ──readQuoted?──▶ (t, rest)

It undoes quoting for every text and for every choice of the printable characters that leaves out
the newline (`readQuoted?_quoteWith`). Whatever the bytes of the text are, its quoted form is valid
UTF-8 and has no bare quote inside (`isUtf8_quoteWith`, `hasBareQuote_flatMap_escape`).
-/

namespace ShaderSplice.Text

/-! ### Hexadecimal numerals -/

/-- The value of a hexadecimal digit. -/
def hexDigit? (b : UInt8) : Option Nat :=
  if 0x30 ≤ b ∧ b ≤ 0x39 then some (b.toNat - 0x30)
  else if 0x61 ≤ b ∧ b ≤ 0x66 then some (b.toNat - 0x57)
  else if 0x41 ≤ b ∧ b ≤ 0x46 then some (b.toNat - 0x37)
  else none

/-- The number that hexadecimal digits write after the digits of `n`. -/
def readHexFrom? (n : Nat) : Text → Option Nat
  | [] => some n
  | b :: digits => (hexDigit? b).bind fun d => readHexFrom? (16 * n + d) digits

theorem readHexFrom?_append (n : Nat) (digits more : Text) :
    readHexFrom? n (digits ++ more) =
      (readHexFrom? n digits).bind fun m => readHexFrom? m more := by
  induction digits generalizing n with
  | nil => rfl
  | cons b digits ih =>
    rw [List.cons_append, readHexFrom?, readHexFrom?]
    cases hexDigit? b with
    | none => rfl
    | some d => exact ih _

theorem hexDigit?_digitChar : ∀ d < 16, hexDigit? (Nat.digitChar d).toUInt8 = some d := by decide

theorem readHexFrom?_toDigits (n : Nat) :
    readHexFrom? 0 ((Nat.toDigits 16 n).map Char.toUInt8) = some n := by
  induction n using Nat.strongRecOn with
  | ind n ih =>
    by_cases hn : n < 16
    · rw [Nat.toDigits_of_lt_base hn, List.map_singleton, readHexFrom?, hexDigit?_digitChar n hn,
        Option.bind_some, readHexFrom?]
      simp
    · rw [Nat.toDigits_of_base_le (by decide) (by omega), List.map_append, readHexFrom?_append,
        ih (n / 16) (by omega), Option.bind_some, List.map_singleton, readHexFrom?,
        hexDigit?_digitChar _ (Nat.mod_lt n (by decide)), Option.bind_some, readHexFrom?]
      simp [Nat.div_add_mod]

theorem readHexFrom?_replicate (k : Nat) : readHexFrom? 0 (List.replicate k 0x30) = some 0 := by
  induction k with
  | zero => rfl
  | succ k ih =>
    rw [List.replicate_succ, readHexFrom?]
    exact ih

theorem readHexFrom?_hex (width n : Nat) : readHexFrom? 0 (hex width n) = some n := by
  rw [hex, readHexFrom?_append, readHexFrom?_replicate, Option.bind_some, readHexFrom?_toDigits]

theorem length_hex {width n : Nat} (hwidth : 0 < width) (h : n < 16 ^ width) :
    (hex width n).length = width := by
  have hle := (Nat.length_toDigits_le_iff (by decide) hwidth).2 h
  simp only [hex, List.length_append, List.length_replicate, List.length_map]
  omega

/-- The digits of a numeral are digits. -/
theorem exists_hexDigit?_of_mem_hex {width n : Nat} {b : UInt8} (h : b ∈ hex width n) :
    ∃ d, hexDigit? b = some d := by
  have hdigits {digits : Text} {m k : Nat} (hread : readHexFrom? m digits = some k)
      (hb : b ∈ digits) : ∃ d, hexDigit? b = some d := by
    induction digits generalizing m with
    | nil => cases hb
    | cons c digits ih =>
      rw [readHexFrom?] at hread
      obtain ⟨d, hd, hrest⟩ := Option.bind_eq_some_iff.1 hread
      rcases List.mem_cons.1 hb with rfl | hb
      · exact ⟨d, hd⟩
      · exact ih hrest hb
  exact hdigits (readHexFrom?_hex width n) h

theorem not_mem_hex {b : UInt8} (hb : hexDigit? b = none) (width n : Nat) : b ∉ hex width n := by
  intro h
  obtain ⟨d, hd⟩ := exists_hexDigit?_of_mem_hex h
  rw [hb] at hd
  cases hd

theorem newline_not_mem_hex (width n : Nat) : newline ∉ hex width n :=
  not_mem_hex (by decide) width n

theorem toNat_lt_of_mem_hex {width n : Nat} {b : UInt8} (h : b ∈ hex width n) :
    b.toNat < 0x80 := by
  obtain ⟨d, hd⟩ := exists_hexDigit?_of_mem_hex h
  by_contra hbig
  have hnone : hexDigit? b = none := by
    simp only [hexDigit?, UInt8.le_iff_toNat_le]
    rw [if_neg, if_neg, if_neg]
    all_goals
      simp
      omega
  rw [hnone] at hd
  cases hd

/-! ### Reading between the quotes -/

/-- The text of the character with the given number, if there is one. -/
def charText? (n : Nat) : Option Text :=
  if n.isValidChar then some (String.utf8EncodeChar (Char.ofNat n)) else none

/-- The text of the byte with the given number, if there is one. -/
def byteText? (n : Nat) : Option Text := if n < 256 then some [UInt8.ofNat n] else none

/-- Reads a number of `width` digits, of which `value?` makes a text. -/
def readNumber? (width : Nat) (value? : Nat → Option Text) (t : Text) : Option (Text × Text) :=
  if (t.take width).length = width then
    ((readHexFrom? 0 (t.take width)).bind value?).map fun s => (s, t.drop width)
  else none

/-- Reads what a backslash escapes: the text that it stands for, and the rest. Octal numbers, which
quoting never writes, are not read. -/
def readEscape? : Text → Option (Text × Text)
  | [] => none
  | b :: r =>
    if b = quoteMark ∨ b = backslash then some ([b], r)
    else if b = 'x'.toUInt8 then readNumber? 2 byteText? r
    else if b = 'u'.toUInt8 then readNumber? 4 charText? r
    else if b = 'U'.toUInt8 then readNumber? 8 charText? r
    else
      (controlLetters.find? fun e => e.2.toUInt8 = b).map fun e => ([UInt8.ofNat e.1], r)

theorem length_readEscape?_lt {t s rest : Text} (h : readEscape? t = some (s, rest)) :
    rest.length < t.length := by
  have hnumber {width : Nat} {value? : Nat → Option Text} {r : Text}
      (hr : readNumber? width value? r = some (s, rest)) : rest.length ≤ r.length := by
    rw [readNumber?] at hr
    split at hr
    · obtain ⟨s', -, he⟩ := Option.map_eq_some_iff.1 hr
      cases he
      simp
    · cases hr
  cases t with
  | nil => cases h
  | cons b r =>
    suffices rest.length ≤ r.length by simpa [Nat.lt_succ_iff] using this
    rw [readEscape?] at h
    split at h
    · cases h
      exact Nat.le_refl _
    · split at h
      · exact hnumber h
      · split at h
        · exact hnumber h
        · split at h
          · exact hnumber h
          · obtain ⟨e, -, he⟩ := Option.map_eq_some_iff.1 h
            cases he
            exact Nat.le_refl _

/-- Reads up to the closing quote: the text that is quoted, and the rest. -/
def readBody? (t : Text) : Option (Text × Text) :=
  match t with
  | [] => none
  | b :: r =>
    if b = quoteMark then some ([], r)
    else if b = newline then none
    else if b = backslash then
      match _ : readEscape? r with
      | none => none
      | some (s, rest) => (readBody? rest).map (Prod.map (s ++ ·) id)
    else (readBody? r).map (Prod.map (b :: ·) id)
termination_by t.length
decreasing_by
  · next h => exact Nat.lt_succ_of_lt (length_readEscape?_lt h)
  · simp

/-- Reads a quoted text: the text that is quoted, and the rest. -/
def readQuoted? : Text → Option (Text × Text)
  | [] => none
  | b :: r => if b = quoteMark then readBody? r else none

/-! ### What quoting writes is read -/

/-- The bytes of a character are one ASCII byte, or none of them is ASCII. -/
theorem utf8EncodeChar_cases (c : Char) :
    (c.toNat < 0x80 ∧ String.utf8EncodeChar c = [UInt8.ofNat c.toNat]) ∨
      (0x80 ≤ c.toNat ∧ ∀ b ∈ String.utf8EncodeChar c, 0x80 ≤ b.toNat) := by
  have hnat : c.val.toNat = c.toNat := rfl
  simp only [String.utf8EncodeChar, hnat]
  split
  · next h => exact .inl ⟨by omega, rfl⟩
  · next h =>
    refine .inr ⟨by omega, ?_⟩
    have hbyte (n : Nat) : (UInt8.ofNat n).toNat = n % 256 := UInt8.toNat_ofNat'
    split
    · simp only [List.mem_cons, List.not_mem_nil, or_false, forall_eq_or_imp, forall_eq, hbyte]
      omega
    · split
      · simp only [List.mem_cons, List.not_mem_nil, or_false, forall_eq_or_imp, forall_eq, hbyte]
        omega
      · simp only [List.mem_cons, List.not_mem_nil, or_false, forall_eq_or_imp, forall_eq, hbyte]
        omega

theorem utf8EncodeChar_of_lt {c : Char} (h : c.toNat < 0x80) :
    String.utf8EncodeChar c = [UInt8.ofNat c.toNat] := by
  rcases utf8EncodeChar_cases c with ⟨-, he⟩ | ⟨hbig, -⟩
  · exact he
  · omega

/-- An ASCII byte is among the bytes of no character but its own. -/
theorem eq_of_mem_utf8EncodeChar {c : Char} {b : UInt8} (hb : b.toNat < 0x80)
    (h : b ∈ String.utf8EncodeChar c) : c.toNat = b.toNat := by
  rcases utf8EncodeChar_cases c with ⟨hc, he⟩ | ⟨-, hbig⟩
  · rw [he, List.mem_singleton] at h
    rw [h, UInt8.toNat_ofNat']
    omega
  · have := hbig b h
    omega

/-- A byte that stands for itself between quotes. -/
def IsPlain (b : UInt8) : Prop := b ≠ quoteMark ∧ b ≠ newline ∧ b ≠ backslash

theorem readBody?_plain {p : Text} (h : ∀ b ∈ p, IsPlain b) (rest : Text) :
    readBody? (p ++ rest) = (readBody? rest).map (Prod.map (p ++ ·) id) := by
  induction p with
  | nil =>
    rw [List.nil_append]
    cases readBody? rest with
    | none => rfl
    | some read => rfl
  | cons b p ih =>
    obtain ⟨hquote, hnewline, hbackslash⟩ := h b List.mem_cons_self
    rw [List.cons_append, readBody?, if_neg hquote, if_neg hnewline, if_neg hbackslash,
      ih fun c hc => h c (List.mem_cons_of_mem _ hc), Option.map_map]
    rfl

theorem readBody?_backslash {t s rest : Text} (h : readEscape? t = some (s, rest)) :
    readBody? (backslash :: t) = (readBody? rest).map (Prod.map (s ++ ·) id) := by
  rw [readBody?, if_neg (by decide), if_neg (by decide), if_pos rfl]
  split
  · next hnone =>
    rw [h] at hnone
    cases hnone
  · next s' rest' hsome =>
    rw [h] at hsome
    cases hsome
    rfl

theorem readNumber?_hex {width n : Nat} (hwidth : 0 < width) (h : n < 16 ^ width)
    {value? : Nat → Option Text} {s : Text} (hvalue : value? n = some s) (rest : Text) :
    readNumber? width value? (hex width n ++ rest) = some (s, rest) := by
  have hlength := length_hex hwidth h
  have htake : (hex width n ++ rest).take width = hex width n := List.take_left' hlength
  have hdrop : (hex width n ++ rest).drop width = rest := List.drop_left' hlength
  rw [readNumber?, htake, hdrop, if_pos hlength, readHexFrom?_hex, Option.bind_some, hvalue]
  rfl

/-- A number behind its letter is read as what it stands for. -/
theorem readBody?_hex {c : UInt8} {width n : Nat} {value? : Nat → Option Text}
    (hletter : ∀ r, readEscape? (c :: r) = readNumber? width value? r) (hwidth : 0 < width)
    (h : n < 16 ^ width) {s : Text} (hvalue : value? n = some s) (rest : Text) :
    readBody? ([backslash, c] ++ hex width n ++ rest) =
      (readBody? rest).map (Prod.map (s ++ ·) id) := by
  refine readBody?_backslash ?_
  rw [← readNumber?_hex hwidth h hvalue rest]
  exact hletter _

theorem readEscape?_byte (r : Text) :
    readEscape? ('x'.toUInt8 :: r) = readNumber? 2 byteText? r := by
  rw [readEscape?, if_neg (by decide), if_pos rfl]

theorem readEscape?_short (r : Text) :
    readEscape? ('u'.toUInt8 :: r) = readNumber? 4 charText? r := by
  rw [readEscape?, if_neg (by decide), if_neg (by decide), if_pos rfl]

theorem readEscape?_long (r : Text) :
    readEscape? ('U'.toUInt8 :: r) = readNumber? 8 charText? r := by
  rw [readEscape?, if_neg (by decide), if_neg (by decide), if_neg (by decide), if_pos rfl]

theorem charText?_toNat (c : Char) : charText? c.toNat = some (String.utf8EncodeChar c) := by
  have hvalid : c.toNat.isValidChar := c.valid
  rw [charText?, if_pos hvalid, Char.ofNat_toNat]

/-- Each control character that has a letter is read by its letter. -/
theorem readEscape?_controlLetter {n : Nat} {letter : Char}
    (h : controlLetters.lookup n = some letter) (rest : Text) :
    readEscape? (letter.toUInt8 :: rest) = some ([UInt8.ofNat n], rest) := by
  have hletters : ∀ e ∈ controlLetters,
      (controlLetters.find? fun e' => e'.2.toUInt8 = e.2.toUInt8) = some e ∧
        e.2.toUInt8 ∉ [quoteMark, backslash, 'x'.toUInt8, 'u'.toUInt8, 'U'.toUInt8] := by
    decide
  obtain ⟨before, after, hsplit, -⟩ := List.lookup_eq_some_iff.1 h
  obtain ⟨hfind, hother⟩ := hletters (n, letter) (by simp [hsplit])
  simp only [List.mem_cons, List.not_mem_nil, or_false, not_or] at hother
  obtain ⟨hquote, hbackslash, hx, hu, hU⟩ := hother
  rw [readEscape?, if_neg (by simp [hquote, hbackslash]), if_neg hx, if_neg hu, if_neg hU, hfind]
  rfl

/-- How a symbol can be written between quotes: as it is, or behind a backslash by a letter or by a
number. -/
inductive Escapes : Symbol → Text → Prop
  | plain {c : Char} :
      (∀ b ∈ String.utf8EncodeChar c, IsPlain b) → Escapes (.char c) (String.utf8EncodeChar c)
  | letter {s : Symbol} {b : UInt8} :
      (∀ rest, readEscape? (b :: rest) = some (s.encode, rest)) → b ≠ newline →
      Escapes s [backslash, b]
  | number {s : Symbol} {b : UInt8} {width n : Nat} {value? : Nat → Option Text} :
      (∀ r, readEscape? (b :: r) = readNumber? width value? r) → b ≠ newline → 0 < width →
      n < 16 ^ width → value? n = some s.encode → Escapes s ([backslash, b] ++ hex width n)

/-- **What a symbol is written as is read as the symbol.** -/
theorem Escapes.readBody?_append {s : Symbol} {t : Text} (h : Escapes s t) (rest : Text) :
    readBody? (t ++ rest) = (readBody? rest).map (Prod.map (s.encode ++ ·) id) := by
  cases h with
  | plain hplain => exact readBody?_plain hplain rest
  | letter hread _ => exact readBody?_backslash (hread rest)
  | number hletter _ hwidth hn hvalue => exact readBody?_hex hletter hwidth hn hvalue rest

theorem Escapes.newline_not_mem {s : Symbol} {t : Text} (h : Escapes s t) : newline ∉ t := by
  have hbackslash : newline ≠ backslash := by decide
  cases h with
  | plain hplain => exact fun hmem => (hplain newline hmem).2.1 rfl
  | letter _ hne => simp [hbackslash, hne.symm]
  | number _ hne => simp [hbackslash, hne.symm, newline_not_mem_hex]

section
variable {printable : Char → Bool} (hnewline : printable '\n' = false)
include hnewline

theorem isPlain_of_printable {c : Char} (hprintable : printable c = true)
    (hmark : ¬ (c.toNat = quoteMark.toNat ∨ c.toNat = backslash.toNat)) :
    ∀ b ∈ String.utf8EncodeChar c, IsPlain b := by
  intro b hb
  have hne {b' : UInt8} (hb' : b'.toNat < 0x80) (hc : c.toNat ≠ b'.toNat) : b ≠ b' := by
    rintro rfl
    exact hc (eq_of_mem_utf8EncodeChar hb' hb)
  refine ⟨hne (by decide) fun hc => hmark (.inl hc), hne (by decide) ?_,
    hne (by decide) fun hc => hmark (.inr hc)⟩
  intro hc
  rw [show c = '\n' from Char.toNat_inj.1 hc, hnewline] at hprintable
  cases hprintable

theorem escapes_escape (s : Symbol) : Escapes s (escape printable s) := by
  have hmarked {b : UInt8} (hb : b = quoteMark ∨ b = backslash) (rest : Text) :
      readEscape? (b :: rest) = some ([b], rest) := if_pos hb
  have hx : ofString "\\x" = [backslash, 'x'.toUInt8] := by decide
  have hu : ofString "\\u" = [backslash, 'u'.toUInt8] := by decide
  have hU : ofString "\\U" = [backslash, 'U'.toUInt8] := by decide
  cases s with
  | stray b =>
    have hvalue : byteText? b.toNat = some [b] := by
      rw [byteText?, if_pos b.toNat_lt, UInt8.ofNat_toNat]
    rw [escape, hx]
    exact .number readEscape?_byte (by decide) (by decide) b.toNat_lt hvalue
  | char c =>
    -- each branch comes with the branch of `readEscape?` that undoes it
    rw [escape]
    split
    · next hmark =>
      rcases hmark with hc | hc
      · rw [show c = '"' from Char.toNat_inj.1 hc]
        exact .letter (hmarked (.inl rfl)) (by decide)
      · rw [show c = '\\' from Char.toNat_inj.1 hc]
        exact .letter (hmarked (.inr rfl)) (by decide)
    · next hmark =>
      split
      · next hprintable => exact .plain (isPlain_of_printable hnewline hprintable hmark)
      · split
        · next letter hletter =>
          have hletters : ∀ e ∈ controlLetters, e.1 < 0x80 ∧ e.2.toUInt8 ≠ newline := by decide
          obtain ⟨before, after, hsplit, -⟩ := List.lookup_eq_some_iff.1 hletter
          obtain ⟨hascii, hne⟩ := hletters (c.toNat, letter) (by simp [hsplit])
          refine .letter (fun rest => ?_) hne
          rw [Symbol.encode, utf8EncodeChar_of_lt hascii]
          exact readEscape?_controlLetter hletter rest
        · split
          · next hcontrol =>
            have hvalue : byteText? c.toNat = some (Symbol.char c).encode := by
              rw [Symbol.encode, utf8EncodeChar_of_lt (by omega), byteText?, if_pos (by omega)]
            rw [hx]
            exact .number readEscape?_byte (by decide) (by decide) (by omega) hvalue
          · split
            · next hsmall =>
              rw [hu]
              exact .number readEscape?_short (by decide) (by decide) hsmall (charText?_toNat c)
            · have hpoint := toNat_lt_of_char c
              rw [hU]
              exact .number readEscape?_long (by decide) (by decide) (by omega)
                (charText?_toNat c)

/-- A quoted text stands on one line. -/
theorem newline_not_mem_quoteWith (t : Text) : newline ∉ quoteWith printable t := by
  have hquote : newline ≠ quoteMark := by decide
  simp only [quoteWith, List.mem_append, List.mem_cons, List.mem_flatMap, List.not_mem_nil,
    or_false, hquote, false_or, not_exists, not_and]
  exact fun s _ => (escapes_escape hnewline s).newline_not_mem

theorem readBody?_flatMap_escape (symbols : List Symbol) (rest : Text) :
    readBody? (symbols.flatMap (escape printable) ++ quoteMark :: rest) =
      some (symbols.flatMap Symbol.encode, rest) := by
  induction symbols with
  | nil => rw [List.flatMap_nil, List.nil_append, readBody?, if_pos rfl, List.flatMap_nil]
  | cons s symbols ih =>
    rw [List.flatMap_cons, List.append_assoc, (escapes_escape hnewline s).readBody?_append, ih,
      List.flatMap_cons]
    rfl

/-- **Reading a quoted text gives the text.** -/
theorem readQuoted?_quoteWith (t rest : Text) :
    readQuoted? (quoteWith printable t ++ rest) = some (t, rest) := by
  rw [quoteWith, List.append_assoc, List.cons_append, readQuoted?, if_pos rfl,
    List.singleton_append, readBody?_flatMap_escape hnewline, encode_symbols]

end

/-! ### What stands between the quotes -/

/-- Whether a quote stands in `t` that no backslash escapes. -/
def hasBareQuote : Text → Bool
  | [] => false
  | [b] => b == quoteMark
  | b :: c :: r =>
    b == quoteMark || (if b = backslash then hasBareQuote r else hasBareQuote (c :: r))

theorem hasBareQuote_plain {p : Text} (h : ∀ b ∈ p, IsPlain b) (rest : Text) :
    hasBareQuote (p ++ rest) = hasBareQuote rest := by
  induction p with
  | nil => rfl
  | cons b p ih =>
    obtain ⟨hquote, -, hbackslash⟩ := h b List.mem_cons_self
    rw [← ih fun c hc => h c (List.mem_cons_of_mem _ hc), List.cons_append]
    cases p ++ rest with
    | nil => simp [hasBareQuote, hquote]
    | cons c r => simp [hasBareQuote, hquote, hbackslash]

theorem hasBareQuote_backslash (b : UInt8) (rest : Text) :
    hasBareQuote (backslash :: b :: rest) = hasBareQuote rest := by
  have hne : backslash ≠ quoteMark := by decide
  simp [hasBareQuote, hne]

theorem isPlain_of_mem_hex {width n : Nat} {b : UInt8} (h : b ∈ hex width n) : IsPlain b := by
  have hne {b' : UInt8} (hb' : hexDigit? b' = none) : b ≠ b' := by
    rintro rfl
    exact not_mem_hex hb' width n h
  exact ⟨hne (by decide), hne (by decide), hne (by decide)⟩

theorem Escapes.hasBareQuote_append {s : Symbol} {t : Text} (h : Escapes s t) (rest : Text) :
    hasBareQuote (t ++ rest) = hasBareQuote rest := by
  cases h with
  | plain hplain => exact hasBareQuote_plain hplain rest
  | letter _ _ => exact hasBareQuote_backslash _ rest
  | number _ _ _ _ _ =>
    rw [List.append_assoc]
    exact (hasBareQuote_backslash _ _).trans
      (hasBareQuote_plain (fun b hb => isPlain_of_mem_hex hb) rest)

theorem hasBareQuote_flatMap_escape {printable : Char → Bool} (hnewline : printable '\n' = false)
    (symbols : List Symbol) : hasBareQuote (symbols.flatMap (escape printable)) = false := by
  induction symbols with
  | nil => rfl
  | cons s symbols ih =>
    rw [List.flatMap_cons, (escapes_escape hnewline s).hasBareQuote_append, ih]

/-- A symbol is escaped in characters, also if it is none itself. -/
theorem isUtf8_escape (printable : Char → Bool) (s : Symbol) :
    isUtf8 (escape printable s) = true := by
  have hnumber {start : Text} (hstart : start.all (·.toNat < 0x80) = true) (width n : Nat) :
      isUtf8 (start ++ hex width n) = true := by
    refine isUtf8_append (isUtf8_of_ascii hstart) (isUtf8_of_ascii (List.all_eq_true.2 ?_))
    exact fun b hb => decide_eq_true (toNat_lt_of_mem_hex hb)
  cases s with
  | stray b => exact hnumber (by decide) 2 b.toNat
  | char c =>
    rw [escape]
    split
    · next hmark =>
      rcases hmark with hc | hc
      · rw [show c = '"' from Char.toNat_inj.1 hc]
        exact isUtf8_of_ascii (by decide)
      · rw [show c = '\\' from Char.toNat_inj.1 hc]
        exact isUtf8_of_ascii (by decide)
    · split
      · exact isUtf8_utf8EncodeChar c
      · split
        · next letter hletter =>
          have hletters : ∀ e ∈ controlLetters,
              [backslash, e.2.toUInt8].all (·.toNat < 0x80) = true := by decide
          obtain ⟨before, after, hsplit, -⟩ := List.lookup_eq_some_iff.1 hletter
          exact isUtf8_of_ascii (hletters (c.toNat, letter) (by simp [hsplit]))
        · split
          · exact hnumber (by decide) 2 c.toNat
          · split
            · exact hnumber (by decide) 4 c.toNat
            · exact hnumber (by decide) 8 c.toNat

theorem isUtf8_quoteWith (printable : Char → Bool) (t : Text) :
    (quoteWith printable t).isUtf8 = true := by
  have hquote : isUtf8 [quoteMark] = true := isUtf8_of_ascii (by decide)
  rw [quoteWith, ← List.singleton_append]
  refine isUtf8_append (isUtf8_append hquote ?_) hquote
  exact isUtf8_flatMap fun s _ => isUtf8_escape printable s

/-! ### With the table of printable characters -/

theorem readQuoted?_quote (t rest : Text) : readQuoted? (t.quote ++ rest) = some (t, rest) :=
  readQuoted?_quoteWith (by decide +kernel) t rest

theorem newline_not_mem_quote (t : Text) : newline ∉ t.quote :=
  newline_not_mem_quoteWith (by decide +kernel) t

end ShaderSplice.Text
