import Mathlib.Data.List.Basic
import ShaderSplice.Text.Utf8

/-!
# Texts that are valid UTF-8

The encoding of a character is read as the character, whatever follows it. So the texts of which
every byte belongs to a character are those that are written from characters (`isUtf8_iff`), and
they can be put together (`isUtf8_append`).
-/

namespace ShaderSplice.Text

theorem toNat_lt_of_char (c : Char) : c.toNat < 0x110000 := by
  have hvalid := c.valid
  simp only [UInt32.isValidChar, Nat.isValidChar] at hvalid
  show c.val.toNat < 0x110000
  omega

/-- The code point is put together from the bits that the encoding has spread over its bytes. -/
theorem leadingPoint_utf8EncodeChar_append (c : Char) (rest : Text) :
    leadingPoint (String.utf8EncodeChar c ++ rest) = c.toNat := by
  have hbyte (n : Nat) : (UInt8.ofNat n).toNat = n % 256 := UInt8.toNat_ofNat'
  have hpoint := toNat_lt_of_char c
  have hnat : c.val.toNat = c.toNat := rfl
  simp only [String.utf8EncodeChar, hnat]
  split
  · simp only [leadingPoint, List.cons_append, List.getD_cons_zero, hbyte]
    rw [if_pos (by omega)]
    omega
  · split
    · simp only [leadingPoint, tailBits, List.cons_append, List.getD_cons_zero,
        List.getD_cons_succ, hbyte]
      rw [if_neg (by omega), if_pos (by omega)]
      omega
    · split
      · simp only [leadingPoint, tailBits, List.cons_append, List.getD_cons_zero,
          List.getD_cons_succ, hbyte]
        rw [if_neg (by omega), if_neg (by omega), if_pos (by omega)]
        omega
      · simp only [leadingPoint, tailBits, List.cons_append, List.getD_cons_zero,
          List.getD_cons_succ, hbyte]
        rw [if_neg (by omega), if_neg (by omega), if_neg (by omega)]
        omega

theorem leadingChar?_utf8EncodeChar_append (c : Char) (rest : Text) :
    leadingChar? (String.utf8EncodeChar c ++ rest) = some (c, rest) := by
  rw [leadingChar?, leadingPoint_utf8EncodeChar_append, Char.ofNat_toNat,
    List.isPrefixOf?_eq_some_iff_append_eq.2 rfl]
  rfl

theorem symbols_utf8EncodeChar_append (c : Char) (rest : Text) :
    symbols (String.utf8EncodeChar c ++ rest) = .char c :: symbols rest := by
  have hlead := leadingChar?_utf8EncodeChar_append c rest
  obtain ⟨b, r, hcons⟩ := List.exists_cons_of_ne_nil (Symbol.encode_ne_nil (.char c))
  rw [Symbol.encode] at hcons
  rw [hcons, List.cons_append] at hlead ⊢
  rw [symbols]
  split
  · next c' rest' hsome =>
    rw [hlead] at hsome
    cases hsome
    rfl
  · next hnone =>
    rw [hlead] at hnone
    cases hnone

/-- **A text is valid UTF-8 if it is written from characters.** -/
theorem isUtf8_iff {t : Text} :
    t.isUtf8 = true ↔ ∃ cs : List Char, t = cs.flatMap String.utf8EncodeChar := by
  constructor
  · intro h
    rw [isUtf8] at h
    fun_induction symbols t with
    | case1 => exact ⟨[], rfl⟩
    | case2 b r c rest hlead ih =>
      rw [List.all_cons, Bool.and_eq_true] at h
      obtain ⟨cs, hcs⟩ := ih h.2
      exact ⟨c :: cs, by rw [leadingChar?_eq_some hlead, List.flatMap_cons, ← hcs]⟩
    | case3 b r _ _ =>
      rw [List.all_cons, Bool.and_eq_true] at h
      cases h.1
  · rintro ⟨cs, rfl⟩
    induction cs with
    | nil =>
      rw [List.flatMap_nil, isUtf8, symbols]
      rfl
    | cons c cs ih =>
      rw [List.flatMap_cons, isUtf8, symbols_utf8EncodeChar_append, List.all_cons]
      exact ih

theorem isUtf8_append {t u : Text} (ht : t.isUtf8 = true) (hu : u.isUtf8 = true) :
    (t ++ u).isUtf8 = true := by
  obtain ⟨cs, rfl⟩ := isUtf8_iff.1 ht
  obtain ⟨ds, rfl⟩ := isUtf8_iff.1 hu
  exact isUtf8_iff.2 ⟨cs ++ ds, List.flatMap_append.symm⟩

theorem isUtf8_flatMap {α : Type} {f : α → Text} {xs : List α}
    (h : ∀ x ∈ xs, (f x).isUtf8 = true) : isUtf8 (xs.flatMap f) = true := by
  induction xs with
  | nil => exact isUtf8_iff.2 ⟨[], rfl⟩
  | cons x xs ih =>
    rw [List.flatMap_cons]
    exact isUtf8_append (h x List.mem_cons_self) (ih fun y hy => h y (List.mem_cons_of_mem _ hy))

theorem isUtf8_utf8EncodeChar (c : Char) : isUtf8 (String.utf8EncodeChar c) = true :=
  isUtf8_iff.2 ⟨[c], by simp⟩

/-- ASCII bytes are characters. -/
theorem isUtf8_of_ascii {t : Text} (h : t.all (·.toNat < 0x80) = true) : t.isUtf8 = true := by
  have hbyte {b : UInt8} (hb : b.toNat < 0x80) :
      String.utf8EncodeChar (Char.ofNat b.toNat) = [b] := by
    have hvalid : b.toNat.isValidChar := .inl (by omega)
    have hpoint : (Char.ofNat b.toNat).val.toNat = b.toNat := by
      rw [Char.ofNat, dif_pos hvalid]
      rfl
    simp only [String.utf8EncodeChar, hpoint]
    rw [if_pos (by omega), UInt8.ofNat_toNat]
  have hflat : t = t.flatMap fun b => String.utf8EncodeChar (Char.ofNat b.toNat) := by
    induction t with
    | nil => rfl
    | cons b t ih =>
      rw [List.all_cons, Bool.and_eq_true, decide_eq_true_iff] at h
      rw [List.flatMap_cons, hbyte h.1, ← ih h.2]
      rfl
  rw [hflat]
  exact isUtf8_flatMap fun b _ => isUtf8_utf8EncodeChar _

end ShaderSplice.Text
