import ShaderSplice.Directive

/-!
# Decimal numerals

`Text.ofNat` writes a number with ASCII digits and at least one of them; `Text.toNat` reads the
number back.
-/

namespace ShaderSplice
namespace Text

theorem toNat_toUInt8_of_isDigit {c : Char} (h : c.isDigit = true) : c.toUInt8.toNat = c.toNat := by
  have hle : c.toNat ≤ 57 := by
    simp only [Char.isDigit, Bool.and_eq_true, decide_eq_true_eq, UInt32.le_iff_toNat_le] at h
    exact h.2
  rw [Char.toUInt8, UInt32.toNat_toUInt8]
  exact Nat.mod_eq_of_lt (Nat.lt_of_le_of_lt hle (by decide))

theorem isDigitByte_of_mem_ofNat {n : Nat} {b : UInt8} (h : b ∈ ofNat n) :
    isDigitByte b = true := by
  obtain ⟨c, hc, rfl⟩ := List.mem_map.1 h
  have hdigit := Nat.isDigit_of_mem_toDigits (by decide) (by decide) hc
  have hnat := toNat_toUInt8_of_isDigit hdigit
  simp only [Char.isDigit, Bool.and_eq_true, decide_eq_true_eq, UInt32.le_iff_toNat_le] at hdigit
  simp only [isDigitByte, Bool.and_eq_true, decide_eq_true_eq, UInt8.le_iff_toNat_le, hnat]
  exact hdigit

theorem ofNat_ne_nil (n : Nat) : ofNat n ≠ [] := by
  rw [ofNat, Ne, List.map_eq_nil_iff]
  exact Nat.toDigits_ne_nil

theorem toNat_ofNat (n : Nat) : toNat (ofNat n) = n := by
  have hstep (cs : List Char) (init : Nat) (hcs : ∀ c ∈ cs, c.isDigit = true) :
      (cs.map Char.toUInt8).foldl (fun n b => n * 10 + (b.toNat - 0x30)) init =
        Nat.ofDigitChars 10 cs init := by
    induction cs generalizing init with
    | nil => rfl
    | cons c cs ih =>
      rw [List.map_cons, List.foldl_cons, Nat.ofDigitChars_cons,
        toNat_toUInt8_of_isDigit (hcs c List.mem_cons_self), Nat.mul_comm]
      exact ih _ fun d hd => hcs d (List.mem_cons_of_mem _ hd)
  rw [toNat, ofNat, hstep _ _ fun c hc => Nat.isDigit_of_mem_toDigits (by decide) (by decide) hc]
  exact Nat.ofDigitChars_ten_toDigits

/-- A numeral has none of the bytes that are no digits. -/
theorem not_mem_ofNat {b : UInt8} (hb : isDigitByte b = false) (n : Nat) : b ∉ ofNat n := by
  intro h
  rw [isDigitByte_of_mem_ofNat h] at hb
  cases hb

end Text
end ShaderSplice
