import Mathlib.Data.List.Basic
import ShaderSplice.IncludeTable

/-!
# Lists of keys and values

File trees, include tables and lookups are lists of pairs that are read by the key of a pair. Three
ways to write such a list, and what is read from it afterwards:

- the pairs of a key go, or make room for a new one (`lookup_filter_ne`, `lookup_replace`);
- pairs are added at the end, and the list is read from its end, so that the last one of a key
  counts (`Agreeing.lookup_reverse` says when every pair counts);
- values are numbered (`lookup_zipIdx`).
-/

namespace ShaderSplice

theorem lookup_filter_ne {α β : Type} [BEq α] [LawfulBEq α] [DecidableEq α]
    (entries : List (α × β)) (key k : α) :
    (entries.filter (·.1 ≠ key)).lookup k = if k = key then none else entries.lookup k := by
  induction entries with
  | nil => simp
  | cons e entries ih =>
    obtain ⟨m, v⟩ := e
    by_cases hm : m = key
    · rw [List.filter_cons_of_neg (by simp [hm]), ih, List.lookup_cons, hm]
      by_cases hk : k = key
      · simp [hk]
      · have hne : (k == key) = false := by simp [hk]
        rw [hne]
    · rw [List.filter_cons_of_pos (by simp [hm]), List.lookup_cons, List.lookup_cons, ih]
      by_cases hk : k = key
      · have hne : (k == m) = false := by simpa [hk] using Ne.symm hm
        rw [hne, if_pos hk]
      · simp [hk]

theorem lookup_replace {α β : Type} [BEq α] [LawfulBEq α] [DecidableEq α]
    (entries : List (α × β)) (key : α) (value : β) (k : α) :
    ((key, value) :: entries.filter (·.1 ≠ key)).lookup k =
      if k = key then some value else entries.lookup k := by
  by_cases hk : k = key
  · simp [hk]
  · have hne : (k == key) = false := by simp [hk]
    rw [List.lookup_cons, hne, lookup_filter_ne, if_neg hk, if_neg hk]

namespace IncludeTable

theorem find?_insert (t : IncludeTable) (name text n : Text) :
    (t.insert name text).find? n = if n = name then some text else t.find? n :=
  lookup_replace t.entries name text n

theorem find?_erase (t : IncludeTable) (name n : Text) :
    (t.erase name).find? n = if n = name then none else t.find? n :=
  lookup_filter_ne t.entries name n

end IncludeTable

/-- Outputs that go to one path say the same. -/
def Agreeing (outputs : List (Text × Text)) : Prop :=
  ∀ o ∈ outputs, ∀ o' ∈ outputs, o.1 = o'.1 → o.2 = o'.2

theorem Agreeing.lookup_reverse {outputs : List (Text × Text)} (h : Agreeing outputs)
    {o : Text × Text} (ho : o ∈ outputs) : outputs.reverse.lookup o.1 = some o.2 := by
  have hsome : (outputs.reverse.lookup o.1).isSome := by
    rw [List.lookup_isSome_iff]
    exact ⟨o, List.mem_reverse.2 ho, by simp⟩
  obtain ⟨text, htext⟩ := Option.isSome_iff_exists.1 hsome
  obtain ⟨l₁, l₂, hsplit, -⟩ := List.lookup_eq_some_iff.1 htext
  have hmem : (o.1, text) ∈ outputs := by
    rw [← List.mem_reverse, hsplit]
    simp
  rw [htext, h o ho _ hmem rfl]

theorem lookup_zipIdx {α : Type} (values : List α) (first k : Nat) :
    ((values.zipIdx first).map Prod.swap).lookup k =
      if k < first then none else values[k - first]? := by
  induction values generalizing first with
  | nil => simp
  | cons value values ih =>
    rw [List.zipIdx_cons, List.map_cons, Prod.swap_prod_mk, List.lookup_cons, ih]
    rcases Nat.lt_trichotomy k first with hlt | rfl | hgt
    · have hne : (k == first) = false := by simp; omega
      rw [hne, if_pos hlt, if_pos (by omega)]
    · simp
    · have hne : (k == first) = false := by simp; omega
      rw [hne, if_neg (by omega), if_neg (by omega),
        show k - first = k - (first + 1) + 1 by omega, List.getElem?_cons_succ]

end ShaderSplice
