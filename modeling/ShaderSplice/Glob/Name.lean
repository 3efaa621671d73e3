import ShaderSplice.Glob.Pattern

/-!
# Matching a name

`matchName` tells whether a pattern without slashes matches the name of a file or directory. A star
first takes as little as it can. Where the pattern fails after it, the star takes one character
more and the pattern is tried again from there; earlier stars stay as they are. For a choice its
texts are tried in their order, each with the rest of the pattern.

A fault of the pattern shows only when matching gets there, so a pattern may be malformed for one
name and not for another.
-/

namespace ShaderSplice.Glob

/-- The code point at the start of a text, and the rest. An empty text has a replacement character
at its start. -/
def headPoint (t : Text) : Nat × Text :=
  match t with
  | [] => (0xfffd, [])
  | b :: r =>
    match Text.leadingChar? (b :: r) with
    | some (c, rest) => (c.toNat, rest)
    | none => (0xfffd, r)

/-- Taking a code point off does not lengthen a text. -/
theorem length_headPoint_le (t : Text) : (headPoint t).2.length ≤ t.length := by
  unfold headPoint
  split
  · simp
  · split
    · next h => exact Nat.le_of_lt (Text.length_leadingChar?_lt h)
    · simp

/-- Taking a code point off shortens a text that has one. -/
theorem length_headPoint_lt {t : Text} (h : t ≠ []) : (headPoint t).2.length < t.length := by
  unfold headPoint
  split
  · exact absurd rfl h
  · split
    · next h => exact Text.length_leadingChar?_lt h
    · simp

/-! ### Classes -/

/-- The last code point. It does not start a range. -/
def lastPoint : Nat := 0x10ffff

/-- A member of a class: a range of code points, and what of the pattern is left after it. -/
structure Member where
  first : Nat
  last : Nat
  /-- The code point from which a range can go on; the last code point stands for none. -/
  start : Nat
  rest : Text
deriving DecidableEq, Repr

/-- The member at the start of a text. `start` is the code point from which a range can go on. -/
def nextMember (start : Nat) (t : Text) : Member :=
  let p := headPoint t
  if start < lastPoint ∧ p.1 = 0x2d ∧ p.2 ≠ [] ∧ p.2.head? ≠ some closeBracket then
    let q := headPoint (if p.2.head? = some Text.backslash then p.2.tail else p.2)
    ⟨start, q.1, lastPoint, q.2⟩
  else
    let q := if p.1 = Text.backslash.toNat then headPoint p.2 else p
    ⟨q.1, q.1, q.1, q.2⟩

/-- Reading a member shortens a text. -/
theorem length_nextMember_lt (start : Nat) {t : Text} (h : t ≠ []) :
    (nextMember start t).rest.length < t.length := by
  have hlt := length_headPoint_lt h
  have hle := length_headPoint_le (headPoint t).2
  have htail := length_headPoint_le (headPoint t).2.tail
  rw [List.length_tail] at htail
  simp only [nextMember]
  split <;> split <;> simp only [] <;> omega

/-- Whether `point` is in a class with the members at the start of a text, and what of the text is
left when that is known. -/
def inClass (point start : Nat) (t : Text) : Bool × Text :=
  if _ : t = [] ∨ t.head? = some closeBracket then (false, t)
  else
    let m := nextMember start t
    if m.first ≤ point ∧ point ≤ m.last then (true, m.rest) else inClass point m.start m.rest
termination_by t.length
decreasing_by next h _ => exact length_nextMember_lt start fun ht => h (Or.inl ht)

/-- What follows the bracket that closes a class. -/
def afterClass? : Text → Option Text
  | 0x5c :: _ :: r => afterClass? r
  | b :: r => if b = closeBracket then some r else afterClass? r
  | [] => none

/-- What a class makes of a name. -/
inductive ClassResult where
  /-- The class admits the first character, and this pattern is left. -/
  | admits (rest : Text)
  | refuses
  | malformed
deriving DecidableEq, Repr

/-- What a class, whose opening bracket has been read, makes of a code point. -/
def classResult (point : Nat) (pattern : Text) : ClassResult :=
  let negated := pattern.head?.any isNegation
  let members := if negated then pattern.tail else pattern
  if members = [] ∨ members.head? = some closeBracket then .malformed
  else
    let (found, rest) := inClass point lastPoint members
    if found = negated then if rest = [] then .malformed else .refuses
    else
      match afterClass? rest with
      | some rest => .admits rest
      | none => .malformed

/-! ### Names -/

/-- Whether a pattern matches the empty name. `choiceCount` bounds how many choices
are made. -/
def matchEmpty (choiceCount : Nat) (pattern : Text) : Except Malformed Bool :=
  if pattern = [] ∨ pattern = [starMark] ∨ pattern = [starMark, starMark] then .ok true
  else
    match choiceCount, pattern with
    | choiceCount + 1, 0x7b :: r =>
      match closeChoice? 0 r with
      | none => .error {}
      | some (inside, after) =>
        (choices 0 [] inside).foldlM (fun found text =>
          if found then .ok true else matchEmpty choiceCount (text ++ after)) false
    | _, _ => .ok false

/-- A star that has been met: the pattern after it, and the part of the name that it leaves. -/
structure Star where
  pattern : Text
  name : Text
deriving DecidableEq, Repr

/-- As many steps as it takes at most to match a name against a pattern, choices apart. -/
def stepBound (pattern name : Text) : Nat :=
  (pattern.length + 2) * (pattern.length + 2) * (name.length + 2)

/-- Whether a pattern matches a name, or else the pattern after the last star matches a shorter
part of what that star leaves. `choiceCount` bounds how many choices are made, and `steps` how many
steps are taken between them. -/
def matchFrom (choiceCount steps : Nat) (star : Option Star) (pattern name : Text) :
    Except Malformed Bool :=
  match steps with
  | 0 => .ok false
  | steps + 1 =>
    let (point, others) := headPoint name
    let retry : Unit → Except Malformed Bool := fun () =>
      match star with
      | none => .ok false
      | some s =>
        let left := (headPoint s.name).2
        matchFrom choiceCount steps (some ⟨s.pattern, left⟩) s.pattern left
    match name, pattern with
    | [], _ => matchEmpty choiceCount pattern
    | _, [] => retry ()
    | _, b :: r =>
      if b = starMark then
        let rest := if r.head? = some starMark then r.tail else r
        matchFrom choiceCount steps (some ⟨rest, name⟩) rest name
      else if b = questionMark then matchFrom choiceCount steps star r others
      else if b = openBracket then
        match classResult point r with
        | .admits rest => matchFrom choiceCount steps star rest others
        | .refuses => retry ()
        | .malformed => .error {}
      else if b = openBrace then
        match choiceCount, closeChoice? 0 r with
        | _, none => .error {}
        | 0, some _ => .ok false
        | choiceCount + 1, some (inside, after) =>
          (choices 0 [] inside).foldlM (fun found text =>
            if found then .ok true
            else
              let rest := text ++ after
              let star := star.map fun s =>
                ⟨s.pattern.take (s.pattern.length - pattern.length) ++ rest, s.name⟩
              let whole := star.getD ⟨rest, name⟩
              matchFrom choiceCount (stepBound whole.pattern whole.name) star rest name) false
      else
        let literal := if b = Text.backslash then r else pattern
        if literal = [] then .error {}
        else
          let (p, rest) := headPoint literal
          if p = point then matchFrom choiceCount steps star rest others else retry ()
termination_by (choiceCount, steps)

/-- Whether a pattern without slashes matches a name. -/
def matchName (pattern name : Text) : Except Malformed Bool :=
  matchFrom (pattern.count openBrace) (stepBound pattern name) none pattern name

end ShaderSplice.Glob
