import ShaderSplice.Tool.Tr.Set

/-!
# Patterns of a script

A pattern is a word in which some bytes are quoted. Where they are not, `*` matches any text, `?`
any byte, and brackets one of the bytes between them. Patterns choose a case, cut the value of a
parameter, and find files.
-/

namespace ShaderSplice.Tool.Shell

/-- A byte of an expanded word. What is quoted has no special meaning in a pattern. -/
structure Glyph where
  byte : UInt8
  quoted : Bool
deriving DecidableEq, Repr

/-- The glyphs of a text. -/
def glyphs (quoted : Bool) (t : Text) : List Glyph := t.map fun b => ⟨b, quoted⟩

/-- The text of glyphs. -/
def textOf (gs : List Glyph) : Text := gs.map (·.byte)

/-- Whether a glyph is the given byte, unquoted. -/
def Glyph.is (g : Glyph) (b : UInt8) : Bool := g.byte == b && !g.quoted

/-- A set of bytes between brackets. -/
inductive Member where
  | range (first last : UInt8)
  | named (p : UInt8 → Bool)

/-- Whether a byte belongs to a member of a bracket. -/
def Member.has (m : Member) (b : UInt8) : Bool :=
  match m with
  | .range first last => first ≤ b && b ≤ last
  | .named p => p b

/-- What a pattern matches at one place. -/
inductive Matcher where
  | byte (b : UInt8)
  | any
  | anyRun
  | oneOf (negated : Bool) (members : List Member)

/-- The class at the start of what follows a bracket inside brackets. -/
def className? (gs : List Glyph) : Option ((UInt8 → Bool) × List Glyph) :=
  match gs with
  | g :: r =>
    if g.is 0x3a then
      let name := r.takeWhile fun g => g.byte != 0x3a
      match r.drop name.length with
      | _ :: close :: rest =>
        if close.byte = 0x5d then
          match Tr.byteClasses.find? fun (n, _) => Text.ofString n = textOf name with
          | some (_, p) => some (p, rest)
          | none => none
        else none
      | _ => none
    else none
  | [] => none

/-- The members of a bracket, and what follows its end. `first` tells whether none has been read:
then a closing bracket is a member. -/
def members? (first : Bool) : Nat → List Glyph → Option (List Member × List Glyph)
  | 0, _ => none
  | fuel + 1, gs =>
    match gs with
    | [] => none
    | g :: r =>
      if g.is 0x5d && !first then some ([], r)
      else
        let single : Option (List Member × List Glyph) :=
          match r with
          | dash :: last :: rest =>
            if dash.is 0x2d && !last.is 0x5d then
              (members? false fuel rest).map fun (ms, rest) => (.range g.byte last.byte :: ms, rest)
            else
              (members? false fuel r).map fun (ms, rest) => (.range g.byte g.byte :: ms, rest)
          | _ => (members? false fuel r).map fun (ms, rest) => (.range g.byte g.byte :: ms, rest)
        if g.is 0x5b then
          match className? r with
          | some (p, rest) =>
            (members? false fuel rest).map fun (ms, rest) => (.named p :: ms, rest)
          | none => single
        else single

/-- The bracket that follows an opening one. -/
def bracket? (gs : List Glyph) : Option (Matcher × List Glyph) :=
  let negated := gs.head?.any (·.is 0x21)
  let body := if negated then gs.tail else gs
  (members? true (body.length + 1) body).map fun (ms, rest) => (.oneOf negated ms, rest)

/-- What the glyphs of a pattern match. Each step takes a glyph, so `fuel` need not exceed their
number. -/
def matchers : Nat → List Glyph → List Matcher
  | 0, _ => []
  | fuel + 1, gs =>
    match gs with
    | [] => []
    | g :: r =>
      if g.quoted then .byte g.byte :: matchers fuel r
      else if g.byte = 0x2a then .anyRun :: matchers fuel r
      else if g.byte = 0x3f then .any :: matchers fuel r
      else if g.byte = 0x5b then
        match bracket? r with
        | some (m, rest) => m :: matchers fuel rest
        | none => .byte g.byte :: matchers fuel r
      else .byte g.byte :: matchers fuel r

/-- The glyphs of a pattern. A backslash in it that is not quoted, as a value may have one, quotes
what follows it. -/
def withoutBackslashes : List Glyph → List Glyph
  | g :: h :: r =>
    if g.is Text.backslash then { h with quoted := true } :: withoutBackslashes r
    else g :: withoutBackslashes (h :: r)
  | gs => gs

/-- What a pattern matches. -/
def matchersOf (gs : List Glyph) : List Matcher :=
  let gs := withoutBackslashes gs
  matchers gs.length gs

/-- Whether a matcher takes a byte. -/
def Matcher.takes (m : Matcher) (b : UInt8) : Bool :=
  match m with
  | .byte c => c == b
  | .any | .anyRun => true
  | .oneOf negated ms => ms.any (·.has b) != negated

/-- Whether a pattern matches a whole text. -/
def fits (ms : List Matcher) (t : Text) : Bool :=
  match ms, t with
  | [], t => t.isEmpty
  | .anyRun :: ms, [] => fits ms []
  | .anyRun :: ms, b :: t => fits ms (b :: t) || fits (.anyRun :: ms) t
  | _ :: _, [] => false
  | m :: ms, b :: t => m.takes b && fits ms t
termination_by ms.length + t.length

/-- A text without what a pattern matches at its start. -/
def dropStart (longest : Bool) (ms : List Matcher) (t : Text) : Text :=
  let lengths := List.range (t.length + 1)
  let order := if longest then lengths.reverse else lengths
  match order.find? fun n => fits ms (t.take n) with
  | some n => t.drop n
  | none => t

/-- A text without what a pattern matches at its end. -/
def dropEnd (longest : Bool) (ms : List Matcher) (t : Text) : Text :=
  let lengths := List.range (t.length + 1)
  let order := if longest then lengths else lengths.reverse
  match order.find? fun n => fits ms (t.drop n) with
  | some n => t.take n
  | none => t

/-- Whether a word has anything that makes it a pattern. -/
def isPattern (gs : List Glyph) : Bool := gs.any fun g => g.is 0x2a || g.is 0x3f || g.is 0x5b

end ShaderSplice.Tool.Shell
