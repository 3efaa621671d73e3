import ShaderSplice.Path
import ShaderSplice.Text.Utf8

/-!
# File name patterns

In a pattern, `*` stands for any characters of a name, `?` for one, and `[a-z]` for one of a class,
which `!` or `^` turns around; `{a,b}` stands for a choice of texts, which may contain slashes and
further choices. A backslash takes the meaning of the next character away. The element `**` stands
for any number of elements.

A pattern is taken apart from its end, by `Pattern.split`: it is a plain path, or a directory and a
pattern for the names in it, or a choice with what stands around it.

    a/*/b?      directory `a/*`, names `b?`
    a/{b,c}d    choice between `a/bd` and `a/cd`
-/

namespace ShaderSplice.Glob

/-- What is found wrong with a pattern while it is followed. -/
structure Malformed where
deriving DecidableEq, Repr

/-! ### The marks of a pattern -/

/-- Stands for any characters. -/
def starMark : UInt8 := 0x2a

/-- Stands for one character. -/
def questionMark : UInt8 := 0x3f

/-- Starts a class. -/
def openBracket : UInt8 := 0x5b

/-- Ends a class. -/
def closeBracket : UInt8 := 0x5d

/-- Starts a choice. -/
def openBrace : UInt8 := 0x7b

/-- Ends a choice. -/
def closeBrace : UInt8 := 0x7d

/-- Divides the texts of a choice. -/
def comma : UInt8 := 0x2c

/-- Turns a class around, as its first character. -/
def isNegation (b : UInt8) : Bool := b == 0x21 || b == 0x5e

/-- Whether a byte makes a pattern more than a path. -/
def isWildcard (b : UInt8) : Bool :=
  b == starMark || b == questionMark || b == openBracket || b == openBrace

/-- Whether a byte has a meaning that a backslash takes away in a path. -/
def isMark (b : UInt8) : Bool := isWildcard b || b == closeBracket || b == closeBrace

/-- Whether a pattern is more than a path. -/
def hasWildcard : Text → Bool
  | 0x5c :: _ :: r => hasWildcard r
  | b :: r => isWildcard b || hasWildcard r
  | [] => false

/-- The path that a pattern without wildcards stands for: a backslash before a mark is dropped. -/
def unescape : Text → Text
  | 0x5c :: b :: r => if isMark b then b :: unescape r else 0x5c :: unescape (b :: r)
  | b :: r => b :: unescape r
  | [] => []
termination_by t => t.length

/-- A pattern that stands for a path. -/
def escape (path : Text) : Text :=
  path.flatMap fun b => if isMark b then [Text.backslash, b] else [b]

/-- Whether two stars stand anywhere but at the end of a pattern. -/
def hasInnerStars : Text → Bool
  | 0x5c :: _ :: r => hasInnerStars r
  | 0x2a :: 0x2a :: r => 2 ≤ r.length || hasInnerStars (0x2a :: r)
  | _ :: r => hasInnerStars r
  | [] => false
termination_by t => t.length

/-! ### Patterns that can be followed -/

/-- Where the reader of a pattern stands. -/
inductive Place where
  /-- Outside any class. -/
  | outside
  /-- Right after an opening bracket. -/
  | classStart
  /-- In a class, which has no member yet. -/
  | classEmpty
  /-- In a class with members. -/
  | classMembers
deriving DecidableEq, Repr

/-- Whether the rest of a pattern closes its classes and the `depth` choices that are open, closes
no other choice, and has no empty class and no backslash at its end. -/
def isWellFormed (place : Place) (depth : Nat) : Text → Bool
  | [] => place == .outside && depth == 0
  | b :: r =>
    if b = Text.backslash then
      match r with
      | [] => false
      | _ :: rest => isWellFormed (if place = .outside then .outside else .classMembers) depth rest
    else
      match place with
      | .outside =>
        if b = openBracket then isWellFormed .classStart depth r
        else if b = openBrace then isWellFormed .outside (depth + 1) r
        else if b = closeBrace then depth != 0 && isWellFormed .outside (depth - 1) r
        else isWellFormed .outside depth r
      | .classStart | .classEmpty =>
        if b = closeBracket then false
        else if place = .classStart ∧ isNegation b then isWellFormed .classEmpty depth r
        else isWellFormed .classMembers depth r
      | .classMembers =>
        isWellFormed (if b = closeBracket then .outside else .classMembers) depth r

/-! ### Choices -/

/-- The texts of a choice, divided by the commas that stand in no inner choice; `current` is the
text that has been read so far, and `depth` counts the inner choices around it. -/
def choices (depth : Int) (current : Text) : Text → List Text
  | 0x5c :: b :: r => choices depth (current ++ [0x5c, b]) r
  | b :: r =>
    if b = comma ∧ depth = 0 then current :: choices 0 [] r
    else
      let depth := if b = openBrace then depth + 1 else if b = closeBrace then depth - 1 else depth
      choices depth (current ++ [b]) r
  | [] => [current]

/-- What stands in a choice whose opening brace has been read, and what follows it; `depth` counts
the inner choices that are open. -/
def closeChoice? (depth : Nat) : Text → Option (Text × Text)
  | 0x5c :: b :: r => (closeChoice? depth r).map fun (inside, after) => (0x5c :: b :: inside, after)
  | b :: r =>
    if b = closeBrace ∧ depth = 0 then some ([], r)
    else
      let depth := if b = openBrace then depth + 1 else if b = closeBrace then depth - 1 else depth
      (closeChoice? depth r).map fun (inside, after) => (b :: inside, after)
  | [] => none

/-! ### Taking a pattern apart from its end -/

/-- The last byte with a property, with what stands before and after it. `previous` is the byte
before the text; a byte after a backslash does not count. -/
def splitLast? (p : UInt8 → Bool) (previous : UInt8) : Text → Option (Text × UInt8 × Text)
  | [] => none
  | b :: r =>
    match splitLast? p b r with
    | some (before, found, after) => some (b :: before, found, after)
    | none => if p b ∧ previous ≠ Text.backslash then some ([], b, r) else none

/-- What stands before a byte is shorter than the whole. -/
theorem length_splitLast?_lt {p : UInt8 → Bool} {previous found : UInt8} {t before after : Text}
    (h : splitLast? p previous t = some (before, found, after)) : before.length < t.length := by
  induction t generalizing previous before with
  | nil => simp [splitLast?] at h
  | cons b r ih =>
    rw [splitLast?] at h
    split at h
    · next hr => cases h; simpa using ih hr
    · split at h
      · cases h; simp
      · simp at h

/-- Looking for the opening brace of a choice from its end: found, or pending with so
many choices in between. -/
inductive Opening where
  | pending (depth : Nat)
  | found (before inside : Text)
deriving DecidableEq, Repr

/-- Looks for the brace that opens the choice which ends right after the text. -/
def opening (previous : UInt8) : Text → Opening
  | [] => .pending 0
  | b :: r =>
    match opening b r with
    | .found before inside => .found (b :: before) inside
    | .pending depth =>
      if previous = Text.backslash then .pending depth
      else if b = closeBrace then .pending (depth + 1)
      else if b = openBrace then
        match depth with
        | 0 => .found [] r
        | depth + 1 => .pending depth
      else .pending depth

/-- The parts of a pattern. -/
inductive Pattern where
  /-- A path without wildcards. -/
  | path (path : Text)
  /-- Names in a directory that has no wildcards. -/
  | within (dir names : Text)
  /-- Names in the directories that a pattern finds. -/
  | below (dirs names : Text)
  /-- A choice, with what stands before and after it. -/
  | choice (before inside after : Text)
deriving DecidableEq, Repr

namespace Pattern

/-- Names in the directory or directories that stand before a slash. -/
def under (dirs names : Text) : Pattern :=
  if hasWildcard dirs then .below dirs names else .within (unescape dirs) names

/-- The parts of the text of a pattern. A closing brace without an opening one is taken for a
name's. -/
def split (t : Text) : Pattern :=
  if !hasWildcard t then .path (unescape t)
  else
    match splitLast? (fun b => b == Text.slash || b == closeBrace) 0 t with
    | none => .within Path.here t
    | some (before, found, after) =>
      if found = Text.slash then under before after
      else
        match opening 0 before with
        | .found before inside => .choice before inside after
        | .pending _ =>
          match splitLast? (· == Text.slash) 0 before with
          | none => .within Path.here t
          | some (dirs, _, _) => under dirs (t.drop (dirs.length + 1))

/-- The directories of a pattern are a shorter pattern. -/
theorem length_lt_of_split {t dirs names : Text} (h : split t = .below dirs names) :
    dirs.length < t.length := by
  have of_under {a b : Text} (hu : under a b = .below dirs names) : a = dirs := by
    unfold under at hu
    split at hu
    · cases hu; rfl
    · simp at hu
  unfold split at h
  split at h
  · simp at h
  · split at h
    · simp at h
    · next hs =>
      have hlt := length_splitLast?_lt hs
      split at h
      · rw [← of_under h]; exact hlt
      · split at h
        · simp at h
        · split at h
          · simp at h
          · next hd =>
            rw [← of_under h]
            exact Nat.lt_trans (length_splitLast?_lt hd) hlt

end Pattern

/-- The directories in which all texts of a choice lie, and what stands between them and the
choice. -/
def commonDirectory (before : Text) : Option Text × Text :=
  match splitLast? (fun b => b == Text.slash || b == closeBrace) 0 before with
  | some (dirs, found, start) => if found = Text.slash then (some dirs, start) else (none, before)
  | none => (none, before)

/-- The pattern in which one text of a choice has been chosen, in the directory `dir`. -/
def chosen (dir start text after : Text) : Text :=
  (if dir = [] ∨ dir = Path.here then [] else escape dir ++ [Text.slash]) ++ start ++ text ++ after

end ShaderSplice.Glob
