import ShaderSplice.Text.Space

/-!
# Comments

One thing about a shader source survives the end of a line: whether a block comment is open.
`scanLine` reads one physical line from that state. It gives back the line without its comments,
how the line stands to block comments around it, and the state after it.

    state before ─┐
                  ├─ scanLine ─▶ (Scan: code, inComment, closes, opens) , state after
    line ─────────┘

A line comment hides what follows it on its line, block openers included; a block opener hides what
follows it up to the next closer, line comments included. Which of the two starts first decides.
-/

namespace ShaderSplice

/-- Starts a block comment. -/
def blockOpen : Text := Text.ofString "/*"

/-- Ends a block comment. -/
def blockClose : Text := Text.ofString "*/"

/-- Starts a comment that ends with its line. -/
def lineComment : Text := Text.ofString "//"

/-- A physical line seen without its comments. -/
structure Scan where
  /-- The line without its comments. -/
  code : Text
  /-- The whole line lies inside a block comment that was opened on an earlier line. -/
  inComment : Bool
  /-- The line starts inside a block comment, which ends on it. -/
  closes : Bool
  /-- A block comment starts on the line and does not end on it. -/
  opens : Bool
deriving DecidableEq, Repr

/-- Whether a line has no code. -/
def Scan.isBlank (s : Scan) : Bool := s.code.isSpaces

/-- What stands before the first line comment of a text. -/
def beforeLineComment (t : Text) : Text :=
  match t.cut? lineComment with
  | some (before, _) => before
  | none => t

/-- The code of a line that starts outside any comment, and whether a block comment is open at its
end. A line comment that starts before a block opener shares at most the first byte with it. -/
def stripComments (t : Text) : Text × Bool :=
  match _ : t.cut? blockOpen with
  | none => (beforeLineComment t, false)
  | some (before, after) =>
    match (before ++ [Text.slash]).cut? lineComment with
    | some (code, _) => (code, false)
    | none =>
      match _ : after.cut? blockClose with
      | none => (before, true)
      | some (_, rest) =>
        let (code, isOpen) := stripComments rest
        (before ++ code, isOpen)
termination_by t.length
decreasing_by
  exact Nat.lt_trans (Text.length_cut?_lt (by decide) ‹after.cut? blockClose = some _›)
    (Text.length_cut?_lt (by decide) ‹t.cut? blockOpen = some _›)

/-- Reads one line, given whether it starts inside a block comment, and says whether the next line
does. -/
def scanLine (inBlock : Bool) (line : Text) : Scan × Bool :=
  if inBlock then
    match line.cut? blockClose with
    | none => (⟨[], true, false, false⟩, true)
    | some (_, rest) =>
      let (code, isOpen) := stripComments rest
      (⟨code, false, true, isOpen⟩, isOpen)
  else
    let (code, isOpen) := stripComments line
    (⟨code, false, false, isOpen⟩, isOpen)

/-- Reads lines one after the other, the first from the given state. Each comes with the state
after it. -/
def scanLines (inBlock : Bool) : List Text → List (Scan × Bool)
  | [] => []
  | l :: ls =>
    let step := scanLine inBlock l
    step :: scanLines step.2 ls

end ShaderSplice
