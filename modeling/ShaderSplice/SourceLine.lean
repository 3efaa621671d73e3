import ShaderSplice.Line
import ShaderSplice.Comment
import ShaderSplice.Directive

/-!
# Source lines

What a file contributes to an assembly depends on that file alone: its lines, read with comments
stripped, and the role that each line plays. Where the file is included, and with which version,
comes later.

    text ──lines──▶ physical lines ──scanLine──▶ code ──Role.of──▶ role

The first line with code may declare the version of the whole tree (`Role.lead`). Every line whose
code is an include directive is a place where another file is spliced in (`Role.splice`).
-/

namespace ShaderSplice

/-- What a physical line means to the assembler. -/
inductive Role where
  /-- No code: a blank line, or one inside a comment. -/
  | silent
  /-- The first code of its file, which declares a version. -/
  | lead (version : Text)
  /-- An include directive. -/
  | splice (target : Text)
  /-- Any other code, which may declare a version again. -/
  | ordinary (redeclares : Bool)
deriving DecidableEq, Repr

/-- The role of a line, given whether a line before it has code. -/
def Role.of (started : Bool) (scan : Scan) : Role :=
  if scan.inComment || scan.isBlank then .silent
  else
    match declaredVersion? scan.code with
    | some version => if started then .ordinary true else .lead version
    | none =>
      match includeTarget? scan.code with
      | some target => .splice target
      | none => .ordinary false

/-- A physical line of a file, read in its place. -/
structure SourceLine where
  /-- The number of the line in its file; the first line has number 1. -/
  number : Nat
  /-- The line as it stands. -/
  raw : Text
  /-- The line without its comments. -/
  scan : Scan
  role : Role
  /-- Whether a block comment is open after the line. -/
  openAfter : Bool
deriving DecidableEq, Repr

/-- The source lines of `ls`, of which the first has the given number; `inBlock` tells whether it
starts inside a block comment, and `started` whether a line before it has code. -/
def sourceLinesFrom (number : Nat) (inBlock started : Bool) : List Text → List SourceLine
  | [] => []
  | raw :: ls =>
    let (scan, openAfter) := scanLine inBlock raw
    let role := Role.of started scan
    ⟨number, raw, scan, role, openAfter⟩ ::
      sourceLinesFrom (number + 1) openAfter (started || role != .silent) ls

/-- The source lines of a file with the given text. -/
def sourceLines (text : Text) : List SourceLine := sourceLinesFrom 1 false false (lines text)

/-- The version that a line declares as the first code of its file. -/
def SourceLine.leadVersion? (l : SourceLine) : Option Text :=
  match l.role with
  | .lead version => some version
  | _ => none

/-- The include target that a line names. -/
def SourceLine.target? (l : SourceLine) : Option Text :=
  match l.role with
  | .splice target => some target
  | _ => none

/-- The version that a file declares by its first code. -/
def leadVersion? (ls : List SourceLine) : Option Text := ls.findSome? SourceLine.leadVersion?

/-- The include targets that a file names, in the order of its lines. -/
def targets (ls : List SourceLine) : List Text := ls.filterMap SourceLine.target?

/-- Whether a file ends inside a block comment. -/
def endsOpen (ls : List SourceLine) : Bool := ls.getLast?.any SourceLine.openAfter

end ShaderSplice
