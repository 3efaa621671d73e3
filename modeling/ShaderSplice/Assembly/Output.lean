import ShaderSplice.Assembly.Walk
import ShaderSplice.Registry

/-!
# The lines of an assembly

A walked body is written as a list of output lines. They are symbolic: a line copied from a file
knows the file and its number there, and a marker names a file and not yet its id. A registry turns
them into text at the very end (`OutputLine.render`).

    Body ──emit──▶ List OutputLine ──render──▶ List Text

Each file, however deep it lies, is framed in the same way: a marker that tells where its first
line comes from, and then its lines without the white space at their end. With line information
kept, a marker after each spliced file leads back, and *seams* close and reopen the block comments
that stood around an include directive or a version declaration, so that each file starts and ends
outside a comment.
-/

namespace ShaderSplice

/-- What becomes of the lines of the sources. -/
inductive LineMode where
  /-- Comments and blank lines stay, and markers keep the numbering of each file. -/
  | keep
  /-- Only code stays, and a file is not resumed by a marker. -/
  | discard
deriving DecidableEq, Repr

/-- A file of an assembly. -/
inductive FileRef where
  | top
  | included (name : Text)
deriving DecidableEq, Repr

/-- A line of an assembly. -/
inductive OutputLine where
  /-- The version declaration at the top. -/
  | version (v : Text)
  /-- The next line is line `line` of `file`. -/
  | marker (line : Nat) (file : FileRef)
  /-- A line with the given text, which comes from line `number` of `file`. -/
  | copy (file : FileRef) (number : Nat) (text : Text)
  /-- Comment delimiters that stand for a line which is not copied. -/
  | seam (closes opens : Bool)
deriving DecidableEq, Repr

/-- The delimiters of a seam. -/
def seamText : (closes opens : Bool) → Text
  | true, true => Text.ofString "*/ /*"
  | true, false => Text.ofString "*/"
  | false, true => Text.ofString "/*"
  | false, false => []

/-! ### White space at the end -/

/-- An output line without white space at its end, unless nothing is left of it. -/
def OutputLine.trimEnd? : OutputLine → Option OutputLine
  | .copy file number text =>
    if text.isSpaces then none else some (.copy file number text.trimEnd)
  | .seam false false => none
  | line => some line

/-- Output lines without the white space at their end. -/
def trimLines : List OutputLine → List OutputLine
  | [] => []
  | l :: ls =>
    match trimLines ls with
    | [] => l.trimEnd?.toList
    | rest => l :: rest

/-! ### Writing a body -/

namespace SourceLine

/-- What is written for a line of `file` that is no include directive. A version declaration moves
to the top of the assembly; a seam takes its place unless the numbering can do without it. -/
def output (mode : LineMode) (file : FileRef) (l : SourceLine) : List OutputLine :=
  match mode, l.role with
  | .keep, .lead _ =>
    if l.number = 1 ∧ ¬ l.openAfter then [] else [.seam l.scan.closes l.scan.opens]
  | .keep, _ => [.copy file l.number l.raw]
  | .discard, .ordinary redeclares =>
    if redeclares ∧ file ≠ .top then [] else [.copy file l.number l.scan.code]
  | .discard, _ => []

/-- What is written before the file that an include directive names. -/
def beforeSplice (mode : LineMode) (l : SourceLine) : List OutputLine :=
  match mode with
  | .keep => if l.scan.closes then [.seam true false] else []
  | .discard => []

/-- What leads from an included file back to the directive's own file. A comment that was opened
on the directive's line is opened again on that line. -/
def afterSplice (mode : LineMode) (file : FileRef) (l : SourceLine) : List OutputLine :=
  match mode with
  | .keep =>
    if l.openAfter then [.marker l.number file, .seam false true]
    else [.marker (l.number + 1) file]
  | .discard => []

end SourceLine

/-- The number of the line that is written first for a file: its version declaration may leave
nothing behind. -/
def firstLine (mode : LineMode) (file : FileRef) (ls : List SourceLine) : Nat :=
  if ls.any fun l => l.leadVersion?.isSome && (l.output mode file).isEmpty then 2 else 1

/-- What closes the comment in which an included file ends. -/
def closing (mode : LineMode) (file : FileRef) (ls : List SourceLine) : List OutputLine :=
  if mode = .keep ∧ file ≠ .top ∧ endsOpen ls then [.seam true false] else []

/-- The lines written for a file with source lines `ls`, of which `inner` is written. -/
def frame (mode : LineMode) (file : FileRef) (ls : List SourceLine) (inner : List OutputLine) :
    List OutputLine :=
  .marker (firstLine mode file ls) file :: trimLines (inner ++ closing mode file ls)

/-- The lines written for the body of `file`, without the frame around them. -/
def Body.emit (mode : LineMode) (file : FileRef) : Body → List OutputLine
  | .nil => []
  | .keep l rest => l.output mode file ++ rest.emit mode file
  | .splice l target child rest =>
    l.beforeSplice mode ++
      frame mode (.included target) child.lines (child.emit mode (.included target)) ++
      l.afterSplice mode file ++ rest.emit mode file

/-- The lines of the assembly of a top-level source. -/
def Body.assembly (mode : LineMode) (version : Text) (body : Body) : List OutputLine :=
  .version version :: frame mode .top body.lines (body.emit mode .top)

/-! ### From output lines to text -/

/-- The id by which markers refer to a file. -/
def Registry.idOf (r : Registry) : FileRef → FileId
  | .top => topLevelId
  | .included name => (r.find? name).getD topLevelId

/-- The text of an output line, once each file has an id. -/
def OutputLine.render (idOf : FileRef → FileId) : OutputLine → Text
  | .version v => Text.ofString "#version " ++ v
  | .marker line file =>
    Text.ofString "#line " ++ Text.ofNat line ++ Text.ofString " " ++ Text.ofNat (idOf file).toNat
  | .copy _ _ text => text
  | .seam closes opens => seamText closes opens

/-- The text of an assembly: its lines, with a newline between two of them. -/
def render (idOf : FileRef → FileId) (ls : List OutputLine) : Text :=
  Text.join [Text.newline] (ls.map (·.render idOf))

end ShaderSplice
