import ShaderSplice.Tool.Machine
import ShaderSplice.Tool.Shell.Pattern

/-!
# Fields

A word becomes any number of fields. Its parts give pieces of text; the pieces that come from a
parameter or a command outside quotes are split at the bytes of a separator list, and each field
that is a pattern becomes the files that it finds.

    pieces ──split──▶ fields of glyphs ──filesFor──▶ texts
-/

namespace ShaderSplice.Tool.Shell

/-- What a part of a word becomes. -/
inductive Piece where
  /-- Glyphs, and whether they may be split. -/
  | glyphs (gs : List Glyph) (splits : Bool)
  /-- The place of quotes, which make a field also where they hold nothing. -/
  | mark
  /-- The end of a field. -/
  | gap
deriving DecidableEq, Repr

/-- The text of pieces that make up one field. -/
def joinPieces (ps : List Piece) : List Glyph :=
  ps.flatMap fun p =>
    match p with
    | .glyphs gs _ => gs
    | .mark | .gap => []

/-! ### Splitting -/

/-- The separators, unless a script says otherwise. -/
def defaultSeparators : Text := [0x20, 0x09, 0x0a]

/-- Whether a separator is white space, of which a run counts once. -/
def isSpaceSeparator (b : UInt8) : Bool := b ∈ defaultSeparators

/-- What has been passed right after a field. -/
inductive Passed where
  | nothing
  /-- White space, after which one other separator does not count. -/
  | space
  /-- A separator that is no white space. -/
  | separator
deriving DecidableEq, Repr

/-- What splitting has come to: the finished fields, last one first, and the field that is being
put together, if anything of it has been seen. -/
structure Splitting where
  done : List (List Glyph)
  current : Option (List Glyph)
  passed : Passed
deriving DecidableEq, Repr

namespace Splitting

/-- Ends a field. -/
def finish (s : Splitting) (passed : Passed) : Splitting :=
  ⟨(s.current.getD []).reverse :: s.done, none, passed⟩

/-- One more glyph, which belongs to a field. -/
def add (s : Splitting) (g : Glyph) : Splitting :=
  { s with current := some (g :: s.current.getD []), passed := .nothing }

/-- One more glyph that may be a separator. -/
def step (separators : Text) (s : Splitting) (g : Glyph) : Splitting :=
  if !separators.contains g.byte then s.add g
  else
    let isSpace := isSpaceSeparator g.byte
    match s.passed with
    | .space => if isSpace then s else { s with passed := .separator }
    | .separator => if isSpace then s else s.finish .separator
    | .nothing =>
      if s.current.isNone && isSpace then s
      else s.finish (if isSpace then .space else .separator)

/-- One more piece. -/
def piece (separators : Text) (s : Splitting) (p : Piece) : Splitting :=
  match p with
  | .mark => { s with current := some (s.current.getD []), passed := .nothing }
  | .gap => if s.current.isSome then s.finish .nothing else s
  | .glyphs gs false => gs.foldl add s
  | .glyphs gs true => { gs.foldl (step separators) s with passed := .nothing }

end Splitting

/-- The fields that pieces make up. -/
def split (separators : Text) (ps : List Piece) : List (List Glyph) :=
  let s := ps.foldl (Splitting.piece separators) ⟨[], none, .nothing⟩
  ((s.current.map List.reverse).toList ++ s.done).reverse

/-! ### Files -/

/-- The elements of a pattern for paths. -/
def patternElements (gs : List Glyph) : List (List Glyph) :=
  let (last, done) := gs.foldr (fun g (current, done) =>
    if g.byte = Text.slash then (([] : List Glyph), current :: done) else (g :: current, done))
    (([] : List Glyph), ([] : List (List Glyph)))
  last :: done

/-- The names in a directory that an element of a pattern finds. A dot at the start of a name has
to be written. -/
def namesFor (m : Machine) (l : Location) (element : List Glyph) : List Text :=
  let names := (m.tree.entries l).map (·.1)
  let dotted := element.head?.any fun g => g.byte = 0x2e
  let candidates :=
    if dotted then
      Path.here :: Path.above :: names.filter fun n => n.head? = some 0x2e
    else names.filter fun n => n.head? ≠ some 0x2e
  candidates.filter (fits (matchers element.length element))

/-- The paths that the elements of a pattern find. `path` leads to where they start. -/
def pathsFrom (m : Machine) (directory : Location) : Text → List (List Glyph) → List Text
  | path, [] => [path]
  | path, element :: rest =>
    let start := if path = [] then Path.here else path
    let names :=
      if isPattern element then
        match m.resolve directory start with
        | .ok l => namesFor m l element
        | .error _ => []
      else [textOf element]
    names.flatMap fun name =>
      let found := path ++ name
      if rest = [] then
        if (m.find directory (if found = [] then start else found)).isOk then [found] else []
      else
        match m.find directory (if found = [] then [Text.slash] else found) with
        | .ok (.node .directory) => pathsFrom m directory (found ++ [Text.slash]) rest
        | _ => []

/-- The texts that a field stands for: the files that it finds if it is a pattern that finds any,
or the field itself. -/
def filesFor (m : Machine) (directory : Location) (gs : List Glyph) : List Text :=
  let pattern := withoutBackslashes gs
  if isPattern pattern then
    match (pathsFrom m directory [] (patternElements pattern)).mergeSort (· ≤ ·) with
    | [] => [textOf gs]
    | paths => paths
  else [textOf gs]

end ShaderSplice.Tool.Shell
