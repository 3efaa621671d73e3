import ShaderSplice.FileTree
import ShaderSplice.Glob.Name
import ShaderSplice.Glob.Tray

/-!
# Following a pattern

There are two ways to follow a pattern through a tree. `walk` collects what it finds in lists. It is
taken for patterns with two stars before their end, which lead to many directories. `search` keeps
everything on trays (see `Tray`), so what it finds can come twice, or be lost, where a choice or a
directory with wildcards is followed after other paths have been found.

Both take a pattern apart with `Pattern.split`, and both make the choices of a pattern one by one:
`choiceCount` bounds how many are left.
-/

namespace ShaderSplice.Glob

/-- Where a pattern is followed: below a directory of a tree. -/
structure Ground where
  tree : FileTree
  base : Text
deriving DecidableEq, Repr

namespace Ground

/-- Whether a path leads down from the ground, element by element. -/
def isInside (path : Text) : Bool :=
  path.isUtf8 && (path == Path.here || (Path.elements path).all fun e =>
    e ≠ [] ∧ e ≠ Path.here ∧ e ≠ Path.above)

/-- The path from the working directory to what lies at a path. -/
def full (g : Ground) (path : Text) : Text := g.base ++ Text.slash :: path

/-- What lies at a path. -/
def find? (g : Ground) (path : Text) : Option Node :=
  if isInside path then (g.tree.stat (g.full path)).toOption else none

/-- What lies at a path, which may end with a slash. -/
def findAt? (g : Ground) (path : Text) : Option Node :=
  g.find? (if 1 < path.length ∧ path.getLast? = some Text.slash then path.dropLast else path)

/-- The names in a directory and what lies there. There are none in what is no directory. -/
def entries (g : Ground) (dir : Text) : List (Text × Node) :=
  match g.find? dir, g.tree.resolve (g.full dir) with
  | some .directory, .ok location => g.tree.entries location
  | _, _ => []

/-- All paths below a directory and what lies there; `depth` bounds how far down they lead. -/
def below (g : Ground) (depth : Nat) (dir : Text) : List (Text × Node) :=
  match depth with
  | 0 => []
  | depth + 1 =>
    (g.entries dir).flatMap fun (name, n) =>
      let path := Path.join dir name
      (path, n) :: if n = .directory then g.below depth path else []

/-- The paths below a directory to files, or else to directories. -/
def under (g : Ground) (files : Bool) (dir : Text) : List Text :=
  ((g.below (g.tree.nodes.length + 1) dir).filter fun (_, n) => (n ≠ .directory) = files).map (·.1)

/-- The path itself, if there is a file, or else anything, at it. -/
def pathIf (g : Ground) (files : Bool) (path : Text) : List Text :=
  match g.findAt? path with
  | some n => if files ∧ n = .directory then [] else [path]
  | none => []

/-- The directory itself, if directories are looked for. -/
def itself (g : Ground) (files : Bool) (dir : Text) : List Text :=
  if !files ∧ g.findAt? dir = some .directory then [dir] else []

/-- The paths to the files, or else the directories, in a directory whose names a pattern
matches. -/
def named (g : Ground) (files : Bool) (dir names : Text) : Except Malformed (List Text) := do
  let found ← (g.entries dir).filterM fun (name, n) => do
    return (← matchName names name) && ((n ≠ .directory) = files : Bool)
  return found.map fun (name, _) => Path.join dir name

end Ground

/-- The element that stands for any number of elements. -/
def twoStars : Text := [starMark, starMark]

/-! ### Walking -/

/-- What a walk finds in one directory. -/
def walkIn (g : Ground) (files : Bool) (names dir : Text) : Except Malformed (List Text) :=
  if names = [] then .ok (g.itself files dir)
  else if names = twoStars then
    .ok (if g.findAt? dir = some .directory then g.itself files dir ++ g.under files dir else [])
  else g.named files dir names

/-- A path among others in rising order, unless it is one of them. -/
def insertNew (paths : List Text) (path : Text) : List Text :=
  if path ∈ paths then paths else insertPath path paths

/-- What `f` finds for each of some texts, one after the other. -/
def gather (f : Text → Except Malformed (List Text)) (texts : List Text) :
    Except Malformed (List Text) := do
  return (← texts.mapM f).flatten

/-- The texts of a choice that are followed. An empty last one is not. -/
def followed (inside : Text) : List Text :=
  let texts := choices 0 [] inside
  if texts.getLast? = some [] then texts.dropLast else texts

/-- The paths to the files, or else the directories, that a pattern leads to. -/
def walk (g : Ground) (choiceCount : Nat) (files : Bool) (pattern : Text) :
    Except Malformed (List Text) :=
  match _ : Pattern.split pattern with
  | .path path => .ok (g.pathIf files path)
  | .within dir names => walkIn g files names dir
  | .below dirs names => do gather (walkIn g files names) (← walk g choiceCount false dirs)
  | .choice before inside after =>
    match choiceCount with
    | 0 => .ok []
    | choiceCount + 1 => do
      let (common, start) := commonDirectory before
      let dirs ←
        match common with
        | none => .ok [[]]
        | some dirs => walk g choiceCount false dirs
      let found ← gather (fun dir =>
        gather (fun text => walk g choiceCount files (chosen dir start text after))
          (followed inside)) dirs
      return found.foldl insertNew []
termination_by (choiceCount, pattern.length)
decreasing_by
  · exact Prod.Lex.right _ (Pattern.length_lt_of_split ‹Pattern.split pattern = .below dirs names›)
  · exact Prod.Lex.left _ _ (Nat.lt_succ_self _)
  · exact Prod.Lex.left _ _ (Nat.lt_succ_self _)

/-! ### Searching on trays -/

/-- What a search finds in one directory. Two stars find no directories. -/
def searchIn (g : Ground) (files : Bool) (names dir : Text) : Except Malformed (List Text) :=
  if names = [] then .ok (g.itself files dir)
  else if names = twoStars then .ok (if files then g.under files dir else [])
  else g.named files dir names

/-- More hits, one after the other. -/
def Hits.addAll (h : Hits) (paths : List Text) : Progress :=
  paths.foldl (fun p path =>
    let next := p.hits.add path
    if p.moved then { next with left := p.left } else next) h.start

/-- Goes through the directories that a search has found from the hits at hand, of which there were
`count`. While the directories are on the tray that it began with, they are read off that tray as it
is by then. -/
def visit (found : Progress) (count : Nat) (f : Text → Hits → Except Malformed Progress) :
    Except Malformed Progress :=
  (List.range found.hits.count).foldlM (fun p i =>
    let tray := if found.moved then found.hits.tray else p.left
    p.andThen (f (tray.cells.getD i []))) ⟨found.left, ⟨found.left, count⟩⟩

/-- Follows the texts of a choice one after the other. What one of them finds is merged with what
those before it have found. -/
def followEach (f : Text → Hits → Except Malformed Progress) (texts : List Text) (hits : Hits) :
    Except Malformed Progress :=
  texts.foldlM (fun p text => do
    let next ← p.andThen (f text)
    let (first, second, count) := (hits.count, p.hits.count, next.hits.count)
    if first ≠ second ∧ second ≠ count then next.andThen fun h => .ok (h.merge first second)
    else .ok next) hits.start

/-- Adds the paths to the files, or else the directories, that a pattern leads to. -/
def search (g : Ground) (choiceCount : Nat) (files : Bool) (pattern : Text) (hits : Hits) :
    Except Malformed Progress :=
  match _ : Pattern.split pattern with
  | .path path => .ok (hits.addAll (g.pathIf files path))
  | .within dir names => return hits.addAll (← searchIn g files names dir)
  | .below dirs names => do
    let found ← search g choiceCount false dirs hits
    visit found hits.count fun dir hits => return hits.addAll (← searchIn g files names dir)
  | .choice before inside after =>
    match choiceCount with
    | 0 => .ok hits.start
    | choiceCount + 1 => do
      let (common, start) := commonDirectory before
      let follow (dir : Text) : Hits → Except Malformed Progress :=
        followEach (fun text => search g choiceCount files (chosen dir start text after))
          (followed inside)
      match common with
      | none => follow [] hits
      | some dirs => do
        let found ← search g choiceCount false dirs hits
        visit found hits.count follow
termination_by (choiceCount, pattern.length)
decreasing_by
  · exact Prod.Lex.right _ (Pattern.length_lt_of_split ‹Pattern.split pattern = .below dirs names›)
  · exact Prod.Lex.left _ _ (Nat.lt_succ_self _)
  · exact Prod.Lex.left _ _ (Nat.lt_succ_self _)

/-- The paths to the files that a pattern leads to. -/
def Ground.files (g : Ground) (pattern : Text) : Except Malformed (List Text) :=
  let choiceCount := pattern.count closeBrace
  if hasInnerStars pattern then walk g choiceCount true pattern
  else return (← search g choiceCount true pattern .none).hits.toList

end ShaderSplice.Glob
