import ShaderSplice.Path

/-!
# File trees

A build reads and writes files under a working directory. A `FileTree` is what lies there: files
with their texts, and directories. A *location* is the list of elements that leads from the working
directory to a file or directory; it starts with `..` as often as it leads above, and has none after
that. Every such run of `..` is a directory, of which nothing more is known.

The operations are those of an operating system, with its errors: `read`, `write` and `makeAll`.

A location stands for one place, and different locations stand for different places. This assumes
three things of the files:

* There are no links.
* Names that differ in the case of their letters are different names.
* A path that climbs out of the working directory does not come back into it: `..` followed by the
  working directory's own name, or a path from the root down to it, leads to another place.
-/

namespace ShaderSplice

/-- A place in a tree, seen from the working directory. -/
abbrev Location := List Text

/-- What can be found at a location. -/
inductive Node where
  | directory
  | file (text : Text)
deriving DecidableEq, Repr

/-- What an operating system says when it cannot do what it is told. -/
inductive Errno where
  | noEntry
  | exists
  | notDirectory
  | isDirectory
  | invalid
  | nameTooLong
  | permission
  | badDescriptor
deriving DecidableEq, Repr

/-- The wording of an operating system's error. -/
def Errno.message : Errno → Text
  | .noEntry => Text.ofString "no such file or directory"
  | .exists => Text.ofString "file exists"
  | .notDirectory => Text.ofString "not a directory"
  | .isDirectory => Text.ofString "is a directory"
  | .invalid => Text.ofString "invalid argument"
  | .nameTooLong => Text.ofString "file name too long"
  | .permission => Text.ofString "permission denied"
  | .badDescriptor => Text.ofString "bad file descriptor"

/-- An operation on a path that failed. -/
structure PathError where
  operation : String
  path : Text
  cause : Errno
deriving DecidableEq, Repr

/-- What is said about an operation on a path that failed. -/
def PathError.message (e : PathError) : Text :=
  Text.ofString e.operation ++ Text.ofString " " ++ e.path ++ Text.ofString ": " ++ e.cause.message

/-- Files and directories by their locations. -/
structure FileTree where
  nodes : List (Location × Node)
deriving DecidableEq, Repr

namespace FileTree

/-- A tree without files. -/
def empty : FileTree := ⟨[]⟩

instance : EmptyCollection FileTree := ⟨empty⟩
instance : Inhabited FileTree := ⟨empty⟩

/-- What lies at a location. The working directory, and what lies above it, are directories. -/
def find? (t : FileTree) (l : Location) : Option Node :=
  if l.all (· = Path.above) ∨ l = [[]] then some .directory else t.nodes.lookup l

/-- The tree with `n` at the location `l`. -/
def insert (t : FileTree) (l : Location) (n : Node) : FileTree :=
  ⟨(l, n) :: t.nodes.filter (·.1 ≠ l)⟩

/-- The tree with all directories that lead to `l`. -/
def insertParents (t : FileTree) (l : Location) : FileTree :=
  (List.range l.length).foldl (fun t n =>
    let parent := l.take n
    if (t.find? parent).isSome then t else t.insert parent .directory) t

/-- The tree of the given files; a path that ends in a slash is an empty directory. The directories
on the way to a file are made. -/
def ofList (files : List (Text × Text)) : FileTree :=
  files.foldl (fun t (path, text) =>
    let l := Path.cleanElements path
    let t := t.insertParents l
    if path.getLast? = some Text.slash then
      if (t.find? l).isSome then t else t.insert l .directory
    else t.insert l (.file text)) ∅

/-! ### Finding one's way -/

/-- The location that one element leads to from a directory. Above the root is the root. -/
def stepTo (l : Location) (e : Text) : Location :=
  if e = [] ∨ e = Path.here then l
  else if e = Path.above then
    match l.getLast? with
    | some last =>
      if last = [] then l else if last = Path.above then l ++ [Path.above] else l.dropLast
    | none => [Path.above]
  else l ++ [e]

/-- The location that elements lead to from `l`. Each step starts at a directory. -/
def resolveFrom (t : FileTree) (l : Location) : List Text → Except Errno Location
  | [] => .ok l
  | e :: es =>
    match t.find? l with
    | none => .error .noEntry
    | some (.file _) => .error .notDirectory
    | some .directory =>
      if 255 < e.length then .error .nameTooLong else t.resolveFrom (stepTo l e) es

/-- The location that a path leads to, of which all but the last element must be directories. -/
def resolve (t : FileTree) (path : Text) : Except Errno Location :=
  if path = [] then .error .noEntry
  else if path.contains 0 then .error .invalid
  else if Path.isRooted path then t.resolveFrom [[]] (Path.elements path).tail
  else t.resolveFrom [] (Path.elements path)

/-- What lies at a path. -/
def stat (t : FileTree) (path : Text) : Except Errno Node := do
  match t.find? (← t.resolve path) with
  | some n => return n
  | none => .error .noEntry

/-! ### Reading and writing -/

/-- The text of the file at a path. -/
def read (t : FileTree) (path : Text) : Except PathError Text :=
  match t.stat path with
  | .ok (.file text) => .ok text
  | .ok .directory => .error ⟨"read", path, .isDirectory⟩
  | .error e => .error ⟨"open", path, e⟩

/-- The tree after `text` was written to the file at `path`, which is made if need be. -/
def write (t : FileTree) (path text : Text) : Except PathError FileTree :=
  match t.resolve path with
  | .error e => .error ⟨"open", path, e⟩
  | .ok l =>
    match t.find? l with
    | some .directory => .error ⟨"open", path, .isDirectory⟩
    | some (.file _) => .ok (t.insert l (.file text))
    | none =>
      match t.find? l.dropLast with
      | some .directory => .ok (t.insert l (.file text))
      | some (.file _) => .error ⟨"open", path, .notDirectory⟩
      | none => .error ⟨"open", path, .noEntry⟩

/-- The tree after the directory at `path` was made. -/
def makeDirectory (t : FileTree) (path : Text) : Except PathError FileTree :=
  let stripped := Text.dropEndWhile (· = Text.slash) path
  match t.resolve (if stripped = [] then path else stripped) with
  | .error e => .error ⟨"mkdir", path, e⟩
  | .ok l =>
    if (t.find? l).isSome then .error ⟨"mkdir", path, .exists⟩
    else .ok (t.insert l .directory)

/-- The path of the directory in which a path's last element lies, if the path names one. -/
def parent? (path : Text) : Option Text :=
  let upToElement :=
    (path.reverse.dropWhile (· = Text.slash)).dropWhile (· ≠ Text.slash)
  if 1 < upToElement.length then some upToElement.tail.reverse else none

/-- The parent of a path is shorter. -/
theorem length_parent?_lt {path p : Text} (h : parent? path = some p) :
    p.length < path.length := by
  simp only [parent?] at h
  split at h
  · next hlen =>
    cases h
    have h₁ := (List.dropWhile_sublist (l := path.reverse) (· = Text.slash)).length_le
    have h₂ := (List.dropWhile_sublist
      (l := path.reverse.dropWhile (· = Text.slash)) (· ≠ Text.slash)).length_le
    simp only [List.length_reverse, List.length_tail] at h₁ h₂ hlen ⊢
    omega
  · simp at h

/-- The tree after the directory at `path` was made, with all directories on the way to it. What
was made before something failed stays. -/
def makeAll (t : FileTree) (path : Text) : FileTree × Except PathError Unit :=
  match t.stat path with
  | .ok .directory => (t, .ok ())
  | .ok (.file _) => (t, .error ⟨"mkdir", path, .notDirectory⟩)
  | .error _ =>
    let (t, above) : FileTree × Except PathError Unit :=
      match _ : parent? path with
      | some p => t.makeAll p
      | none => (t, .ok ())
    match above with
    | .error e => (t, .error e)
    | .ok () =>
      match t.makeDirectory path with
      | .ok t => (t, .ok ())
      | .error e =>
        match t.stat path with
        | .ok .directory => (t, .ok ())
        | _ => (t, .error e)
termination_by path.length
decreasing_by exact length_parent?_lt ‹parent? path = some p›

/-! ### Listing -/

/-- The names in a directory and what lies there, in the order of the names. -/
def entries (t : FileTree) (dir : Location) : List (Text × Node) :=
  let found := t.nodes.filterMap fun (l, n) =>
    match dir.isPrefixOf? l with
    | some [name] => if name = Path.above then none else some (name, n)
    | _ => none
  found.mergeSort fun a b => a.1 ≤ b.1

/-- What was made or changed between two trees, each directory with a slash after its path, in the
order of the paths. -/
def changes (before after : FileTree) : List (Text × Node) :=
  let changed := after.nodes.filter fun (l, n) =>
    before.nodes.lookup l != some n && l.head? != some Path.above && l.head? != some []
  let named := changed.map fun (l, n) =>
    (Path.ofElements l ++ (if n = .directory then [Text.slash] else []), n)
  named.mergeSort fun a b => a.1 ≤ b.1

end FileTree
end ShaderSplice
