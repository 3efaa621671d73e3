import ShaderSplice.Glob.Search

/-!
# Finding files by pattern

`FileTree.glob` gives the paths of the files that a pattern matches. The pattern is cleaned first.
Its leading elements without wildcards name a directory, and the rest is followed from there.
Directories are never found, with one exception: a pattern that comes down to the working directory
or one above it finds that directory, which cannot be read.

What a pattern matches is not the program's own rule but that of a general library for patterns.
Whatever looks for files takes a `Disk`, and no theorem rests on what a pattern finds on this one.
-/

namespace ShaderSplice

namespace Glob

/-- A text that is no pattern. -/
structure BadPattern where
  pattern : Text
deriving DecidableEq, Repr

/-- What is said about a text that is no pattern. -/
def BadPattern.reason (_ : BadPattern) : Text := Text.ofString "syntax error in pattern"

/-- What stands before and after the last slash before any wildcard. -/
def splitBase? : Text → Option (Text × Text)
  | 0x5c :: b :: r => (splitBase? r).map fun (base, rest) => (0x5c :: b :: base, rest)
  | b :: r =>
    if isWildcard b then none
    else
      match splitBase? r with
      | some (base, rest) => some (b :: base, rest)
      | none => if b = Text.slash then some ([], r) else none
  | [] => none

/-- The directory that a clean pattern starts in, and the pattern from there on. -/
def splitBase (p : Text) : Text × Text :=
  match splitBase? p with
  | some ([], rest) => ([Text.slash], rest)
  | some (base, rest) => (unescape base, rest)
  | none => (Path.here, p)

end Glob

namespace FileTree

/-- The paths of the files that a pattern matches. -/
def glob (t : FileTree) (pattern : Text) : Except Glob.BadPattern (List Text) :=
  if pattern = [] then .ok []
  else
    let p := Path.clean pattern
    let (base, rest) := Glob.splitBase p
    if rest ∈ [[], Path.here, Path.above] then
      if Glob.isWellFormed .outside 0 p then
        let path := Glob.unescape p
        .ok (if (t.stat path).toOption.isSome then [path] else [])
      else .error ⟨pattern⟩
    else if Glob.isWellFormed .outside 0 rest then
      match (Glob.Ground.mk t base).files rest with
      | .ok paths => .ok (paths.map (Path.join base))
      | .error _ => .error ⟨pattern⟩
    else .error ⟨pattern⟩

end FileTree
end ShaderSplice
