import ShaderSplice.Text.Basic

/-!
# Paths

A path is a text whose elements are divided by slashes. `Path.clean` gives the shortest path to the
same place that can be told from the text alone: it has no empty element, no `.`, and `..` only at
its start.
-/

namespace ShaderSplice.Path

/-- The element that stands for the directory itself. -/
def here : Text := Text.ofString "."

/-- The element that stands for the directory above. -/
def above : Text := Text.ofString ".."

/-- The elements of a path, empty ones included. -/
def elements (p : Text) : List Text := p.splitOn Text.slash

/-- A path of the given elements. -/
def ofElements (es : List Text) : Text := Text.join [Text.slash] es

/-- Whether a path starts at the root of all paths. -/
def isRooted (p : Text) : Bool := p.head? == some Text.slash

/-- One more element of a path whose cleaned elements so far are `done`, last one first. -/
def cleanStep (rooted : Bool) (done : List Text) (e : Text) : List Text :=
  if e = [] ∨ e = here then done
  else if e = above then
    match done with
    | [] => if rooted then [] else [above]
    | last :: rest => if last = above then above :: last :: rest else rest
  else e :: done

/-- The elements of a path without those that lead nowhere or back. -/
def cleanElements (p : Text) : List Text :=
  ((elements p).foldl (cleanStep (isRooted p)) []).reverse

/-- The shortest path that leads to the same place. -/
def clean (p : Text) : Text :=
  let cleaned := ofElements (cleanElements p)
  if isRooted p then Text.slash :: cleaned else if cleaned = [] then here else cleaned

/-- The clean path from `a` on to `b`. -/
def join (a b : Text) : Text :=
  let parts := [a, b].filter (· ≠ [])
  if parts = [] then [] else clean (ofElements parts)

/-- The last element of a path. -/
def base (p : Text) : Text :=
  if p = [] then here
  else
    let stripped := Text.dropEndWhile (· = Text.slash) p
    if stripped = [] then [Text.slash]
    else (stripped.reverse.takeWhile (· ≠ Text.slash)).reverse

end ShaderSplice.Path
