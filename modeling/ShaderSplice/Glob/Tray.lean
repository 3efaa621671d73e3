import ShaderSplice.Text.Basic

/-!
# Trays

A search keeps the paths that it finds on a *tray*, a row of cells of which only the first ones are
taken. To find files in several directories, it first looks for the directories and puts them on
the same tray, behind the files that it has. The files then go into the cells behind the earlier
files, so that they replace directories, among them some that have not been visited yet. A tray that
is full is replaced by a bigger one, onto which the paths that count are moved; what stands on the
old one stays as it is.

`Hits` are paths on a tray, and `Progress` is what a search has come to: the tray that it began
with, as it is now, and the hits, which may have moved to another tray.
-/

namespace ShaderSplice.Glob

/-- Cells for paths. -/
structure Tray where
  /-- The cells that have been filled. -/
  cells : List Text
  /-- The number of all cells. -/
  room : Nat
deriving DecidableEq, Repr

/-- Paths in the first cells of a tray. -/
structure Hits where
  tray : Tray
  count : Nat
deriving DecidableEq, Repr

/-- What a search has come to. -/
structure Progress where
  /-- The tray that the search began with. -/
  left : Tray
  hits : Hits
deriving DecidableEq, Repr

/-- The numbers of cells that trays have, each tray being replaced by one of the next size. -/
def Tray.rooms : List Nat :=
  [1, 2, 4, 8, 16, 32, 71, 143, 303, 591, 1023, 1535, 2560, 3584, 5120, 6656, 8704, 11264, 14336,
    18432, 23552, 29696, 37376, 47104, 59392, 74752, 93696, 117760, 147456, 184832, 231424, 289792,
    362496, 453632, 567296, 709632, 887296, 1109504, 1387520, 1734656, 2168832]

/-- The number of cells of the tray that replaces one with `room` cells. -/
def Tray.nextRoom (room : Nat) : Nat := (Tray.rooms.find? (room < ·)).getD (2 * room)

namespace Hits

/-- No hits, on a tray without cells. -/
def none : Hits := ⟨⟨[], 0⟩, 0⟩

/-- The paths that have been found. -/
def toList (h : Hits) : List Text := h.tray.cells.take h.count

/-- The hits as the progress of a search that has found them where it began. -/
def start (h : Hits) : Progress := ⟨h.tray, h⟩

/-- One more hit: in the next cell, or else on a bigger tray. -/
def add (h : Hits) (path : Text) : Progress :=
  if h.count < h.tray.room then
    let tray : Tray := { h.tray with cells := h.toList ++ path :: h.tray.cells.drop (h.count + 1) }
    ⟨tray, ⟨tray, h.count + 1⟩⟩
  else ⟨h.tray, ⟨⟨h.toList ++ [path], Tray.nextRoom h.tray.room⟩, h.count + 1⟩⟩

end Hits

namespace Progress

/-- Whether the hits are on another tray than the one that the search began with. -/
def moved (p : Progress) : Bool := p.left.room != p.hits.tray.room

/-- What a search comes to that goes on from the hits at hand. -/
def andThen {ε : Type} (p : Progress) (search : Hits → Except ε Progress) : Except ε Progress := do
  let next ← search p.hits
  return if p.moved then { next with left := p.left } else next

end Progress

/-! ### Merging -/

/-- A path among others, before the first that is not smaller. -/
def insertPath (path : Text) : List Text → List Text
  | [] => [path]
  | p :: ps => if p < path then p :: insertPath path ps else path :: p :: ps

/-- Two rising runs of paths as one, and what is left over. Of two heads the smaller one is taken;
the other one is put among what is left of the second run. Of two equal heads one is dropped, and
the last path of the second run is left over in its place. -/
def mergeRuns : List Text → List Text → List Text × List Text
  | [], ys => (ys, [])
  | x :: xs, [] => (x :: xs, [])
  | x :: xs, y :: ys =>
    if x < y then
      let (merged, surplus) := mergeRuns xs (y :: ys)
      (x :: merged, surplus)
    else if y < x then
      let (merged, surplus) := mergeRuns xs (insertPath x ys)
      (y :: merged, surplus)
    else
      let last := ys.getLastD y
      if ys = [] then (x :: xs, [last])
      else
        let (merged, surplus) := mergeRuns xs ys
        (x :: merged, surplus ++ [last])

/-- The hits after those from the cell `first` on were merged with those from the cell `second`
on. -/
def Hits.merge (h : Hits) (first second : Nat) : Progress :=
  let (merged, surplus) :=
    mergeRuns ((h.toList.take second).drop first) (h.toList.drop second)
  let tray : Tray :=
    { h.tray with
      cells := h.tray.cells.take first ++ merged ++ surplus ++ h.tray.cells.drop h.count }
  ⟨tray, ⟨tray, first + merged.length⟩⟩

end ShaderSplice.Glob
