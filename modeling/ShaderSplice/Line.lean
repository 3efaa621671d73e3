import ShaderSplice.Text.Basic

/-!
# Physical lines

`lines` cuts a text into its physical lines and `unlines` writes lines back, each with a newline
after it. A newline at the very end of a text ends its last line and does not start another, and
one carriage return before a newline, or before the end of the text, belongs to the line end.
-/

namespace ShaderSplice

/-- `ls` without its last member, if that is empty. -/
def dropEmptyLast (ls : List Text) : List Text :=
  if ls.getLast? = some [] then ls.dropLast else ls

/-- A line without one carriage return at its end. -/
def dropCarriageReturn (l : Text) : Text :=
  if l.getLast? = some Text.carriageReturn then l.dropLast else l

/-- The physical lines of a text. -/
def lines (t : Text) : List Text :=
  (dropEmptyLast (t.splitOn Text.newline)).map dropCarriageReturn

/-- A text of the given lines. -/
def unlines (ls : List Text) : Text := ls.flatMap (· ++ [Text.newline])

end ShaderSplice
