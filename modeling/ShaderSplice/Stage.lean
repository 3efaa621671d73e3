import ShaderSplice.Text.Basic

/-!
# Shader stages

The stage of a top-level source decides whether an optimizer command sees it. It comes from the
caller or from the extension of the file. Three stages have a name of their own; any other code is
accepted, and is not the stage `unknown` although it shares its name.
-/

namespace ShaderSplice

/-- The pipeline stage that a source is written for. -/
inductive Stage where
  | unknown
  | vertex
  | fragment
  /-- A stage that only has a number. -/
  | unlisted (code : Int)
deriving DecidableEq, Repr

namespace Stage

/-- The stage with a given number. -/
def ofCode (code : Int) : Stage :=
  if code = 0 then .unknown
  else if code = 1 then .vertex
  else if code = 2 then .fragment
  else .unlisted code

/-- The name of a stage. -/
def name : Stage → Text
  | .vertex => Text.ofString "vertex"
  | .fragment => Text.ofString "fragment"
  | .unknown | .unlisted _ => Text.ofString "unknown"

/-- The extension of a path: its last element from the last dot on. -/
def extension (path : Text) : Text :=
  let element := path.reverse.takeWhile (· ≠ Text.slash)
  if element.contains 0x2e then (element.takeWhile (· ≠ 0x2e)).reverse.cons 0x2e else []

/-- The stage that a path tells by its extension, in either case of letters. -/
def ofPath (path : Text) : Stage :=
  let ext := (extension path).toLower
  if ext = Text.ofString ".vert" then .vertex
  else if ext = Text.ofString ".frag" then .fragment
  else .unknown

end Stage
end ShaderSplice
