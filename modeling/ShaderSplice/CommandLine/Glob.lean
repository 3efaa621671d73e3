import ShaderSplice.Text.Basic

/-!
# Patterns in the order of the command line

Sources are processed in the order in which their patterns stand on the command line, across the
flags that give them. So all such flags share one list of patterns.
-/

namespace ShaderSplice.CommandLine

/-- A pattern, and the name of the flag that gave it. -/
structure GlobArg where
  flag : Text
  pattern : Text
deriving DecidableEq, Repr

/-- The patterns that one flag gave, with commas between them. -/
def patternsOf (args : List GlobArg) (flag : Text) : Text :=
  Text.join (Text.ofString ", ") ((args.filter (·.flag == flag)).map (·.pattern))

end ShaderSplice.CommandLine
