import ShaderSplice.Text.Quoted

/-!
# Why an assembly fails

A failure is one of three causes, found in some file, and the chain of includes that leads from the
top-level source to that file.
-/

namespace ShaderSplice

/-- What is wrong at the place where an assembly stops. -/
inductive Cause where
  /-- `source` includes `target`, which is being expanded already; `path` is the chain of includes
  from the top level, ending with `target`. -/
  | cycle (source target : Text) (path : List Text)
  /-- `source` includes `target`, which the table does not have. -/
  | missing (source target : Text)
  /-- The include `file` declares the version `found` in a tree of another version. -/
  | mismatch (file found inherited : Text)
deriving DecidableEq, Repr

/-- What is said about a cause. -/
def Cause.message : Cause → Text
  | .cycle source target path =>
    Text.ofString "recursive inclusion of " ++ target.quote ++ Text.ofString " in shader file " ++
      source.quote ++
      (if path = [] then []
      else Text.ofString " (" ++ Text.join (Text.ofString " -> ") path ++ Text.ofString ")")
  | .missing source target =>
    Text.ofString "shader file " ++ source.quote ++ Text.ofString " includes non-existent file " ++
      target.quote
  | .mismatch file found inherited =>
    Text.ofString "included file " ++ file.quote ++ Text.ofString " specifies version " ++ found ++
      Text.ofString ", but parent specifies " ++ inherited

/-- A cause, and the includes that lead to it from the top-level source, outermost first. -/
structure Failure where
  chain : List Text
  cause : Cause
deriving DecidableEq, Repr

/-- The failure of a file, seen from the file that includes it as `target`. -/
def Failure.inside (target : Text) (f : Failure) : Failure := { f with chain := target :: f.chain }

/-- What is said about a failure. -/
def Failure.message (f : Failure) : Text :=
  f.chain.flatMap (fun target => Text.ofString "in include " ++ target.quote ++ Text.ofString ": ")
    ++ f.cause.message

end ShaderSplice
