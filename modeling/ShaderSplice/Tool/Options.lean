import ShaderSplice.Tool.Name

/-!
# Options of a program

Arguments that start with a dash choose options: `-xy` gives two options by their letters, and
`--name` gives one by its name, of which a beginning that no other name has is enough. Everything
else is an operand, and so is everything after two dashes.
-/

namespace ShaderSplice.Tool

/-- An option of a program, which takes no value. -/
structure OptionSpec (α : Type) where
  letter : Option Char
  name : Option String
  meaning : α

/-- What is wrong with an option. -/
inductive OptionError where
  | badLetter (letter : UInt8)
  | badName (argument : Text)
  | takesNoValue (name : String)
  | ambiguous (argument : Text) (candidates : List String)
deriving DecidableEq, Repr

/-- What is said about what is wrong with an option. -/
def OptionError.message : OptionError → Text
  | .badLetter letter => Text.ofString "invalid option -- '" ++ [letter, apostrophe]
  | .badName argument =>
    Text.ofString "unrecognized option '" ++ argument ++ [apostrophe]
  | .takesNoValue name => Text.ofString ("option '--" ++ name ++ "' doesn't allow an argument")
  | .ambiguous argument candidates =>
    Text.ofString "option '" ++ argument ++ Text.ofString "' is ambiguous; possibilities:" ++
      candidates.flatMap fun c => Text.ofString (" '--" ++ c ++ "'")

namespace OptionSpec

variable {α : Type}

/-- The option of a letter. -/
def ofLetter (specs : List (OptionSpec α)) (b : UInt8) : Except OptionError α :=
  match specs.find? (·.letter.any (·.toUInt8 == b)) with
  | some s => .ok s.meaning
  | none => .error (.badLetter b)

/-- The names among the specifications, with their options. -/
def named (specs : List (OptionSpec α)) : List (String × α) :=
  specs.filterMap fun s => s.name.map (·, s.meaning)

/-- The option of an argument that starts with two dashes. -/
def ofArgument (specs : List (OptionSpec α)) (argument : Text) : Except OptionError α :=
  let body : Text := argument.drop 2
  let name := body.takeWhile (· ≠ Text.equals)
  let hasValue := body.contains Text.equals
  let full := (named specs).filter (Text.ofString ·.1 == name)
  let begun := (named specs).filter (name.isPrefixOf <| Text.ofString ·.1)
  let candidates := if full.isEmpty then begun else full
  match candidates with
  | [] => .error (.badName argument)
  | [(n, meaning)] => if hasValue then .error (.takesNoValue n) else .ok meaning
  | several => .error (.ambiguous (Text.ofString "--" ++ body) (several.map (·.1)))

/-- The options and the operands among the arguments. If `mixed`, options may follow operands. -/
def parse (specs : List (OptionSpec α)) (mixed : Bool) :
    List Text → Except OptionError (List α × List Text)
  | [] => .ok ([], [])
  | a :: rest =>
    if a = Text.ofString "--" then .ok ([], rest)
    else if a.take 2 = Text.ofString "--" then do
      let o ← ofArgument specs a
      let (os, operands) ← parse specs mixed rest
      return (o :: os, operands)
    else if a.head? = some Text.dash ∧ 1 < a.length then do
      let here ← a.tail.mapM (ofLetter specs)
      let (os, operands) ← parse specs mixed rest
      return (here ++ os, operands)
    else if mixed then do
      let (os, operands) ← parse specs mixed rest
      return (os, a :: operands)
    else .ok ([], a :: rest)

end OptionSpec

/-- What a program says when it is called in a wrong way; `self` is the name it was called by. -/
def misuse (self problem : Text) : Text :=
  self ++ Text.ofString ": " ++ problem ++ Text.ofString "\nTry '" ++ self ++
    Text.ofString " --help' for more information.\n"

end ShaderSplice.Tool
