import ShaderSplice.Text.Quoted
import ShaderSplice.Text.Space

/-!
# Flags

Arguments that start with a dash set flags: `--name value` or `--name=value`, with one dash or two.
A switch takes a value only after an equals sign. What is no flag and no value of one is an operand.
Flags and operands may be mixed. Two dashes that follow a flag are dropped; anywhere else they start
the operands that are taken as they are, and so do a single dash and an argument of white space.

These rules (`written`, `parse`) and the wording of usage errors are not the program's own. They are
those of a general library for command lines, which the program leaves the reading to, and no
theorem rests on them.
-/

namespace ShaderSplice.CommandLine

/-- What an argument can set. -/
inductive Flag where
  | language
  | vertex
  | fragment
  | source
  | includes
  | discardLineInfo
  | optimizer
  | allowUntested
  | verbose
  | out
  | package
  | help
  | version
deriving DecidableEq, Repr

/-- How a flag is written. -/
structure FlagSpec where
  flag : Flag
  /-- The names of the flag, its own first. -/
  names : List Text
  /-- Whether the flag is a switch, which needs no value. -/
  isSwitch : Bool
deriving DecidableEq, Repr

/-- A flag with the value that it was given. -/
structure Setting where
  flag : Flag
  value : Text
deriving DecidableEq, Repr

/-- What is wrong with how a flag is written. -/
inductive UsageError where
  | undefined (name : Text)
  /-- Help is asked for where no flag does that. -/
  | helpRequested
  | needsValue (name : Text)
  | badSwitch (name value : Text)
  | badSyntax (argument : Text)
deriving DecidableEq, Repr

/-- What is said about how a flag is written. -/
def UsageError.message : UsageError → Text
  | .undefined name => Text.ofString "flag provided but not defined: -" ++ name
  | .helpRequested => Text.ofString "flag: help requested"
  | .needsValue name => Text.ofString "flag needs an argument: -" ++ name
  | .badSwitch name value =>
    Text.ofString "invalid boolean value " ++ value.quote ++ Text.ofString " for -" ++ name ++
      Text.ofString ": parse error"
  | .badSyntax argument => Text.ofString "bad flag syntax: " ++ argument

/-- The spellings that turn a switch on. -/
def onWords : List Text := ["1", "t", "T", "TRUE", "true", "True"].map Text.ofString

/-- The spellings that turn a switch off. -/
def offWords : List Text := ["0", "f", "F", "FALSE", "false", "False"].map Text.ofString

/-- An argument that sets a flag, before it is known which. -/
structure Written where
  name : Text
  /-- What follows the equals sign, if there is one. -/
  value : Option Text
deriving DecidableEq, Repr

/-- Two dashes on their own. -/
def twoDashes : Text := [Text.dash, Text.dash]

/-- The name and the value in an argument that starts with a dash. -/
def written (argument : Text) : Except UsageError Written :=
  let body : Text := argument.drop (if argument.take 2 = twoDashes then 2 else 1)
  if body = [] ∨ body.head? = some Text.dash ∨ body.head? = some Text.equals then
    .error (.badSyntax argument)
  else
    match body.cut? [Text.equals] with
    | some (name, value) => .ok ⟨name, some value⟩
    | none => .ok ⟨body, none⟩

/-- The names by which help is asked for. -/
def helpNames : List Text := ["help", "h"].map Text.ofString

/-- Whether an argument ends the flags for good, where no flag stands before it. -/
def endsFlags (argument : Text) : Bool := argument.isSpaces || argument == [Text.dash]

/-- The settings and the operands in a list of arguments. An operand that is one of `commands`
hands all that follows on. `afterFlag` tells whether a flag stands right before. -/
def parse (specs : List FlagSpec) (commands : List Text) (afterFlag : Bool) :
    List Text → Except UsageError (List Setting × List Text)
  | [] => .ok ([], [])
  | a :: rest =>
    if endsFlags a then .ok ([], a :: rest)
    else if a = twoDashes then
      if afterFlag then parse specs commands false rest else .ok ([], a :: rest)
    else if a.head? = some Text.dash then
      match written a with
      | .error e => .error e
      | .ok ⟨name, value⟩ =>
        match specs.find? (name ∈ ·.names) with
        | none => .error (if name ∈ helpNames then .helpRequested else .undefined name)
        | some spec =>
          if spec.isSwitch then
            let word := value.getD (Text.ofString "true")
            if word ∈ onWords ∨ word ∈ offWords then do
              let (settings, operands) ← parse specs commands true rest
              return (⟨spec.flag, word⟩ :: settings, operands)
            else .error (.badSwitch name word)
          else
            match value with
            | some v => do
              let (settings, operands) ← parse specs commands true rest
              return (⟨spec.flag, v⟩ :: settings, operands)
            | none =>
              match rest with
              | [] => .error (.needsValue name)
              | v :: others => do
                let (settings, operands) ← parse specs commands true others
                return (⟨spec.flag, v⟩ :: settings, operands)
    else if a ∈ commands then .ok ([], a :: rest)
    else do
      let (settings, operands) ← parse specs commands false rest
      return (settings, a :: operands)

/-- The value that a flag was given last. -/
def last? (settings : List Setting) (flag : Flag) : Option Text :=
  (settings.reverse.find? (·.flag == flag)).map (·.value)

/-- Whether a switch is on. -/
def isOn (settings : List Setting) (flag : Flag) : Bool :=
  (last? settings flag).any (· ∈ onWords)

end ShaderSplice.CommandLine
