import ShaderSplice.Text.Basic

/-!
# Scripts

A script is made of commands, and commands are made of words. A word is a list of parts, since
quotes may start and end inside it, and a variable or the output of a command may stand anywhere
in it.
-/

namespace ShaderSplice.Tool.Shell

/-- What becomes of the value of a parameter. -/
inductive Use where
  /-- The value itself. -/
  | value
  /-- The number of its bytes. -/
  | length
  /-- A word instead of a value that is missing. -/
  | default
  /-- The same, and the word becomes the value. -/
  | assign
  /-- A word as the message about a value that is missing. -/
  | require
  /-- A word instead of a value that is there. -/
  | alternative
  /-- The value without what a pattern matches at its start. -/
  | dropStart (longest : Bool)
  /-- The value without what a pattern matches at its end. -/
  | dropEnd (longest : Bool)
  /-- What is written has no meaning. -/
  | bad
deriving DecidableEq, Repr

/-- Where a redirection leads. -/
inductive Direction where
  | read
  | write
  /-- As `write`, also where the shell keeps files that are there. -/
  | overwrite
  | append
  | readWrite
  /-- The stream of another descriptor. -/
  | duplicate (reads : Bool)
deriving DecidableEq, Repr

mutual

/-- A piece of a word. What is quoted is neither split nor taken as a pattern. -/
inductive Part where
  | literal (quoted : Bool) (t : Text)
  /-- A parameter. If `orEmpty`, an empty value counts as missing. -/
  | parameter (quoted : Bool) (name : Text) (use : Use) (orEmpty : Bool) (word : List Part)
  /-- What a script prints. -/
  | output (quoted : Bool) (script : Command)
  | arithmetic (quoted : Bool) (expression : List Part)

/-- Something that is done with a stream of a command. -/
inductive Redirect where
  | file (stream : Nat) (direction : Direction) (target : List Part)
  /-- Reads a text of the script, which is found in the list of such texts. -/
  | document (stream : Nat) (index : Nat)

/-- A command of a script, with the line on which it stands. -/
inductive Command where
  | nothing
  | simple (line : Nat) (assignments : List (Text × List Part)) (words : List (List Part))
    (redirects : List Redirect)
  | pipeline (commands : List Command)
  | negation (c : Command)
  | both (first second : Command)
  | either (first second : Command)
  | sequence (first second : Command)
  | background (c : Command)
  | subshell (line : Nat) (body : Command) (redirects : List Redirect)
  | redirected (line : Nat) (body : Command) (redirects : List Redirect)
  | conditional (test yes no : Command)
  /-- A loop that goes on while its test fails, or while it succeeds. -/
  | loop (whileFails : Bool) (test body : Command)
  | each (line : Nat) (name : Text) (words : List (List Part)) (body : Command)
  | choice (line : Nat) (word : List Part) (cases : List (List (List Part) × Command))
  | define (name : Text) (body : Command)

end

/-- A word, before its parameters are replaced. -/
abbrev Word := List Part

instance : Inhabited Command := ⟨.nothing⟩

/-- Why a script cannot be read, and the line on which that shows. -/
structure SyntaxError where
  line : Nat
  problem : Text
deriving DecidableEq, Repr

end ShaderSplice.Tool.Shell
