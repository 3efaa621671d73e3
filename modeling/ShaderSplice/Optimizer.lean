import ShaderSplice.Language
import ShaderSplice.Stage
import ShaderSplice.Directive
import ShaderSplice.FileTree

/-!
# Optimizers

An optimizer takes the stage and the assembled text of a source and gives back another text, or
refuses. It may be a program, which sees the files and can change them. Only versions that are known
to work are handed to it, unless the caller says otherwise (`checkVersion`); a version that is not
is no failure of a build.
-/

namespace ShaderSplice

/-- A version that optimizers are not known to handle for a language. -/
structure UnsupportedVersion where
  language : Language
  version : Text
deriving DecidableEq, Repr

/-- What is said about a version that optimizers are not known to handle. -/
def UnsupportedVersion.message (e : UnsupportedVersion) : Text :=
  Text.ofString "version " ++ e.version ++
    Text.ofString " is not supported by the optimizer for " ++ e.language.name

/-- The version numbers that optimizers are known to handle. -/
def testedVersions (language : Language) : List Text :=
  (if language.isES then ["100", "300"] else ["110", "120"]).map Text.ofString

/-- Whether a version may be optimized. -/
def checkVersion (language : Language) (version : Text) (allowUntested : Bool) :
    Except UnsupportedVersion Unit :=
  if allowUntested ∨ versionNumber version ∈ testedVersions language then .ok ()
  else .error ⟨language, version⟩

/-- Why a command could not be started. -/
inductive StartError where
  /-- The command has no name. -/
  | noCommand
  /-- No program has the name. -/
  | notFound (name : Text)
  /-- The name can be no program's. -/
  | notProgram (name : Text) (cause : Errno)
  /-- What is at the path cannot be run. -/
  | refused (path : Text) (cause : Errno)
deriving DecidableEq, Repr

/-- What is said about a command that could not be started. -/
def StartError.message : StartError → Text
  | .noCommand => Text.ofString "exec: no command"
  | .notFound name =>
    Text.ofString "exec: " ++ name.quote ++ Text.ofString ": executable file not found in $PATH"
  | .notProgram name cause =>
    Text.ofString "exec: " ++ name.quote ++ Text.ofString ": " ++ cause.message
  | .refused path cause =>
    Text.ofString "fork/exec " ++ path ++ Text.ofString ": " ++ cause.message

/-- Why an optimizer gives back no text. -/
inductive OptimizeError where
  /-- The optimizer refuses the shader and says why in its log. -/
  | rejected (stage : Stage) (log : Text)
  /-- The optimizer's command did not start. -/
  | notStarted (path : Text) (cause : StartError)
  /-- Anything else. -/
  | failed (reason : Text)
deriving DecidableEq, Repr

/-- What is said about an optimizer that gives back no text. -/
def OptimizeError.message : OptimizeError → Text
  | .rejected stage log =>
    let what := Text.ofString "optimizer rejected " ++ stage.name ++ Text.ofString " shader"
    if log.trim = [] then what else what ++ Text.ofString ": " ++ log.trim
  | .notStarted path cause =>
    Text.ofString "running optimizer " ++ path ++ Text.ofString ": " ++ cause.message
  | .failed reason => reason

/-- What takes the files, the stage and the text of a source to the files afterwards and the
optimized text. -/
abbrev Optimizer := FileTree → Stage → Text → FileTree × Except OptimizeError Text

namespace Optimizer

/-- The optimizer that is a function of the stage and the text. -/
def ofFunction (f : Stage → Text → Except OptimizeError Text) : Optimizer :=
  fun tree stage text => (tree, f stage text)

/-- Whether an optimizer leaves the files as they are, and does not depend on them. -/
def IsFunction (o : Optimizer) : Prop := ∃ f, o = ofFunction f

end Optimizer

/-! ### Commands -/

/-- What a program is given when it is run. -/
structure Invocation where
  path : Text
  args : List Text
  environment : List (Text × Text)
  input : Text
deriving DecidableEq, Repr

/-- What a program leaves when it has run. -/
structure Exit where
  output : Text
  errors : Text
  status : Nat
deriving DecidableEq, Repr

/-- Where programs run: what becomes of the files and what a program leaves. -/
abbrev Host := FileTree → Invocation → FileTree × Except StartError Exit

/-- A command that optimizes for a language: it reads a shader and writes it again. -/
structure Command where
  path : Text
  args : List Text
  language : Language
deriving DecidableEq, Repr

namespace Command

/-- What is said about a command line without a command. -/
def emptyMessage : Text := Text.ofString "empty optimizer command"

/-- The command in a command line, whose words are divided by white space. -/
def parse? (line : Text) (language : Language) : Option Command :=
  match line.fields with
  | [] => none
  | path :: args => some { path, args, language }

/-- The invocation that gives a shader to a command. -/
def invocation (c : Command) (stage : Stage) (source : Text) : Invocation :=
  { path := c.path
    args := c.args
    environment :=
      [(Text.ofString "GLOSSY_SHADER_KIND", stage.name),
        (Text.ofString "GLOSSY_LANGUAGE", c.language.name)]
    input := source }

/-- The optimizer that runs a command. A source of unknown stage is left alone; a command that
does not exit with status 0 rejects the shader. -/
def optimizer (host : Host) (c : Command) : Optimizer := fun tree stage source =>
  if stage = .unknown then (tree, .ok source)
  else
    match host tree (c.invocation stage source) with
    | (tree, .error cause) => (tree, .error (.notStarted c.path cause))
    | (tree, .ok exit) =>
      (tree, if exit.status = 0 then .ok exit.output else .error (.rejected stage exit.errors))

end Command
end ShaderSplice
