import ShaderSplice.CommandLine.Flag
import ShaderSplice.CommandLine.Glob
import ShaderSplice.Session.Build

/-!
# Commands

Three commands share the settings that say what to process:

    build    processes the sources and writes them into a directory
    emit     prints one processed source
    ids      prints the ids of the include files

`Command.run` takes the settings and operands that were read off the command line to what is
printed, what is logged, and the tree afterwards. Where patterns look for files (`Disk`) and where
an optimizer's program runs (`Host`) is up to the caller.
-/

namespace ShaderSplice.CommandLine

/-- A command of the program. -/
inductive Command where
  | build
  | emit
  | ids
deriving DecidableEq, Repr

/-- The commands with their names. -/
def commands : List (Text × Command) :=
  [(Text.ofString "build", .build), (Text.ofString "emit", .emit), (Text.ofString "ids", .ids)]

/-! ### What can go wrong -/

/-- What ends the program without success. -/
inductive Problem where
  | usage (e : UsageError)
  | unknownCommand (name : Text)
  /-- The help flag stands with a topic that there is no help on. -/
  | unknownTopic (name : Text)
  | missingFlag (name : String)
  | noSourceNamed
  | unknownLanguage (e : Language.UnknownName)
  | emptyOptimizer
  | noSources
  | build (e : BuildError)
deriving DecidableEq, Repr

/-- What is said about what ends the program. -/
def Problem.message : Problem → Text
  | .usage e => e.message
  | .unknownCommand name | .unknownTopic name =>
    Text.ofString "No help topic for '" ++ name ++ Text.ofString "'"
  | .missingFlag name => Text.ofString ("Required flag \"" ++ name ++ "\" not set")
  | .noSourceNamed => Text.ofString "usage: glossy emit [flags] <source name>"
  | .unknownLanguage e => e.message
  | .emptyOptimizer => ShaderSplice.Command.emptyMessage
  | .noSources => Text.ofString "no shader sources matched"
  | .build e => e.message

/-- The exit status that a problem leads to. -/
def Problem.status : Problem → Nat
  | .unknownCommand _ => 3
  | _ => 1

/-- What is printed about a problem. -/
def Problem.lines : Problem → List Text
  | .usage e =>
    [Text.ofString "Incorrect Usage: " ++ e.message, [], Text.ofString "error: " ++ e.message]
  | .unknownCommand name => [(Problem.unknownCommand name).message]
  | p => [Text.ofString "error: " ++ p.message]

/-! ### Running a command -/

/-- What a run of the program leaves behind: the file tree, the log, and what it prints. -/
structure Response where
  tree : FileTree
  log : List Record
  result : Except Problem Text

/-- The response of a run that ends before it does anything. -/
def Response.stop (tree : FileTree) (result : Except Problem Text) : Response := ⟨tree, [], result⟩

/-- The calls by which patterns are added to a session. -/
def globCall? (a : GlobArg) : Option Session.Call :=
  if a.flag = Text.ofString "vertex" then some (.vertex a.pattern)
  else if a.flag = Text.ofString "fragment" then some (.fragment a.pattern)
  else if a.flag = Text.ofString "source" then some (.source a.pattern)
  else if a.flag = Text.ofString "include" then some (.includes a.pattern)
  else none

/-- The patterns among the settings, in their order. -/
def globArgs (settings : List Setting) : List GlobArg :=
  settings.filterMap fun s =>
    match s.flag with
    | .vertex => some ⟨Text.ofString "vertex", s.value⟩
    | .fragment => some ⟨Text.ofString "fragment", s.value⟩
    | .source => some ⟨Text.ofString "source", s.value⟩
    | .includes => some ⟨Text.ofString "include", s.value⟩
    | _ => none

/-- The session that settings ask for, of files on `disk` and with programs that run on `host`. The
language is checked first, then the patterns are followed, then the other settings. -/
def session (host : Host) (disk : Disk) (settings : List Setting) :
    List Record × Except Problem Session :=
  match Language.parse ((last? settings .language).getD (Text.ofString "opengl")) with
  | .error e => ([], .error (.unknownLanguage e))
  | .ok language =>
    let level := if isOn settings .verbose then Level.debug else .warn
    let (s, log) := (Session.start language).calls disk
      (.logger ⟨some level⟩ :: (globArgs settings).filterMap globCall?)
    let line := (last? settings .optimizer).getD []
    let optimize : Except Problem (List Session.Call) :=
      if line = [] then .ok []
      else
        match ShaderSplice.Command.parse? line language with
        | none => .error .emptyOptimizer
        | some c => .ok [.optimize (some (c.optimizer host))]
    (log, do
      let calls := (← optimize) ++
        (if isOn settings .discardLineInfo then [.discardLineInfo] else []) ++
        (if isOn settings .allowUntested then [.allowUntested] else [])
      let (s, _) := s.calls disk calls
      match s.error with
      | some e => .error (.build (.discovery e))
      | none => return s)

/-- The response that an outcome gives after an earlier log. -/
def Response.ofOutcome {α : Type} (log : List Record) (o : Session.Outcome α) (shown : α → Text) :
    Response :=
  ⟨o.tree, log ++ o.log, (o.result.map shown).mapError Problem.build⟩

/-- Runs a command on its settings and operands. -/
def Command.run (host : Host) (disk : Disk) (tree : FileTree) (settings : List Setting)
    (operands : List Text) : Command → Response
  | .build =>
    match last? settings .out with
    | none => .stop tree (.error (.missingFlag "out"))
    | some dir =>
      let (log, result) := session host disk settings
      match result with
      | .error p => ⟨tree, log, .error p⟩
      | .ok s =>
        if s.sources = [] then ⟨tree, log, .error .noSources⟩
        else
          let package := (last? settings .package).getD defaultPackage
          let (s, _) := s.call disk (.package package)
          .ofOutcome log (s.build tree dir) fun _ => []
  | .emit =>
    match operands with
    | [] => .stop tree (.error .noSourceNamed)
    | name :: _ =>
      let (log, result) := session host disk settings
      match result with
      | .error p => ⟨tree, log, .error p⟩
      | .ok s => .ofOutcome log (s.emit tree name) (· ++ [Text.newline])
  | .ids =>
    let (log, result) := session host disk settings
    match result with
    | .error p => ⟨tree, log, .error p⟩
    | .ok s => .ofOutcome log (s.process tree) Report.listing

end ShaderSplice.CommandLine
