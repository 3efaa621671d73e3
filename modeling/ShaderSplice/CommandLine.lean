import ShaderSplice.CommandLine.Command
import ShaderSplice.Tool

/-!
# The command line

The first operand is the command, and the arguments after it are its own. Help is asked for by a
flag or by the command `help`, both of the program and of each command, and may be on a topic: the
name of a command that belongs there.

`run` is the whole program as a function: from the arguments and the file tree to what is printed,
what is logged, and the tree afterwards. It is `respond` with the files of a tree and with
`Tool.host`, which stand for the file system and the programs of a real system.

When help is given, and on what, is the custom of the general library that reads the command line,
as the rules for flags are, and no theorem rests on it either.
-/

namespace ShaderSplice.CommandLine

/-- The version of the program. -/
def programVersion : Text := Text.ofString "v0.1.0"

/-! ### Flags of commands -/

/-- A flag with its names. -/
def FlagSpec.of (flag : Flag) (names : List String) (isSwitch : Bool) : FlagSpec :=
  ⟨flag, names.map Text.ofString, isSwitch⟩

/-- The flags that every command has. -/
def sharedFlags : List FlagSpec :=
  [.of .language ["lang", "l"] false, .of .vertex ["vertex"] false,
    .of .fragment ["fragment"] false, .of .source ["source", "s"] false,
    .of .includes ["include", "I"] false, .of .discardLineInfo ["discard-line-info"] true,
    .of .optimizer ["optimizer"] false, .of .allowUntested ["allow-untested"] true,
    .of .verbose ["verbose"] true, .of .help ["help", "h"] true]

/-- The flags of a command. -/
def Command.flags : Command → List FlagSpec
  | .build => sharedFlags ++ [.of .out ["out", "o"] false, .of .package ["package"] false]
  | .emit | .ids => sharedFlags

/-- The flags before a command. -/
def rootFlags : List FlagSpec :=
  [.of .help ["help", "h"] true, .of .version ["version", "v"] true]

/-! ### Help -/

/-- What is printed for who asks for help. -/
def helpText : Text :=
  Text.ofString "usage: glossy build|emit|ids [flags] [arguments]\n"

/-- What is printed for who asks for help on the first of `operands`, where there is help on
`topics`. On two dashes there is nothing to say. -/
def help (topics : List Text) (unknown : Text → Problem) (operands : List Text) :
    Except Problem Text :=
  match operands with
  | [] => .ok helpText
  | topic :: _ =>
    if topic = twoDashes then .ok []
    else if topic = [] ∨ topic ∈ topics then .ok helpText
    else .error (unknown topic)

/-- The topics that the program has help on. -/
def rootTopics : List Text := commands.map (·.1) ++ helpNames

/-- Runs the program's `help` on the arguments after it. -/
def rootHelp (args : List Text) : Except Problem Text :=
  match parse [] [] false args with
  | .error e => .error (.usage e)
  | .ok (_, operands) => help rootTopics .unknownCommand operands

/-- Runs the `help` of a command on the arguments after it. It takes the flags of the command but
the one for help, and what the command cannot do without it cannot do without either. -/
def Command.help (c : Command) (settings : List Setting) (args : List Text) :
    Except Problem Text :=
  match parse (c.flags.filter (·.flag ≠ .help)) [] false args with
  | .error e => .error (.usage e)
  | .ok (more, operands) =>
    if c = .build ∧ last? (settings ++ more) .out = none then .error (.missingFlag "out")
    else CommandLine.help helpNames .unknownCommand operands

/-! ### The program -/

/-- Runs the program with the given arguments, on files that patterns look for on `disk` and with
programs that run on `host`. -/
def respond (host : Host) (disk : Disk) (tree : FileTree) (args : List Text) : Response :=
  match parse rootFlags rootTopics false args with
  | .error e => .stop tree (.error (.usage e))
  | .ok (settings, operands) =>
    if isOn settings .help then .stop tree (help rootTopics .unknownTopic operands)
    else if isOn settings .version then
      .stop tree (.ok (Text.ofString "glossy version " ++ programVersion ++ [Text.newline]))
    else
      match operands with
      | [] => .stop tree (.ok helpText)
      | name :: rest =>
        match commands.lookup name with
        | none =>
          .stop tree
            (if name ∈ helpNames then rootHelp rest else help rootTopics .unknownCommand operands)
        | some command =>
          match parse command.flags helpNames false rest with
          | .error e => .stop tree (.error (.usage e))
          | .ok (settings, operands) =>
            if isOn settings .help then .stop tree (help helpNames .unknownTopic operands)
            else
              match operands with
              | first :: others =>
                if first ∈ helpNames then .stop tree (command.help settings others)
                else command.run host disk tree settings operands
              | [] => command.run host disk tree settings []

/-- Runs the program with the given arguments on the files of a tree, where the programs of
`Tool.host` are installed. -/
def run (tree : FileTree) (args : List Text) : Response := respond Tool.host tree.disk tree args

/-! ### What a run prints -/

/-- The exit status of a run. -/
def Response.status (r : Response) : Nat :=
  match r.result with
  | .ok _ => 0
  | .error p => p.status

/-- What a run prints. -/
def Response.output (r : Response) : Text :=
  match r.result with
  | .ok text => text
  | .error _ => []

/-- What a run says besides: its log, and why it failed if it did. -/
def Response.errors (r : Response) : Text :=
  unlines (r.log.map Record.line ++
    (match r.result with
    | .ok _ => []
    | .error p => p.lines))

end ShaderSplice.CommandLine
