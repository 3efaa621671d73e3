import ShaderSplice.Tool.Shell.Builtin
import ShaderSplice.Tool.Shell.Program
import ShaderSplice.Tool.Shell.Reader

/-!
# Commands that run commands

Some of the shell's own commands read and run scripts, start programs, look commands up, or send
signals. `eval` and `.` run a script in the shell itself; `exec` gives the shell's place to a
program.
-/

namespace ShaderSplice.Tool.Shell.Builtin

/-! ### Scripts -/

/-- Runs a script, and succeeds if there is nothing in it. -/
def runText (i : Inner) (tested : Bool) (text : Text) : Eval Unit := do
  notFinal do if !(← i.script tested text) then setStatus 0

/-- Runs its arguments as a script. -/
def eval (i : Inner) (tested : Bool) (args : List Text) : Eval Unit :=
  runText i tested (Text.join [Text.space] args)

/-- The path of a script that is to be run by the shell itself. -/
def scriptPath (name : Text) : Eval Text := do
  if name.contains Text.slash then return name
  else
    let s ← get
    let isFile (path : Text) : Bool :=
      match s.machine.find s.directory path with
      | .ok (.node (.file _)) | .ok (.program _) => true
      | _ => false
    match (candidates s.searchPath name).find? isFile with
    | some path => return path
    | none => abort (name ++ Text.ofString ": not found")

/-- The text of the script at a path. -/
def readScript (path : Text) : Eval Text := do
  let s ← get
  match s.machine.openFile s.process path .read with
  | .error e => cannotOpen path .read e
  | .ok (machine, h) =>
    match machine.readAll h with
    | .ok (text, machine) =>
      set { s with machine }
      return text.filter (· ≠ 0)
    | .error _ => return []

/-- Runs the script in a file. A failure in it counts, whatever looks at the status of all. -/
def dot (i : Inner) (args : List Text) : Eval Unit := do
  let (_, operands) ← options [] [] args
  match operands with
  | [] => setStatus 0
  | name :: _ =>
    let path ← scriptPath name
    let text ← readScript path
    modify ({ · with active := some path })
    match ← flowOf (runText i false text) with
    | some .returns => return ()
    | flow => resume flow

/-! ### Programs -/

/-- Gives the shell's place to a program. -/
def exec (i : Inner) (args : List Text) : Eval Unit := do
  match args with
  | [] => return ()
  | name :: rest =>
    let s ← get
    match s.program? s.searchPath name with
    | .ok (_, program) => becomeProgram i program name rest
    | .error a =>
      warn (name ++ Text.ofString ": " ++ a.reason)
      setStatus a.status
      throw .exits

/-! ### Looking commands up -/

/-- What a name stands for. -/
inductive Meaning where
  | keyword
  | function
  | builtin (special : Bool)
  | program (path : Text)
  | nothing
deriving DecidableEq, Repr

/-- What a name stands for, if `builtins` are the shell's own commands. -/
def State.meaning (s : State) (builtins : List Text) (searchPath name : Text) : Meaning :=
  if keywords.any fun k => Text.ofString k = name then .keyword
  else if (s.functions.lookup name).isSome then .function
  else if name ∈ builtins then .builtin (name ∈ specialNames)
  else if name.contains Text.slash then
    if (s.machine.find s.directory name).isOk then .program name else .nothing
  else
    match s.program? searchPath name with
    | .ok (path, _) => .program path
    | .error a =>
      if a.status = 126 then
        let found := (candidates searchPath name).find? fun path =>
          (s.machine.find s.directory path).isOk
        .program (found.getD name)
      else .nothing

/-- Says what a name stands for. -/
def describe (builtins : List Text) (verbose : Bool) (searchPath name : Text) : Eval Unit := do
  let tell (long : String) (short : Text) : Eval Unit :=
    say ((if verbose then name ++ Text.ofString long else short) ++ [Text.newline])
  match State.meaning (← get) builtins searchPath name with
  | .keyword => tell " is a shell keyword" name
  | .function => tell " is a shell function" name
  | .builtin true => tell " is a special shell builtin" name
  | .builtin false => tell " is a shell builtin" name
  | .program path =>
    say ((if verbose then name ++ Text.ofString " is " ++ path else path) ++ [Text.newline])
  | .nothing =>
    if verbose then say (name ++ Text.ofString ": not found\n")
    setStatus 127

/-- Says what names stand for. -/
def type_ (builtins : List Text) (args : List Text) : Eval Unit := do
  for name in args do
    describe builtins true (← get).searchPath name

/-- Says what a name stands for, briefly or not. -/
def command (builtins : List Text) (args : List Text) : Eval Unit := do
  let (opts, operands) ← options (Text.ofString "pvV") [] args
  let has (letter : Char) : Bool := opts.any (·.1 = letter.toUInt8)
  let s ← get
  let searchPath := if has 'p' then defaultPath else s.searchPath
  match operands with
  | [] => return ()
  | name :: _ => if has 'v' ∨ has 'V' then describe builtins (has 'V') searchPath name

/-- Looks names up. A path is not looked at. -/
def hash (builtins : List Text) (args : List Text) : Eval Unit := do
  let (_, operands) ← options (Text.ofString "r") [] args
  for name in operands.filter fun name => !name.contains Text.slash do
    let s ← get
    if State.meaning s builtins s.searchPath name ∈ [.nothing, .keyword] then
      warn (name ++ Text.ofString ": not found")
      setStatus 1

/-! ### Signals and jobs -/

/-- The signals that end no program. -/
def harmlessSignals : List Nat := [0, 17, 18, 23, 28]

/-- Sends a signal to the shell itself. -/
def signalSelf (n : Nat) : Eval Unit := do
  let s ← get
  match if n = 9 ∨ n = 0 then none else s.traps.lookup (signalName n) with
  | some [] => return ()
  | some _ => set { s with pending := s.pending ++ [n] }
  | none => if n ∉ harmlessSignals then throw (.killed n)

/-- Says how signals are sent. -/
def killUsage {α : Type} : Eval α :=
  abort (Text.ofString ("Usage: kill [-s sigspec | -signum | -sigspec] [pid | job]... or\n" ++
    "kill -l [exitstatus]"))

/-- Says the names of signals. -/
def listSignals (args : List Text) : Eval Unit := do
  match args with
  | [] =>
    let names := (List.range 64).map fun n => signalName (n + 1) ++ [Text.newline]
    say (Text.ofString "0\n" ++ names.flatten)
  | a :: _ =>
    let n ← natural a
    let n := if 128 < n then n - 128 else n
    if 0 < n ∧ n < 65 then say (signalName n ++ [Text.newline])
    else abort (Text.ofString "invalid signal number or exit status: " ++ a)

/-- Sends a signal to each of several processes. -/
def sendAll (signal : Nat) (targets : List Text) : Eval Unit := do
  for t in targets do
    let n ← natural (if t.head? = some Text.dash then t.tail else t)
    if n = processNumber ∧ t.head? ≠ some Text.dash then signalSelf signal
    else
      warn (Text.ofString "No such process\n")
      setStatus 1

/-- Sends signals. -/
def kill (args : List Text) : Eval Unit := do
  match args with
  | [] => killUsage
  | a :: rest =>
    let isName (n : Nat) : Bool := 0 < n || a.tail.all isDigitByte
    let named := if a.head? = some Text.dash then (signal? a.tail).filter isName else none
    match named with
    | some n => if rest.isEmpty then killUsage else sendAll n rest
    | none =>
      let (opts, operands) ← options (Text.ofString "l") (Text.ofString "s") args
      let lists := opts.any (·.1 = 0x6c)
      let signal ←
        match (opts.reverse.find? (·.1 = 0x73)).map (·.2) with
        | none => pure 15
        | some name =>
          match (signal? name).filter fun n => 0 < n || name.all isDigitByte with
          | some n => pure n
          | none => abort (Text.ofString "invalid signal number or name: " ++ name)
      if lists then listSignals operands
      else if operands.isEmpty then killUsage
      else sendAll signal operands

/-- Waits for commands in the background, all of which have ended. -/
def wait (args : List Text) : Eval Unit := do
  for a in args do
    let n ← natural a
    setStatus (((← get).jobs.lookup n).getD 127)

/-- Refuses to bring a command to the front. -/
def noJob (_ : List Text) : Eval Unit := abort (Text.ofString "No current job")

end ShaderSplice.Tool.Shell.Builtin
