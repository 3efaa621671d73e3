import ShaderSplice.Tool.Shell.Control
import ShaderSplice.Tool.Shell.Redirection

/-!
# Simple commands

A simple command has words, redirections and assignments, all of which may be missing. Its words are
expanded first, then its redirections are done, then its assignments. What it runs is the first of

    a function      unless the word `command` stands before it
    an own command  of the shell
    a program       that is found by its name

An assignment stays if there is nothing to run, or if what is run is special; otherwise it holds
only while the command runs.
-/

namespace ShaderSplice.Tool.Shell

/-! ### The shell's own commands -/

/-- One of the shell's own commands. -/
structure OwnCommand where
  name : Text
  /-- Whether it can see the status of the command before it. -/
  seesStatus : Bool
  run : Inner → Bool → List Text → Eval Unit

/-- An own command that starts with success. -/
def OwnCommand.of (name : String) (run : List Text → Eval Unit) : OwnCommand :=
  ⟨Text.ofString name, false, fun _ _ args => run args⟩

/-- Does nothing but set its status. -/
def constantly (status : Nat) (_ : List Text) : Eval Unit := setStatus status

/-- The shell's own commands that do not look others up. -/
def plainCommands : List OwnCommand :=
  [.of ":" (constantly 0), .of "true" (constantly 0), .of "false" (constantly 1),
    .of "echo" Builtin.echo, .of "printf" Builtin.printf, .of "test" Builtin.test,
    .of "[" Builtin.bracket, .of "read" Builtin.read, .of "export" Builtin.export_,
    .of "readonly" Builtin.readonly, .of "unset" Builtin.unset, .of "local" Builtin.local_,
    .of "shift" Builtin.shift, .of "set" Builtin.set_, .of "cd" Builtin.cd,
    .of "chdir" Builtin.cd, .of "pwd" Builtin.pwd, .of "trap" Builtin.trap,
    .of "umask" Builtin.umask, .of "getopts" Builtin.getopts, .of "kill" Builtin.kill,
    .of "wait" Builtin.wait,
    .of "fg" Builtin.noJob, .of "bg" Builtin.noJob, .of "jobs" (constantly 0),
    .of "times" (constantly 0), .of "ulimit" (constantly 0),
    .of "break" (Builtin.leaveLoop .breaks), .of "continue" (Builtin.leaveLoop .continues),
    ⟨Text.ofString "exit", true, fun _ _ => Builtin.exit⟩,
    ⟨Text.ofString "return", true, fun _ _ => Builtin.return_⟩,
    ⟨Text.ofString "eval", true, Builtin.eval⟩,
    ⟨Text.ofString ".", true, fun i _ => Builtin.dot i⟩,
    ⟨Text.ofString "exec", false, fun i _ => Builtin.exec i⟩]

/-- The names of all own commands. -/
def ownNames : List Text :=
  plainCommands.map (·.name) ++ ["command", "type", "hash"].map Text.ofString

/-- The shell's own commands. -/
def ownCommands : List OwnCommand :=
  plainCommands ++
    [.of "command" (Builtin.command ownNames), .of "type" (Builtin.type_ ownNames),
      .of "hash" (Builtin.hash ownNames)]

/-- Runs one of the shell's own commands. If it is not special, a fault in it ends only itself. -/
def OwnCommand.call (c : OwnCommand) (i : Inner) (tested special : Bool) (args : List Text) :
    Eval Unit := do
  let before := (← get).active
  modify ({ · with active := some c.name })
  if !c.seesStatus then setStatus 0
  let flow ← flowOf (c.run i tested args)
  if flow = some .fails ∧ special then throw .fails
  modify ({ · with active := before })
  if flow ≠ some .fails then resume flow

/-! ### Functions -/

/-- No more functions than this run inside each other. -/
def maximumCalls : Nat := 1000

/-- Runs a function. Its arguments are the positional parameters while it runs. -/
def callFunction (i : Inner) (tested : Bool) (body : Command) (args : List Text) : Eval Unit := do
  let s ← get
  if maximumCalls ≤ s.calls then
    abort (Text.ofString "Maximum function recursion depth (1000) reached")
  set { s with parameters := args, loops := 0, calls := s.calls + 1 }
  let flow ← flowOf (notFinal (i.run tested body))
  modify fun after =>
    { after with
      parameters := s.parameters, loops := s.loops, calls := s.calls, final := s.final }
  if flow ≠ some .returns then resume flow

/-! ### What is run -/

/-- What a simple command runs. -/
structure Call where
  fields : List Text
  /-- Whether the word `command` stood before it. -/
  plain : Bool
  /-- Whether programs are looked for in the usual directories, whatever the script says. -/
  usualPath : Bool
deriving DecidableEq, Repr

/-- The options of the word `command` at the start of fields: whether the usual directories are
meant, and what follows. There is nothing if other options stand there, or if nothing follows. -/
def commandOptions? (usualPath : Bool) : List Text → Option (Bool × List Text)
  | [] => none
  | a :: rest =>
    if a = Text.ofString "--" then if rest.isEmpty then none else some (usualPath, rest)
    else if a.head? = some Text.dash ∧ 1 < a.length then
      if a.tail.all (· = 0x70) then commandOptions? true rest else none
    else some (usualPath, a :: rest)

/-- The call that fields make up. -/
def Call.ofFields (s : State) (c : Call) : Nat → Call
  | 0 => c
  | fuel + 1 =>
    let word := Text.ofString "command"
    match c.fields with
    | [] => c
    | name :: rest =>
      if name = word ∧ (c.plain ∨ (s.functions.lookup word).isNone) then
        match commandOptions? c.usualPath rest with
        | some (usualPath, fields) => Call.ofFields s ⟨fields, true, usualPath⟩ fuel
        | none => c
      else c

/-- The call of a simple command with the given fields. -/
def State.call (s : State) (fields : List Text) : Call :=
  Call.ofFields s ⟨fields, false, false⟩ fields.length

/-- Whether a call is of a command whose assignments stay and whose faults end the script. -/
def Call.isSpecial (c : Call) : Bool := !c.plain && c.fields.head?.any (· ∈ specialNames)

/-- Runs a program that is called by a name. It takes the place of the shell if nothing is left to
run. -/
def callProgram (i : Inner) (searchPath name : Text) (args : List Text) : Eval Unit := do
  let s ← get
  match s.program? searchPath name with
  | .ok (_, program) =>
    if s.final ∧ s.traps.all (·.2 = []) then becomeProgram i program name args
    else noteEnding (← runProgram i program name args)
  | .error a =>
    warn (name ++ Text.ofString ": " ++ a.reason)
    setStatus a.status

/-- Runs a call. Without any words, the status is that of the last script inside a word. -/
def Call.run (c : Call) (i : Inner) (tested : Bool) : Eval Unit := do
  let s ← get
  match c.fields with
  | [] => setStatus (s.inner.getD 0)
  | name :: args =>
    match if c.plain then none else s.functions.lookup name with
    | some body => callFunction i tested body args
    | none =>
      match ownCommands.find? (·.name = name) with
      | some own => own.call i tested c.isSpecial args
      | none =>
        callProgram i (if c.usualPath then defaultPath else s.searchPath) name args

/-! ### Words and assignments -/

/-- The fields of words after those that are `done`. After a command that sets variables an
assignment is one field. -/
def fieldsOf (i : Inner) : List Text → List Word → Eval (List Text)
  | done, [] => return done
  | done, w :: ws => do
    let setters := ["export", "readonly", "local"].map Text.ofString
    let isSetter := ((← get).call done).fields.head?.any (· ∈ setters)
    let fields ←
      match if isSetter then assignment? w else none with
      | some (name, value) => do pure [name ++ Text.equals :: (← plainWord i value)]
      | none => wordFields i w
    fieldsOf i (done ++ fields) ws

/-- Does assignments one after the other, and gives the text of each. If they hold only for a
command (`holds`), the variables are saved; they are then handed on to programs, as they are if
`exported`. -/
def assignAll (i : Inner) (holds exported : Bool) : List (Text × Word) → Eval (List Text)
  | [] => return []
  | (name, word) :: rest => do
    let value ← plainWord i word
    if holds then modify (·.saveVariable name)
    assign name value
    if holds || exported then
      modify fun s =>
        s.setVariable name ((s.bindings.lookup name).map ({ · with exported := true }))
    return (name ++ Text.equals :: value) :: (← assignAll i holds exported rest)

/-- Writes a command down before it runs, if that is asked for. -/
def trace (streams : Descriptors) (texts : List Text) : Eval Unit := do
  if ← isOn 'x' then
    modify fun s =>
      let start := (s.value? (Text.ofString "PS4")).getD []
      let line := start ++ Text.join [Text.space] texts ++ [Text.newline]
      { s with machine := s.machine.complain streams line }

/-- Runs a simple command. -/
def runSimple (i : Inner) (tested : Bool) (line : Nat) (assignments : List (Text × Word))
    (words : List Word) (redirects : List Redirect) : Eval Unit := do
  modify ({ · with line, inner := none })
  let fields ← fieldsOf i [] words
  let call := (← get).call fields
  let isExec := call.fields.head? = some (Text.ofString "exec")
  let actions ← redirects.mapM (actionOf i)
  let old := (← get).descriptors
  if ← performAll i actions then
    let holds := !call.fields.isEmpty && !call.isSpecial
    let body : Eval Unit := do
      let done ← assignAll i holds (isExec && 1 < call.fields.length) assignments
      trace old (done ++ call.fields)
      call.run i tested
    ensuring (if holds then withLocals body else body)
      (if isExec then return () else restoreStreams old actions)
  else
    restoreStreams old actions
    setStatus 2
    if call.isSpecial then throw .fails

end ShaderSplice.Tool.Shell
