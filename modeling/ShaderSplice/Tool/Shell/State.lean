import ShaderSplice.Tool.Shell.Field
import ShaderSplice.Tool.Shell.Source

/-!
# The state of a shell

A shell is a program that runs scripts. What it knows while it does so is a `State`: the machine
that it runs on, its variables and functions, and where its streams lead. A step of a run (`Eval`)
changes the state, and may stop what is being run (`Flow`).
-/

namespace ShaderSplice.Tool.Shell

/-- A variable. One that has been announced and not set has no value. -/
structure Variable where
  value : Option Text
  exported : Bool
  readonly : Bool
deriving DecidableEq, Repr

/-- What a shell knows. -/
structure State where
  machine : Machine
  directory : Location
  /-- The directory before the last change. -/
  previous : Location
  descriptors : Descriptors
  bindings : List (Text × Variable)
  functions : List (Text × Command)
  /-- The positional parameters. -/
  parameters : List Text
  /-- The name under which the shell was called. -/
  self : Text
  /-- The status of the last command. -/
  status : Nat
  /-- The status of the last script inside a word, if there was one in the current command. -/
  inner : Option Nat
  line : Nat
  /-- The command of the shell itself that is being run. -/
  active : Option Text
  /-- The letters of the options that are on. -/
  options : Text
  /-- The documents of the scripts that have been read, by their numbers. -/
  documents : List (Nat × Word)
  nextDocument : Nat
  /-- Whether nothing is left to run after the current command, so that a program may take the place
  of the shell. -/
  final : Bool
  /-- The number of loops around the current command. -/
  loops : Nat
  /-- The number of functions around the current command. -/
  calls : Nat
  /-- For each command that may have variables of its own, the variables to restore after it. -/
  locals : List (List (Text × Option Variable))
  /-- Where the next option of the arguments is looked for: the number of an argument, and the place
  in the one before it at which more options stand. -/
  optionPlace : Nat × Option Nat
  /-- What to run on a signal, or at the end. -/
  traps : List (Text × Text)
  /-- The signals that have come and whose actions are still to be run. -/
  pending : List Nat
  /-- The status that the shell is left with, where an action for a signal or for the end runs. -/
  leaving : Option Nat
  /-- The numbers of the commands that were started in the background, last one first, and the
  status of each. -/
  jobs : List (Nat × Nat)

/-- How a command stops more than itself. -/
inductive Flow where
  | breaks (loops : Nat)
  | continues (loops : Nat)
  | returns
  | exits
  /-- Something went wrong that has been reported. -/
  | fails
  /-- A signal has ended the shell that the script belongs to. -/
  | killed (signal : Nat)
  /-- A signal has ended the program that had taken the place of the shell. -/
  | died (signal : Nat)
deriving DecidableEq, Repr

/-- How a program ends. -/
inductive Ending where
  | status (n : Nat)
  | signal (n : Nat)
deriving DecidableEq, Repr

/-- A step of a run. -/
abbrev Eval := ExceptT Flow (StateM State)

/-! ### Messages -/

/-- Writes a message with the name of the shell, the line, and the command that is being run. -/
def warn (t : Text) : Eval Unit := modify fun s =>
  let colon : Text := Text.ofString ": "
  let who := s.self ++ colon ++ Text.ofNat s.line ++ colon ++
    (match s.active with
    | some name => name ++ colon
    | none => [])
  { s with machine := s.machine.complain s.descriptors (who ++ t ++ [Text.newline]) }

/-- Sets the status of the last command. -/
def setStatus (n : Nat) : Eval Unit := modify ({ · with status := n })

/-- Writes a message, and stops. -/
def abort {α : Type} (t : Text) : Eval α := do
  warn t
  setStatus 2
  throw .fails

/-- The flow that stops something, if any does. -/
def flowOf (body : Eval Unit) : Eval (Option Flow) :=
  tryCatch (do body; return none) fun f => return some f

/-- Goes on as a flow says. -/
def resume (flow : Option Flow) : Eval Unit :=
  match flow with
  | none => return ()
  | some f => throw f

/-- Whether a flow leaves the shell. -/
def Flow.leaves : Flow → Bool
  | .exits | .fails | .killed _ | .died _ => true
  | .breaks _ | .continues _ | .returns => false

/-- Runs something and then something else, whatever stops the first. -/
def ensuring (body last : Eval Unit) : Eval Unit := do
  let flow ← flowOf body
  last
  resume flow

/-- Runs something and then something else, unless the shell is left. -/
def followedBy (body last : Eval Unit) : Eval Unit := do
  let flow ← flowOf body
  if !flow.any (·.leaves) then last
  resume flow

/-- Runs something after which more is to be run. -/
def notFinal (body : Eval Unit) : Eval Unit := do
  let final := (← get).final
  modify ({ · with final := false })
  body
  modify ({ · with final })

/-- What is said about a program that a signal has ended. -/
def signalText? (n : Nat) : Option String :=
  [(1, "Hangup"), (3, "Quit"), (4, "Illegal instruction"), (5, "Trace/breakpoint trap"),
    (6, "Aborted"), (7, "Bus error"), (8, "Floating point exception"), (9, "Killed"),
    (10, "User defined signal 1"), (11, "Segmentation fault"), (12, "User defined signal 2"),
    (14, "Alarm clock"), (15, "Terminated")].lookup n

/-- Takes over the status of a program, and says what signal has ended it. -/
def noteEnding (e : Ending) : Eval Unit := do
  match e with
  | .status n => setStatus n
  | .signal n =>
    match signalText? n with
    | some t =>
      modify fun s =>
        { s with machine := s.machine.complain s.descriptors (Text.ofString (t ++ "\n")) }
    | none => pure ()
    setStatus (128 + n)

/-- Whether an option is on. -/
def isOn (letter : Char) : Eval Bool := return (← get).options.contains letter.toUInt8

/-! ### Variables -/

/-- The value of a variable. -/
def State.value? (s : State) (name : Text) : Option Text :=
  (s.bindings.lookup name).bind (·.value)

/-- The state with a variable, or without it. -/
def State.setVariable (s : State) (name : Text) (v : Option Variable) : State :=
  { s with bindings := v.toList.map (name, ·) ++ s.bindings.filter (·.1 ≠ name) }

/-- Gives a variable a value. -/
def assign (name value : Text) : Eval Unit := do
  let s ← get
  match s.bindings.lookup name with
  | some v =>
    if v.readonly then abort (name ++ Text.ofString ": is read only")
    else set (s.setVariable name (some { v with value := some value }))
  | none =>
    set (s.setVariable name (some ⟨some value, s.options.contains 0x61, false⟩))

/-- The state in which a variable is to be restored after the current command. -/
def State.saveVariable (s : State) (name : Text) : State :=
  match s.locals with
  | saved :: others => { s with locals := ((name, s.bindings.lookup name) :: saved) :: others }
  | [] => s

/-- The state with the variables restored that the current command had for itself. -/
def State.restoreLocals (s : State) : State :=
  (s.locals.headD []).foldl (fun s (name, old) => s.setVariable name old)
    { s with locals := s.locals.tail }

/-- Runs something that may have variables of its own. -/
def withLocals (body : Eval Unit) : Eval Unit := do
  modify fun s => { s with locals := [] :: s.locals }
  followedBy body (modify (·.restoreLocals))

/-- The bytes at which fields are split. -/
def State.separators (s : State) : Text := (s.value? (Text.ofString "IFS")).getD defaultSeparators

/-- What programs are given of the variables. -/
def State.environment (s : State) : List (Text × Text) :=
  s.bindings.filterMap fun (name, v) =>
    if v.exported then v.value.map (name, ·) else none

/-- What a program is given that the shell starts. -/
def State.process (s : State) : Process := ⟨s.directory, s.descriptors, s.environment⟩

/-! ### Streams -/

/-- The state with a handle for a stream, or without one. -/
def State.setStream (s : State) (stream : Nat) (h : Option Handle) : State :=
  { s with descriptors := s.descriptors.set stream h }

/-- What is said about a file that cannot be opened. -/
def cannotOpen {α : Type} (path : Text) (mode : Machine.Mode) (e : Errno) : Eval α := do
  let isMissing := e = .noEntry ∨ e = .notDirectory
  let why : Text :=
    if !isMissing then errorSentence e
    else Text.ofString (if mode = .read then "No such file" else "Directory nonexistent")
  let what := if mode.writes then "cannot create " else "cannot open "
  abort (Text.ofString what ++ path ++ Text.ofString ": " ++ why)

/-- Opens a file for a stream. -/
def openFor (stream : Nat) (path : Text) (mode : Machine.Mode) : Eval Unit := do
  let s ← get
  match s.machine.openFile s.process path mode with
  | .ok (machine, h) => set ({ s with machine }.setStream stream (some h))
  | .error e => cannotOpen path mode e

/-- A new pipe that holds a text. -/
def newPipe (t : Text) : Eval Nat := do
  let s ← get
  let (machine, n) := s.machine.addChannel (.pipe t)
  set { s with machine }
  return n

/-- What a pipe holds. -/
def State.piped (s : State) (n : Nat) : Text :=
  match s.machine.channels[n]? with
  | some (.pipe t) => t
  | _ => []

/-- Prints on a stream, and tells whether that could be done. -/
def print (stream : Nat) (t : Text) : Eval Bool := do
  let s ← get
  match s.machine.print s.descriptors stream t with
  | .ok machine =>
    set { s with machine }
    return true
  | .error _ => return false

end ShaderSplice.Tool.Shell
