import ShaderSplice.Tool.Cat
import ShaderSplice.Tool.Tr
import ShaderSplice.Tool.Shell.Expansion

/-!
# Programs

A command that is not the shell's own is a program. A name with a slash is its path; any other name
is looked for in the directories that the variable `PATH` lists.
-/

namespace ShaderSplice.Tool.Shell

/-- Runs an installed program that is called by the name `self`. `shell` runs the program `sh`. -/
def launch (shell : Machine → Process → Text → List Text → Machine × Ending) (m : Machine)
    (p : Process) (program self : Text) (args : List Text) : Machine × Ending :=
  let ended (r : Machine × Nat) : Machine × Ending := (r.1, .status r.2)
  if program = Text.ofString "sh" then shell m p self args
  else if program = Text.ofString "cat" then ended (Cat.run m p self args)
  else if program = Text.ofString "tr" then ended (Tr.run m p self args)
  else (m, .status (if program = Text.ofString "true" then 0 else 1))

/-! ### Finding programs -/

/-- The directories in which programs are looked for, unless a script says otherwise. -/
def defaultPath : Text :=
  Text.ofString "/usr/local/sbin:/usr/local/bin:/usr/sbin:/usr/bin:/sbin:/bin"

/-- The paths that a name may have. -/
def candidates (searchPath name : Text) : List Text :=
  (searchPath.splitOn 0x3a).map fun d => if d = [] then name else d ++ Text.slash :: name

/-- What is said where a program should be found and is not, and the status of that. -/
structure Absence where
  reason : Text
  status : Nat
deriving DecidableEq, Repr

/-- What is said about an error when a program is run. -/
def Absence.ofErrno (e : Errno) : Absence :=
  if e = .noEntry ∨ e = .notDirectory then ⟨Text.ofString "not found", 127⟩
  else ⟨errorSentence e, if e = .nameTooLong then 127 else 126⟩

/-- The program at the first of several paths that has one, or what the last fault says. -/
def firstProgram (s : State) (fault : Absence) : List Text → Except Absence (Text × Text)
  | [] => .error fault
  | path :: paths =>
    match s.machine.find s.directory path with
    | .ok (.program name) => .ok (path, name)
    | .ok (.node (.file _)) => firstProgram s (.ofErrno .permission) paths
    | .ok _ => firstProgram s ⟨errorSentence .permission, fault.status⟩ paths
    | .error e =>
      if e = .noEntry ∨ e = .notDirectory then firstProgram s fault paths
      else firstProgram s ⟨errorSentence e, fault.status⟩ paths

/-- The path of a program and its name among those installed. -/
def State.program? (s : State) (searchPath name : Text) : Except Absence (Text × Text) :=
  if name.contains Text.slash then
    match s.machine.executable s.directory name with
    | .ok program => .ok (name, program)
    | .error e => .error (.ofErrno e)
  else firstProgram s (.ofErrno .noEntry) (candidates searchPath name)

/-- Where programs are looked for. -/
def State.searchPath (s : State) : Text := (s.value? (Text.ofString "PATH")).getD []

/-! ### Running programs -/

/-- Runs a program and waits for its end. -/
def runProgram (i : Inner) (program self : Text) (args : List Text) : Eval Ending := do
  let s ← get
  let (machine, ending) := launch i.shell s.machine s.process program self args
  set { s with machine }
  return ending

/-- Runs a program in the place of the shell. -/
def becomeProgram (i : Inner) (program self : Text) (args : List Text) : Eval Unit := do
  match ← runProgram i program self args with
  | .signal n => throw (.died n)
  | .status n =>
    modify ({ · with traps := [] })
    setStatus n
    throw .exits

end ShaderSplice.Tool.Shell
