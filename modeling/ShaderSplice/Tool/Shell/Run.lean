import ShaderSplice.Tool.Shell.Simple

/-!
# Running scripts

Every kind of command has a function that runs it, which is given how to run what is nested inside
(`Inner`). `inner` ties the knot, one level of nesting for each step, and the bounds of loops and of
nesting make each run end.

    script ──Source.next──▶ Command ──runCommand──▶ State
-/

namespace ShaderSplice.Tool.Shell

/-- Ends the script if a command has failed whose failure nothing looks at, where that is asked
for. A command that ends what is around it can fail as well. -/
def checkExit (tested : Bool) : Eval Unit := do
  if !tested ∧ (← get).status ≠ 0 ∧ (← isOn 'e') then throw .exits

/-! ### Loops -/

/-- How a part of a loop ends. -/
inductive Turn where
  | finished
  /-- The next round is to start. -/
  | again
  /-- The loop is to be left. -/
  | leave
deriving DecidableEq, Repr

/-- Runs a part of a loop. What concerns loops around it is passed on. -/
def turn (body : Eval Unit) : Eval Turn := do
  match ← flowOf body with
  | none => return .finished
  | some (.breaks n) => if n ≤ 1 then return .leave else throw (.breaks (n - 1))
  | some (.continues n) => if n ≤ 1 then return .again else throw (.continues (n - 1))
  | some f => throw f

/-- Runs something with one more loop around it. -/
def inLoop (body : Eval Unit) : Eval Unit := do
  modify fun s => { s with loops := s.loops + 1 }
  followedBy body (modify fun s => { s with loops := s.loops - 1 })

/-- No loop has more rounds than this. -/
def maximumRounds : Nat := 1000000

/-- The rounds of a loop; `status` is that of the last round. -/
def rounds (test body : Eval Unit) (goesOn : Nat → Bool) : Nat → Nat → Eval Unit
  | 0, status => setStatus status
  | fuel + 1, status => do
    match ← turn test with
    | .leave => setStatus status
    | .again => rounds test body goesOn fuel status
    | .finished =>
      if goesOn (← get).status then
        match ← turn body with
        | .leave => return ()
        | .finished | .again => rounds test body goesOn fuel (← get).status
      else setStatus status

/-- Runs something for each of several values of a variable. -/
def forEach (name : Text) (body : Eval Unit) : List Text → Eval Unit
  | [] => return ()
  | t :: ts => do
    assign name t
    match ← turn body with
    | .leave => return ()
    | .finished | .again => forEach name body ts

/-! ### Copies -/

/-- Runs the commands of a pipeline in copies of the shell. Each but the last writes what the next
one reads, and all of them see the status of the command before the pipeline; `input` is what the
first one reads, if it is not the input of the shell. -/
def runPipeline (i : Inner) (tested : Bool) (input : Option Handle) : List Command → Eval Unit
  | [] => return ()
  | c :: cs => do
    let reading (s : State) : State :=
      match input with
      | some h => s.setStream 0 (some h)
      | none => s
    if cs.isEmpty then inCopy i reading (i.run tested c)
    else
      let n ← newPipe []
      let before := (← get).status
      inCopy i (fun s => (reading s).setStream 1 (some ⟨n, false, true⟩)) (i.run tested c)
      setStatus before
      runPipeline i tested (some ⟨n, true, false⟩) cs

/-- Runs a command in the background, where it has nothing to read. -/
def runBackground (i : Inner) (c : Command) : Eval Unit := do
  let s ← get
  let (machine, n) := s.machine.addChannel .null
  set { s with machine }
  inCopy i (·.setStream 0 (some ⟨n, true, false⟩)) (i.run false c)
  modify fun s =>
    { s with jobs := (processNumber + 1 + s.jobs.length, s.status) :: s.jobs, status := 0 }

/-! ### Commands -/

/-- Whether a text fits one of several patterns. -/
def fitsAny (i : Inner) (t : Text) : List Word → Eval Bool
  | [] => return false
  | w :: ws => do
    if fits (← patternWord i w) t then return true else fitsAny i t ws

/-- Runs the first of several cases that a text fits. -/
def runCase (i : Inner) (tested : Bool) (t : Text) : List (List Word × Command) → Eval Unit
  | [] => setStatus 0
  | (patterns, body) :: cases => do
    if ← fitsAny i t patterns then
      match body with
      | .nothing => setStatus 0
      | body => i.run tested body
    else runCase i tested t cases

/-- Runs a command with redirections. -/
def runRedirected (i : Inner) (tested : Bool) (line : Nat) (body : Command)
    (redirects : List Redirect) : Eval Unit := do
  modify ({ · with line })
  let actions ← redirects.mapM (actionOf i)
  if !(← withRedirects i actions (notFinal (i.run tested body))) then
    setStatus 2
    checkExit tested

/-- Runs a command. If `tested`, something looks at whether it fails. -/
def runNode (i : Inner) (tested : Bool) (c : Command) : Eval Unit := do
  match c with
  | .nothing => return ()
  | .simple line assignments words redirects =>
    let flow ← flowOf (runSimple i tested line assignments words redirects)
    if flow.all (· = .returns) then checkExit tested
    resume flow
  | .pipeline cs =>
    runPipeline i tested none cs
    checkExit tested
  | .negation c =>
    notFinal (i.run true c)
    setStatus (if (← get).status = 0 then 1 else 0)
  | .both first second =>
    notFinal (i.run true first)
    if (← get).status = 0 then i.run tested second
  | .either first second =>
    notFinal (i.run true first)
    if (← get).status ≠ 0 then i.run tested second
  | .sequence first second =>
    notFinal (i.run tested first)
    i.run tested second
  | .background c => runBackground i c
  | .subshell line body redirects =>
    modify ({ · with line })
    let actions ← redirects.mapM (actionOf i)
    inCopy i id do
      actions.forM (·.perform i)
      i.run tested body
    checkExit tested
  | .redirected line body redirects => runRedirected i tested line body redirects
  | .conditional test yes no =>
    notFinal (i.run true test)
    if (← get).status = 0 then i.run tested yes
    else
      match no with
      | .nothing => setStatus 0
      | no => i.run tested no
  | .loop whileFails test body =>
    notFinal (inLoop (rounds (i.run true test) (i.run tested body)
      (fun status => (status = 0) != whileFails) maximumRounds 0))
  | .each line name words body =>
    modify ({ · with line })
    match (← words.mapM (wordFields i)).flatten with
    | [] => setStatus 0
    | fields => notFinal (inLoop (forEach name (i.run tested body) fields))
  | .choice line word cases =>
    modify ({ · with line })
    let t ← plainWord i word
    runCase i tested t cases
  | .define name body =>
    modify fun s =>
      { s with functions := (name, body) :: s.functions.filter (·.1 ≠ name), status := 0 }

/-- Runs the actions for signals that have come. -/
def runPending (i : Inner) : Eval Unit := do
  let s ← get
  set { s with pending := [] }
  for n in s.pending do
    match s.traps.lookup (Builtin.signalName n) with
    | some action => runAction i action
    | none => pure ()

/-- Runs a command, unless commands are only to be read, and then the actions for signals. -/
def runCommand (i : Inner) (tested : Bool) (c : Command) : Eval Unit := do
  if !(← isOn 'n') then
    runNode i tested c
    if !(← get).pending.isEmpty then runPending i

/-! ### Scripts -/

/-- Runs a script from where its reader stands, one complete line after the other, and tells whether
there was a command. -/
def runSource (i : Inner) (tested : Bool) : Nat → Source → Eval Bool
  | 0, _ => return false
  | fuel + 1, source => do
    match { source with nextDocument := (← get).nextDocument }.next with
    | .error e =>
      modify ({ · with line := e.line })
      abort e.problem
    | .ok (c, source) =>
      modify fun s =>
        { s with
          documents := source.documents ++ s.documents, nextDocument := source.nextDocument }
      match c with
      | some c => i.run tested c
      | none => pure ()
      if source.isAtEnd then return c.isSome
      else
        let more ← runSource i tested fuel { source with documents := [] }
        return c.isSome || more

/-- Runs a script. -/
def runScript (i : Inner) (tested : Bool) (text : Text) : Eval Bool := do
  runSource i tested (text.length + 2) (.ofText text 1 (← get).nextDocument)

/-! ### Shells -/

/-- The variables that a shell has from the start. -/
def startVariables (environment : List (Text × Text)) : List (Text × Variable) :=
  let own := [("IFS", " \t\n"), ("OPTIND", "1"), ("PS1", "$ "), ("PS2", "> "), ("PS4", "+ ")]
  let given := environment.filter fun (name, _) => isName name && name ≠ Text.ofString "IFS"
  given.map (fun (name, value) => (name, ⟨some value, true, false⟩)) ++
    own.map fun (name, value) => (Text.ofString name, ⟨some (Text.ofString value), false, false⟩)

/-- A shell that is called by the name `self`, at its start. -/
def State.start (m : Machine) (p : Process) (self : Text) : State :=
  { machine := m
    directory := p.directory
    previous := p.directory
    descriptors := p.descriptors
    bindings := startVariables p.environment
    functions := []
    parameters := []
    self
    status := 0
    inner := none
    line := 0
    active := none
    options := []
    documents := []
    nextDocument := 0
    final := false
    loops := 0
    calls := 0
    locals := []
    optionPlace := (1, none)
    traps := []
    pending := []
    leaving := none
    jobs := [] }

/-- What there is to read for the shell itself. -/
def ownInput : Eval Text := do
  let s ← get
  match s.descriptors.lookup 0 with
  | none => return []
  | some h =>
    match s.machine.readAll h with
    | .ok (text, machine) =>
      set { s with machine }
      return text.filter (· ≠ 0)
    | .error _ => return []

/-- Runs the script that the arguments of a shell name: with the option `c` a text, otherwise the
script in a file, or what there is to read. -/
def shellBody (i : Inner) (args : List Text) : Eval Unit := do
  let (letters, operands, _) ← Builtin.takeOptions (Text.ofString "cl") (args.length + 1) args
  let readsInput ← isOn 's'
  let fromInput (parameters : List Text) : Eval Unit := do
    modify ({ · with parameters })
    let text ← ownInput
    let _ ← i.script false text
  if letters.contains 0x63 then
    match operands with
    | [] => abort (Text.ofString "-c requires an argument")
    | text :: rest =>
      modify fun s => { s with self := rest.headD s.self, parameters := rest.tail }
      let _ ← i.script false text
      if readsInput then fromInput rest.tail
  else if readsInput then fromInput operands
  else
    match operands with
    | [] =>
      modify fun s => { s with options := 0x73 :: s.options }
      fromInput []
    | path :: parameters =>
      let text ← Builtin.readScript path
      modify ({ · with self := path, parameters })
      let _ ← i.script false text

/-- Runs a shell. -/
def runShell (i : Inner) (m : Machine) (p : Process) (self : Text) (args : List Text) :
    Machine × Ending :=
  match (finishShell i (shellBody i args)).run (State.start m p self) with
  | (.error (.killed n), s) | (.error (.died n), s) => (s.machine, .signal n)
  | (_, s) => (s.machine, .status s.status)

/-! ### Tying the knot -/

/-- How commands are run with at most the given number of levels inside each other. What is nested
deeper ends the shell. -/
def inner : Nat → Inner
  | 0 =>
    { run := fun _ _ => throw (.killed 11)
      pieces := fun _ _ => throw (.killed 11)
      script := fun _ _ => throw (.killed 11)
      shell := fun m _ _ _ => (m, .signal 11) }
  | depth + 1 =>
    let i := inner depth
    { run := runCommand i
      pieces := wordPieces i
      script := runScript i
      shell := runShell i }

/-- The deepest nesting that is run. -/
def maximumLevels : Nat := 10000

/-- Runs the shell, which is called by the name `self`. -/
def shell (m : Machine) (p : Process) (self : Text) (args : List Text) : Machine × Ending :=
  runShell (inner maximumLevels) m p self args

end ShaderSplice.Tool.Shell
