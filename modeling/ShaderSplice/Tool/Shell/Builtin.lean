import ShaderSplice.Tool.Shell.State
import ShaderSplice.Tool.Shell.Test

/-!
# The shell's own commands

These commands are part of the shell, since they change its state or are used in most scripts. What
goes wrong in one of them stops it with a message (`abort`); a command that only has bad news sets
its status.
-/

namespace ShaderSplice.Tool.Shell.Builtin

/-- Prints what a command has to say. -/
def say (t : Text) : Eval Unit := do
  if !(← print 1 t) then
    warn ((← get).active.getD [] ++ Text.ofString ": I/O error")
    setStatus ((← get).status ||| 1)

/-- The number that an argument is. -/
def natural (w : Text) : Eval Nat := do
  if w ≠ [] ∧ w.all isDigitByte then
    let n := w.toNat
    if n < 0x80000000 then return n
  abort (Text.ofString "Illegal number: " ++ w)

/-- Fails on an option that a command does not have. -/
def illegalOption {α : Type} (letter : UInt8) : Eval α :=
  abort (Text.ofString "Illegal option -" ++ [letter])

/-- The letters of the options at the start of arguments, each with its value if it takes one, and
the operands. -/
def options (plain valued : Text) (args : List Text) :
    Eval (List (UInt8 × Text) × List Text) := do
  match args with
  | [] => return ([], [])
  | a :: rest =>
    if a = Text.ofString "--" then return ([], rest)
    else if a.head? = some Text.dash ∧ 1 < a.length then
      let rec letters : Text → Eval (List (UInt8 × Text) × Bool)
        | [] => return ([], false)
        | b :: bs => do
          if valued.contains b then
            return ([(b, bs)], bs.isEmpty)
          else if plain.contains b then
            let (found, open?) ← letters bs
            return ((b, []) :: found, open?)
          else illegalOption b
      let (found, needsValue) ← letters a.tail
      match needsValue, rest with
      | true, v :: rest =>
        let (more, operands) ← options plain valued rest
        let value := found.getLast?.map fun (b, _) => (b, v)
        return (found.dropLast ++ value.toList ++ more, operands)
      | true, [] =>
        abort (Text.ofString "No arg for -" ++ (found.getLast?.map (·.1)).toList ++
          Text.ofString " option")
      | false, rest =>
        let (more, operands) ← options plain valued rest
        return (found ++ more, operands)
    else return ([], args)
termination_by args.length

/-! ### Printing -/

/-- Prints its words. -/
def echo (args : List Text) : Eval Unit := say (Format.echo args)

/-- Prints its words in a format. -/
def printf (args : List Text) : Eval Unit := do
  let (_, operands) ← options [] [] args
  match operands with
  | [] => abort (Text.ofString "usage: printf format [arg ...]")
  | format :: words =>
    let out := Format.printf format words
    out.warnings.forM warn
    match out.problem with
    | some problem =>
      warn problem
      let _ ← print 1 out.output
      setStatus 2
      throw .fails
    | none =>
      setStatus (if out.warnings.isEmpty then 0 else 1)
      say out.output

/-! ### Conditions -/

/-- Whether a test on a file holds. -/
def testFile (s : State) (op path : Text) : Bool :=
  match s.machine.find s.directory path with
  | .error _ => false
  | .ok e =>
    let isDirectory := e = .node .directory
    let isProgram := match e with | .program _ => true | _ => false
    let isFile := isProgram || (match e with | .node (.file _) => true | _ => false)
    if op = Text.ofString "-f" then isFile
    else if op = Text.ofString "-d" then isDirectory
    else if op = Text.ofString "-x" then isDirectory || isProgram
    else if op = Text.ofString "-s" then
      isDirectory || isProgram || (match e with | .node (.file t) => !t.isEmpty | _ => false)
    else if op = Text.ofString "-c" then e = .device
    else op ∈ ["-e", "-r", "-w", "-O", "-G"].map Text.ofString

/-- Whether a test on two files holds. -/
def testFiles (s : State) (op a b : Text) : Bool :=
  op = Text.ofString "-ef" &&
    (match s.machine.resolve s.directory a, s.machine.resolve s.directory b with
    | .ok l, .ok l' => l == l' && (s.machine.entryAt? l).isSome
    | _, _ => false)

/-- Evaluates a condition. -/
def test (args : List Text) : Eval Unit := do
  let s ← get
  match Test.verdict ⟨testFile s, testFiles s⟩ false args with
  | .error problem => abort problem
  | .ok b => setStatus (if b then 0 else 1)

/-- Evaluates a condition between brackets. -/
def bracket (args : List Text) : Eval Unit := do
  if args.getLast?.any (·.head? = some 0x5d) then test args.dropLast
  else abort (Text.ofString "missing ]")

/-! ### Reading -/

/-- Whether a glyph separates fields. -/
def isSeparator (separators : Text) (g : Glyph) : Bool :=
  !g.quoted && separators.contains g.byte

/-- Whether a glyph is white space that separates fields. -/
def isSpace (separators : Text) (g : Glyph) : Bool :=
  isSeparator separators g && isSpaceSeparator g.byte

/-- `gs` without the separators between a field, which stands before it, and the next one. -/
def dropSeparator (separators : Text) (gs : List Glyph) : List Glyph :=
  let space := isSpace separators
  match gs with
  | [] => []
  | g :: r =>
    if space g then
      match r.dropWhile space with
      | h :: r => if isSeparator separators h then r.dropWhile space else h :: r
      | [] => []
    else r.dropWhile space

/-- Where the last field of a line is cut, as far as the line has been seen. -/
structure Cut where
  /-- The place from which on everything is left out, if nothing else comes. -/
  place : Option Nat
  /-- Whether white space was the separator after the first field. -/
  spaced : Bool
deriving DecidableEq, Repr

/-- The cut after one more glyph at a place. A quoted glyph is not looked at. -/
def Cut.step (separators : Text) (c : Cut) (g : Glyph) (place : Nat) : Cut :=
  if g.quoted then { c with spaced := false }
  else if isSpace separators g then { c with place := c.place.or (some place) }
  else if isSeparator separators g ∧ c.spaced then { c with spaced := false }
  else ⟨none, false⟩

/-- The last field of a line: all that is left, without the separator after it if it is one field,
and otherwise without the white space after it. -/
def lastField (separators : Text) (gs : List Glyph) : List Glyph :=
  let start := (gs.takeWhile fun g => !isSeparator separators g).length
  let first : Cut := ⟨some start, gs[start]?.any (isSpace separators)⟩
  let cut := (gs.zipIdx.drop (start + 1)).foldl (fun c (g, n) => c.step separators g n) first
  gs.take (cut.place.getD gs.length)

/-- The fields of a line for a number of variables. -/
def lineFields (separators : Text) : Nat → List Glyph → List (List Glyph)
  | 0, _ => []
  | n + 1, gs =>
    let gs := gs.dropWhile (isSpace separators)
    if gs = [] then List.replicate (n + 1) []
    else if n = 0 then [lastField separators gs]
    else
      let field := gs.takeWhile fun g => !isSeparator separators g
      field :: lineFields separators n (dropSeparator separators (gs.drop field.length))

/-- Reads a line byte by byte; the second component tells whether its end was found. If not `raw`,
a backslash quotes what follows it, or joins the next line. -/
def readLine (raw : Bool) : Nat → Eval (List Glyph × Bool)
  | 0 => return ([], false)
  | fuel + 1 => do
    match ← nextByte with
    | none => return ([], false)
    | some b =>
      if b = Text.newline then return ([], true)
      else if b = 0 then readLine raw fuel
      else if b = 0x5c ∧ !raw then
        match ← nextByte with
        | none => return ([], false)
        | some c =>
          let (rest, ended) ← readLine raw fuel
          return (if c = Text.newline then rest else ⟨c, true⟩ :: rest, ended)
      else
        let (rest, ended) ← readLine raw fuel
        return (⟨b, false⟩ :: rest, ended)
where
  /-- The next byte of the input. -/
  nextByte : Eval (Option UInt8) := do
    let s ← get
    match s.descriptors.lookup 0 with
    | none => return none
    | some h =>
      match s.machine.readByte h with
      | .ok (b, machine) =>
        set { s with machine }
        return b
      | .error _ => return none

/-- No line is longer than this. -/
def longestLine : Nat := 1000000

/-- Reads a line, and makes its fields the values of variables. -/
def read (args : List Text) : Eval Unit := do
  let (opts, names) ← options (Text.ofString "r") (Text.ofString "p") args
  if names.isEmpty then abort (Text.ofString "arg count")
  let (gs, ended) ← readLine (opts.any (·.1 = 0x72)) longestLine
  let s ← get
  let fields := lineFields s.separators names.length gs
  for (name, field) in names.zip fields do
    if !isName name then abort (name ++ Text.ofString ": bad variable name")
    assign name (textOf field)
  setStatus (if ended then 0 else 1)

/-! ### Variables -/

/-- A text between single quotes, as a script would write it. -/
def scriptQuoted (t : Text) : Text :=
  0x27 :: t.flatMap (fun b => if b = 0x27 then Text.ofString "'\"'\"'" else [b]) ++ [0x27]

/-- Prints variables as the command that would set them. -/
def listVariables (command : String) (p : Variable → Bool) : Eval Unit := do
  let chosen := (← get).bindings.filter (p ·.2)
  let sorted := chosen.mergeSort fun a b => a.1 ≤ b.1
  say (sorted.flatMap fun (name, v) =>
    Text.ofString (command ++ " ") ++ name ++
      ((v.value.map fun t => Text.equals :: scriptQuoted t).getD []) ++ [Text.newline])

/-- The name and the value in an argument. -/
def nameAndValue (a : Text) : Text × Option Text :=
  match a.cut? [Text.equals] with
  | some (name, value) => (name, some value)
  | none => (a, none)

/-- Sets a property of variables, and their values. -/
def mark (command : String) (shown : Variable → Bool) (change : Variable → Variable)
    (args : List Text) : Eval Unit := do
  let (opts, operands) ← options (Text.ofString "p") [] args
  if operands.isEmpty ∨ !opts.isEmpty then listVariables command shown
  else
    for a in operands do
      let (name, value) := nameAndValue a
      if !isName name then abort (name ++ Text.ofString ": bad variable name")
      match value with
      | some v => assign name v
      | none => pure ()
      modify fun s =>
        let old := (s.bindings.lookup name).getD ⟨none, false, false⟩
        s.setVariable name (some (change old))

/-- Hands variables on to programs. -/
def export_ (args : List Text) : Eval Unit :=
  mark "export" (·.exported) ({ · with exported := true }) args

/-- Keeps variables from changing. -/
def readonly (args : List Text) : Eval Unit :=
  mark "readonly" (·.readonly) ({ · with readonly := true }) args

/-- Takes variables or functions away. -/
def unset (args : List Text) : Eval Unit := do
  let (opts, names) ← options (Text.ofString "vf") [] args
  let functions := opts.any (·.1 = 0x66)
  for name in names do
    if functions then
      modify fun s => { s with functions := s.functions.filter (·.1 ≠ name) }
    else
      if !isName name then abort (name ++ Text.ofString ": bad variable name")
      if ((← get).bindings.lookup name).any (·.readonly) then
        abort (name ++ Text.ofString ": is read only")
      modify fun s => s.setVariable name none

/-- Makes variables belong to the function that is being run. -/
def local_ (args : List Text) : Eval Unit := do
  if (← get).locals.isEmpty then abort (Text.ofString "not in a function")
  for a in args do
    let (name, value) := nameAndValue a
    if !isName name then abort (name ++ Text.ofString ": bad variable name")
    modify (·.saveVariable name)
    match value with
    | some v => assign name v
    | none => pure ()

/-! ### Parameters and options -/

/-- Drops positional parameters. -/
def shift (args : List Text) : Eval Unit := do
  let n ← match args with
    | [] => pure 1
    | a :: _ => natural a
  let s ← get
  if s.parameters.length < n then abort (Text.ofString "can't shift that many")
  set { s with parameters := s.parameters.drop n }

/-- The options of a shell by their names. -/
def optionNames : List (String × Char) :=
  [("errexit", 'e'), ("noglob", 'f'), ("ignoreeof", 'I'), ("interactive", 'i'), ("monitor", 'm'),
    ("noexec", 'n'), ("stdin", 's'), ("xtrace", 'x'), ("verbose", 'v'), ("vi", 'V'), ("emacs", 'E'),
    ("noclobber", 'C'), ("allexport", 'a'), ("notify", 'b'), ("nounset", 'u'), ("privileged", 'p')]

/-- The options that have no letter, and no effect. -/
def idleOptions : List String := ["nolog", "debug"]

/-- The letters of the options of a shell. -/
def optionLetters : Text := optionNames.map (·.2.toUInt8)

/-- Turns an option on or off. -/
def setOption (letter : UInt8) (isOn : Bool) : Eval Unit := modify fun s =>
  let others := s.options.filter (· ≠ letter)
  { s with options := if isOn then letter :: others else others }

/-- Says which options are on, or how to set all options as they are. -/
def listOptions (asCommands : Bool) : Eval Unit := do
  let s ← get
  let rows := optionNames.map (fun (name, letter) => (name, s.options.contains letter.toUInt8)) ++
    idleOptions.map (·, false)
  if asCommands then
    say (rows.flatMap fun (name, on) =>
      Text.ofString ((if on then "set -o " else "set +o ") ++ name ++ "\n"))
  else
    say (Text.ofString "Current option settings\n" ++ rows.flatMap fun (name, on) =>
      Text.ofString (name.pushn ' ' (16 - name.length) ++ (if on then "on\n" else "off\n")))

/-- Turns the option of a name on or off. -/
def setOptionNamed (name : Text) (isOn : Bool) : Eval Unit := do
  match optionNames.find? fun (n, _) => Text.ofString n = name with
  | some (_, letter) => setOption letter.toUInt8 isOn
  | none =>
    if idleOptions.all fun n => Text.ofString n ≠ name then
      abort (Text.ofString "Illegal option -o " ++ name)

/-- Sets the options at the start of arguments, and gives the rest, and whether the options were
ended. `extra` are letters that are accepted beside the usual ones. -/
def takeOptions (extra : Text) : Nat → List Text → Eval (Text × List Text × Bool)
  | 0, args => return ([], args, false)
  | fuel + 1, args =>
    match args with
    | [] => return ([], [], false)
    | a :: rest => do
      let isOn := a.head? = some Text.dash
      if a = Text.ofString "--" then return ([], rest, true)
      else if a = [Text.dash] then return ([], rest, false)
      else if (isOn ∨ a.head? = some 0x2b) ∧ 1 < a.length then
        let (found, rest) ← letters isOn a.tail rest
        let (more, operands, ended) ← takeOptions extra fuel rest
        return (found ++ more, operands, ended)
      else return ([], args, false)
where
  /-- Sets the options of one argument. -/
  letters (isOn : Bool) : Text → List Text → Eval (Text × List Text)
    | [], rest => return ([], rest)
    | b :: bs, rest => do
      if b = 0x6f then
        match rest with
        | [] =>
          listOptions (!isOn)
          letters isOn bs []
        | name :: rest =>
          setOptionNamed name isOn
          letters isOn bs rest
      else if extra.contains b then
        let (found, rest) ← letters isOn bs rest
        return (b :: found, rest)
      else if optionLetters.contains b then
        setOption b isOn
        letters isOn bs rest
      else abort (Text.ofString "Illegal option -" ++ [b])

/-- Sets options and positional parameters. A single dash ends the options, and turns the two off
that write commands down. -/
def set_ (args : List Text) : Eval Unit := do
  let (_, operands, ended) ← takeOptions [] (args.length + 1) args
  if args[args.length - operands.length - 1]? = some [Text.dash] then
    setOption 0x78 false
    setOption 0x76 false
  if ended ∨ !operands.isEmpty then modify ({ · with parameters := operands })

/-- Writes a message of one line without any name before it. -/
def remark (t : Text) : Eval Unit := modify fun s =>
  { s with machine := s.machine.complain s.descriptors (t ++ [Text.newline]) }

/-- Whether letters of options have a letter, and if so whether it takes a value. -/
def takesValue? (letters : Text) (letter : UInt8) : Option Bool :=
  match letters with
  | [] => none
  | [b] => if b = letter then some false else none
  | b :: 0x3a :: r => if b = letter then some true else takesValue? r letter
  | b :: c :: r => if b = letter then some false else takesValue? (c :: r) letter

/-- The letters of the next option among arguments, and how many arguments have been passed with
it; nothing is left of the letters if there is no option any more. -/
def nextLetters (args : List Text) (index : Nat) (offset : Option Nat) : Text × Nat :=
  let rest : Text :=
    match offset with
    | some k => ((args[index - 2]?).getD []).drop k
    | none => []
  if 1 < index ∧ rest ≠ [] then (rest, index - 1)
  else
    match args[index - 1]? with
    | some (0x2d :: b :: r) =>
      if b = Text.dash ∧ r = [] then ([], index) else (b :: r, index)
    | _ => ([], index - 1)

/-- Finds the next option among arguments. -/
def getopts (args : List Text) : Eval Unit := do
  match args with
  | letters :: name :: given =>
    let s ← get
    let args := if given.isEmpty then s.parameters else given
    let optind := Text.ofString "OPTIND"
    let optarg := Text.ofString "OPTARG"
    let index := max 1 ((s.value? optind).getD []).toNat
    let offset := if index = s.optionPlace.1 then s.optionPlace.2 else none
    let (index, offset) := if args.length + 1 < index then (1, none) else (index, offset)
    let silent := letters.head? = some 0x3a
    let finish (found : UInt8) (passed : Nat) (offset : Option Nat) : Eval Unit := do
      assign optind (Text.ofNat (passed + 1))
      assign name [found]
      modify ({ · with optionPlace := (passed + 1, offset) })
    match nextLetters args index offset with
    | ([], passed) =>
      finish 0x3f passed none
      setStatus 1
    | (b :: rest, passed) =>
      let place := ((args[passed - 1]?).getD []).length - rest.length
      let complain (problem : Text) (quiet : UInt8) (offset : Option Nat) : Eval Unit := do
        if silent then assign optarg [b]
        else
          remark problem
          modify (·.setVariable optarg none)
        finish (if silent then quiet else 0x3f) passed offset
      match takesValue? letters b with
      | none => complain (Text.ofString "Illegal option -" ++ [b]) 0x3f (some place)
      | some false =>
        assign optarg []
        finish b passed (some place)
      | some true =>
        if rest ≠ [] then
          assign optarg rest
          finish b passed none
        else
          match args[passed]? with
          | some value =>
            assign optarg value
            finish b (passed + 1) none
          | none =>
            complain (Text.ofString "No arg for -" ++ [b] ++ Text.ofString " option") 0x3a none
  | _ => abort (Text.ofString "Usage: getopts optstring var [arg]")

/-! ### Leaving -/

/-- Leaves the shell. -/
def exit (args : List Text) : Eval Unit := do
  match args with
  | [] => modify fun s => { s with status := s.leaving.getD s.status }
  | a :: _ => setStatus ((← natural a) % 256)
  throw .exits

/-- Leaves a function or a script. -/
def return_ (args : List Text) : Eval Unit := do
  match args with
  | [] => pure ()
  | a :: _ => setStatus (← natural a)
  throw .returns

/-- Leaves loops, or goes on with the next round of one. -/
def leaveLoop (flow : Nat → Flow) (args : List Text) : Eval Unit := do
  let n ← match args with
    | [] => pure 1
    | a :: _ => natural a
  if n = 0 then abort (Text.ofString "Illegal number: 0")
  let loops := (← get).loops
  setStatus 0
  if 0 < loops then throw (flow (min n loops))

/-! ### Directories -/

/-- Prints the directory. -/
def pwd (_ : List Text) : Eval Unit := do
  let l := (← get).directory
  say (Text.slash :: Path.ofElements (if l.head? = some [] then l.tail else l) ++ [Text.newline])

/-- Goes to another directory, or back to the one before. -/
def cd (args : List Text) : Eval Unit := do
  let (_, operands) ← options (Text.ofString "LP") [] args
  let s ← get
  let path := (operands.head?.or (s.value? (Text.ofString "HOME"))).getD []
  let enter (l : Location) : Eval Unit := set { s with directory := l, previous := s.directory }
  if path = [Text.dash] then
    enter s.previous
    pwd []
  else if path ≠ [] then
    let refuse : Eval Unit := abort (Text.ofString "can't cd to " ++ path)
    match s.machine.resolve s.directory path with
    | .error _ => refuse
    | .ok l => if s.machine.entryAt? l = some (.node .directory) then enter l else refuse

/-! ### Signals -/

/-- The signals by their numbers. -/
def signals : List (Nat × String) :=
  [(1, "HUP"), (2, "INT"), (3, "QUIT"), (4, "ILL"), (5, "TRAP"), (6, "ABRT"), (7, "BUS"),
    (8, "FPE"), (9, "KILL"), (10, "USR1"), (11, "SEGV"), (12, "USR2"), (13, "PIPE"),
    (14, "ALRM"), (15, "TERM"), (17, "CHLD"), (18, "CONT"), (19, "STOP"), (20, "TSTP"),
    (21, "TTIN"), (22, "TTOU"), (23, "URG"), (24, "XCPU"), (25, "XFSZ"), (26, "VTALRM"), (27, "PROF"),
    (28, "WINCH"), (29, "IO"), (30, "PWR"), (31, "SYS"), (34, "RTMIN"), (64, "RTMAX")] ++
  (List.range 15).map (fun k => (35 + k, "RTMIN+" ++ (k + 1).repr)) ++
  (List.range 14).map fun k => (50 + k, "RTMAX-" ++ (14 - k).repr)

/-- The number of a signal that is given by its number or its name. -/
def signal? (t : Text) : Option Nat :=
  if t ≠ [] ∧ t.all isDigitByte then
    let n := t.toNat
    if n < 65 then some n else none
  else if t.map upperByte = Text.ofString "EXIT" then some 0
  else (signals.find? fun (_, name) => Text.ofString name = t.map upperByte).map (·.1)

/-- The name of a signal. -/
def signalName (n : Nat) : Text :=
  if n = 0 then Text.ofString "EXIT"
  else ((signals.lookup n).map Text.ofString).getD (Text.ofNat n)

/-- Says what to run on signals, or at the end. -/
def trap (args : List Text) : Eval Unit := do
  let (_, operands) ← options [] [] args
  match operands with
  | [] =>
    let traps := (← get).traps.mergeSort fun a b => a.1 ≤ b.1
    say (traps.flatMap fun (name, action) =>
      Text.ofString "trap -- " ++ scriptQuoted action ++ [Text.space] ++ name ++ [Text.newline])
  | first :: rest =>
    let (action, names) : Option Text × List Text :=
      match rest with
      | [] => (none, [first])
      | _ =>
        if (signal? first).isSome ∧ first.all isDigitByte then (none, operands)
        else if first = [Text.dash] then (none, rest)
        else (some first, rest)
    for name in names do
      match signal? name with
      | none =>
        remark (Text.ofString "trap: " ++ name ++ Text.ofString ": bad trap")
        setStatus 1
      | some n =>
        modify fun s =>
          let others := s.traps.filter (·.1 ≠ signalName n)
          { s with traps := (action.toList.map (signalName n, ·)) ++ others }

/-- Prints the mask for new files. -/
def umask (args : List Text) : Eval Unit := do
  if args.isEmpty then say (Text.ofString "0022\n")

end ShaderSplice.Tool.Shell.Builtin
