import ShaderSplice.Tool.Shell.Arithmetic
import ShaderSplice.Tool.Shell.State

/-!
# Expansion

The words of a command are expanded before it runs: parameters are replaced by their values, scripts
by what they print, and expressions by their numbers. Scripts inside words run in a copy of the
shell; only what they do to the machine stays.
-/

namespace ShaderSplice.Tool.Shell

/-- How a word is expanded. -/
structure Manner where
  /-- Whether the word may become several fields. -/
  fields : Bool
  /-- Whether plain text may be split too, as in the word that stands in for a parameter. -/
  splitsText : Bool
deriving DecidableEq, Repr

/-- How what is nested inside a command or a word is run and expanded. -/
structure Inner where
  /-- Runs a command. If `tested`, its failure is being looked at, and does not end the script. -/
  run : (tested : Bool) → Command → Eval Unit
  pieces : Manner → Word → Eval (List Piece)
  /-- Runs a script, and tells whether there was a command in it. -/
  script : (tested : Bool) → Text → Eval Bool
  /-- Runs a shell that is called by a name with arguments. -/
  shell : Machine → Process → Text → List Text → Machine × Ending

/-! ### Copies of the shell -/

/-- The number of the process that a shell is. -/
def processNumber : Nat := 4242

/-- Runs an action that is no command of the script. The status stays as it is, unless the action
leaves the shell with another. -/
def runAction (i : Inner) (action : Text) : Eval Unit := do
  let s ← get
  set { s with leaving := some s.status }
  notFinal do let _ ← i.script false action
  modify ({ · with status := s.status, leaving := s.leaving })

/-- Runs what is to be run at the end of a shell. -/
def runExitTrap (i : Inner) : Eval Unit := do
  let s ← get
  let name := Text.ofString "EXIT"
  match s.traps.lookup name with
  | some action =>
    set { s with traps := s.traps.filter (·.1 ≠ name), loops := 0 }
    runAction i action
  | none => return ()

/-- Runs something to the end of a shell. -/
def finishShell (i : Inner) (body : Eval Unit) : Eval Unit := do
  match ← flowOf body with
  | some (.killed n) => throw (.killed n)
  | some (.died n) => throw (.died n)
  | _ => runExitTrap i

/-- Runs something in a copy of the shell, after a change to the copy. The status is that of the
copy. -/
def inCopy (i : Inner) (change : State → State) (body : Eval Unit) : Eval Unit := do
  let s ← get
  let ignored := s.traps.filter (·.2 = [])
  let copy := change { s with traps := ignored, inner := none, jobs := [], final := true }
  let (result, after) := (finishShell i body).run copy
  set { s with machine := after.machine, nextDocument := after.nextDocument }
  match result with
  | .error (.killed n) => throw (.killed n)
  | .error (.died n) => noteEnding (.signal n)
  | _ => setStatus after.status

/-- What a script prints, without the ends of lines after it. -/
def outputOf (i : Inner) (c : Command) : Eval Text := do
  let n ← newPipe []
  let before := (← get).status
  inCopy i (·.setStream 1 (some ⟨n, false, true⟩)) (i.run false c)
  modify fun s => { s with inner := some s.status, status := before }
  let text := ((← get).piped n).filter (· ≠ 0)
  return Text.dropEndWhile (· = Text.newline) text

/-! ### Parameters -/

/-- The letters of options in the order in which they are shown. -/
def optionOrder : Text := Text.ofString "pubaCEVvxsnmiIfe"

/-- The value of a parameter other than the two that stand for all positional ones. -/
def State.parameter? (s : State) (name : Text) : Option Text :=
  match name with
  | [0x23] => some (Text.ofNat s.parameters.length)
  | [0x3f] => some (Text.ofNat s.status)
  | [0x24] => some (Text.ofNat processNumber)
  | [0x21] => s.jobs.head?.map fun j => Text.ofNat j.1
  | [0x2d] => some (optionOrder.filter (s.options.contains ·))
  | [0x30] => some s.self
  | _ =>
    if name.all isDigitByte then
      let n := name.toNat
      if n = 0 then some s.self else s.parameters[n - 1]?
    else s.value? name

/-- Whether a parameter stands for all positional ones. -/
def isAllParameters (name : Text) : Bool := name == [0x40] || name == [0x2a]

/-- What stands between the positional parameters where they make up one text. -/
def State.joint (s : State) : Text :=
  match s.value? (Text.ofString "IFS") with
  | none => [Text.space]
  | some t => t.take 1

/-- The positional parameters as one text. -/
def State.joined (s : State) : Text := Text.join s.joint s.parameters

/-- The value of a parameter as a text. -/
def State.text? (s : State) (name : Text) : Option Text :=
  if isAllParameters name then some s.joined else s.parameter? name

/-- The pieces of a value. -/
def valuePieces (quoted : Bool) (t : Text) : List Piece :=
  [.glyphs (glyphs quoted t) (!quoted)]

/-- The pieces of all positional parameters, one field for each. -/
def parameterFields (quoted : Bool) (ps : List Text) (change : Text → Text) : List Piece :=
  let field (t : Text) : List Piece :=
    (if quoted then [Piece.mark] else []) ++ valuePieces quoted (change t)
  List.flatten (List.intersperse [Piece.gap] (ps.map field))

/-- The pieces of a parameter whose values go through `change`. -/
def State.valueOf (s : State) (m : Manner) (quoted : Bool) (name : Text) (change : Text → Text) :
    List Piece :=
  if isAllParameters name ∧ m.fields ∧ !(quoted ∧ name = [0x2a]) then
    parameterFields quoted s.parameters change
  else valuePieces quoted (change ((s.text? name).getD []))

/-- The text of a word, without splitting it. -/
def plainWord (i : Inner) (w : Word) : Eval Text := do
  return textOf (joinPieces (← i.pieces ⟨false, false⟩ w))

/-- A word as a pattern. -/
def patternWord (i : Inner) (w : Word) : Eval (List Matcher) := do
  return matchersOf (joinPieces (← i.pieces ⟨false, false⟩ w))

/-- What is said about a parameter that is missing. -/
def missing {α : Type} (name : Text) (problem : Text) : Eval α :=
  abort (name ++ Text.ofString ": " ++ problem)

/-- The pieces of a parameter. -/
def parameterPieces (i : Inner) (m : Manner) (quoted : Bool) (name : Text) (use : Use)
    (orEmpty : Bool) (word : Word) : Eval (List Piece) := do
  let s ← get
  let value := s.text? name
  let isThere := if orEmpty then value.any (· ≠ []) else value.isSome
  let here : Eval (List Piece) := return s.valueOf m quoted name id
  let instead : Eval (List Piece) := i.pieces { m with splitsText := !quoted } word
  let demand : Eval Unit := do
    if value.isNone ∧ (← isOn 'u') then missing name (Text.ofString "parameter not set")
  match use with
  | .bad => abort (Text.ofString "Bad substitution")
  | .value =>
    demand
    here
  | .length =>
    demand
    let size :=
      if isAllParameters name then
        s.parameters.foldl (fun n p => n + p.length) (s.parameters.length - 1)
      else (value.getD []).length
    return valuePieces quoted (Text.ofNat size)
  | .default => if isThere then here else instead
  | .alternative => if isThere then instead else return []
  | .assign =>
    if isThere then here
    else
      let t ← plainWord i word
      if !isName name then missing name (Text.ofString "bad variable name")
      assign name t
      return (← get).valueOf m quoted name id
  | .require =>
    if isThere then here
    else
      let t ← plainWord i word
      if word.isEmpty then
        missing name (Text.ofString
          (if orEmpty then "parameter not set or null" else "parameter not set"))
      else missing name t
  | .dropStart longest =>
    demand
    let p ← patternWord i word
    return (← get).valueOf m quoted name (dropStart longest p)
  | .dropEnd longest =>
    demand
    let p ← patternWord i word
    return (← get).valueOf m quoted name (dropEnd longest p)

/-! ### Words -/

/-- The value of an arithmetic expression. -/
def arithmeticText (i : Inner) (expression : Word) : Eval Text := do
  let t ← plainWord i expression
  let s ← get
  match Arithmetic.evaluate s.value? t with
  | .error problem => abort problem
  | .ok (n, changes) =>
    changes.forM fun (name, value) => assign name value
    return Text.ofInt n

/-- The pieces of a part. -/
def partPieces (i : Inner) (m : Manner) (p : Part) : Eval (List Piece) := do
  match p with
  | .literal true t => return [.mark, .glyphs (glyphs true t) false]
  | .literal false t => return [.glyphs (glyphs false t) m.splitsText]
  | .parameter quoted name use orEmpty word => parameterPieces i m quoted name use orEmpty word
  | .output quoted c => return valuePieces quoted (← outputOf i c)
  | .arithmetic quoted e => return valuePieces quoted (← arithmeticText i e)

/-- A word with the home directory for a tilde that stands alone at its start. -/
def State.fromHome (s : State) (w : Word) : Word :=
  match w with
  | .literal false (0x7e :: t) :: rest =>
    match s.value? (Text.ofString "HOME") with
    | some home =>
      if t.head? = some Text.slash ∨ (t = [] ∧ rest.isEmpty) then
        .literal true home :: .literal false t :: rest
      else w
    | none => w
  | _ => w

/-- The pieces of a word. -/
def wordPieces (i : Inner) (m : Manner) (w : Word) : Eval (List Piece) := do
  return (← ((← get).fromHome w).mapM (partPieces i m)).flatten

/-- The fields of a word. -/
def wordFields (i : Inner) (w : Word) : Eval (List Text) := do
  let ps ← wordPieces i ⟨true, false⟩ w
  let s ← get
  let fields := split s.separators ps
  if s.options.contains 0x66 then return fields.map textOf
  else return fields.flatMap (filesFor s.machine s.directory)

end ShaderSplice.Tool.Shell
