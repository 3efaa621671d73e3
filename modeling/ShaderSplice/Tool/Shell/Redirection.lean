import ShaderSplice.Tool.Shell.Expansion

/-!
# Redirections

The words of all redirections of a command are expanded first, which gives actions on streams. The
actions are then done from left to right until one fails. After a command of the shell itself the
streams lead again to where they led before.

    Redirect ──actionOf──▶ Action ──perform──▶ Descriptors
-/

namespace ShaderSplice.Tool.Shell

/-- Something to do with a stream. -/
inductive Action where
  | openFile (stream : Nat) (direction : Direction) (path : Text)
  /-- The stream leads to where another one leads; if there is none, it is closed. -/
  | copy (stream : Nat) (source : Option Nat)
  /-- The stream reads a document of the script. -/
  | document (stream : Nat) (index : Nat)
deriving DecidableEq, Repr

/-- The stream of an action. -/
def Action.stream : Action → Nat
  | .openFile n _ _ | .copy n _ | .document n _ => n

/-- The action of a redirection. -/
def actionOf (i : Inner) (r : Redirect) : Eval Action := do
  match r with
  | .document stream index => return .document stream index
  | .file stream (.duplicate _) word =>
    match ← plainWord i word with
    | [b] =>
      if isDigitByte b then return .copy stream (some (b.toNat - 0x30))
      else if b = Text.dash then return .copy stream none
      else abort (Text.ofString "Syntax error: Bad fd number")
    | _ => abort (Text.ofString "Syntax error: Bad fd number")
  | .file stream direction word => return .openFile stream direction (← plainWord i word)

/-- How a file is opened for a direction. -/
def Direction.mode : Direction → Machine.Mode
  | .read => .read
  | .write | .overwrite => .write
  | .append => .append
  | .readWrite | .duplicate _ => .readWrite

/-- Opens a file that must not be there yet, unless it is no plain file. -/
def openNew (stream : Nat) (path : Text) : Eval Unit := do
  let s ← get
  match s.machine.find s.directory path with
  | .error _ => openFor stream path .write
  | .ok (.node (.file _)) | .ok (.program _) =>
    abort (Text.ofString "cannot create " ++ path ++ Text.ofString ": File exists")
  | .ok (.node .directory) =>
    abort (Text.ofString "cannot open " ++ path ++ Text.ofString ": Is a directory")
  | .ok _ => openFor stream path .append

/-- Does an action. -/
def Action.perform (i : Inner) (a : Action) : Eval Unit := do
  match a with
  | .openFile stream direction path =>
    if direction = .write ∧ (← isOn 'C') then openNew stream path
    else openFor stream path direction.mode
  | .copy stream none => modify (·.setStream stream none)
  | .copy stream (some source) =>
    if stream = source then return ()
    match (← get).descriptors.lookup source with
    | some h => modify (·.setStream stream (some h))
    | none =>
      -- The stream has been given up by now, which shows if it is the one for messages.
      modify (·.setStream stream none)
      abort (Text.ofNat source ++ Text.ofString ": Bad file descriptor")
  | .document stream index =>
    let text ← plainWord i (((← get).documents.lookup index).getD [])
    let n ← newPipe text
    modify (·.setStream stream (some ⟨n, true, false⟩))

/-- Does actions, and tells whether all could be done. What went wrong has been reported. -/
def performAll (i : Inner) (as : List Action) : Eval Bool := do
  match ← flowOf (as.forM (·.perform i)) with
  | none => return true
  | some .fails => return false
  | flow =>
    resume flow
    return false

/-- Makes the streams of actions lead to where they led before. -/
def restoreStreams (old : Descriptors) (as : List Action) : Eval Unit :=
  modify fun s => as.foldl (fun s a => s.setStream a.stream (old.lookup a.stream)) s

/-- Runs something with redirections, and tells whether they could be done. -/
def withRedirects (i : Inner) (as : List Action) (body : Eval Unit) : Eval Bool := do
  let old := (← get).descriptors
  if ← performAll i as then
    ensuring body (restoreStreams old as)
    return true
  else
    restoreStreams old as
    return false

end ShaderSplice.Tool.Shell
