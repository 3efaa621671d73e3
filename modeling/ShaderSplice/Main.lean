import ShaderSplice.CommandLine

/-!
# The program

The program reads the names of the files that it may look at from standard input, one to a line, as
a listing of the source directories gives them. It reads those files, runs the command line on
them, and writes what the run has changed.
-/

namespace ShaderSplice.Main

/-- A text as a string, if its bytes are one. -/
def toString? (t : Text) : Option String := String.fromUTF8? ⟨t.toArray⟩

/-- The lines of standard input. -/
partial def readNames (input : IO.FS.Stream) : IO (List String) := do
  let line ← input.getLine
  if line.isEmpty then return []
  else return line.trimAsciiEnd.toString :: (← readNames input)

/-- The tree of the files with the given names. -/
def readTree (names : List String) : IO FileTree := do
  let files ← names.mapM fun (name : String) => do
    return (Text.ofString name, (← IO.FS.readBinFile name).toList)
  return .ofList files

/-- Writes what differs between two trees. -/
def writeChanges (before after : FileTree) : IO Unit := do
  for (path, node) in FileTree.changes before after do
    match toString? path, node with
    | some name, .directory => IO.FS.createDirAll name
    | some name, .file text => IO.FS.writeBinFile name ⟨text.toArray⟩
    | none, _ => pure ()

end ShaderSplice.Main

open ShaderSplice in
/-- Runs the program with the given arguments. -/
def main (args : List String) : IO UInt32 := do
  let before ← Main.readTree (← Main.readNames (← IO.getStdin))
  let response := CommandLine.run before (args.map Text.ofString)
  Main.writeChanges before response.tree
  (← IO.getStderr).write ⟨response.errors.toArray⟩
  (← IO.getStdout).write ⟨response.output.toArray⟩
  return UInt32.ofNat response.status
