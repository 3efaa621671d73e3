import ShaderSplice.Optimizer
import ShaderSplice.Tool.Shell.Run

/-!
# A host with a few programs

`Tool.host` runs commands without an operating system, on the files of a tree. It knows `sh`, `cat`,
`tr`, `true` and `false`, by their names and by their paths; nothing else is installed.

The programs are not the program's own but those of a system, and stand here so that commands can be
run. Whatever runs programs takes a `Host`, and no theorem rests on what they do.
-/

namespace ShaderSplice.Tool

/-- The path of an installed program. -/
def installedPath (name : Text) : Text := Text.ofString "/usr/bin/" ++ name

/-- The name of the program that an invocation runs. A name without a slash is looked for where
programs are installed; no byte of what a program is given may be zero. -/
def programOf (m : Machine) (i : Invocation) : Except StartError Text :=
  if i.path = [] then .error .noCommand
  else if i.path = [Text.slash] then .error (.notProgram i.path .isDirectory)
  else if i.path.contains Text.slash then
    if i.args.any (·.contains 0) then .error (.refused i.path .invalid)
    else (m.executable [] i.path).mapError (.refused i.path)
  else if i.path ∉ installed then .error (.notFound i.path)
  else if i.args.any (·.contains 0) then .error (.refused (installedPath i.path) .invalid)
  else .ok i.path

/-- The status of a program as a whole; one that a signal ends has failed. -/
def Shell.Ending.code : Shell.Ending → Nat
  | .status n => n
  | .signal n => 128 + n

/-- The host on which the installed programs run. -/
def host : Host := fun tree i =>
  let m : Machine := ⟨tree, [.pipe i.input, .pipe [], .pipe []]⟩
  let descriptors : Descriptors :=
    [(0, ⟨0, true, false⟩), (1, ⟨1, false, true⟩), (2, ⟨2, false, true⟩)]
  match programOf m i with
  | .error e => (tree, .error e)
  | .ok program =>
    let environment := (Text.ofString "PATH", Shell.defaultPath) :: i.environment
    let (m, ending) :=
      Shell.launch Shell.shell m ⟨[], descriptors, environment⟩ program i.path i.args
    let written (n : Nat) : Text :=
      match m.channels[n]? with
      | some (.pipe t) => t
      | _ => []
    (m.tree, .ok ⟨written 1, written 2, ending.code⟩)

end ShaderSplice.Tool
