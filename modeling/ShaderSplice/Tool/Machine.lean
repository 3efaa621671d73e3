import ShaderSplice.FileTree

/-!
# The machine that programs run on

Programs read and write through numbered descriptors. A descriptor holds a handle, one end of a
channel: a pipe, an open file with the place that has been reached in it, or nothing at all. Several
handles may lead to one channel, and then share what is left in it.

    descriptor ──▶ Handle ──▶ Channel ──▶ FileTree

The files are those of a tree. Beside it there is a small system of programs and devices, which can
be reached by rooted paths only.
-/

namespace ShaderSplice.Tool

/-- What an open file leads to. -/
inductive Channel where
  /-- A pipe with the bytes that have been written to it and not been read yet. -/
  | pipe (pending : Text)
  /-- A file of the tree, and the number of its bytes that have been passed. -/
  | file (location : Location) (position : Nat) (appends : Bool)
  /-- What is written is lost, and there is nothing to read. -/
  | null
deriving DecidableEq, Repr

/-- One end of a channel. -/
structure Handle where
  channel : Nat
  reads : Bool
  writes : Bool
deriving DecidableEq, Repr

/-- The handles of a program by their numbers. -/
abbrev Descriptors := List (Nat × Handle)

/-- The descriptors with a handle under a number, or without one. -/
def Descriptors.set (d : Descriptors) (n : Nat) (h : Option Handle) : Descriptors :=
  h.toList.map (n, ·) ++ d.filter (·.1 ≠ n)

/-- What programs share: the files, and all channels that have been opened. -/
structure Machine where
  tree : FileTree
  channels : List Channel
deriving DecidableEq, Repr

/-- What a program is given when it starts, beside its arguments. -/
structure Process where
  /-- The directory from which paths lead that are not rooted. -/
  directory : Location
  descriptors : Descriptors
  environment : List (Text × Text)
deriving DecidableEq, Repr

/-- The wording of an error as a sentence of its own. -/
def errorSentence (e : Errno) : Text :=
  match e.message with
  | [] => []
  | b :: r => (if 0x61 ≤ b ∧ b ≤ 0x7a then b - 0x20 else b) :: r

/-! ### Places -/

/-- What lies at a location of the machine. -/
inductive Entry where
  | node (n : Node)
  | program (name : Text)
  | device
  /-- The channel of the program's own descriptor. -/
  | descriptor (n : Nat)
deriving DecidableEq, Repr

/-- The programs that are installed. -/
def installed : List Text := ["sh", "cat", "tr", "true", "false"].map Text.ofString

/-- The location of the root of all paths. -/
def root : Location := [[]]

/-- The location of a rooted path with the given elements. -/
def rooted (es : List String) : Location := root ++ es.map Text.ofString

/-- The directory in which programs are installed. -/
def programDirectory : Location := rooted ["usr", "bin"]

/-- The directories of the system. -/
def systemDirectories : List Location :=
  [["usr"], ["usr", "bin"], ["usr", "sbin"], ["usr", "lib"], ["usr", "local"],
    ["usr", "local", "bin"], ["dev"], ["dev", "fd"], ["etc"], ["tmp"], ["proc"], ["var"],
    ["root"], ["home"]].map rooted

/-- The devices of the system. -/
def systemDevices : List (Location × Entry) :=
  [(rooted ["dev", "null"], .device), (rooted ["dev", "stdin"], .descriptor 0),
    (rooted ["dev", "stdout"], .descriptor 1), (rooted ["dev", "stderr"], .descriptor 2)] ++
  (List.range 10).map fun n => (rooted ["dev", "fd"] ++ [Text.ofNat n], .descriptor n)

/-- What the system has at a location. -/
def systemEntryAt? (l : Location) : Option Entry :=
  if l = root ∨ l ∈ systemDirectories then some (.node .directory)
  else if l.dropLast = programDirectory ∧ l.getLast?.any (· ∈ installed) then
    l.getLast?.map .program
  else systemDevices.lookup l

/-- Where a location leads to that is only another name of a directory. -/
def aliasOf (l : Location) : Location :=
  if l = rooted ["bin"] ∨ l = rooted ["sbin"] ∨ l = rooted ["lib"] then
    root ++ Text.ofString "usr" :: l.tail
  else l

namespace Machine

/-- What lies at a location. -/
def entryAt? (m : Machine) (l : Location) : Option Entry :=
  if l.head? = some [] then (systemEntryAt? l).or ((m.tree.nodes.lookup l).map .node)
  else (m.tree.find? l).map .node

/-- The location that elements lead to from `l`. Each step starts at a directory. -/
def resolveFrom (m : Machine) (l : Location) : List Text → Except Errno Location
  | [] => .ok l
  | e :: es =>
    match m.entryAt? l with
    | none => .error .noEntry
    | some (.node .directory) =>
      if 255 < e.length then .error .nameTooLong
      else m.resolveFrom (aliasOf (FileTree.stepTo l e)) es
    | some _ => .error .notDirectory

/-- No path has more bytes than this. -/
def longestPath : Nat := 4095

/-- The location that a path leads to from `directory`. -/
def resolve (m : Machine) (directory : Location) (path : Text) : Except Errno Location :=
  if path.contains 0 then .error .invalid
  else if path = [] then .error .noEntry
  else if longestPath < path.length then .error .nameTooLong
  else if Path.isRooted path then m.resolveFrom root (Path.elements path).tail
  else m.resolveFrom directory (Path.elements path)

/-- What lies at a path. -/
def find (m : Machine) (directory : Location) (path : Text) : Except Errno Entry := do
  match m.entryAt? (← m.resolve directory path) with
  | some e => return e
  | none => .error .noEntry

/-- The name of the program at a path, if it can be run. -/
def executable (m : Machine) (directory : Location) (path : Text) : Except Errno Text := do
  match ← m.find directory path with
  | .program name => return name
  | _ => .error .permission

/-! ### Channels -/

/-- A new channel, and its number. -/
def addChannel (m : Machine) (c : Channel) : Machine × Nat :=
  ({ m with channels := m.channels ++ [c] }, m.channels.length)

/-- The bytes of the file at a location. -/
def contents (m : Machine) (l : Location) : Text :=
  match m.tree.find? l with
  | some (.file text) => text
  | _ => []

/-- How a file is opened. -/
inductive Mode where
  | read
  /-- The file is made, or loses what it holds. -/
  | write
  /-- The file is made if need be, and what is written comes last. -/
  | append
  /-- The file is made if need be. -/
  | readWrite
deriving DecidableEq, Repr

/-- Whether a file can be read that is opened this way. -/
def Mode.reads (mode : Mode) : Bool := mode == .read || mode == .readWrite

/-- Whether a file can be written that is opened this way. -/
def Mode.writes (mode : Mode) : Bool := mode != .read

/-- Opens a channel for one end of it. -/
def openChannel (m : Machine) (c : Channel) (mode : Mode) : Machine × Handle :=
  let (m, n) := m.addChannel c
  (m, ⟨n, mode.reads, mode.writes⟩)

/-- Opens the file at a path. A path that ends in a slash is one of a directory, and no file is made
there. -/
def openFile (m : Machine) (p : Process) (path : Text) (mode : Mode) :
    Except Errno (Machine × Handle) := do
  let name := Text.dropEndWhile (· = Text.slash) path
  if mode.writes ∧ name ≠ path ∧ name ≠ [] then
    let _ ← m.resolve p.directory name
    throw .isDirectory
  let l ← m.resolve p.directory path
  match m.entryAt? l with
  | some .device => return m.openChannel .null mode
  | some (.descriptor n) =>
    match p.descriptors.lookup n with
    | none => .error .noEntry
    | some h =>
      match m.channels[h.channel]? with
      | some (.file l _ _) => return m.openChannel (.file l 0 (mode == .append)) mode
      | _ => return (m, ⟨h.channel, mode.reads, mode.writes⟩)
  | some (.program _) =>
    if mode.writes then .error .permission else return m.openChannel .null mode
  | some (.node .directory) =>
    if mode.writes then .error .isDirectory else return m.openChannel (.file l 0 false) mode
  | some (.node (.file _)) =>
    let m := if mode = .write then { m with tree := m.tree.insert l (.file []) } else m
    return m.openChannel (.file l 0 (mode == .append)) mode
  | none =>
    if mode = .read then .error .noEntry
    else
      match m.entryAt? l.dropLast with
      | some (.node .directory) =>
        let m := { m with tree := m.tree.insert l (.file []) }
        return m.openChannel (.file l 0 (mode == .append)) mode
      | some _ => .error .notDirectory
      | none => .error .noEntry

/-- Takes bytes from a channel: `take` says how many of those that are left. -/
def readWith (m : Machine) (h : Handle) (take : Text → Nat) : Except Errno (Text × Machine) :=
  if !h.reads then .error .badDescriptor
  else
    match m.channels[h.channel]? with
    | none => .error .badDescriptor
    | some .null => .ok ([], m)
    | some (.pipe pending) =>
      let n := take pending
      .ok (pending.take n, { m with channels := m.channels.set h.channel (.pipe (pending.drop n)) })
    | some (.file l position appends) =>
      if m.entryAt? l = some (.node .directory) then .error .isDirectory
      else
        let rest := (m.contents l).drop position
        let n := min (take rest) rest.length
        .ok (rest.take n,
          { m with channels := m.channels.set h.channel (.file l (position + n) appends) })

/-- Takes all that is left in a channel. -/
def readAll (m : Machine) (h : Handle) : Except Errno (Text × Machine) := m.readWith h List.length

/-- Takes the next byte of a channel, if there is one. -/
def readByte (m : Machine) (h : Handle) : Except Errno (Option UInt8 × Machine) := do
  let (t, m) ← m.readWith h fun _ => 1
  return (t.head?, m)

/-- `old` with `t` written over it from a place on; a gap before it is filled with zero bytes. -/
def overwrite (old : Text) (position : Nat) (t : Text) : Text :=
  old.take position ++ List.replicate (position - old.length) 0 ++ t ++
    old.drop (position + t.length)

/-- Writes to a channel. -/
def write (m : Machine) (h : Handle) (t : Text) : Except Errno Machine :=
  if !h.writes then .error .badDescriptor
  else
    match m.channels[h.channel]? with
    | none => .error .badDescriptor
    | some .null => .ok m
    | some (.pipe pending) =>
      .ok { m with channels := m.channels.set h.channel (.pipe (pending ++ t)) }
    | some (.file l position appends) =>
      if t = [] then .ok m
      else
        let old := m.contents l
        let start := if appends then old.length else position
        .ok
          { tree := m.tree.insert l (.file (overwrite old start t))
            channels := m.channels.set h.channel (.file l (start + t.length) appends) }

/-- Writes to a descriptor, which has to be open if there is anything to write. -/
def print (m : Machine) (d : Descriptors) (n : Nat) (t : Text) : Except Errno Machine :=
  if t = [] then .ok m
  else
    match d.lookup n with
    | none => .error .badDescriptor
    | some h => m.write h t

/-- Writes to the descriptor for messages; a message that cannot be written is lost. -/
def complain (m : Machine) (d : Descriptors) (t : Text) : Machine :=
  match m.print d 2 t with
  | .ok m => m
  | .error _ => m

end Machine
end ShaderSplice.Tool
