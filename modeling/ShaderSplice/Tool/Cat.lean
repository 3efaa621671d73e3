import ShaderSplice.Tool.Machine
import ShaderSplice.Tool.Options

/-!
# Copying files

`cat` writes the files that it is given one after the other, or what it reads itself. On the way it
can number lines, drop repeated empty lines, and show what cannot be seen. These views go byte by
byte (`View.step`) and run on from one file into the next.
-/

namespace ShaderSplice.Tool.Cat

/-- What `cat` can be told to do. -/
inductive Choice where
  | all
  | numberNonblank
  | ends
  | number
  | squeeze
  | tabs
  | nonprinting
  | endsVisible
  | tabsVisible
  | ignored
  | info
deriving DecidableEq, Repr

/-- The options of `cat`. -/
def options : List (OptionSpec Choice) :=
  [⟨some 'b', "number-nonblank", .numberNonblank⟩, ⟨some 'n', "number", .number⟩,
    ⟨some 's', "squeeze-blank", .squeeze⟩, ⟨some 'v', "show-nonprinting", .nonprinting⟩,
    ⟨some 'E', "show-ends", .ends⟩, ⟨some 'T', "show-tabs", .tabs⟩, ⟨some 'A', "show-all", .all⟩,
    ⟨some 'e', none, .endsVisible⟩, ⟨some 't', none, .tabsVisible⟩, ⟨some 'u', none, .ignored⟩,
    ⟨none, "help", .info⟩, ⟨none, "version", .info⟩]

/-- How bytes are shown. -/
structure Style where
  ends : Bool
  tabs : Bool
  nonprinting : Bool
  number : Bool
  numberNonblank : Bool
  squeeze : Bool
deriving DecidableEq, Repr

/-- The style that options ask for. -/
def Style.ofChoices (cs : List Choice) : Style :=
  let any (l : List Choice) : Bool := cs.any (· ∈ l)
  { ends := any [.all, .ends, .endsVisible]
    tabs := any [.all, .tabs, .tabsVisible]
    nonprinting := any [.all, .nonprinting, .endsVisible, .tabsVisible]
    number := any [.number, .numberNonblank]
    numberNonblank := any [.numberNonblank]
    squeeze := any [.squeeze] }

/-- Where in the lines a view has come to. -/
inductive Spot where
  | inside
  | lineStart
  /-- At the start of a line, after one empty line or after several. -/
  | afterBlank (several : Bool)
deriving DecidableEq, Repr

/-- What a view carries from one byte to the next. -/
structure View where
  lineNumber : Nat
  spot : Spot
  /-- A carriage return that waits for what follows it. -/
  heldReturn : Bool
deriving DecidableEq, Repr

/-- The number of a line as it is printed. -/
def numeral (n : Nat) : Text :=
  let digits := Text.ofNat n
  List.replicate (6 - digits.length) Text.space ++ digits ++ [0x09]

/-- A byte that is no newline, as it is shown. -/
def Style.show (s : Style) (b : UInt8) : Text :=
  let caret (c : UInt8) : Text :=
    if c < 32 then [0x5e, c + 64] else if c = 127 then [0x5e, 0x3f] else [c]
  if b = 0x09 then (if s.tabs then caret b else [b])
  else if !s.nonprinting then [b]
  else if b < 128 then caret b
  else Text.ofString "M-" ++ caret (b - 128)

/-- The view after one more byte, and what is written for it. -/
def View.step (s : Style) (v : View) (b : UInt8) : View × Text :=
  if b = Text.newline then
    let spot : Spot :=
      match v.spot with
      | .inside => .lineStart
      | .lineStart => .afterBlank false
      | .afterBlank _ => .afterBlank true
    if spot = .afterBlank true ∧ s.squeeze then ({ v with spot }, [])
    else
      let numbered := spot ≠ .lineStart ∧ s.number ∧ !s.numberNonblank
      let ending :=
        if s.ends then (if v.heldReturn then Text.ofString "^M$" else Text.ofString "$") else []
      (⟨if numbered then v.lineNumber + 1 else v.lineNumber, spot, false⟩,
        (if numbered then numeral v.lineNumber else []) ++ ending ++ [b])
  else
    let held : Text := if v.heldReturn then [Text.carriageReturn] else []
    let numbered := v.spot ≠ .inside ∧ s.number
    let number := if numbered then numeral v.lineNumber else []
    let next := if numbered then v.lineNumber + 1 else v.lineNumber
    if b = Text.carriageReturn ∧ s.ends ∧ !s.nonprinting then
      (⟨next, .inside, true⟩, held ++ number)
    else (⟨next, .inside, false⟩, held ++ number ++ s.show b)

/-- The view after a text, and what is written for it. -/
def View.run (s : Style) (v : View) (t : Text) : View × Text :=
  let (v, parts) := t.foldl (fun (v, parts) b =>
    let (v, shown) := v.step s b
    (v, shown :: parts)) (v, ([] : List Text))
  (v, parts.reverse.flatten)

/-- Whether what a handle reads is the file that another one writes, at a place that has been
written already or will be. -/
def feedsItself (m : Machine) (input output : Handle) : Bool :=
  match m.channels[input.channel]?, m.channels[output.channel]? with
  | some (.file l p _), some (.file l' q appends) =>
    let size := (m.contents l).length
    l == l' && p < size && p < (if appends then size else q)
  | _, _ => false

/-- Copies what a handle reads. The last component tells what went wrong. -/
def copy (s : Style) (output : Handle) (m : Machine) (v : View) (input : Handle) :
    Machine × View × Option Text :=
  if feedsItself m input output then (m, v, some (Text.ofString "input file is output file"))
  else
    match m.readAll input with
    | .error e => (m, v, some (errorSentence e))
    | .ok (t, m) =>
      let (v, shown) := v.run s t
      match m.write output shown with
      | .ok m => (m, v, none)
      | .error e => (m, v, some (errorSentence e))

/-- Copies the named files one after the other; the last component tells whether all went well. -/
def copyAll (self : Text) (s : Style) (p : Process) (output : Handle) (m : Machine) (v : View) :
    List Text → Machine × View × Bool
  | [] => (m, v, true)
  | name :: names =>
    let opened : Except Errno (Machine × Handle) :=
      if name = [Text.dash] then
        match p.descriptors.lookup 0 with
        | some h => .ok (m, h)
        | none => .error .badDescriptor
      else m.openFile p name .read
    let (m, v, problem) : Machine × View × Option Text :=
      match opened with
      | .error e => (m, v, some (errorSentence e))
      | .ok (m, input) => copy s output m v input
    let m :=
      match problem with
      | some what =>
        let line := [self, fileName name, what].intersperse (Text.ofString ": ")
        m.complain p.descriptors (line.flatten ++ [Text.newline])
      | none => m
    let (m, v, good) := copyAll self s p output m v names
    (m, v, problem.isNone && good)

/-- Runs `cat`, which was called by the name `self`. -/
def run (m : Machine) (p : Process) (self : Text) (args : List Text) : Machine × Nat :=
  match OptionSpec.parse options true args with
  | .error e => (m.complain p.descriptors (misuse self e.message), 1)
  | .ok (choices, names) =>
    match p.descriptors.lookup 1 with
    | none =>
      (m.complain p.descriptors
        (self ++ Text.ofString ": standard output: Bad file descriptor\n"), 1)
    | some output =>
      if Choice.info ∈ choices then (m, 0)
      else
        let names := if names = [] then [[Text.dash]] else names
        let (m, v, good) :=
          copyAll self (Style.ofChoices choices) p output m ⟨1, .lineStart, false⟩ names
        let m :=
          if v.heldReturn then (m.write output [Text.carriageReturn]).toOption.getD m else m
        let m :=
          if [Text.dash] ∈ names ∧ (p.descriptors.lookup 0).isNone then
            m.complain p.descriptors
              (self ++ Text.ofString ": closing standard input: Bad file descriptor\n")
          else m
        (m, if good then 0 else 1)

end ShaderSplice.Tool.Cat
