import ShaderSplice.Tool.Shell.Syntax
import ShaderSplice.Text.Space
import ShaderSplice.Directive

/-!
# The text of a script while it is read

A reader goes through the text of a script from its start. It remembers the line that it has come
to, a token that it has looked at and not used, and the documents (`<<`) whose text is still to
come: they follow the line on which they are announced.

A backslash at the end of a line joins it with the next, so `peek` never shows the two.
-/

namespace ShaderSplice.Tool.Shell

/-- How a redirection is written. -/
inductive Arrow where
  | file (direction : Direction)
  | document (stripTabs : Bool)
deriving DecidableEq, Repr

/-- A word or an operator of a script. -/
inductive Token where
  | endOfFile
  | newline
  | semicolon
  | ampersand
  | andThen
  | orElse
  | pipe
  | openParen
  | closeParen
  | endCase
  | word (w : Word)
  | keyword (k : String)
  | redirect (stream : Option Nat) (arrow : Arrow)

/-- A document whose text is still to come. -/
structure Pending where
  index : Nat
  delimiter : Text
  stripTabs : Bool
  /-- Whether parameters in the text are replaced. -/
  expands : Bool
deriving DecidableEq, Repr

/-- Where the reader of a script stands. -/
structure Source where
  text : Text
  line : Nat
  pushed : Option Token
  pending : List Pending
  /-- The documents that have been read, by their numbers. -/
  documents : List (Nat × Word)
  /-- The number of the next document. -/
  nextDocument : Nat

/-- A script at its start. -/
def Source.ofText (text : Text) (line nextDocument : Nat) : Source :=
  ⟨text, line, none, [], [], nextDocument⟩

/-- A step of the reader. -/
abbrev Read := StateT Source (Except SyntaxError)

/-- Fails on the line that has been reached. -/
def fail {α : Type} (problem : Text) : Read α := do
  throw ⟨(← get).line, Text.ofString "Syntax error: " ++ problem⟩

/-! ### Bytes -/

/-- A text without the joints of lines at its start, and how many there were. -/
def dropJoints : Text → Nat × Text
  | 0x5c :: 0x0a :: r =>
    let (n, t) := dropJoints r
    (n + 1, t)
  | t => (0, t)

/-- The next byte, which stays where it is. -/
def peek : Read (Option UInt8) := do
  let s ← get
  let (n, text) := dropJoints s.text
  set { s with text, line := s.line + n }
  return text.head?

/-- Takes the next byte as it is. -/
def take : Read (Option UInt8) := do
  let s ← get
  match s.text with
  | [] => return none
  | b :: text =>
    set { s with text, line := if b = Text.newline then s.line + 1 else s.line }
    return some b

/-- Leaves the next byte out. -/
def skip : Read Unit := do let _ ← take

/-- Leaves the next byte out if it is the given one, and tells whether it was. -/
def accept (b : UInt8) : Read Bool := do
  if (← peek) = some b then
    skip
    return true
  else return false

/-- Takes bytes as long as they satisfy `p`, at most `n`. -/
def takeWhile (p : UInt8 → Bool) : Nat → Read Text
  | 0 => return []
  | n + 1 => do
    match ← peek with
    | none => return []
    | some b =>
      if p b then
        skip
        return b :: (← takeWhile p n)
      else return []

/-- The number of bytes that are left. -/
def bytesLeft : Read Nat := return (← get).text.length

/-! ### Names -/

/-- Whether a byte can start a name. -/
def isNameStart (b : UInt8) : Bool := isWordByte b && !isDigitByte b

/-- Whether a text is a name. -/
def isName (t : Text) : Bool := t.all isWordByte && t.head?.any isNameStart

/-- Whether a byte is the name of a parameter that the shell sets itself. -/
def isSpecialParameter (b : UInt8) : Bool := isDigitByte b || b ∈ Text.ofString "!#$*-?@"

/-! ### Words -/

/-- A part with literal bytes before other parts. -/
def literalBefore (quoted : Bool) (t : Text) : List Part → List Part
  | .literal q u :: r =>
    if q = quoted then .literal q (t ++ u) :: r else .literal quoted t :: .literal q u :: r
  | ps => .literal quoted t :: ps

/-- Whether anything in a word is quoted. -/
def isQuoted (w : Word) : Bool :=
  w.any fun p =>
    match p with
    | .literal q _ => q
    | _ => false

/-- The bytes of the literal parts of a word. -/
def literalText (w : Word) : Text :=
  w.flatMap fun p =>
    match p with
    | .literal _ t => t
    | _ => []

/-- The text of a word that is neither quoted nor holds anything else. -/
def plainText? (w : Word) : Option Text :=
  match w with
  | [.literal false t] => some t
  | _ => none

/-- The name and the value of a word that is an assignment. -/
def assignment? (w : Word) : Option (Text × Word) :=
  match w with
  | .literal false t :: rest =>
    match t.cut? [Text.equals] with
    | some (name, value) =>
      if isName name then some (name, if value = [] then rest else .literal false value :: rest)
      else none
    | none => none
  | _ => none

/-! ### Tokens -/

/-- The words that have a meaning of their own where a command can start. -/
def keywords : List String :=
  ["!", "case", "do", "done", "elif", "else", "esac", "fi", "for", "if", "in", "then", "until",
    "while", "\x7b", "\x7d"]

/-- A token as a keyword, if it is one. -/
def Token.asKeyword (t : Token) : Token :=
  match t with
  | .word w =>
    match (plainText? w).bind fun t => keywords.find? fun k => Text.ofString k = t with
    | some k => .keyword k
    | none => t
  | t => t

/-- The keyword that a token is. -/
def Token.keyword? : Token → Option String
  | .keyword k => some k
  | _ => none

/-- How a token is called in a message. -/
def Token.name : Token → String
  | .endOfFile => "end of file"
  | .newline => "newline"
  | .semicolon => "\";\""
  | .ampersand => "\"&\""
  | .andThen => "\"&&\""
  | .orElse => "\"||\""
  | .pipe => "\"|\""
  | .openParen => "\"(\""
  | .closeParen => "\")\""
  | .endCase => "\";;\""
  | .word _ => "word"
  | .keyword k => "\"" ++ k ++ "\""
  | .redirect _ _ => "redirection"

/-- Fails on a token that cannot stand here. -/
def unexpected {α : Type} (t : Token) : Read α := fail (Text.ofString (t.name ++ " unexpected"))

/-- Fails on a token where another one has to stand. -/
def expecting {α : Type} (t : Token) (name : String) : Read α :=
  fail (Text.ofString (t.name ++ " unexpected (expecting " ++ name ++ ")"))

/-- Gives a token back. -/
def pushBack (t : Token) : Read Unit := modify fun s => { s with pushed := some t }

end ShaderSplice.Tool.Shell
