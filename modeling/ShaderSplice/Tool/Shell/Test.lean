import ShaderSplice.Tool.Format

/-!
# Conditions

`test` evaluates a condition that is given as words. Whether a word is an operator or an operand
depends on how many words there are and on what stands beside it: a word that could be an operator
is an operand where nothing, or a binary operator, follows.
-/

namespace ShaderSplice.Tool.Shell.Test

/-- What a word is in a condition. -/
inductive Kind where
  | nothing
  | operand
  | unary
  | binary
  | negation
  | conjunction
  | disjunction
  | openParen
  | closeParen
deriving DecidableEq, Repr

/-- The operators with one operand. -/
def unaryOperators : List Text :=
  ["-r", "-w", "-x", "-e", "-f", "-d", "-c", "-b", "-p", "-u", "-g", "-k", "-s", "-t", "-z", "-n",
    "-h", "-O", "-G", "-L", "-S"].map Text.ofString

/-- The operators with two operands. -/
def binaryOperators : List Text :=
  ["=", "!=", "<", ">", "-eq", "-ne", "-ge", "-gt", "-le", "-lt", "-nt", "-ot", "-ef"].map
    Text.ofString

/-- What a word is on its own. -/
def operator (w : Text) : Kind :=
  if w ∈ unaryOperators then .unary
  else if w ∈ binaryOperators then .binary
  else if w = Text.ofString "!" then .negation
  else if w = Text.ofString "-a" then .conjunction
  else if w = Text.ofString "-o" then .disjunction
  else if w = Text.ofString "(" then .openParen
  else if w = Text.ofString ")" then .closeParen
  else .operand

/-- What the first of several words is. -/
def kind (words : List Text) : Kind :=
  match words with
  | [] => .nothing
  | w :: rest =>
    match operator w, rest with
    | .unary, [] => .operand
    | .unary, [_] => .unary
    | .unary, next :: _ :: _ => if operator next = .binary then .operand else .unary
    | .openParen, [] => .operand
    | k, _ => k

/-- What conditions ask about the world: whether a test on a file, or on two, holds. -/
structure World where
  file : Text → Text → Bool
  files : Text → Text → Text → Bool

/-- A step of evaluation, which keeps the words from the current one on. -/
abbrev Eval := StateT (List Text) (Except Text)

/-- Goes on by some words. -/
def advance (n : Nat) : Eval Unit := modify (·.drop n)

/-- What the word some words ahead is. -/
def kindAt (n : Nat) : Eval Kind := return kind ((← get).drop n)

/-- The number that a word is. -/
def number (w : Text) : Except Text Int :=
  let body := w.dropWhile isBlankByte
  let negative := body.head? = some 0x2d
  let body := if negative ∨ body.head? = some 0x2b then body.tail else body
  let digits := body.takeWhile isDigitByte
  let magnitude : Nat := Text.toNat digits
  let value : Int := if negative then -magnitude else magnitude
  if digits = [] ∨ !(body.drop digits.length).all isBlankByte ∨ value < -wordLimit ∨
      wordLimit ≤ value then
    .error (Text.ofString "Illegal number: " ++ w)
  else .ok value

/-- Whether two operands stand in a relation. -/
def holds (world : World) (a op b : Text) : Except Text Bool :=
  let compare (p : Int → Int → Bool) : Except Text Bool := do return p (← number a) (← number b)
  if op = Text.ofString "=" then .ok (a == b)
  else if op = Text.ofString "!=" then .ok (a != b)
  else if op = Text.ofString "<" then .ok (a < b)
  else if op = Text.ofString ">" then .ok (b < a)
  else if op = Text.ofString "-eq" then compare (· == ·)
  else if op = Text.ofString "-ne" then compare (· != ·)
  else if op = Text.ofString "-ge" then compare (· ≥ ·)
  else if op = Text.ofString "-gt" then compare (· > ·)
  else if op = Text.ofString "-le" then compare (· ≤ ·)
  else if op = Text.ofString "-lt" then compare (· < ·)
  else .ok (world.files op a b)

/-- Whether a condition with one operand holds. -/
def holdsFor (world : World) (op a : Text) : Except Text Bool :=
  if op = Text.ofString "-z" then .ok (a == [])
  else if op = Text.ofString "-n" then .ok (a != [])
  else if op = Text.ofString "-t" then do
    let _ ← number a
    return false
  else .ok (world.file op a)

/-- A simple condition, or one in parentheses that `inner` evaluates. -/
def primary (world : World) (inner : Kind → Eval Bool) (k : Kind) : Eval Bool := do
  let missing (op : Text) : Eval Bool := throw (op ++ Text.ofString ": argument expected")
  match k with
  | .nothing => return false
  | .openParen =>
    advance 1
    let next ← kindAt 0
    if next = .closeParen then return false
    let value ← inner next
    advance 1
    if (← kindAt 0) = .closeParen then return value
    else throw (Text.ofString "closing paren expected")
  | .unary =>
    let op := (← get).headD []
    advance 1
    match ← get with
    | [] => missing op
    | a :: _ => liftM (holdsFor world op a)
  | _ =>
    if (← kindAt 1) = .binary then
      let a := (← get).headD []
      advance 1
      let op := (← get).headD []
      advance 1
      match ← get with
      | [] => missing op
      | b :: _ => liftM (holds world a op b)
    else return !((← get).headD []).isEmpty

/-- A condition that may be negated. -/
def negated (world : World) (inner : Kind → Eval Bool) : Nat → Kind → Eval Bool
  | 0, _ => return false
  | fuel + 1, k => do
    if k = .negation then
      let next ← kindAt 1
      if next ≠ .nothing then advance 1
      return !(← negated world inner fuel next)
    else primary world inner k

/-- Conditions of which all have to hold. -/
def conjunction (world : World) (inner : Kind → Eval Bool) : Nat → Kind → Eval Bool
  | 0, _ => return false
  | fuel + 1, k => do
    let a ← negated world inner ((← get).length + 1) k
    if (← kindAt 1) = .conjunction then
      advance 2
      let b ← conjunction world inner fuel (← kindAt 0)
      return a && b
    else return a

/-- Conditions of which one has to hold. -/
def disjunction (world : World) (inner : Kind → Eval Bool) : Nat → Kind → Eval Bool
  | 0, _ => return false
  | fuel + 1, k => do
    let a ← conjunction world inner ((← get).length + 1) k
    if (← kindAt 1) = .disjunction then
      advance 2
      let b ← disjunction world inner fuel (← kindAt 0)
      return a || b
    else return a

/-- Conditions with at most the given number of levels inside each other. -/
def nested (world : World) : Nat → Kind → Eval Bool
  | 0 => fun _ => return false
  | depth + 1 => fun k => do
    disjunction world (nested world depth) ((← get).length + 1) k

/-- Evaluates a condition from its first word on, which is of the given kind. -/
def run (world : World) (k : Kind) (words : List Text) : Except Text Bool := do
  let (value, rest) ← (nested world (words.length + 1) k).run words
  match rest with
  | w :: _ :: _ =>
    .error ((if w = [] then [] else w ++ Text.ofString ": ") ++ Text.ofString "unexpected operator")
  | _ => return value

/-- Whether a condition holds, or does not hold if it is `denied`. Three words with a binary
operator between are a comparison whatever the operands look like; otherwise parentheses around all
and a denial of all come first. To deny it twice is to deny it. -/
def verdict (world : World) (denied : Bool) : List Text → Except Text Bool
  | [] => .ok denied
  | w :: rest => do
    let words := w :: rest
    let isShort := words.length = 3 ∨ words.length = 4
    let isComparison := words.length = 3 ∧ (rest.head?.any fun w => operator w = .binary)
    let isEnclosed := w = Text.ofString "(" ∧ rest.getLast? = some (Text.ofString ")")
    if isComparison then return (← run world .operand words) != denied
    else if isShort ∧ isEnclosed then
      return (← run world (kind rest.dropLast) rest.dropLast) != denied
    else if isShort ∧ w = Text.ofString "!" then verdict world true rest
    else return (← run world (kind words) words) != denied

end ShaderSplice.Tool.Shell.Test
