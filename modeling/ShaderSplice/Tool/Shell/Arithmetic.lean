import ShaderSplice.Tool.Format

/-!
# Arithmetic in scripts

An expression is made of numbers, names, parentheses and operators. It is evaluated while it is
read, with signed words of 64 bits: overflow wraps around. Names stand for variables, which
expressions may also set.
-/

namespace ShaderSplice.Tool.Shell.Arithmetic

/-- What is wrong with an expression. -/
inductive Problem where
  | expectingPrimary
  | expectingEnd
  | expectingColon
  | expectingParen
  | divisionByZero
  | illegalNumber (t : Text)
deriving DecidableEq, Repr

/-- What is said about an expression. -/
def Problem.message (expression : Text) (p : Problem) : Text :=
  let about (what : String) : Text :=
    Text.ofString ("arithmetic expression: " ++ what ++ ": \"") ++ expression ++ [Text.quoteMark]
  match p with
  | .expectingPrimary => about "expecting primary"
  | .expectingEnd => about "expecting EOF"
  | .expectingColon => about "expecting ':'"
  | .expectingParen => about "expecting ')'"
  | .divisionByZero => about "division by zero"
  | .illegalNumber t => Text.ofString "Illegal number: " ++ t

/-- A number, a name or a sign. -/
inductive Token where
  | number (n : Int)
  | name (t : Text)
  | sign (s : String)
  | strange
deriving DecidableEq, Repr

/-- The signs, longer ones first. -/
def signs : List String :=
  ["<<=", ">>=", "<<", ">>", "<=", ">=", "==", "!=", "&&", "||", "*=", "/=", "%=", "+=", "-=", "&=",
    "^=", "|=", "<", ">", "!", "~", "*", "/", "%", "+", "-", "&", "^", "|", "=", "?", ":", "(", ")"]

/-- The tokens of an expression. -/
def tokens : Nat → Text → List Token
  | 0, _ => []
  | fuel + 1, t =>
    match t with
    | [] => []
    | b :: r =>
      if b = Text.space ∨ b = 0x09 ∨ b = Text.newline then tokens fuel r
      else if isDigitByte b then
        let n := Format.leading t
        .number n.magnitude :: tokens fuel n.rest
      else if isWordByte b then
        let name := t.takeWhile isWordByte
        .name name :: tokens fuel (t.drop name.length)
      else
        match signs.find? fun s => (Text.ofString s).isPrefixOf t with
        | some s => .sign s :: tokens fuel (t.drop s.length)
        | none => .strange :: tokens fuel r

/-- A word of 64 bits. -/
def wrap (n : Int) : Int := n.bmod wordCount

/-- The bits of a word. -/
def bits (n : Int) : Nat := (n % wordCount).toNat

/-- The number for a truth value. -/
def truth (b : Bool) : Int := if b then 1 else 0

/-- The operators with two operands, and how closely each binds. -/
def binary : List (String × Nat) :=
  [("*", 10), ("/", 10), ("%", 10), ("+", 9), ("-", 9), ("<<", 8), (">>", 8), ("<", 7), ("<=", 7),
    (">", 7), (">=", 7), ("==", 6), ("!=", 6), ("&", 5), ("^", 4), ("|", 3)]

/-- The value of an operator for two operands. -/
def apply (op : String) (a b : Int) : Except Problem Int :=
  match op with
  | "*" => .ok (wrap (a * b))
  | "/" => if b = 0 then .error .divisionByZero else .ok (wrap (a.tdiv b))
  | "%" => if b = 0 then .error .divisionByZero else .ok (wrap (a.tmod b))
  | "+" => .ok (wrap (a + b))
  | "-" => .ok (wrap (a - b))
  | "<<" => .ok (wrap (a * Nat.shiftLeft 1 (bits b % 64)))
  | ">>" => .ok (a / Nat.shiftLeft 1 (bits b % 64))
  | "<" => .ok (truth (a < b))
  | "<=" => .ok (truth (a ≤ b))
  | ">" => .ok (truth (a > b))
  | ">=" => .ok (truth (a ≥ b))
  | "==" => .ok (truth (a == b))
  | "!=" => .ok (truth (a != b))
  | "&" => .ok (wrap (bits a &&& bits b))
  | "^" => .ok (wrap (bits a ^^^ bits b))
  | "|" => .ok (wrap (bits a ||| bits b))
  | _ => .error .expectingPrimary

/-- What evaluation has come to: the tokens that are left, and the values of variables. -/
structure State where
  rest : List Token
  /-- The values of variables that the expression has set, the last one first. -/
  changes : List (Text × Int)

/-- A step of evaluation. -/
abbrev Eval := StateT State (Except Problem)

/-- Takes a sign, and tells whether it was there. -/
def accept (s : String) : Eval Bool := do
  match (← get).rest with
  | .sign t :: r =>
    if s = t then
      modify ({ · with rest := r })
      return true
    else return false
  | _ => return false

/-- The value of a variable; one that is blank or not set counts as zero. -/
def valueOf (look : Text → Option Text) (name : Text) : Eval Int := do
  match (← get).changes.lookup name with
  | some n => return n
  | none =>
    let t := (look name).getD []
    let n := Format.leading t
    let value : Int := if n.negative then -n.magnitude else n.magnitude
    if n.rest.all isBlankByte ∧ wrap value = value then return value
    else throw (.illegalNumber t)

/-- The operator with which an assignment combines the old value, if the tokens start with one. -/
def assignment? (ts : List Token) : Option (Option String × List Token) :=
  match ts with
  | .sign s :: r =>
    if s = "=" then some (none, r)
    else if s ∈ ["*=", "/=", "%=", "+=", "-=", "<<=", ">>=", "&=", "^=", "|="] then
      some (some (s.dropEnd 1).toString, r)
    else none
  | _ => none

/-- Evaluates a whole expression, or one that is nested inside. If not `live`, nothing is changed
and no division fails. -/
structure Nested where
  assignment : Bool → Eval Int
  choice : Bool → Eval Int
  unary : Bool → Eval Int

/-- A number, a name, an expression in parentheses, or one with a sign before it. -/
def primary (look : Text → Option Text) (n : Nested) (live : Bool) : Eval Int := do
  match (← get).rest with
  | .number k :: r =>
    modify ({ · with rest := r })
    return wrap (min k (wordLimit - 1))
  | .name name :: r =>
    modify ({ · with rest := r })
    if live then valueOf look name else return 0
  | .sign "(" :: r =>
    modify ({ · with rest := r })
    let v ← n.assignment live
    if ← accept ")" then return v else throw .expectingParen
  | .sign "!" :: r =>
    modify ({ · with rest := r })
    return truth ((← n.unary live) == 0)
  | .sign "~" :: r =>
    modify ({ · with rest := r })
    return wrap (-(← n.unary live) - 1)
  | .sign "+" :: r =>
    modify ({ · with rest := r })
    n.unary live
  | .sign "-" :: r =>
    modify ({ · with rest := r })
    return wrap (-(← n.unary live))
  | _ => throw .expectingPrimary

/-- Operators that bind at least as closely as `level`, after a first operand. -/
def binaryFrom (operand : Eval Int) (live : Bool) : Nat → Nat → Int → Eval Int
  | 0, _, a => return a
  | fuel + 1, level, a => do
    match (← get).rest with
    | .sign s :: r =>
      match binary.lookup s with
      | some p =>
        if level ≤ p then
          modify ({ · with rest := r })
          let b ← operand
          let b ← binaryFrom operand live fuel (p + 1) b
          let v ← if live then liftM (apply s a b) else pure 0
          binaryFrom operand live fuel level v
        else return a
      | none => return a
    | _ => return a

/-- Operands of `&&`, after a first one. -/
def andFrom (operand : Bool → Eval Int) (live : Bool) : Nat → Int → Eval Int
  | 0, a => return a
  | fuel + 1, a => do
    if ← accept "&&" then
      let b ← operand (live && a != 0)
      andFrom operand live fuel (truth (a != 0 && b != 0))
    else return a

/-- Operands of `||`, after a first one. -/
def orFrom (operand : Bool → Eval Int) (live : Bool) : Nat → Int → Eval Int
  | 0, a => return a
  | fuel + 1, a => do
    if ← accept "||" then
      let b ← operand (live && a == 0)
      orFrom operand live fuel (truth (a != 0 || b != 0))
    else return a

/-- An expression that may be a choice between two expressions. -/
def choiceOf (look : Text → Option Text) (n : Nested) (live : Bool) : Eval Int := do
  let fuel := (← get).rest.length + 1
  let a ← orFrom conjunction live fuel (← conjunction live)
  if ← accept "?" then
    let yes ← n.assignment (live && a != 0)
    if !(← accept ":") then throw .expectingColon
    let no ← n.choice (live && a == 0)
    return if a ≠ 0 then yes else no
  else return a
where
  /-- An expression with operators that always need both operands. -/
  simple (live : Bool) : Eval Int := do
    let fuel := (← get).rest.length + 1
    binaryFrom (primary look n live) live fuel 0 (← primary look n live)
  /-- An expression with `&&`. -/
  conjunction (live : Bool) : Eval Int := do
    let fuel := (← get).rest.length + 1
    andFrom simple live fuel (← simple live)

/-- A whole expression: an assignment, or a choice. -/
def assignmentOf (look : Text → Option Text) (n : Nested) (live : Bool) : Eval Int := do
  match (← get).rest with
  | .name name :: r =>
    match assignment? r with
    | some (op, r) =>
      modify ({ · with rest := r })
      let b ← n.assignment live
      let v ←
        match op with
        | none => pure b
        | some op => if live then do liftM (apply op (← valueOf look name) b) else pure 0
      if live then modify fun s => { s with changes := (name, v) :: s.changes }
      return v
    | none => choiceOf look n live
  | _ => choiceOf look n live

/-- Evaluation with at most the given number of levels inside each other. -/
def nested (look : Text → Option Text) : Nat → Nested
  | 0 =>
    let tooDeep (_ : Bool) : Eval Int := throw .expectingPrimary
    ⟨tooDeep, tooDeep, tooDeep⟩
  | depth + 1 =>
    let n := nested look depth
    ⟨assignmentOf look n, choiceOf look n, primary look n⟩

/-- The value of an expression, and the variables that it sets, in their order. -/
def evaluate (look : Text → Option Text) (t : Text) :
    Except Text (Int × List (Text × Text)) :=
  let ts := tokens (t.length + 1) t
  match ((nested look (ts.length + 1)).assignment true).run ⟨ts, []⟩ with
  | .error p => .error (p.message t)
  | .ok (v, s) =>
    if s.rest ≠ [] then .error (Problem.expectingEnd.message t)
    else .ok (v, s.changes.reverse.map fun (name, n) => (name, Text.ofInt n))

end ShaderSplice.Tool.Shell.Arithmetic
