import ShaderSplice.Tool.Shell.Source

/-!
# Reading scripts

Words and commands contain each other: a word may hold a script, and a script is made of words. Each
reader is therefore given readers for what is nested inside (`Nested`), and `nested` ties the knot,
one level of nesting for each step.

    bytes ──partsOf──▶ Word ──token──▶ Token ──commandOf──▶ Command ──listOf──▶ script

A script is read one complete line at a time (`Source.next`), so that what comes before a fault can
be run.
-/

namespace ShaderSplice.Tool.Shell

/-- What surrounds a parameter. -/
inductive Surround where
  | plain
  | quoted
  | document
deriving DecidableEq, Repr

/-- Where parts of a word are read. -/
inductive Context where
  /-- Up to a blank or an operator. -/
  | word
  /-- Up to a double quote. -/
  | quotes
  /-- Up to a closing brace. -/
  | braces (surround : Surround)
  /-- Up to two closing parentheses. -/
  | arithmetic
  /-- Up to the end of the text. -/
  | document
deriving DecidableEq, Repr

/-- Whether bytes are quoted in a context. -/
def Context.isQuoted : Context → Bool
  | .word | .braces .plain => false
  | _ => true

/-- What surrounds a parameter in a context. -/
def Context.surround : Context → Surround
  | .word | .braces .plain => .plain
  | .document | .braces .document => .document
  | _ => .quoted

/-- Which commands make up a list. -/
inductive Extent where
  /-- Those up to the end of a line. -/
  | line
  /-- One or more, over several lines. -/
  | body
  /-- Any number, over several lines. -/
  | maybeEmpty
deriving DecidableEq, Repr

/-- Readers for what is nested inside. -/
structure Nested where
  parts : Context → Read (List Part)
  list : Extent → Read Command
  command : Read Command

/-! ### Parts of words -/

/-- Whether a byte ends a word. -/
def endsWord (b : UInt8) : Bool := b ∈ Text.ofString " \t\n;&|<>()"

/-- The bytes up to a single quote. -/
def singleQuoted : Nat → Read Text
  | 0 => fail (Text.ofString "Unterminated quoted string")
  | n + 1 => do
    match ← take with
    | none => fail (Text.ofString "Unterminated quoted string")
    | some b => if b = 0x27 then return [] else return b :: (← singleQuoted n)

/-- The script up to a back quote, with the escapes of back quotes resolved. -/
def backQuoted (inQuotes : Bool) : Nat → Read Text
  | 0 => fail (Text.ofString "EOF in backquote substitution")
  | n + 1 => do
    let _ ← peek
    match ← take with
    | none => fail (Text.ofString "EOF in backquote substitution")
    | some 0x60 => return []
    | some 0x5c =>
      match ← take with
      | none => fail (Text.ofString "EOF in backquote substitution")
      | some b =>
        let escaped := b ∈ Text.ofString "\\`$" ∨ (inQuotes ∧ b = 0x22)
        let rest ← backQuoted inQuotes n
        return (if escaped then [b] else [0x5c, b]) ++ rest
    | some b => return b :: (← backQuoted inQuotes n)

/-- Reads inside another text, and comes back to this one. -/
def within {α : Type} (text : Text) (line : Nat) (read : Read α) : Read α := do
  let s ← get
  set { s with text, line, pushed := none, pending := [] }
  let a ← read
  modify fun inner =>
    { s with documents := inner.documents, nextDocument := inner.nextDocument }
  return a

/-- Reads a script inside a word. Documents whose text has not come by its end are empty. -/
def script (n : Nested) : Read Command := do
  let before := (← get).pending
  modify fun s => { s with pending := [] }
  let c ← n.list .maybeEmpty
  let s ← get
  match s.pushed.getD .endOfFile with
  | .closeParen =>
    set
      { s with
        pushed := none
        pending := before
        documents := s.pending.map (fun (p : Pending) => (p.index, [])) ++ s.documents }
    return c
  | t => expecting t Token.closeParen.name

/-- The operator after the name of a parameter in braces, and whether an empty value counts as
missing; nothing if the parameter ends. -/
def operator : Read (Option (Use × Bool)) := do
  let choose (b : Option UInt8) : Option Use :=
    match b with
    | some 0x2d => some .default
    | some 0x3d => some .assign
    | some 0x3f => some .require
    | some 0x2b => some .alternative
    | _ => none
  let c ← peek
  skip
  match c with
  | some 0x7d => return none
  | some 0x3a =>
    let use := choose (← peek)
    skip
    return some (use.getD .bad, true)
  | some 0x25 => return some (.dropEnd (← accept 0x25), false)
  | some 0x23 => return some (.dropStart (← accept 0x23), false)
  | c => return some ((choose c).getD .bad, false)

/-- The name of a parameter in braces, and how it is used if that is clear from what stands before
the name. -/
def bracedName : Read (Text × Option Use) := do
  let c ← peek
  if c.any isNameStart then return (← takeWhile isWordByte (← bytesLeft), none)
  else if c.any isDigitByte then return (← takeWhile isDigitByte (← bytesLeft), none)
  else if c = some 0x23 then
    skip
    let after ← peek
    if after.any isWordByte then
      let isThis := if after.any isDigitByte then isDigitByte else isWordByte
      let name ← takeWhile isThis (← bytesLeft)
      return (name, some (if (← peek) = some 0x7d then .length else .bad))
    else
      match (← get).text with
      | b :: 0x7d :: _ =>
        if b = 0x7d then return ([0x23], none)
        else
          skip
          return ([b], some (if isSpecialParameter b then .length else .bad))
      | _ => return ([0x23], none)
  else if c.any isSpecialParameter then
    skip
    return (c.toList, none)
  else return ([], some .bad)

/-- A parameter in braces. -/
def braced (n : Nested) (ctx : Context) : Read Part := do
  let (name, use) ← bracedName
  let op ←
    match use with
    | some u => pure (some (u, false))
    | none => operator
  match op with
  | none => return .parameter ctx.isQuoted name .value false []
  | some (use, orEmpty) =>
    let surround :=
      match use with
      | .dropStart _ | .dropEnd _ => Surround.plain
      | _ => ctx.surround
    let word ← n.parts (.braces surround)
    return .parameter ctx.isQuoted name use orEmpty word

/-- What follows a dollar sign. -/
def dollar (n : Nested) (ctx : Context) : Read Part := do
  let quoted := ctx.isQuoted
  match ← peek with
  | some 0x28 =>
    skip
    if ← accept 0x28 then return .arithmetic quoted (← n.parts .arithmetic)
    else return .output quoted (← script n)
  | some 0x7b =>
    skip
    braced n ctx
  | c =>
    if c.any isNameStart then
      return .parameter quoted (← takeWhile isWordByte (← bytesLeft)) .value false []
    else if c.any isSpecialParameter then
      skip
      return .parameter quoted c.toList .value false []
    else return .literal quoted [0x24]

/-- What follows a backslash. Between double quotes it stands for itself before most bytes. -/
def backslashed (ctx : Context) : Read Text := do
  match ← take with
  | none => return [0x5c]
  | some b =>
    let special :=
      b ∈ Text.ofString "\\`$" ∨ (b = 0x22 ∧ ctx ≠ .document) ∨
        (b = 0x7d ∧ ctx ∈ [.braces .quoted, .braces .document])
    return if !ctx.isQuoted ∨ special then [b] else [0x5c, b]

/-- What is said when the script ends in a context. -/
def Context.unfinished : Context → Option String
  | .word | .document => none
  | .quotes | .braces .quoted => some "Unterminated quoted string"
  | .braces _ => some "Missing '\x7d'"
  | .arithmetic => some "Missing '))'"

/-- Whether a byte means itself in a context, so that no more has to be looked at. -/
def isOrdinary (b : UInt8) : Bool := !(b ∈ Text.ofString "\\`$\"'\x7d()")

/-- The parts that stand between double quotes, with a mark for the quotes. All positional
parameters need none, as they make no field where there are none of them. -/
def quotedParts (inner : List Part) : List Part :=
  match inner with
  | [.parameter _ [0x40] .value _ _] => inner
  | _ => .literal true [] :: inner

/-- The parts of a word up to the end of their context. `level` is the number of parentheses that
are open in arithmetic, and tells in quoted braces whether double quotes are open. -/
def partsOf (n : Nested) (ctx : Context) (level : Nat) : Nat → Read (List Part)
  | 0 => fail (Text.ofString "word too long")
  | fuel + 1 => do
    let quoted := ctx.isQuoted
    let literal (t : Text) : Read (List Part) := do
      return literalBefore quoted t (← partsOf n ctx level fuel)
    match ← peek with
    | none =>
      match ctx.unfinished with
      | none => return []
      | some problem => fail (Text.ofString problem)
    | some b =>
      if ctx = .word ∧ endsWord b then return []
      skip
      if isOrdinary b then literal [b]
      else if b = 0x5c then
        let t ← backslashed ctx
        return literalBefore true t (← partsOf n ctx level fuel)
      else if b = 0x24 then
        let part ← dollar n ctx
        let rest ← partsOf n ctx level fuel
        match part with
        | .literal q t => return literalBefore q t rest
        | part => return part :: rest
      else if b = 0x60 then
        let text ← backQuoted quoted (← bytesLeft)
        let c ← within text 1 (n.list .maybeEmpty)
        return .output quoted c :: (← partsOf n ctx level fuel)
      else
        match ctx, b with
        | .quotes, 0x22 => return []
        | .braces .plain, 0x7d => return []
        | .braces .plain, 0x22 | .word, 0x22 =>
          let inner ← n.parts .quotes
          return quotedParts inner ++ (← partsOf n ctx level fuel)
        | .braces .plain, 0x27 | .word, 0x27 =>
          let t ← singleQuoted ((← bytesLeft) + 1)
          return .literal true t :: (← partsOf n ctx level fuel)
        | .braces _, 0x7d => if level = 0 then return [] else literal [b]
        | .braces _, 0x22 => return .literal true [] :: (← partsOf n ctx (1 - level) fuel)
        | .arithmetic, 0x28 =>
          return literalBefore quoted [b] (← partsOf n ctx (level + 1) fuel)
        | .arithmetic, 0x29 =>
          if 0 < level then
            return literalBefore quoted [b] (← partsOf n ctx (level - 1) fuel)
          else if ← accept 0x29 then return []
          else literal [b]
        | _, _ => literal [b]

/-! ### Documents -/

/-- The lines up to a delimiter, what follows it, and how many lines have been passed. A line that
a backslash joins with the one before is no delimiter. -/
def documentLines (p : Pending) : Nat → Bool → Text → Text × Text × Nat
  | 0, _, text => ([], text, 0)
  | fuel + 1, joined, text =>
    if text = [] then ([], [], 0)
    else
      let line := text.takeWhile (· ≠ Text.newline)
      let rest := text.drop (line.length + 1)
      let line := if p.stripTabs ∧ !joined then line.dropWhile (· = 0x09) else line
      if line = p.delimiter ∧ !joined then ([], rest, 1)
      else
        let ended : Text := if text.contains Text.newline then [Text.newline] else []
        let joins := p.expands ∧ (line.reverse.takeWhile (· = 0x5c)).length % 2 = 1
        let (body, rest, passed) := documentLines p fuel joins rest
        (line ++ ended ++ body, rest, passed + ended.length)

/-- Reads the documents that were announced on the line that has ended. -/
def readDocuments (n : Nested) : List Pending → Read Unit
  | [] => modify fun s => { s with pending := [] }
  | p :: ps => do
    let s ← get
    let (body, rest, passed) := documentLines p (s.text.length + 1) false s.text
    let start := s.line
    let word : Word ←
      if p.expands then within body start (n.parts .document)
      else pure [.literal true body]
    modify fun s =>
      { s with
        text := rest, line := start + passed, documents := (p.index, word) :: s.documents }
    readDocuments n ps

/-! ### Tokens -/

/-- What follows an arrow of a redirection. -/
def arrow (b : UInt8) : Read Arrow := do
  if b = 0x3e then
    if ← accept 0x3e then return .file .append
    else if ← accept 0x7c then return .file .overwrite
    else if ← accept 0x26 then return .file (.duplicate false)
    else return .file .write
  else if ← accept 0x3c then return .document (← accept 0x2d)
  else if ← accept 0x26 then return .file (.duplicate true)
  else if ← accept 0x3e then return .file .readWrite
  else return .file .read

/-- The digit that a word consists of. -/
def digit? (w : Word) : Option Nat :=
  match plainText? w with
  | some [b] => if isDigitByte b then some (b.toNat - 0x30) else none
  | _ => none

/-- The next token, if its words are read by `word`. -/
def rawToken (word : Read Word) : Nat → Read Token
  | 0 => return .endOfFile
  | fuel + 1 => do
    match ← peek with
    | none => return .endOfFile
    | some b =>
      if b = 0x20 ∨ b = 0x09 then
        skip
        rawToken word fuel
      else if b = 0x23 then
        modify fun s => { s with text := s.text.dropWhile (· ≠ Text.newline) }
        rawToken word fuel
      else if b = 0x0a then
        skip
        return .newline
      else if b = 0x28 then
        skip
        return .openParen
      else if b = 0x29 then
        skip
        return .closeParen
      else if b = 0x3b then
        skip
        return if ← accept 0x3b then .endCase else .semicolon
      else if b = 0x26 then
        skip
        return if ← accept 0x26 then .andThen else .ampersand
      else if b = 0x7c then
        skip
        return if ← accept 0x7c then .orElse else .pipe
      else
        let w ← word
        match ← peek with
        | some c =>
          if (c = 0x3c ∨ c = 0x3e) ∧ (w.isEmpty ∨ (digit? w).isSome) then
            skip
            return .redirect (digit? w) (← arrow c)
          else return .word w
        | none => return .word w

/-- The next token, after lines that are empty. -/
def tokenAfterLines (n : Nested) (raw : Read Token) : Nat → Token → Read Token
  | 0, t => return t
  | fuel + 1, t =>
    match t with
    | .newline => do
      readDocuments n (← get).pending
      tokenAfterLines n raw fuel (← raw)
    | t => return t

/-- The next token, either the one that was given back or a new one. -/
def freshToken (raw : Read Token) : Read Token := do
  let s ← get
  match s.pushed with
  | some t =>
    set { s with pushed := none }
    return t
  | none => raw

/-- The next token. If `lines`, ends of lines are left out before it; if `keys`, it may be a
keyword. -/
def tokenOf (n : Nested) (raw : Read Token) (lines keys : Bool) : Read Token := do
  let t ← freshToken raw
  let t ← if lines then tokenAfterLines n raw ((← bytesLeft) + 1) t else pure t
  return if keys then t.asKeyword else t

/-- The tokens of a script, as far as its nested parts can be read. -/
structure Tokens where
  nested : Nested
  raw : Read Token

namespace Tokens

/-- The next token as it is. -/
def plain (k : Tokens) : Read Token := tokenOf k.nested k.raw false false

/-- The next token, which may be a keyword. -/
def key (k : Tokens) : Read Token := tokenOf k.nested k.raw false true

/-- The next token after empty lines, which may be a keyword. -/
def next (k : Tokens) : Read Token := tokenOf k.nested k.raw true true

/-- Takes a keyword that has to stand here. -/
def demand (k : Tokens) (keyword : String) : Read Unit := do
  let t ← k.key
  if t.keyword? = some keyword then return ()
  else expecting t (Token.keyword keyword).name

end Tokens

/-! ### Commands -/

/-- The redirection that an arrow starts. -/
def redirectOf (k : Tokens) (stream : Option Nat) (a : Arrow) : Read Redirect := do
  match ← k.plain with
  | .word w =>
    match a with
    | .file direction =>
      let reads := direction ∈ [.read, .readWrite, .duplicate true]
      return .file (stream.getD (if reads then 0 else 1)) direction w
    | .document stripTabs =>
      let s ← get
      let p : Pending := ⟨s.nextDocument, literalText w, stripTabs, !isQuoted w⟩
      set { s with pending := s.pending ++ [p], nextDocument := s.nextDocument + 1 }
      return .document (stream.getD 0) p.index
  | t => unexpected t

/-- The redirections that follow a command. -/
def redirectsOf (k : Tokens) : Nat → Read (List Redirect)
  | 0 => return []
  | fuel + 1 => do
    match ← k.key with
    | .redirect stream a =>
      let r ← redirectOf k stream a
      return r :: (← redirectsOf k fuel)
    | t =>
      pushBack t
      return []

/-- The names of commands that no function can have. -/
def specialNames : List Text :=
  [".", ":", "break", "continue", "eval", "exec", "exit", "export", "local", "readonly", "return",
    "set", "shift", "times", "trap", "unset"].map Text.ofString

/-- A simple command as far as it has been read. -/
structure Draft where
  assignments : List (Text × Word)
  words : List Word
  redirects : List Redirect

/-- The rest of a simple command, which may turn out to be the definition of a function. -/
def simpleOf (k : Tokens) (line : Nat) : Nat → Draft → Read Command
  | 0, d => return .simple line d.assignments d.words d.redirects
  | fuel + 1, d => do
    let finish (t : Token) : Read Command := do
      pushBack t
      return .simple line d.assignments d.words d.redirects
    match ← k.plain with
    | .word w =>
      match if d.words.isEmpty then assignment? w else none with
      | some a => simpleOf k line fuel { d with assignments := d.assignments ++ [a] }
      | none => simpleOf k line fuel { d with words := d.words ++ [w] }
    | .redirect stream a =>
      let r ← redirectOf k stream a
      simpleOf k line fuel { d with redirects := d.redirects ++ [r] }
    | .openParen =>
      match d.words, d.assignments, d.redirects with
      | [w], [], [] =>
        match ← k.plain with
        | .closeParen =>
          match plainText? w with
          | some name =>
            if isName name ∧ name ∉ specialNames then
              pushBack (← k.next)
              return .define name (← k.nested.command)
            else fail (Text.ofString "Bad function name")
          | none => fail (Text.ofString "Bad function name")
        | t => expecting t Token.closeParen.name
      | _, _, _ => finish .openParen
    | t => finish t

/-- The words of a loop, and the token that ends them. -/
def loopWords (k : Tokens) : Nat → Read (List Word × Token)
  | 0 => return ([], .endOfFile)
  | fuel + 1 => do
    match ← k.plain with
    | .word w =>
      let (ws, t) ← loopWords k fuel
      return (w :: ws, t)
    | t => return ([], t)

/-- The word for all positional parameters. -/
def allParameters : Word := [.parameter true (Text.ofString "@") .value false []]

/-- The rest of a `for` loop. -/
def forOf (k : Tokens) (line : Nat) : Read Command := do
  let bad : Read Text := fail (Text.ofString "Bad for loop variable")
  let name ←
    match ← k.plain with
    | .word w =>
      match plainText? w with
      | some t => if isName t then pure t else bad
      | none => bad
    | _ => bad
  let t ← k.next
  let words ←
    if t.keyword? = some "in" then do
      let (ws, t) ← loopWords k ((← bytesLeft) + 1)
      match t with
      | .newline => readDocuments k.nested (← get).pending
      | .semicolon => pure ()
      | t => unexpected t
      pure ws
    else do
      match t with
      | .semicolon => pure ()
      | t => pushBack t
      pure [allParameters]
  let t ← k.next
  if t.keyword? ≠ some "do" then expecting t (Token.keyword "do").name
  let body ← k.nested.list .body
  k.demand "done"
  return .each line name words body

/-- The patterns of a case, up to the closing parenthesis; `t` is the first of their tokens. -/
def patternsOf (k : Tokens) : Nat → Token → Read (List Word)
  | 0, _ => return []
  | fuel + 1, t => do
    let w ←
      match t with
      | .word w => pure w
      | .keyword kw => pure [.literal false (Text.ofString kw)]
      | t => expecting t Token.closeParen.name
    match ← k.plain with
    | .pipe => return w :: (← patternsOf k fuel (← k.plain))
    | .closeParen => return [w]
    | t => expecting t Token.closeParen.name

/-- The cases of a `case` command, up to its end. -/
def casesOf (k : Tokens) : Nat → Read (List (List Word × Command))
  | 0 => return []
  | fuel + 1 => do
    match ← k.next with
    | .keyword "esac" => return []
    | t =>
      let t ←
        match t with
        | .openParen => k.plain
        | t => pure t
      let patterns ← patternsOf k ((← bytesLeft) + 1) t
      let body ← k.nested.list .maybeEmpty
      match ← k.next with
      | .keyword "esac" => return [(patterns, body)]
      | .endCase => return (patterns, body) :: (← casesOf k fuel)
      | t => expecting t Token.endCase.name

/-- The rest of a `case` command. -/
def caseOf (k : Tokens) (line : Nat) : Read Command := do
  match ← k.plain with
  | .word w =>
    let t ← k.next
    if t.keyword? ≠ some "in" then expecting t (Token.keyword "in").name
    return .choice line w (← casesOf k ((← bytesLeft) + 1))
  | t => expecting t "word"

/-- The rest of an `if` command, up to its end. -/
def ifOf (k : Tokens) : Nat → Read Command
  | 0 => return .nothing
  | fuel + 1 => do
    let test ← k.nested.list .body
    k.demand "then"
    let yes ← k.nested.list .body
    match ← k.key with
    | .keyword "elif" => return .conditional test yes (← ifOf k fuel)
    | .keyword "else" =>
      let no ← k.nested.list .body
      k.demand "fi"
      return .conditional test yes no
    | .keyword "fi" => return .conditional test yes .nothing
    | t => expecting t (Token.keyword "fi").name

/-- The rest of a `while` or `until` loop. -/
def loopOf (k : Tokens) (whileFails : Bool) : Read Command := do
  let test ← k.nested.list .body
  k.demand "do"
  let body ← k.nested.list .body
  k.demand "done"
  return .loop whileFails test body

/-- A command that starts with a token. -/
def commandFrom (k : Tokens) (line : Nat) (t : Token) : Read Command := do
  match t with
  | .keyword "if" => ifOf k ((← bytesLeft) + 1)
  | .keyword "while" => loopOf k false
  | .keyword "until" => loopOf k true
  | .keyword "for" => forOf k line
  | .keyword "case" => caseOf k line
  | .keyword "\x7b" =>
    let body ← k.nested.list .body
    k.demand "\x7d"
    return body
  | .openParen =>
    let body ← k.nested.list .body
    match ← k.plain with
    | .closeParen => return .subshell line body []
    | t => expecting t Token.closeParen.name
  | t => unexpected t

/-- The next command. -/
def commandOf (k : Tokens) : Read Command := do
  let line := (← get).line
  let t ← k.key
  let simple : Read Command := do
    pushBack t
    simpleOf k (← get).line ((← bytesLeft) + 2) ⟨[], [], []⟩
  match t with
  | .word _ => simple
  | .redirect _ _ => simple
  | t =>
    let c ← commandFrom k line t
    let redirects ← redirectsOf k ((← bytesLeft) + 1)
    if redirects.isEmpty then return c
    else
      match c with
      | .subshell line body _ => return .subshell line body redirects
      | c => return .redirected line c redirects

/-- The commands of a pipeline after its first. -/
def pipedOf (k : Tokens) : Nat → Read (List Command)
  | 0 => return []
  | fuel + 1 => do
    match ← k.plain with
    | .pipe =>
      pushBack (← k.next)
      let c ← commandOf k
      return c :: (← pipedOf k fuel)
    | t =>
      pushBack t
      return []

/-- The next pipeline. -/
def pipelineOf (k : Tokens) : Read Command := do
  let t ← k.key
  let negated := t.keyword? = some "!"
  if !negated then pushBack t
  let first ← commandOf k
  let others ← pipedOf k ((← bytesLeft) + 1)
  let c : Command := if others.isEmpty then first else .pipeline (first :: others)
  return if negated then .negation c else c

/-- More pipelines that follow a first one on conditions. -/
def andOrOf (k : Tokens) : Nat → Command → Read Command
  | 0, c => return c
  | fuel + 1, c => do
    let another : Read Command := do
      pushBack (← k.next)
      pipelineOf k
    match ← k.plain with
    | .andThen => andOrOf k fuel (.both c (← another))
    | .orElse => andOrOf k fuel (.either c (← another))
    | t =>
      pushBack t
      return c

/-- The keywords that end a list. -/
def endKeywords : List String := ["do", "done", "elif", "else", "esac", "fi", "then", "\x7d"]

/-- Whether a token ends a list. -/
def Token.endsList (t : Token) : Bool :=
  match t with
  | .keyword k => k ∈ endKeywords
  | .closeParen | .endCase | .endOfFile => true
  | _ => false

/-- Commands one after the other. `done` are those that have been read; `first` tells whether one
has to follow. -/
def listOf (k : Tokens) (extent : Extent) (first : Bool) :
    Nat → Option Command → Read (Option Command)
  | 0, done => return done
  | fuel + 1, done => do
    let lines := extent ≠ .line
    let t ← tokenOf k.nested k.raw lines true
    match t with
    | .newline =>
      readDocuments k.nested (← get).pending
      return done
    | .endOfFile =>
      readDocuments k.nested (← get).pending
      pushBack .endOfFile
      return done
    | t =>
      pushBack t
      if !first && lines && t.endsList then return done
      let c ← andOrOf k ((← bytesLeft) + 1) (← pipelineOf k)
      let t ← k.plain
      let c : Command :=
        match t with
        | .ampersand => .background c
        | _ => c
      let done : Command :=
        match done with
        | none => c
        | some d => .sequence d c
      match t with
      | .endOfFile =>
        readDocuments k.nested (← get).pending
        pushBack .endOfFile
        return some done
      | .newline =>
        pushBack .newline
        listOf k extent false fuel (some done)
      | .ampersand | .semicolon => listOf k extent false fuel (some done)
      | t =>
        if !lines then unexpected t
        pushBack t
        return some done

/-! ### Tying the knot -/

/-- The tokens of a script whose nested parts `n` reads. -/
def tokensOf (n : Nested) : Tokens :=
  let word : Read Word := do partsOf n .word 0 ((← bytesLeft) + 2)
  ⟨n, do rawToken word ((← bytesLeft) + 1)⟩

/-- Readers of parts and commands with at most the given number of levels inside each other. -/
def nested : Nat → Nested
  | 0 =>
    let tooDeep {α : Type} : Read α := fail (Text.ofString "too deep")
    ⟨fun _ => tooDeep, fun _ => tooDeep, tooDeep⟩
  | depth + 1 =>
    let n := nested depth
    let k := tokensOf n
    { parts := fun ctx => do partsOf n ctx 0 ((← bytesLeft) + 2)
      list := fun extent => do
        let c ← listOf k extent (extent == .body) ((← bytesLeft) + 2) none
        return c.getD .nothing
      command := commandOf k }

/-- The deepest nesting that is read. -/
def maximumDepth : Nat := 500

/-- Reads the next complete line of commands. There is none if the script has ended. -/
def Source.next (s : Source) : Except SyntaxError (Option Command × Source) :=
  (listOf (tokensOf (nested maximumDepth)) .line false (s.text.length + 2) none).run s

/-- Whether a script has ended. -/
def Source.isAtEnd (s : Source) : Bool :=
  match s.pushed with
  | some .endOfFile => true
  | _ => false

end ShaderSplice.Tool.Shell
