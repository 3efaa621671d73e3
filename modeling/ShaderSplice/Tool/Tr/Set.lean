import ShaderSplice.Tool.Options

/-!
# Sets of bytes

A set is written as bytes, ranges (`a-z`), classes (`[:lower:]`), equivalence classes (`[=c=]`) and
repetitions (`[c*3]`), with backslash escapes for bytes that are hard to write.

    written set ──unescape──▶ marked bytes ──parse──▶ elements ──expand──▶ bytes

A repetition without a count fills the set up to the size that is needed.
-/

namespace ShaderSplice.Tool.Tr

/-! ### Classes -/

/-- The bytes from `first` to `last`. -/
def byteRange (first last : UInt8) : List UInt8 :=
  (List.range (last.toNat + 1 - first.toNat)).map fun i => UInt8.ofNat (first.toNat + i)

/-- All bytes in their order. -/
def allBytes : List UInt8 := byteRange 0 255

/-- Whether a byte is a lower-case letter. -/
def isLower (b : UInt8) : Bool := 0x61 ≤ b && b ≤ 0x7a

/-- Whether a byte is an upper-case letter. -/
def isUpper (b : UInt8) : Bool := 0x41 ≤ b && b ≤ 0x5a

/-- Whether a byte is a letter or a digit. -/
def isAlnum (b : UInt8) : Bool := isLower b || isUpper b || isDigitByte b

/-- The classes of bytes that have a name. -/
def byteClasses : List (String × (UInt8 → Bool)) :=
  [("alnum", isAlnum), ("alpha", fun b => isLower b || isUpper b),
    ("blank", fun b => b == 0x20 || b == 0x09), ("cntrl", fun b => b < 0x20 || b == 0x7f),
    ("digit", isDigitByte), ("graph", fun b => isPrintableByte b && b != 0x20),
    ("lower", isLower), ("print", isPrintableByte),
    ("punct", fun b => isPrintableByte b && b != 0x20 && !isAlnum b), ("space", isBlankByte),
    ("upper", isUpper),
    ("xdigit", fun b => isDigitByte b || (0x61 ≤ b && b ≤ 0x66) || (0x41 ≤ b && b ≤ 0x46))]

/-! ### Escapes -/

/-- A byte of a set, and whether a backslash stood before it. -/
structure Mark where
  byte : UInt8
  escaped : Bool
deriving DecidableEq, Repr

/-- Whether a mark is the given byte, unescaped. -/
def Mark.is (k : Mark) (b : UInt8) : Bool := k.byte == b && !k.escaped

/-- Whether a byte is an octal digit. -/
def isOctalByte (b : UInt8) : Bool := 0x30 ≤ b && b ≤ 0x37

/-- The value of octal digits. -/
def octalValue (digits : Text) : Nat := digits.foldl (fun n b => n * 8 + (b.toNat - 0x30)) 0

/-- The octal escape at the start of what follows a backslash: its digits, of which there are at
most three, and fewer if the value would not fit a byte. -/
def octalEscape (t : Text) : Text :=
  let digits := (t.take 3).takeWhile isOctalByte
  if 255 < octalValue digits then digits.take 2 else digits

/-- What is said about an octal escape that is too large for a byte. -/
def ambiguousOctal (t : Text) : Text :=
  let digits := t.take 3
  Text.ofString "warning: the ambiguous octal escape \\" ++ digits ++
    Text.ofString " is being\n\tinterpreted as the 2-byte sequence \\0" ++ digits.take 2 ++
    Text.ofString ", " ++ digits.drop 2

/-- A set with its escapes resolved, and what is said about them. -/
def unescape (t : Text) : List Mark × List Text :=
  match t with
  | [] => ([], [])
  | [0x5c] =>
    ([⟨0x5c, false⟩],
      [Text.ofString "warning: an unescaped backslash at end of string is not portable"])
  | 0x5c :: b :: r =>
    if isOctalByte b then
      let digits := octalEscape (b :: r)
      let (ks, said) := unescape ((b :: r).drop (max 1 digits.length))
      let tooLarge := 255 < octalValue (((b :: r).take 3).takeWhile isOctalByte)
      (⟨UInt8.ofNat (octalValue digits), true⟩ :: ks,
        (if tooLarge then [ambiguousOctal (b :: r)] else []) ++ said)
    else
      let (ks, said) := unescape r
      (⟨(controlLetters.lookup b).getD b, true⟩ :: ks, said)
  | b :: r =>
    let (ks, said) := unescape r
    (⟨b, false⟩ :: ks, said)
termination_by t.length

/-! ### Elements -/

/-- The letters of one case. -/
inductive Case where
  | lower
  | upper
deriving DecidableEq, Repr

/-- A part of a set. -/
inductive Element where
  | byte (b : UInt8)
  | range (first last : UInt8)
  | named (name : String) (bytes : List UInt8)
  | equivalent (b : UInt8)
  /-- A byte that many times; a count of zero stands for as many as are needed. -/
  | repeated (b : UInt8) (count : Nat)
deriving DecidableEq, Repr

/-- The largest count of a repetition. -/
def maximumCount : Nat := wordCount - 3

/-- A byte as messages show it. -/
def visible (b : UInt8) : Text :=
  if isPrintableByte b then [b] else Text.backslash :: octalDigits b

/-- A text as messages show it. -/
def visibleText (t : Text) : Text :=
  t.flatMap fun b => if isPrintableByte b then [b] else Text.backslash :: escapeOf b

/-- The bytes of marks. -/
def bytesOf (ks : List Mark) : Text := ks.map (·.byte)

/-- What stands before an unescaped `delimiter` with a closing bracket after it, and what stands
after the bracket. -/
def closing? (delimiter : UInt8) : List Mark → Option (List Mark × List Mark)
  | a :: b :: r =>
    if a.is delimiter && b.is 0x5d then some ([], r)
    else (closing? delimiter (b :: r)).map fun (inner, rest) => (a :: inner, rest)
  | _ => none

/-- Whether marks start with a star, digits and a closing bracket. -/
def isStarCount : List Mark → Bool
  | k :: r =>
    k.is 0x2a &&
      ((r.dropWhile fun k => isDigitByte k.byte && !k.escaped).head?.any fun k => k.is 0x5d)
  | [] => false

/-- The number that digits stand for: octal if they start with a zero. -/
def count? (digits : Text) : Option Nat :=
  let base := if digits.head? = some 0x30 then 8 else 10
  if digits.all fun b => 0x30 ≤ b && b.toNat < 0x30 + base then
    let n := digits.foldl (fun n b => n * base + (b.toNat - 0x30)) 0
    if n ≤ maximumCount then some n else none
  else none

/-- The repetition at the start of what follows a bracket: `c*n]`. -/
def repetition? (ks : List Mark) : Except Text (Option (Element × List Mark)) :=
  match ks with
  | c :: star :: r =>
    if star.is 0x2a then
      let digits := r.takeWhile fun k => !k.escaped && k.byte != 0x5d
      match r.drop digits.length with
      | close :: rest =>
        if close.is 0x5d then
          match count? (bytesOf digits) with
          | some n => .ok (some (.repeated c.byte n, rest))
          | none =>
            .error (Text.ofString "invalid repeat count " ++
              operand (visibleText (bytesOf digits)) ++ Text.ofString " in [c*n] construct")
        else .ok none
      | [] => .ok none
    else .ok none
  | _ => .ok none

/-- The class or equivalence class at the start of what follows a bracket. -/
def bracketed? (ks : List Mark) : Except Text (Option (Element × List Mark)) :=
  match ks with
  | k :: r =>
    if k.is 0x3a || k.is 0x3d then
      match closing? k.byte r with
      | none => .ok none
      | some (inner, rest) =>
        let name := bytesOf inner
        if k.byte = 0x3a then
          if name = [] then .error (Text.ofString "missing character class name '[::]'")
          else
            match byteClasses.find? fun (n, _) => Text.ofString n = name with
            | some (n, p) => .ok (some (.named n (allBytes.filter p), rest))
            | none =>
              if isStarCount r then .ok none
              else
                .error (Text.ofString "invalid character class " ++ operand (visibleText name))
        else
          match name with
          | [] => .error (Text.ofString "missing equivalence class character '[==]'")
          | [b] => .ok (some (.equivalent b, rest))
          | _ =>
            if isStarCount r then .ok none
            else
              .error (visibleText name ++
                Text.ofString ": equivalence class operand must be a single character")
    else .ok none
  | [] => .ok none

/-- A range, whose ends must be in order. -/
def range (first last : UInt8) : Except Text Element :=
  if last < first then
    .error (Text.ofString "range-endpoints of '" ++ visible first ++ Text.ofString "-" ++
      visible last ++ Text.ofString "' are in reverse collating sequence order")
  else .ok (.range first last)

/-- The element at the start of a set of three or more marks, and the marks after it. -/
def element (a : Mark) (ks : List Mark) : Except Text (Element × List Mark) := do
  let construct : Option (Element × List Mark) ←
    if a.is 0x5b then
      match ← bracketed? ks with
      | some found => pure (some found)
      | none => repetition? ks
    else pure none
  match construct, ks with
  | some found, _ => return found
  | none, b :: c :: rest =>
    if b.is 0x2d then return (← range a.byte c.byte, rest) else return (.byte a.byte, ks)
  | none, _ => return (.byte a.byte, ks)

/-- The elements of a set. Each step makes at least one mark an element, so `fuel` need not exceed
their number. -/
def elements : Nat → List Mark → Except Text (List Element)
  | 0, ks => .ok (ks.map (.byte ·.byte))
  | fuel + 1, ks =>
    match ks with
    | a :: b :: c :: r => do
      let (e, rest) ← element a (b :: c :: r)
      return e :: (← elements fuel rest)
    | few => .ok (few.map (.byte ·.byte))

/-- The elements of a written set, and what is said about its escapes. -/
def parse (t : Text) : List Text × Except Text (List Element) :=
  let (ks, said) := unescape t
  (said, elements ks.length ks)

/-! ### Expansion -/

/-- The number of bytes that an element stands for. -/
def Element.size : Element → Nat
  | .byte _ | .equivalent _ => 1
  | .range first last => last.toNat + 1 - first.toNat
  | .named _ bytes => bytes.length
  | .repeated _ count => count

/-- The case of the letters that an element stands for, if it is a class of such. -/
def Element.case? : Element → Option Case
  | .named name _ =>
    if name = "lower" then some .lower else if name = "upper" then some .upper else none
  | _ => none

/-- Whether an element is a class. -/
def Element.isClass : Element → Bool
  | .named _ _ => true
  | _ => false

/-- Whether an element fills a set up. -/
def Element.isFill : Element → Bool
  | .repeated _ 0 => true
  | _ => false

/-- A byte of a set, with the case of the class that it comes from, and whether it is the first
byte of its element. -/
structure Item where
  byte : UInt8
  case? : Option Case
  fresh : Bool
deriving DecidableEq, Repr

/-- No more copies of a byte than this are told apart. -/
def copiesLimit : Nat := 65536

/-- The bytes that an element stands for. -/
def Element.bytes : Element → List UInt8
  | .byte b | .equivalent b => [b]
  | .range first last => byteRange first last
  | .named _ bytes => bytes
  | .repeated b count => List.replicate (min count copiesLimit) b

/-- The items that an element stands for. -/
def Element.items (e : Element) : List Item :=
  e.bytes.zipIdx.map fun (b, i) => ⟨b, e.case?, i == 0⟩

/-- The items of a set. -/
def items (es : List Element) : List Item := es.flatMap Element.items

/-- The bytes of a set. -/
def members (es : List Element) : List UInt8 := es.flatMap Element.bytes

/-- The number of bytes of a set, with repetitions. -/
def size (es : List Element) : Nat := es.foldl (fun n e => n + e.size) 0

end ShaderSplice.Tool.Tr
