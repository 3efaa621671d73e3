import ShaderSplice.Tool.Machine
import ShaderSplice.Tool.Tr.Set

/-!
# Translating bytes

`tr` copies what it reads and replaces, deletes or squeezes the bytes of a set on the way. In a
translation each byte of the first set becomes the byte of the second set in the same place; the
second set is filled up with its last member to the size of the first.
-/

namespace ShaderSplice.Tool.Tr

/-- What `tr` can be told to do. -/
inductive Choice where
  | complement
  | delete
  | squeeze
  | truncate
  | ignored
  | info
deriving DecidableEq, Repr

/-- The options of `tr`. -/
def options : List (OptionSpec Choice) :=
  [⟨some 'c', "complement", .complement⟩, ⟨some 'C', none, .complement⟩,
    ⟨some 'd', "delete", .delete⟩, ⟨some 's', "squeeze-repeats", .squeeze⟩,
    ⟨some 't', "truncate-set1", .truncate⟩, ⟨some 'A', none, .ignored⟩,
    ⟨none, "help", .info⟩, ⟨none, "version", .info⟩]

/-- What `tr` does with each byte that it reads. -/
structure Task where
  deletes : List UInt8
  /-- The bytes that become others. The first entry of a byte counts. -/
  replaces : List (UInt8 × UInt8)
  squeezes : List UInt8
deriving DecidableEq, Repr

/-- `t` with each run of the same byte of `set` reduced to one. -/
def squeeze (set : List UInt8) : Text → Text
  | a :: b :: r =>
    if a == b && set.contains a then squeeze set (b :: r) else a :: squeeze set (b :: r)
  | t => t

/-- What comes of a text. -/
def Task.apply (k : Task) (t : Text) : Text :=
  let kept := t.filter fun b => !k.deletes.contains b
  squeeze k.squeezes (kept.map fun b => (k.replaces.lookup b).getD b)

/-! ### Translations -/

/-- The bytes that are not in a set. -/
def complementOf (es : List Element) : List UInt8 :=
  let inside := members es
  allBytes.filter fun b => !inside.contains b

/-- The set with its filling repetition replaced by one that brings it to the size `n`. -/
def fillTo (n : Nat) (es : List Element) : List Element :=
  if n < size es then es
  else
    es.map fun e =>
      match e with
      | .repeated b 0 => .repeated b (n - size es)
      | e => e

/-- What is left after an element, of which one item has been taken. -/
def skipElement (rest : List Item) : List Item := rest.dropWhile fun i => !i.fresh

/-- Walks through two sets together. Where the second has a class of letters, the first must have
one too, and both start there. -/
def aligned (fuel : Nat) (fresh₁ fresh₂ : Bool) (s₁ s₂ : List Item) : Except Text Unit :=
  match fuel with
  | 0 => .ok ()
  | fuel + 1 =>
    let class₁ := s₁.head?.bind (·.case?)
    let class₂ := s₂.head?.bind (·.case?)
    if fresh₂ && class₂.isSome && !(fresh₁ && class₁.isSome) then
      .error (Text.ofString "misaligned [:upper:] and/or [:lower:] construct")
    else
      match s₁, s₂ with
      | _ :: r₁, _ :: r₂ =>
        let r₁ := if class₂.isSome then skipElement r₁ else r₁
        let r₂ := if class₂.isSome then skipElement r₂ else r₂
        aligned fuel (r₁.head?.all (·.fresh)) (r₂.head?.all (·.fresh)) r₁ r₂
      | _, _ => .ok ()

/-- The pairs of bytes in a translation from one set to another. Where the classes of different
case stand against each other, each letter becomes its partner. -/
def pairs (fuel : Nat) (s₁ s₂ : List Item) : List (UInt8 × UInt8) :=
  match fuel with
  | 0 => []
  | fuel + 1 =>
    match s₁, s₂ with
    | a :: r₁, b :: r₂ =>
      let here : List (UInt8 × UInt8) :=
        match a.case?, b.case? with
        | some .lower, some .upper => (allBytes.filter isLower).map fun c => (c, c - 0x20)
        | some .upper, some .lower => (allBytes.filter isUpper).map fun c => (c, c + 0x20)
        | _, _ => [(a.byte, b.byte)]
      let r₁ := if b.case?.isSome then skipElement r₁ else r₁
      let r₂ := if b.case?.isSome then skipElement r₂ else r₂
      here ++ pairs fuel r₁ r₂
    | _, _ => []

/-- The byte with which a set goes on when it has to be longer. -/
def lastByte (es : List Element) : Except Text UInt8 :=
  match es.getLast? with
  | some (.byte b) | some (.repeated b _) | some (.equivalent b) => .ok b
  | some (.range _ last) => .ok last
  | _ =>
    .error (Text.ofString
      ("when translating with string1 longer than string2,\n" ++
        "the latter string must not end with a character class"))

/-- The translation from one set to another. -/
def translation (cs : List Choice) (set₁ set₂ : List Element) : Except Text Task := do
  let complement := cs.contains .complement
  let truncate := cs.contains .truncate
  let size₁ := if complement then (complementOf set₁).length else size set₁
  let set₂ :=
    if (set₂.filter Element.isFill).length = 1 then fillTo size₁ set₂ else set₂
  if set₂.any fun e => match e with | .equivalent _ => true | _ => false then
    .error (Text.ofString "[=c=] expressions may not appear in string2 when translating")
  if set₂.any fun e => e.isClass && e.case?.isNone then
    .error (Text.ofString
      ("when translating, the only character classes that may appear in\n" ++
        "string2 are 'upper' and 'lower'"))
  let byCase := !complement && set₂.any Element.isClass
  if byCase then
    aligned (size set₁ + size set₂ + 1) true true (items set₁) (items set₂)
  -- A class of letters that faces another counts as one byte in both sets.
  let classes := (set₂.filter fun e => e.case?.isSome).length
  let excess₁ := if byCase then classes * 25 else 0
  let length₁ := size₁ - excess₁
  let length₂ := size set₂ - excess₁
  let set₂ ←
    if length₂ < length₁ ∧ !truncate then
      if length₂ = 0 then
        .error (Text.ofString "when not truncating set1, string2 must be non-empty")
      else do
        let b ← lastByte set₂
        pure (set₂ ++ [.repeated b (length₁ - length₂)])
    else pure set₂
  let images := members set₂
  let uniform := images.head?.any fun b => images.all (· == b)
  let length₂ := if length₂ < length₁ ∧ !truncate then length₁ else length₂
  if complement && set₁.any Element.isClass && !(length₂ == length₁ && uniform) then
    .error (Text.ofString
      ("when translating with complemented character classes,\n" ++
        "string2 must map all characters in the domain to one"))
  let replaces :=
    if complement then (complementOf set₁).zip images
    else (pairs (size set₁ + 1) (items set₁) (items set₂)).reverse
  return ⟨[], replaces, if cs.contains .squeeze then images else []⟩

/-! ### The program -/

/-- What `tr` does for its options and sets. -/
def task (cs : List Choice) (set₁ : List Element) (set₂ : Option (List Element)) :
    Except Text Task := do
  let delete := cs.contains .delete
  let chosen := if cs.contains .complement then complementOf set₁ else members set₁
  if maximumCount < size set₁ then .error (Text.ofString "too many characters in set")
  if set₁.any Element.isFill then
    .error (Text.ofString "the [c*] repeat construct may not appear in string1")
  match set₂ with
  | none => return if delete then ⟨chosen, [], []⟩ else ⟨[], [], chosen⟩
  | some set₂ =>
    let fills := (set₂.filter Element.isFill).length
    if maximumCount < size set₂ then .error (Text.ofString "too many characters in set")
    if 1 < fills then
      .error (Text.ofString "only one [c*] repeat construct may appear in string2")
    if delete then
      if 0 < fills then
        .error (Text.ofString "the [c*] construct may appear in string2 only when translating")
      return ⟨chosen, [], members set₂⟩
    else translation cs set₁ set₂

/-- What is wrong with the number of operands, if something is. -/
def operandProblem? (cs : List Choice) (operands : List Text) : Option Text :=
  let delete := cs.contains .delete
  let squeezes := cs.contains .squeeze
  let least := if delete == squeezes then 2 else 1
  let most := if delete && !squeezes then 1 else 2
  match operands.drop most with
  | extra :: _ =>
    some (Text.ofString "extra operand " ++ operand extra ++
      (if operands.length = 2 then
        Text.ofString "\nOnly one string may be given when deleting without squeezing repeats."
      else []))
  | [] =>
    if operands.length < least then
      match operands.getLast? with
      | none => some (Text.ofString "missing operand")
      | some last =>
        let why :=
          if squeezes then
            "Two strings must be given when both deleting and squeezing repeats."
          else "Two strings must be given when translating."
        some (Text.ofString "missing operand after " ++ operand last ++ Text.newline ::
          Text.ofString why)
    else none

/-- A message of `tr`, which was called by the name `self`. -/
def message (self t : Text) : Text := self ++ Text.ofString ": " ++ t ++ [Text.newline]

/-- The task that operands describe, after the messages about how they are written. -/
def taskOf (cs : List Choice) (operands : List Text) : List Text × Except Text Task :=
  match operands with
  | [] => ([], .error (Text.ofString "missing operand"))
  | first :: rest =>
    let (said₁, set₁) := parse first
    match set₁, rest with
    | .error e, _ => (said₁, .error e)
    | .ok set₁, [] => (said₁, task cs set₁ none)
    | .ok set₁, second :: _ =>
      let (said₂, set₂) := parse second
      (said₁ ++ said₂, do task cs set₁ (some (← set₂)))

/-- Runs `tr`, which was called by the name `self`. -/
def run (m : Machine) (p : Process) (self : Text) (args : List Text) : Machine × Nat :=
  match OptionSpec.parse options false args with
  | .error e => (m.complain p.descriptors (misuse self e.message), 1)
  | .ok (cs, operands) =>
    if Choice.info ∈ cs then (m, 0)
    else
      match operandProblem? cs operands with
      | some problem => (m.complain p.descriptors (misuse self problem), 1)
      | none =>
        let (said, result) := taskOf cs operands
        let m := m.complain p.descriptors (said.flatMap (message self))
        match result with
        | .error e => (m.complain p.descriptors (message self e), 1)
        | .ok k =>
          match p.descriptors.lookup 0 with
          | none => (m.complain p.descriptors (message self (Text.ofString
              "read error: Bad file descriptor")), 1)
          | some input =>
            match m.readAll input with
            | .error e =>
              (m.complain p.descriptors
                (message self (Text.ofString "read error: " ++ errorSentence e)), 1)
            | .ok (t, m) =>
              match m.print p.descriptors 1 (k.apply t) with
              | .ok m => (m, 0)
              | .error e =>
                (m.complain p.descriptors
                  (message self (Text.ofString "write error: " ++ errorSentence e)), 1)

end ShaderSplice.Tool.Tr
