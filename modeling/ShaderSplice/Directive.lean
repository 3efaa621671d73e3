import ShaderSplice.Text.Space

/-!
# Directives

A directive is comment-free code of the shape

    blanks # blanks name rest

where the name is the longest run of letters, digits and underscores. `Directive.parse?` recognises
it; two kinds of directive mean something to the assembler:

    #include "target"    or    #include <target>        (`Directive.include?`)
    #version 330 core                                   (`Directive.version?`)
-/

namespace ShaderSplice

/-- A line `#name arg`. -/
structure Directive where
  name : Text
  /-- What follows the name, without blanks around it. -/
  arg : Text
  /-- Whether a blank follows the name directly. -/
  spaced : Bool
deriving DecidableEq, Repr

/-- Whether a byte can be part of a directive's name. -/
def isWordByte (b : UInt8) : Bool :=
  b == 0x5f || (0x61 ≤ b && b ≤ 0x7a) || (0x41 ≤ b && b ≤ 0x5a) || (0x30 ≤ b && b ≤ 0x39)

/-- Whether a byte is an ASCII digit. -/
def isDigitByte (b : UInt8) : Bool := 0x30 ≤ b && b ≤ 0x39

/-- Whether a byte is a printable ASCII character. -/
def isPrintableByte (b : UInt8) : Bool := 0x20 ≤ b && b ≤ 0x7e

/-- The pairs of marks that may enclose an include target. -/
def targetMarks : List (UInt8 × UInt8) := [(0x22, 0x22), (0x3c, 0x3e)]

/-- The profiles that may follow a version number. -/
def profiles : List Text := ["core", "compatibility", "es"].map Text.ofString

namespace Directive

/-- The directive that comment-free code makes up. -/
def parse? (code : Text) : Option Directive :=
  match code.dropWhile isBlankByte with
  | 0x23 :: afterMark =>
    let s := afterMark.dropWhile isBlankByte
    let name := s.takeWhile isWordByte
    let rest := s.dropWhile isWordByte
    if name = [] then none
    else some
      { name
        arg := Text.dropEndWhile isBlankByte (rest.dropWhile isBlankByte)
        spaced := rest.head?.any isBlankByte }
  | _ => none

/-- The target of an include directive: one or more printable ASCII characters between two marks,
and nothing else. -/
def include? (d : Directive) : Option Text :=
  if d.name = Text.ofString "include" ∧ d.spaced ∧ 3 ≤ d.arg.length then
    let target := d.arg.tail.dropLast
    if (d.arg.head?, d.arg.getLast?) ∈ targetMarks.map (fun (l, r) => (some l, some r)) ∧
        target.all isPrintableByte then
      some target
    else none
  else none

/-- The version that a version directive declares, in one spelling: the number, and the profile
after a single space if there is one. What follows is ignored. -/
def version? (d : Directive) : Option Text :=
  if d.name = Text.ofString "version" ∧ d.spaced then
    match d.arg.fields with
    | [] => none
    | number :: more =>
      if number.all isDigitByte then
        match more with
        | profile :: _ =>
          if profile ∈ profiles then some (number ++ Text.space :: profile) else some number
        | [] => some number
      else none
  else none

end Directive

/-- The number of a version, without its profile. -/
def versionNumber (version : Text) : Text := version.takeWhile (· ≠ Text.space)

/-- The include target that comment-free code names. -/
def includeTarget? (code : Text) : Option Text := (Directive.parse? code).bind Directive.include?

/-- The version that comment-free code declares. -/
def declaredVersion? (code : Text) : Option Text := (Directive.parse? code).bind Directive.version?

end ShaderSplice
