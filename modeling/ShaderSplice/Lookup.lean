import ShaderSplice.Text.Letter
import ShaderSplice.Text.Quoted

/-!
# The lookup file

Markers refer to files by id. The lookup file is a generated source file with one function that
gives the name back: a case for each id from 1 on, in the order of the names, and a default for all
others. It is laid out the way a formatter of its language would leave it.

Its package name is checked first: a letter or underscore, then letters, digits and underscores, and
no reserved word.
-/

namespace ShaderSplice

/-- The words that cannot name a package. -/
def reservedWords : List Text :=
  ["break", "case", "chan", "const", "continue", "default", "defer", "else", "fallthrough", "for",
    "func", "go", "goto", "if", "import", "interface", "map", "package", "range", "return",
    "select", "struct", "switch", "type", "var"].map Text.ofString

/-- Whether a symbol can start an identifier. -/
def Symbol.startsIdentifier : Symbol → Bool
  | .char c => isLetter c || c == '_'
  | .stray _ => false

/-- Whether a symbol can stand in an identifier after its start. -/
def Symbol.continuesIdentifier : Symbol → Bool
  | .char c => isLetter c || c == '_' || isDigit c
  | .stray _ => false

/-- Whether a text can name the package of a lookup file. -/
def isPackageName (t : Text) : Bool :=
  match t.symbols with
  | [] => false
  | s :: rest =>
    s.startsIdentifier && rest.all Symbol.continuesIdentifier && t ∉ reservedWords

/-- A text that cannot name a package. -/
structure InvalidPackage where
  name : Text
deriving DecidableEq, Repr

/-- What is said about a text that cannot name a package. -/
def InvalidPackage.message (e : InvalidPackage) : Text :=
  Text.ofString "invalid package name " ++ e.name.quote

/-- The two lines by which the lookup file gives the name of an id. -/
def lookupCase (id : Nat) (name : Text) : Text :=
  Text.ofString "\tcase " ++ Text.ofNat id ++ Text.ofString ":\n\t\treturn " ++ name.quote ++
    Text.ofString ", true\n"

/-- The cases for `names`, of which the first has the given id. -/
def lookupCases (id : Nat) : List Text → Text
  | [] => []
  | name :: names => lookupCase id name ++ lookupCases (id + 1) names

/-- The text of the lookup file for `names`, which are ordered by id. -/
def lookupText (package : Text) (names : List Text) : Text :=
  Text.ofString "// Code generated by glossy. DO NOT EDIT.\n\npackage " ++ package ++
    Text.ofString "\n\n// FileName returns the include file name for a #line file id.\n" ++
    Text.ofString "func FileName(id uint32) (string, bool) \x7b\n\tswitch id \x7b\n" ++
    lookupCases 1 names ++
    Text.ofString "\t\x7d\n\treturn \"\", false\n\x7d\n"

/-- The lookup file for `names`, which are ordered by id. -/
def generateLookup (package : Text) (names : List Text) : Except InvalidPackage Text :=
  if isPackageName package then .ok (lookupText package names) else .error ⟨package⟩

end ShaderSplice
