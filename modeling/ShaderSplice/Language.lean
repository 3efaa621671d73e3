import ShaderSplice.Text.Quoted
import ShaderSplice.Text.Space

/-!
# Shading languages

A build targets one language. Three have a name of their own; any other code is accepted and
treated like desktop OpenGL. The language decides the version of a source that declares none.
-/

namespace ShaderSplice

/-- The GLSL dialect that a build targets. -/
inductive Language where
  | openGL
  | openGLES20
  | openGLES30
  /-- A dialect that only has a number. -/
  | unlisted (code : Int64)
deriving DecidableEq, Repr

namespace Language

/-- The language with a given number. -/
def ofCode (code : Int64) : Language :=
  if code = 0 then .openGL
  else if code = 1 then .openGLES20
  else if code = 2 then .openGLES30
  else .unlisted code

/-- The number of a language. -/
def code : Language → Int64
  | .openGL => 0
  | .openGLES20 => 1
  | .openGLES30 => 2
  | .unlisted code => code

/-- Whether a language is an OpenGL ES dialect. -/
def isES : Language → Bool
  | .openGLES20 | .openGLES30 => true
  | .openGL | .unlisted _ => false

/-- The version of a source that declares none. -/
def defaultVersion (l : Language) : Text := Text.ofString (if l.isES then "100" else "110")

/-- The name of a language. -/
def name : Language → Text
  | .openGL => Text.ofString "opengl"
  | .openGLES20 => Text.ofString "es2"
  | .openGLES30 => Text.ofString "es3"
  | .unlisted code => Text.ofString "Language(" ++ Text.ofInt code.toInt ++ Text.ofString ")"

/-- The spellings under which a language can be chosen. -/
def spellings : List (Text × Language) :=
  ["opengl", "gl", "glsl"].map (fun s => (Text.ofString s, openGL)) ++
    ["es2", "gles2", "opengles20", "es20"].map (fun s => (Text.ofString s, openGLES20)) ++
    ["es3", "gles3", "opengles30", "es30"].map (fun s => (Text.ofString s, openGLES30))

/-- A spelling that names no language. -/
structure UnknownName where
  spelling : Text
deriving DecidableEq, Repr

/-- What is said about a spelling that names no language. -/
def UnknownName.message (e : UnknownName) : Text :=
  Text.ofString "unknown language " ++ e.spelling.quote ++
    Text.ofString " (available: opengl, es2, es3)"

/-- The language that a spelling names, with space around it and in either case of letters. The
letters of the accepted spellings are the lower case of ASCII letters only. -/
def parse (s : Text) : Except UnknownName Language :=
  match spellings.lookup s.trim.toLower with
  | some l => .ok l
  | none => .error ⟨s⟩

end Language
end ShaderSplice
