import ShaderSplice.Text.Quoted
import ShaderSplice.Text.Space

/-!
# Log records

The library does not print. What it has to say on the way is a list of records, each with a level,
a message and named values. `Record.line` writes one as a line of `key=value` pairs, in which a
value is quoted when it could not be told apart from the rest of the line.
-/

namespace ShaderSplice

/-- How much a record matters. -/
inductive Level where
  | debug
  | info
  | warn
deriving DecidableEq, Repr

namespace Level

/-- The name of a level. -/
def name : Level → String
  | .debug => "DEBUG"
  | .info => "INFO"
  | .warn => "WARN"

/-- Levels in rising order of what they matter. -/
def rank : Level → Nat
  | .debug => 0
  | .info => 1
  | .warn => 2

end Level

/-- Something worth telling, with the values that it is about. -/
structure Record where
  level : Level
  message : String
  values : List (String × Text)
deriving DecidableEq, Repr

/-- Whether a symbol can stand in a value without quotes around it. -/
def isPlainSymbol : Symbol → Bool
  | .stray _ => false
  | .char c =>
    let n := c.toNat
    if n < 0x80 then 0x20 < n && n != 0x22 && n != 0x3d
    else n != 0xfffd && !isSpace c && isPrintable c

/-- A value as it stands in a log line. -/
def logValue (t : Text) : Text :=
  if t ≠ [] ∧ t.symbols.all isPlainSymbol then t else t.quote

namespace Record

/-- A record as a log line, without the time. -/
def line (r : Record) : Text :=
  let pairs := ("level", Text.ofString r.level.name) :: ("msg", Text.ofString r.message) :: r.values
  Text.join [Text.space] (pairs.map fun (key, value) =>
    Text.ofString key ++ Text.equals :: logValue value)

end Record

/-- Who listens to the records: nobody, or a reader of the records from some level on. -/
structure Logger where
  threshold : Option Level
deriving DecidableEq, Repr

namespace Logger

/-- Nobody listens. -/
def silent : Logger := ⟨none⟩

/-- Everything is read. -/
def all : Logger := ⟨some .debug⟩

/-- Whether a record reaches the reader. -/
def admits (l : Logger) (r : Record) : Bool :=
  l.threshold.any fun least => least.rank ≤ r.level.rank

/-- The records that reach the reader. -/
def filter (l : Logger) (rs : List Record) : List Record := rs.filter l.admits

end Logger
end ShaderSplice
