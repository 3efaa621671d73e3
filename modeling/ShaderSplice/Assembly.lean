import ShaderSplice.Assembly.Output
import ShaderSplice.Language
import ShaderSplice.Log

/-!
# Assembling a source

`assemble` turns a top-level source into one self-contained text. The white space at the end of the
source is dropped first. The version that the source declares, or else the default of the language,
holds for the whole tree of includes.

    text ──sourceLines──▶ lines ──walk──▶ events , Body ──Body.assembly──▶ output lines ──▶ text
                                     │
                                     └──▶ names entered ──▶ registry ──▶ ids

Every name that the walk enters is registered in the order of entering, also when the walk fails
later. The markers get their ids when everything is registered; `assembleOnePass` gives them out on
the way, to the same effect.
-/

namespace ShaderSplice

/-- The assembled text of a top-level source, and the version of its tree. -/
structure Assembly where
  name : Text
  source : Text
  version : Text
deriving DecidableEq, Repr

/-- The include name that an event registers. -/
def Event.entered? : Event → Option Text
  | .enter _ target _ => some target
  | .unclosed _ => none

/-- The record that tells of an event. -/
def Event.record (idOf : FileRef → FileId) : Event → Record
  | .enter source target line =>
    { level := .debug
      message := "expanding include"
      values :=
        [("source", source), ("include", target),
          ("id", Text.ofNat (idOf (.included target)).toNat), ("line", Text.ofNat line)] }
  | .unclosed file =>
    { level := .warn
      message := "include ends inside a block comment"
      values := [("include", file)] }

/-- The version of the tree under a source with the given lines. -/
def treeVersion (language : Language) (ls : List SourceLine) : Text :=
  (leadVersion? ls).getD language.defaultVersion

/-- The source lines of a top-level source. -/
def topLines (text : Text) : List SourceLine := sourceLines text.trimEnd

/-- The walk over a top-level source. -/
def walkTop (language : Language) (table : IncludeTable) (name text : Text) : Walk :=
  walk table (treeVersion language (topLines text)) name [] (topLines text)

/-- What an assembly leaves behind. -/
structure Outcome where
  registry : Registry
  log : List Record
  result : Except Failure Assembly

/-- Assembles the source `name` with the given text. -/
def assemble (language : Language) (mode : LineMode) (table : IncludeTable) (registry : Registry)
    (name text : Text) : Outcome :=
  let version := treeVersion language (topLines text)
  let visited := walkTop language table name text
  let registry := registry.insertAll (visited.events.filterMap Event.entered?)
  { registry
    log := visited.events.map (Event.record registry.idOf)
    result := visited.result.map fun body =>
      { name, version, source := render registry.idOf (body.assembly mode version) } }

end ShaderSplice
