import ShaderSplice.Assembly
import ShaderSplice.Glob
import ShaderSplice.Optimizer

/-!
# Build sessions

A session collects what a build needs: top-level sources and include files, found by patterns or
given as texts, and settings. It is built up by `Call`s, one after the other.

    Session.start language ──call──▶ Session ──call──▶ … ──▶ Session

Texts are read when they are found, so a session does not change with the files later. The first
thing that goes wrong while files are looked for stays with the session; patterns are not looked at
any more after that.
-/

namespace ShaderSplice

/-- A top-level source of a session. -/
structure SourceEntry where
  /-- The name of the source, of which its artifact takes the name. -/
  name : Text
  /-- Where the source was read; empty if it was given as a text. -/
  path : Text
  stage : Stage
  text : Text
deriving DecidableEq, Repr

/-- What goes wrong while a session is built up. -/
inductive DiscoveryError where
  | badPattern (e : Glob.BadPattern)
  | unreadableSource (path : Text) (e : PathError)
  | unreadableInclude (path : Text) (e : PathError)
  /-- A source has the name of another; `path` is where it was found, if it was. -/
  | duplicate (name : Text) (path : Option Text)
deriving DecidableEq, Repr

/-- What is said about what went wrong while a session was built up. -/
def DiscoveryError.message : DiscoveryError → Text
  | .badPattern e =>
    Text.ofString "bad pattern " ++ e.pattern.quote ++ Text.ofString ": " ++ e.reason
  | .unreadableSource path e =>
    Text.ofString "reading " ++ path ++ Text.ofString ": " ++ e.message
  | .unreadableInclude path e =>
    Text.ofString "reading include " ++ path ++ Text.ofString ": " ++ e.message
  | .duplicate name path =>
    Text.ofString "duplicate shader source name " ++ name.quote ++
      (match path with
      | some p => Text.ofString " (" ++ p ++ Text.ofString ")"
      | none => [])

/-- Where a session looks for files. -/
structure Disk where
  glob : Text → Except Glob.BadPattern (List Text)
  read : Text → Except PathError Text

/-- A file tree as a place to look for files. -/
def FileTree.disk (t : FileTree) : Disk := ⟨t.glob, t.read⟩

/-- The package name of a lookup file, unless a session says otherwise. -/
def defaultPackage : Text := Text.ofString "shaders"

/-- What a build needs. -/
structure Session where
  language : Language
  /-- The top-level sources in the order in which they are processed. -/
  sources : List SourceEntry
  includes : IncludeTable
  optimizer : Option Optimizer
  mode : LineMode
  allowUntested : Bool
  package : Text
  logger : Logger
  /-- The first thing that went wrong. -/
  error : Option DiscoveryError

/-- A step in building up a session. -/
inductive Session.Call where
  /-- Adds the files that match a pattern as vertex shaders. -/
  | vertex (pattern : Text)
  /-- Adds the files that match a pattern as fragment shaders. -/
  | fragment (pattern : Text)
  /-- Adds the files that match a pattern, each with the stage that its extension tells. -/
  | source (pattern : Text)
  /-- Adds the files that match a pattern as include files under their base names. -/
  | includes (pattern : Text)
  | addSource (name : Text) (stage : Stage) (text : Text)
  | addInclude (name text : Text)
  /-- Sets the optimizer, or takes it away. Either way line information is discarded. -/
  | optimize (optimizer : Option Optimizer)
  | discardLineInfo
  | allowUntested
  | package (name : Text)
  | logger (logger : Logger)

namespace Session

/-- A session without sources, includes and settings. -/
def start (language : Language) : Session :=
  { language
    sources := []
    includes := ∅
    optimizer := none
    mode := .keep
    allowUntested := false
    package := defaultPackage
    logger := .silent
    error := none }

/-- The session after something went wrong; only the first thing counts. -/
def fail (s : Session) (e : DiscoveryError) : Session := { s with error := s.error.or (some e) }

/-- Whether a source has the given name. -/
def hasSource (s : Session) (name : Text) : Bool := s.sources.any (·.name == name)

/-- Adds the sources at the given paths; the first that cannot be added ends it. -/
def addSourcesAt (disk : Disk) (stageOf : Text → Stage) (s : Session) : List Text → Session
  | [] => s
  | path :: paths =>
    match disk.read path with
    | .error e => s.fail (.unreadableSource path e)
    | .ok text =>
      let name := Path.base path
      if s.hasSource name then s.fail (.duplicate name (some path))
      else
        addSourcesAt disk stageOf
          { s with sources := s.sources ++ [⟨name, path, stageOf path, text⟩] } paths

/-- Adds the include files at the given paths; the first that cannot be read ends it. -/
def addIncludesAt (disk : Disk) (s : Session) : List Text → Session × List Record
  | [] => (s, [])
  | path :: paths =>
    match disk.read path with
    | .error e => (s.fail (.unreadableInclude path e), [])
    | .ok text =>
      let name := Path.base path
      let replaced : List Record :=
        if (s.includes.find? name).isSome then
          [⟨.warn, "include replaced", [("name", name), ("path", path)]⟩]
        else []
      let (s, log) :=
        addIncludesAt disk { s with includes := s.includes.insert name text } paths
      (s, replaced ++ log)

/-- The record of a pattern that matched nothing. -/
def noMatch (pattern : Text) : Record :=
  ⟨.warn, "pattern matched no files", [("pattern", pattern)]⟩

/-- Hands the paths that match a pattern, in the order of their bytes, to `add`. -/
def withMatches (disk : Disk) (s : Session) (pattern : Text)
    (add : Session → List Text → Session × List Record) : Session × List Record :=
  if s.error.isSome then (s, [])
  else
    match disk.glob pattern with
    | .error e => (s.fail (.badPattern e), [])
    | .ok paths =>
      let (s, log) := add s (paths.mergeSort (· ≤ ·))
      (s, (if paths = [] then [noMatch pattern] else []) ++ log)

/-- Adds the sources that match a pattern. -/
def addMatches (disk : Disk) (s : Session) (pattern : Text) (stageOf : Text → Stage) :
    Session × List Record :=
  s.withMatches disk pattern fun s paths => (s.addSourcesAt disk stageOf paths, [])

/-- The session after a call, and all that there is to tell about the call. -/
def applyCall (disk : Disk) (s : Session) : Call → Session × List Record
  | .vertex pattern => s.addMatches disk pattern fun _ => .vertex
  | .fragment pattern => s.addMatches disk pattern fun _ => .fragment
  | .source pattern => s.addMatches disk pattern Stage.ofPath
  | .includes pattern => s.withMatches disk pattern (addIncludesAt disk)
  | .addSource name stage text =>
    if s.hasSource name then (s.fail (.duplicate name none), [])
    else ({ s with sources := s.sources ++ [⟨name, [], stage, text⟩] }, [])
  | .addInclude name text => ({ s with includes := s.includes.insert name text }, [])
  | .optimize optimizer => ({ s with optimizer, mode := .discard }, [])
  | .discardLineInfo => ({ s with mode := .discard }, [])
  | .allowUntested => ({ s with allowUntested := true }, [])
  | .package name => ({ s with package := name }, [])
  | .logger logger => ({ s with logger }, [])

/-- The session after a call, and the records that its logger lets through. -/
def call (disk : Disk) (s : Session) (c : Call) : Session × List Record :=
  let (next, log) := s.applyCall disk c
  (next, next.logger.filter log)

/-- The session after calls one after the other, and the records that its logger lets through. -/
def calls (disk : Disk) (s : Session) : List Call → Session × List Record
  | [] => (s, [])
  | c :: cs =>
    let (s, log) := s.call disk c
    let (s, more) := s.calls disk cs
    (s, log ++ more)

end Session
end ShaderSplice
