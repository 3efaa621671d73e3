import ShaderSplice.Session.Basic
import ShaderSplice.Lookup

/-!
# Processing a session

`Session.process` assembles the sources of a session in their order, with one registry for all of
them, and optimizes each where an optimizer is set and the version allows it. What comes out is a
report: an artifact for each source, and the registry that gives the ids in the markers a meaning.
The first source that fails ends it.
-/

namespace ShaderSplice

/-- The processed form of a source. -/
structure Artifact where
  name : Text
  path : Text
  stage : Stage
  /-- The assembled text, after optimization if there was one. -/
  text : Text
  version : Text
  /-- Whether an optimizer has seen the text. -/
  optimized : Bool
deriving DecidableEq, Repr

/-- What processing a session gives. -/
structure Report where
  artifacts : List Artifact
  registry : Registry

/-- The artifact of the source with the given name. -/
def Report.artifact? (r : Report) (name : Text) : Option Artifact :=
  r.artifacts.find? (·.name == name)

/-- What keeps a session from giving its results. -/
inductive BuildError where
  /-- Something went wrong while the session was built up. -/
  | discovery (e : DiscoveryError)
  | processing (source : Text) (f : Failure)
  | optimization (source : Text) (e : OptimizeError)
  | noSource (name : Text)
  | creating (e : PathError)
  | writing (path : Text) (e : PathError)
  | lookup (e : InvalidPackage)
deriving DecidableEq, Repr

/-- What is said about what keeps a session from giving its results. -/
def BuildError.message : BuildError → Text
  | .discovery e => e.message
  | .processing source f =>
    Text.ofString "processing " ++ source.quote ++ Text.ofString ": " ++ f.message
  | .optimization source e =>
    Text.ofString "optimization error for shader source " ++ source.quote ++ Text.ofString ": " ++
      e.message
  | .noSource name => Text.ofString "no shader source named " ++ name.quote
  | .creating e => Text.ofString "creating output dir: " ++ e.message
  | .writing path e => Text.ofString "writing " ++ path ++ Text.ofString ": " ++ e.message
  | .lookup e => e.message

/-- What a step of a session leaves behind: the files, what there is to tell, and what comes out. -/
structure Session.Outcome (α : Type) where
  tree : FileTree
  log : List Record
  result : Except BuildError α

/-- The outcome with another result, which is made of the one that came out. -/
def Session.Outcome.andThen {α β : Type} (o : Session.Outcome α) (f : α → Except BuildError β) :
    Session.Outcome β :=
  ⟨o.tree, o.log, o.result.bind f⟩

namespace Session

/-- An artifact after the optimizer of a session, if it has one that takes the version. -/
def optimize (s : Session) (tree : FileTree) (a : Artifact) : Outcome Artifact :=
  match s.optimizer with
  | none => ⟨tree, [], .ok a⟩
  | some optimizer =>
    match checkVersion s.language a.version s.allowUntested with
    | .error e =>
      ⟨tree, [⟨.info, "skipping optimization", [("source", a.name), ("reason", e.message)]⟩], .ok a⟩
    | .ok () =>
      match optimizer tree a.stage a.text with
      | (tree, .error e) => ⟨tree, [], .error (.optimization a.name e)⟩
      | (tree, .ok text) => ⟨tree, [], .ok { a with text, optimized := true }⟩

/-- Processes one source. The registry is the one after it, also if it fails. -/
def processSource (s : Session) (tree : FileTree) (registry : Registry) (source : SourceEntry) :
    Registry × Outcome Artifact :=
  let out := assemble s.language s.mode s.includes registry source.name source.text
  match out.result with
  | .error f => (out.registry, ⟨tree, out.log, .error (.processing source.name f)⟩)
  | .ok a =>
    let optimized := s.optimize tree
      { name := source.name, path := source.path, stage := source.stage, text := a.source,
        version := a.version, optimized := false }
    (out.registry, { optimized with log := out.log ++ optimized.log })

/-- Processes sources one after the other, until one fails. -/
def processSources (s : Session) (tree : FileTree) (registry : Registry) :
    List SourceEntry → Outcome Report
  | [] => ⟨tree, [], .ok ⟨[], registry⟩⟩
  | source :: sources =>
    let (registry, first) := s.processSource tree registry source
    match first.result with
    | .error e => ⟨first.tree, first.log, .error e⟩
    | .ok artifact =>
      let rest := s.processSources first.tree registry sources
      ⟨rest.tree, first.log ++ rest.log,
        rest.result.map fun r => { r with artifacts := artifact :: r.artifacts }⟩

/-- All that there is to tell about processing a session, and what comes out. -/
def processAll (s : Session) (tree : FileTree) : Outcome Report :=
  match s.error with
  | some e => ⟨tree, [], .error (.discovery e)⟩
  | none => s.processSources tree ∅ s.sources

/-- Processes the sources of a session. -/
def process (s : Session) (tree : FileTree) : Outcome Report :=
  let out := s.processAll tree
  { out with log := s.logger.filter out.log }

/-- The text of the artifact of one source. All sources are processed, so that the ids are those of
a build. -/
def emit (s : Session) (tree : FileTree) (name : Text) : Outcome Text :=
  (s.process tree).andThen fun r =>
    match r.artifact? name with
    | some a => .ok a.text
    | none => .error (.noSource name)

end Session

/-- The ids of a report with their names, one to a line. -/
def Report.listing (r : Report) : Text :=
  r.registry.names.zipIdx.flatMap fun (name, i) =>
    Text.ofNat (i + 1) ++ Text.ofString "\t" ++ name ++ [Text.newline]

end ShaderSplice
