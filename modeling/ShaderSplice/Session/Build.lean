import ShaderSplice.Session.Report

/-!
# Building

A build processes a session and writes what comes out into a directory: one file for each artifact,
under the name of its source, and then the lookup file. The files are written one after the other,
and the first that cannot be written ends the build.
-/

namespace ShaderSplice

/-- The name of the lookup file in the directory that is built. -/
def lookupFile : Text := Text.ofString "glossy_files.go"

/-- The text of a truth value. -/
def Text.ofBool (b : Bool) : Text := Text.ofString (if b then "true" else "false")

/-- The record of an artifact that was written to `path`. -/
def Artifact.written (a : Artifact) (path : Text) : Record :=
  ⟨.info, "wrote shader",
    [("source", a.name), ("path", path), ("version", a.version),
      ("optimized", Text.ofBool a.optimized)]⟩

/-- Writes artifacts into the directory `dir` one after the other, until one fails. -/
def writeArtifacts (dir : Text) (tree : FileTree) :
    List Artifact → FileTree × List Record × Except BuildError Unit
  | [] => (tree, [], .ok ())
  | a :: rest =>
    let path := Path.join dir a.name
    match tree.write path a.text with
    | .error e => (tree, [], .error (.writing path e))
    | .ok tree =>
      let (tree, log, result) := writeArtifacts dir tree rest
      (tree, a.written path :: log, result)

/-- Writes the lookup file of a report into the directory `dir`. -/
def writeLookup (dir package : Text) (tree : FileTree) (r : Report) :
    FileTree × List Record × Except BuildError Unit :=
  match generateLookup package r.registry.names with
  | .error e => (tree, [], .error (.lookup e))
  | .ok text =>
    let path := Path.join dir lookupFile
    match tree.write path text with
    | .error e => (tree, [], .error (.writing path e))
    | .ok tree =>
      (tree,
        [⟨.info, "wrote file id lookup",
          [("path", path), ("files", Text.ofNat r.registry.size)]⟩],
        .ok ())

/-- Writes a report into the directory `dir`, which is made if need be. -/
def writeReport (dir package : Text) (tree : FileTree) (r : Report) :
    FileTree × List Record × Except BuildError Unit :=
  let (tree, made) := tree.makeAll dir
  match made with
  | .error e => (tree, [], .error (.creating e))
  | .ok () =>
    let (tree, log, result) := writeArtifacts dir tree r.artifacts
    match result with
    | .error e => (tree, log, .error e)
    | .ok () =>
      let (tree, more, result) := writeLookup dir package tree r
      (tree, log ++ more, result)

/-- Processes a session and writes what comes out into the directory `dir`. -/
def Session.build (s : Session) (tree : FileTree) (dir : Text) : Session.Outcome Report :=
  let out := s.process tree
  match out.result with
  | .error e => ⟨out.tree, out.log, .error e⟩
  | .ok report =>
    let (tree, more, result) := writeReport dir s.package out.tree report
    ⟨tree, out.log ++ s.logger.filter more, result.map fun () => report⟩

end ShaderSplice
