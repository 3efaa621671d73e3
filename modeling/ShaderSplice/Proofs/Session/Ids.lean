import ShaderSplice.CommandLine.Command
import ShaderSplice.Proofs.Lookup
import ShaderSplice.Proofs.Marker
import ShaderSplice.Proofs.Session.Build

/-!
# The ids of a session

Three outputs speak of ids: the markers in the artifacts, which are written while the sources are
processed one by one; the lookup file, which is written at the end; and the listing that the command
`ids` prints. All three agree on which id belongs to which include.

    registry of the report ──▶ 1 ↦ first name, 2 ↦ second name, …
        │                          │                     │
     markers                  lookup file             listing

A marker is written with the id that its file has at that moment. Names only join, so this is the
file's id in the registry of the report as well.
-/

namespace ShaderSplice

/-- A flag that settings do not name has no value. -/
theorem CommandLine.last?_eq_none {settings : List CommandLine.Setting} {flag : CommandLine.Flag}
    (h : ∀ x ∈ settings, x.flag ≠ flag) : CommandLine.last? settings flag = none := by
  rw [CommandLine.last?, List.find?_eq_none.2, Option.map_none]
  intro x hx
  simpa using h x (List.mem_reverse.1 hx)

namespace Session

variable {s : Session}

/-! ### Sessions from a command line -/

/-- Settings that all are patterns ask for the session that the calls of their patterns build up. -/
theorem exists_session_of_patterns (host : Host) {disk : Disk}
    {settings : List CommandLine.Setting}
    (h : ∀ x ∈ settings, x.flag ∈ [.vertex, .fragment, .source, .includes])
    (hs : (start .openGL).after disk (.logger ⟨some .warn⟩ ::
      (CommandLine.globArgs settings).filterMap CommandLine.globCall?) = s)
    (herror : s.error = none) :
    ∃ log, CommandLine.session host disk settings = (log, .ok s) := by
  have hlast (flag : CommandLine.Flag) (hflag : flag ∉ [.vertex, .fragment, .source, .includes]) :
      CommandLine.last? settings flag = none :=
    CommandLine.last?_eq_none fun x hx he => hflag (he ▸ h x hx)
  have hlanguage : Language.parse (Text.ofString "opengl") = .ok .openGL := by decide +kernel
  rw [after] at hs
  refine ⟨_, Prod.ext rfl ?_⟩
  simp only [CommandLine.session, CommandLine.isOn, hlast .language (by decide),
    hlast .verbose (by decide), hlast .optimizer (by decide), hlast .discardLineInfo (by decide),
    hlast .allowUntested (by decide), Option.getD_none, Option.any_none, hlanguage, if_true,
    Bool.false_eq_true, if_false, List.append_nil]
  -- no other setting is on, so no further call follows
  rw [show (start .openGL).calls disk _ = (s, _) from Prod.ext hs rfl]
  simp only [bind, Except.bind, calls, herror]
  rfl

/-! ### Names that are registered -/

/-- What a session registers are include targets, which are printable. -/
theorem Runs.printable {registry after : Registry} {sources : List SourceEntry}
    {artifacts : List Artifact} (h : s.Runs registry sources artifacts after)
    (hregistry : ∀ n ∈ registry.names, ∀ b ∈ n, isPrintableByte b = true) :
    ∀ n ∈ after.names, ∀ b ∈ n, isPrintableByte b = true := by
  induction h with
  | nil => exact hregistry
  | cons hsource _ ih =>
    apply ih
    rw [registry_processSource, registry_assemble]
    intro n hn
    rcases Registry.mem_insertAll_iff.1 hn with hn | hn
    · exact hregistry n hn
    · -- the walk has come to its end, so what it entered is what was spliced
      obtain ⟨assembly, hassembly, -⟩ := exists_assembly hsource
      obtain ⟨body, hexp, -⟩ := exists_expands_of_assemble hassembly
      rw [walkTop, hexp.entered_eq] at hn
      exact hexp.printable_of_mem_spliced (fun l hl => hasRole_of_mem hl) n hn

/-! ### The listing -/

/-- The line of the listing for an id and its name. -/
def listingLine (p : Nat × Text) : Text := Text.ofNat p.1 ++ Text.ofString "\t" ++ p.2

theorem listing_eq_unlines (report : Report) :
    report.listing =
      unlines (((report.registry.names.zipIdx 1).map Prod.swap).map listingLine) := by
  rw [Report.listing, unlines, List.zipIdx_succ]
  simp only [List.map_map, List.flatMap_map]
  rfl

/-- The listing has a line for each name, in the order of the ids. -/
theorem lines_listing {report : Report}
    (h : ∀ n ∈ report.registry.names, ∀ b ∈ n, isPrintableByte b = true) :
    lines report.listing = ((report.registry.names.zipIdx 1).map Prod.swap).map listingLine := by
  have hnot {b : UInt8} (hdigit : isDigitByte b = false) (htab : b ≠ 0x09)
      (hprintable : isPrintableByte b = false) {l : Text}
      (hl : l ∈ ((report.registry.names.zipIdx 1).map Prod.swap).map listingLine) : b ∉ l := by
    obtain ⟨p, hp, rfl⟩ := List.mem_map.1 hl
    obtain ⟨⟨n, k⟩, hpair, rfl⟩ := List.mem_map.1 hp
    have hn : n ∈ report.registry.names := List.fst_mem_of_mem_zipIdx hpair
    have htext : Text.ofString "\t" = [0x09] := by decide
    simp only [listingLine, Prod.swap_prod_mk, htext, List.mem_append, List.mem_singleton, not_or]
    refine ⟨⟨Text.not_mem_ofNat hdigit k, htab⟩, ?_⟩
    intro hb
    rw [h n hn b hb] at hprintable
    cases hprintable
  rw [listing_eq_unlines, lines_unlines fun l hl => hnot (by decide) (by decide) (by decide) hl]
  refine (List.map_congr_left ?_).trans (List.map_id _)
  intro l hl
  apply dropCarriageReturn_eq_self
  intro hlast
  exact hnot (by decide) (by decide) (by decide) hl (List.mem_of_getLast? hlast)

/-! ### What a session is processed to -/

/-- Neither the package nor the logger has a part in processing. -/
theorem result_process_settings (package : Text) (logger : Logger) (tree : FileTree) :
    (({ s with package, logger } : Session).process tree).result = (s.process tree).result := by
  have halike : s.Alike { s with package, logger } := ⟨rfl, rfl, rfl, rfl, fun _ => rfl⟩
  simp only [process, processAll, halike.processSources]

/-- The command `ids` prints the listing of its session's report. -/
theorem result_run_ids {host : Host} {disk : Disk} {tree : FileTree}
    {settings : List CommandLine.Setting} {operands : List Text} {log : List Record}
    {report : Report} (hsession : CommandLine.session host disk settings = (log, .ok s))
    (h : (s.process tree).result = .ok report) :
    (CommandLine.Command.run host disk tree settings operands .ids).result =
      .ok report.listing := by
  simp only [CommandLine.Command.run, hsession, CommandLine.Response.ofOutcome, h]
  rfl

/-! ### One mapping -/

/-- **All outputs of a session agree on the ids.** The session has no optimizer, and a build
succeeds. Read back, the lookup file is a program; a compiler takes it if there are ids for all
names, and then its function gives no name to the id 0 and to ids that are larger than the number of
names. In each artifact every file that is expanded is opened by a marker. The id of every marker is
zero or at most the number of names: zero for the source, and for an include the one id to which the
function gives the name of the include. The listing of the same session has a line for each case of
the program, with the ids from 1 on in their order. -/
theorem build_ids_agree {tree : FileTree} {dir : Text} {report : Report}
    (hoptimizer : s.optimizer = none) (h : (s.build tree dir).result = .ok report) :
    ∃ file program, (s.build tree dir).tree.read (Path.join dir lookupFile) = .ok file ∧
      LookupProgram.read? file = some program ∧
      (program.fileName?.isSome ↔ report.registry.size < UInt32.size) ∧
      (∀ fileName, program.fileName? = some fileName →
        ∀ k, k = 0 ∨ report.registry.size < k.toNat → fileName k = ([], false)) ∧
      List.Forall₂ (fun source a =>
        let placed := layout s.language s.mode s.includes source.name source.text
        a.text.splitOn Text.newline = placed.map (PlacedLine.text report.registry.idOf) ∧
        (∀ site included content,
          expandedAt s.includes .top source.text.trimEnd site =
            some (.included included, content) →
          ∃ number, ⟨site, .marker number (.included included)⟩ ∈ placed) ∧
        ∀ p ∈ placed, ∀ number ref, p.line = .marker number ref →
          ∃ k : FileId, p.text report.registry.idOf =
              Text.ofString "#line " ++ Text.ofNat number ++ Text.ofString " " ++
                Text.ofNat k.toNat ∧
            (k = 0 ∨ 1 ≤ k.toNat ∧ k.toNat ≤ report.registry.size) ∧
            (ref = .top → k = 0) ∧
            ∀ included, ref = .included included →
              ∀ fileName, program.fileName? = some fileName →
                ∀ k', fileName k' = (included, true) ↔ k' = k)
        s.sources report.artifacts ∧
      ∀ host disk tree' settings operands log package logger,
        CommandLine.session host disk settings = (log, .ok { s with package, logger }) →
        ∃ printed,
          (CommandLine.Command.run host disk tree' settings operands .ids).result = .ok printed ∧
          lines printed = program.cases.map (fun (k, included) =>
            Text.ofNat k ++ Text.ofString "\t" ++ included) ∧
          program.labels = List.range' 1 report.registry.size ∧
          ∀ fileName, program.fileName? = some fileName →
            ∀ k included, fileName k = (included, true) ↔ (k.toNat, included) ∈ program.cases := by
  obtain ⟨hprocess, hpackage, hread⟩ := exists_lookup_of_build h
  have hruns := runs_of_process hprocess
  have hfileName {fileName : FileId → Text × Bool}
      (hsome : (LookupProgram.numbered s.package report.registry.names).fileName? = some fileName) :
      report.registry.size < UInt32.size ∧
        fileName = (LookupProgram.numbered s.package report.registry.names).fileName :=
    ⟨(LookupProgram.isSome_fileName?_numbered _ _).1 (by rw [hsome]; rfl),
      LookupProgram.fileName_eq_of_fileName? hsome⟩
  refine ⟨_, .numbered s.package report.registry.names, hread,
    LookupProgram.read?_lookupText hpackage _, LookupProgram.isSome_fileName?_numbered _ _, ?_, ?_,
    ?_⟩
  · intro fileName hsome k hk
    obtain ⟨-, rfl⟩ := hfileName hsome
    exact LookupProgram.fileName_numbered_eq_none hk s.package
  · refine hruns.makes.imp ?_
    rintro source a ⟨tree', registry, hsource, hfinal⟩
    obtain ⟨assembly, hassembly, htext⟩ := exists_assembly hsource
    rw [registry_processSource] at hfinal
    -- the ids are those of the source's own moment, and they have not changed since
    obtain ⟨hlines, hids⟩ := lines_source_of_isPrefix hassembly hfinal
    refine ⟨by rw [htext hoptimizer, hlines], ?_, ?_⟩
    · intro site included content hsite
      exact exists_marker_of_expandedAt hassembly hsite
    · intro p hp number ref hline
      have hid := hids p hp number ref hline
      refine ⟨report.registry.idOf ref, by rw [PlacedLine.text, hline]; rfl, hid.zero_or_le, ?_, ?_⟩
      · rintro rfl
        rfl
      · rintro included rfl fileName hsome k'
        obtain ⟨hsize, rfl⟩ := hfileName hsome
        cases hid with
        | included hfind =>
          rw [LookupProgram.fileName_numbered_eq_iff, ← Registry.find?_eq_some_iff_name? hsize,
            hfind]
          exact ⟨fun he => (Option.some.inj he).symm, fun he => by rw [he]⟩
  · intro host disk tree' settings operands log package logger hsession
    -- neither the package nor the logger plays a part in what is registered
    have hprocess' :
        (({ s with package, logger } : Session).process tree').result = .ok report := by
      rw [result_process_settings, (isFunctional_of_none hoptimizer).result_process tree tree',
        hprocess]
    refine ⟨report.listing, result_run_ids hsession hprocess', ?_,
      LookupProgram.labels_numbered _ _, ?_⟩
    · exact lines_listing (hruns.printable fun n hn => absurd hn List.not_mem_nil)
    · intro fileName hsome k included
      obtain ⟨hsize, rfl⟩ := hfileName hsome
      rw [LookupProgram.fileName_numbered_eq_iff, LookupProgram.mem_cases_numbered_iff]

/-- Two patterns, of which one finds a source and the other the file that it includes: the include
is opened by a marker whose id gives back its name, and `ids` prints a line for it. -/
theorem build_ids_agree_singleton :
    let out := Text.ofString "out"
    let b := Text.ofString "b"
    let tree : FileTree := .ofList
      [(Text.ofString "a", Text.ofString "#include \"b\""), (b, Text.ofString "x")]
    let disk : Disk := { glob := fun pattern => .ok [pattern], read := tree.read }
    let host : Host := fun tree _ => (tree, .error .noCommand)
    let settings : List CommandLine.Setting := [⟨.source, Text.ofString "a"⟩, ⟨.includes, b⟩]
    ∃ s log report file program fileName a printed,
      CommandLine.session host disk settings = (log, .ok s) ∧
      (s.build tree out).result = .ok report ∧
      (s.build tree out).tree.read (Path.join out lookupFile) = .ok file ∧
      LookupProgram.read? file = some program ∧ program.fileName? = some fileName ∧
      fileName 0 = ([], false) ∧ report.artifacts = [a] ∧
      (CommandLine.Command.run host disk tree settings [] .ids).result = .ok printed ∧
      ∃ number k, fileName k = (b, true) ∧
        Text.ofString "#line " ++ Text.ofNat number ++ Text.ofString " " ++ Text.ofNat k.toNat ∈
          a.text.splitOn Text.newline ∧
        Text.ofNat k.toNat ++ Text.ofString "\t" ++ b ∈ lines printed := by
  intro out b tree disk host settings
  let s : Session :=
    { start .openGL with
      sources := [⟨Text.ofString "a", Text.ofString "a", .unknown, Text.ofString "#include \"b\""⟩]
      includes := (∅ : IncludeTable).insert b (Text.ofString "x")
      logger := ⟨some .warn⟩ }
  have hafter : (start .openGL).after disk
      [.logger ⟨some .warn⟩, .source (Text.ofString "a"), .includes b] = s := by
    have hfinds (path : Text) : disk.Finds path [path] := ⟨⟨[path], rfl, .refl _⟩, by simp⟩
    have hsource : (Call.source (Text.ofString "a")).Gains disk ⟨s.sources, []⟩ :=
      .sources rfl (hfinds _)
        (.cons ⟨by decide +kernel, rfl, by decide +kernel, by decide +kernel⟩ .nil)
    have hinclude : (Call.includes b).Gains disk ⟨[], [(b, Text.ofString "x")]⟩ :=
      .includes (hfinds _) (.cons ⟨by decide +kernel, by decide +kernel⟩ .nil)
    rw [after_cons, after_cons, call_of_gains rfl hsource rfl (by decide), after_cons,
      call_of_gains rfl hinclude rfl (by decide)]
    rfl
  obtain ⟨log, hsession⟩ : ∃ log, CommandLine.session host disk settings = (log, .ok s) :=
    exists_session_of_patterns host (by decide) hafter rfl
  have hlines : topLines (Text.ofString "#include \"b\"") =
      [.ofRaw 1 false false (Text.ofString "#include \"b\"")] := by
    rw [topLines, show (Text.ofString "#include \"b\"").trimEnd = Text.ofString "#include \"b\""
      by decide +kernel]
    exact sourceLines_of_lines_eq (by decide +kernel)
  have hchild (version : Text) : Expands s.includes version [b] (sourceLines (Text.ofString "x"))
      (.keep (.ofRaw 1 false false (Text.ofString "x")) .nil) := by
    rw [sourceLines_of_lines_eq (by decide +kernel)]
    exact .keep_of_role (by decide +kernel) (by decide +kernel) .nil
  have hexp (version : Text) : Expands s.includes version []
      (topLines (Text.ofString "#include \"b\""))
      (.splice (.ofRaw 1 false false (Text.ofString "#include \"b\"")) b
        (.keep (.ofRaw 1 false false (Text.ofString "x")) .nil) .nil) := by
    rw [hlines]
    exact .splice (by decide +kernel) (by decide +kernel) (by simp) (hchild version) .nil
  have hprocess := process_singleton (s := s) rfl rfl rfl (hexp _) tree
  have hbuild := result_build (isFunctional_of_none (s := s) rfl) hprocess out
  rw [show (writeReport _ _ _ _).2.2 = .ok () by decide +kernel] at hbuild
  obtain ⟨file, program, hread, hprogram, hsome, hnone, hmarkers, hids⟩ :=
    build_ids_agree (s := s) rfl hbuild
  obtain ⟨fileName, hfileName⟩ := Option.isSome_iff_exists.1 (hsome.2 (by decide +kernel))
  obtain ⟨printed, hprinted, hlisting, -, hcases⟩ :=
    hids host disk tree settings [] log s.package s.logger hsession
  cases hmarkers with
  | cons hmarked _ =>
    obtain ⟨htext, hopened, hmarker⟩ := hmarked
    obtain ⟨number, hmem⟩ := hopened [1] b (Text.ofString "x") (by decide +kernel)
    obtain ⟨k, hk, -, -, hname⟩ := hmarker _ hmem number (.included b) rfl
    have hnamed : fileName k = (b, true) := (hname b rfl fileName hfileName k).2 rfl
    refine ⟨s, log, _, file, program, fileName, _, printed, hsession, hbuild, hread, hprogram,
      hfileName, hnone fileName hfileName 0 (.inl rfl), rfl, hprinted, number, k, hnamed, ?_, ?_⟩
    · rw [htext, ← hk]
      exact List.mem_map_of_mem hmem
    · rw [hlisting]
      exact List.mem_map_of_mem ((hcases fileName hfileName k b).1 hnamed)

end Session
end ShaderSplice
