import ShaderSplice.Proofs.Numbering
import ShaderSplice.Proofs.Registry

/-!
# Every line of every file

Markers attribute each copied line to its place (`attributed_copy`). This module adds the other
half: at each site, all the lines of the file are copied that can be, once each and in order.

    sourceLines content = emitted ++ final
    copies at the site  = the lines of `emitted`, without directives

Nothing but white space is in `final`, and perhaps the version that the file leads with. That is
what trimming takes from the end of a frame; the proof follows the frame of the file line by line
(`Expands.exists_emitted`), with a line that is not white space protecting those before it.
-/

namespace ShaderSplice

/-! ### Ids -/

/-- A walk that succeeds has entered each include of its file, and all that was entered below. -/
theorem entered_of_walk {table : IncludeTable} {version name : Text} {path : List Text}
    {ls : List SourceLine} {body : Body} (h : (walk table version name path ls).result = .ok body)
    {l : SourceLine} (hl : l ∈ ls) {target text : Text} (hrole : l.role = .splice target)
    (hfind : table.find? target = some text) :
    target ∈ (walk table version name path ls).entered ∧
      ∃ child,
        (walk table version target (path ++ [target]) (sourceLines text)).result = .ok child ∧
        ∀ n ∈ (walk table version target (path ++ [target]) (sourceLines text)).entered,
          n ∈ (walk table version name path ls).entered := by
  fun_induction walk table version name path ls generalizing body with
  | case1 name path => simp at hl
  | case2 name path l' rest hlead ih =>
    obtain ⟨b, hb, rfl⟩ := Walk.keep_eq_ok_iff.1 h
    rcases List.mem_cons.1 hl with rfl | hl
    · rw [hlead] at hrole; cases hrole
    · exact ih hb hl
  | case3 name path l' rest declared hlead hv => cases h
  | case4 name path l' rest target' hrole' hnone => cases h
  | case5 name path l' rest target' hrole' text' hfind' hpath => cases h
  | case6 name path l' rest target' hrole' text' hfind' hpath child f => cases h
  | case7 name path l' rest target' hrole' text' hfind' hpath child b hchild ihchild =>
    rename_i ih
    obtain ⟨b', hb', rfl⟩ := Walk.resume_eq_ok_iff.1 h
    rcases List.mem_cons.1 hl with rfl | hl
    · rw [hrole] at hrole'
      cases hrole'
      rw [hfind] at hfind'
      cases hfind'
      rw [Walk.entered_resume]
      refine ⟨by simp, b, hchild, ?_⟩
      intro n hn
      exact List.mem_append_left _ (List.mem_cons_of_mem _ hn)
    · obtain ⟨hmem, child', hchild', hsub⟩ := ih hb' hl
      rw [Walk.entered_resume]
      refine ⟨List.mem_append_right _ hmem, child', hchild', ?_⟩
      intro n hn
      exact List.mem_append_right _ (hsub n hn)
  | case8 name path l' rest hsilent ih =>
    obtain ⟨b, hb, rfl⟩ := Walk.keep_eq_ok_iff.1 h
    rcases List.mem_cons.1 hl with rfl | hl
    · rw [hsilent] at hrole; cases hrole
    · exact ih hb hl
  | case9 name path l' rest redeclares hordinary ih =>
    obtain ⟨b, hb, rfl⟩ := Walk.keep_eq_ok_iff.1 h
    rcases List.mem_cons.1 hl with rfl | hl
    · rw [hordinary] at hrole; cases hrole
    · exact ih hb hl

theorem entered_of_expandedAt {table : IncludeTable} {version name : Text} {path : List Text}
    {content : Text} {body : Body}
    (h : (walk table version name path (sourceLines content)).result = .ok body)
    {file : FileRef} {site : List Nat} {target text : Text} (hsite : site ≠ [])
    (hat : expandedAt table file content site = some (.included target, text)) :
    target ∈ (walk table version name path (sourceLines content)).entered := by
  induction site generalizing name path content body file with
  | nil => exact absurd rfl hsite
  | cons number site ih =>
    rw [expandedAt] at hat
    obtain ⟨target', hdirective, hbelow⟩ := Option.bind_eq_some_iff.1 hat
    obtain ⟨text', hfind, hchildAt⟩ := Option.bind_eq_some_iff.1 hbelow
    obtain ⟨l, hl, -, hrole⟩ := exists_line_of_directiveAt? hdirective
    obtain ⟨hmem, child, hchild, hsub⟩ := entered_of_walk h hl hrole hfind
    -- the last directive of the site enters the name, and its walk is part of all walks above
    cases site with
    | nil =>
      cases hchildAt
      exact hmem
    | cons number' site => exact hsub target (ih hchild (by simp) hchildAt)

/-- After an assembly every file that was expanded has its id. -/
theorem hasId_of_expandedAt {language : Language} {mode : LineMode} {table : IncludeTable}
    {registry : Registry} {name text : Text} {a : Assembly}
    (h : (assemble language mode table registry name text).result = .ok a) {site : List Nat}
    {file : FileRef} {content : Text}
    (hat : expandedAt table .top text.trimEnd site = some (file, content)) :
    (assemble language mode table registry name text).registry.HasId file
      ((assemble language mode table registry name text).registry.idOf file) := by
  by_cases hsite : site = []
  · subst hsite
    cases hat
    exact .top
  · obtain ⟨body, hbody, -⟩ := assemble_eq_ok_iff.1 h
    obtain ⟨target, rfl⟩ := exists_eq_included hsite hat
    have hmem := entered_of_expandedAt hbody hsite hat
    exact Registry.hasId_of_mem (Registry.mem_insertAll_iff.2 (.inr hmem))

/-! ### The copies at a site -/

/-- The copies among `ps` that belong to a site: their numbers and their texts. -/
def copiesAt (site : List Nat) (ps : List PlacedLine) : List (Nat × Text) :=
  ps.filterMap fun p =>
    match p.line with
    | .copy _ number t => if p.site = site then some (number, t) else none
    | _ => none

/-- The lines that are neither the version that a file leads with nor include directives. -/
def bodyLines (ls : List SourceLine) : List SourceLine :=
  ls.filter fun l => l.leadVersion?.isNone && l.target?.isNone

/-- Lines and their copies, one by one and in order. White space at the end of the last may be
lost. -/
inductive CopiesOf : List SourceLine → List (Nat × Text) → Prop
  | nil : CopiesOf [] []
  | last {l : SourceLine} : CopiesOf [l] [(l.number, l.raw.trimEnd)]
  | cons {l : SourceLine} {ls : List SourceLine} {copies : List (Nat × Text)} :
      CopiesOf ls copies → CopiesOf (l :: ls) ((l.number, l.raw) :: copies)

theorem copiesAt_append (site : List Nat) (ps qs : List PlacedLine) :
    copiesAt site (ps ++ qs) = copiesAt site ps ++ copiesAt site qs :=
  List.filterMap_append

theorem copiesAt_eq_nil {site : List Nat} {ps : List PlacedLine}
    (h : ∀ p ∈ ps, p.site = site → ∀ file number t, p.line ≠ .copy file number t) :
    copiesAt site ps = [] := by
  rw [copiesAt, List.filterMap_eq_nil_iff]
  intro p hp
  split
  · next file number t hline =>
    rw [if_neg]
    exact fun hs => h p hp hs file number t hline
  · rfl

/-- A frame further down has no copies of its own at a site. -/
theorem copiesAt_of_not_isPrefix {site : List Nat} {ps : List PlacedLine}
    (h : ∀ p ∈ ps, ¬ site <+: p.site) : copiesAt site ps = [] := by
  apply copiesAt_eq_nil
  intro p hp hs
  exact absurd (hs.symm ▸ List.prefix_rfl) (h p hp)

theorem bodyLines_cons_of_directive {l : SourceLine} {ls : List SourceLine}
    (h : l.leadVersion?.isSome ∨ l.target?.isSome) : bodyLines (l :: ls) = bodyLines ls := by
  rw [bodyLines, List.filter_cons_of_neg, bodyLines]
  rcases h with h | h
  · simp [Option.isNone_eq_false_iff.2 h]
  · simp [Option.isNone_eq_false_iff.2 h]

theorem bodyLines_cons {l : SourceLine} {ls : List SourceLine} (hlead : l.leadVersion? = none)
    (htarget : l.target? = none) : bodyLines (l :: ls) = l :: bodyLines ls := by
  rw [bodyLines, List.filter_cons_of_pos (by simp [hlead, htarget]), bodyLines]

/-- What leads back from an include is not white space, so nothing before it is trimmed. -/
theorem trimPlaced_append_afterSplice (ps qs : List PlacedLine) (site : List Nat) (file : FileRef)
    (l : SourceLine) :
    trimPlaced (ps ++ (placeAt site (l.afterSplice .keep file) ++ qs)) =
      ps ++ (placeAt site (l.afterSplice .keep file) ++ trimPlaced qs) := by
  rw [SourceLine.afterSplice]
  split
  · have hseam := @trimPlaced_append_cons (ps ++ [⟨site, .marker l.number file⟩]) qs
      ⟨site, .seam false true⟩ rfl
    simpa [placeAt] using hseam
  · exact trimPlaced_append_cons rfl

variable {table : IncludeTable} {version : Text}

/-- A line that is no directive is copied, and a version declaration is not. -/
theorem copiesOf_output {l : SourceLine} (htarget : l.target? = none) (site : List Nat)
    (file : FileRef) {ls : List SourceLine} {copies : List (Nat × Text)} (h : CopiesOf ls copies) :
    CopiesOf (bodyLines [l] ++ ls)
      (copiesAt site (placeAt site (l.output .keep file)) ++ copies) := by
  rcases l.output_keep_cases file with ⟨he, -, -, hlead⟩ | ⟨he, hlead⟩ | ⟨he, hlead⟩
  · rw [he, bodyLines_cons_of_directive (.inl hlead)]
    exact h
  · have hcopy : copiesAt site [⟨site, .copy file l.number l.raw⟩] = [(l.number, l.raw)] := by
      simp [copiesAt]
    rw [he, bodyLines_cons hlead htarget, placeAt, List.map_singleton, hcopy]
    exact .cons h
  · rw [he, bodyLines_cons_of_directive (.inl hlead)]
    exact h

/-- At the end of a frame a line is trimmed. It is lost only if it is white space or a version. -/
theorem copiesOf_trimPlaced_output {l : SourceLine} (htarget : l.target? = none) (site : List Nat)
    (file : FileRef) :
    (trimPlaced (placeAt site (l.output .keep file)) = [] ∧
        (Text.Spaces l.raw ∨ l.leadVersion?.isSome)) ∨
      (trimPlaced (placeAt site (l.output .keep file)) ≠ [] ∧
        CopiesOf (bodyLines [l])
          (copiesAt site (trimPlaced (placeAt site (l.output .keep file))))) := by
  rcases l.output_keep_cases file with ⟨he, -, -, hlead⟩ | ⟨he, hlead⟩ | ⟨he, hlead⟩
  · exact .inl ⟨by rw [he]; rfl, .inr hlead⟩
  · have htrim : trimPlaced (placeAt site (l.output .keep file)) =
        (PlacedLine.trimEnd? ⟨site, .copy file l.number l.raw⟩).toList := by rw [he]; rfl
    rw [htrim]
    cases hp : PlacedLine.trimEnd? ⟨site, .copy file l.number l.raw⟩ with
    | none => exact .inl ⟨rfl, .inl (PlacedLine.spaces_of_trimEnd? hp fun _ => topLevelId)⟩
    | some q =>
      rcases PlacedLine.trimEnd?_eq_some hp with ⟨-, hne⟩ | ⟨_, _, _, hline, -, rfl⟩
      · exact absurd rfl (hne file l.number l.raw)
      · cases hline
        refine .inr ⟨by simp, ?_⟩
        have hcopy : copiesAt site [⟨site, .copy file l.number l.raw.trimEnd⟩] =
            [(l.number, l.raw.trimEnd)] := by simp [copiesAt]
        rw [bodyLines_cons hlead htarget, Option.toList_some, hcopy]
        exact .last
  · rw [he, bodyLines_cons_of_directive (.inl hlead)]
    have htrim : trimPlaced (placeAt site [.seam l.scan.closes l.scan.opens]) =
        (PlacedLine.trimEnd? ⟨site, .seam l.scan.closes l.scan.opens⟩).toList := rfl
    rw [htrim]
    cases hp : PlacedLine.trimEnd? ⟨site, .seam l.scan.closes l.scan.opens⟩ with
    | none => exact .inl ⟨rfl, .inr hlead⟩
    | some q =>
      rcases PlacedLine.trimEnd?_eq_some hp with ⟨rfl, -⟩ | ⟨_, _, _, hline, -, -⟩
      · exact .inr ⟨by simp, .nil⟩
      · cases hline

/-- What trimming leaves of a body are its lines up to some point, and only white space comes after
that point. -/
theorem Expands.exists_emitted {path : List Text} {ls : List SourceLine} {body : Body}
    (h : Expands table version path ls body) (site : List Nat) (file : FileRef)
    {more : List PlacedLine} (hmore : copiesAt site (trimPlaced more) = []) :
    ∃ emitted final, ls = emitted ++ final ∧
      (∀ l ∈ final, Text.Spaces l.raw ∨ l.leadVersion?.isSome) ∧
      (trimPlaced (body.placed .keep site file ++ more) = [] → emitted = []) ∧
      CopiesOf (bodyLines emitted)
        (copiesAt site (trimPlaced (body.placed .keep site file ++ more))) := by
  induction h with
  | nil =>
    refine ⟨[], [], rfl, by simp, fun _ => rfl, ?_⟩
    rw [Body.placed, List.nil_append, hmore]
    exact .nil
  | @keep path l rest body htarget _ _ ih =>
    obtain ⟨emitted, final, rfl, hfinal, hnil, hcopies⟩ := ih
    rw [Body.placed, List.append_assoc]
    by_cases hempty : trimPlaced (body.placed .keep site file ++ more) = []
    · -- only white space follows, so the line itself stands at the end
      rw [trimPlaced_append_of_eq_nil hempty]
      obtain rfl := hnil hempty
      rcases copiesOf_trimPlaced_output htarget site file with ⟨htrim, hl⟩ | ⟨htrim, hl⟩
      · refine ⟨[], l :: final, rfl, ?_, fun _ => rfl, by rw [htrim]; exact .nil⟩
        exact List.forall_mem_cons.2 ⟨hl, hfinal⟩
      · exact ⟨[l], final, rfl, hfinal, fun htrim' => absurd htrim' htrim, hl⟩
    · -- something stays behind the line, so the line stays as it is
      rw [trimPlaced_append_of_ne_nil hempty, copiesAt_append]
      refine ⟨l :: emitted, final, rfl, hfinal, ?_, ?_⟩
      · intro happend
        exact absurd (List.append_eq_nil_iff.1 happend).2 hempty
      · have hcons : bodyLines (l :: emitted) = bodyLines [l] ++ bodyLines emitted :=
          List.filter_append [l] emitted
        rw [hcons]
        exact copiesOf_output htarget site file hcopies
  | @splice path l rest target text child body hrole _ _ _ _ _ ih =>
    obtain ⟨emitted, final, rfl, hfinal, -, hcopies⟩ := ih
    have hbefore : copiesAt site (placeAt site (l.beforeSplice .keep)) = [] := by
      rw [SourceLine.beforeSplice]
      split
      · rfl
      · rfl
    have hframe : copiesAt site (placedFrame .keep (site ++ [l.number]) (.included target)
        child.lines (child.placed .keep (site ++ [l.number]) (.included target))) = [] := by
      apply copiesAt_eq_nil
      intro p hp hs
      exact absurd (Body.isPrefix_of_mem_frame p hp) (not_isPrefix_of_eq hs l.number)
    have hafter : copiesAt site (placeAt site (l.afterSplice .keep file)) = [] := by
      rw [SourceLine.afterSplice]
      split
      · rfl
      · rfl
    have htarget : l.target?.isSome := by rw [SourceLine.target?_eq_some_iff.2 hrole]; rfl
    rw [Body.placed, List.append_assoc, List.append_assoc, trimPlaced_append_afterSplice]
    refine ⟨l :: emitted, final, rfl, hfinal, ?_, ?_⟩
    · intro hnil
      have hne := (List.append_eq_nil_iff.1 (List.append_eq_nil_iff.1 hnil).1).2
      cases hne
    · rw [copiesAt_append, copiesAt_append, copiesAt_append, hbefore, hframe, hafter,
        bodyLines_cons_of_directive (.inr htarget)]
      exact hcopies

theorem copiesAt_closing (site : List Nat) (file : FileRef) (ls : List SourceLine) :
    copiesAt site (trimPlaced (placeAt site (closing .keep file ls))) = [] := by
  rw [closing]
  split
  · rfl
  · rfl

/-- At each site all lines of the file are copied, up to white space at its end. -/
theorem exists_emitted_of_expandedAt {language : Language} {registry : Registry} {name text : Text}
    {a : Assembly} (h : (assemble language .keep table registry name text).result = .ok a)
    {site : List Nat} {file : FileRef} {content : Text}
    (hat : expandedAt table .top text.trimEnd site = some (file, content)) :
    ∃ emitted final, sourceLines content = emitted ++ final ∧
      (∀ l ∈ final, Text.Spaces l.raw ∨ l.leadVersion?.isSome) ∧
      CopiesOf (bodyLines emitted) (copiesAt site (layout language .keep table name text)) := by
  obtain ⟨whole, hlayout, hframes⟩ := exists_layout_eq_cons h
  obtain ⟨path, body, hexp, pre, post, hwhole, hout⟩ := hframes site file content hat
  obtain ⟨emitted, final, hls, hfinal, -, hcopies⟩ :=
    hexp.exists_emitted site file (copiesAt_closing site file body.lines)
  refine ⟨emitted, final, hls, hfinal, ?_⟩
  have hpre := copiesAt_of_not_isPrefix fun p hp => hout p (List.mem_append_left post hp)
  have hpost := copiesAt_of_not_isPrefix fun p hp => hout p (List.mem_append_right pre hp)
  have hcons (p : PlacedLine) (ps : List PlacedLine)
      (hp : ∀ file number t, p.line ≠ .copy file number t) :
      copiesAt site (p :: ps) = copiesAt site ps := by
    have hnil : copiesAt site [p] = [] := by
      apply copiesAt_eq_nil
      intro q hq _
      rw [List.mem_singleton.1 hq]
      exact hp
    rw [← List.singleton_append, copiesAt_append, hnil, List.nil_append]
  rw [hlayout, hcons _ _ (by simp), hwhole, copiesAt_append, copiesAt_append, hpre, hpost,
    List.nil_append, List.append_nil, placedFrame, hcons _ _ (by simp)]
  exact hcopies

/-- **An assembly that keeps its lines tells where each of them comes from.** Unless a file has
line directives of its own, the markers attribute every copied line to its number and to the id of
its file. And wherever a file is expanded, its lines are copied once each and in order, except for
its directives and white space at its end. -/
theorem assemble_keep_provenance {language : Language} {table : IncludeTable} {registry : Registry}
    {name text : Text} {a : Assembly}
    (h : (assemble language .keep table registry name text).result = .ok a)
    (hfree : FreeOfMarkers table text.trimEnd) :
    let placed := layout language .keep table name text
    let out := a.source.splitOn Text.newline
    let ids := (assemble language .keep table registry name text).registry
    out = placed.map (PlacedLine.text ids.idOf) ∧
    (∀ i site file number t, placed[i]? = some ⟨site, .copy file number t⟩ →
      ∃ content k raw id, expandedAt table .top text.trimEnd site = some (file, content) ∧
        number = k + 1 ∧ (lines content)[k]? = some raw ∧ (t = raw ∨ t = raw.trimEnd) ∧
        ids.HasId file id ∧ attributed out i = some (number, id.toNat)) ∧
    (∀ site file content, expandedAt table .top text.trimEnd site = some (file, content) →
      ∃ emitted final, sourceLines content = emitted ++ final ∧
        (∀ l ∈ final, Text.Spaces l.raw ∨ l.leadVersion?.isSome) ∧
        CopiesOf (bodyLines emitted) (copiesAt site placed)) := by
  refine ⟨(lines_source h).1, ?_, fun site file content => exists_emitted_of_expandedAt h⟩
  intro i site file number t hp
  obtain ⟨l, hcopy, -⟩ := (passes_layout h).along.getElem? hp
  obtain ⟨content, hat, hl⟩ := hcopy.source
  obtain ⟨k, hk, hget⟩ := exists_index_of_mem hl
  exact ⟨content, k, l.raw, _, hat, hcopy.number_eq.symm.trans hk, (getElem?_sourceLines hget).2.1,
    hcopy.text_eq, hasId_of_expandedAt h hat, attributed_copy h hfree hp⟩

/-- A source that leads with a version, and an include that ends in blank lines. -/
theorem assemble_keep_provenance_include :
    let table := IncludeTable.ofList [(Text.ofString "b", Text.ofString "x\n\n")]
    let text := Text.ofString "#version 330\n#include \"b\"\ny"
    ∃ a, (assemble .openGL .keep table ∅ [] text).result = .ok a ∧
      (∀ i site file number t,
        (layout .openGL .keep table [] text)[i]? = some ⟨site, .copy file number t⟩ →
        ∃ id : FileId, attributed (a.source.splitOn Text.newline) i = some (number, id.toNat)) ∧
      ∃ emitted final, sourceLines (Text.ofString "x\n\n") = emitted ++ final ∧
        (∀ l ∈ final, Text.Spaces l.raw ∨ l.leadVersion?.isSome) ∧
        CopiesOf (bodyLines emitted) (copiesAt [2] (layout .openGL .keep table [] text)) := by
  intro table text
  have hfree : FreeOfMarkers table text.trimEnd := freeOfMarkers_of_entries (by decide +kernel)
  obtain ⟨a, ha⟩ : ∃ a, (assemble .openGL .keep table ∅ [] text).result = .ok a :=
    exists_assemble_of_leaves (by decide +kernel)
  obtain ⟨-, hcopies, hfiles⟩ := assemble_keep_provenance ha hfree
  refine ⟨a, ha, ?_, ?_⟩
  · intro i site file number t hp
    obtain ⟨-, -, -, id, -, -, -, -, -, hid⟩ := hcopies i site file number t hp
    exact ⟨id, hid⟩
  · exact hfiles [2] (.included (Text.ofString "b")) (Text.ofString "x\n\n") (by decide +kernel)

end ShaderSplice
