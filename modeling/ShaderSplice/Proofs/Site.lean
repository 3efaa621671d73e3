import ShaderSplice.Proofs.Layout

/-!
# The frame at a site

Every file that is expanded below a source has one frame in the layout of its assembly. The frame
stands there in one piece and as the file itself gives rise to it, however deep the site lies:

    layout = pre ++ placedFrame .keep site file … ++ post

and no line of `pre` and `post` belongs to the site or to a site below it (`Expands.exists_frame`).
The frames around it are trimmed, but the marker that leads back from an include protects what
stands before it, so trimming never reaches the inner frame.
-/

namespace ShaderSplice

/-! ### The sites of a body -/

theorem site_of_mem_placeAt {site : List Nat} {ls : List OutputLine} {p : PlacedLine}
    (h : p ∈ placeAt site ls) : p.site = site := by
  obtain ⟨o, -, rfl⟩ := List.mem_map.1 h
  rfl

theorem isPrefix_of_mem_trimPlaced {site : List Nat} {ps : List PlacedLine}
    (h : ∀ p ∈ ps, site <+: p.site) : ∀ q ∈ trimPlaced ps, site <+: q.site := by
  intro q hq
  obtain ⟨p, hp, rfl | hpq⟩ := mem_trimPlaced hq
  · exact h q hp
  · rw [PlacedLine.site_of_trimEnd? hpq]
    exact h p hp

theorem isPrefix_of_mem_placedFrame {mode : LineMode} {site : List Nat} {file : FileRef}
    {ls : List SourceLine} {inner : List PlacedLine} (h : ∀ p ∈ inner, site <+: p.site) :
    ∀ q ∈ placedFrame mode site file ls inner, site <+: q.site := by
  intro q hq
  rcases List.mem_cons.1 hq with rfl | hq
  · exact List.prefix_rfl
  · refine isPrefix_of_mem_trimPlaced ?_ q hq
    intro p hp
    rcases List.mem_append.1 hp with hp | hp
    · exact h p hp
    · exact (site_of_mem_placeAt hp).symm ▸ List.prefix_rfl

/-- A line of a body belongs to the body's site, or to a site below one of its directives. -/
theorem Body.site_of_mem_placed {mode : LineMode} {site : List Nat} {file : FileRef} {body : Body}
    {p : PlacedLine} (h : p ∈ body.placed mode site file) :
    p.site = site ∨ ∃ l ∈ body.lines, site ++ [l.number] <+: p.site := by
  induction body generalizing site file p with
  | nil => simp [Body.placed] at h
  | keep l rest ih =>
    rcases List.mem_append.1 h with h | h
    · exact .inl (site_of_mem_placeAt h)
    · rcases ih h with hp | ⟨l', hl', hp⟩
      · exact .inl hp
      · exact .inr ⟨l', List.mem_cons_of_mem _ hl', hp⟩
  | splice l target child rest ihchild ih =>
    simp only [Body.placed, List.mem_append] at h
    rcases h with ((h | h) | h) | h
    · exact .inl (site_of_mem_placeAt h)
    · refine .inr ⟨l, List.mem_cons_self, isPrefix_of_mem_placedFrame ?_ p h⟩
      intro q hq
      rcases ihchild hq with hs | ⟨l', -, hs⟩
      · exact hs.symm ▸ List.prefix_rfl
      · exact (List.prefix_append _ _).trans hs
    · exact .inl (site_of_mem_placeAt h)
    · rcases ih h with hp | ⟨l', hl', hp⟩
      · exact .inl hp
      · exact .inr ⟨l', List.mem_cons_of_mem _ hl', hp⟩

/-- All lines of a frame belong to its site or to a site below it. -/
theorem Body.isPrefix_of_mem_frame {mode : LineMode} {site : List Nat} {file : FileRef}
    {ls : List SourceLine} {body : Body} :
    ∀ p ∈ placedFrame mode site file ls (body.placed mode site file), site <+: p.site := by
  apply isPrefix_of_mem_placedFrame
  intro p hp
  rcases Body.site_of_mem_placed hp with hs | ⟨l, -, hs⟩
  · exact hs.symm ▸ List.prefix_rfl
  · exact (List.prefix_append _ _).trans hs

theorem not_isPrefix_of_eq {site s : List Nat} (h : s = site) (n : Nat) : ¬ site ++ [n] <+: s := by
  intro hn
  have hlen := hn.length_le
  rw [h, List.length_append, List.length_singleton] at hlen
  omega

theorem not_isPrefix_of_ne {site s : List Nat} {m n : Nat} (h : site ++ [m] <+: s) (hne : m ≠ n) :
    ¬ site ++ [n] <+: s := by
  intro hn
  have hpre := List.prefix_of_prefix_length_le h hn (by simp)
  rw [List.prefix_append_right_inj] at hpre
  exact hne (List.singleton_prefix_cons_iff.1 hpre)

/-! ### Parts in one piece -/

/-- Lines `whole` in which the lines `part` stand in one piece, and nothing else belongs to `site`
or to a site below it. -/
def StandsIn (site : List Nat) (part whole : List PlacedLine) : Prop :=
  ∃ pre post, whole = pre ++ part ++ post ∧ ∀ p ∈ pre ++ post, ¬ site <+: p.site

/-- The part is followed by a line `m` that trimming does not touch. -/
def Enclosed (site : List Nat) (part whole : List PlacedLine) : Prop :=
  ∃ pre m post, whole = pre ++ part ++ m :: post ∧ m.trimEnd? = some m ∧
    ∀ p ∈ pre ++ m :: post, ¬ site <+: p.site

section
variable {site : List Nat} {part whole : List PlacedLine}

theorem StandsIn.cons {p : PlacedLine} (h : StandsIn site part whole) (hp : ¬ site <+: p.site) :
    StandsIn site part (p :: whole) := by
  obtain ⟨pre, post, rfl, hout⟩ := h
  refine ⟨p :: pre, post, rfl, ?_⟩
  intro q hq
  rcases List.mem_cons.1 hq with rfl | hq
  · exact hp
  · exact hout q hq

theorem StandsIn.trans {site' : List Nat} {part' : List PlacedLine}
    (h : StandsIn site' part' part) (h' : StandsIn site part whole) (hbelow : site <+: site') :
    StandsIn site' part' whole := by
  obtain ⟨pre, post, rfl, hout⟩ := h
  obtain ⟨pre', post', rfl, hout'⟩ := h'
  refine ⟨pre' ++ pre, post ++ post', by simp only [List.append_assoc], ?_⟩
  intro p hp
  simp only [List.mem_append] at hp hout hout'
  rcases hp with (hp | hp) | hp | hp
  · exact fun hs => hout' p (.inl hp) (hbelow.trans hs)
  · exact hout p (.inl hp)
  · exact hout p (.inr hp)
  · exact fun hs => hout' p (.inr hp) (hbelow.trans hs)

theorem Enclosed.prepend {ps : List PlacedLine} (h : Enclosed site part whole)
    (hps : ∀ p ∈ ps, ¬ site <+: p.site) : Enclosed site part (ps ++ whole) := by
  obtain ⟨pre, m, post, rfl, hm, hout⟩ := h
  refine ⟨ps ++ pre, m, post, by simp only [List.append_assoc], hm, ?_⟩
  intro p hp
  rw [List.append_assoc] at hp
  rcases List.mem_append.1 hp with hp | hp
  · exact hps p hp
  · exact hout p hp

/-- Trimming does not reach a part that is enclosed. -/
theorem Enclosed.trimPlaced {more : List PlacedLine} (h : Enclosed site part whole)
    (hmore : ∀ p ∈ more, ¬ site <+: p.site) : StandsIn site part (trimPlaced (whole ++ more)) := by
  obtain ⟨pre, m, post, rfl, hm, hout⟩ := h
  refine ⟨pre, m :: ShaderSplice.trimPlaced (post ++ more), ?_, ?_⟩
  · rw [List.append_assoc, List.cons_append, trimPlaced_append_cons hm]
  · intro q hq
    rw [List.mem_append, List.mem_cons] at hq
    rcases hq with hq | rfl | hq
    · exact hout q (List.mem_append_left _ hq)
    · exact hout q (by simp)
    · have hsite : ∀ p ∈ post ++ more, ¬ site <+: p.site := by
        intro p hp
        rcases List.mem_append.1 hp with hp | hp
        · exact hout p (by simp [hp])
        · exact hmore p hp
      obtain ⟨p, hp, rfl | hpq⟩ := mem_trimPlaced hq
      · exact hsite q hp
      · rw [PlacedLine.site_of_trimEnd? hpq]
        exact hsite p hp

end

/-! ### The frame of an include directive -/

/-- A marker leads back from an include, in front of all else that is written after it. -/
theorem SourceLine.exists_afterSplice (l : SourceLine) (file : FileRef) :
    ∃ number more, l.afterSplice .keep file = .marker number file :: more := by
  rw [afterSplice]
  split
  · exact ⟨_, _, rfl⟩
  · exact ⟨_, _, rfl⟩

theorem not_isPrefix_of_mem_placeAt {site : List Nat} {ls : List OutputLine} (n : Nat) :
    ∀ p ∈ placeAt site ls, ¬ site ++ [n] <+: p.site :=
  fun _ hp => not_isPrefix_of_eq (site_of_mem_placeAt hp) n

variable {table : IncludeTable} {version : Text}

/-- An include directive has a frame, which is enclosed in what is written for its file. -/
theorem Expands.exists_child {path : List Text} {ls : List SourceLine} {body : Body}
    (h : Expands table version path ls body) {index : Nat} {inBlock : Bool}
    (hplace : InPlace index inBlock ls) {l : SourceLine} (hl : l ∈ ls) {target : Text}
    (hrole : l.role = .splice target) (site : List Nat) (file : FileRef) :
    ∃ content child, table.find? target = some content ∧
      Expands table version (path ++ [target]) (sourceLines content) child ∧
      Enclosed (site ++ [l.number])
        (placedFrame .keep (site ++ [l.number]) (.included target) child.lines
          (child.placed .keep (site ++ [l.number]) (.included target)))
        (body.placed .keep site file) := by
  induction h generalizing index inBlock with
  | nil => simp at hl
  | @keep path l' rest body htarget _ _ ih =>
    cases hplace with
    | cons _ _ _ _ hrest =>
      have hl : l ∈ rest := by
        rcases List.mem_cons.1 hl with rfl | hl
        · rw [SourceLine.target?_eq_some_iff.2 hrole] at htarget
          cases htarget
        · exact hl
      obtain ⟨content, child, hfind, hchild, hframe⟩ := ih hrest hl
      exact ⟨content, child, hfind, hchild, hframe.prepend (not_isPrefix_of_mem_placeAt l.number)⟩
  | @splice path l' rest target' text child' body hrole' hfind' _ hchild' hbody _ ih =>
    cases hplace with
    | cons hnumber _ _ _ hrest =>
      rcases List.mem_cons.1 hl with rfl | hl
      · -- the directive itself: what follows comes from lines with greater numbers
        rw [hrole] at hrole'
        cases hrole'
        obtain ⟨number, more, hafter⟩ := l.exists_afterSplice file
        refine ⟨text, child', hfind', hchild', placeAt site (l.beforeSplice .keep),
          ⟨site, .marker number file⟩, placeAt site more ++ body.placed .keep site file,
          ?_, rfl, ?_⟩
        · rw [Body.placed, hafter]
          simp [placeAt]
        · intro p hp
          rw [List.mem_append, List.mem_cons, List.mem_append] at hp
          rcases hp with hp | rfl | hp | hp
          · exact not_isPrefix_of_mem_placeAt _ p hp
          · exact not_isPrefix_of_eq rfl _
          · exact not_isPrefix_of_mem_placeAt _ p hp
          · rcases Body.site_of_mem_placed hp with hs | ⟨k, hk, hs⟩
            · exact not_isPrefix_of_eq hs _
            · rw [hbody.lines_eq] at hk
              have hlt := hrest.lt_number k hk
              exact not_isPrefix_of_ne hs (by omega)
      · obtain ⟨content, child, hfind, hchild, hframe⟩ := ih hrest hl
        refine ⟨content, child, hfind, hchild, hframe.prepend ?_⟩
        have hlt := hrest.lt_number l hl
        intro p hp
        rw [List.mem_append, List.mem_append] at hp
        rcases hp with (hp | hp) | hp
        · exact not_isPrefix_of_mem_placeAt _ p hp
        · exact not_isPrefix_of_ne (Body.isPrefix_of_mem_frame p hp) (by omega)
        · exact not_isPrefix_of_mem_placeAt _ p hp

/-! ### The frame of any site -/

/-- **The frame of a file stands in the frame of every file above it.** -/
theorem Expands.exists_frame {path : List Text} {content : Text} {body : Body}
    (h : Expands table version path (sourceLines content) body) (base : List Nat) {site : List Nat}
    {file file' : FileRef} {content' : Text}
    (hat : expandedAt table file content site = some (file', content')) :
    ∃ path' body', Expands table version path' (sourceLines content') body' ∧
      StandsIn (base ++ site)
        (placedFrame .keep (base ++ site) file' body'.lines
          (body'.placed .keep (base ++ site) file'))
        (placedFrame .keep base file body.lines (body.placed .keep base file)) := by
  induction site generalizing path content body base file with
  | nil =>
    cases hat
    refine ⟨path, body, h, [], [], ?_, by simp⟩
    simp
  | cons number site ih =>
    rw [expandedAt] at hat
    obtain ⟨target, hdirective, hbelow⟩ := Option.bind_eq_some_iff.1 hat
    obtain ⟨text, hfind, hchildAt⟩ := Option.bind_eq_some_iff.1 hbelow
    obtain ⟨l, hl, rfl, hrole⟩ := exists_line_of_directiveAt? hdirective
    obtain ⟨text', child, hfind', hchild, henclosed⟩ :=
      h.exists_child (inPlace_sourceLines content) hl hrole base file
    rw [hfind] at hfind'
    cases hfind'
    -- the frame of the directive stands in this frame, and by induction the wanted one in it
    have houter : StandsIn (base ++ [l.number]) _
        (placedFrame .keep base file body.lines (body.placed .keep base file)) :=
      (henclosed.trimPlaced (not_isPrefix_of_mem_placeAt l.number)).cons (not_isPrefix_of_eq rfl _)
    obtain ⟨path', body', hbody', hinner⟩ := ih hchild (base ++ [l.number]) hchildAt
    have hbase : base ++ [l.number] ++ site = base ++ l.number :: site := by simp
    rw [hbase] at hinner
    exact ⟨path', body', hbody', hinner.trans houter ⟨site, hbase⟩⟩

/-- The layout of an assembly is its version and the frame of the source, in which the frame of
every file that is expanded below the source stands. -/
theorem exists_layout_eq_cons {language : Language} {registry : Registry} {name text : Text}
    {a : Assembly} (h : (assemble language .keep table registry name text).result = .ok a) :
    ∃ whole, layout language .keep table name text =
        ⟨[], .version (treeVersion language (topLines text))⟩ :: whole ∧
      ∀ site file content, expandedAt table .top text.trimEnd site = some (file, content) →
        ∃ path body,
          Expands table (treeVersion language (topLines text)) path (sourceLines content) body ∧
          StandsIn site
            (placedFrame .keep site file body.lines (body.placed .keep site file)) whole := by
  obtain ⟨body, hexp, hlayout, -, -⟩ := exists_expands_of_assemble h
  refine ⟨_, hlayout, ?_⟩
  intro site file content hat
  exact hexp.exists_frame [] hat

end ShaderSplice
