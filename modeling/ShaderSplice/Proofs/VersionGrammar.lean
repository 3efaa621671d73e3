import ShaderSplice.Optimizer
import ShaderSplice.Proofs.NormalForm

/-!
# The grammar of version directives

A version directive is a number and perhaps a profile, between white space of any kind:

    blanks  #  blanks  version  blanks  [ space ]  number  [ space  profile  [ space  more ] ]

What it declares is spelled in one way (`versionText`), with a single space before the profile and
without what follows. The spelling is canonical: as a version directive it declares itself. So the
version that opens an assembly can be read off its first line, and two spellings of a number with
different profiles are different versions, but the same to an optimizer.
-/

namespace ShaderSplice

/-- `code` is a version directive for the number and the profile. The second field is a profile or
not looked at. -/
inductive VersionLine (code number : Text) : (profile? : Option Text) → Prop
  | mk {body : Text} {more : List Text} :
      DirectiveLine (Text.ofString "version") body code → Text.HasFields body (number :: more) →
      (∀ b ∈ number, isDigitByte b = true) →
      VersionLine code number (more.head?.filter (· ∈ profiles))

/-! ### What is read as a version -/

/-- What is read as a version directive is what the grammar says. -/
theorem declaredVersion?_eq_some_iff {code v : Text} :
    declaredVersion? code = some v ↔
      ∃ number profile?, VersionLine code number profile? ∧ v = versionText number profile? := by
  constructor
  · intro h
    obtain ⟨d, hd, hv⟩ := Option.bind_eq_some_iff.1 h
    obtain ⟨hname, hspaced, number, more, hfields, hdigits, rfl⟩ :=
      Directive.version?_eq_some_iff.1 hv
    obtain ⟨body, hline, harg⟩ := Directive.exists_directiveLine hd hspaced
    rw [hname] at hline
    rw [harg, Text.fields_dropEndWhile_isBlankByte, Text.fields_eq_iff] at hfields
    exact ⟨number, _, .mk hline hfields hdigits, rfl⟩
  · rintro ⟨number, profile?, hversion, rfl⟩
    cases hversion with
    | @mk body more hline hfields hdigits =>
      obtain ⟨d, hd, hname, hspaced, harg⟩ := hline.exists_parse? (by decide) (by decide)
      rw [declaredVersion?, hd, Option.bind_some, Directive.version?_eq_some_iff]
      refine ⟨hname, hspaced, number, more, ?_, hdigits, rfl⟩
      rw [harg, Text.fields_dropEndWhile_isBlankByte, Text.fields_dropWhile_isBlankByte,
        hfields.fields_eq]

/-! ### The spelling of a version -/

/-- The number of a version is what is written before the profile. -/
theorem versionNumber_versionText {number : Text} (hdigits : ∀ b ∈ number, isDigitByte b = true)
    (profile? : Option Text) : versionNumber (versionText number profile?) = number := by
  have hspace : ∀ b ∈ number, decide (b ≠ Text.space) = true := by
    intro b hb
    apply decide_eq_true
    rintro rfl
    exact absurd (hdigits _ hb) (by decide)
  cases profile? with
  | none =>
    have htake := takeWhile_append_of_head (t := []) hspace (by simp)
    rwa [List.append_nil] at htake
  | some profile => exact takeWhile_append_of_head hspace (by simp)

/-- The version line of an assembly is its first, and it declares the version. -/
theorem head?_splitOn_source {language : Language} {mode : LineMode} {table : IncludeTable}
    {registry : Registry} {name text : Text} {a : Assembly}
    (h : (assemble language mode table registry name text).result = .ok a) :
    (a.source.splitOn Text.newline).head? = some (Text.ofString "#version " ++ a.version) ∧
      declaredVersion? (Text.ofString "#version " ++ a.version) = some a.version := by
  obtain ⟨body, -, hlayout, hversion, -⟩ := exists_expands_of_assemble h
  have hspelling := versionSpelling_treeVersion language text
  rw [← hversion] at hlayout hspelling
  constructor
  · rw [(lines_source h).1, hlayout]
    rfl
  · exact declaredVersion?_version hspelling
      (assemble language mode table registry name text).registry.idOf

/-- **The grammar of version directives and the spelling of versions.** Code is read as a version
directive exactly if it is written as one, and then it declares the spelling of its number and
profile. The spelling declares itself, its number is the number that was written, and an optimizer
goes by the number alone. In either mode the first line of an assembly declares its version. -/
theorem declaredVersion?_grammar :
    (∀ code v, declaredVersion? code = some v ↔
      ∃ number profile?, VersionLine code number profile? ∧ v = versionText number profile?) ∧
    (∀ code number profile?, VersionLine code number profile? →
      declaredVersion? (Text.ofString "#version " ++ versionText number profile?) =
        some (versionText number profile?) ∧
      versionNumber (versionText number profile?) = number ∧
      ∀ language allowUntested,
        checkVersion language (versionText number profile?) allowUntested = .ok () ↔
          allowUntested = true ∨ number ∈ testedVersions language) ∧
    (∀ language mode table registry name text a,
      (assemble language mode table registry name text).result = .ok a →
      (a.source.splitOn Text.newline).head? = some (Text.ofString "#version " ++ a.version) ∧
      declaredVersion? (Text.ofString "#version " ++ a.version) = some a.version) := by
  refine ⟨fun code v => declaredVersion?_eq_some_iff, ?_, ?_⟩
  · intro code number profile? hline
    have hread := declaredVersion?_eq_some_iff.2 ⟨number, profile?, hline, rfl⟩
    have hspelling := versionSpelling_of_declaredVersion? hread
    have hnumber : versionNumber (versionText number profile?) = number := by
      cases hline with
      | mk _ _ hdigits => exact versionNumber_versionText hdigits _
    refine ⟨declaredVersion?_version hspelling (fun _ => 0), hnumber, ?_⟩
    intro language allowUntested
    rw [checkVersion, hnumber]
    split
    · next hallowed => simpa using hallowed
    · next hrefused => simpa using hrefused
  · intro language mode table registry name text a h
    exact head?_splitOn_source h

end ShaderSplice
