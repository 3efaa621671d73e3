import ShaderSplice.Proofs.IncludeGraph

/-!
# The growth of a registry

A registry changes in one way: names join at its end. Which names join, and in which order, can be
read off the names that are resolved (`Registry.names_insertAll`):

    names after  =  names before  ++  first occurrences of the names that were not there

So the names before are the beginning of the names after, and whatever an id stood for it still
stands for. An assembly only resolves names, therefore the same holds of any number of assemblies
one after the other (`Registry.after`).
-/

namespace ShaderSplice

namespace Registry

/-! ### Names that join -/

theorem names_insert (r : Registry) (name : Text) :
    (r.insert name).names = if name ∈ r.names then r.names else r.names ++ [name] := by
  rw [insert]
  split
  · rfl
  · rfl

theorem mem_insert_self (r : Registry) (name : Text) : name ∈ (r.insert name).names := by
  rw [names_insert]
  split
  · assumption
  · simp

/-- The names that join when `names` are resolved one after the other. -/
def fresh (r : Registry) (names : List Text) : List Text :=
  (names.filter fun n => n ∉ r.names).eraseDups

theorem names_insertAll (r : Registry) (names : List Text) :
    (r.insertAll names).names = r.names ++ r.fresh names := by
  induction names generalizing r with
  | nil => simp [insertAll, fresh]
  | cons n names ih =>
    have hstep : (r.insertAll (n :: names)).names = ((r.insert n).insertAll names).names := rfl
    rw [hstep, ih, names_insert]
    by_cases hn : n ∈ r.names
    · -- a name that is there stays where it is
      simp [fresh, names_insert, hn]
    · have hrest : (r.insert n).fresh names =
          ((names.filter fun m => m ∉ r.names).filter fun m => !m == n).eraseDups := by
        rw [fresh, names_insert, if_neg hn, List.filter_filter]
        congr 1
        apply List.filter_congr
        intro m _
        by_cases hm : m ∈ r.names <;> by_cases hmn : m = n <;> simp [hm, hmn]
      rw [if_neg hn, hrest, fresh, List.filter_cons_of_pos (by simpa using hn),
        List.eraseDups_cons, List.append_assoc, List.singleton_append]

theorem nodup_fresh (r : Registry) (names : List Text) : (r.fresh names).Nodup := by
  have h := (r.insertAll names).nodup
  rw [names_insertAll] at h
  exact (List.nodup_append.1 h).2.1

theorem mem_fresh_iff {r : Registry} {names : List Text} {name : Text} :
    name ∈ r.fresh names ↔ name ∈ names ∧ name ∉ r.names := by
  simp [fresh, List.mem_filter]

theorem mem_insertAll_iff {r : Registry} {names : List Text} {name : Text} :
    name ∈ (r.insertAll names).names ↔ name ∈ r.names ∨ name ∈ names := by
  rw [names_insertAll, List.mem_append, mem_fresh_iff]
  by_cases h : name ∈ r.names <;> simp [h]

theorem insertAll_append (r : Registry) (names names' : List Text) :
    r.insertAll (names ++ names') = (r.insertAll names).insertAll names' :=
  List.foldl_append

/-- A name that comes again does not join. -/
theorem fresh_append_of_subset {r : Registry} {names again : List Text}
    (h : ∀ n ∈ again, n ∈ names) : r.fresh (names ++ again) = r.fresh names := by
  have hnone : (r.insertAll names).fresh again = [] := by
    rw [List.eq_nil_iff_forall_not_mem]
    intro n hn
    obtain ⟨hmem, hnot⟩ := mem_fresh_iff.1 hn
    exact hnot (mem_insertAll_iff.2 (.inr (h n hmem)))
  have hnames := congrArg Registry.names (r.insertAll_append names again)
  rw [names_insertAll, names_insertAll, names_insertAll, hnone, List.append_nil] at hnames
  exact List.append_cancel_left hnames

/-! ### Ids that stay -/

theorem isPrefix_insertAll (r : Registry) (names : List Text) :
    r.names <+: (r.insertAll names).names := by
  rw [names_insertAll]
  exact List.prefix_append _ _

section
variable {r r' : Registry} (h : r.names <+: r'.names)
include h

/-- A name keeps its id. -/
theorem find?_of_isPrefix {name : Text} {id : FileId} (hid : r.find? name = some id) :
    r'.find? name = some id := by
  obtain ⟨i, hi, rfl⟩ := Option.map_eq_some_iff.1 hid
  obtain ⟨more, hmore⟩ := h
  rw [find?, ← hmore, List.idxOf?, List.findIdx?_append, ← List.idxOf?, hi]
  rfl

/-- An id keeps its name. -/
theorem name?_of_isPrefix {name : Text} {id : FileId} (hname : r.name? id = some name) :
    r'.name? id = some name := by
  rw [name?] at hname ⊢
  split at hname
  · cases hname
  · next hid =>
    obtain ⟨hlt, hget⟩ := List.getElem?_eq_some_iff.1 hname
    rw [if_neg hid, List.prefix_iff_getElem?.1 h _ hlt, hget]

end

/-- As long as there are ids, each name has one of its own: looking up names and looking up ids
undo each other. -/
theorem find?_eq_some_iff_name? {r : Registry} (h : r.size < UInt32.size) {name : Text}
    {id : FileId} : r.find? name = some id ↔ r.name? id = some name := by
  constructor
  · intro hid
    obtain ⟨i, hi, rfl⟩ := Option.map_eq_some_iff.1 hid
    obtain ⟨hlt, hget, -⟩ := List.idxOf?_eq_some_iff.1 hi
    have hlt' : i + 1 < UInt32.size := Nat.lt_of_le_of_lt hlt h
    have hnat : (UInt32.ofNat (i + 1)).toNat = i + 1 := UInt32.toNat_ofNat_of_lt' hlt'
    have hne : UInt32.ofNat (i + 1) ≠ topLevelId := by
      intro htop
      rw [htop] at hnat
      cases hnat
    rw [name?, if_neg hne, hnat, Nat.add_sub_cancel, List.getElem?_eq_getElem hlt, hget]
  · intro hname
    rw [name?] at hname
    split at hname
    · cases hname
    · next hid =>
      obtain ⟨hlt, hget⟩ := List.getElem?_eq_some_iff.1 hname
      have hindex : r.names.idxOf? name = some (id.toNat - 1) := by
        refine List.idxOf?_eq_some_iff.2 ⟨hlt, hget, ?_⟩
        intro j hj heq
        exact List.pairwise_iff_getElem.1 r.nodup j _ (by omega) hlt hj (heq.trans hget.symm)
      have hpos : id.toNat ≠ 0 := by
        intro hzero
        exact hid (UInt32.toNat_inj.1 hzero)
      rw [find?, hindex, Option.map_some, Nat.sub_add_cancel (Nat.pos_of_ne_zero hpos),
        UInt32.ofNat_toNat]

theorem exists_find? {r : Registry} {name : Text} (h : name ∈ r.names) :
    ∃ id, r.find? name = some id := by
  have hsome : (r.names.idxOf? name).isSome := by simpa using h
  obtain ⟨i, hi⟩ := Option.isSome_iff_exists.1 hsome
  exact ⟨_, by rw [find?, hi, Option.map_some]⟩

/-- A name that is resolved is found under its id. -/
theorem find?_resolve (r : Registry) (name : Text) :
    (r.resolve name).2.find? name = some (r.resolve name).1 := by
  obtain ⟨id, hid⟩ := exists_find? (r.mem_insert_self name)
  rw [resolve, hid, Option.getD_some]

/-- `id` is the id of `file`: a registered one for an include, and zero for the source. -/
inductive HasId (r : Registry) : FileRef → FileId → Prop
  | top : r.HasId .top 0
  | included {name : Text} {id : FileId} : r.find? name = some id → r.HasId (.included name) id

theorem HasId.idOf_eq {r : Registry} {file : FileRef} {id : FileId} (h : r.HasId file id) :
    r.idOf file = id := by
  cases h with
  | top => rfl
  | included hfind => rw [idOf, hfind, Option.getD_some]

theorem hasId_of_mem {r : Registry} {name : Text} (h : name ∈ r.names) :
    r.HasId (.included name) (r.idOf (.included name)) := by
  obtain ⟨id, hid⟩ := exists_find? h
  have hhas : r.HasId (.included name) id := .included hid
  rwa [hhas.idOf_eq]

theorem HasId.of_isPrefix {r r' : Registry} (hpre : r.names <+: r'.names) {file : FileRef}
    {id : FileId} (h : r.HasId file id) : r'.HasId file id := by
  cases h with
  | top => exact .top
  | included hfind => exact .included (find?_of_isPrefix hpre hfind)

/-- The id that a name gets when it is resolved is its id in whatever grows out of the registry. -/
theorem hasId_resolve {r r' : Registry} {name : Text} (hpre : (r.insert name).names <+: r'.names) :
    r'.HasId (.included name) (r.resolve name).1 := by
  have hid : (r.insert name).HasId (.included name) (r.resolve name).1 :=
    .included (r.find?_resolve name)
  exact hid.of_isPrefix hpre

/-- The id that a name gets when it is resolved is its id ever after, whatever is resolved later. -/
theorem resolve_eq_idOf (r : Registry) (before : List Text) (name : Text) (after : List Text) :
    ((r.insertAll before).resolve name).1 =
      (r.insertAll (before ++ name :: after)).idOf (.included name) := by
  have hlater : r.insertAll (before ++ name :: after) =
      ((r.insertAll before).insert name).insertAll after :=
    r.insertAll_append before (name :: after)
  rw [hlater, (hasId_resolve (isPrefix_insertAll _ after)).idOf_eq]

end Registry

/-! ### The names that a walk enters -/

/-- The names that a walk enters. -/
def Walk.entered (w : Walk) : List Text := w.events.filterMap Event.entered?

namespace Walk

@[simp] theorem entered_keep (l : SourceLine) (next : Walk) :
    (keep l next).entered = next.entered := rfl

@[simp] theorem entered_abandon (source : Text) (l : SourceLine) (target : Text) (child : Walk)
    (f : Failure) :
    (abandon source l target child.events f).entered = target :: child.entered := rfl

@[simp] theorem entered_resume (source : Text) (l : SourceLine) (target : Text) (child : Walk)
    (body : Body) (next : Walk) :
    (resume source l target child.events body next).entered =
      target :: child.entered ++ next.entered := by
  -- what an include leaves open is an event, and enters nothing
  have hleft : (if endsOpen body.lines then [Event.unclosed target] else []).filterMap
      Event.entered? = [] := by
    split
    · rfl
    · rfl
  rw [entered, resume, List.filterMap_append, List.filterMap_append, hleft, List.append_nil]
  rfl

end Walk

/-- An assembly registers what its walk enters. -/
theorem registry_assemble (language : Language) (mode : LineMode) (table : IncludeTable)
    (registry : Registry) (name text : Text) :
    (assemble language mode table registry name text).registry =
      registry.insertAll (walkTop language table name text).entered := rfl

section
variable {table : IncludeTable} {version : Text}

/-- The names that are spliced into a body, in the order in which a walk enters them. -/
def Body.spliced : Body → List Text
  | .nil => []
  | .keep _ rest => rest.spliced
  | .splice _ target child rest => target :: child.spliced ++ rest.spliced

theorem Expands.entered_eq {path : List Text} {ls : List SourceLine} {body : Body}
    (h : Expands table version path ls body) (source : Text) :
    (walk table version source path ls).entered = body.spliced := by
  induction h generalizing source with
  | nil =>
    rw [walk]
    rfl
  | keep htarget hlead _ ih =>
    rw [walk_cons_of_keep htarget hlead, Walk.entered_keep, ih, Body.spliced]
  | splice hrole hfind hpath hchild _ ihchild ih =>
    rw [walk_cons_of_splice hrole hfind hpath (hchild.walk_eq_ok _), Walk.entered_resume, ihchild,
      ih, Body.spliced]

/-- What is spliced are include targets, which are printable. -/
theorem Expands.printable_of_mem_spliced {path : List Text} {ls : List SourceLine} {body : Body}
    (h : Expands table version path ls body)
    (hls : ∀ l ∈ ls, ∃ started, HasRole started l.scan l.role) :
    ∀ n ∈ body.spliced, ∀ b ∈ n, isPrintableByte b = true := by
  induction h with
  | nil => intro n hn; cases hn
  | keep _ _ _ ih => exact ih fun l' hl' => hls l' (List.mem_cons_of_mem _ hl')
  | @splice path l rest target text child body hrole _ _ _ _ ihchild ih =>
    obtain ⟨started, hhas⟩ := hls l List.mem_cons_self
    have htarget := hhas.target_eq
    rw [SourceLine.target?, hrole] at htarget
    intro n hn
    rw [Body.spliced] at hn
    rcases List.mem_append.1 hn with hn | hn
    · rcases List.mem_cons.1 hn with rfl | hn
      · exact printable_of_includeTarget? htarget.symm
      · exact ihchild (fun l' hl' => hasRole_of_mem hl') n hn
    · exact ih (fun l' hl' => hls l' (List.mem_cons_of_mem _ hl')) n hn

/-- What is assembled from lines that expand, with all ids in place. -/
theorem assemble_of_expands {language : Language} {mode : LineMode} {registry : Registry}
    {name text : Text} {body : Body}
    (h : Expands table (treeVersion language (topLines text)) [] (topLines text) body) :
    (assemble language mode table registry name text).result =
      .ok { name
            version := treeVersion language (topLines text)
            source := render (registry.insertAll body.spliced).idOf
              (body.assembly mode (treeVersion language (topLines text))) } := by
  have hwalk : (walkTop language table name text).result = .ok body := h.walk_eq_ok name
  rw [assemble_eq_ok_iff]
  refine ⟨body, hwalk, ?_⟩
  rw [registry_assemble, walkTop, h.entered_eq name]

end

/-! ### Assemblies one after the other -/

/-- A source to assemble, and how. -/
structure Request where
  language : Language
  mode : LineMode
  table : IncludeTable
  name : Text
  text : Text

/-- Assembles the source of a request. -/
def Request.run (q : Request) (r : Registry) : Outcome :=
  assemble q.language q.mode q.table r q.name q.text

/-- The registry after requests that are run one after the other, whether they fail or not. -/
def Registry.after (r : Registry) (requests : List Request) : Registry :=
  requests.foldl (fun r q => (q.run r).registry) r

/-- A request only adds names. -/
theorem Request.isPrefix_run (q : Request) (r : Registry) :
    r.names <+: (q.run r).registry.names :=
  r.isPrefix_insertAll _

theorem Registry.isPrefix_after (r : Registry) (requests : List Request) :
    r.names <+: (r.after requests).names := by
  induction requests generalizing r with
  | nil => exact List.prefix_rfl
  | cons q requests ih => exact (q.isPrefix_run r).trans (ih _)

end ShaderSplice
