import ShaderSplice.Proofs.Registry

/-!
# A registry with an index

A registry is its names in the order of their ids, and the id of a name is looked up among them. An
`IndexedRegistry` keeps the ids beside the names, in an index that is made when the first name is
resolved:

    index    a ↦ 1 , b ↦ 2 , c ↦ 3
    names    [ a   ,   b   ,   c ]          the name with the id `id` stands at `id - 1`

Both are asked by the same calls (`RegistryCall`). Whatever is asked, and in which order, the index
and the names stay in step (`IndexedRegistry.Represents`), so the two give the same answers. As long
as there are ids for all names, each id then leads to one name and back.

An id is an integer of 32 bits. Names are counted in 64 bits, as the machine counts the members of a
list; where it has only 32 for that, an id with its top bit set would be taken for a negative number
(`IndexedRegistry.name?`).
-/

namespace ShaderSplice

/-! ### Names and their ids -/

theorem toNat_pos_iff {id : FileId} : 0 < id.toNat ↔ id ≠ topLevelId := by
  rw [Nat.pos_iff_ne_zero, Ne, Ne, ← UInt32.toNat_inj]
  rfl

theorem toNat_sub_one {id : FileId} (h : id ≠ topLevelId) : (id - 1).toNat = id.toNat - 1 := by
  have hle : (1 : UInt32) ≤ id := UInt32.le_iff_toNat_le.2 (toNat_pos_iff.2 h)
  exact UInt32.toNat_sub_of_le id 1 hle

/-- An id that is neither zero nor larger than the number of names has a place among them. -/
theorem toNat_sub_one_lt {n : Nat} {id : FileId} (h : ¬ (id = topLevelId ∨ n < id.toNat)) :
    (id - 1).toNat < n := by
  rw [not_or] at h
  have hpos := toNat_pos_iff.2 h.1
  rw [toNat_sub_one h.1]
  omega

namespace Registry

variable {r : Registry} {name : Text}

theorem insert_of_mem (h : name ∈ r.names) : r.insert name = r := dif_pos h

theorem names_insert_of_not_mem (h : name ∉ r.names) :
    (r.insert name).names = r.names ++ [name] := by
  rw [names_insert, if_neg h]

theorem find?_eq_none_iff : r.find? name = none ↔ name ∉ r.names := by
  simp [find?]

/-- A name that joins gets the next id, and the other names keep theirs. -/
theorem find?_insert_of_not_mem (h : name ∉ r.names) (other : Text) :
    (r.insert name).find? other =
      if other = name then some (UInt32.ofNat (r.size + 1)) else r.find? other := by
  have hindex : r.names.idxOf? name = none := by simpa using h
  rw [find?, names_insert_of_not_mem h, find?, List.idxOf?, List.findIdx?_append, ← List.idxOf?]
  by_cases hname : other = name
  · subst hname
    simp [hindex, size]
  · have hne : (name == other) = false := by simpa using Ne.symm hname
    simp [hname, hne]

theorem mem_of_find? {id : FileId} (h : r.find? name = some id) : name ∈ r.names := by
  by_contra hnot
  rw [find?_eq_none_iff.2 hnot] at h
  cases h

theorem resolve_of_find? {id : FileId} (h : r.find? name = some id) : r.resolve name = (id, r) := by
  rw [resolve, insert_of_mem (mem_of_find? h), h, Option.getD_some]

theorem resolve_of_not_mem (h : name ∉ r.names) :
    r.resolve name = (UInt32.ofNat (r.size + 1), r.insert name) := by
  rw [resolve, find?_insert_of_not_mem h, if_pos rfl, Option.getD_some]

theorem name?_eq_some_iff {id : FileId} :
    r.name? id = some name ↔
      1 ≤ id.toNat ∧ id.toNat ≤ r.size ∧ r.names[id.toNat - 1]? = some name := by
  rw [name?]
  split
  · next hid => simp [hid, topLevelId]
  · next hid =>
    have hpos := toNat_pos_iff.2 hid
    constructor
    · intro hname
      have hlt : id.toNat - 1 < r.size := (List.getElem?_eq_some_iff.1 hname).1
      exact ⟨hpos, by omega, hname⟩
    · exact fun hname => hname.2.2

theorem isSome_name?_iff {id : FileId} :
    (r.name? id).isSome ↔ 1 ≤ id.toNat ∧ id.toNat ≤ r.size := by
  rw [Option.isSome_iff_exists]
  constructor
  · rintro ⟨name, hname⟩
    obtain ⟨hpos, hle, -⟩ := name?_eq_some_iff.1 hname
    exact ⟨hpos, hle⟩
  · rintro ⟨hpos, hle⟩
    have hlt : id.toNat - 1 < r.names.length := by
      rw [size] at hle
      omega
    exact ⟨_, name?_eq_some_iff.2 ⟨hpos, hle, List.getElem?_eq_getElem hlt⟩⟩

end Registry

/-! ### Calls of a registry -/

/-- A call of a registry. -/
inductive RegistryCall where
  /-- Asks for the id of a name, which is given one if it has none. -/
  | resolve (name : Text)
  /-- Asks for the id that a name has. -/
  | find (name : Text)
  /-- Asks for the name that has an id. -/
  | nameOf (id : FileId)
  /-- Asks for all names. -/
  | allNames
  /-- Asks for the number of names. -/
  | count
deriving DecidableEq, Repr

namespace RegistryCall

/-- What a call gives back. -/
inductive Answer where
  | resolved (id : FileId)
  | foundId (id : Option FileId)
  | foundName (name : Option Text)
  | allNames (names : List Text)
  | count (n : Nat)
deriving DecidableEq, Repr

/-- The name that a call resolves. -/
def resolved? : RegistryCall → Option Text
  | .resolve name => some name
  | _ => none

/-- The names that calls resolve, in the order of the calls. -/
def resolvedNames (cs : List RegistryCall) : List Text := cs.filterMap resolved?

theorem resolvedNames_append (cs ds : List RegistryCall) :
    resolvedNames (cs ++ ds) = resolvedNames cs ++ resolvedNames ds := List.filterMap_append

/-- What calls give back one after the other, and the state after them. -/
def serve {σ : Type} (answer : σ → RegistryCall → Answer × σ) (s : σ) :
    List RegistryCall → List Answer × σ
  | [] => ([], s)
  | c :: cs =>
    let (first, s) := answer s c
    let (rest, s) := serve answer s cs
    (first :: rest, s)

/-- States that give the same answers and stay related give the same answers all the way. -/
theorem serve_related {σ τ : Type} {answer : σ → RegistryCall → Answer × σ}
    {answer' : τ → RegistryCall → Answer × τ} (Rel : σ → τ → Prop)
    (hstep : ∀ s t c, Rel s t →
      (answer s c).1 = (answer' t c).1 ∧ Rel (answer s c).2 (answer' t c).2)
    {s : σ} {t : τ} (h : Rel s t) (cs : List RegistryCall) :
    (serve answer s cs).1 = (serve answer' t cs).1 ∧
      Rel (serve answer s cs).2 (serve answer' t cs).2 := by
  induction cs generalizing s t with
  | nil => exact ⟨rfl, h⟩
  | cons c cs ih =>
    obtain ⟨hfirst, hnext⟩ := hstep s t c h
    obtain ⟨hrest, hlast⟩ := ih hnext
    refine ⟨?_, hlast⟩
    simp only [serve, hfirst, hrest]

end RegistryCall

open RegistryCall

/-- What a registry gives back for a call, and the registry after it. -/
def Registry.answer (r : Registry) : RegistryCall → Answer × Registry
  | .resolve name => (r.resolve name).map .resolved id
  | .find name => (.foundId (r.find? name), r)
  | .nameOf id => (.foundName (r.name? id), r)
  | .allNames => (.allNames r.names, r)
  | .count => (.count r.size, r)

/-! ### Names beside an index -/

/-- Names in the order of their ids, and beside them an index from names to ids. -/
structure IndexedRegistry where
  /-- The index, if it has been made. -/
  index? : Option (List (Text × FileId))
  names : List Text
deriving DecidableEq, Repr

namespace IndexedRegistry

/-- No names, and an index that is still to be made. -/
def zero : IndexedRegistry := ⟨none, []⟩

/-- No names, and an index without entries. -/
def empty : IndexedRegistry := ⟨some [], []⟩

/-- The id of a name according to the index. -/
def find? (k : IndexedRegistry) (name : Text) : Option FileId :=
  k.index?.bind (·.lookup name)

/-- The id of a name. An unseen name joins the names, and their number is its id. -/
def resolve (k : IndexedRegistry) (name : Text) : FileId × IndexedRegistry :=
  let index := k.index?.getD []
  match index.lookup name with
  | some id => (id, { k with index? := some index })
  | none =>
    let names := k.names ++ [name]
    let id := UInt32.ofNat names.length
    (id, { index? := some ((name, id) :: index), names })

/-- The name at the place of an id, if the id has one. An id has 32 bits. It is compared with the
number of names as an integer of 64 bits, which loses nothing of either, so the comparison is that
of natural numbers. -/
def name? (k : IndexedRegistry) (id : FileId) : Option Text :=
  if h : id = topLevelId ∨ k.names.length < id.toNat then none
  else some (k.names.get ⟨(id - 1).toNat, toNat_sub_one_lt h⟩)

/-- What names with an index give back for a call, and what becomes of them. -/
def answer (k : IndexedRegistry) : RegistryCall → Answer × IndexedRegistry
  | .resolve name => (k.resolve name).map .resolved id
  | .find name => (.foundId (k.find? name), k)
  | .nameOf id => (.foundName (k.name? id), k)
  | .allNames => (.allNames k.names, k)
  | .count => (.count k.names.length, k)

/-- The names are those of the registry, and the index leads from each to its id. -/
structure Represents (k : IndexedRegistry) (r : Registry) : Prop where
  names_eq : k.names = r.names
  find?_eq : ∀ name, k.find? name = r.find? name

/-- An index that is still to be made has no entries. -/
theorem lookup_getD_index? (k : IndexedRegistry) (name : Text) :
    (k.index?.getD []).lookup name = k.find? name := by
  rw [find?]
  cases k.index? with
  | none => rfl
  | some index => rfl

theorem resolve_of_find? {k : IndexedRegistry} {name : Text} {id : FileId}
    (h : k.find? name = some id) : k.resolve name = (id, k) := by
  obtain ⟨_ | index, names⟩ := k
  · cases h
  · have hlookup : index.lookup name = some id := h
    simp only [resolve, Option.getD_some, hlookup]

/-- A name that is not in the index joins at the end. -/
theorem resolve_of_find?_eq_none {k : IndexedRegistry} {name : Text} (h : k.find? name = none) :
    let id := UInt32.ofNat (k.names.length + 1)
    k.resolve name = (id, ⟨some ((name, id) :: k.index?.getD []), k.names ++ [name]⟩) := by
  simp only [resolve, lookup_getD_index?, h, List.length_append, List.length_singleton]

theorem find?_join (k : IndexedRegistry) (name : Text) (id : FileId) (names : List Text)
    (other : Text) :
    find? ⟨some ((name, id) :: k.index?.getD []), names⟩ other =
      if other = name then some id else k.find? other := by
  rw [find?, Option.bind_some, List.lookup_cons, lookup_getD_index?]
  by_cases hname : other = name
  · simp [hname]
  · have hne : (other == name) = false := by simpa using hname
    rw [hne, if_neg hname]

section
variable {k : IndexedRegistry} {r : Registry} (h : k.Represents r)
include h

theorem Represents.name?_eq (id : FileId) : k.name? id = r.name? id := by
  rw [name?, Registry.name?, ← h.names_eq]
  by_cases hid : id = topLevelId
  · simp [hid]
  · rw [if_neg hid, ← toNat_sub_one hid]
    split
    · next hout =>
      have hlt : k.names.length < id.toNat := hout.resolve_left hid
      rw [toNat_sub_one hid, eq_comm, List.getElem?_eq_none_iff]
      omega
    · next hin => exact (List.getElem?_eq_getElem (toNat_sub_one_lt hin)).symm

theorem Represents.resolve (name : Text) :
    (k.resolve name).1 = (r.resolve name).1 ∧
      (k.resolve name).2.Represents (r.resolve name).2 := by
  cases hfind : k.find? name with
  | some id =>
    have hid : r.find? name = some id := (h.find?_eq name).symm.trans hfind
    rw [resolve_of_find? hfind, Registry.resolve_of_find? hid]
    exact ⟨rfl, h⟩
  | none =>
    have hnot : name ∉ r.names := Registry.find?_eq_none_iff.1 ((h.find?_eq name).symm.trans hfind)
    have hlength : k.names.length = r.size := congrArg List.length h.names_eq
    rw [resolve_of_find?_eq_none hfind, Registry.resolve_of_not_mem hnot, hlength]
    refine ⟨rfl, ?_, ?_⟩
    · rw [Registry.names_insert_of_not_mem hnot, ← h.names_eq]
    · intro other
      rw [find?_join, Registry.find?_insert_of_not_mem hnot, h.find?_eq]

theorem Represents.answer (c : RegistryCall) :
    (k.answer c).1 = (r.answer c).1 ∧ (k.answer c).2.Represents (r.answer c).2 := by
  cases c with
  | resolve name =>
    obtain ⟨hid, hnext⟩ := h.resolve name
    exact ⟨congrArg Answer.resolved hid, hnext⟩
  | find name => exact ⟨congrArg Answer.foundId (h.find?_eq name), h⟩
  | nameOf id => exact ⟨congrArg Answer.foundName (h.name?_eq id), h⟩
  | allNames => exact ⟨congrArg Answer.allNames h.names_eq, h⟩
  | count => exact ⟨congrArg (Answer.count ∘ List.length) h.names_eq, h⟩

/-- Only a name that is resolved for the first time changes anything. -/
theorem Represents.answer_ne_iff {c : RegistryCall} :
    (k.answer c).2 ≠ k ↔ ∃ name, c = .resolve name ∧ name ∉ r.names := by
  cases c with
  | resolve name =>
    simp only [RegistryCall.resolve.injEq, exists_eq_left']
    cases hfind : k.find? name with
    | some id =>
      have hmem : name ∈ r.names := Registry.mem_of_find? ((h.find?_eq name).symm.trans hfind)
      simp [IndexedRegistry.answer, resolve_of_find? hfind, hmem]
    | none =>
      have hnot := Registry.find?_eq_none_iff.1 ((h.find?_eq name).symm.trans hfind)
      refine iff_of_true ?_ hnot
      intro hsame
      have hnames := congrArg IndexedRegistry.names hsame
      simp [IndexedRegistry.answer, resolve_of_find?_eq_none hfind] at hnames
  | find name => simp [IndexedRegistry.answer]
  | nameOf id => simp [IndexedRegistry.answer]
  | allNames => simp [IndexedRegistry.answer]
  | count => simp [IndexedRegistry.answer]

end

theorem represents_start {k : IndexedRegistry} (h : k = zero ∨ k = empty) : k.Represents ∅ := by
  rcases h with rfl | rfl
  · exact ⟨rfl, fun _ => rfl⟩
  · exact ⟨rfl, fun _ => rfl⟩

end IndexedRegistry

namespace Registry

theorem answer_ne_iff {r : Registry} {c : RegistryCall} :
    (r.answer c).2 ≠ r ↔ ∃ name, c = .resolve name ∧ name ∉ r.names := by
  cases c with
  | resolve name =>
    simp only [RegistryCall.resolve.injEq, exists_eq_left']
    by_cases hmem : name ∈ r.names
    · simp [answer, resolve, insert_of_mem hmem, hmem]
    · refine iff_of_true ?_ hmem
      intro hsame
      have hnames := congrArg Registry.names hsame
      simp [answer, resolve, names_insert_of_not_mem hmem] at hnames
  | find name => simp [answer]
  | nameOf id => simp [answer]
  | allNames => simp [answer]
  | count => simp [answer]

/-- Calls register the names that they resolve. -/
theorem serve_eq_insertAll (r : Registry) (cs : List RegistryCall) :
    (serve answer r cs).2 = r.insertAll (resolvedNames cs) := by
  induction cs generalizing r with
  | nil => rfl
  | cons c cs ih =>
    have hstep : (serve answer r (c :: cs)).2 = (serve answer (r.answer c).2 cs).2 := rfl
    rw [hstep, ih]
    cases c with
    | resolve name => rfl
    | find name => rfl
    | nameOf id => rfl
    | allNames => rfl
    | count => rfl

theorem names_serve (cs : List RegistryCall) :
    (serve answer ∅ cs).2.names = (resolvedNames cs).eraseDups := by
  have hnone : (∅ : Registry).names = [] := rfl
  rw [serve_eq_insertAll, names_insertAll, fresh, hnone]
  simp

theorem find?_insert_of_ne (r : Registry) {name other : Text} (h : other ≠ name) :
    (r.insert name).find? other = r.find? other := by
  by_cases hmem : name ∈ r.names
  · rw [insert_of_mem hmem]
  · rw [find?_insert_of_not_mem hmem, if_neg h]

end Registry

/-- **Names and ids stay in step.** Take any calls, on an index that is made already or not yet,
with an id for each of the names that they resolve. The answers are those of a registry, and at
every point between two calls:

- The names are pairwise distinct, and index and names undo each other: a name has the id `id` if
  and only if it stands at `id - 1`. The ids that have a name are those from one to the number of
  names.
- The next call changes something if and only if it resolves an unseen name, which then joins at the
  end with the next id.
- A name that is resolved gets an id other than zero, under which it is found, has the same id when
  it is resolved again, and leaves the other names with theirs. -/
theorem registry_stays_in_step (start : IndexedRegistry)
    (hstart : start = .zero ∨ start = .empty) (cs : List RegistryCall)
    (hfew : (resolvedNames cs).eraseDups.length < UInt32.size) :
    (serve IndexedRegistry.answer start cs).1 = (serve Registry.answer ∅ cs).1 ∧
    ∀ before later, cs = before ++ later →
      let k := (serve IndexedRegistry.answer start before).2
      let r := (serve Registry.answer ∅ before).2
      (k.names = r.names ∧ k.find? = r.find? ∧ k.name? = r.name?) ∧
      r.names.Nodup ∧
      (∀ name id,
        (r.find? name = some id ↔
          1 ≤ id.toNat ∧ id.toNat ≤ r.size ∧ r.names[id.toNat - 1]? = some name) ∧
        (r.name? id = some name ↔ r.find? name = some id)) ∧
      (∀ id, (r.name? id).isSome ↔ 1 ≤ id.toNat ∧ id.toNat ≤ r.size) ∧
      (∀ c rest, later = c :: rest →
        ((r.answer c).2 ≠ r ↔ ∃ name, c = .resolve name ∧ name ∉ r.names) ∧
        ((k.answer c).2 ≠ k ↔ ∃ name, c = .resolve name ∧ name ∉ r.names)) ∧
      ∀ name rest, later = .resolve name :: rest →
        let id := (r.resolve name).1
        let r' := (r.resolve name).2
        id ≠ 0 ∧ r'.name? id = some name ∧ r'.resolve name = (id, r') ∧
        (∀ other, other ≠ name → r'.find? other = r.find? other) ∧
        (name ∉ r.names → r'.names = r.names ++ [name] ∧ id.toNat = r.size + 1) := by
  have hserve := serve_related IndexedRegistry.Represents (fun _ _ c h => h.answer c)
    (IndexedRegistry.represents_start hstart)
  refine ⟨(hserve cs).1, ?_⟩
  rintro before later rfl k r
  have hk : k.Represents r := (hserve before).2
  -- the names that are there are among those of all calls
  have hbound : (r.insertAll (resolvedNames later)).size < UInt32.size := by
    have hr : r = Registry.insertAll ∅ (resolvedNames before) :=
      Registry.serve_eq_insertAll ∅ before
    rwa [hr, ← Registry.insertAll_append, ← resolvedNames_append, ← Registry.serve_eq_insertAll,
      Registry.size, Registry.names_serve]
  have hsize : r.size < UInt32.size :=
    (r.isPrefix_insertAll (resolvedNames later)).length_le.trans_lt hbound
  have hinverse {name : Text} {id : FileId} : r.find? name = some id ↔ r.name? id = some name :=
    Registry.find?_eq_some_iff_name? hsize
  refine ⟨⟨hk.names_eq, funext hk.find?_eq, funext hk.name?_eq⟩, r.nodup, ?_, ?_, ?_, ?_⟩
  · intro name id
    exact ⟨hinverse.trans Registry.name?_eq_some_iff, hinverse.symm⟩
  · exact fun id => Registry.isSome_name?_iff
  · intro c rest _
    exact ⟨Registry.answer_ne_iff, hk.answer_ne_iff⟩
  · rintro name rest rfl id r'
    have hsize' : r'.size < UInt32.size :=
      (r'.isPrefix_insertAll (resolvedNames rest)).length_le.trans_lt hbound
    have hid : r'.find? name = some id := r.find?_resolve name
    have hname : r'.name? id = some name := (Registry.find?_eq_some_iff_name? hsize').1 hid
    refine ⟨toNat_pos_iff.1 (Registry.name?_eq_some_iff.1 hname).1, hname,
      Registry.resolve_of_find? hid, fun other hother => r.find?_insert_of_ne hother, ?_⟩
    intro hnot
    have hnames : r'.names = r.names ++ [name] := Registry.names_insert_of_not_mem hnot
    have hsucc : r'.size = r.size + 1 := by simp [Registry.size, hnames]
    have hnext : id = UInt32.ofNat (r.size + 1) :=
      congrArg Prod.fst (Registry.resolve_of_not_mem hnot)
    rw [hsucc] at hsize'
    exact ⟨hnames, by rw [hnext, UInt32.toNat_ofNat_of_lt' hsize']⟩

/-- Asking for a name before there is an index, asking for an id that is too large, and resolving a
name twice. -/
theorem registry_stays_in_step_zero :
    let a := Text.ofString "a"
    let b := Text.ofString "b"
    let cs : List RegistryCall :=
      [.find a, .resolve a, .nameOf 7, .resolve b, .resolve a, .nameOf 2, .count]
    let r := (serve Registry.answer ∅ (cs.take 3)).2
    (serve IndexedRegistry.answer .zero cs).1 = (serve Registry.answer ∅ cs).1 ∧
    (r.resolve b).1.toNat = r.size + 1 ∧ (r.resolve b).2.names = r.names ++ [b] ∧
    (r.resolve b).2.find? a = r.find? a := by
  intro a b cs r
  obtain ⟨hanswers, hpoint⟩ := registry_stays_in_step .zero (.inl rfl) cs (by decide)
  obtain ⟨-, -, -, -, -, hresolve⟩ := hpoint (cs.take 3) (cs.drop 3) rfl
  obtain ⟨-, -, -, hother, hunseen⟩ := hresolve b (cs.drop 4) rfl
  obtain ⟨hnames, hid⟩ := hunseen (by decide)
  exact ⟨hanswers, hid, hnames, hother a (by decide)⟩

end ShaderSplice
