import ShaderSplice.Text.Basic

/-!
# File ids

A registry numbers include names in the order in which they are first resolved. The first name has
id 1; id 0 belongs to the top-level source and is never given out. Since a name only ever joins at
the end, an id never changes its meaning.

The names, ordered by id, are the whole state of a registry.
-/

namespace ShaderSplice

/-- The id by which a marker refers to a file. -/
abbrev FileId := UInt32

/-- The id of every top-level source. -/
def topLevelId : FileId := 0

/-- Include names ordered by their ids. -/
structure Registry where
  names : List Text
  /-- No name has two ids. -/
  nodup : names.Nodup
deriving DecidableEq

namespace Registry

/-- A registry without names. -/
def empty : Registry := ⟨[], List.nodup_nil⟩

instance : EmptyCollection Registry := ⟨empty⟩
instance : Inhabited Registry := ⟨empty⟩

/-- The number of names. -/
def size (r : Registry) : Nat := r.names.length

/-- The id of a name that is already registered. -/
def find? (r : Registry) (name : Text) : Option FileId :=
  (r.names.idxOf? name).map fun i => UInt32.ofNat (i + 1)

/-- The registry after `name` was resolved: an unseen name joins at the end. -/
def insert (r : Registry) (name : Text) : Registry :=
  if h : name ∈ r.names then r
  else ⟨r.names ++ [name], by
    rw [List.nodup_append]
    refine ⟨r.nodup, by simp, ?_⟩
    intro a ha b hb
    rw [List.mem_singleton.1 hb]
    exact fun hab => h (hab ▸ ha)⟩

/-- The id of a name, which is registered first if it is not yet. -/
def resolve (r : Registry) (name : Text) : FileId × Registry :=
  ((r.insert name).find? name |>.getD topLevelId, r.insert name)

/-- The name that has the id `id`. -/
def name? (r : Registry) (id : FileId) : Option Text :=
  if id = topLevelId then none else r.names[id.toNat - 1]?

/-- Registers names one after the other. -/
def insertAll (r : Registry) (names : List Text) : Registry := names.foldl insert r

end Registry
end ShaderSplice
