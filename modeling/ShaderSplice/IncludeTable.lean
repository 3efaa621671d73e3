import ShaderSplice.Text.Basic

/-!
# Include tables

The files that an include directive can name, each with its text. A name occurs once; giving it a
new text replaces the old one.
-/

namespace ShaderSplice

/-- Include names with their texts. -/
structure IncludeTable where
  entries : List (Text × Text)
  /-- No name occurs twice. -/
  nodup : (entries.map (·.1)).Nodup

namespace IncludeTable

/-- A table without entries. -/
def empty : IncludeTable := ⟨[], List.nodup_nil⟩

instance : EmptyCollection IncludeTable := ⟨empty⟩
instance : Inhabited IncludeTable := ⟨empty⟩

/-- The names of a table. -/
def names (t : IncludeTable) : List Text := t.entries.map (·.1)

/-- The text that a name stands for. -/
def find? (t : IncludeTable) (name : Text) : Option Text := t.entries.lookup name

/-- The table without the entry of `name`. -/
def erase (t : IncludeTable) (name : Text) : IncludeTable :=
  ⟨t.entries.filter (·.1 ≠ name), (List.filter_sublist.map _).nodup t.nodup⟩

/-- The table in which `name` stands for `text`. -/
def insert (t : IncludeTable) (name text : Text) : IncludeTable :=
  ⟨(name, text) :: (t.erase name).entries, by
    rw [List.map_cons, List.nodup_cons]
    refine ⟨?_, (t.erase name).nodup⟩
    simp [erase]⟩

/-- A table of the given entries, of which the last for a name counts. -/
def ofList (entries : List (Text × Text)) : IncludeTable :=
  entries.foldl (fun t (name, text) => t.insert name text) ∅

/-- A name that stands for a text is a name of the table. -/
theorem mem_names_of_find? {t : IncludeTable} {name text : Text}
    (h : t.find? name = some text) : name ∈ t.names := by
  obtain ⟨l₁, l₂, he, _⟩ := List.lookup_eq_some_iff.1 h
  simp [names, he]

end IncludeTable
end ShaderSplice
