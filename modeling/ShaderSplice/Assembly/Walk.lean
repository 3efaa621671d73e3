import ShaderSplice.SourceLine
import ShaderSplice.IncludeTable
import ShaderSplice.Assembly.Failure

/-!
# Walking the includes of a source

`walk` follows the include directives of a file, depth first and in the order of the lines. It
either fails or gives back a `Body`: the lines of the file, each include directive with the body
that takes its place. On the way it notes what happened as `Event`s, which also tell about a walk
that fails later.

    sourceLines ──walk──▶ events , Body   or   events , Failure

Neither file ids nor line markers play a part here: they are read off the events and the body.

An include that is already on the path from the top level is a cycle, so the path never holds a
name twice, and each descent leaves one name fewer to descend to. That is why the walk ends.
-/

namespace ShaderSplice

/-- Something that happens during a walk. -/
inductive Event where
  /-- The include directive on line `line` of `source` starts the expansion of `target`. -/
  | enter (source target : Text) (line : Nat)
  /-- The expansion of the include `file` ends inside a block comment. -/
  | unclosed (file : Text)
deriving DecidableEq, Repr

/-- The lines of a file, with the bodies of the files that it includes. -/
inductive Body where
  | nil
  /-- A line that stays what it is. -/
  | keep (line : SourceLine) (rest : Body)
  /-- An include directive, and the body of the file that it names. -/
  | splice (line : SourceLine) (target : Text) (child rest : Body)

/-- The lines of the file itself. -/
def Body.lines : Body → List SourceLine
  | .nil => []
  | .keep line rest => line :: rest.lines
  | .splice line _ _ rest => line :: rest.lines

/-- The events of a walk and how it ends. -/
structure Walk where
  events : List Event
  result : Except Failure Body

namespace Walk

/-- A walk that stops where it starts. -/
def fail (cause : Cause) : Walk := ⟨[], .error ⟨[], cause⟩⟩

/-- A walk over `line` and then over what `next` walks over. -/
def keep (line : SourceLine) (next : Walk) : Walk := ⟨next.events, next.result.map (.keep line)⟩

/-- A walk that descends at `line` of `source` into the include `target` and fails there. -/
def abandon (source : Text) (line : SourceLine) (target : Text) (child : List Event)
    (f : Failure) : Walk :=
  ⟨.enter source target line.number :: child, .error (f.inside target)⟩

/-- A walk that descends at `line` of `source` into the include `target`, comes back with `body`
and goes on. -/
def resume (source : Text) (line : SourceLine) (target : Text) (child : List Event)
    (body : Body) (next : Walk) : Walk :=
  let left := if endsOpen body.lines then [Event.unclosed target] else []
  ⟨.enter source target line.number :: child ++ left ++ next.events,
    next.result.map (.splice line target body)⟩

end Walk

/-- The names of a table that are not on `path`. -/
def IncludeTable.unvisited (t : IncludeTable) (path : List Text) : List Text :=
  t.names.filter (· ∉ path)

/-- A descent to a name off the path leaves fewer names to descend to. -/
theorem IncludeTable.length_unvisited_lt {t : IncludeTable} {path : List Text} {name : Text}
    (hmem : name ∈ t.names) (hpath : name ∉ path) :
    (t.unvisited (path ++ [name])).length < (t.unvisited path).length := by
  have hfilter : t.unvisited (path ++ [name]) = (t.unvisited path).filter (· ≠ name) := by
    rw [unvisited, unvisited, List.filter_filter]
    congr 1
    funext n
    by_cases hn : n ∈ path <;> by_cases hname : n = name <;> simp [hn, hname]
  rw [hfilter, List.length_filter_lt_length_iff_exists]
  exact ⟨name, by simp [unvisited, hmem, hpath], by simp⟩

/-- Walks over the lines `ls` of the file `name`, to which the includes `path` lead, in a tree of
the given version. -/
def walk (table : IncludeTable) (version name : Text) (path : List Text) (ls : List SourceLine) :
    Walk :=
  match ls with
  | [] => ⟨[], .ok .nil⟩
  | l :: rest =>
    match l.role with
    | .lead declared =>
      if declared = version then .keep l (walk table version name path rest)
      else .fail (.mismatch name declared version)
    | .splice target =>
      match _ : table.find? target with
      | none => .fail (.missing name target)
      | some text =>
        if target ∈ path then .fail (.cycle name target (path ++ [target]))
        else
          let child := walk table version target (path ++ [target]) (sourceLines text)
          match child.result with
          | .error f => .abandon name l target child.events f
          | .ok body => .resume name l target child.events body (walk table version name path rest)
    | .silent | .ordinary _ => .keep l (walk table version name path rest)
termination_by ((table.unvisited path).length, ls.length)
decreasing_by
  · decreasing_tactic
  · exact Prod.Lex.left _ _ (IncludeTable.length_unvisited_lt
      (IncludeTable.mem_names_of_find? ‹table.find? target = some text›) ‹target ∉ path›)
  · decreasing_tactic
  · decreasing_tactic

end ShaderSplice
