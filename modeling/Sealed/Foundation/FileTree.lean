import Sealed.Foundation.FileSystem

/-! Paths resolved by their spelling alone, and the trees without symbolic links in which
that tells where a path leads. -/

set_option autoImplicit false

namespace Sealed.Foundation

namespace Path

/-- The names from the root that segments lead to: a dot stays, two dots go up. -/
def resolveFrom : List Name → List Segment → List Name
  | names, [] => names
  | names, .current :: rest => resolveFrom names rest
  | names, .parent :: rest => resolveFrom names.dropLast rest
  | names, .name name :: rest => resolveFrom (names ++ [name]) rest

/-- A path resolved against the names of a working directory. -/
def resolve (path : Path) (working : List Name) : List Name :=
  resolveFrom (if path.absolute then [] else working) path.segments

theorem resolveFrom_append (names : List Name) (front back : List Segment) :
    resolveFrom names (front ++ back) = resolveFrom (resolveFrom names front) back := by
  induction front generalizing names with
  | nil => rfl
  | cons segment rest ih =>
      cases segment with
      | current | parent | name => exact ih _

theorem resolveFrom_route (path : Path) (names : List Name) :
    resolveFrom names path.route = resolveFrom names path.segments := by
  unfold route
  split
  · rw [resolveFrom_append]
    rfl
  · rfl

end Path

namespace FileSystem

variable {fs : FileSystem}

/-- The names that lead from the root to a directory. -/
inductive Leads (fs : FileSystem) : List Name → Nat → Prop
  | root : Leads fs [] 0
  | child {names : List Name} {directory id : Nat} {name : Name} (above : Leads fs names directory)
      (found : fs.lookup directory name = some (.directory id)) : Leads fs (names ++ [name]) id

/-- No symbolic links, and every directory stands in its parent. -/
structure Tree (fs : FileSystem) : Prop where
  unlinked : ∀ directory name target, fs.lookup directory name ≠ some (.symlink target)
  root : fs.parents 0 = 0
  parents : ∀ directory name id, fs.lookup directory name = some (.directory id) →
    fs.parents id = directory

/-- The names of a place: those of a directory, or those of the directory above and one more. -/
def Named (fs : FileSystem) (names : List Name) : Place → Prop
  | .inside directory => Leads fs names directory
  | .slot directory name => ∃ front, names = front ++ [name] ∧ Leads fs front directory

theorem Leads.parent (tree : Tree fs) {names : List Name} {directory : Nat}
    (leads : Leads fs names directory) : Leads fs names.dropLast (fs.parents directory) := by
  cases leads with
  | root =>
      rw [tree.root]
      exact .root
  | child above found =>
      rw [tree.parents _ _ _ found, List.dropLast_concat]
      exact above

/-- Segment by segment, a walk goes where the spelling says. -/
private theorem walk_named (tree : Tree fs) {jump : Nat → List Segment → Except IoErrorKind Place}
    {follow : Bool} {segments : List Segment} {directory : Nat} {names : List Name} {place : Place}
    (leads : Leads fs names directory)
    (walked : fs.walk jump follow directory segments = .ok place) :
    fs.Named (Path.resolveFrom names segments) place := by
  induction segments generalizing directory names with
  | nil =>
      cases walked
      exact leads
  | cons segment rest ih =>
      cases segment with
      | current => exact ih leads walked
      | parent => exact ih (leads.parent tree) walked
      | name name =>
          have last : rest.isEmpty = true → (Except.ok (.slot directory name) : Except IoErrorKind Place)
              = .ok place → fs.Named (Path.resolveFrom names (.name name :: rest)) place := by
            intro ended same
            cases List.isEmpty_iff.1 ended
            cases same
            exact ⟨names, rfl, leads⟩
          unfold FileSystem.walk at walked
          cases found : fs.lookup directory name with
          | none =>
              simp only [found] at walked
              split at walked
              · exact last ‹_› walked
              · cases walked
          | some node =>
              cases node with
              | directory id =>
                  simp only [found] at walked
                  split at walked
                  · exact last ‹_› walked
                  · exact ih (leads.child found) walked
              | symlink target => exact absurd found (tree.unlinked _ _ _)
              | file id =>
                  simp only [found] at walked
                  split at walked
                  · exact last ‹_› walked
                  · cases walked
              | special =>
                  simp only [found] at walked
                  split at walked
                  · exact last ‹_› walked
                  · cases walked

/-- In a tree, the place that a path leads to has the names that the path resolves to. -/
theorem named_of_locate (tree : Tree fs) {working : List Name} (at' : Leads fs working fs.working)
    {follow : Bool} {path : Path} {place : Place} (located : fs.locate follow path = .ok place) :
    fs.Named (path.resolve working) place := by
  have start : Leads fs (if path.absolute then [] else working) (origin path fs.working) := by
    unfold origin
    split
    · exact .root
    · exact at'
  unfold locate at located
  split at located
  · cases located
  · rw [Path.resolve, ← Path.resolveFrom_route]
    exact walk_named tree start located

end FileSystem

end Sealed.Foundation
