import Mathlib.Data.List.TakeDrop
import Mathlib.Data.List.TakeWhile
import Mathlib.Logic.Relation
import Sealed.Foundation.Text

/-! Unix paths as `std::path` sees them: a path keeps its spelling, and its components
are read off it. The kinds of failure a path can meet stand next to it. -/

set_option autoImplicit false

namespace Sealed.Foundation

/-- The kinds of failure that programs tell apart, or that the calls produce. -/
inductive IoErrorKind where
  | notFound
  | alreadyExists
  | notADirectory
  | isADirectory
  | filesystemLoop
  | writeZero
  | other
deriving DecidableEq, Repr

abbrev Name := List UInt8

/-- What stands between two separators. -/
inductive Segment where
  | current
  | parent
  | name (name : Name)
deriving DecidableEq

/-- `slashed` records a separator behind the last segment. -/
structure Path where
  absolute : Bool
  segments : List Segment
  slashed : Bool
deriving DecidableEq

inductive Component where
  | rootDir
  | curDir
  | parentDir
  | normal (name : Name)
deriving DecidableEq

namespace Path

/-- `Path::new(".")`. -/
def here : Path := ⟨false, [.current], false⟩

def isEmpty (path : Path) : Bool := !path.absolute && path.segments.isEmpty

/-- `Path::components`: a dot counts only in front of a relative path. -/
def components (path : Path) : List Component :=
  (match path.absolute, path.segments with
    | true, _ => [.rootDir]
    | false, .current :: _ => [.curDir]
    | false, _ => []) ++
  path.segments.filterMap fun
    | .current => none
    | .parent => some .parentDir
    | .name name => some (.normal name)

def startsWith (path base : Path) : Bool := base.components.isPrefixOf path.components

/-- The segments without the dots at their end. -/
def trimEnd (absolute : Bool) (segments : List Segment) : List Segment :=
  match (segments.reverse.dropWhile (· == .current)).reverse with
  | [] => if absolute then [] else segments.take 1
  | kept => kept

/-- `Path::parent`: the spelling in front of the last component. -/
def parent (path : Path) : Option Path :=
  match (trimEnd path.absolute path.segments).reverse with
  | [] => none
  | _ :: front => some ⟨path.absolute, trimEnd path.absolute front.reverse, false⟩

/-- One of `Path::ancestors`: the path itself, its parent, and so on. -/
def IsAncestor (path above : Path) : Prop :=
  Relation.ReflTransGen (fun below above => below.parent = some above) path above

/-- `Path::join` of a file name. -/
def join (path : Path) (name : Name) : Path := ⟨path.absolute, path.segments ++ [.name name], false⟩

/-- `Path::join` of any path: an absolute one takes the place of this one. -/
def push (path other : Path) : Path :=
  if other.absolute then other
  else ⟨path.absolute, path.segments ++ other.segments, other.slashed || other.segments.isEmpty⟩

/-- `Path::file_name`. -/
def fileName (path : Path) : Option Name :=
  match path.components.getLast? with
  | some (.normal name) => some name
  | _ => none

private def separator : UInt8 := 0x2f

private def segmentOf (name : Name) : Option Segment :=
  if name = [] then none
  else if name = ascii "." then some .current
  else if name = ascii ".." then some .parent
  else some (.name name)

/-- `PathBuf::from` of what a user spells. -/
def ofBytes (bytes : List UInt8) : Path where
  absolute := bytes.head? == some separator
  segments := (bytes.splitOn separator).filterMap segmentOf
  slashed := bytes.getLast? == some separator &&
    !((bytes.splitOn separator).filterMap segmentOf).isEmpty

private def spelling : Segment → Name
  | .current => ascii "."
  | .parent => ascii ".."
  | .name name => name

/-- How a path is spelled, where separators stand alone. -/
def toBytes (path : Path) : List UInt8 :=
  (if path.absolute then [separator] else []) ++
    [separator].intercalate (path.segments.map spelling) ++ if path.slashed then [separator] else []

/-- `Path::display`. -/
def display (path : Path) : List UInt8 := toUtf8Lossy path.toBytes

/-- The segments the kernel walks: a separator at the end asks for a directory. -/
def route (path : Path) : List Segment :=
  if path.slashed then path.segments ++ [.current] else path.segments

def unslashed (path : Path) : Path := { path with slashed := false }

@[simp] theorem route_join (path : Path) (name : Name) :
    (path.join name).route = path.segments ++ [.name name] := rfl

@[simp] theorem unslashed_join (path : Path) (name : Name) :
    (path.join name).unslashed = path.join name := rfl

theorem trimEnd_name (absolute : Bool) (front : List Segment) (name : Name) :
    trimEnd absolute (front ++ [.name name]) = front ++ [.name name] := by
  simp [trimEnd]

theorem parent_join (path : Path) (name : Name) :
    (path.join name).parent =
      some ⟨path.absolute, trimEnd path.absolute path.segments, false⟩ := by
  simp [parent, join, trimEnd_name]

/-- The parent of a joined name is the spelling it was joined to. -/
theorem parent_join_join (path : Path) (first second : Name) :
    ((path.join first).join second).parent = some (path.join first) := by
  have trimmed : trimEnd path.absolute (path.join first).segments = (path.join first).segments :=
    trimEnd_name path.absolute path.segments first
  rw [parent_join]
  exact congrArg some (congrArg (Path.mk path.absolute · false) trimmed)

end Path

/-! ## File names -/

private def dot : UInt8 := 0x2e

/-- `rsplit_file_at_dot`: what stands in front of the last dot and behind it. A name that
starts with its only dot has no extension. -/
def splitAtDot (name : Name) : Name × Option Name :=
  if name = [dot, dot] then (name, none)
  else
    match name.reverse.span (· != dot) with
    | (_, []) => (name, none)
    | (behind, _ :: before) =>
        if before.isEmpty then (name, none) else (before.reverse, some behind.reverse)

/-- `Path::file_stem`. -/
def fileStem (name : Name) : Name := (splitAtDot name).1

/-- `Path::extension`. -/
def extension (name : Name) : Option Name := (splitAtDot name).2

private theorem span_dot {name before behind : Name} :
    name.span (· != dot) = (behind, dot :: before) ↔
      name = behind ++ dot :: before ∧ dot ∉ behind := by
  rw [List.span_eq_takeWhile_dropWhile, Prod.mk.injEq]
  constructor
  · rintro ⟨rfl, rest⟩
    constructor
    · rw [← rest, List.takeWhile_append_dropWhile]
    · intro member
      simpa using List.mem_takeWhile_imp member
  · rintro ⟨rfl, plain⟩
    have all : ∀ byte ∈ behind, (byte != dot) = true := by
      intro byte member
      simpa using fun same : byte = dot => plain (same ▸ member)
    rw [List.takeWhile_append_of_pos all, List.dropWhile_append_of_pos all]
    simp

theorem splitAtDot_eq_some_iff {name stem behind : Name} :
    splitAtDot name = (stem, some behind) ↔
      name = stem ++ 0x2e :: behind ∧ stem ≠ [] ∧ 0x2e ∉ behind ∧ name ≠ [0x2e, 0x2e] := by
  unfold splitAtDot
  constructor
  · intro split'
    split at split'
    · cases split'
    · rename_i plain
      split at split'
      · cases split'
      · rename_i reversed byte before found
        have first : byte = dot := by
          have kept := List.head?_dropWhile_not (· != dot) name.reverse
          rw [List.span_eq_takeWhile_dropWhile, Prod.mk.injEq] at found
          rw [found.2] at kept
          simpa using kept
        subst first
        obtain ⟨whole, single⟩ := span_dot.1 found
        split at split'
        · cases split'
        · rename_i filled
          cases split'
          refine ⟨?_, ?_, ?_, plain⟩
          · rw [← List.reverse_reverse name, whole]
            simp [dot]
          · simpa using filled
          · simpa [dot] using single
  · rintro ⟨rfl, filled, single, plain⟩
    have found : (stem ++ 0x2e :: behind).reverse.span (· != dot) =
        (behind.reverse, dot :: stem.reverse) := by
      apply span_dot.2
      constructor
      · simp [dot]
      · simpa [dot] using single
    have other : ¬ stem ++ 0x2e :: behind = [dot, dot] := plain
    rw [if_neg other, found]
    simp [filled]

end Sealed.Foundation
