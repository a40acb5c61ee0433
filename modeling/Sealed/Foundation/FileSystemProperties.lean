import Sealed.Foundation.FileSystem

/-! Path resolution is stable while directories and symbolic links stay, and every change
of the file system is known by what it does to look-ups and to contents. -/

set_option autoImplicit false

namespace Sealed.Foundation.FileSystem

variable {fs later : FileSystem}

/-! ## Look-ups after a change -/

@[simp] theorem lookup_createDirectory {directory : Nat} (inside : directory < fs.nextDirectory)
    (name : Name) (other : Nat) (otherName : Name) :
    (fs.createDirectory directory name).lookup other otherName =
      if other = directory ∧ otherName = name then some (.directory fs.nextDirectory)
      else fs.lookup other otherName := by
  unfold createDirectory
  rw [dif_pos inside]
  exact fs.lookup_enter directory other name otherName _

@[simp] theorem lookup_createFile {directory : Nat} (inside : directory < fs.nextDirectory)
    (caller : Nat) (name : Name) (other : Nat) (otherName : Name) :
    (fs.createFile caller directory name).lookup other otherName =
      if other = directory ∧ otherName = name then some (.file fs.nextFile)
      else fs.lookup other otherName := by
  unfold createFile
  rw [dif_pos inside]
  exact fs.lookup_enter directory other name otherName _

@[simp] theorem lookup_append (file : Nat) (bytes : List UInt8) (directory : Nat) (name : Name) :
    (fs.append file bytes).lookup directory name = fs.lookup directory name := by
  unfold append
  split <;> rfl

@[simp] theorem lookup_remove (directory : Nat) (name : Name) (other : Nat) (otherName : Name) :
    (fs.remove directory name).lookup other otherName =
      if other = directory ∧ otherName = name then none else fs.lookup other otherName := by
  unfold remove lookup
  by_cases same : other = directory
  · subst same
    simp only [Function.update_self, true_and]
    by_cases sameName : otherName = name
    · subst sameName
      simp [AList.lookup_erase]
    · simp [AList.lookup_erase_ne, sameName]
  · simp [same]

theorem lookup_of_new {directory other : Nat} {name otherName : Name}
    {node new : Node} (free : fs.lookup directory name = none)
    (found : fs.lookup other otherName = some node) :
    (if other = directory ∧ otherName = name then some new else fs.lookup other otherName) =
      some node := by
  rw [if_neg]
  · exact found
  · rintro ⟨rfl, rfl⟩
    cases free.symm.trans found

@[simp] theorem contents_append (file : Nat) (bytes : List UInt8) (other : Nat) :
    (fs.append file bytes).contents other =
      if other = file ∧ file < fs.nextFile then fs.contents file ++ bytes
      else fs.contents other := by
  unfold append
  split
  · rename_i inside
    by_cases same : other = file
    · subst same
      simp [inside]
    · simp [same]
  · rename_i outside
    simp [outside]

@[simp] theorem creators_append (file : Nat) (bytes : List UInt8) :
    (fs.append file bytes).creators = fs.creators := by
  unfold append
  split <;> rfl

@[simp] theorem nextFile_append (file : Nat) (bytes : List UInt8) :
    (fs.append file bytes).nextFile = fs.nextFile := by
  unfold append
  split <;> rfl

@[simp] theorem contents_createFile (caller directory : Nat) (name : Name) :
    (fs.createFile caller directory name).contents = fs.contents := by
  unfold createFile
  split <;> rfl

@[simp] theorem creators_createFile {directory : Nat} (inside : directory < fs.nextDirectory)
    (caller : Nat) (name : Name) (other : Nat) :
    (fs.createFile caller directory name).creators other =
      if other = fs.nextFile then some caller else fs.creators other := by
  unfold createFile
  rw [dif_pos inside]
  exact Function.update_apply _ _ _ _

@[simp] theorem nextFile_createFile {directory : Nat} (inside : directory < fs.nextDirectory)
    (caller : Nat) (name : Name) :
    (fs.createFile caller directory name).nextFile = fs.nextFile + 1 := by
  unfold createFile
  rw [dif_pos inside]

@[simp] theorem contents_createDirectory (directory : Nat) (name : Name) :
    (fs.createDirectory directory name).contents = fs.contents := by
  unfold createDirectory
  split <;> rfl

@[simp] theorem creators_createDirectory (directory : Nat) (name : Name) :
    (fs.createDirectory directory name).creators = fs.creators := by
  unfold createDirectory
  split <;> rfl

@[simp] theorem nextFile_createDirectory (directory : Nat) (name : Name) :
    (fs.createDirectory directory name).nextFile = fs.nextFile := by
  unfold createDirectory
  split <;> rfl

theorem creators_lt {file caller : Nat} (created : fs.creators file = some caller) :
    file < fs.nextFile := by
  by_contra above
  rw [(fs.unusedFiles file (by omega)).2] at created
  cases created

/-! ## Resolution stays inside the file system -/

def Place.directory : Place → Nat
  | .inside directory => directory
  | .slot directory _ => directory

theorem origin_lt (path : Path) {directory : Nat} (inside : directory < fs.nextDirectory) :
    origin path directory < fs.nextDirectory := by
  unfold origin
  split
  · exact fs.rootExists
  · exact inside

private theorem walk_lt {jump : Nat → List Segment → Except IoErrorKind Place} {follow : Bool}
    (jumps : ∀ directory segments place, directory < fs.nextDirectory →
      jump directory segments = .ok place → Place.directory place < fs.nextDirectory)
    {segments : List Segment} :
    ∀ {directory : Nat} {place : Place}, directory < fs.nextDirectory →
      fs.walk jump follow directory segments = .ok place →
        Place.directory place < fs.nextDirectory := by
  induction segments with
  | nil =>
      intro directory place inside walked
      cases walked
      exact inside
  | cons segment rest ih =>
      intro directory place inside walked
      cases segment with
      | current => exact ih inside walked
      | parent => exact ih (fs.parentsExist _ inside) walked
      | name name =>
          unfold walk at walked
          split at walked
          · split at walked
            · cases walked
              exact inside
            · exact jumps _ _ _ (origin_lt _ inside) walked
          · rename_i id found
            split at walked
            · cases walked
              exact inside
            · exact ih (fs.subdirectoriesExist _ _ _ found) walked
          · split at walked
            · cases walked
              exact inside
            · cases walked
          · split at walked
            · cases walked
              exact inside
            · cases walked

theorem walkLinks_lt {follow : Bool} {links : Nat} {directory : Nat} {segments : List Segment}
    {place : Place} (inside : directory < fs.nextDirectory)
    (walked : fs.walkLinks follow links directory segments = .ok place) :
    Place.directory place < fs.nextDirectory := by
  induction links generalizing directory segments place with
  | zero =>
      refine walk_lt ?_ inside walked
      rintro _ _ _ _ ⟨⟩
  | succ links ih => exact walk_lt (fun _ _ _ within jumped => ih within jumped) inside walked

theorem locate_lt {follow : Bool} {path : Path} {place : Place}
    (located : fs.locate follow path = .ok place) :
    Place.directory place < fs.nextDirectory := by
  unfold locate at located
  split at located
  · cases located
  · exact walkLinks_lt (origin_lt _ fs.workingExists) located

theorem slot_lt {follow : Bool} {path : Path} {directory : Nat} {name : Name}
    (located : fs.locate follow path = .ok (.slot directory name)) :
    directory < fs.nextDirectory := locate_lt located

/-! ## Resolution persists -/

/-- Directories and symbolic links stay, and no link is new in a directory that was there
before. -/
structure Extends (fs later : FileSystem) : Prop where
  directory : ∀ directory name id, fs.lookup directory name = some (.directory id) →
    later.lookup directory name = some (.directory id)
  symlink : ∀ directory name target, directory < fs.nextDirectory →
    (fs.lookup directory name = some (.symlink target) ↔
      later.lookup directory name = some (.symlink target))
  parent : ∀ id < fs.nextDirectory, later.parents id = fs.parents id
  working : later.working = fs.working
  nextDirectory : fs.nextDirectory ≤ later.nextDirectory

theorem Extends.refl (fs : FileSystem) : Extends fs fs :=
  ⟨fun _ _ _ found => found, fun _ _ _ _ => Iff.rfl, fun _ _ => rfl, rfl, Nat.le_refl _⟩

theorem Extends.trans {first second third : FileSystem} (early : Extends first second)
    (late : Extends second third) : Extends first third where
  directory := fun _ _ _ found => late.directory _ _ _ (early.directory _ _ _ found)
  symlink := fun _ _ _ inside => (early.symlink _ _ _ inside).trans
    (late.symlink _ _ _ (Nat.lt_of_lt_of_le inside early.nextDirectory))
  parent := fun _ inside =>
    (late.parent _ (Nat.lt_of_lt_of_le inside early.nextDirectory)).trans (early.parent _ inside)
  working := late.working.trans early.working
  nextDirectory := Nat.le_trans early.nextDirectory late.nextDirectory

/-- A walk ends at its last name, unless it follows a symbolic link there. -/
theorem walk_last {jump : Nat → List Segment → Except IoErrorKind Place} {follow : Bool}
    {directory : Nat} {name : Name}
    (plain : follow = true → ∀ target, fs.lookup directory name ≠ some (.symlink target)) :
    fs.walk jump follow directory [.name name] = .ok (.slot directory name) := by
  unfold walk
  split
  · rename_i target found
    cases follow with
    | false => rfl
    | true => exact absurd found (plain rfl target)
  · rfl
  · rfl
  · rfl

private theorem walk_extends (extended : Extends fs later)
    {jump laterJump : Nat → List Segment → Except IoErrorKind Place} {follow : Bool}
    (jumps : ∀ directory segments place, directory < fs.nextDirectory →
      jump directory segments = .ok place → laterJump directory segments = .ok place)
    {segments : List Segment} :
    ∀ {directory : Nat} {place : Place}, directory < fs.nextDirectory →
      fs.walk jump follow directory segments = .ok place →
        later.walk laterJump follow directory segments = .ok place := by
  induction segments with
  | nil =>
      intro directory place inside walked
      exact walked
  | cons segment rest ih =>
      intro directory place inside walked
      cases segment with
      | current => exact ih inside walked
      | parent =>
          unfold walk
          rw [extended.parent _ inside]
          exact ih (fs.parentsExist _ inside) walked
      | name name =>
          have links := extended.symlink directory name
          cases rest with
          | nil =>
              by_cases linked : follow = true ∧ ∃ target,
                  fs.lookup directory name = some (.symlink target)
              · obtain ⟨rfl, target, found⟩ := linked
                unfold walk at walked ⊢
                rw [found] at walked
                rw [(links target inside).1 found]
                exact jumps _ _ _ (origin_lt _ inside) walked
              · have plain : follow = true → ∀ target,
                    fs.lookup directory name ≠ some (.symlink target) :=
                  fun following target found => linked ⟨following, target, found⟩
                rw [walk_last plain] at walked
                cases walked
                refine walk_last fun following target found => ?_
                exact plain following target ((links target inside).2 found)
          | cons next more =>
              unfold walk at walked ⊢
              split at walked
              · rename_i target found
                rw [(links target inside).1 found]
                exact jumps _ _ _ (origin_lt _ inside) walked
              · rename_i id found
                rw [extended.directory _ _ _ found]
                exact ih (fs.subdirectoriesExist _ _ _ found) walked
              · cases walked
              · cases walked

private theorem walkLinks_extends (extended : Extends fs later) {follow : Bool} {links : Nat}
    {directory : Nat} {segments : List Segment} {place : Place}
    (inside : directory < fs.nextDirectory)
    (walked : fs.walkLinks follow links directory segments = .ok place) :
    later.walkLinks follow links directory segments = .ok place := by
  induction links generalizing directory segments place with
  | zero =>
      refine walk_extends extended ?_ inside walked
      rintro _ _ _ _ ⟨⟩
  | succ links ih =>
      exact walk_extends extended (fun _ _ _ within jumped => ih within jumped) inside walked

theorem Extends.locate (extended : Extends fs later) {follow : Bool} {path : Path}
    {place : Place} (located : fs.locate follow path = .ok place) :
    later.locate follow path = .ok place := by
  unfold FileSystem.locate at located ⊢
  split at located
  · cases located
  · rename_i full
    rw [if_neg full, extended.working]
    exact walkLinks_extends extended (origin_lt _ fs.workingExists) located

theorem node_eq_ok_iff {follow : Bool} {path : Path} {node : Node} :
    fs.node follow path = .ok node ↔
      ∃ place, fs.locate follow path = .ok place ∧ fs.nodeAt place = some node := by
  unfold FileSystem.node
  cases located : fs.locate follow path with
  | error kind => simp [bind, Except.bind]
  | ok place =>
      simp only [bind, Except.bind, Except.ok.injEq, exists_eq_left']
      cases fs.nodeAt place <;> simp

theorem Extends.node_directory (extended : Extends fs later) {follow : Bool} {path : Path}
    {id : Nat} (found : fs.node follow path = .ok (.directory id)) :
    later.node follow path = .ok (.directory id) := by
  obtain ⟨place, located, entry⟩ := node_eq_ok_iff.1 found
  refine node_eq_ok_iff.2 ⟨place, extended.locate located, ?_⟩
  cases place with
  | inside directory => exact entry
  | slot directory name => exact extended.directory _ _ _ entry

/-! ## Following and joining -/

private theorem walk_follow
    {jump following : Nat → List Segment → Except IoErrorKind Place}
    (jumps : ∀ directory segments place, jump directory segments = .ok place →
      (∀ target, fs.nodeAt place ≠ some (.symlink target)) →
        following directory segments = .ok place)
    {segments : List Segment} :
    ∀ {directory : Nat} {place : Place},
      fs.walk jump false directory segments = .ok place →
        (∀ target, fs.nodeAt place ≠ some (.symlink target)) →
          fs.walk following true directory segments = .ok place := by
  induction segments with
  | nil =>
      intro directory place walked plain
      exact walked
  | cons segment rest ih =>
      intro directory place walked plain
      cases segment with
      | current => exact ih walked plain
      | parent => exact ih walked plain
      | name name =>
          cases rest with
          | nil =>
              rw [walk_last (by simp)] at walked
              cases walked
              exact walk_last fun _ => plain
          | cons next more =>
              unfold walk at walked ⊢
              split at walked
              · exact jumps _ _ _ walked plain
              · exact ih walked plain
              · cases walked
              · cases walked

private theorem walkLinks_follow {links directory : Nat} {segments : List Segment} {place : Place}
    (walked : fs.walkLinks false links directory segments = .ok place)
    (plain : ∀ target, fs.nodeAt place ≠ some (.symlink target)) :
    fs.walkLinks true links directory segments = .ok place := by
  induction links generalizing directory segments place with
  | zero =>
      refine walk_follow ?_ walked plain
      rintro _ _ _ ⟨⟩
  | succ links ih => exact walk_follow (fun _ _ _ jumped => ih jumped) walked plain

/-- Following makes no difference to a path that does not name a symbolic link. -/
theorem locate_follow {path : Path} {place : Place} (located : fs.locate false path = .ok place)
    (plain : ∀ target, fs.nodeAt place ≠ some (.symlink target)) :
    fs.locate true path = .ok place := by
  unfold FileSystem.locate at located ⊢
  split at located
  · cases located
  · rename_i full
    rw [if_neg full]
    exact walkLinks_follow located plain

theorem node_follow {path : Path} {node : Node} (found : fs.node false path = .ok node)
    (plain : ∀ target, node ≠ .symlink target) : fs.node true path = .ok node := by
  obtain ⟨place, located, entry⟩ := node_eq_ok_iff.1 found
  refine node_eq_ok_iff.2 ⟨place, locate_follow located fun target linked => ?_, entry⟩
  exact plain target (Option.some.inj (entry.symm.trans linked))

private theorem walk_unfollowed
    {jump following : Nat → List Segment → Except IoErrorKind Place}
    (jumps : ∀ directory segments place, following directory segments = .ok place →
      (fs.nodeAt place).isSome = true → ∃ other, jump directory segments = .ok other ∧
        (fs.nodeAt other).isSome = true)
    {segments : List Segment} :
    ∀ {directory : Nat} {place : Place}, fs.walk following true directory segments = .ok place →
      (fs.nodeAt place).isSome = true → ∃ other,
        fs.walk jump false directory segments = .ok other ∧ (fs.nodeAt other).isSome = true := by
  induction segments with
  | nil => exact fun _ _ => ⟨_, rfl, rfl⟩
  | cons segment rest ih =>
      intro directory place walked stands
      cases segment with
      | current => exact ih walked stands
      | parent => exact ih walked stands
      | name name =>
          cases rest with
          | nil =>
              refine ⟨.slot directory name, walk_last (by simp), ?_⟩
              cases found : fs.lookup directory name with
              | none =>
                  rw [walk_last (by simp [found])] at walked
                  cases walked
                  rw [nodeAt, found] at stands
                  cases stands
              | some node => rw [nodeAt, found, Option.isSome_some]
          | cons next more =>
              unfold walk at walked ⊢
              split at walked
              · exact jumps _ _ _ walked stands
              · exact ih walked stands
              · cases walked
              · cases walked

private theorem walkLinks_unfollowed {links directory : Nat} {segments : List Segment}
    {place : Place} (walked : fs.walkLinks true links directory segments = .ok place)
    (stands : (fs.nodeAt place).isSome = true) :
    ∃ other, fs.walkLinks false links directory segments = .ok other ∧
      (fs.nodeAt other).isSome = true := by
  induction links generalizing directory segments place with
  | zero =>
      refine walk_unfollowed ?_ walked stands
      rintro _ _ _ ⟨⟩
  | succ links ih => exact walk_unfollowed (fun _ _ _ jumped => ih jumped) walked stands

/-- Where following leads somewhere, something stands at the path itself. -/
theorem node_unfollowed {path : Path} {node : Node} (found : fs.node true path = .ok node) :
    ∃ other, fs.node false path = .ok other := by
  obtain ⟨place, located, entry⟩ := node_eq_ok_iff.1 found
  unfold locate at located
  split at located
  · cases located
  · rename_i full
    obtain ⟨other, walked, stands⟩ := walkLinks_unfollowed located (Option.isSome_of_eq_some entry)
    obtain ⟨node', entry'⟩ := Option.isSome_iff_exists.1 stands
    refine ⟨node', node_eq_ok_iff.2 ⟨other, ?_, entry'⟩⟩
    unfold locate
    rw [if_neg full]
    exact walked

/-- How a walk goes on behind what it found. -/
private def Resumes (continues : Except IoErrorKind Place → Prop)
    (goOn : Nat → Except IoErrorKind Place) : Option Node → Prop
  | some (.directory id) => continues (goOn id)
  | none => continues (.error .notFound)
  | some _ => continues (.error .notADirectory)

private theorem walk_append
    {jump following : Nat → List Segment → Except IoErrorKind Place} {follow : Bool}
    {back : List Segment} {continues : Except IoErrorKind Place → Prop} {ends : Option Node → Prop}
    (jumps : ∀ directory segments place, jump directory segments = .ok place →
      ends (fs.nodeAt place) → continues (following directory (segments ++ back)))
    (here : ∀ entry, ends entry →
      Resumes continues (fun id => fs.walk following follow id back) entry)
    (more : back ≠ []) {front : List Segment} :
    ∀ {directory : Nat} {place : Place}, fs.walk jump true directory front = .ok place →
      ends (fs.nodeAt place) → continues (fs.walk following follow directory (front ++ back)) := by
  induction front with
  | nil =>
      intro directory place walked entry
      cases walked
      exact here _ entry
  | cons segment rest ih =>
      intro directory place walked entry
      cases segment with
      | current => exact ih walked entry
      | parent => exact ih walked entry
      | name name =>
          have filled : (rest ++ back).isEmpty = false := by
            cases rest <;> cases back <;> simp_all
          rw [List.cons_append]
          unfold walk at walked ⊢
          cases found : fs.lookup directory name with
          | none =>
              rw [found] at walked
              simp only [filled, Bool.false_eq_true, if_false]
              cases rest with
              | nil =>
                  cases walked
                  rw [nodeAt, found] at entry
                  exact here _ entry
              | cons next tail => cases walked
          | some node =>
              rw [found] at walked
              cases node with
              | directory inner =>
                  simp only [filled, Bool.false_eq_true, if_false]
                  cases rest with
                  | nil =>
                      cases walked
                      rw [nodeAt, found] at entry
                      exact here _ entry
                  | cons next tail => exact ih walked entry
              | symlink target =>
                  simp only [filled, Bool.false_and, Bool.false_eq_true, if_false]
                  simp only [Bool.not_true, Bool.and_false, Bool.false_eq_true, if_false] at walked
                  rw [← List.append_assoc]
                  exact jumps _ _ _ walked entry
              | file inner =>
                  simp only [filled, Bool.false_eq_true, if_false]
                  cases rest with
                  | nil =>
                      cases walked
                      rw [nodeAt, found] at entry
                      exact here _ entry
                  | cons next tail => cases walked
              | special =>
                  simp only [filled, Bool.false_eq_true, if_false]
                  cases rest with
                  | nil =>
                      cases walked
                      rw [nodeAt, found] at entry
                      exact here _ entry
                  | cons next tail => cases walked

private theorem walkLinks_append (follow : Bool) (back : List Segment)
    (continues : Except IoErrorKind Place → Prop) (ends : Option Node → Prop)
    (here : ∀ entry, ends entry → ∀ links,
      Resumes continues (fun id => fs.walkLinks follow links id back) entry)
    (more : back ≠ []) {links directory : Nat} {front : List Segment} {place : Place}
    (walked : fs.walkLinks true links directory front = .ok place)
    (entry : ends (fs.nodeAt place)) :
    continues (fs.walkLinks follow links directory (front ++ back)) := by
  induction links generalizing directory front place with
  | zero =>
      refine walk_append ?_ (fun entry ended => here entry ended 0) more walked entry
      rintro _ _ _ ⟨⟩
  | succ links ih =>
      exact walk_append (fun _ _ _ jumped entry => ih jumped entry)
        (fun entry ended => here entry ended (links + 1)) more walked entry

private theorem walkLinks_name {follow : Bool} {links directory : Nat} {name : Name}
    (plain : follow = true → ∀ target, fs.lookup directory name ≠ some (.symlink target)) :
    fs.walkLinks follow links directory [.name name] = .ok (.slot directory name) := by
  cases links <;> exact walk_last plain

private theorem walk_current
    {jump : Nat → List Segment → Except IoErrorKind Place} {follow : Bool} {back : List Segment}
    (jumps : ∀ directory front, jump directory (front ++ .current :: back) =
      jump directory (front ++ back))
    (more : back ≠ []) {front : List Segment} :
    ∀ {directory : Nat}, fs.walk jump follow directory (front ++ .current :: back) =
      fs.walk jump follow directory (front ++ back) := by
  induction front with
  | nil =>
      intro directory
      rfl
  | cons segment rest ih =>
      intro directory
      cases segment with
      | current => exact ih
      | parent => exact ih
      | name name =>
          have dotted : (rest ++ .current :: back).isEmpty = false := by cases rest <;> rfl
          have plain : (rest ++ back).isEmpty = false := by
            cases rest <;> cases back <;> simp_all
          rw [List.cons_append, List.cons_append]
          unfold walk
          simp only [dotted, plain, ih, ← List.append_assoc, jumps]

private theorem walkLinks_current {follow : Bool} {links directory : Nat}
    {front back : List Segment} (more : back ≠ []) :
    fs.walkLinks follow links directory (front ++ .current :: back) =
      fs.walkLinks follow links directory (front ++ back) := by
  induction links generalizing directory front with
  | zero => exact walk_current (fun _ _ => rfl) more
  | succ links ih => exact walk_current (fun _ _ => ih) more

theorem locate_join {path : Path} {id : Nat} (found : fs.node true path = .ok (.directory id))
    {follow : Bool} {name : Name}
    (plain : follow = true → ∀ target, fs.lookup id name ≠ some (.symlink target)) :
    fs.locate follow (path.join name) = .ok (.slot id name) := by
  obtain ⟨place, located, entry⟩ := node_eq_ok_iff.1 found
  have joined : (path.join name).isEmpty = false := by simp [Path.isEmpty, Path.join]
  unfold locate at located ⊢
  split at located
  · cases located
  · rw [joined]
    have extended := walkLinks_append follow [.name name] (· = .ok (.slot id name))
      (· = some (.directory id))
      (by rintro _ rfl links; exact walkLinks_name plain) (by simp) located entry
    have same : path.route ++ [.name name] = path.segments ++ [.name name] ∨
        path.route ++ [.name name] = path.segments ++ .current :: [.name name] := by
      unfold Path.route
      split <;> simp
    rcases same with same | same
    · rw [same] at extended
      exact extended
    · rw [same, walkLinks_current (by simp)] at extended
      exact extended

private theorem walk_front
    {jump following : Nat → List Segment → Except IoErrorKind Place} {follow : Bool} {last : Name}
    (jumps : ∀ directory segments place,
      following directory (segments ++ [.name last]) = .ok place →
        ∃ first id, jump directory segments = .ok first ∧ fs.nodeAt first = some (.directory id))
    {front : List Segment} :
    ∀ {directory : Nat} {place : Place},
      fs.walk following follow directory (front ++ [.name last]) = .ok place →
        ∃ first id, fs.walk jump true directory front = .ok first ∧
          fs.nodeAt first = some (.directory id) := by
  induction front with
  | nil =>
      intro directory place _
      exact ⟨.inside directory, directory, rfl, rfl⟩
  | cons segment rest ih =>
      intro directory place walked
      cases segment with
      | current => exact ih walked
      | parent => exact ih walked
      | name name =>
          have filled : (rest ++ [Segment.name last]).isEmpty = false := by cases rest <;> rfl
          rw [List.cons_append] at walked
          unfold walk at walked ⊢
          simp only [filled, Bool.false_and, Bool.false_eq_true, if_false, Bool.not_true,
            Bool.and_false] at walked ⊢
          cases found : fs.lookup directory name with
          | none =>
              rw [found] at walked
              cases walked
          | some node =>
              rw [found] at walked
              cases node with
              | directory id =>
                  cases rest with
                  | nil => exact ⟨_, id, rfl, found⟩
                  | cons next tail => exact ih walked
              | symlink target =>
                  simp only [← List.append_assoc] at walked
                  exact jumps _ _ _ walked
              | file | special => cases walked

private theorem walkLinks_front {follow : Bool} {last : Name} {links directory : Nat}
    {front : List Segment} {place : Place}
    (walked : fs.walkLinks follow links directory (front ++ [.name last]) = .ok place) :
    ∃ first id, fs.walkLinks true links directory front = .ok first ∧
      fs.nodeAt first = some (.directory id) := by
  induction links generalizing directory front place with
  | zero =>
      refine walk_front ?_ walked
      rintro _ _ _ ⟨⟩
  | succ links ih =>
      refine walk_front ?_ walked
      intro directory segments place jumped
      exact ih jumped

theorem directory_of_join {path : Path} (full : path.isEmpty = false)
    (plain : path.slashed = false) {follow : Bool} {name : Name} {place : Place}
    (located : fs.locate follow (path.join name) = .ok place) :
    ∃ id, fs.node true path = .ok (.directory id) := by
  have joined : (path.join name).isEmpty = false := by simp [Path.isEmpty, Path.join]
  have route : path.route = path.segments := by simp [Path.route, plain]
  unfold locate at located
  rw [joined] at located
  obtain ⟨first, id, walked, entry⟩ := walkLinks_front located
  refine ⟨id, node_eq_ok_iff.2 ⟨first, ?_, entry⟩⟩
  unfold locate
  rw [full, route]
  exact walked

theorem node_slashed {path : Path} {id : Nat}
    (found : fs.node false path.unslashed = .ok (.directory id)) :
    fs.node false path = .ok (.directory id) := by
  by_cases slashed : path.slashed = true
  · have followed := node_follow found (by simp)
    obtain ⟨place, located, entry⟩ := node_eq_ok_iff.1 followed
    refine node_eq_ok_iff.2 ⟨.inside id, ?_, rfl⟩
    unfold locate at located ⊢
    split at located
    · cases located
    · rename_i full
      rw [if_neg (by exact full)]
      have extended := walkLinks_append false [.current] (· = .ok (.inside id))
        (· = some (.directory id))
        (by rintro _ rfl links; cases links <;> rfl) (by simp) located entry
      have route : path.route = path.unslashed.route ++ [.current] := by
        simp [Path.route, Path.unslashed, slashed]
      rw [route]
      exact extended
  · have same : path.unslashed = path := by
      cases path
      simp_all [Path.unslashed]
    rw [← same]
    exact found

/-- Nothing stands at the path, in a directory that exists. -/
def Vacant (path : Path) (fs : FileSystem) : Prop :=
  ∃ directory name, fs.locate false path = .ok (.slot directory name) ∧
    fs.lookup directory name = none

/-- A walk that ends with a dot ends in a directory. -/
theorem walk_inside {jump : Nat → List Segment → Except IoErrorKind Place} {follow : Bool}
    (jumps : ∀ directory segments place, jump directory (segments ++ [.current]) = .ok place →
      ∃ id, place = .inside id)
    {segments : List Segment} {directory : Nat} {place : Place}
    (walked : fs.walk jump follow directory (segments ++ [.current]) = .ok place) :
    ∃ id, place = .inside id := by
  induction segments generalizing directory with
  | nil =>
      cases walked
      exact ⟨directory, rfl⟩
  | cons segment rest ih =>
      cases segment with
      | current => exact ih walked
      | parent => exact ih walked
      | name name =>
          have more : (rest ++ [Segment.current]).isEmpty = false := by simp
          simp only [List.cons_append, walk, more, Bool.false_and, Bool.false_eq_true,
            if_false] at walked
          split at walked
          · rw [← List.append_assoc] at walked
            exact jumps _ _ _ walked
          · exact ih walked
          · cases walked
          · cases walked

theorem walkLinks_inside {follow : Bool} {links directory : Nat} {segments : List Segment}
    {place : Place}
    (walked : fs.walkLinks follow links directory (segments ++ [.current]) = .ok place) :
    ∃ id, place = .inside id := by
  induction links generalizing directory segments place with
  | zero =>
      apply walk_inside _ walked
      intro _ _ _ jumped
      cases jumped
  | succ links ih => exact walk_inside (fun _ _ _ jumped => ih jumped) walked

theorem not_vacant_of_slashed {path : Path} (slashed : path.slashed = true) : ¬ Vacant path fs := by
  intro vacant
  obtain ⟨directory, name, located, _⟩ := vacant
  unfold locate at located
  split at located
  · cases located
  · rw [Path.route, if_pos slashed] at located
    obtain ⟨id, same⟩ := walkLinks_inside located
    cases same

theorem node_of_vacant {path : Path} (vacant : Vacant path fs) {follow : Bool} :
    fs.node follow path = .error .notFound := by
  obtain ⟨directory, name, located, free⟩ := vacant
  have entry : fs.nodeAt (.slot directory name) = none := free
  have followed : fs.locate follow path = .ok (.slot directory name) := by
    cases follow with
    | false => exact located
    | true => exact locate_follow located fun target linked => nomatch entry.symm.trans linked
  unfold FileSystem.node
  simp only [followed, bind, Except.bind, entry]

/-- There is nothing behind a path at which nothing stands. -/
theorem node_behind_vacant {path longer : Path} (vacant : Vacant path.unslashed fs)
    (back : List Segment) (more : back ≠ []) (absolute : longer.absolute = path.absolute)
    (route : longer.route = path.segments ++ back) {follow : Bool} :
    fs.node follow longer = .error .notFound := by
  obtain ⟨directory, name, located, free⟩ := vacant
  have entry : fs.nodeAt (.slot directory name) = none := free
  have followed := locate_follow located fun target linked => nomatch entry.symm.trans linked
  have missing : fs.locate follow longer = .error .notFound := by
    unfold FileSystem.locate at followed ⊢
    split
    · rfl
    · split at followed
      · cases followed
      · have extended := walkLinks_append follow back (· = .error .notFound) (· = none)
          (by rintro _ rfl links; rfl) more followed entry
        rw [route]
        unfold origin at extended ⊢
        rw [absolute]
        exact extended
  unfold FileSystem.node
  simp only [missing, bind, Except.bind]

theorem node_of_vacant_unslashed {path : Path} (vacant : Vacant path.unslashed fs)
    {follow : Bool} : fs.node follow path = .error .notFound := by
  by_cases slashed : path.slashed = true
  · exact node_behind_vacant vacant [.current] (by simp) rfl
      (by simp [Path.route, slashed])
  · have same : path.unslashed = path := by
      cases path
      simp_all [Path.unslashed]
    rw [same] at vacant
    exact node_of_vacant vacant

theorem node_join_vacant {path : Path} (vacant : Vacant path.unslashed fs) {follow : Bool}
    (name : Name) : fs.node follow (path.join name) = .error .notFound := by
  have absolute : (path.join name).absolute = path.absolute := rfl
  exact node_behind_vacant vacant [.name name] (by simp) absolute rfl

/-! ## What the changes do -/

section Changes

variable {directory : Nat} {name : Name} {caller file : Nat} {bytes : List UInt8}

theorem extends_createDirectory (inside : directory < fs.nextDirectory)
    (free : fs.lookup directory name = none) :
    Extends fs (fs.createDirectory directory name) := by
  refine ⟨?_, ?_, ?_, ?_, ?_⟩
  · intro other otherName id found
    rw [lookup_createDirectory inside, if_neg ?_]
    · exact found
    · rintro ⟨rfl, rfl⟩
      rw [free] at found
      cases found
  · intro other otherName target _
    rw [lookup_createDirectory inside]
    split
    · rename_i same
      obtain ⟨rfl, rfl⟩ := same
      simp [free]
    · rfl
  · intro id below
    unfold createDirectory
    rw [dif_pos inside]
    exact Function.update_of_ne (by omega) _ _
  · unfold createDirectory
    rw [dif_pos inside]
  · unfold createDirectory
    rw [dif_pos inside]
    exact Nat.le_succ _

theorem extends_createFile (inside : directory < fs.nextDirectory)
    (free : fs.lookup directory name = none) : Extends fs (fs.createFile caller directory name) := by
  refine ⟨?_, ?_, ?_, ?_, ?_⟩
  · intro other otherName id found
    rw [lookup_createFile inside, if_neg ?_]
    · exact found
    · rintro ⟨rfl, rfl⟩
      rw [free] at found
      cases found
  · intro other otherName target _
    rw [lookup_createFile inside]
    split
    · rename_i same
      obtain ⟨rfl, rfl⟩ := same
      simp [free]
    · rfl
  all_goals
    unfold createFile
    rw [dif_pos inside]
  · exact fun _ _ => rfl

theorem extends_append : Extends fs (fs.append file bytes) := by
  refine ⟨?_, ?_, ?_, ?_, ?_⟩
  · intro other otherName id found
    rwa [lookup_append]
  · intro other otherName target _
    rw [lookup_append]
  all_goals
    unfold append
    split <;> simp

theorem extends_remove (removed : fs.lookup directory name = some (.file file)) :
    Extends fs (fs.remove directory name) := by
  refine ⟨?_, ?_, fun _ _ => rfl, rfl, Nat.le_refl _⟩
  · intro other otherName id found
    rw [lookup_remove, if_neg ?_]
    · exact found
    · rintro ⟨rfl, rfl⟩
      rw [removed] at found
      cases found
  · intro other otherName target _
    rw [lookup_remove]
    split
    · rename_i same
      obtain ⟨rfl, rfl⟩ := same
      simp [removed]
    · rfl

end Changes

theorem respond_readOnly {caller : Nat} {request : FileCall} (readOnly : request.ReadOnly)
    (outcome : Outcome) : (respond caller fs request outcome).2 = fs := by
  cases outcome with
  | failed => cases request <;> rfl
  | carriedOut chunk =>
      cases request with
      | lstat | stat | setMode | sync | openRead | fileLength | read | readDir => rfl
      | createDir | createNew | write | removeFile => exact readOnly.elim

theorem respond_failed (fs : FileSystem) (caller : Nat) (request : FileCall) :
    respond caller fs request .failed = (.error .other, fs) := by
  cases request <;> rfl

/-! What a call that is carried out answers. -/

section CarriedOut

variable {caller : Nat} {outcome : Outcome}

theorem respond_lstat (carried : outcome ≠ .failed) (path : Path) :
    (respond caller fs (.lstat path) outcome).1 = (fs.node false path).map Node.fileType := by
  cases outcome with
  | failed => exact absurd rfl carried
  | carriedOut chunk => rfl

theorem respond_stat (carried : outcome ≠ .failed) (path : Path) :
    (respond caller fs (.stat path) outcome).1 = (fs.node true path).map Node.fileType := by
  cases outcome with
  | failed => exact absurd rfl carried
  | carriedOut chunk => rfl

theorem respond_setMode (carried : outcome ≠ .failed) (path : Path) :
    (respond caller fs (.setMode path) outcome).1 = (fs.node true path).map fun _ => () := by
  cases outcome with
  | failed => exact absurd rfl carried
  | carriedOut chunk => rfl

theorem respond_openRead (carried : outcome ≠ .failed) (path : Path) :
    (respond caller fs (.openRead path) outcome).1 = fs.openReadAt path := by
  cases outcome with
  | failed => exact absurd rfl carried
  | carriedOut chunk => rfl

theorem respond_readDir (carried : outcome ≠ .failed) (path : Path) :
    (respond caller fs (.readDir path) outcome).1 = fs.readDirAt path := by
  cases outcome with
  | failed => exact absurd rfl carried
  | carriedOut chunk => rfl

end CarriedOut

theorem createDirAt_cases (fs : FileSystem) (path : Path) :
    (∃ directory name, fs.locate false path.unslashed = .ok (.slot directory name) ∧
      fs.lookup directory name = none ∧
      fs.createDirAt path = (.ok (), fs.createDirectory directory name)) ∨
    ¬ Vacant path.unslashed fs ∧ ∃ kind, fs.createDirAt path = (.error kind, fs) := by
  unfold createDirAt Vacant
  split
  · rename_i located
    exact .inr ⟨by simp [located], _, rfl⟩
  · rename_i located
    exact .inr ⟨by simp [located], _, rfl⟩
  · rename_i directory name located
    split
    · rename_i found
      exact .inr ⟨by simp [located, found], _, rfl⟩
    · rename_i free
      exact .inl ⟨directory, name, located, free, rfl⟩

theorem createNewAt_cases (fs : FileSystem) (caller : Nat) (path : Path) :
    (∃ directory name, fs.locate false path = .ok (.slot directory name) ∧
      fs.lookup directory name = none ∧
      fs.createNewAt caller path = (.ok fs.nextFile, fs.createFile caller directory name)) ∨
    ¬ Vacant path fs ∧ ∃ kind, fs.createNewAt caller path = (.error kind, fs) := by
  cases slashed : path.slashed with
  | true =>
      refine .inr ⟨not_vacant_of_slashed slashed, ?_⟩
      unfold createNewAt
      rw [slashed]
      split <;> exact ⟨_, rfl⟩
  | false =>
      have same : path.unslashed = path := by rw [Path.unslashed, ← slashed]
      unfold createNewAt Vacant
      simp only [slashed, same, Bool.false_eq_true, if_false]
      split
      · rename_i located
        exact .inr ⟨by simp [located], _, rfl⟩
      · rename_i located
        exact .inr ⟨by simp [located], _, rfl⟩
      · rename_i directory name located
        split
        · rename_i found
          exact .inr ⟨by simp [located, found], _, rfl⟩
        · rename_i free
          exact .inl ⟨directory, name, located, free, rfl⟩

theorem removeFileAt_cases (fs : FileSystem) (path : Path) :
    (∃ directory name node, fs.locate false path = .ok (.slot directory name) ∧
      fs.lookup directory name = some node ∧ (∀ id, node ≠ .directory id) ∧
      fs.removeFileAt path = (.ok (), fs.remove directory name)) ∨
    ∃ kind, fs.removeFileAt path = (.error kind, fs) := by
  unfold removeFileAt
  split
  · exact .inr ⟨_, rfl⟩
  · exact .inr ⟨_, rfl⟩
  · rename_i directory name located
    split
    · exact .inr ⟨_, rfl⟩
    · exact .inr ⟨_, rfl⟩
    · rename_i node plain found
      exact .inl ⟨directory, name, node, located, found, plain, rfl⟩

theorem node_createDirectory {path : Path} {directory : Nat} {name : Name}
    (located : fs.locate false path.unslashed = .ok (.slot directory name))
    (free : fs.lookup directory name = none) :
    (fs.createDirectory directory name).node false path = .ok (.directory fs.nextDirectory) := by
  have inside := slot_lt located
  refine node_slashed (node_eq_ok_iff.2 ⟨.slot directory name,
    (extends_createDirectory inside free).locate located, ?_⟩)
  rw [nodeAt, lookup_createDirectory inside]
  simp

/-! ## Types of files -/

/-- Something of this type stands at the path itself. -/
def IsType (wanted : FileType) (path : Path) (fs : FileSystem) : Prop :=
  ∃ node, fs.node false path = .ok node ∧ node.fileType = wanted

theorem IsType.directory {path : Path} {fs : FileSystem} (found : IsType .directory path fs) :
    ∃ id, fs.node false path = .ok (.directory id) := by
  obtain ⟨node, found, type⟩ := found
  cases node with
  | directory id => exact ⟨id, found⟩
  | file | symlink | special => cases type

theorem IsType.file {path : Path} {fs : FileSystem} (found : IsType .file path fs) :
    ∃ id, fs.node false path = .ok (.file id) := by
  obtain ⟨node, found, type⟩ := found
  cases node with
  | file id => exact ⟨id, found⟩
  | directory | symlink | special => cases type

theorem IsType.extends {path : Path} {fs later : FileSystem} (extended : Extends fs later)
    (found : IsType .directory path fs) : IsType .directory path later := by
  obtain ⟨id, found⟩ := found.directory
  exact ⟨.directory id, extended.node_directory found, rfl⟩

theorem IsType.plain {wanted : FileType} (real : wanted ≠ .symlink) {path : Path}
    {fs : FileSystem} (found : IsType wanted path fs) :
    ∃ node, fs.node false path = .ok node ∧ ∀ target, node ≠ .symlink target := by
  obtain ⟨node, found, type⟩ := found
  refine ⟨node, found, ?_⟩
  rintro target rfl
  exact real type.symm

end Sealed.Foundation.FileSystem
