import Sealed.Callers
import Sealed.Foundation.FileSystemGrowth

/-! Private files are created exclusively and written front to back: after a failure at any
call they hold a prefix of their bytes, under the name they were created with. -/

set_option autoImplicit false

namespace Sealed.Storage

open Foundation FileSystem

variable {caller : Nat} {contract : Contract FileSystem}

/-- What writing `rest` to the end of the file does to it, and says. -/
structure Appended (caller : Nat) (path : Path) (file : Nat) (rest : List UInt8)
    (world : FileSystem) (events : List FileEvent) (later : FileSystem)
    (result : Checked Error Unit) : Prop where
  requests : ∀ event ∈ events, event.request.ReadOnly ∨
    ∃ bytes, event.request = .write file bytes
  holding : Holding caller path file later
  contents : ∃ front, front <+: rest ∧ later.contents file = world.contents file ++ front ∧
    (result = .ok () → front = rest)
  ran : RanThrough events result
  clean : Clean events → result = .ok ()

theorem Appended.nil (respects : Respects caller contract) {path : Path} {file : Nat}
    {world later : FileSystem} (holding : Holding caller path file world)
    (relied : contract.rely world later) :
    Appended caller path file [] world [] later (.ok ()) where
  requests := List.forall_mem_nil _
  holding := holding.relied respects relied
  contents := ⟨[], List.nil_prefix,
    by rw [holding.contents respects relied, List.append_nil], fun _ => rfl⟩
  ran := List.forall_mem_nil _
  clean := fun _ => rfl

theorem Appended.look (respects : Respects caller contract) {path : Path} {file : Nat}
    {rest : List UInt8} {world middle later : FileSystem} {first second : List FileEvent}
    {result : Checked Error Unit}
    (appended : Appended caller path file rest world first middle (.ok ()))
    (looked : Looked contract middle later second) (ran : RanThrough second result)
    (clean : Clean second → result = .ok ()) :
    Appended caller path file rest world (first ++ second) later result := by
  obtain ⟨requests, holding, ⟨front, prefixed, holds, all⟩, early, _⟩ := appended
  refine ⟨?_, holding.relied respects looked.relied, ⟨front, prefixed, ?_, fun _ => all rfl⟩,
    early.append ran, fun both => clean (clean_append.1 both).2⟩
  · intro event member
    rcases List.mem_append.1 member with member | member
    · exact requests event member
    · exact .inl (looked.readOnly event member)
  · rw [holding.contents respects looked.relied, holds]

/-- Induction on the rounds: the file holds what was written so far, and every round
writes the next bytes behind it. -/
theorem meets_writeAll (respects : Respects caller contract)
    (idle : ∀ moment, contract.guarantee moment moment) {path : Path} {file : Nat}
    {total : List UInt8}
    (append : ∀ moment chunk, Holding caller path file moment →
      moment.contents file ++ chunk <+: total →
        contract.guarantee moment (moment.append file chunk))
    {rounds : Nat} :
    ∀ {world : FileSystem} {rest : List UInt8}, rest.length ≤ rounds →
      Holding caller path file world → world.contents file ++ rest = total →
        Meets caller contract (Appended caller path file rest world)
          (writeAll file rounds rest) world := by
  induction rounds with
  | zero =>
      intro world rest short holding whole
      obtain rfl := List.length_eq_zero_iff.1 (Nat.le_zero.1 short)
      exact fun later relied => .nil respects holding relied
  | succ rounds ih =>
      intro world rest short holding whole
      cases rest with
      | nil => exact fun later relied => .nil respects holding relied
      | cons byte rest =>
          refine meets_bind (meets_perform (.write file (byte :: rest)) ?_)
          intro moment relied outcome
          have here := holding.relied respects relied
          have same := holding.contents respects relied
          cases outcome with
          | failed =>
              rw [respond_failed]
              refine ⟨idle moment, fun later before final after => ?_⟩
              have relied' := contract.rely_trans before after
              refine ⟨?_, here.relied respects relied', ⟨[], List.nil_prefix, ?_, nofun⟩,
                ⟨[], _, rfl, List.forall_mem_nil _, nofun⟩, ?_⟩
              · intro event member
                rw [List.mem_singleton.1 member]
                exact .inr ⟨_, rfl⟩
              · rw [here.contents respects relied', same, List.append_nil]
              · exact fun clean => absurd rfl (clean _ List.mem_cons_self)
          | carriedOut chunk =>
              let written := min (chunk + 1) (byte :: rest).length
              have positive : written ≠ 0 := by
                simp only [written, List.length_cons]
                omega
              have inside : file < moment.nextFile := by
                obtain ⟨_, _, _, _, created⟩ := here
                exact creators_lt created
              have taken : (byte :: rest).take (chunk + 1) = (byte :: rest).take written := by
                rw [List.take_eq_take_iff]
                simp only [written, List.length_cons]
                omega
              have step : FileSystem.respond caller moment (.write file (byte :: rest))
                  (.carriedOut chunk) =
                    (.ok written, moment.append file ((byte :: rest).take written)) := by
                rw [← taken]
                rfl
              rw [step]
              refine ⟨append moment _ here ?_, fun later after => ?_⟩
              · rw [same, ← whole]
                exact (List.prefix_append_right_inj _).2 (List.take_prefix _ _)
              · have holding' : Holding caller path file later :=
                  here.append.relied respects after
                have contents' : later.contents file =
                    world.contents file ++ (byte :: rest).take written := by
                  rw [here.append.contents respects after, contents_append, if_pos ⟨rfl, inside⟩,
                    same]
                change Meets _ _ _ (if written = 0 then _ else _) _
                rw [if_neg positive]
                have whole' : later.contents file ++ (byte :: rest).drop written = total := by
                  rw [contents', List.append_assoc, List.take_append_drop, whole]
                refine (ih ?_ holding' whole').consequence ?_
                · simp only [List.length_drop, List.length_cons] at short ⊢
                  omega
                · rintro events final result ⟨requests, still, ⟨front, prefixed, holds, all⟩, ran,
                    clean⟩
                  refine ⟨?_, still, ⟨(byte :: rest).take written ++ front, ?_, ?_, ?_⟩, ?_, ?_⟩
                  · intro event member
                    rcases List.mem_cons.1 member with rfl | member
                    · exact .inr ⟨_, rfl⟩
                    · exact requests event member
                  · conv => rhs; rw [← List.take_append_drop written (byte :: rest)]
                    exact (List.prefix_append_right_inj _).2 prefixed
                  · rw [holds, contents', List.append_assoc]
                  · intro ok
                    rw [all ok, List.take_append_drop]
                  · refine RanThrough.append (?_ : RanThrough _ (.ok () : Checked Error Unit)) ran
                    simpa [RanThrough] using ⟨written, rfl⟩
                  · exact fun allClean => clean (clean_append.1 allClean).2

theorem meets_fill (respects : Respects caller contract)
    (idle : ∀ moment, contract.guarantee moment moment) {path : Path} {file : Nat}
    {world : FileSystem} (bytes : List UInt8)
    (append : ∀ moment chunk, Holding caller path file moment →
      moment.contents file ++ chunk <+: world.contents file ++ bytes →
        contract.guarantee moment (moment.append file chunk))
    (holding : Holding caller path file world) :
    Meets caller contract (Appended caller path file bytes world)
      (do
        writeAll file bytes.length bytes
        perform (.sync file)
        setPrivatePermissions path) world := by
  refine meets_then (meets_writeAll respects idle append (Nat.le_refl _) holding rfl) ?_ ?_
  · rintro first written _ appended
    refine meets_then (meets_look (.sync file) trivial idle) ?_ ?_
    · rintro second synced _ ⟨looked, ran, _⟩
      have appended' := appended.look respects looked ran fun _ => rfl
      refine (meets_setPrivatePermissions idle path).consequence ?_
      rintro third later result ⟨looked', ran', clean⟩
      have complete := appended'.look respects looked' ran' fun allClean =>
        clean allClean fun moment relied =>
          (appended'.holding.relied respects relied).isType.plain (by decide)
      rwa [List.append_assoc] at complete
    · rintro second synced stopped ⟨looked, ran, _, outcome, _, _, rfl, reply⟩ later relied
      refine appended.look respects (looked.until relied) ran fun clean => ?_
      cases outcome with
      | failed => exact absurd rfl (clean _ List.mem_cons_self)
      | carriedOut chunk => cases reply
  · rintro first written stopped ⟨requests, still, contents, ran, clean⟩ later relied
    obtain ⟨front, prefixed, holds, _⟩ := contents
    exact ⟨requests, still.relied respects relied,
      ⟨front, prefixed, by rw [still.contents respects relied, holds], nofun⟩, ran,
      fun allClean => nomatch clean allClean⟩

/-! ## Exclusive creation -/

/-- What `write_new_private` does and says. -/
structure Written (caller : Nat) (contract : Contract FileSystem) (path : Path)
    (bytes : List UInt8) (world : FileSystem) (events : List FileEvent) (later : FileSystem)
    (result : Checked Error Unit) : Prop where
  requests : ∀ event ∈ events, event.request.ReadOnly ∨ event.request = .createNew path ∨
    ∃ file chunk, event.request = .write file chunk
  moved : (¬ Succeeded (.createNew path) events ∧ contract.rely world later ∧
      ∃ stopped, result = .error stopped) ∨
    (Succeeded (.createNew path) events ∧ ∃ moment, contract.rely world moment ∧
      Vacant path moment ∧ Holding caller path moment.nextFile later ∧
      ∃ front, front <+: bytes ∧ later.contents moment.nextFile = front ∧
        (result = .ok () → front = bytes))
  ran : (Succeeded (.createNew path) events ∨ ∀ moment, contract.rely world moment →
    IsType .directory (parentOrHere path) moment) → RanThrough events result
  clean : Clean events → (∀ moment, contract.rely world moment →
    IsType .directory (parentOrHere path) moment ∧ Vacant path moment) → result = .ok ()

theorem meets_writeNewPrivate (respects : Respects caller contract)
    (idle : ∀ moment, contract.guarantee moment moment) {path : Path} {bytes : List UInt8}
    {world : FileSystem}
    (create : ∀ moment directory name, contract.rely world moment →
      moment.locate false path = .ok (.slot directory name) →
        moment.lookup directory name = none →
          contract.guarantee moment (moment.createFile caller directory name))
    (append : ∀ moment file chunk, world.creators file ≠ some caller →
      Holding caller path file moment → moment.contents file ++ chunk <+: bytes →
        contract.guarantee moment (moment.append file chunk)) :
    Meets caller contract (Written caller contract path bytes world) (writeNewPrivate path bytes)
      world := by
  refine meets_then (meets_ensureFileType idle (by decide) (parentOrHere path) _) ?_ ?_
  · rintro first checked _ ⟨looked, passed, _⟩
    obtain ⟨ran, _⟩ := passed rfl
    have notYet : ¬ Succeeded (.createNew path) first := looked.not_succeeded _ id
    refine meets_then (meets_make (.createNew path) idle
      (fun moment _ => createNewAt_cases moment caller path)
      fun moment directory name relied =>
        create moment directory name (contract.rely_trans looked.relied relied)) ?_ ?_
    · rintro second created _ ⟨moment, outcome, before, rfl, made | ⟨⟨_, ⟨⟩⟩, _⟩⟩
      obtain ⟨⟨⟩, didMake, directory, name, located, free, after⟩ := made
      have holding := holding_createFile caller located free
      have empty : created.contents moment.nextFile = [] := by
        rw [holding.contents respects after, contents_createFile]
        exact (moment.unusedFiles _ (Nat.le_refl _)).1
      have fresh := respects.fresh (contract.rely_trans looked.relied before)
      refine (meets_fill respects idle bytes (fun moment chunk holding fits =>
        append moment _ chunk fresh holding (by rwa [empty] at fits))
        (holding.relied respects after)).consequence ?_
      rintro third later result ⟨requests, still, ⟨front, prefixed, holds, all⟩, ran', clean⟩
      refine ⟨?_, .inr ⟨?_, moment, contract.rely_trans looked.relied before,
        ⟨directory, name, located, free⟩, still, front, prefixed, ?_, all⟩, fun _ => ?_, ?_⟩
      · intro event member
        rcases List.mem_append.1 member with member | member
        · exact .inl (looked.readOnly event member)
        · rcases List.mem_cons.1 member with rfl | member
          · exact .inr (.inl rfl)
          · exact (requests event member).imp_right fun ⟨chunk, request⟩ =>
              .inr ⟨_, chunk, request⟩
      · exact succeeded_append.2 (.inr (succeeded_append.2 (.inl didMake)))
      · rw [holds, empty, List.nil_append]
      · refine ran.append (RanThrough.append (?_ : RanThrough _ (.ok () : Checked Error Unit)) ran')
        intro event member
        obtain ⟨other, among, _, answered⟩ := didMake
        rw [List.mem_singleton.1 among] at answered
        rw [List.mem_singleton.1 member]
        exact answered
      · exact fun allClean _ => clean (clean_append.1 (clean_append.1 allClean).2).2
    · rintro second middle stopped ⟨moment, outcome, before, rfl, ⟨⟨⟩, _⟩ | refused⟩ later relied
      obtain ⟨_, ran', notMade, after, unable⟩ := refused
      refine ⟨?_, .inl ⟨?_, ?_, _, rfl⟩, fun _ => ran.append ran', ?_⟩
      · intro event member
        rcases List.mem_append.1 member with member | member
        · exact .inl (looked.readOnly event member)
        · rw [List.mem_singleton.1 member]
          exact .inr (.inl rfl)
      · rw [succeeded_append, not_or]
        exact ⟨notYet, notMade⟩
      · exact contract.rely_trans looked.relied
          (contract.rely_trans before (contract.rely_trans after relied))
      · intro clean always
        exact absurd (always moment (contract.rely_trans looked.relied before)).2
          (unable (clean_append.1 clean).2)
  · rintro first middle stopped ⟨looked, _, known, _⟩ later relied
    have notYet : ¬ Succeeded (.createNew path) first := looked.not_succeeded _ id
    refine ⟨fun event member => .inl (looked.readOnly event member),
      .inl ⟨notYet, contract.rely_trans looked.relied relied, _, rfl⟩, ?_, ?_⟩
    · rintro (done | always)
      · exact absurd done notYet
      · exact (known always).1
    · intro clean always
      cases (known fun moment relied => (always moment relied).1).2 clean

section WithFile

variable {path : Path} {fs : FileSystem}

theorem keeping_withFile (vacant : Vacant path fs) (bytes : List UInt8) :
    Keeping caller path fs.nextFile bytes (fs.withFile caller path bytes) := by
  obtain ⟨directory, name, located, free, same⟩ := withFile_of_vacant caller vacant bytes
  have inside := slot_lt located
  rw [same]
  refine ⟨(holding_createFile _ located free).append, ?_⟩
  rw [contents_append, nextFile_createFile inside, if_pos ⟨rfl, Nat.lt_succ_self _⟩,
    contents_createFile, (fs.unusedFiles _ (Nat.le_refl _)).1, List.nil_append]

theorem extends_withFile (vacant : Vacant path fs) (bytes : List UInt8) :
    Extends fs (fs.withFile caller path bytes) := by
  obtain ⟨directory, name, located, free, same⟩ := withFile_of_vacant caller vacant bytes
  rw [same]
  exact (extends_createFile (slot_lt located) free).trans extends_append

theorem Holding.same {first second : Nat} (left : Holding caller path first fs)
    (right : Holding caller path second fs) : first = second := by
  have same := left.node.symm.trans right.node
  cases same
  rfl

theorem Holding.filled {file : Nat} (holding : Holding caller path file fs) :
    ¬ Vacant path fs := by
  intro vacant
  have found := holding.node
  rw [node_of_vacant vacant] at found
  cases found

end WithFile

/-- The caller's own new file, among the files that the frame keeps. A program alone leaves
the file with its bytes and nothing else. -/
theorem meets_writeNew (respects : Respects caller contract)
    (steps : ∀ before after, Step caller before after → contract.guarantee before after)
    {path : Path} {bytes : List UInt8} {world : FileSystem} {holds : FileSystem → Prop}
    (start : holds world)
    (kept : ∀ before after, Respected caller before after → holds before → holds after)
    (appended : ∀ moment file chunk, world.creators file ≠ some caller → holds moment →
      holds (moment.append file chunk)) :
    Meets caller contract
      (fun events later result => Written caller contract path bytes world events later result ∧
        holds later ∧ (Alone contract → result = .ok () → Vacant path world ∧
          later = world.withFile caller path bytes))
      (writeNewPrivate path bytes) world := by
  -- Alone, the world is as it was, or it has the file with some of its bytes.
  let grown (fs : FileSystem) : Prop := fs = world ∨
    Vacant path world ∧ ∃ front, fs = world.withFile caller path front
  let frame (fs : FileSystem) : Prop := holds fs ∧ (Alone contract → grown fs)
  let framing := contract.guaranteeing fun before after =>
    contract.guarantee before after ∧ (frame before → frame after)
  have idle : ∀ moment, framing.guarantee moment moment := fun moment =>
    ⟨steps _ _ (.idle moment), id⟩
  have unframed : Meets caller framing (Written caller framing path bytes world)
      (writeNewPrivate path bytes) world :=
    meets_writeNewPrivate (show Respects caller framing from respects) idle ?create ?append
  have framed := Program.Meets.keeping unframed (show frame world from ⟨start, fun _ => .inl rfl⟩)
    ?rely
  case create =>
    intro moment directory name _ located free
    refine ⟨steps _ _ (.createFile moment directory name (slot_lt located) free), ?_⟩
    rintro ⟨held, onlyGrown⟩
    refine ⟨kept _ _ (respected_createFile (slot_lt located) free) held, fun alone => .inr ?_⟩
    rcases onlyGrown alone with rfl | ⟨vacant, front, rfl⟩
    · have vacant : Vacant path moment := ⟨directory, name, located, free⟩
      obtain ⟨_, _, located', _, same⟩ := withFile_of_vacant caller vacant []
      cases located.symm.trans located'
      exact ⟨vacant, [], by rw [same, append_nil]⟩
    · exact absurd ⟨directory, name, located, free⟩ (keeping_withFile vacant front).1.filled
  case append =>
    intro moment file chunk fresh holding _
    have own : moment.creators file = some caller := by
      obtain ⟨_, _, _, _, created⟩ := holding
      exact created
    refine ⟨steps _ _ (.append moment file chunk own), ?_⟩
    rintro ⟨held, onlyGrown⟩
    refine ⟨appended moment file chunk fresh held, fun alone => ?_⟩
    rcases onlyGrown alone with rfl | ⟨vacant, front, rfl⟩
    · exact absurd own fresh
    · have same := holding.same (keeping_withFile vacant front).1
      obtain ⟨_, _, located, _, before⟩ := withFile_of_vacant caller vacant front
      obtain ⟨_, _, located', _, after⟩ :=
        withFile_of_vacant caller vacant (front ++ chunk)
      cases located.symm.trans located'
      refine .inr ⟨vacant, front ++ chunk, ?_⟩
      rw [after, before, same, append_append]
  case rely =>
    rintro before after relied ⟨held, onlyGrown⟩
    refine ⟨kept _ _ (respects _ _ relied) held, fun alone => ?_⟩
    rw [alone _ _ relied]
    exact onlyGrown alone
  refine framed.consequence ?_
  rintro events later result ⟨⟨requests, moved, ran, clean⟩, held, onlyGrown⟩
  refine ⟨⟨requests, moved, ran, clean⟩, held, ?_⟩
  rintro alone rfl
  rcases moved with ⟨_, _, _, ⟨⟩⟩ | ⟨_, moment, before, vacant, holding, front, _, contents, whole⟩
  cases alone _ _ before
  refine ⟨vacant, ?_⟩
  rcases onlyGrown alone with rfl | ⟨_, written, rfl⟩
  · exact absurd vacant holding.filled
  · rw [(keeping_withFile vacant written).2] at contents
    rw [contents, whole rfl]

end Sealed.Storage
