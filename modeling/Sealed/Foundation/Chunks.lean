import Mathlib.Data.List.Basic

/-! Lists cut into chunks, and chunks joined by a separator. -/

set_option autoImplicit false

namespace Sealed.Foundation

variable {α β : Type}

/-- The chunks of a list, at most so many. -/
def chunksWithin (size : Nat) : Nat → List α → List (List α)
  | 0, _ | _ + 1, [] => []
  | rounds + 1, list => list.take size :: chunksWithin size rounds (list.drop size)

/-- `slice::chunks`. A chunk has an element, so as many rounds as there are elements
suffice. -/
def chunks (size : Nat) (list : List α) : List (List α) := chunksWithin size list.length list

theorem chunksWithin_of_ne_nil {size rounds : Nat} {list : List α} (filled : list ≠ []) :
    chunksWithin size (rounds + 1) list =
      list.take size :: chunksWithin size rounds (list.drop size) := by
  cases list with
  | nil => exact absurd rfl filled
  | cons element rest => rfl

theorem flatten_chunksWithin {size rounds : Nat} {list : List α} (positive : 0 < size)
    (enough : list.length ≤ rounds) : (chunksWithin size rounds list).flatten = list := by
  induction rounds generalizing list with
  | zero =>
      obtain rfl : list = [] := List.eq_nil_of_length_eq_zero (by omega)
      rfl
  | succ rounds ih =>
      by_cases filled : list = []
      · rw [filled]
        rfl
      · have shorter : (list.drop size).length ≤ rounds := by
          rw [List.length_drop]
          omega
        rw [chunksWithin_of_ne_nil filled, List.flatten_cons, ih shorter, List.take_append_drop]

theorem flatten_chunks {size : Nat} (positive : 0 < size) (list : List α) :
    (chunks size list).flatten = list :=
  flatten_chunksWithin positive (Nat.le_refl _)

theorem chunksWithin_exact {size rounds count : Nat} {list : List α} (positive : 0 < size)
    (enough : list.length ≤ rounds) (length : list.length = count * size) :
    (chunksWithin size rounds list).length = count ∧
      ∀ chunk ∈ chunksWithin size rounds list, chunk.length = size := by
  induction rounds generalizing list count with
  | zero =>
      have none : count * size = 0 := by omega
      rcases Nat.mul_eq_zero.1 none with rfl | zero
      · exact ⟨rfl, nofun⟩
      · omega
  | succ rounds ih =>
      cases count with
      | zero =>
          obtain rfl : list = [] := List.eq_nil_of_length_eq_zero (by omega)
          exact ⟨rfl, nofun⟩
      | succ count =>
          rw [Nat.succ_mul] at length
          have filled : list ≠ [] := by
            rintro rfl
            simp only [List.length_nil] at length
            omega
          have rest : (list.drop size).length = count * size := by
            rw [List.length_drop]
            omega
          obtain ⟨number, sizes⟩ := ih (by rw [List.length_drop]; omega) rest
          rw [chunksWithin_of_ne_nil filled]
          refine ⟨by rw [List.length_cons, number], ?_⟩
          intro chunk member
          rcases List.mem_cons.1 member with rfl | later
          · rw [List.length_take]
            omega
          · exact sizes chunk later

/-- A list whose length is a multiple of the size has no shorter chunk at its end. -/
theorem chunks_exact {size count : Nat} {list : List α} (positive : 0 < size)
    (length : list.length = count * size) :
    (chunks size list).length = count ∧ ∀ chunk ∈ chunks size list, chunk.length = size :=
  chunksWithin_exact positive (Nat.le_refl _) length

/-! ## Joining -/

theorem intercalate_cons (separator first : List α) (rest : List (List α)) :
    separator.intercalate (first :: rest) = first ++ rest.flatMap (separator ++ ·) := by
  induction rest generalizing first with
  | nil => simp
  | cons second rest ih =>
      rw [List.intercalate_cons_cons, ih, List.flatMap_cons, List.append_assoc, List.append_assoc]

/-- A loop that writes the separator in front of every group but the one with index zero. -/
theorem foldl_zipIdx_eq_intercalate (separator : List β) (write : List α → List β)
    (groups : List (List α)) :
    groups.zipIdx.foldl (fun output (group, index) =>
      (if index ≠ 0 then output ++ separator else output) ++ write group) [] =
        separator.intercalate (groups.map write) := by
  have later : ∀ (rest : List (List α)) (index : Nat) (output : List β), index ≠ 0 →
      (rest.zipIdx index).foldl (fun output (group, index) =>
        (if index ≠ 0 then output ++ separator else output) ++ write group) output =
          output ++ (rest.map write).flatMap (separator ++ ·) := by
    intro rest
    induction rest with
    | nil => simp
    | cons group rest ih =>
        intro index output behind
        rw [List.zipIdx_cons, List.foldl_cons, ih _ _ (Nat.succ_ne_zero index)]
        simp [behind]
  cases groups with
  | nil => rfl
  | cons first rest =>
      rw [List.map_cons, intercalate_cons, List.zipIdx_cons, List.foldl_cons,
        later _ _ _ Nat.one_ne_zero]
      rfl

theorem length_intercalate (separator : α) (first : List α) (rest : List (List α)) :
    ([separator].intercalate (first :: rest)).length =
      (first :: rest).flatten.length + rest.length := by
  induction rest generalizing first with
  | nil => simp
  | cons second rest ih =>
      rw [List.intercalate_cons_cons, List.length_append, List.length_append, ih]
      simp only [List.flatten_cons, List.length_append, List.length_cons, List.length_nil]
      omega

theorem filter_intercalate [DecidableEq α] {separator : α} {groups : List (List α)}
    (apart : ∀ group ∈ groups, separator ∉ group) :
    ([separator].intercalate groups).filter (· ≠ separator) = groups.flatten := by
  induction groups with
  | nil => rfl
  | cons first rest ih =>
      have kept : first.filter (· ≠ separator) = first := by
        rw [List.filter_eq_self]
        intro element inside
        simpa using fun same : element = separator => apart first (by simp) (same ▸ inside)
      cases rest with
      | nil => simpa using kept
      | cons second rest =>
          rw [List.intercalate_cons_cons, List.filter_append, List.filter_append, kept,
            ih fun group member => apart group (List.mem_cons_of_mem _ member)]
          simp

theorem head?_intercalate {separator : α} {first : List α} {rest : List (List α)}
    (filled : first ≠ []) : ([separator].intercalate (first :: rest)).head? = first.head? := by
  rw [intercalate_cons]
  cases first with
  | nil => exact absurd rfl filled
  | cons element first => rfl

theorem getLast?_intercalate {separator : α} {front : List (List α)} {last : List α}
    (filled : last ≠ []) :
    ([separator].intercalate (front ++ [last])).getLast? = last.getLast? := by
  cases front with
  | nil => simp
  | cons first front =>
      rw [List.cons_append, intercalate_cons, List.flatMap_append]
      cases last with
      | nil => exact absurd rfl filled
      | cons element last =>
          simp [List.getLast?_append, List.getLast?_cons_cons, List.getLast?_eq_some_getLast filled]

end Sealed.Foundation
