import Mathlib.Data.List.Rotate
import Mathlib.Data.Nat.ModEq

/-!
# A window of a ring

The elements of a ring from a position on, in their order around it. What is written
behind a window that does not fill the ring becomes its last element, and the window
that starts one further has lost its first.
-/

namespace PlatformService.Lib.Ring

variable {A : Type}

/-- Some elements of a ring, from a position on. -/
def window (slots : List A) (head count : Nat) : List A := (slots.rotate head).take count

/-- Nothing is in an empty window. -/
@[simp]
theorem window_zero (slots : List A) (head : Nat) : window slots head 0 = [] := List.take_zero

/-- A position counts modulo the length of the ring. -/
theorem window_mod (slots : List A) (head count : Nat) :
    window slots (head % slots.length) count = window slots head count := by
  unfold window
  rw [List.rotate_mod]

/-- Writing to a slot of a ring, seen from a position. -/
theorem rotate_set {slots : List A} {head offset : Nat} (inside : offset < slots.length) (value : A) :
    (slots.set ((head + offset) % slots.length) value).rotate head =
      (slots.rotate head).set offset value := by
  apply List.ext_getElem
  · rw [List.length_rotate, List.length_set, List.length_set, List.length_rotate]
  · intro i left right
    rw [List.length_rotate, List.length_set] at left
    rw [List.getElem_rotate, List.getElem_set, List.getElem_set, List.getElem_rotate]
    have same : (head + offset) % slots.length = (i + head) % (slots.set
        ((head + offset) % slots.length) value).length ↔ offset = i := by
      rw [List.length_set]
      constructor
      · intro congruent
        have shifted : (head + offset) % slots.length = (head + i) % slots.length := by
          rw [congruent, Nat.add_comm]
        have cancelled : offset % slots.length = i % slots.length :=
          Nat.ModEq.add_left_cancel' head shifted
        rwa [Nat.mod_eq_of_lt inside, Nat.mod_eq_of_lt left] at cancelled
      · intro equal
        rw [equal, Nat.add_comm]
    by_cases hit : offset = i
    · rw [if_pos hit, if_pos (same.mpr hit)]
    · rw [if_neg hit, if_neg fun equal => hit (same.mp equal)]
      congr 2
      rw [List.length_set]

/-- What is written behind a window becomes its last element. -/
theorem window_push {slots : List A} {head count : Nat} (room : count < slots.length) (value : A) :
    window (slots.set ((head + count) % slots.length) value) head (count + 1) =
      window slots head count ++ [value] := by
  have inside : count < (slots.rotate head).length := by
    rw [List.length_rotate]
    exact room
  unfold window
  rw [rotate_set room, List.take_add_one, List.take_set_of_le (Nat.le_refl _),
    List.getElem?_set_self inside]
  rfl

/-- A window is its first element and the window that starts one further. -/
theorem window_pop {slots : List A} {head count : Nat} {value : A} (fits : count < slots.length)
    (first : slots[head % slots.length]? = some value) :
    window slots head (count + 1) = value :: window slots (head + 1) count := by
  have read : (slots.rotate head)[0]? = some value := by
    rw [List.getElem?_rotate (by omega), Nat.zero_add]
    exact first
  unfold window
  cases turned : slots.rotate head with
  | nil =>
    rw [turned] at read
    contradiction
  | cons top rest =>
    rw [turned] at read
    have same : top = value := Option.some.inj read
    have size := congrArg List.length turned
    rw [List.length_rotate, List.length_cons] at size
    have next : slots.rotate (head + 1) = rest ++ [top] := by
      rw [← List.rotate_rotate, turned, List.rotate_cons_succ, List.rotate_zero]
    rw [List.take_succ_cons, next, List.take_append_of_le_length (by omega), same]

end PlatformService.Lib.Ring
