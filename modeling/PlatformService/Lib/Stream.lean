import Mathlib.Data.List.Basic

/-!
# Texts one after the other

A reader takes a value off the front of a stream and leaves the rest. A text that it takes as a
value whatever follows is delimited by itself, so texts that are written one after the other are
read back one by one.
-/

namespace PlatformService.Lib.Stream

variable {S V : Type}

/-- A reader takes a text off the front of every stream that starts with it, as a value. -/
def Takes (read : List S → Option (V × List S)) (text : List S) (value : V) : Prop :=
  ∀ rest, read (text ++ rest) = some (value, rest)

/-- The values read in some turns, and what is left of the stream. -/
def readMany (read : List S → Option (V × List S)) : Nat → List S → List V × List S
  | 0, stream => ([], stream)
  | turns + 1, stream =>
    match read stream with
    | none => ([], stream)
    | some (value, rest) => (value :: (readMany read turns rest).1, (readMany read turns rest).2)

variable {read : List S → Option (V × List S)}

/-- Nothing is read of a stream on which the reader finds no value. -/
theorem readMany_of_none {stream : List S} (stuck : read stream = none) (turns : Nat) :
    readMany read turns stream = ([], stream) := by
  cases turns with
  | zero => rfl
  | succ turns => simp only [readMany, stuck]

/-- Delimited texts are read back one by one, and then what follows them. -/
theorem readMany_texts {texts : List (List S)} {values : List V}
    (taken : List.Forall₂ (Takes read) texts values) (turns : Nat) (rest : List S) :
    readMany read (texts.length + turns) (texts.flatten ++ rest) =
      (values ++ (readMany read turns rest).1, (readMany read turns rest).2) := by
  induction taken with
  | nil => simp
  | @cons text value texts values takes _ ih =>
    have count : (text :: texts).length + turns = texts.length + turns + 1 := by
      simp only [List.length_cons]
      omega
    have first := takes (texts.flatten ++ rest)
    rw [count, List.flatten_cons, List.append_assoc]
    simp only [readMany, first, ih, List.cons_append]

/-- The values of a whole stream, and what is left of it: a value takes at least one symbol. -/
def readAll (read : List S → Option (V × List S)) (stream : List S) : List V × List S :=
  readMany read stream.length stream

/-- Delimited texts are not empty if nothing is read of nothing, so they are at most as many as their
symbols. -/
theorem length_le_flatten {texts : List (List S)} {values : List V}
    (taken : List.Forall₂ (Takes read) texts values) (stuck : read [] = none) :
    texts.length ≤ texts.flatten.length := by
  induction taken with
  | nil => simp
  | @cons text value texts values takes _ ih =>
    have filled : text ≠ [] := by
      rintro rfl
      simpa [stuck] using takes []
    have size := List.length_pos_iff.mpr filled
    simp only [List.length_cons, List.flatten_cons, List.length_append]
    omega

/-- A stream of delimited texts is read back as their values, and what follows them is left where
nothing can be read of it. -/
theorem readAll_texts {texts : List (List S)} {values : List V}
    (taken : List.Forall₂ (Takes read) texts values) (stuck : read [] = none) {rest : List S}
    (ends : read rest = none) : readAll read (texts.flatten ++ rest) = (values, rest) := by
  have few : texts.length ≤ (texts.flatten ++ rest).length := by
    have least := length_le_flatten taken stuck
    rw [List.length_append]
    omega
  obtain ⟨turns, count⟩ := Nat.exists_eq_add_of_le few
  unfold readAll
  rw [count, readMany_texts taken, readMany_of_none ends]
  simp

end PlatformService.Lib.Stream
