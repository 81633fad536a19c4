import Mathlib.Logic.Relation
import PlatformService.Http.Slices

/-!
# The header loop

The header block is found by a scan for `CRLFCRLF` from the end of the request line on, and
cut into lines by a scan for `CRLF` from each line on. Every cursor of the loop stands
behind a `CRLF` in front of the terminator, or on the end of the block: an empty line
would be a terminator before the one that was found.
-/

namespace PlatformService.Verif.HeaderLoop

open Lib Http

/-- A turn of the header loop that goes on behind its line. -/
inductive Turn (limits : Limits) (data : Bytes) (blockEnd : Nat) :
    HeaderPositions × Nat → HeaderPositions × Nat → Prop where
  | line {state next : HeaderPositions} {cursor lineEnd : Nat} (inside : cursor < blockEnd)
      (found : findCrlf data blockEnd cursor = some lineEnd)
      (read : sliceHeaderLine limits data state cursor lineEnd = .ok next) :
      Turn limits data blockEnd (state, cursor) (next, lineEnd + 2)

/-- The states and cursors with which the loop condition is checked. -/
abbrev Reached (limits : Limits) (data : Bytes) (blockEnd : Nat) :
    HeaderPositions × Nat → HeaderPositions × Nat → Prop :=
  Relation.ReflTransGen (Turn limits data blockEnd)

/-- What holds of the cursor in an iteration: it is at the start of a line inside the block, the line
ends inside the block, it is not empty, and the next cursor is behind it. -/
structure Iteration (data : Bytes) (headerStart blockEnd cursor : Nat) : Prop where
  inside : headerStart ≤ cursor ∧ cursor < blockEnd
  begins : 2 ≤ cursor ∧ occursAt [13, 10] data (cursor - 2) = true
  ends : ∃ lineEnd, findCrlf data blockEnd cursor = some lineEnd ∧ cursor < lineEnd ∧
    cursor < lineEnd + 2 ∧ lineEnd + 2 ≤ blockEnd

/-- The invariant of the loop: the cursor stands behind a `CRLF` between the end of the request line
and the terminator. -/
def Stands (data : Bytes) (lineEnd terminator cursor : Nat) : Prop :=
  ∃ before, cursor = before + 2 ∧ lineEnd ≤ before ∧ before ≤ terminator ∧
    occursAt [13, 10] data before = true

/-- Two line ends do not overlap. -/
theorem not_occursAt_succ {data : Bytes} {i : Nat} (here : occursAt [13, 10] data i = true) :
    occursAt [13, 10] data (i + 1) = false := by
  have parts : occursAt ([13] ++ [10]) data i = true := here
  have feed := (occursAt_append_iff.mp parts).2
  by_contra both
  have next : occursAt ([13] ++ [10]) data (i + 1) = true := by simpa using both
  have carriage := (occursAt_append_iff.mp next).1
  rw [List.length_singleton, occursAt_iff] at feed
  rw [occursAt_iff] at carriage
  obtain ⟨rest, shape⟩ := feed
  obtain ⟨other, same⟩ := carriage
  rw [← shape] at same
  cases same

section

variable {limits : Limits} {data : Bytes} {lineEnd terminator limit cursor : Nat}

/-- The first cursor stands behind the request line. -/
theorem stands_start (line : occursAt [13, 10] data lineEnd = true)
    (found : firstOccurrence [13, 10, 13, 10] data lineEnd limit = some terminator) :
    Stands data lineEnd terminator (lineEnd + 2) := by
  have bounds := (firstOccurrence_eq_some.mp found).1
  exact ⟨lineEnd, rfl, Nat.le_refl _, bounds.1, line⟩

/-- At a cursor inside the block a line that is not empty ends in front of the end of the block. -/
theorem Stands.iteration (stands : Stands data lineEnd terminator cursor)
    (found : firstOccurrence [13, 10, 13, 10] data lineEnd limit = some terminator)
    (inside : cursor < terminator + 2) :
    Iteration data (lineEnd + 2) (terminator + 2) cursor := by
  obtain ⟨before, rfl, after, within, begins⟩ := stands
  obtain ⟨bounds, here, first⟩ := firstOccurrence_eq_some.mp found
  have parts : occursAt ([13, 10] ++ [13, 10]) data terminator = true := here
  have last := (occursAt_append_iff.mp parts).1
  have apart : before + 1 ≠ terminator := by
    rintro rfl
    rw [not_occursAt_succ begins] at last
    contradiction
  have reaches : before + 2 ≤ terminator := by omega
  cases search : findCrlf data (terminator + 2) (before + 2) with
  | none =>
    have missed := not_occursAt_of_eq_none search reaches (Nat.le_refl _)
    rw [last] at missed
    contradiction
  | some stop =>
    obtain ⟨range, ends, -⟩ := firstOccurrence_eq_some.mp search
    have length : ([13, 10] : List UInt8).length = 2 := rfl
    have behind : stop + 2 ≤ terminator + 2 := range.2
    have nonempty : before + 2 ≠ stop := by
      rintro rfl
      have early : occursAt ([13, 10] ++ [13, 10]) data before = true :=
        occursAt_append_iff.mpr ⟨begins, ends⟩
      have none := first before after (by omega)
      rw [show occursAt [13, 10, 13, 10] data before = true from early] at none
      contradiction
    have start := range.1
    exact {
      inside := ⟨by omega, inside⟩
      begins := ⟨by omega, begins⟩
      ends := ⟨stop, search, by omega, by omega, behind⟩ }

/-- A turn leads from a line to the start of the next one, or to the end of the block. -/
theorem Stands.turn {state next : HeaderPositions} {following : Nat}
    (stands : Stands data lineEnd terminator cursor)
    (turn : Turn limits data (terminator + 2) (state, cursor) (next, following)) :
    Stands data lineEnd terminator following := by
  obtain ⟨before, rfl, after, -, -⟩ := stands
  cases turn with
  | line inside search read =>
    obtain ⟨range, ends, -⟩ := firstOccurrence_eq_some.mp search
    have length : ([13, 10] : List UInt8).length = 2 := rfl
    rw [length] at range
    exact ⟨_, rfl, by omega, by omega, ends⟩

/-- Every cursor of the loop stands behind a line end. -/
theorem stands_reached {state : HeaderPositions} (line : occursAt [13, 10] data lineEnd = true)
    (found : firstOccurrence [13, 10, 13, 10] data lineEnd limit = some terminator)
    (reached : Reached limits data (terminator + 2) ({}, lineEnd + 2) (state, cursor)) :
    Stands data lineEnd terminator cursor := by
  generalize target : (state, cursor) = place at reached
  induction reached generalizing state cursor with
  | refl =>
    cases target
    exact stands_start line found
  | tail path turn ih =>
    subst target
    exact (ih rfl).turn turn

end

/-- The loop goes on as from any state it reaches. -/
theorem sliceHeaderLines_reached {limits : Limits} {data : Bytes} {blockEnd : Nat}
    {start place : HeaderPositions × Nat} (reached : Reached limits data blockEnd start place) :
    sliceHeaderLines limits data blockEnd start.1 start.2 =
      sliceHeaderLines limits data blockEnd place.1 place.2 := by
  induction reached with
  | refl => rfl
  | tail path turn ih =>
    rw [ih]
    cases turn with
    | line inside found read =>
      rw [sliceHeaderLines, if_pos inside]
      split
      · rename_i missed
        rw [found] at missed
        contradiction
      · rename_i stop search
        rw [found] at search
        cases search
        rw [read]

/-- How the loop ends: behind its condition, without a line end, or with the error of a line. -/
theorem sliceHeaderLines_ends (limits : Limits) (data : Bytes) (blockEnd : Nat)
    (state : HeaderPositions) (cursor : Nat) :
    ∃ last stop, Reached limits data blockEnd (state, cursor) (last, stop) ∧
      ((¬stop < blockEnd ∧ sliceHeaderLines limits data blockEnd state cursor = .ok last) ∨
        (stop < blockEnd ∧ findCrlf data blockEnd stop = none) ∨
        ∃ lineEnd error, findCrlf data blockEnd stop = some lineEnd ∧
          sliceHeaderLine limits data last stop lineEnd = .error error ∧
          sliceHeaderLines limits data blockEnd state cursor = .error error) := by
  fun_induction sliceHeaderLines limits data blockEnd state cursor with
  | case1 state cursor inside missed =>
    exact ⟨state, cursor, .refl, Or.inr (Or.inl ⟨inside, missed⟩)⟩
  | case2 state cursor inside lineEnd found _ error refused =>
    exact ⟨state, cursor, .refl, Or.inr (Or.inr ⟨lineEnd, error, found, refused, rfl⟩)⟩
  | case3 state cursor inside lineEnd found _ next read ih =>
    obtain ⟨last, stop, path, ending⟩ := ih
    exact ⟨last, stop, .head (.line inside found read) path, ending⟩
  | case4 state cursor outside =>
    exact ⟨state, cursor, .refl, Or.inl ⟨outside, rfl⟩⟩

/-- The header loop is sound: in every iteration a line starts at the cursor and ends in the block,
the loop is left at the end of the block, and no other error ends it than that of a line. -/
theorem header_loop_sound {limits : Limits} {data : Bytes} {lineEnd terminator : Nat}
    (line : findCrlf data (min data.length (asSize limits.maxRequestLineBytes)) 0 = some lineEnd)
    (found : firstOccurrence [13, 10, 13, 10] data lineEnd (min data.length
      ((lineEnd + 2 + asSize limits.maxHeaderBytes + 2) % 2 ^ 64)) = some terminator) :
    (∀ state cursor,
      Reached limits data (terminator + 2) ({}, lineEnd + 2) (state, cursor) →
        sliceHeaderLines limits data (terminator + 2) {} (lineEnd + 2) =
            sliceHeaderLines limits data (terminator + 2) state cursor ∧
          (cursor < terminator + 2 →
            Iteration data (lineEnd + 2) (terminator + 2) cursor) ∧
          (¬cursor < terminator + 2 → cursor = terminator + 2)) ∧
      match sliceHeaderLines limits data (terminator + 2) {} (lineEnd + 2) with
      | .ok final =>
        Reached limits data (terminator + 2) ({}, lineEnd + 2) (final, terminator + 2)
      | .error error => ∃ state cursor stop,
        Reached limits data (terminator + 2) ({}, lineEnd + 2) (state, cursor) ∧
          findCrlf data (terminator + 2) cursor = some stop ∧
          sliceHeaderLine limits data state cursor stop = .error error := by
  have begins := (firstOccurrence_eq_some.mp line).2.1
  have leaves : ∀ {state cursor},
      Reached limits data (terminator + 2) ({}, lineEnd + 2) (state, cursor) →
        ¬cursor < terminator + 2 → cursor = terminator + 2 := by
    intro state cursor reached outside
    obtain ⟨before, shape, -, within, -⟩ := stands_reached begins found reached
    omega
  constructor
  · intro state cursor reached
    have stands := stands_reached begins found reached
    exact ⟨sliceHeaderLines_reached reached, stands.iteration found, leaves reached⟩
  · obtain ⟨last, stop, path, ending⟩ :=
      sliceHeaderLines_ends limits data (terminator + 2) {} (lineEnd + 2)
    rcases ending with ⟨outside, done⟩ | ⟨inside, missed⟩ | ⟨next, error, search, refused, failed⟩
    · rw [done]
      have exact' := leaves path outside
      rw [exact'] at path
      exact path
    · have iteration := (stands_reached begins found path).iteration found inside
      obtain ⟨next, search, -⟩ := iteration.ends
      rw [missed] at search
      contradiction
    · rw [failed]
      exact ⟨last, stop, next, path, search, refused⟩

/-- A request with two headers. -/
def twoHeaders : Bytes := ascii "GET / HTTP/1.1\r\nHost: a\r\nAge: 1\r\n\r\n"

/-- Limits of a few dozen octets. -/
def smallLimits : Limits := ⟨64, 64, 4, 64⟩

/-- In the second iteration on a request with two headers the line is found. -/
theorem header_loop_sound_second : Iteration twoHeaders 16 33 25 := by
  have line : findCrlf twoHeaders
      (min twoHeaders.length (asSize smallLimits.maxRequestLineBytes)) 0 = some 14 := by decide
  have found : firstOccurrence [13, 10, 13, 10] twoHeaders 14 (min twoHeaders.length
      ((14 + 2 + asSize smallLimits.maxHeaderBytes + 2) % 2 ^ 64)) = some 31 := by decide
  have first : Reached smallLimits twoHeaders 33 ({}, 16)
      ({ headers := [⟨⟨16, 4⟩, ⟨22, 1⟩⟩] }, 25) :=
    .single (.line (by decide) (by decide) rfl)
  exact ((header_loop_sound line found).1 _ 25 first).2.1 (by decide)

end PlatformService.Verif.HeaderLoop
