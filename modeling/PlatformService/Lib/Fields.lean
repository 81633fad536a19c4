import Mathlib.Data.List.DropRight

/-!
# The fields of a separated text

The pieces of a text between separators, without the blanks around them and without
the empty ones. A scanner that skips separators and blanks, reads up to the next
separator and cuts the blanks off reads them one after the other.
-/

namespace PlatformService.Lib

variable {A : Type} (separator blank : A → Bool)

/-- A text without the blanks at its ends. -/
def trimEnds (text : List A) : List A := (text.dropWhile blank).rdropWhile blank

/-- The nonempty pieces of a text between separators, without the blanks around them. -/
def fields (text : List A) : List (List A) :=
  ((text.splitOnP separator).map (trimEnds blank)).filter fun piece => !piece.isEmpty

variable {separator blank}

/-- The blanks around a text that has none at its ends are what is cut off. -/
theorem trimEnds_padded {before text behind : List A} (leading : ∀ c ∈ before, blank c = true)
    (trailing : ∀ c ∈ behind, blank c = true) (starts : ∀ c ∈ text.head?, blank c = false)
    (ends : ∀ c ∈ text.getLast?, blank c = false) :
    trimEnds blank (before ++ (text ++ behind)) = text := by
  have skipped : (before ++ (text ++ behind)).dropWhile blank = (text ++ behind).dropWhile blank :=
    List.dropWhile_append_of_pos leading
  unfold trimEnds
  rw [skipped]
  cases text with
  | nil =>
    have empty : ([] ++ behind).dropWhile blank = [] := List.dropWhile_eq_nil_iff.mpr trailing
    rw [empty]
    rfl
  | cons first text =>
    have stands : ¬blank first = true := by
      rw [starts first rfl]
      decide
    rw [List.cons_append, List.dropWhile_cons_of_neg stands, ← List.cons_append]
    have kept : (first :: text).rdropWhile blank = first :: text := by
      rw [List.rdropWhile_eq_self_iff]
      intro nonempty
      rw [ends _ (List.getLast?_eq_some_getLast nonempty)]
      decide
    have reversed : ∀ c ∈ behind.reverse, blank c = true :=
      fun c member => trailing c (List.mem_reverse.mp member)
    unfold List.rdropWhile at kept ⊢
    rw [List.reverse_append, List.dropWhile_append_of_pos reversed, kept]

/-- A text is its blanks and what is left without them. -/
theorem exists_padded (blank : A → Bool) (text : List A) : ∃ before behind,
    text = before ++ (trimEnds blank text ++ behind) ∧ (∀ c ∈ before, blank c = true) ∧
      (∀ c ∈ behind, blank c = true) ∧ (∀ c ∈ (trimEnds blank text).head?, blank c = false) ∧
      ∀ c ∈ (trimEnds blank text).getLast?, blank c = false := by
  refine ⟨text.takeWhile blank, (text.dropWhile blank).rtakeWhile blank, ?_, ?_, ?_, ?_, ?_⟩
  · unfold trimEnds
    rw [List.rdropWhile_append_rtakeWhile, List.takeWhile_append_dropWhile]
  · exact fun c member => List.mem_takeWhile_imp member
  · exact fun c member => List.mem_rtakeWhile_imp member
  · intro c first
    obtain ⟨rest, shape⟩ := List.rdropWhile_prefix blank (text.dropWhile blank)
    have leads : (text.dropWhile blank).head? = some c := by
      rw [← shape, List.head?_append, show (List.rdropWhile blank _).head? = some c from first]
      rfl
    have stopped := List.head?_dropWhile_not blank text
    rw [leads] at stopped
    exact stopped
  · intro c last
    have nonempty : trimEnds blank text ≠ [] := by
      intro empty
      rw [empty] at last
      contradiction
    have stopped := List.rdropWhile_last_not blank (text.dropWhile blank) nonempty
    have same : (trimEnds blank text).getLast nonempty = c := by
      rw [List.getLast?_eq_some_getLast nonempty] at last
      exact Option.some.inj last
    rw [← same]
    exact Bool.eq_false_iff.mpr stopped

/-- An empty text has no fields. -/
@[simp]
theorem fields_nil : fields separator blank [] = [] := rfl

/-- The fields around a separator. -/
theorem fields_append_cons {between : A} (separates : separator between = true)
    (before after : List A) :
    fields separator blank (before ++ between :: after) =
      fields separator blank before ++ fields separator blank after := by
  unfold fields
  rw [List.splitOnP_append_cons before after separates, List.map_append, List.filter_append]

/-- A separator in front of a text does not count. -/
theorem fields_cons_separator {first : A} (separates : separator first = true) (text : List A) :
    fields separator blank (first :: text) = fields separator blank text := by
  have split : fields separator blank ([] ++ first :: text) = _ := fields_append_cons separates [] text
  rwa [List.nil_append, fields_nil, List.nil_append] at split

/-- A blank in front of a text does not count. -/
theorem fields_cons_blank {first : A} (spaces : blank first = true)
    (joins : separator first = false) (text : List A) :
    fields separator blank (first :: text) = fields separator blank text := by
  have nonempty := List.splitOnP_ne_nil separator text
  unfold fields
  rw [List.splitOnP_cons_eq_if_modifyHead, joins]
  cases split : text.splitOnP separator with
  | nil => exact absurd split nonempty
  | cons piece pieces =>
    have same : trimEnds blank (first :: piece) = trimEnds blank piece := by
      unfold trimEnds
      rw [List.dropWhile_cons_of_pos spaces]
    simp only [Bool.false_eq_true, if_false, List.modifyHead_cons, List.map_cons, same]

/-- Separators and blanks in front of a text do not count. -/
theorem fields_dropWhile (text : List A) :
    fields separator blank (text.dropWhile fun c => separator c || blank c) =
      fields separator blank text := by
  induction text with
  | nil => rfl
  | cons first text ih =>
    by_cases skipped : (separator first || blank first) = true
    · rw [List.dropWhile_cons, if_pos skipped, ih]
      cases separates : separator first with
      | true => exact (fields_cons_separator separates text).symm
      | false =>
        rw [separates, Bool.false_or] at skipped
        exact (fields_cons_blank skipped separates text).symm
    · rw [List.dropWhile_cons, if_neg skipped]

/-- A text of one piece that does not start with a blank is that piece without the blanks behind. -/
theorem fields_piece {piece : List A} (joins : ∀ c ∈ piece, separator c = false)
    (starts : ∃ first ∈ piece.head?, blank first = false) :
    fields separator blank piece = [piece.rdropWhile blank] := by
  obtain ⟨first, leads, stands⟩ := starts
  have shape : piece = first :: piece.tail := List.eq_cons_of_mem_head? leads
  have kept : piece.dropWhile blank = piece := by
    rw [shape, List.dropWhile_cons_of_neg (by rw [stands]; decide)]
  have nonempty : piece.rdropWhile blank ≠ [] := by
    rw [ne_eq, List.rdropWhile_eq_nil_iff]
    intro blanks
    have wrong := blanks first (List.mem_of_mem_head? leads)
    rw [stands] at wrong
    contradiction
  have counts : (!(piece.rdropWhile blank).isEmpty) = true := by
    rw [List.isEmpty_eq_false_iff.mpr nonempty]
    rfl
  unfold fields
  rw [List.splitOnP_eq_singleton joins, List.map_singleton]
  unfold trimEnds
  rw [kept, List.filter_singleton, counts]
  rfl

/-- What a scanner reads that has skipped to a piece: the piece and the fields behind it. -/
theorem fields_scan {text : List A}
    (starts : ∃ first ∈ text.head?, separator first = false ∧ blank first = false) :
    fields separator blank text =
      (text.takeWhile fun c => !separator c).rdropWhile blank ::
        fields separator blank (text.dropWhile fun c => !separator c) := by
  obtain ⟨first, leads, joined, stands⟩ := starts
  have shape : text = first :: text.tail := List.eq_cons_of_mem_head? leads
  have joins : ∀ c ∈ text.takeWhile fun c => !separator c, separator c = false := by
    intro c member
    have passes := List.mem_takeWhile_imp member
    simpa using passes
  have heads : ∃ first ∈ (text.takeWhile fun c => !separator c).head?, blank first = false := by
    rw [shape, List.takeWhile_cons, joined]
    exact ⟨first, rfl, stands⟩
  have alone := fields_piece joins heads
  have parts : (text.takeWhile fun c => !separator c) ++ (text.dropWhile fun c => !separator c) = text :=
    List.takeWhile_append_dropWhile
  cases rest : text.dropWhile fun c => !separator c with
  | nil =>
    rw [rest, List.append_nil] at parts
    rw [parts] at alone ⊢
    exact alone
  | cons between after =>
    have separates : separator between = true := by
      have stopped := List.head?_dropWhile_not (fun c => !separator c) text
      rw [rest] at stopped
      simpa using stopped
    rw [rest] at parts
    conv_lhs => rw [← parts]
    rw [fields_append_cons separates, alone, fields_cons_separator separates]
    rfl

/-- A field is a part of the text. -/
theorem infix_of_mem_fields {text piece : List A} (member : piece ∈ fields separator blank text) :
    piece <:+: text := by
  induction size : text.length using Nat.strong_induction_on generalizing text with
  | _ n ih =>
    have stopped := List.head?_dropWhile_not (fun c => separator c || blank c) text
    have whole : text.dropWhile (fun c => separator c || blank c) <:+: text :=
      (List.dropWhile_suffix _).isInfix
    rw [← fields_dropWhile] at member
    cases rest : text.dropWhile fun c => separator c || blank c with
    | nil =>
      rw [rest] at member
      contradiction
    | cons first others =>
      rw [rest] at stopped member whole
      have outside : (separator first || blank first) = false := stopped
      have apart := Bool.or_eq_false_iff.mp outside
      rw [fields_scan ⟨first, rfl, apart⟩] at member
      cases List.mem_cons.mp member with
      | inl here =>
        rw [here]
        exact ((List.rdropWhile_prefix blank _).isInfix.trans
          (List.takeWhile_prefix _).isInfix).trans whole
      | inr later =>
        have shorter : (others.dropWhile fun c => !separator c).length ≤ others.length :=
          List.length_dropWhile_le ..
        have passed : (first :: others).dropWhile (fun c => !separator c) =
            others.dropWhile fun c => !separator c :=
          List.dropWhile_cons_of_pos (by rw [apart.1]; rfl)
        have bound := whole.length_le
        rw [List.length_cons] at bound
        rw [passed] at later
        have inside := ih _ (by omega) later rfl
        exact (inside.trans ((List.dropWhile_suffix _).isInfix.trans
          (List.suffix_cons first others).isInfix)).trans whole

end PlatformService.Lib
