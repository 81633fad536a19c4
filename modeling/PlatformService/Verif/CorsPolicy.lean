import PlatformService.Http.Cors
import PlatformService.Lib.Fields

/-!
# The two readers of the origin list

The entries of the configured list are its pieces between commas, without the blanks
around them and without the empty ones. `ps_cors_policy_init` leaves exactly these in
its buffer: what it has split off ends with a NUL before its cursor, so that no later
write reaches it. `cors_origins_contains_wildcard` looks through the same entries.
-/

namespace PlatformService.Verif.CorsPolicy

open Lib Http

/-- The entries of an origin list. -/
def originEntries (csv : Bytes) : List Bytes := fields (fun c => decide (c = 44)) isSpOrHtab csv

/-- The segment up to the next comma. -/
def segment (text : Bytes) : Bytes := text.takeWhile (· ≠ 44)

/-- What follows the segment. -/
def behind (text : Bytes) : Bytes := text.dropWhile (· ≠ 44)

/-- A text is its segment and what follows. -/
theorem segment_append_behind (text : Bytes) : segment text ++ behind text = text :=
  List.takeWhile_append_dropWhile

/-- What follows the segment starts behind it. -/
theorem drop_length_segment (text : Bytes) : text.drop (segment text).length = behind text := by
  have dropped : (segment text ++ behind text).drop (segment text).length = behind text :=
    List.drop_left
  rwa [segment_append_behind] at dropped

/-- Looking for a byte that is no comma. -/
theorem not_comma : (fun c : UInt8 => !decide (c = 44)) = fun c => decide (c ≠ 44) := by
  funext c
  rw [decide_not]

/-- The entries of a list that starts with an entry. -/
theorem originEntries_start {text : Bytes} (nonempty : text ≠ []) (skipped : text.head?.all (!isBetween ·)) :
    originEntries text = (segment text).rdropWhile isSpOrHtab :: originEntries (behind text) := by
  have starts : ∃ first ∈ text.head?, decide (first = 44) = false ∧ isSpOrHtab first = false := by
    cases text with
    | nil => contradiction
    | cons first rest =>
      have outside : isBetween first = false := by simpa using skipped
      unfold isBetween at outside
      exact ⟨first, rfl, Bool.or_eq_false_iff.mp outside⟩
  have scanned := fields_scan starts
  rw [not_comma] at scanned
  exact scanned

/-- The entries of a list, from its first entry on. -/
theorem originEntries_dropWhile (text : Bytes) :
    originEntries (text.dropWhile isBetween) = originEntries text := fields_dropWhile text

/-- The text behind a skip does not start with what was skipped. -/
theorem head_dropWhile (text : Bytes) : (text.dropWhile isBetween).head?.all (!isBetween ·) := by
  have stopped := List.head?_dropWhile_not isBetween text
  cases rest : text.dropWhile isBetween with
  | nil => rfl
  | cons first others =>
    rw [rest] at stopped
    simpa using stopped

/-- `cors_origins_contains_wildcard` looks through the entries. -/
theorem wildcardLoop_eq (rest : Bytes) : wildcardLoop rest = decide ([42] ∈ originEntries rest) := by
  fun_induction wildcardLoop rest with
  | case1 rest text empty =>
    have none : originEntries rest = [] := by
      rw [← originEntries_dropWhile]
      exact congrArg originEntries empty
    rw [none]
    rfl
  | case2 rest text nonempty segment' found =>
    have first := originEntries_start nonempty (head_dropWhile rest)
    rw [originEntries_dropWhile] at first
    have here : (segment (rest.dropWhile isBetween)).rdropWhile isSpOrHtab = [42] := found
    rw [first, here]
    simp
  | case3 rest text nonempty segment' other ih =>
    have first := originEntries_start nonempty (head_dropWhile rest)
    rw [originEntries_dropWhile] at first
    have differs : [42] ≠ (segment text).rdropWhile isSpOrHtab := fun same => other same.symm
    have left : text.drop segment'.length = behind text := drop_length_segment text
    rw [ih, left, first]
    simp only [List.mem_cons, differs, false_or]

/-- What a loop skips in front of a NUL. -/
theorem takeWhile_append_zero {skips : UInt8 → Bool} (terminates : skips 0 = false) (text rest : Bytes) :
    (text ++ 0 :: rest).takeWhile skips = text.takeWhile skips := by
  induction text with
  | nil => rw [List.nil_append, List.takeWhile_cons, terminates]; rfl
  | cons first text ih =>
    rw [List.cons_append, List.takeWhile_cons, List.takeWhile_cons, ih]

/-- Skipping from a position on that splits a buffer. -/
theorem skipFrom_append {skips : UInt8 → Bool} (terminates : skips 0 = false) (past text rest : Bytes) :
    skipFrom skips (past ++ (text ++ 0 :: rest)) past.length =
      past.length + (text.takeWhile skips).length := by
  unfold skipFrom
  rw [List.drop_left, takeWhile_append_zero terminates]

/-- The byte at a position that splits a buffer. -/
theorem byteAt_append (past : Bytes) (first : UInt8) (rest : Bytes) :
    byteAt (past ++ first :: rest) past.length = first := by
  unfold byteAt
  rw [List.getD_eq_getElem?_getD, List.getElem?_append_right (Nat.le_refl _), Nat.sub_self]
  rfl

/-- A C string that ends at a NUL behind it. -/
theorem textAt_append (past rest : Bytes) {text : Bytes} (free : (0 : UInt8) ∉ text) :
    textAt (past ++ (text ++ 0 :: rest)) past.length = text := by
  have whole := cString_eq_self free
  unfold textAt
  rw [List.drop_left]
  unfold cString at whole ⊢
  rw [takeWhile_append_zero (by decide), whole]

/-- A C string that ends before a position does not depend on what follows the position. -/
theorem textAt_of_settled {past : Bytes} {position : Nat} (settled : (0 : UInt8) ∈ past.drop position)
    (rest : Bytes) : textAt (past ++ rest) position = textAt past position := by
  have inside : position ≤ past.length := by
    by_contra outside
    rw [List.drop_eq_nil_of_le (by omega)] at settled
    contradiction
  unfold textAt cString
  rw [List.drop_append_of_le_length inside, List.takeWhile_append, if_neg]
  intro whole
  have same := (List.takeWhile_prefix (· ≠ (0 : UInt8)) (l := past.drop position)).eq_of_length whole
  rw [← same] at settled
  have passes := List.mem_takeWhile_imp settled
  simp at passes

/-- The blanks behind a segment become NULs. -/
theorem trimBack_append (front back segment : Bytes) :
    trimBack (front ++ (segment ++ back)) front.length (front.length + segment.length) =
      front ++ (segment.rdropWhile isSpOrHtab ++
        (List.replicate (segment.length - (segment.rdropWhile isSpOrHtab).length) 0 ++ back)) := by
  induction segment using List.reverseRecOn generalizing back with
  | nil =>
    have stays : trimBack (front ++ back) front.length front.length = front ++ back := by
      cases size : front.length with
      | zero => rfl
      | succ n =>
        unfold trimBack
        rw [if_neg (by omega)]
    simpa using stays
  | append_singleton segment last ih =>
    have size : front.length + (segment ++ [last]).length = front.length + segment.length + 1 := by
      rw [List.length_append, List.length_singleton]
      omega
    have joined : front ++ (segment ++ [last] ++ back) = (front ++ segment) ++ last :: back := by
      simp
    have here : byteAt ((front ++ segment) ++ last :: back) (front.length + segment.length) = last := by
      rw [← List.length_append]
      exact byteAt_append (front ++ segment) last back
    rw [size, joined]
    unfold trimBack
    rw [here]
    by_cases blank : isSpOrHtab last = true
    · have cleared : ((front ++ segment) ++ last :: back).set (front.length + segment.length) 0 =
          front ++ (segment ++ 0 :: back) := by
        rw [← List.length_append, List.set_append_right _ _ (Nat.le_refl _), Nat.sub_self,
          List.set_cons_zero, List.append_assoc]
      have shorter : (segment.rdropWhile isSpOrHtab).length ≤ segment.length :=
        (List.rdropWhile_prefix isSpOrHtab (l := segment)).length_le
      have more : (segment ++ [last]).length - (segment.rdropWhile isSpOrHtab).length =
          (segment.length - (segment.rdropWhile isSpOrHtab).length) + 1 := by
        rw [List.length_append, List.length_singleton]
        omega
      rw [if_pos ⟨by omega, blank⟩, cleared, ih, List.rdropWhile_concat_pos _ _ _ blank, more,
        List.replicate_succ']
      simp
    · rw [if_neg fun both => blank both.2, List.rdropWhile_concat_neg _ _ _ blank]
      simp

/-- The reason for which an entry is refused when some were taken before it. -/
def refusal (allowCredentials : Bool) : (taken : Nat) → List Bytes → Option String
  | _, [] => none
  | taken, entry :: entries =>
    if allowCredentials ∧ entry = [42] then
      some "origin '*' combined with allow_credentials=true is refused (plan 7.2a)"
    else if corsMaxOrigins ≤ taken then some "too many CORS origins (max 16)"
    else refusal allowCredentials (taken + 1) entries

/-- Nothing is refused if there is room and no wildcard that credentials forbid. -/
theorem refusal_eq_none (allowCredentials : Bool) (entries : List Bytes) {taken : Nat}
    (room : taken ≤ corsMaxOrigins) :
    refusal allowCredentials taken entries = none ↔
      taken + entries.length ≤ corsMaxOrigins ∧ ¬(allowCredentials = true ∧ [42] ∈ entries) := by
  induction entries generalizing taken with
  | nil => simpa [refusal] using room
  | cons entry entries ih =>
    unfold refusal
    by_cases wildcard : allowCredentials = true ∧ entry = [42]
    · rw [if_pos wildcard]
      have member : [42] ∈ entry :: entries := by
        rw [wildcard.2]
        exact List.mem_cons_self
      exact ⟨fun impossible => by contradiction, fun allowed => absurd ⟨wildcard.1, member⟩ allowed.2⟩
    rw [if_neg wildcard]
    by_cases full : corsMaxOrigins ≤ taken
    · rw [if_pos full, List.length_cons]
      exact ⟨fun impossible => by contradiction, fun allowed => by omega⟩
    rw [if_neg full, ih (by omega), List.length_cons, List.mem_cons]
    have same : taken + 1 + entries.length = taken + (entries.length + 1) := by omega
    rw [same, and_congr_right_iff]
    intro _
    apply not_congr
    rw [and_congr_right_iff]
    intro credentials
    have differs : [42] ≠ entry := fun equal => wildcard ⟨credentials, equal.symm⟩
    exact ⟨Or.inr, fun either => either.resolve_left differs⟩

section Loop

variable {allowCredentials : Bool} {past text : Bytes} {origins : List Nat}

/-- Where the entry of a turn starts. -/
theorem start_eq (past text : Bytes) :
    skipFrom isBetween (past ++ (text ++ [0])) past.length =
      (past ++ text.takeWhile isBetween).length := by
  rw [skipFrom_append rfl, List.length_append]

/-- The buffer, from the entry of a turn on. -/
theorem buffer_eq (past text : Bytes) :
    past ++ (text ++ [0]) = (past ++ text.takeWhile isBetween) ++ (text.dropWhile isBetween ++ [0]) := by
  rw [List.append_assoc, ← List.append_assoc (text.takeWhile isBetween),
    List.takeWhile_append_dropWhile]

/-- Where only separators are left, the loop ends. -/
theorem policyLoop_end (blank : text.dropWhile isBetween = []) :
    policyLoop allowCredentials (past ++ (text ++ [0])) past.length origins =
      .ok (past ++ (text ++ [0]), origins) := by
  unfold policyLoop
  dsimp only
  rw [start_eq, if_pos]
  rw [buffer_eq, blank]
  exact byteAt_append _ _ _

/-- What a cut leaves of a segment: a C string without the blanks behind it. -/
theorem cut_entry (front back : Bytes) {piece : Bytes} (free : (0 : UInt8) ∉ piece)
    (nonempty : piece.rdropWhile isSpOrHtab ≠ []) :
    let trimmed := trimBack (front ++ (piece ++ 0 :: back)) front.length (front.length + piece.length)
    textAt trimmed front.length = piece.rdropWhile isSpOrHtab ∧ byteAt trimmed front.length ≠ 0 := by
  intro trimmed
  let entry := piece.rdropWhile isSpOrHtab
  have kept : (0 : UInt8) ∉ entry := fun stored =>
    free ((List.rdropWhile_prefix isSpOrHtab (l := piece)).subset stored)
  have shape : trimmed = front ++ (entry ++ 0 ::
      (List.replicate (piece.length - entry.length) 0 ++ back)) := by
    have moved : List.replicate (piece.length - entry.length) (0 : UInt8) ++ 0 :: back =
        0 :: (List.replicate (piece.length - entry.length) 0 ++ back) := by
      rw [← List.cons_append, ← List.replicate_succ, List.replicate_succ', List.append_assoc]
      rfl
    rw [← moved]
    exact trimBack_append front (0 :: back) piece
  rw [shape]
  refine ⟨textAt_append front _ kept, ?_⟩
  cases first : entry with
  | nil => exact absurd first nonempty
  | cons e rest =>
    rw [List.cons_append, byteAt_append]
    rintro rfl
    exact kept (by rw [first]; exact List.mem_cons_self)

/-- A turn of the loop that finds a segment ended by a comma or by the NUL. -/
theorem policyLoop_cut (allowCredentials : Bool) (origins : List Nat) (cursor : Nat)
    {front piece back : Bytes} {ending : UInt8}
    (found : skipFrom isBetween (front ++ (piece ++ ending :: back)) cursor = front.length)
    (ended : skipFrom isSegment (front ++ (piece ++ ending :: back)) front.length =
      front.length + piece.length)
    (either : ending = 44 ∨ ending = 0) (free : (0 : UInt8) ∉ piece)
    (nonempty : piece.rdropWhile isSpOrHtab ≠ []) :
    policyLoop allowCredentials (front ++ (piece ++ ending :: back)) cursor origins =
      if allowCredentials ∧ piece.rdropWhile isSpOrHtab = [42] then
        .error "origin '*' combined with allow_credentials=true is refused (plan 7.2a)"
      else if corsMaxOrigins ≤ origins.length then .error "too many CORS origins (max 16)"
      else policyLoop allowCredentials
        (trimBack (front ++ (piece ++ 0 :: back)) front.length (front.length + piece.length))
        (if ending = 44 then front.length + piece.length + 1 else front.length + piece.length)
        (origins ++ [front.length]) := by
  have joined : front ++ (piece ++ ending :: back) = (front ++ piece) ++ ending :: back :=
    (List.append_assoc ..).symm
  have here : byteAt (front ++ (piece ++ ending :: back)) (front.length + piece.length) = ending := by
    rw [joined, ← List.length_append]
    exact byteAt_append (front ++ piece) ending back
  have first : byteAt (front ++ (piece ++ ending :: back)) front.length ≠ 0 := by
    cases shape : piece with
    | nil =>
      rw [shape] at nonempty
      contradiction
    | cons c rest =>
      rw [List.cons_append, byteAt_append]
      rintro rfl
      exact free (by rw [shape]; exact List.mem_cons_self)
  have cut : cutComma (front ++ (piece ++ ending :: back)) (front.length + piece.length) =
      front ++ (piece ++ 0 :: back) := by
    unfold cutComma
    rw [here]
    split
    · rw [joined, ← List.length_append, List.set_append_right _ _ (Nat.le_refl _), Nat.sub_self,
        List.set_cons_zero, List.append_assoc]
    · rename_i other
      rw [either.resolve_left other]
  have passed : passComma (front ++ (piece ++ ending :: back)) (front.length + piece.length) =
      if ending = 44 then front.length + piece.length + 1 else front.length + piece.length := by
    unfold passComma
    rw [here]
  obtain ⟨text, stored⟩ := cut_entry front back free nonempty
  conv_lhs => rw [policyLoop]
  dsimp only
  rw [found, if_neg first, ended, cut, passed, if_neg stored, text]
  rfl

/-- In a text without NULs a segment goes up to the next comma. -/
theorem takeWhile_isSegment {body : Bytes} (free : (0 : UInt8) ∉ body) :
    body.takeWhile isSegment = segment body := by
  induction body with
  | nil => rfl
  | cons first rest ih =>
    have stored : first ≠ 0 := by
      rintro rfl
      exact free List.mem_cons_self
    have same : isSegment first = decide (first ≠ 44) := by
      unfold isSegment
      simp [stored]
    have rest' := ih fun member => free (List.mem_cons_of_mem _ member)
    unfold segment at rest' ⊢
    rw [List.takeWhile_cons, List.takeWhile_cons, same, rest']

/-- The segment of a text that starts with an entry holds more than blanks. -/
theorem entry_ne_nil {body : Bytes} (nonempty : body ≠ []) (skipped : body.head?.all (!isBetween ·)) :
    (segment body).rdropWhile isSpOrHtab ≠ [] := by
  cases body with
  | nil => contradiction
  | cons first rest =>
    have outside : isBetween first = false := by simpa using skipped
    unfold isBetween at outside
    have both := Bool.or_eq_false_iff.mp outside
    have joins : first ≠ 44 := of_decide_eq_false both.1
    rw [ne_eq, List.rdropWhile_eq_nil_iff]
    intro blanks
    have member : first ∈ segment (first :: rest) := by
      unfold segment
      rw [List.takeWhile_cons_of_pos (by simpa using joins)]
      exact List.mem_cons_self
    have wrong := blanks first member
    rw [both.2] at wrong
    contradiction

/-- What follows a segment is nothing or starts with a comma. -/
theorem behind_cases (body : Bytes) : behind body = [] ∨ ∃ more, behind body = 44 :: more := by
  have stopped := List.head?_dropWhile_not (fun c : UInt8 => decide (c ≠ 44)) body
  unfold behind
  cases rest : body.dropWhile (· ≠ 44) with
  | nil => exact Or.inl rfl
  | cons first more =>
    rw [rest] at stopped
    have comma : first = 44 := by simpa using stopped
    exact Or.inr ⟨more, by rw [comma]⟩

/-- What stands before the NUL of a segment that was cut off. -/
def cutOff (front piece : Bytes) : Bytes :=
  front ++ (piece.rdropWhile isSpOrHtab ++
    List.replicate (piece.length - (piece.rdropWhile isSpOrHtab).length) 0)

/-- A cut keeps positions. -/
theorem length_cutOff (front piece : Bytes) :
    (cutOff front piece).length = front.length + piece.length := by
  have shorter : (piece.rdropWhile isSpOrHtab).length ≤ piece.length :=
    (List.rdropWhile_prefix isSpOrHtab (l := piece)).length_le
  unfold cutOff
  rw [List.length_append, List.length_append, List.length_replicate]
  omega

/-- The buffer after a cut. -/
theorem trimBack_cutOff (front piece back : Bytes) :
    trimBack (front ++ (piece ++ 0 :: back)) front.length (front.length + piece.length) =
      cutOff front piece ++ 0 :: back := by
  rw [trimBack_append]
  unfold cutOff
  simp only [List.append_assoc]

/-- Where an entry is left, a turn refuses it, or cuts it off with a NUL and goes on behind it. -/
theorem policyLoop_turn (allowCredentials : Bool) (past : Bytes) (origins : List Nat)
    (free : (0 : UInt8) ∉ text) (nonempty : text.dropWhile isBetween ≠ []) :
    ∃ entry past' text', originEntries text = entry :: originEntries text' ∧
      text'.length < text.length ∧ (0 : UInt8) ∉ text' ∧ past <+: past' ∧
      textAt (past' ++ (text' ++ [0])) (past ++ text.takeWhile isBetween).length = entry ∧
      (text' ≠ [] → (0 : UInt8) ∈ past'.drop (past ++ text.takeWhile isBetween).length) ∧
      policyLoop allowCredentials (past ++ (text ++ [0])) past.length origins =
        if allowCredentials ∧ entry = [42] then
          .error "origin '*' combined with allow_credentials=true is refused (plan 7.2a)"
        else if corsMaxOrigins ≤ origins.length then .error "too many CORS origins (max 16)"
        else policyLoop allowCredentials (past' ++ (text' ++ [0])) past'.length
          (origins ++ [(past ++ text.takeWhile isBetween).length]) := by
  have skipped := head_dropWhile text
  have found := start_eq past text
  have whole : text.dropWhile isBetween <:+ text := List.dropWhile_suffix _
  have first := originEntries_start nonempty skipped
  have kept := entry_ne_nil nonempty skipped
  have extended : past <+: past ++ text.takeWhile isBetween := List.prefix_append _ _
  rw [originEntries_dropWhile] at first
  rw [buffer_eq past text] at found ⊢
  -- from here on only the text in front of the entry and the text from it on matter
  generalize past ++ text.takeWhile isBetween = front at *
  generalize text.dropWhile isBetween = body at *
  have bodyFree : (0 : UInt8) ∉ body := fun stored => free (whole.subset stored)
  have parts := segment_append_behind body
  have ended : skipFrom isSegment (front ++ (body ++ [0])) front.length =
      front.length + (segment body).length := by
    rw [skipFrom_append rfl, takeWhile_isSegment bodyFree]
  have positive : 0 < body.length := List.length_pos_of_ne_nil nonempty
  have shorter := whole.length_le
  generalize segment body = piece at *
  have pieceFree : (0 : UInt8) ∉ piece := fun stored =>
    bodyFree (by rw [← parts]; exact List.mem_append_left _ stored)
  have off : front <+: cutOff front piece := List.prefix_append _ _
  cases behind_cases body with
  | inl last =>
    rw [last, List.append_nil] at parts
    rw [last] at first
    rw [← parts] at found ended ⊢
    have cut := policyLoop_cut allowCredentials origins past.length found ended (Or.inr rfl)
      pieceFree kept
    have stays : (if (0 : UInt8) = 44 then front.length + piece.length + 1
        else front.length + piece.length) = (cutOff front piece).length := by
      rw [length_cutOff]
      exact if_neg (by decide)
    have text := (cut_entry front [] pieceFree kept).1
    rw [trimBack_cutOff] at cut text
    rw [stays] at cut
    exact ⟨_, cutOff front piece, [], first, by rw [List.length_nil]; omega, List.not_mem_nil,
      extended.trans off, text, fun impossible => absurd rfl impossible, cut⟩
  | inr comma =>
    obtain ⟨more, comma⟩ := comma
    rw [comma] at parts first
    have joined : body ++ [0] = piece ++ 44 :: (more ++ [0]) := by
      rw [← parts, List.append_assoc]
      rfl
    have fewer : more.length < body.length := by
      rw [← parts, List.length_append, List.length_cons]
      omega
    rw [joined] at found ended ⊢
    have cut := policyLoop_cut allowCredentials origins past.length found ended (Or.inl rfl)
      pieceFree kept
    have passes : (if (44 : UInt8) = 44 then front.length + piece.length + 1
        else front.length + piece.length) = (cutOff front piece ++ [0]).length := by
      rw [List.length_append, length_cutOff]
      rfl
    have text := (cut_entry front (more ++ [0]) pieceFree kept).1
    have regrouped : cutOff front piece ++ 0 :: (more ++ [0]) =
        (cutOff front piece ++ [0]) ++ (more ++ [0]) := by
      rw [List.append_assoc]
      rfl
    rw [trimBack_cutOff, regrouped] at cut text
    rw [passes] at cut
    refine ⟨_, cutOff front piece ++ [0], more, ?_, by omega, ?_,
      (extended.trans off).trans (List.prefix_append _ _), text, ?_, cut⟩
    · rw [first]
      exact congrArg _ (fields_cons_separator rfl more)
    · intro stored
      exact bodyFree (by rw [← parts]; exact List.mem_append_right _ (List.mem_cons_of_mem _ stored))
    · intro _
      rw [List.drop_append_of_le_length off.length_le]
      exact List.mem_append_right _ (List.mem_singleton_self _)

/-- The loop refuses the first entry it may not take, or leaves all entries in its buffer. -/
theorem policyLoop_spec (allowCredentials : Bool) (past : Bytes) (origins : List Nat)
    (free : (0 : UInt8) ∉ text)
    (settled : text ≠ [] → ∀ origin ∈ origins, (0 : UInt8) ∈ past.drop origin) :
    match refusal allowCredentials origins.length (originEntries text) with
    | some message =>
      policyLoop allowCredentials (past ++ (text ++ [0])) past.length origins = .error message
    | none => ∃ buffer more,
      policyLoop allowCredentials (past ++ (text ++ [0])) past.length origins =
        .ok (buffer, origins ++ more) ∧
      (origins ++ more).map (textAt buffer) =
        origins.map (textAt (past ++ (text ++ [0]))) ++ originEntries text := by
  induction size : text.length using Nat.strong_induction_on generalizing past text origins with
  | _ n ih =>
    by_cases blank : text.dropWhile isBetween = []
    · have none : originEntries text = [] := by
        rw [← originEntries_dropWhile, blank]
        rfl
      rw [none]
      refine ⟨past ++ (text ++ [0]), [], ?_, ?_⟩
      · rw [List.append_nil]
        exact policyLoop_end blank
      · rw [List.append_nil, List.append_nil]
    · have nonempty : text ≠ [] := by
        rintro rfl
        exact blank rfl
      obtain ⟨entry, past', text', entries, shorter, free', ⟨added, extended⟩, stored, ended, turn⟩ :=
        policyLoop_turn allowCredentials past origins free blank
      rw [entries, turn]
      unfold refusal
      by_cases wildcard : allowCredentials = true ∧ entry = [42]
      · rw [if_pos wildcard, if_pos wildcard]
      rw [if_neg wildcard, if_neg wildcard]
      by_cases full : corsMaxOrigins ≤ origins.length
      · rw [if_pos full, if_pos full]
      rw [if_neg full, if_neg full]
      -- no later write reaches the entries taken before
      have kept : origins.map (textAt (past' ++ (text' ++ [0]))) =
          origins.map (textAt (past ++ (text ++ [0]))) := by
        apply List.map_congr_left
        intro origin member
        have before := settled nonempty origin member
        rw [← extended, List.append_assoc, textAt_of_settled before, textAt_of_settled before]
      have settled' : text' ≠ [] →
          ∀ origin ∈ origins ++ [(past ++ text.takeWhile isBetween).length],
            (0 : UInt8) ∈ past'.drop origin := by
        intro more origin member
        cases List.mem_append.mp member with
        | inl old =>
          have before := settled nonempty origin old
          have inside : origin ≤ past.length := by
            by_contra outside
            rw [List.drop_eq_nil_of_le (by omega)] at before
            contradiction
          rw [← extended, List.drop_append_of_le_length inside]
          exact List.mem_append_left _ before
        | inr new =>
          rw [List.mem_singleton.mp new]
          exact ended more
      have next := ih text'.length (by omega) past' _ free' settled' rfl
      rw [List.length_append, List.length_singleton] at next
      split
      · rename_i message refused
        rw [refused] at next
        exact next
      · rename_i taken
        rw [taken] at next
        obtain ⟨buffer, more, done, texts⟩ := next
        refine ⟨buffer, [(past ++ text.takeWhile isBetween).length] ++ more, ?_, ?_⟩
        · rw [done, List.append_assoc]
        · rw [← List.append_assoc, texts, List.map_append, kept, List.map_singleton, stored,
            List.append_assoc]
          rfl

end Loop

/-- `ps_cors_policy_init` takes exactly the entries of the list, or refuses one of them. -/
theorem corsPolicyInit_spec {csv : Bytes} (free : (0 : UInt8) ∉ csv) (allowCredentials : Bool) :
    match refusal allowCredentials 0 (originEntries csv) with
    | some message => corsPolicyInit csv allowCredentials = .error message
    | none => ∃ policy, corsPolicyInit csv allowCredentials = .ok policy ∧
      policy.entries = originEntries csv ∧ policy.allowCredentials = allowCredentials := by
  have looped := policyLoop_spec allowCredentials [] [] free
    fun _ _ impossible => absurd impossible List.not_mem_nil
  unfold corsPolicyInit
  rw [List.nil_append, List.length_nil] at looped
  split
  · rename_i message refused
    rw [List.length_nil, refused] at looped
    rw [looped]
    rfl
  · rename_i taken
    rw [List.length_nil, taken] at looped
    obtain ⟨buffer, more, done, texts⟩ := looped
    rw [done]
    exact ⟨⟨buffer, [] ++ more, allowCredentials⟩, rfl, texts, rfl⟩

end PlatformService.Verif.CorsPolicy
