import PlatformService.Http.Request

/-!
# The CORS policy

`cors.c`, and `cors_origins_contains_wildcard` of `config.c`. `ps_cors_policy_init`
splits the configured text in place: the buffer is the text with its NUL, an origin is
the position of its first byte in that buffer, and what stands there is read as a C
string after all writes. A position behind the buffer reads as NUL; none is read.
-/

namespace PlatformService.Http

/-- `PS_STR_MAX`, the size of the setting that holds the origin list. -/
def strMax : Nat := 256

/-- `PS_CORS_MAX_ORIGINS` -/
def corsMaxOrigins : Nat := 16

/-- `ps_cors_policy_t`, with the buffer that its origins point into. -/
structure CorsPolicy where
  originsCsv : Bytes
  origins : List Nat
  allowCredentials : Bool
  deriving DecidableEq, Repr

/-- The byte at a position of a buffer. -/
def byteAt (buffer : Bytes) (position : Nat) : UInt8 := buffer.getD position 0

/-- The C string that starts at a position of a buffer. -/
def textAt (buffer : Bytes) (position : Nat) : Bytes := cString (buffer.drop position)

/-- The position of the first byte from a position on that a loop does not skip. -/
def skipFrom (skips : UInt8 → Bool) (buffer : Bytes) (position : Nat) : Nat :=
  position + ((buffer.drop position).takeWhile skips).length

/-- Whether a byte stands between the entries of the list: a comma, a space or a tab. -/
def isBetween (c : UInt8) : Bool := c = 44 || isSpOrHtab c

/-- Whether a byte belongs to the segment of an entry. -/
def isSegment (c : UInt8) : Bool := c ≠ 0 && c ≠ 44

/-- The loop that overwrites the blanks before `valueEnd` with NULs, down to `start`. -/
def trimBack (buffer : Bytes) (start : Nat) : (valueEnd : Nat) → Bytes
  | 0 => buffer
  | valueEnd + 1 =>
    if start < valueEnd + 1 ∧ isSpOrHtab (byteAt buffer valueEnd) then
      trimBack (buffer.set valueEnd 0) start valueEnd
    else buffer

/-- Overwriting keeps the size of a buffer. -/
@[simp]
theorem length_trimBack (buffer : Bytes) (start valueEnd : Nat) :
    (trimBack buffer start valueEnd).length = buffer.length := by
  induction valueEnd generalizing buffer with
  | zero => rfl
  | succ valueEnd ih =>
    unfold trimBack
    split
    · rw [ih, List.length_set]
    · rfl

/-- A byte that is not skipped over is in the buffer. -/
theorem lt_length_of_byteAt_ne {buffer : Bytes} {position : Nat} (stored : byteAt buffer position ≠ 0) :
    position < buffer.length := by
  by_contra outside
  apply stored
  unfold byteAt
  rw [List.getD_eq_getElem?_getD, List.getElem?_eq_none (by omega)]
  rfl

/-- A loop that skips stops at a byte that it does not skip, or behind the buffer. -/
theorem skips_byteAt_skipFrom {skips : UInt8 → Bool} (terminates : skips 0 = false) (buffer : Bytes)
    (position : Nat) : skips (byteAt buffer (skipFrom skips buffer position)) = false := by
  have parts : (buffer.drop position).takeWhile skips ++ (buffer.drop position).dropWhile skips =
      buffer.drop position := List.takeWhile_append_dropWhile
  have stopped := List.head?_dropWhile_not skips (buffer.drop position)
  have read : byteAt buffer (skipFrom skips buffer position) =
      ((buffer.drop position).dropWhile skips).headD 0 := by
    have joined : (buffer.drop position)[((buffer.drop position).takeWhile skips).length]? =
        ((buffer.drop position).takeWhile skips ++
          (buffer.drop position).dropWhile skips)[((buffer.drop position).takeWhile skips).length]? := by
      rw [parts]
    unfold byteAt skipFrom
    rw [List.getD_eq_getElem?_getD, ← List.getElem?_drop, joined,
      List.getElem?_append_right (Nat.le_refl _), Nat.sub_self]
    cases (buffer.drop position).dropWhile skips with
    | nil => rfl
    | cons first rest => rfl
  rw [read]
  cases rest : (buffer.drop position).dropWhile skips with
  | nil => exact terminates
  | cons first rest' =>
    rw [rest] at stopped
    simpa using stopped

/-- A loop that skips the byte at a position passes it. -/
theorem lt_skipFrom {skips : UInt8 → Bool} {buffer : Bytes} {position : Nat}
    (inside : position < buffer.length) (skipped : skips (byteAt buffer position) = true) :
    position < skipFrom skips buffer position := by
  have first : buffer.drop position = byteAt buffer position :: buffer.drop (position + 1) := by
    unfold byteAt
    rw [List.getD_eq_getElem?_getD, List.getElem?_eq_getElem inside]
    exact List.drop_eq_getElem_cons inside
  unfold skipFrom
  rw [first, List.takeWhile_cons, skipped, if_pos rfl, List.length_cons]
  omega

/-- The buffer with a NUL in the place of a comma. -/
def cutComma (buffer : Bytes) (valueEnd : Nat) : Bytes :=
  if byteAt buffer valueEnd = 44 then buffer.set valueEnd 0 else buffer

/-- The position behind a comma, if there is one. -/
def passComma (buffer : Bytes) (valueEnd : Nat) : Nat :=
  if byteAt buffer valueEnd = 44 then valueEnd + 1 else valueEnd

/-- Cutting keeps the size of a buffer. -/
@[simp]
theorem length_cutComma (buffer : Bytes) (valueEnd : Nat) :
    (cutComma buffer valueEnd).length = buffer.length := by
  unfold cutComma
  split
  · rw [List.length_set]
  · rfl

/-- Passing a comma goes forward. -/
theorem le_passComma (buffer : Bytes) (valueEnd : Nat) : valueEnd ≤ passComma buffer valueEnd := by
  unfold passComma
  split <;> omega

/-- The segment of an entry is not empty. -/
theorem lt_segmentEnd {buffer : Bytes} {cursor : Nat}
    (stored : byteAt buffer (skipFrom isBetween buffer cursor) ≠ 0) :
    skipFrom isBetween buffer cursor <
      skipFrom isSegment buffer (skipFrom isBetween buffer cursor) := by
  have stopped : isBetween (byteAt buffer (skipFrom isBetween buffer cursor)) = false :=
    skips_byteAt_skipFrom rfl buffer cursor
  apply lt_skipFrom (lt_length_of_byteAt_ne stored)
  unfold isBetween at stopped
  rw [Bool.or_eq_false_iff, decide_eq_false_iff_not] at stopped
  unfold isSegment
  rw [Bool.and_eq_true, decide_eq_true_eq, decide_eq_true_eq]
  exact ⟨stored, stopped.1⟩

/-- The main loop of `ps_cors_policy_init`, from a position on and with the origins so far. -/
def policyLoop (allowCredentials : Bool) (buffer : Bytes) (cursor : Nat) (origins : List Nat) :
    Except String (Bytes × List Nat) :=
  let start := skipFrom isBetween buffer cursor
  if byteAt buffer start = 0 then .ok (buffer, origins)
  else
    let valueEnd := skipFrom isSegment buffer start
    let trimmed := trimBack (cutComma buffer valueEnd) start valueEnd
    if byteAt trimmed start = 0 then
      policyLoop allowCredentials trimmed (passComma buffer valueEnd) origins
    else if allowCredentials ∧ textAt trimmed start = ascii "*" then
      .error "origin '*' combined with allow_credentials=true is refused (plan 7.2a)"
    else if corsMaxOrigins ≤ origins.length then .error "too many CORS origins (max 16)"
    else policyLoop allowCredentials trimmed (passComma buffer valueEnd) (origins ++ [start])
  termination_by buffer.length - cursor
  decreasing_by
    all_goals
      have stored : byteAt buffer (skipFrom isBetween buffer cursor) ≠ 0 := by assumption
      have inside := lt_length_of_byteAt_ne stored
      have after : cursor ≤ skipFrom isBetween buffer cursor := Nat.le_add_right _ _
      have behind := lt_segmentEnd stored
      have further := le_passComma buffer
        (skipFrom isSegment buffer (skipFrom isBetween buffer cursor))
      rw [length_trimBack, length_cutComma]
      omega

/-- `ps_cors_policy_init` -/
def corsPolicyInit (originsCsv : Bytes) (allowCredentials : Bool) : Except String CorsPolicy := do
  let (buffer, origins) ← policyLoop allowCredentials (originsCsv ++ [0]) 0 []
  return ⟨buffer, origins, allowCredentials⟩

/-- `ps_cors_enabled` -/
def CorsPolicy.enabled (policy : CorsPolicy) : Bool := 0 < policy.origins.length

/-- The origins of a policy, as the C strings they are. -/
def CorsPolicy.entries (policy : CorsPolicy) : List Bytes :=
  policy.origins.map (textAt policy.originsCsv)

/-- `ps_cors_origin_allowed` -/
def corsOriginAllowed (policy : CorsPolicy) (origin : Bytes) : Bool :=
  policy.entries.any fun entry => entry.length = origin.length && entry = origin

/-- Behind what stands between the entries, a text starts with a segment. -/
theorem segment_pos {rest : Bytes} (nonempty : rest.dropWhile isBetween ≠ []) :
    0 < ((rest.dropWhile isBetween).takeWhile (· ≠ 44)).length := by
  have stopped := List.head?_dropWhile_not isBetween rest
  cases shape : rest.dropWhile isBetween with
  | nil => exact absurd shape nonempty
  | cons first others =>
    rw [shape] at stopped
    have kept : first ≠ 44 := by
      rintro rfl
      contradiction
    rw [List.takeWhile_cons_of_pos (by simpa using kept), List.length_cons]
    omega

/-- The loop of `cors_origins_contains_wildcard` over what is left of the text. -/
def wildcardLoop (rest : Bytes) : Bool :=
  let text := rest.dropWhile isBetween
  if text = [] then false
  else
    let segment := text.takeWhile (· ≠ 44)
    if segment.rdropWhile isSpOrHtab = [42] then true
    else wildcardLoop (text.drop segment.length)
  termination_by rest.length
  decreasing_by
    have nonempty : rest.dropWhile isBetween ≠ [] := by assumption
    have shorter : (rest.dropWhile isBetween).length ≤ rest.length := List.length_dropWhile_le ..
    have positive : 0 < (rest.dropWhile isBetween).length := List.length_pos_of_ne_nil nonempty
    have taken := segment_pos nonempty
    rw [List.length_drop]
    omega

/-- `cors_origins_contains_wildcard` -/
def corsOriginsContainsWildcard (csv : Bytes) : Bool := wildcardLoop (cString csv)

end PlatformService.Http
