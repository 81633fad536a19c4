import PlatformService.Platform.Buf

/-!
# The JSON writer fills its buffer

`ps_json_write` appends piece by piece to a buffer that grows as it must, and gives up at the first append
that fails. `Writes` says what such a writer leaves of every buffer: its whole text, or a part of it where
the value is nested too deep or memory has run out. The writer does so with the text that the plain
writer returns.
-/

namespace PlatformService.Verif.BufferedWriting

open Lib Json

/-- Half of what a `size_t` can count. -/
def mostBytes : Nat := 2 ^ (Buf.sizeBits - 1)

/-- The capacity of a buffer is nothing or a power of two from 256 on, and beyond the first one at most
twice what is written. -/
structure Grown (buf : Buf) : Prop where
  power : buf.cap = 0 ∨ ∃ exponent, 8 ≤ exponent ∧ exponent < Buf.sizeBits ∧ buf.cap = 2 ^ exponent
  tight : buf.cap ≤ max 256 (2 * buf.bytes.length)

/-- A new buffer. -/
theorem grown_init : Grown Buf.init := ⟨Or.inl rfl, Nat.zero_le _⟩

section Appending

variable {buf : Buf} {data : Bytes}

/-- The loop of `ensure_capacity` begins at a power of two. -/
theorem Grown.start (grown : Grown buf) : ∃ exponent, 8 ≤ exponent ∧ exponent < Buf.sizeBits ∧
    (if buf.cap = 0 then 256 else buf.cap) = 2 ^ exponent ∧
    2 ^ exponent ≤ max 256 (2 * buf.bytes.length) := by
  have tight := grown.tight
  rcases grown.power with empty | ⟨exponent, above, inside, same⟩
  · refine ⟨8, Nat.le_refl 8, by decide, if_pos empty, ?_⟩
    omega
  · have positive : buf.cap ≠ 0 := by
      rw [same]
      exact Nat.ne_of_gt (Nat.two_pow_pos exponent)
    exact ⟨exponent, above, inside, by rw [if_neg positive, same], by rw [← same]; exact tight⟩

/-- What an append makes room for: a capacity that is large enough, unless memory has run out. -/
theorem ensureCapacity_spec (grown : Grown buf) (granted : Bool) {additional : Nat}
    (small : buf.bytes.length + additional ≤ mostBytes) :
    (∃ cap, buf.ensureCapacity additional granted = .room cap ∧ buf.bytes.length + additional ≤ cap ∧
        (cap = 0 ∨ ∃ exponent, 8 ≤ exponent ∧ exponent < Buf.sizeBits ∧ cap = 2 ^ exponent) ∧
        cap ≤ max 256 (2 * (buf.bytes.length + additional))) ∨
      granted = false ∧ buf.ensureCapacity additional granted = .noMemory := by
  have fits := buf.fits
  unfold Buf.ensureCapacity
  by_cases room : additional ≤ buf.cap - buf.bytes.length
  · rw [if_pos room]
    have tight := grown.tight
    exact Or.inl ⟨buf.cap, rfl, by omega, grown.power, by omega⟩
  · rw [if_neg room]
    dsimp only
    have word : (buf.bytes.length + additional) % 2 ^ Buf.sizeBits = buf.bytes.length + additional :=
      Nat.mod_eq_of_lt (Nat.lt_of_le_of_lt small (by decide))
    obtain ⟨exponent, above, inside, begins, tight⟩ := grown.start
    obtain ⟨larger, ended, further, within, enough, least⟩ :=
      Doubling.grow_of_le inside small Buf.growTurns (by unfold Buf.growTurns; omega)
    rw [word, begins, ended]
    cases granted with
    | false => exact Or.inr ⟨rfl, rfl⟩
    | true =>
      refine Or.inl ⟨2 ^ larger, rfl, enough, Or.inr ⟨larger, by omega, within, rfl⟩, ?_⟩
      cases least with
      | inl same =>
        rw [same]
        omega
      | inr least => omega

/-- An append appends, or memory has run out. -/
theorem append_spec (grown : Grown buf) (granted : Bool)
    (small : buf.bytes.length + data.length ≤ mostBytes) :
    (∃ next, buf.append data granted = .done next ∧ Grown next ∧ next.bytes = buf.bytes ++ data) ∨
      granted = false ∧ buf.append data granted = .refused := by
  unfold Buf.append
  by_cases empty : data.length = 0
  · rw [if_pos empty]
    refine Or.inl ⟨buf, rfl, grown, ?_⟩
    rw [List.length_eq_zero_iff.mp empty, List.append_nil]
  · rw [if_neg empty]
    rcases ensureCapacity_spec grown granted small with ⟨cap, ensured, enough, power, tight⟩ | refused
    · have fits : (buf.bytes ++ data).length ≤ cap := by
        rw [List.length_append]
        exact enough
      rw [ensured]
      dsimp only
      rw [dif_pos fits]
      refine Or.inl ⟨_, rfl, ⟨power, ?_⟩, rfl⟩
      rw [List.length_append]
      exact tight
    · rw [refused.2]
      exact Or.inr ⟨refused.1, rfl⟩

/-- An append that finds memory ends with its octets exactly if there is room or the whole is within half of
what a word can count. Else it never ends, or writes behind the allocation. -/
theorem append_done_iff (grown : Grown buf) (word : data.length < 2 ^ Buf.sizeBits) :
    (∃ next, buf.append data true = .done next) ↔
      data.length ≤ buf.cap - buf.bytes.length ∨ buf.bytes.length + data.length ≤ mostBytes := by
  have fits := buf.fits
  constructor
  · rintro ⟨next, done⟩
    by_contra neither
    obtain ⟨crowded, large⟩ := not_or.mp neither
    have filled : data.length ≠ 0 := by omega
    obtain ⟨exponent, above, inside, begins, -⟩ := grown.start
    unfold Buf.append Buf.ensureCapacity at done
    rw [if_neg filled, if_neg crowded] at done
    dsimp only at done
    by_cases wraps : buf.bytes.length + data.length < 2 ^ Buf.sizeBits
    · rw [Nat.mod_eq_of_lt wraps, begins, Doubling.grow_of_gt inside (Nat.lt_of_not_le large)] at done
      contradiction
    · have need : (buf.bytes.length + data.length) % 2 ^ Buf.sizeBits < buf.cap := by
        have reduced : (buf.bytes.length + data.length) % 2 ^ Buf.sizeBits =
            buf.bytes.length + data.length - 2 ^ Buf.sizeBits := by
          have less : buf.bytes.length + data.length - 2 ^ Buf.sizeBits < 2 ^ Buf.sizeBits := by
            have bounded : buf.cap < 2 ^ Buf.sizeBits := by
              rcases grown.power with empty | ⟨power, -, below, same⟩
              · rw [empty]
                exact Nat.two_pow_pos _
              · rw [same]
                exact Nat.pow_lt_pow_right (by decide) below
            omega
          rw [Nat.mod_eq_sub_mod (Nat.le_of_not_lt wraps), Nat.mod_eq_of_lt less]
        omega
      have begun : (if buf.cap = 0 then 256 else buf.cap) = buf.cap := if_neg (by omega)
      have ended : Doubling.grow Buf.sizeBits ((buf.bytes.length + data.length) % 2 ^ Buf.sizeBits)
          Buf.growTurns buf.cap = some buf.cap := if_neg (by omega)
      have short : ¬(buf.bytes ++ data).length ≤ buf.cap := by
        rw [List.length_append]
        omega
      rw [begun, ended] at done
      simp only [if_pos, dif_neg short] at done
      contradiction
  · rintro (room | small)
    · unfold Buf.append Buf.ensureCapacity
      by_cases empty : data.length = 0
      · exact ⟨buf, if_pos empty⟩
      · have held : (buf.bytes ++ data).length ≤ buf.cap := by
          rw [List.length_append]
          omega
        rw [if_neg empty, if_pos room]
        exact ⟨_, dif_pos held⟩
    · rcases append_spec grown true small with ⟨next, done, -⟩ | refused
      · exact ⟨next, done⟩
      · exact absurd refused.1 (by decide)

end Appending

section Writers

/-- What a writer leaves of every buffer whose size stays within half of what a word can count: all of its
text, or a part of it, where its value may not be written or an answer that it used was no memory. -/
def Writes (command : Writing Bool) (text : Bytes) (allowed : Bool) : Prop :=
  ∀ buf grants, Grown buf → buf.bytes.length + text.length ≤ mostBytes →
    ∃ answer next used rest, command (buf, grants) = some (answer, next, rest) ∧ Grown next ∧
      grants = used ++ rest ∧
      (answer = true → allowed = true ∧ next.bytes = buf.bytes ++ text) ∧
      (answer = false → (allowed = false ∨ false ∈ used) ∧
        ∃ part, part <+: text ∧ next.bytes = buf.bytes ++ part)

/-- An append writes its octets. -/
theorem writes_append (data : Bytes) : Writes (Writing.append data) data true := by
  intro buf grants grown small
  unfold Writing.append
  have split : grants = grants.take 1 ++ grants.tail := by
    rw [← List.drop_one, List.take_append_drop]
  rcases append_spec grown (grants.headD true) small with ⟨next, done, after, same⟩ | ⟨denied, refused⟩
  · refine ⟨true, next, grants.take 1, grants.tail, ?_, after, split, fun _ => ⟨rfl, same⟩, ?_⟩
    · dsimp only
      rw [done]
    · intro impossible
      contradiction
  · refine ⟨false, buf, grants.take 1, grants.tail, ?_, grown, split, ?_,
      fun _ => ⟨Or.inr ?_, [], ?_⟩⟩
    · dsimp only
      rw [refused]
    · intro impossible
      contradiction
    · cases grants with
      | nil => contradiction
      | cons granted rest =>
        have first : granted = false := denied
        rw [first]
        exact List.mem_cons_self
    · exact ⟨List.nil_prefix, (List.append_nil _).symm⟩

variable {first second : Writing Bool} {before after : Buf × List Bool}

/-- What has failed is not gone on with. -/
theorem andThen_of_false (ran : first before = some (false, after)) :
    Writing.andThen first second before = some (false, after) := by
  change Option.bind (first before) _ = _
  rw [ran]
  rfl

/-- What has not failed is gone on with. -/
theorem andThen_of_true (ran : first before = some (true, after)) :
    Writing.andThen first second before = second after := by
  change Option.bind (first before) _ = _
  rw [ran]
  rfl

/-- Two writers write one text after the other. -/
theorem Writes.andThen {begins ends : Bytes} {here there : Bool} (left : Writes first begins here)
    (right : Writes second ends there) :
    Writes (Writing.andThen first second) (begins ++ ends) (here && there) := by
  intro buf grants grown small
  rw [List.length_append] at small
  obtain ⟨answer, middle, used, rest, ran, sound, part, whole, broken⟩ :=
    left buf grants grown (by omega)
  cases answer with
  | false =>
    obtain ⟨cause, piece, begun, same⟩ := broken rfl
    refine ⟨false, middle, used, rest, andThen_of_false ran, sound, part,
      fun impossible => by contradiction,
      fun _ => ⟨?_, piece, begun.trans (List.prefix_append _ _), same⟩⟩
    exact cause.imp_left fun denied => by rw [denied, Bool.false_and]
  | true =>
    obtain ⟨permitted, same⟩ := whole rfl
    obtain ⟨answer, next, more, left', ran', sound', part', whole', broken'⟩ :=
      right middle rest sound (by rw [same, List.length_append]; omega)
    refine ⟨answer, next, used ++ more, left', (andThen_of_true ran).trans ran', sound', ?_,
      fun done => ?_, fun failed => ?_⟩
    · rw [part, part', List.append_assoc]
    · obtain ⟨allowed, all⟩ := whole' done
      rw [permitted, allowed, all, same, List.append_assoc]
      exact ⟨rfl, rfl⟩
    · obtain ⟨cause, piece, begun, reached⟩ := broken' failed
      refine ⟨?_, begins ++ piece, (List.prefix_append_right_inj begins).mpr begun, ?_⟩
      · refine cause.imp (fun denied => ?_) fun refused => List.mem_append_right used refused
        rw [denied, Bool.and_false]
      · rw [reached, same, List.append_assoc]

/-- Nothing is written. -/
theorem writes_pure (answer : Bool) : Writes (pure answer) [] answer := by
  intro buf grants grown _
  refine ⟨answer, buf, [], grants, rfl, grown, rfl, fun done => ⟨done, ?_⟩,
    fun failed => ⟨Or.inl failed, [], List.nil_prefix, ?_⟩⟩
  · rw [List.append_nil]
  · rw [List.append_nil]

/-- `write_string` writes its text. -/
theorem writes_writeString (text : Bytes) : Writes (Writing.writeString text) (writeString text) true := by
  have loop : Writes (Writing.writeBytes text) (text.flatMap escapeByte) true := by
    induction text with
    | nil => exact writes_pure true
    | cons byte rest ih =>
      rw [List.flatMap_cons]
      exact (writes_append (escapeByte byte)).andThen ih
  have whole := (writes_append [34]).andThen (loop.andThen (writes_append [34]))
  rw [← List.append_assoc] at whole
  exact whole

variable {A : Type} {write : A → Writing Bool} {text : A → Bytes} {allowed : A → Bool}

/-- The parts behind a first one. -/
theorem writes_writeParts_later (each : ∀ item, Writes (write item) (text item) (allowed item))
    (items : List A) : Writes (Writing.writeParts write false items)
      (items.flatMap fun item => [44] ++ text item) (items.all allowed) := by
  induction items with
  | nil => exact writes_pure true
  | cons item items ih =>
    have whole := (writes_append [44]).andThen ((each item).andThen ih)
    rw [← List.append_assoc, Bool.true_and] at whole
    exact whole

/-- Parts separated by commas, from the first one on. -/
theorem joinParts_cons (part : Bytes) (parts : List Bytes) :
    joinParts (part :: parts) = part ++ parts.flatMap fun part => [44] ++ part := by
  induction parts generalizing part with
  | nil => exact (List.append_nil part).symm
  | cons next parts ih =>
    have unfolded : joinParts (part :: next :: parts) = part ++ [44] ++ joinParts (next :: parts) := rfl
    rw [unfolded, ih, List.flatMap_cons, List.append_assoc, List.append_assoc]

/-- The loop of `write_array` and `write_object` writes the parts separated by commas. -/
theorem writes_writeParts (each : ∀ item, Writes (write item) (text item) (allowed item))
    (items : List A) : Writes (Writing.writeParts write true items) (joinParts (items.map text))
      (items.all allowed) := by
  cases items with
  | nil => exact writes_pure true
  | cons item items =>
    rw [List.map_cons, joinParts_cons, List.flatMap_map]
    exact (each item).andThen (writes_writeParts_later each items)

end Writers

section Values

/-- A value is nested within some levels. -/
def shallow : Nat → Value → Bool
  | 0, _ => false
  | levels + 1, .array items => items.all (shallow levels)
  | levels + 1, .object members => members.all fun entry => shallow levels entry.2
  | _ + 1, _ => true

/-- What the writer would append for a value, with what is nested too deep left out. -/
def fullText : Nat → Value → Bytes
  | 0, _ => []
  | _ + 1, .null => ascii "null"
  | _ + 1, .bool true => ascii "true"
  | _ + 1, .bool false => ascii "false"
  | _ + 1, .number number => writeNumber number
  | _ + 1, .string text => writeString text
  | levels + 1, .array items => [91] ++ joinParts (items.map (fullText levels)) ++ [93]
  | levels + 1, .object members =>
    [123] ++ joinParts (members.map fun entry =>
      writeString (cString entry.1) ++ [58] ++ fullText levels entry.2) ++ [125]

/-- All of some optional texts. -/
theorem mapM_eq {A : Type} {read : A → Option Bytes} {text : A → Bytes} {allowed : A → Bool}
    (each : ∀ item, read item = if allowed item then some (text item) else none) (items : List A) :
    items.mapM read = if items.all allowed then some (items.map text) else none := by
  induction items with
  | nil => rfl
  | cons item items ih =>
    rw [List.mapM_cons, each, ih, List.all_cons, List.map_cons]
    cases allowed item with
    | false => rfl
    | true =>
      cases items.all allowed with
      | false => rfl
      | true => rfl

/-- The plain writer returns the full text of a value that is not nested too deep. -/
theorem writeValue_eq (levels : Nat) (value : Value) :
    writeValue levels value = if shallow levels value then some (fullText levels value) else none := by
  induction levels generalizing value with
  | zero => rfl
  | succ levels ih =>
    cases value with
    | null => rfl
    | bool flag =>
      cases flag with
      | true => rfl
      | false => rfl
    | number number => rfl
    | string text => rfl
    | array items =>
      unfold writeValue shallow fullText
      rw [mapM_eq ih]
      cases items.all (shallow levels) with
      | false => rfl
      | true => rfl
    | object members =>
      have each (entry : Bytes × Value) :
          (do some (writeString (cString entry.1) ++ [58] ++ (← writeValue levels entry.2))) =
            if shallow levels entry.2 then
              some (writeString (cString entry.1) ++ [58] ++ fullText levels entry.2) else none := by
        rw [ih]
        cases shallow levels entry.2 with
        | false => rfl
        | true => rfl
      unfold writeValue shallow fullText
      rw [mapM_eq each]
      cases members.all fun entry => shallow levels entry.2 with
      | false => rfl
      | true => rfl

/-- `write_value` writes the full text of a value. -/
theorem writes_writeValue (levels : Nat) (value : Value) :
    Writes (Writing.writeValue levels value) (fullText levels value) (shallow levels value) := by
  induction levels generalizing value with
  | zero => exact writes_pure false
  | succ levels ih =>
    cases value with
    | null => exact writes_append _
    | bool flag =>
      cases flag with
      | true => exact writes_append _
      | false => exact writes_append _
    | number number => exact writes_append _
    | string text => exact writes_writeString text
    | array items =>
      have whole := (writes_append [91]).andThen ((writes_writeParts ih items).andThen (writes_append [93]))
      rw [← List.append_assoc, Bool.true_and, Bool.and_true] at whole
      exact whole
    | object members =>
      have member (entry : Bytes × Value) := (writes_writeString (cString entry.1)).andThen
        ((writes_append [58]).andThen (ih entry.2))
      simp only [← List.append_assoc, Bool.true_and] at member
      have whole := (writes_append [123]).andThen
        ((writes_writeParts member members).andThen (writes_append [125]))
      rw [← List.append_assoc, Bool.true_and, Bool.and_true] at whole
      exact whole

/-- Whatever value is written to whatever buffer, and whenever memory runs out, the writer comes back. It
answers `true` exactly with the whole text of the plain writer appended; else the value is nested too
deep or an answer that it used was no memory, and a part is appended. The capacity stays a power of two and within twice
what is written. -/
theorem write_fills_buffer (value : Value) (buf : Buf) (grants : List Bool) (grown : Grown buf)
    (small : buf.bytes.length + (fullText maxDepth value).length ≤ mostBytes) :
    ∃ answer next used rest, Writing.write value (buf, grants) = some (answer, next, rest) ∧
      Grown next ∧ grants = used ++ rest ∧
      (answer = true → ∃ text, write value = some text ∧ next.bytes = buf.bytes ++ text) ∧
      (answer = false → (write value = none ∨ false ∈ used) ∧
        ∃ part, part <+: fullText maxDepth value ∧ next.bytes = buf.bytes ++ part) := by
  have plain : write value = _ := writeValue_eq maxDepth value
  obtain ⟨answer, next, used, rest, ran, sound, split, whole, broken⟩ :=
    writes_writeValue maxDepth value buf grants grown small
  refine ⟨answer, next, used, rest, ran, sound, split, fun done => ?_, fun failed => ?_⟩
  · obtain ⟨allowed, same⟩ := whole done
    exact ⟨fullText maxDepth value, by rw [plain, if_pos allowed], same⟩
  · obtain ⟨cause, piece⟩ := broken failed
    refine ⟨cause.imp_left fun denied => ?_, piece⟩
    rw [plain, denied]
    rfl

/-- A small value, and no memory. -/
theorem write_fills_buffer_of_refusal :
    ∃ answer next used rest, Writing.write (.array [.null, .bool true]) (Buf.init, [false]) =
        some (answer, next, rest) ∧ Grown next ∧ [false] = used ++ rest ∧
      (answer = true → ∃ text, write (.array [.null, .bool true]) = some text ∧
        next.bytes = Buf.init.bytes ++ text) ∧
      (answer = false → (write (.array [.null, .bool true]) = none ∨ false ∈ used) ∧
        ∃ part, part <+: fullText maxDepth (.array [.null, .bool true]) ∧
          next.bytes = Buf.init.bytes ++ part) :=
  write_fills_buffer (.array [.null, .bool true]) Buf.init [false] grown_init (by decide +kernel)

end Values

end PlatformService.Verif.BufferedWriting
