import PlatformService.Api.Common
import PlatformService.Auth.Validate

/-!
# Usernames and addresses in one form

Registration, login and the stored rows agree on an identifier when each brings it into the
same form: a username in lower case, an address without the blanks around it and in lower
case. The validators write through bounded buffers and check lengths behind the copy;
with buffers of the promised sizes no accepted form is cut.
-/

namespace PlatformService.Verif.Normalization

open Validate Api

section Forms

/-- A text in lower case. -/
def lowercase (text : Bytes) : Bytes := text.map toLower

/-- Texts that differ only in letter case. -/
def SameButCase (left right : Bytes) : Prop :=
  List.Forall₂ (fun one other => toLower one = toLower other) left right

/-- The form of a username. -/
structure UsernameForm (name : Bytes) : Prop where
  long : 3 ≤ name.length
  short : name.length ≤ 32
  chars : ∀ byte ∈ name, isUsernameChar byte = true
  starts : name.head?.any isAlnumAscii = true
  unreserved : name ∉ reservedUsernames

/-- A text without the spaces and tabs around it. -/
structure TrimmedTo (text form : Bytes) : Prop where
  around : ∃ front back, text = front ++ form ++ back ∧ (∀ byte ∈ front, isBlank byte = true) ∧
    ∀ byte ∈ back, isBlank byte = true
  opens : form.head?.any isBlank = false
  closes : form.getLast?.any isBlank = false

/-- The form of an address. -/
structure EmailForm (form : Bytes) : Prop where
  short : form.length ≤ 254
  oneAt : form.count 64 = 1
  parts : ∃ localPart domain, form = localPart ++ 64 :: domain ∧ localPart ≠ [] ∧ domain ≠ [] ∧
    46 ∈ domain

/-- What a validator of usernames accepts, and in which form. -/
structure NormalizesUsernames (validate : Bytes → UsernameResult) : Prop where
  accepts : ∀ raw name, validate raw = .valid name ↔
    UsernameForm (lowercase (cString raw)) ∧ name = lowercase (cString raw)
  idempotent : ∀ raw name, validate raw = .valid name → validate name = .valid name
  injective : ∀ raw other name, validate raw = .valid name → validate other = .valid name →
    SameButCase (cString raw) (cString other)

/-- What a validator of addresses accepts, in which form, and how it is displayed. -/
structure NormalizesEmails (validate : Bytes → EmailResult) (display : Bytes → Bytes) : Prop where
  accepts : ∀ raw address, validate raw = .valid address ↔
    ∃ form, TrimmedTo (cString raw) form ∧ EmailForm form ∧ address = lowercase form
  displayed : ∀ raw address, validate raw = .valid address → address = lowercase (display raw)
  idempotent : ∀ raw address, validate raw = .valid address → validate address = .valid address
  injective : ∀ raw other address, validate raw = .valid address → validate other = .valid address →
    ∃ form otherForm, TrimmedTo (cString raw) form ∧ TrimmedTo (cString other) otherForm ∧
      SameButCase form otherForm

end Forms

section Letters

/-- What lowering a letter keeps. -/
theorem toLower_spec (byte : UInt8) :
    toLower (toLower byte) = toLower byte ∧ (toLower byte = 0 ↔ byte = 0) ∧
      (toLower byte = 64 ↔ byte = 64) ∧ (toLower byte = 46 ↔ byte = 46) ∧
      isBlank (toLower byte) = isBlank byte := by
  have cases (number : Fin 256) :
      toLower (toLower (UInt8.ofFin number)) = toLower (UInt8.ofFin number) ∧
        (toLower (UInt8.ofFin number) = 0 ↔ UInt8.ofFin number = 0) ∧
        (toLower (UInt8.ofFin number) = 64 ↔ UInt8.ofFin number = 64) ∧
        (toLower (UInt8.ofFin number) = 46 ↔ UInt8.ofFin number = 46) ∧
        isBlank (toLower (UInt8.ofFin number)) = isBlank (UInt8.ofFin number) := by
    revert number
    decide +kernel
  exact cases byte.toFin

/-- Lower case is lowered no further. -/
theorem lowercase_lowercase (text : Bytes) : lowercase (lowercase text) = lowercase text := by
  unfold lowercase
  rw [List.map_map]
  exact List.map_congr_left fun byte _ => (toLower_spec byte).1

/-- Lowering leaves the octets that no letter becomes where they are. -/
theorem mem_lowercase {text : Bytes} {mark : UInt8}
    (unlettered : ∀ byte, toLower byte = mark ↔ byte = mark) : mark ∈ lowercase text ↔ mark ∈ text := by
  unfold lowercase
  rw [List.mem_map]
  constructor
  · intro ⟨byte, stored, same⟩
    rw [(unlettered byte).mp same] at stored
    exact stored
  · intro stored
    exact ⟨mark, stored, (unlettered mark).mpr rfl⟩

/-- A text in lower case has no NUL that was not there. -/
theorem cString_lowercase (text : Bytes) :
    cString (lowercase (cString text)) = lowercase (cString text) := by
  apply cString_eq_self
  rw [mem_lowercase fun byte => (toLower_spec byte).2.1]
  exact zero_not_mem_cString text

/-- Texts differ only in case exactly when they are one in lower case. -/
theorem sameButCase_iff {left right : Bytes} :
    SameButCase left right ↔ lowercase left = lowercase right := by
  unfold SameButCase lowercase
  rw [← List.forall₂_eq_eq_eq, List.forall₂_map_left_iff, List.forall₂_map_right_iff]

end Letters

section Usernames

variable {outSize : Nat}

/-- With room for a whole username the validator accepts the form and returns it. -/
theorem username_eq_valid_iff (room : usernameMax ≤ outSize) {raw name : Bytes} :
    username raw outSize true = .valid name ↔
      UsernameForm (lowercase (cString raw)) ∧ name = lowercase (cString raw) := by
  have size : (lowercase (cString raw)).length = (cString raw).length := List.length_map _
  have bound : usernameMax = 33 := rfl
  unfold username
  dsimp only
  by_cases short : (cString raw).length < 3
  · rw [if_pos short]
    constructor
    · intro refused
      contradiction
    · intro ⟨form, _⟩
      have long := form.long
      omega
  rw [if_neg short]
  by_cases long : 32 < (cString raw).length
  · rw [if_pos long]
    constructor
    · intro refused
      contradiction
    · intro ⟨form, _⟩
      have fits := form.short
      omega
  rw [if_neg long]
  have whole : ((cString raw).take (outSize - 1)).map toLower = lowercase (cString raw) := by
    rw [List.take_of_length_le (by omega)]
    rfl
  rw [whole]
  generalize lowercase (cString raw) = lowered at size
  by_cases chars : lowered.all isUsernameChar = true
  · rw [if_neg (by simp [chars])]
    cases split : lowered with
    | nil =>
      rw [split, List.length_nil] at size
      omega
    | cons first rest =>
      by_cases starts : isAlnumAscii first = true
      · rw [List.headD_cons, if_neg (by simp [starts])]
        by_cases reserved : first :: rest ∈ reservedUsernames
        · rw [if_pos (by simp [reserved])]
          constructor
          · intro refused
            contradiction
          · intro ⟨form, _⟩
            exact absurd reserved form.unreserved
        · rw [if_neg (by simp [reserved]), UsernameResult.valid.injEq]
          rw [split] at size chars
          constructor
          · intro same
            refine ⟨⟨by omega, by omega, List.all_eq_true.mp chars, ?_, reserved⟩, same.symm⟩
            rw [List.head?_cons, Option.any_some]
            exact starts
          · intro ⟨_, same⟩
            exact same.symm
      · rw [List.headD_cons, if_pos (by simp [starts])]
        constructor
        · intro refused
          contradiction
        · intro ⟨form, _⟩
          exact absurd form.starts starts
  · rw [if_pos (by simp [chars])]
    constructor
    · intro refused
      contradiction
    · intro ⟨form, _⟩
      exact absurd (List.all_eq_true.mpr form.chars) chars

/-- The validator of usernames brings every accepted name into one form. -/
theorem normalizes_usernames (room : usernameMax ≤ outSize) :
    NormalizesUsernames fun raw => username raw outSize true where
  accepts raw name := username_eq_valid_iff room
  idempotent raw name accepted := by
    have form := (username_eq_valid_iff room).mp accepted
    have stays : lowercase (cString name) = name := by
      rw [form.2, cString_lowercase, lowercase_lowercase]
    apply (username_eq_valid_iff room).mpr
    rw [stays]
    exact ⟨form.2 ▸ form.1, rfl⟩
  injective raw other name accepted taken := by
    have form := (username_eq_valid_iff room).mp accepted
    have otherForm := (username_eq_valid_iff room).mp taken
    exact sameButCase_iff.mpr (form.2.symm.trans otherForm.2)

end Usernames

section Trimming

/-- Dropping takes off what meets the test, up to something that does not. -/
theorem dropWhile_front {front rest : Bytes} {drops : UInt8 → Bool}
    (all : ∀ byte ∈ front, drops byte = true) (stops : rest.head?.any drops = false) :
    (front ++ rest).dropWhile drops = rest := by
  rw [List.dropWhile_append_of_pos all]
  cases rest with
  | nil => rfl
  | cons first rest => exact List.dropWhile_cons_of_neg (by simpa using stops)

/-- What is left behind a dropped front does not begin with what is dropped. -/
theorem head_dropWhile (text : Bytes) (drops : UInt8 → Bool) :
    (text.dropWhile drops).head?.any drops = false := by
  have stops := List.head?_dropWhile_not drops text
  cases first : (text.dropWhile drops).head? with
  | none => rfl
  | some byte =>
    rw [first] at stops
    simpa using stops

/-- The trimming loops leave the text without the blanks around it. -/
theorem trimmedTo_iff {raw form : Bytes} : TrimmedTo (cString raw) form ↔ form = trim raw := by
  unfold trim List.rdropWhile
  constructor
  · intro trimmed
    obtain ⟨front, back, whole, blankFront, blankBack⟩ := trimmed.around
    have blankReversed : ∀ byte ∈ back.reverse, isBlank byte = true :=
      fun byte stored => blankBack byte (List.mem_reverse.mp stored)
    rw [whole]
    cases split : form with
    | nil =>
      have blank : ∀ byte ∈ front ++ back, isBlank byte = true := by
        intro byte stored
        cases List.mem_append.mp stored with
        | inl first => exact blankFront byte first
        | inr last => exact blankBack byte last
      rw [List.append_nil, List.dropWhile_eq_nil_iff.mpr blank]
      rfl
    | cons first rest =>
      have opens : ((first :: rest) ++ back).head?.any isBlank = false := by
        have opens := trimmed.opens
        rw [split] at opens
        exact opens
      have closes : (first :: rest).reverse.head?.any isBlank = false := by
        have closes := trimmed.closes
        rw [split] at closes
        rw [List.head?_reverse]
        exact closes
      rw [List.append_assoc, dropWhile_front blankFront opens, List.reverse_append,
        dropWhile_front blankReversed closes, List.reverse_reverse]
  · intro same
    rw [same]
    have inner := List.takeWhile_append_dropWhile (p := isBlank) (l := cString raw)
    generalize taken : (cString raw).takeWhile isBlank = front at inner
    have outer := List.takeWhile_append_dropWhile (p := isBlank)
      (l := ((cString raw).dropWhile isBlank).reverse)
    generalize takenBack : ((cString raw).dropWhile isBlank).reverse.takeWhile isBlank = back at outer
    have parts : ((((cString raw).dropWhile isBlank).reverse.dropWhile isBlank).reverse ++
        back.reverse) = (cString raw).dropWhile isBlank := by
      rw [← List.reverse_append, outer, List.reverse_reverse]
    refine ⟨⟨front, back.reverse, ?_, ?_, ?_⟩, ?_, ?_⟩
    · rw [List.append_assoc, parts, inner]
    · intro byte stored
      rw [← taken] at stored
      exact List.mem_takeWhile_imp stored
    · intro byte stored
      rw [List.mem_reverse, ← takenBack] at stored
      exact List.mem_takeWhile_imp stored
    · have start := head_dropWhile (cString raw) isBlank
      rw [← parts] at start
      cases form' : (((cString raw).dropWhile isBlank).reverse.dropWhile isBlank).reverse with
      | nil => rfl
      | cons first rest =>
        rw [form'] at start
        exact start
    · rw [List.getLast?_reverse]
      exact head_dropWhile _ _

/-- A trimmed text in lower case is trimmed. -/
theorem trim_lowercase (raw : Bytes) : trim (lowercase (trim raw)) = lowercase (trim raw) := by
  have trimmed := trimmedTo_iff.mpr (rfl : trim raw = trim raw)
  have blank : ∀ last : Option UInt8, (last.map toLower).any isBlank = last.any isBlank := by
    intro last
    cases last with
    | none => rfl
    | some byte => exact (toLower_spec byte).2.2.2.2
  have free : (0 : UInt8) ∉ trim raw := by
    obtain ⟨front, back, whole, _⟩ := trimmed.around
    intro stored
    have inside : (0 : UInt8) ∈ cString raw := by
      rw [whole]
      exact List.mem_append_left _ (List.mem_append_right _ stored)
    exact zero_not_mem_cString raw inside
  have bare : cString (lowercase (trim raw)) = lowercase (trim raw) :=
    cString_eq_self (by rw [mem_lowercase fun byte => (toLower_spec byte).2.1]; exact free)
  apply (trimmedTo_iff.mp _).symm
  refine ⟨⟨[], [], ?_, by simp, by simp⟩, ?_, ?_⟩
  · rw [bare]
    simp
  · unfold lowercase
    rw [List.head?_map, blank]
    exact trimmed.opens
  · unfold lowercase
    rw [List.getLast?_map, blank]
    exact trimmed.closes

end Trimming

section Emails

variable {outSize : Nat}

/-- The part of an address behind its first `@`. -/
def domainOf (form : Bytes) : Bytes := (form.dropWhile (· ≠ 64)).tail

/-- The first `@` cuts a text in two. -/
theorem domainOf_append {localPart domain : Bytes} (free : 64 ∉ localPart) :
    domainOf (localPart ++ 64 :: domain) = domain := by
  have passed : ∀ byte ∈ localPart, decide (byte ≠ 64) = true := by
    intro byte stored
    rw [decide_eq_true_eq]
    intro mark
    rw [mark] at stored
    exact free stored
  unfold domainOf
  rw [dropWhile_front passed rfl]
  rfl

/-- A text with an `@` is cut at the first. -/
theorem cut_at_mark {form : Bytes} (marked : 64 ∈ form) :
    ∃ localPart, form = localPart ++ 64 :: domainOf form ∧ 64 ∉ localPart := by
  have parts : form.takeWhile (· ≠ 64) ++ form.dropWhile (· ≠ 64) = form :=
    List.takeWhile_append_dropWhile
  have free : (64 : UInt8) ∉ form.takeWhile (· ≠ 64) := by
    intro inside
    have passed := List.mem_takeWhile_imp inside
    simp at passed
  refine ⟨form.takeWhile (· ≠ 64), ?_, free⟩
  cases behind : form.dropWhile (· ≠ 64) with
  | nil =>
    rw [behind, List.append_nil] at parts
    rw [parts] at free
    exact absurd marked free
  | cons first rest =>
    have stops := head_dropWhile form fun byte => decide (byte ≠ 64)
    have mark : first = 64 := by
      rw [behind] at stops
      simpa using stops
    have domain : domainOf form = rest := by
      unfold domainOf
      rw [behind]
      rfl
    rw [behind, mark] at parts
    rw [domain]
    exact parts.symm

/-- An address has its form exactly when the scans of the validator find nothing wrong. -/
theorem emailForm_iff {form : Bytes} :
    EmailForm form ↔ form.length ≤ 254 ∧ (64 ∈ form ∧ 64 ∉ domainOf form) ∧
      form.head? ≠ some 64 ∧ domainOf form ≠ [] ∧ 46 ∈ domainOf form := by
  constructor
  · intro holds
    obtain ⟨localPart, domain, whole, filled, domainFilled, dotted⟩ := holds.parts
    have one := holds.oneAt
    rw [whole, List.count_append, List.count_cons_self] at one
    have localFree : 64 ∉ localPart := List.count_eq_zero.mp (by omega)
    have domainFree : 64 ∉ domain := List.count_eq_zero.mp (by omega)
    have behind : domainOf form = domain := by rw [whole, domainOf_append localFree]
    have start : form.head? ≠ some 64 := by
      rw [whole]
      cases localPart with
      | nil => contradiction
      | cons first rest =>
        intro marked
        have first64 : first = 64 := Option.some.inj marked
        rw [first64] at localFree
        exact localFree List.mem_cons_self
    have marked : 64 ∈ form := by
      rw [whole]
      exact List.mem_append_right _ List.mem_cons_self
    rw [behind]
    exact ⟨holds.short, ⟨marked, domainFree⟩, start, domainFilled, dotted⟩
  · intro ⟨short, ⟨marked, domainFree⟩, start, domainFilled, dotted⟩
    obtain ⟨localPart, whole, localFree⟩ := cut_at_mark marked
    have filled : localPart ≠ [] := by
      intro empty
      rw [whole, empty] at start
      exact start rfl
    refine ⟨short, ?_, localPart, domainOf form, whole, filled, domainFilled, dotted⟩
    rw [whole, List.count_append, List.count_cons_self, List.count_eq_zero.mpr localFree,
      List.count_eq_zero.mpr domainFree]

/-- Lowering an address lowers what stands behind its first `@`. -/
theorem domainOf_lowercase (form : Bytes) : domainOf (lowercase form) = lowercase (domainOf form) := by
  have same : ((fun byte : UInt8 => decide (byte ≠ 64)) ∘ toLower) = fun byte => decide (byte ≠ 64) := by
    funext byte
    simp [(toLower_spec byte).2.2.1]
  unfold domainOf lowercase
  rw [List.dropWhile_map, same, List.map_tail]

/-- An address has its form in lower case exactly when it has it as it is. -/
theorem emailForm_lowercase {form : Bytes} : EmailForm (lowercase form) ↔ EmailForm form := by
  have size : (lowercase form).length = form.length := List.length_map _
  have atMark : ∀ text : Bytes, 64 ∈ lowercase text ↔ 64 ∈ text := fun text =>
    mem_lowercase fun byte => (toLower_spec byte).2.2.1
  have dot : ∀ text : Bytes, 46 ∈ lowercase text ↔ 46 ∈ text := fun text =>
    mem_lowercase fun byte => (toLower_spec byte).2.2.2.1
  have start : (lowercase form).head? = some 64 ↔ form.head? = some 64 := by
    unfold lowercase
    rw [List.head?_map]
    cases form.head? with
    | none => simp
    | some byte => simp [(toLower_spec byte).2.2.1]
  have empty : lowercase (domainOf form) = [] ↔ domainOf form = [] := List.map_eq_nil_iff
  rw [emailForm_iff, emailForm_iff, size, domainOf_lowercase, atMark, atMark, dot, Ne, Ne, Ne, Ne,
    start, empty]

/-- With room for a whole address the validator accepts the form and returns it in lower case. -/
theorem email_eq_valid_iff (room : emailMax ≤ outSize) {raw address : Bytes} :
    email raw outSize = .valid address ↔
      EmailForm (trim raw) ∧ address = lowercase (trim raw) := by
  have bound : emailMax = 255 := rfl
  have size : (lowercase (trim raw)).length = (trim raw).length := List.length_map _
  rw [← emailForm_lowercase, emailForm_iff, size]
  unfold email
  dsimp only
  by_cases long : 254 < (trim raw).length
  · rw [if_pos long]
    constructor
    · intro refused
      contradiction
    · intro ⟨form, _⟩
      have short := form.1
      omega
  have whole : ((trim raw).take (outSize - 1)).map toLower = lowercase (trim raw) := by
    rw [List.take_of_length_le (by omega)]
    rfl
  have domain : ((lowercase (trim raw)).dropWhile fun byte => decide (byte ≠ 64)).tail =
      domainOf (lowercase (trim raw)) := rfl
  rw [if_neg long, whole, domain]
  generalize lowercase (trim raw) = out
  by_cases marks : 64 ∉ out ∨ 64 ∈ domainOf out
  · rw [if_pos marks]
    constructor
    · intro refused
      contradiction
    · intro ⟨form, _⟩
      cases marks with
      | inl missing => exact absurd form.2.1.1 missing
      | inr second => exact absurd second form.2.1.2
  rw [if_neg marks]
  have one := not_or.mp marks
  by_cases sides : out.head? = some 64 ∨ domainOf out = [] ∨ 46 ∉ domainOf out
  · rw [if_pos sides]
    constructor
    · intro refused
      contradiction
    · intro ⟨form, _⟩
      cases sides with
      | inl start => exact absurd start form.2.2.1
      | inr behind =>
        cases behind with
        | inl empty => exact absurd empty form.2.2.2.1
        | inr undotted => exact absurd form.2.2.2.2 undotted
  · rw [if_neg sides, EmailResult.valid.injEq]
    have filled := not_or.mp sides
    have dotted := not_or.mp filled.2
    constructor
    · intro same
      exact ⟨⟨by omega, ⟨not_not.mp one.1, one.2⟩, filled.1, dotted.1, not_not.mp dotted.2⟩, same.symm⟩
    · intro ⟨_, same⟩
      exact same.symm

/-- The validator of addresses brings every accepted address into one form, which is the displayed
address in lower case. -/
theorem normalizes_emails (room : emailMax ≤ outSize) :
    NormalizesEmails (fun raw => email raw outSize) fun raw => trimInto raw emailMax where
  accepts raw address := by
    rw [email_eq_valid_iff room]
    constructor
    · intro ⟨form, same⟩
      exact ⟨trim raw, trimmedTo_iff.mpr rfl, form, same⟩
    · intro ⟨form, trimmed, holds, same⟩
      rw [trimmedTo_iff.mp trimmed] at holds same
      exact ⟨holds, same⟩
  displayed raw address accepted := by
    have form := (email_eq_valid_iff room).mp accepted
    have short : (trim raw).length ≤ emailMax - 1 := form.1.short
    have whole : trimInto raw emailMax = trim raw := List.take_of_length_le short
    rw [whole]
    exact form.2
  idempotent raw address accepted := by
    have form := (email_eq_valid_iff room).mp accepted
    have stays : trim address = address := by rw [form.2, trim_lowercase]
    apply (email_eq_valid_iff room).mpr
    rw [stays, form.2, lowercase_lowercase, emailForm_lowercase]
    exact ⟨form.1, rfl⟩
  injective raw other address accepted taken := by
    have form := (email_eq_valid_iff room).mp accepted
    have otherForm := (email_eq_valid_iff room).mp taken
    exact ⟨trim raw, trim other, trimmedTo_iff.mpr rfl, trimmedTo_iff.mpr rfl,
      sameButCase_iff.mpr (form.2.symm.trans otherForm.2)⟩

/-- Both validators, with buffers of at least the promised sizes, bring what they accept into one
form. -/
theorem identifiers_normalized {nameSize emailSize : Nat} (nameRoom : usernameMax ≤ nameSize)
    (emailRoom : emailMax ≤ emailSize) :
    NormalizesUsernames (fun raw => username raw nameSize true) ∧
      NormalizesEmails (fun raw => email raw emailSize) fun raw => trimInto raw emailMax :=
  ⟨normalizes_usernames nameRoom, normalizes_emails emailRoom⟩

/-- The validators with the buffers of the handlers. -/
theorem identifiers_normalized_handlers :
    NormalizesUsernames (fun raw => username raw usernameMax true) ∧
      NormalizesEmails (fun raw => email raw emailMax) fun raw => trimInto raw emailMax :=
  identifiers_normalized (Nat.le_refl usernameMax) (Nat.le_refl emailMax)

end Emails

end PlatformService.Verif.Normalization
