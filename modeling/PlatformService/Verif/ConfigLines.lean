import PlatformService.Lib.Fields
import PlatformService.Lib.Assoc
import PlatformService.Platform.ConfigLoad

/-!
# The lines of a configuration file

A physical line is a blank line, a comment or one assignment, and a setting keeps the text
of the last line that assigns to it. `load_file` reads so the pieces that `fgets` cuts a
file into, and the pieces say what the lines say when no line is longer than the buffer.
-/

namespace PlatformService.Verif.ConfigLines

open Lib Settings

/-- What a line of a configuration file is. -/
inductive LineKind where
  | blank
  | comment
  | assignment (key value : Bytes)
  | malformed
  deriving DecidableEq, Repr

/-- The kind of a line: an assignment is split at its first `=`, without the blanks around the key
and the value. -/
def lineKind (line : Bytes) : LineKind :=
  if line.all isSpace then .blank
  else if (line.dropWhile isSpace).head? = some 35 ∨ (line.dropWhile isSpace).head? = some 59 then
    .comment
  else if 61 ∈ line then
    .assignment (trimEnds isSpace (line.takeWhile (· ≠ 61)))
      (trimEnds isSpace (line.dropWhile (· ≠ 61)).tail)
  else .malformed

/-- The physical lines of a file. -/
def physicalLines (content : Bytes) : List Bytes := content.splitOn 10

/-- Whether a line is a blank line, a comment or an assignment to a setting that a file may hold. -/
def Sound (line : Bytes) : Prop :=
  match lineKind line with
  | .blank | .comment => True
  | .assignment key _ => ∃ s : Setting, ascii s.row.key = key ∧ s.row.envOnly = false
  | .malformed => False

/-- The text a line assigns to a setting. -/
def assigned (s : Setting) (line : Bytes) : Option Bytes :=
  match lineKind line with
  | .assignment key value => if ascii s.row.key = key then some value else none
  | _ => none

/-- The text of a setting after lines: the last one assigned to it, or its default. -/
def fileText (lines : List Bytes) (s : Setting) : Bytes :=
  ((lines.filterMap (assigned s)).getLast?).getD (ascii s.row.dflt)

/-- Whether a piece of a file makes `load_file` fail: it is not sound, or the text it assigns is no
value of its setting. -/
def Refused (piece : Bytes) : Prop :=
  ¬Sound piece ∨ ∃ s text, assigned s piece = some text ∧ ∀ value, s.read text ≠ .ok value

/-- Whether some valid configuration has a value in a setting. -/
def Allowed (s : Setting) (value : s.Value) : Prop :=
  ∃ cfg : PsConfig, cfg s = value ∧ psConfigValidate cfg = .ok ()

/-- Whether the pieces of at most 1023 bytes that `fgets` reads say what the lines say: a piece is
refused, or all lines are sound and the last piece and the last line that assign to a setting give
it the same value, where a valid configuration can have it. -/
def ReadsByLine (content : Bytes) : Prop :=
  (∃ piece ∈ fgetsAll 1023 [] content, Refused piece) ∨
    (∀ line ∈ physicalLines content, Sound line) ∧
      ∀ (s : Setting) (value : s.Value), s.read (fileText (fgetsAll 1023 [] content) s) = .ok value →
        Allowed s value → s.read (fileText (physicalLines content) s) = .ok value

/-! ## Lines and their trimmed texts -/

/-- Blanks behind a text are cut off with the others. -/
theorem trimEnds_append_blanks (text : Bytes) {behind : Bytes} (blanks : ∀ c ∈ behind, isSpace c = true) :
    trimEnds isSpace (text ++ behind) = trimEnds isSpace text := by
  obtain ⟨before, after, shape, leading, trailing, starts, ends⟩ := exists_padded isSpace text
  have more : ∀ c ∈ after ++ behind, isSpace c = true := by
    intro c member
    rcases List.mem_append.mp member with inner | outer
    · exact trailing c inner
    · exact blanks c outer
  have joined : text ++ behind = before ++ (trimEnds isSpace text ++ (after ++ behind)) := by
    conv_lhs => rw [shape]
    simp only [List.append_assoc]
  rw [joined]
  exact trimEnds_padded leading more starts ends

/-- Blanks in front of a text are cut off with the others. -/
theorem trimEnds_blanks_append {before : Bytes} (blanks : ∀ c ∈ before, isSpace c = true) (text : Bytes) :
    trimEnds isSpace (before ++ text) = trimEnds isSpace text := by
  unfold trimEnds
  rw [List.dropWhile_append_of_pos blanks]

/-- A text is all blanks exactly when nothing is left of it. -/
theorem trimEnds_eq_nil_iff {text : Bytes} : trimEnds isSpace text = [] ↔ ∀ c ∈ text, isSpace c = true := by
  obtain ⟨before, behind, shape, leading, trailing, starts, -⟩ := exists_padded isSpace text
  constructor
  · intro empty c member
    rw [shape, empty, List.nil_append, List.mem_append] at member
    rcases member with front | back
    · exact leading c front
    · exact trailing c back
  · intro blanks
    cases left : trimEnds isSpace text with
    | nil => rfl
    | cons first rest =>
      rw [left] at starts shape
      have space : isSpace first = true := blanks first (by rw [shape]; simp)
      rw [starts first rfl] at space
      contradiction

/-- A text is split at its first `=`. -/
theorem split_at_equals {front : Bytes} (early : (61 : UInt8) ∉ front) (rest : Bytes) :
    (front ++ 61 :: rest).takeWhile (· ≠ 61) = front ∧
      ((front ++ 61 :: rest).dropWhile (· ≠ 61)).tail = rest := by
  have passed : ∀ c ∈ front, decide (c ≠ 61) = true := by
    intro c member
    rw [decide_eq_true_eq]
    rintro rfl
    exact early member
  constructor
  · rw [List.takeWhile_append_of_pos passed, List.takeWhile_cons_of_neg (by simp), List.append_nil]
  · rw [List.dropWhile_append_of_pos passed, List.dropWhile_cons_of_neg (by simp)]
    rfl

/-- The kind of a text between blanks, when it has none at its own start. -/
theorem lineKind_padded {before text behind : Bytes} (leading : ∀ c ∈ before, isSpace c = true)
    (trailing : ∀ c ∈ behind, isSpace c = true) (nonempty : text ≠ [])
    (starts : ∀ c ∈ text.head?, isSpace c = false) :
    lineKind (before ++ (text ++ behind)) = lineKind text := by
  obtain ⟨first, rest, shape⟩ := List.exists_cons_of_ne_nil nonempty
  have stands : isSpace first = false := starts first (by rw [shape]; rfl)
  have visible : ¬text.all isSpace = true := by
    rw [shape, List.all_cons, stands, Bool.false_and]
    decide
  have longer : ¬(before ++ (text ++ behind)).all isSpace = true := by
    intro all
    rw [List.all_append, List.all_append, Bool.and_eq_true, Bool.and_eq_true] at all
    exact visible all.2.1
  have skipped : text.dropWhile isSpace = text := by
    rw [shape, List.dropWhile_cons_of_neg (by rw [stands]; decide)]
  have opened : ((before ++ (text ++ behind)).dropWhile isSpace).head? = (text.dropWhile isSpace).head? := by
    rw [List.dropWhile_append_of_pos leading, skipped, shape, List.cons_append,
      List.dropWhile_cons_of_neg (by rw [stands]; decide)]
    rfl
  have unblank : ∀ {blanks : Bytes}, (∀ c ∈ blanks, isSpace c = true) → (61 : UInt8) ∉ blanks := by
    intro blanks all member
    exact absurd (all 61 member) (by decide)
  unfold lineKind
  rw [if_neg visible, if_neg longer, opened]
  by_cases split : (61 : UInt8) ∈ text
  · have inside : (61 : UInt8) ∈ before ++ (text ++ behind) := by simp [split]
    obtain ⟨key, value, parts, early⟩ := List.eq_append_cons_of_mem split
    have whole : before ++ (text ++ behind) = (before ++ key) ++ 61 :: (value ++ behind) := by
      rw [parts]
      simp
    have late : (61 : UInt8) ∉ before ++ key := by
      rw [List.mem_append]
      rintro (outer | inner)
      · exact unblank leading outer
      · exact early inner
    have inner := split_at_equals early value
    have outer := split_at_equals late (value ++ behind)
    rw [← parts] at inner
    rw [← whole] at outer
    rw [if_pos split, if_pos inside, inner.1, inner.2, outer.1, outer.2,
      trimEnds_blanks_append leading, trimEnds_append_blanks _ trailing]
  · have outside : (61 : UInt8) ∉ before ++ (text ++ behind) := by
      rw [List.mem_append, List.mem_append]
      rintro (front | inner | back)
      · exact unblank leading front
      · exact split inner
      · exact unblank trailing back
    rw [if_neg split, if_neg outside]

/-- The blanks around a line say nothing. -/
theorem lineKind_trim (line : Bytes) : lineKind (trim line) = lineKind line := by
  obtain ⟨before, behind, shape, leading, trailing, starts, -⟩ := exists_padded isSpace line
  by_cases empty : trimEnds isSpace line = []
  · have blanks := trimEnds_eq_nil_iff.mp empty
    have blank : line.all isSpace = true := List.all_eq_true.mpr blanks
    show lineKind (trimEnds isSpace line) = lineKind line
    rw [empty]
    unfold lineKind
    rw [if_pos blank]
    rfl
  · have padded := lineKind_padded leading trailing empty starts
    rw [← shape] at padded
    exact padded.symm

/-- Every setting has its row in the table. -/
theorem mem_settings (s : Setting) : s ∈ settings := by
  cases s <;> decide

/-- The first row with a text is the row of the setting that has it, when no two have the same. -/
theorem find_settings (text : Setting → Bytes) (distinct : (settings.map text).Nodup)
    {wanted : Bytes} {s : Setting} :
    settings.find? (fun s => text s = wanted) = some s ↔ text s = wanted := by
  constructor
  · intro found
    simpa using List.find?_some found
  · rintro rfl
    cases found : settings.find? fun other => text other = text s with
    | none =>
      have missed := List.find?_eq_none.mp found s (mem_settings s)
      simp at missed
    | some other =>
      have same : text other = text s := by simpa using List.find?_some found
      have injective := List.inj_on_of_nodup_map distinct
      rw [injective (mem_settings other) (mem_settings s) same]

/-- The setting of a key is the one whose row has it. -/
theorem findByKey_eq_some_iff {key : Bytes} {s : Setting} :
    findByKey key = some s ↔ ascii s.row.key = key :=
  find_settings (fun s => ascii s.row.key) (by decide +kernel)

/-- The kind of a line, by its text without the blanks around it. -/
theorem lineKind_eq (line : Bytes) : lineKind line =
    if trim line = [] then .blank
    else if (trim line).head? = some 35 ∨ (trim line).head? = some 59 then .comment
    else if 61 ∈ trim line then
      .assignment (trim ((trim line).takeWhile (· ≠ 61))) (trim ((trim line).dropWhile (· ≠ 61)).tail)
    else .malformed := by
  obtain ⟨-, -, -, -, -, starts, -⟩ := exists_padded isSpace line
  rw [← lineKind_trim]
  unfold lineKind
  by_cases empty : trim line = []
  · have blank : (trim line).all isSpace = true := by rw [empty]; rfl
    rw [if_pos blank, if_pos empty]
  · obtain ⟨first, rest, shape⟩ := List.exists_cons_of_ne_nil empty
    have stands : isSpace first = false := starts first (by
      show (trim line).head? = some first
      rw [shape]
      rfl)
    have visible : ¬(trim line).all isSpace = true := by
      rw [shape, List.all_cons, stands, Bool.false_and]
      decide
    have kept : (trim line).dropWhile isSpace = trim line := by
      rw [shape, List.dropWhile_cons_of_neg (by rw [stands]; decide)]
    rw [if_neg visible, if_neg empty, kept]
    rfl

/-- The assignment a line makes. -/
def entry (line : Bytes) : Option (Setting × Bytes) :=
  match lineKind line with
  | .assignment key value => (findByKey key).map fun s => (s, value)
  | _ => none

/-- `load_file` reads a sound line as the assignment it makes, and no other line. -/
theorem readLine_cases (path : Bytes) (lineno : Nat) {line : Bytes} (free : (0 : UInt8) ∉ line) :
    (Sound line ∧ readLine path lineno line = .ok (entry line)) ∨
      (¬Sound line ∧ ∃ reason, readLine path lineno line = .error reason) := by
  unfold readLine Sound entry
  rw [cString_eq_self free, lineKind_eq]
  by_cases empty : trim line = []
  · left
    simp only [empty, if_true, true_or, and_self]
  by_cases comment : (trim line).head? = some 35 ∨ (trim line).head? = some 59
  · left
    simp only [if_neg empty, if_pos comment, if_pos (Or.inr comment), and_self]
  have read : ¬(trim line = [] ∨ (trim line).head? = some 35 ∨ (trim line).head? = some 59) := by
    rintro (nothing | hash)
    · exact empty nothing
    · exact comment hash
  by_cases split : 61 ∈ trim line
  · simp only [if_neg empty, if_neg comment, if_neg read, if_pos split]
    cases found : findByKey (trim ((trim line).takeWhile (· ≠ 61))) with
    | none =>
      right
      refine ⟨?_, ⟨_, rfl⟩⟩
      rintro ⟨s, same, -⟩
      rw [findByKey_eq_some_iff.mpr same] at found
      contradiction
    | some s =>
      cases environment : s.row.envOnly with
      | true =>
        right
        refine ⟨?_, ?_⟩
        · rintro ⟨other, same, outside⟩
          rw [findByKey_eq_some_iff.mpr same, Option.some.injEq] at found
          rw [found, environment] at outside
          contradiction
        · simp only [environment, if_true]
          exact ⟨_, rfl⟩
      | false =>
        left
        refine ⟨⟨s, findByKey_eq_some_iff.mp found, environment⟩, ?_⟩
        simp [environment]
  · right
    simp only [if_neg empty, if_neg comment, if_neg read, if_neg split]
    exact ⟨not_false, _, rfl⟩

/-- The text a line assigns to a setting is in the assignment it makes. -/
theorem assigned_eq (s : Setting) (line : Bytes) :
    assigned s line = ((entry line).filter fun made => made.1 = s).map Prod.snd := by
  unfold assigned entry
  cases lineKind line with
  | blank => rfl
  | comment => rfl
  | malformed => rfl
  | assignment key value =>
    by_cases same : ascii s.row.key = key
    · have found := findByKey_eq_some_iff.mpr same
      simp [same, found]
    · have different : ∀ other, findByKey key = some other → ¬other = s := by
        rintro other found rfl
        exact same (findByKey_eq_some_iff.mp found)
      simpa [same] using different

/-- The last text that lines assign to a setting. -/
theorem last_entries (lines : List Bytes) (s : Setting) :
    Assoc.last (lines.filterMap entry) s = (lines.filterMap (assigned s)).getLast? := by
  have picked : ((lines.filterMap entry).filter fun made => made.1 = s).map Prod.snd =
      lines.filterMap (assigned s) := by
    rw [List.filter_filterMap, List.map_filterMap]
    congr 1
    funext line
    exact (assigned_eq s line).symm
  unfold Assoc.last
  rw [← picked, List.getLast?_map]

/-! ## Physical lines and pieces -/

/-- The pieces of a file hold no byte that the file does not hold. -/
theorem free_of_mem_fgetsAll {c : UInt8} (room : Nat) {line content : Bytes} (before : c ∉ line)
    (free : c ∉ content) : ∀ piece ∈ fgetsAll room line content, c ∉ piece := by
  induction content generalizing line with
  | nil =>
    intro piece member
    unfold fgetsAll at member
    split at member
    · contradiction
    · rw [List.mem_singleton.mp member]
      exact before
  | cons next content ih =>
    rw [List.mem_cons, not_or] at free
    have longer : c ∉ line ++ [next] := by
      rw [List.mem_append, List.mem_singleton]
      rintro (inside | last)
      · exact before inside
      · exact free.1 last
    intro piece member
    unfold fgetsAll at member
    split at member
    · rcases List.mem_cons.mp member with first | later
      · rw [first]
        exact longer
      · exact ih List.not_mem_nil free.2 piece later
    · exact ih longer free.2 piece member

/-- The texts of lines without the blanks around them, but for the blank lines. -/
def texts (lines : List Bytes) : List Bytes := (lines.map trim).filter (· ≠ [])

/-- A line of blanks says nothing. -/
theorem lineKind_of_trim_eq_nil {line : Bytes} (blank : trim line = []) : lineKind line = .blank := by
  rw [lineKind_eq, if_pos blank]

/-- What lines assign, they assign by their texts. -/
theorem filterMap_assigned_texts (s : Setting) (lines : List Bytes) :
    (texts lines).filterMap (assigned s) = lines.filterMap (assigned s) := by
  unfold texts
  induction lines with
  | nil => rfl
  | cons line lines ih =>
    have kind : assigned s (trim line) = assigned s line := by
      unfold assigned
      rw [lineKind_trim]
    rw [List.map_cons]
    by_cases blank : trim line = []
    · have nothing : assigned s line = none := by
        unfold assigned
        rw [lineKind_of_trim_eq_nil blank]
      rw [List.filter_cons_of_neg (by simp [blank]), ih, List.filterMap_cons_none nothing]
    · rw [List.filter_cons_of_pos (by simp [blank]), List.filterMap_cons, List.filterMap_cons, kind,
        ih]

/-- Lines are sound when their texts are. -/
theorem sound_of_texts {first second : List Bytes} (same : texts first = texts second)
    (sound : ∀ line ∈ first, Sound line) : ∀ line ∈ second, Sound line := by
  intro line member
  unfold Sound
  by_cases blank : trim line = []
  · rw [lineKind_of_trim_eq_nil blank]
    trivial
  · have text : trim line ∈ texts second := by
      unfold texts
      exact List.mem_filter.mpr ⟨List.mem_map_of_mem member, by simpa using blank⟩
    rw [← same] at text
    obtain ⟨other, listed, shape⟩ := List.mem_map.mp (List.mem_filter.mp text).1
    have held := sound other listed
    unfold Sound at held
    rw [← lineKind_trim other, shape, lineKind_trim] at held
    exact held

/-- A newline behind a text says nothing. -/
theorem trim_append_newline (text : Bytes) : trim (text ++ [10]) = trim text :=
  trimEnds_append_blanks text (by decide +kernel)

/-- The first physical line holds the bytes in front of the first newline. -/
theorem exists_first_line {front : Bytes} (plain : (10 : UInt8) ∉ front) (content : Bytes) :
    ∃ line ∈ physicalLines (front ++ content), front.length ≤ line.length := by
  unfold physicalLines
  by_cases split : (10 : UInt8) ∈ content
  · obtain ⟨rest, later, shape, early⟩ := List.eq_append_cons_of_mem split
    have none : (10 : UInt8) ∉ front ++ rest := by
      rw [List.mem_append, not_or]
      exact ⟨plain, early⟩
    refine ⟨front ++ rest, ?_, by simp⟩
    rw [shape, ← List.append_assoc, List.splitOn_append_cons_self, List.splitOn_eq_singleton none]
    exact List.mem_append_left _ List.mem_cons_self
  · have none : (10 : UInt8) ∉ front ++ content := by
      rw [List.mem_append, not_or]
      exact ⟨plain, split⟩
    refine ⟨front ++ content, ?_, by simp⟩
    rw [List.splitOn_eq_singleton none]
    exact List.mem_cons_self

/-- The pieces of lines that fit into the buffer have the texts of the lines. -/
theorem texts_fgetsAll {content : Bytes} (line : Bytes) (plain : (10 : UInt8) ∉ line) (room : line.length < 1023)
    (short : ∀ physical ∈ physicalLines (line ++ content), physical.length ≤ 1023) :
    texts (fgetsAll 1023 line content) = texts (physicalLines (line ++ content)) := by
  induction content generalizing line with
  | nil =>
    unfold fgetsAll physicalLines
    rw [List.append_nil, List.splitOn_eq_singleton plain]
    by_cases empty : line = []
    · subst empty
      rfl
    · rw [if_neg empty]
  | cons c content ih =>
    unfold fgetsAll
    by_cases newline : c = 10
    · subst newline
      have parts : physicalLines (line ++ 10 :: content) = line :: physicalLines content := by
        unfold physicalLines
        rw [List.splitOn_append_cons_self, List.splitOn_eq_singleton plain]
        rfl
      rw [parts] at short ⊢
      have rest := ih [] List.not_mem_nil (by decide) fun physical member =>
        short physical (List.mem_cons_of_mem _ member)
      rw [if_pos (Or.inl rfl)]
      unfold texts at rest ⊢
      rw [List.map_cons, List.map_cons, trim_append_newline, List.filter_cons, List.filter_cons, rest]
      rfl
    · have longer : (10 : UInt8) ∉ line ++ [c] := by
        rw [List.mem_append, List.mem_singleton, not_or]
        exact ⟨plain, fun same => newline same.symm⟩
      have shifted : line ++ c :: content = (line ++ [c]) ++ content := by simp
      rw [shifted] at short ⊢
      by_cases full : line.length + 1 = 1023
      · rw [if_pos (Or.inr full)]
        -- The line is full, so it ends here: what follows is its newline, or nothing.
        cases content with
        | nil =>
          unfold fgetsAll physicalLines
          rw [List.append_nil, List.splitOn_eq_singleton longer]
          rfl
        | cons d content =>
          have ends : d = 10 := by
            by_contra more
            have longest : (10 : UInt8) ∉ line ++ [c] ++ [d] := by
              rw [List.mem_append, List.mem_singleton, not_or]
              exact ⟨longer, fun same => more same.symm⟩
            obtain ⟨physical, member, size⟩ := exists_first_line longest content
            rw [List.append_assoc, List.singleton_append] at member
            have bound := short physical member
            simp only [List.length_append, List.length_singleton] at size
            omega
          subst ends
          have parts : physicalLines (line ++ [c] ++ 10 :: content) =
              (line ++ [c]) :: physicalLines content := by
            unfold physicalLines
            rw [List.splitOn_append_cons_self, List.splitOn_eq_singleton longer]
            rfl
          have blank : physicalLines ([] ++ 10 :: content) = [] :: physicalLines content := by
            unfold physicalLines
            rw [List.splitOn_append_cons_self]
            rfl
          rw [parts] at short
          have rest := ih [] List.not_mem_nil (by decide) (by
            intro physical member
            rw [blank] at member
            rcases List.mem_cons.mp member with rfl | later
            · exact Nat.zero_le _
            · exact short physical (List.mem_cons_of_mem _ later))
          rw [blank] at rest
          rw [parts]
          unfold texts at rest ⊢
          rw [List.map_cons, List.filter_cons, rest, List.map_cons, List.map_cons, List.filter_cons,
            List.filter_cons]
          rfl
      · rw [if_neg (by rintro (same | same); exacts [newline same, full same])]
        exact ih _ longer (by
          rw [List.length_append, List.length_singleton]
          omega) short

/-- A file whose lines all fit into the buffer is read line by line. -/
theorem readsByLine_of_short {content : Bytes}
    (short : ∀ line ∈ physicalLines content, line.length ≤ 1023) : ReadsByLine content := by
  have same := texts_fgetsAll [] List.not_mem_nil (by decide) short
  rw [List.nil_append] at same
  have text : ∀ s, fileText (fgetsAll 1023 [] content) s = fileText (physicalLines content) s := by
    intro s
    unfold fileText
    rw [← filterMap_assigned_texts, same, filterMap_assigned_texts]
  by_cases refused : ∃ piece ∈ fgetsAll 1023 [] content, Refused piece
  · exact Or.inl refused
  · right
    constructor
    · apply sound_of_texts same
      intro piece member
      by_contra unsound
      exact refused ⟨piece, member, Or.inl unsound⟩
    · intro s value read _
      rw [← text]
      exact read

end PlatformService.Verif.ConfigLines
