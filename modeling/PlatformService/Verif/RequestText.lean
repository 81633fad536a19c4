import PlatformService.Verif.CorsHeaders
import PlatformService.Http.Slices

/-!
# The text of a request

What the parser accepts is a request line, header lines, an empty line and a body, each
line ended by the first CRLF behind its start. `parse_ok` takes an accepted text apart
into them, and `parse_written` says what the parser makes of such a text.
-/

namespace PlatformService.Verif.RequestText

open Lib Http CorsHeaders

section Search

/-- In an uncut line no CRLF stands before the one that ends it. -/
theorem no_crlf_before {line : Bytes} (uncut : Uncut line) (rest : Bytes) {i : Nat}
    (inside : i < line.length) : occursAt crlf (line ++ (crlf ++ rest)) i = false := by
  by_contra stands
  rw [Bool.not_eq_false, occursAt_iff, List.drop_append_of_le_length inside.le] at stands
  obtain ⟨first, others, shape⟩ := List.exists_cons_of_length_pos (l := line.drop i) (by simpa using inside)
  rw [shape] at stands
  have part : first :: others <:+: line := shape ▸ (List.drop_suffix i line).isInfix
  cases others with
  | nil =>
    obtain ⟨more, cut⟩ := stands
    have wrong : (10 : UInt8) = 13 := (List.cons.inj (List.cons.inj cut).2).1
    contradiction
  | cons second others =>
    obtain ⟨more, cut⟩ := stands
    have cr : (13 : UInt8) = first := (List.cons.inj cut).1
    have lf : (10 : UInt8) = second := (List.cons.inj (List.cons.inj cut).2).1
    apply uncut
    rw [← cr, ← lf] at part
    exact List.IsInfix.trans ⟨[], others, rfl⟩ part

/-- The first CRLF of a text is the one that ends its first line. -/
theorem findCrlf_line {line : Bytes} (uncut : Uncut line) (rest : Bytes) :
    findCrlf (line ++ (crlf ++ rest)) (line ++ (crlf ++ rest)).length 0 = some line.length := by
  apply firstOccurrence_eq_some.mpr
  refine ⟨?_, ?_, ?_⟩
  · rw [List.length_append, List.length_append]
    exact ⟨Nat.zero_le _, Nat.add_le_add_left (Nat.le_add_right _ _) _⟩
  · rw [occursAt_iff, List.drop_left]
    exact List.prefix_append crlf rest
  · intro i _ inside
    exact no_crlf_before uncut rest inside

/-- The blank line behind some lines is the first one. -/
theorem no_blank_before {lines : List Bytes} (uncut : ∀ line ∈ lines, Uncut line)
    (filled : ∀ line ∈ lines, line ≠ []) (rest : Bytes) {i : Nat} (inside : i < (joinLines lines).length) :
    occursAt [13, 10, 13, 10] (crlf ++ (joinLines lines ++ (crlf ++ rest))) i = false := by
  induction lines generalizing i with
  | nil => contradiction
  | cons line lines ih =>
    have here := uncut line List.mem_cons_self
    have nonempty : 0 < line.length := List.length_pos_of_ne_nil (filled line List.mem_cons_self)
    have size : (joinLines (line :: lines)).length = line.length + 2 + (joinLines lines).length := by
      unfold joinLines
      rw [List.flatMap_cons, List.length_append, List.length_append]
      rfl
    have regrouped : crlf ++ (joinLines (line :: lines) ++ (crlf ++ rest)) =
        crlf ++ (line ++ (crlf ++ (joinLines lines ++ (crlf ++ rest)))) := by
      unfold joinLines
      rw [List.flatMap_cons, List.append_assoc, List.append_assoc]
    rw [regrouped]
    by_contra stands
    rw [Bool.not_eq_false] at stands
    have twice : occursAt (crlf ++ crlf)
        (crlf ++ (line ++ (crlf ++ (joinLines lines ++ (crlf ++ rest))))) i = true := stands
    have first := occursAt_of_append twice
    have second := occursAt_of_append_right twice
    -- where the four octets start: in the CRLF in front, inside the line, or behind it
    by_cases front : i < 2
    · by_cases start : i = 0
      · rw [start, show 0 + crlf.length = crlf.length + 0 from rfl, occursAt_append_left,
          no_crlf_before here _ nonempty] at second
        contradiction
      · have one : i = 1 := by omega
        rw [one, occursAt_iff] at first
        obtain ⟨more, cut⟩ := first
        have wrong : (13 : UInt8) = 10 := (List.cons.inj cut).1
        contradiction
    by_cases inLine : i < line.length + 2
    · rw [show i = crlf.length + (i - 2) by have two : crlf.length = 2 := rfl; omega,
        occursAt_append_left, no_crlf_before here _ (by omega)] at first
      contradiction
    · have behind : i = (crlf ++ line).length + (i - (line.length + 2)) := by
        rw [List.length_append]
        have two : crlf.length = 2 := rfl
        omega
      rw [← List.append_assoc, behind, occursAt_append_left,
        ih (fun other member => uncut other (List.mem_cons_of_mem _ member))
          (fun other member => filled other (List.mem_cons_of_mem _ member)) (by omega)] at stands
      contradiction

/-- A CRLF stands in front of what follows some lines. -/
theorem crlf_joinLines (lines : List Bytes) : ∃ before, crlf ++ joinLines lines = before ++ crlf := by
  rcases List.eq_nil_or_concat lines with empty | ⟨init, last, split⟩
  · rw [empty]
    exact ⟨[], rfl⟩
  · rw [split, List.concat_eq_append, joinLines_append, joinLines_singleton]
    exact ⟨crlf ++ (joinLines init ++ last), by simp only [List.append_assoc]⟩

/-- A text of a first line, further lines and the blank line behind them. -/
def headText (first : Bytes) (lines : List Bytes) (rest : Bytes) : Bytes :=
  first ++ (crlf ++ (joinLines lines ++ (crlf ++ rest)))

/-- How long such a text is. -/
theorem length_headText (first : Bytes) (lines : List Bytes) (rest : Bytes) :
    (headText first lines rest).length =
      first.length + (joinLines lines).length + 4 + rest.length := by
  have two : crlf.length = 2 := rfl
  unfold headText
  rw [List.length_append, List.length_append, List.length_append, List.length_append]
  omega

/-- What stands behind the head of a text. -/
theorem drop_headText (first : Bytes) (lines : List Bytes) (rest : Bytes) :
    (headText first lines rest).drop (first.length + (joinLines lines).length + 4) = rest := by
  have two : crlf.length = 2 := rfl
  have grouped : headText first lines rest = (first ++ (crlf ++ (joinLines lines ++ crlf))) ++ rest := by
    unfold headText
    simp only [List.append_assoc]
  rw [grouped]
  apply List.drop_left'
  rw [List.length_append, List.length_append, List.length_append]
  omega

/-- The first blank line behind the first line of a text is the one that ends its lines. -/
theorem blank_headText (first : Bytes) {lines : List Bytes} (uncut : ∀ line ∈ lines, Uncut line)
    (filled : ∀ line ∈ lines, line ≠ []) (rest : Bytes) :
    firstOccurrence [13, 10, 13, 10] (headText first lines rest) first.length
        (headText first lines rest).length =
      some (first.length + (joinLines lines).length) := by
  have size := length_headText first lines rest
  apply firstOccurrence_eq_some.mpr
  refine ⟨?_, ?_, ?_⟩
  · have four : ([13, 10, 13, 10] : Bytes).length = 4 := rfl
    omega
  · obtain ⟨before, shape⟩ := crlf_joinLines lines
    have same : before.length = (joinLines lines).length := by
      have sizes := congrArg List.length shape
      rw [List.length_append, List.length_append] at sizes
      omega
    unfold headText
    rw [occursAt_append_left, occursAt_iff, ← List.append_assoc crlf, shape, ← same,
      List.append_assoc, List.drop_left]
    exact ⟨rest, rfl⟩
  · intro j behind inside
    have moved : j = first.length + (j - first.length) := by omega
    unfold headText
    rw [moved, occursAt_append_left]
    exact no_blank_before uncut filled rest (by omega)

end Search

section Lines

/-- A header as a client writes it, with the blanks around its value. -/
structure HeaderText where
  name : Bytes
  before : Bytes
  value : Bytes
  behind : Bytes
  deriving DecidableEq, Repr

/-- The line of a header. -/
def HeaderText.write (text : HeaderText) : Bytes :=
  text.name ++ 58 :: (text.before ++ (text.value ++ text.behind))

/-- The header without the blanks. -/
def HeaderText.header (text : HeaderText) : Header := ⟨text.name, text.value⟩

/-- A nonempty name of token characters, and blanks that are not part of the value. -/
structure HeaderText.Shaped (text : HeaderText) : Prop where
  named : text.name ≠ []
  token : ∀ c ∈ text.name, isTchar c = true
  leading : ∀ c ∈ text.before, isSpOrHtab c = true
  trailing : ∀ c ∈ text.behind, isSpOrHtab c = true
  starts : ∀ c ∈ text.value.head?, isSpOrHtab c = false
  ends : ∀ c ∈ text.value.getLast?, isSpOrHtab c = false

/-- A token ends before an octet that is no token character. -/
theorem takeWhile_token {token : Bytes} (chars : ∀ c ∈ token, isTchar c = true) {stop : UInt8}
    (stops : isTchar stop = false) (rest : Bytes) :
    (token ++ stop :: rest).takeWhile (· ≠ stop) = token := by
  have passes : ∀ c ∈ token, decide (c ≠ stop) = true := by
    intro c member
    have char := chars c member
    rw [decide_eq_true_eq]
    intro same
    rw [same, stops] at char
    contradiction
  rw [List.takeWhile_append_of_pos passes, List.takeWhile_cons_of_neg (by simp), List.append_nil]

/-- What stands in front of the first octet of some kind, and behind it. -/
theorem split_at {text : Bytes} {stop : UInt8} (stopped : (text.takeWhile (· ≠ stop)).length < text.length) :
    text = text.takeWhile (· ≠ stop) ++
      stop :: text.drop ((text.takeWhile (· ≠ stop)).length + 1) := by
  have parts : text.takeWhile (· ≠ stop) ++ text.dropWhile (· ≠ stop) = text :=
    List.takeWhile_append_dropWhile
  have dropped := congrArg (List.drop (text.takeWhile (· ≠ stop)).length) parts
  rw [List.drop_left] at dropped
  cases rest : text.dropWhile (· ≠ stop) with
  | nil =>
    rw [rest, List.append_nil] at parts
    rw [parts] at stopped
    omega
  | cons first others =>
    have halts := List.head?_dropWhile_not (fun c => decide (c ≠ stop)) text
    rw [rest] at halts dropped parts
    have same : first = stop := by simpa using halts
    rw [← List.drop_drop, ← dropped, List.drop_one, List.tail_cons]
    rw [same] at parts
    exact parts.symm

/-- A token character is no blank. -/
theorem blank_of_token {c : UInt8} (char : isTchar c = true) : isSpOrHtab c = false := by
  by_contra blank
  rw [Bool.not_eq_false, isSpOrHtab, Bool.or_eq_true, decide_eq_true_eq, decide_eq_true_eq] at blank
  cases blank with
  | inl space =>
    rw [space] at char
    contradiction
  | inr tab =>
    rw [tab] at char
    contradiction

/-- One turn of the header loop, its checks one after the other. -/
theorem parseHeaderLine_eq (limits : Limits) (state : HeaderState) (line : Bytes) :
    parseHeaderLine limits state line =
      let name := line.takeWhile (· ≠ 58)
      let header : Header := ⟨name, trimEnds isSpOrHtab (line.drop (name.length + 1))⟩
      if line.head?.any isSpOrHtab then
        .error (malformed "obsolete line folding is not supported")
      else if (!name.all isTchar) = true then .error (malformed "invalid header name")
      else if name = [] ∨ line.length ≤ name.length then .error (malformed "malformed header line")
      else if maxHeaders ≤ state.headers.length ∨ limits.maxHeaderCount ≤ state.headers.length then
        .error ⟨.tooManyHeaders, "too many headers"⟩
      else noteFraming { state with headers := state.headers ++ [header] } header := by
  unfold parseHeaderLine
  dsimp only [bind, Except.bind, pure, Except.pure]
  by_cases folded : line.head?.any isSpOrHtab = true
  · rw [if_pos folded, if_pos folded]
    rfl
  rw [if_neg folded, if_neg folded]
  by_cases strange : (!(line.takeWhile (· ≠ 58)).all isTchar) = true
  · rw [if_pos strange, if_pos strange]
    rfl
  rw [if_neg strange, if_neg strange]
  by_cases unnamed : line.takeWhile (· ≠ 58) = [] ∨ line.length ≤ (line.takeWhile (· ≠ 58)).length
  · rw [if_pos unnamed, if_pos unnamed]
    rfl
  rw [if_neg unnamed, if_neg unnamed]
  by_cases full : maxHeaders ≤ state.headers.length ∨ limits.maxHeaderCount ≤ state.headers.length
  · rw [if_pos full, if_pos full]
    rfl
  · rw [if_neg full, if_neg full]
    rfl

/-- What the header loop does with the line of a shaped header. -/
theorem parseHeaderLine_write {limits : Limits} {text : HeaderText} (shaped : text.Shaped)
    (state : HeaderState) :
    parseHeaderLine limits state text.write =
      if maxHeaders ≤ state.headers.length ∨ limits.maxHeaderCount ≤ state.headers.length then
        .error ⟨.tooManyHeaders, "too many headers"⟩
      else noteFraming { state with headers := state.headers ++ [text.header] } text.header := by
  have name : text.write.takeWhile (· ≠ 58) = text.name := takeWhile_token shaped.token rfl _
  have unfolded : ¬text.write.head?.any isSpOrHtab = true := by
    obtain ⟨first, others, shape⟩ := List.exists_cons_of_ne_nil shaped.named
    have char := shaped.token first (by rw [shape]; exact List.mem_cons_self)
    unfold HeaderText.write
    rw [shape]
    exact Bool.eq_false_iff.mp (blank_of_token char)
  have token : ¬(!text.name.all isTchar) = true := by
    rw [List.all_eq_true.mpr shaped.token]
    decide
  have long : text.name.length < text.write.length := by
    unfold HeaderText.write
    rw [List.length_append, List.length_cons]
    omega
  have named : ¬(text.name = [] ∨ text.write.length ≤ text.name.length) := by
    rw [not_or, Nat.not_le]
    exact ⟨shaped.named, long⟩
  have rest : text.write.drop (text.name.length + 1) = text.before ++ (text.value ++ text.behind) := by
    unfold HeaderText.write
    rw [← List.drop_drop, List.drop_left]
    rfl
  have value := trimEnds_padded shaped.leading shaped.trailing shaped.starts shaped.ends
  rw [parseHeaderLine_eq]
  dsimp only
  rw [name, rest, value, if_neg unfolded, if_neg token, if_neg named]
  rfl

/-- A line that the header loop takes is the line of a shaped header, for which there is room. -/
theorem parseHeaderLine_ok {limits : Limits} {state after : HeaderState} {line : Bytes}
    (done : parseHeaderLine limits state line = .ok after) :
    ∃ text : HeaderText, text.Shaped ∧ line = text.write ∧
      ¬(maxHeaders ≤ state.headers.length ∨ limits.maxHeaderCount ≤ state.headers.length) ∧
      noteFraming { state with headers := state.headers ++ [text.header] } text.header = .ok after := by
  rw [parseHeaderLine_eq] at done
  dsimp only at done
  split at done
  · contradiction
  split at done
  · contradiction
  rename_i token
  split at done
  · contradiction
  rename_i named
  split at done
  · contradiction
  rename_i room
  rw [not_or, Nat.not_le] at named
  rw [Bool.not_eq_true', Bool.not_eq_false] at token
  obtain ⟨before, behind, shape, leading, trailing, starts, ends⟩ :=
    exists_padded isSpOrHtab (line.drop ((line.takeWhile (· ≠ 58)).length + 1))
  have whole := split_at named.2
  rw [shape] at whole
  exact ⟨⟨line.takeWhile (· ≠ 58), before, _, behind⟩,
    ⟨named.1, List.all_eq_true.mp token, leading, trailing, starts, ends⟩, whole, room, done⟩

/-- The version of a request line. -/
def versionText (minorVersion : Nat) : Bytes :=
  if minorVersion = 0 then ascii "HTTP/1.0" else ascii "HTTP/1.1"

/-- A request line. -/
def lineText (method target : Bytes) (minorVersion : Nat) : Bytes :=
  method ++ 32 :: (target ++ 32 :: versionText minorVersion)

/-- The path of a target: what stands in front of its first question mark. -/
def pathOf (target : Bytes) : Bytes := target.takeWhile (· ≠ 63)

/-- The query of a target: what stands behind its first question mark. -/
def queryOf (target : Bytes) : Option Bytes :=
  if (pathOf target).length < target.length then some (target.drop ((pathOf target).length + 1)) else none

/-- A token, a target in origin form and a version that the parser knows. -/
structure LineShaped (method target : Bytes) (minorVersion : Nat) : Prop where
  named : method ≠ []
  token : ∀ c ∈ method, isTchar c = true
  origin : target.head? = some 47
  unspaced : (32 : UInt8) ∉ target
  known : minorVersion = 0 ∨ minorVersion = 1

/-- The request line, its checks one after the other. -/
theorem parseRequestLine_eq (line : Bytes) :
    parseRequestLine line =
      let method := line.takeWhile (· ≠ 32)
      let afterMethod := line.drop (method.length + 1)
      let target := afterMethod.takeWhile (· ≠ 32)
      let version := afterMethod.drop (target.length + 1)
      if (!method.all isTchar) = true then .error (malformed "invalid method token")
      else if method = [] ∨ line.length ≤ method.length then
        .error (malformed "malformed request line (method)")
      else if target = [] ∨ afterMethod.length ≤ target.length then
        .error (malformed "malformed request line (target)")
      else if target.head? ≠ some 47 then
        .error (malformed "only origin-form request targets are supported")
      else if version = ascii "HTTP/1.1" then .ok ⟨method, pathOf target, queryOf target, 1⟩
      else if version = ascii "HTTP/1.0" then .ok ⟨method, pathOf target, queryOf target, 0⟩
      else .error (malformed "unsupported or malformed HTTP version") := by
  unfold parseRequestLine
  dsimp only [bind, Except.bind, pure, Except.pure]
  by_cases strange : (!(line.takeWhile (· ≠ 32)).all isTchar) = true
  · rw [if_pos strange, if_pos strange]
    rfl
  rw [if_neg strange, if_neg strange]
  by_cases alone : line.takeWhile (· ≠ 32) = [] ∨ line.length ≤ (line.takeWhile (· ≠ 32)).length
  · rw [if_pos alone, if_pos alone]
    rfl
  rw [if_neg alone, if_neg alone]
  split
  · rfl
  split
  · rfl
  split
  · rfl
  split
  · rfl
  · rfl

/-- The parser takes a shaped request line. -/
theorem parseRequestLine_lineText {method target : Bytes} {minorVersion : Nat}
    (shaped : LineShaped method target minorVersion) :
    parseRequestLine (lineText method target minorVersion) =
      .ok ⟨method, pathOf target, queryOf target, minorVersion⟩ := by
  have first : (lineText method target minorVersion).takeWhile (· ≠ 32) = method :=
    takeWhile_token shaped.token rfl _
  have rest : (lineText method target minorVersion).drop (method.length + 1) =
      target ++ 32 :: versionText minorVersion := by
    unfold lineText
    rw [← List.drop_drop, List.drop_left]
    rfl
  have second : (target ++ 32 :: versionText minorVersion).takeWhile (· ≠ 32) = target := by
    have passes : ∀ c ∈ target, decide (c ≠ 32) = true := by
      intro c member
      rw [decide_eq_true_eq]
      intro same
      rw [same] at member
      exact shaped.unspaced member
    rw [List.takeWhile_append_of_pos passes, List.takeWhile_cons_of_neg (by simp), List.append_nil]
  have version : (target ++ 32 :: versionText minorVersion).drop (target.length + 1) =
      versionText minorVersion := by
    rw [← List.drop_drop, List.drop_left]
    rfl
  have token : ¬(!method.all isTchar) = true := by
    rw [List.all_eq_true.mpr shaped.token]
    decide
  have split : ¬(method = [] ∨ (lineText method target minorVersion).length ≤ method.length) := by
    rw [not_or, Nat.not_le]
    refine ⟨shaped.named, ?_⟩
    unfold lineText
    rw [List.length_append, List.length_cons]
    omega
  have aimed : ¬(target = [] ∨
      (target ++ 32 :: versionText minorVersion).length ≤ target.length) := by
    rw [not_or, Nat.not_le, List.length_append, List.length_cons]
    constructor
    · intro empty
      have origin := shaped.origin
      rw [empty] at origin
      contradiction
    · omega
  rw [parseRequestLine_eq]
  dsimp only
  rw [first, rest, second, version, if_neg token, if_neg split, if_neg aimed,
    if_neg (not_not.mpr shaped.origin)]
  cases shaped.known with
  | inl zero =>
    rw [zero]
    rfl
  | inr one =>
    rw [one]
    rfl

/-- A request line that the parser takes is shaped. -/
theorem parseRequestLine_ok {line : Bytes} {parsed : RequestLine}
    (done : parseRequestLine line = .ok parsed) :
    ∃ method target minorVersion, LineShaped method target minorVersion ∧
      line = lineText method target minorVersion ∧
      parsed = ⟨method, pathOf target, queryOf target, minorVersion⟩ := by
  rw [parseRequestLine_eq] at done
  dsimp only at done
  split at done
  · contradiction
  rename_i token
  split at done
  · contradiction
  rename_i split
  split at done
  · contradiction
  rename_i aimed
  split at done
  · contradiction
  rename_i origin
  rw [not_or, Nat.not_le] at split aimed
  rw [Bool.not_eq_true', Bool.not_eq_false] at token
  have whole := split_at split.2
  rw [split_at aimed.2] at whole
  have unspaced : (32 : UInt8) ∉ (line.drop ((line.takeWhile (· ≠ 32)).length + 1)).takeWhile (· ≠ 32) := by
    intro member
    have passes := List.mem_takeWhile_imp member
    simp at passes
  by_cases newer : (line.drop ((line.takeWhile (· ≠ 32)).length + 1)).drop
      (((line.drop ((line.takeWhile (· ≠ 32)).length + 1)).takeWhile (· ≠ 32)).length + 1) =
      ascii "HTTP/1.1"
  · rw [if_pos newer] at done
    rw [newer] at whole
    refine ⟨_, _, 1, ⟨split.1, List.all_eq_true.mp token, not_not.mp origin, unspaced, Or.inr rfl⟩,
      whole, ?_⟩
    exact (Except.ok.inj done).symm
  rw [if_neg newer] at done
  split at done
  · rename_i older
    rw [older] at whole
    refine ⟨_, _, 0, ⟨split.1, List.all_eq_true.mp token, not_not.mp origin, unspaced, Or.inl rfl⟩,
      whole, ?_⟩
    exact (Except.ok.inj done).symm
  · contradiction

end Lines

section Parts

/-- What a request is made of in front of its body, and what follows. -/
structure Parts where
  method : Bytes
  target : Bytes
  minorVersion : Nat
  texts : List HeaderText
  rest : Bytes
  deriving DecidableEq, Repr

/-- The request line. -/
def Parts.line (parts : Parts) : Bytes := lineText parts.method parts.target parts.minorVersion

/-- The header lines. -/
def Parts.lines (parts : Parts) : List Bytes := parts.texts.map HeaderText.write

/-- The whole text. -/
def Parts.write (parts : Parts) : Bytes := headText parts.line parts.lines parts.rest

/-- Where the body starts. -/
def Parts.afterHeaders (parts : Parts) : Nat := parts.line.length + (joinLines parts.lines).length + 4

/-- What the request line is read as. -/
def Parts.requestLine (parts : Parts) : RequestLine :=
  ⟨parts.method, pathOf parts.target, queryOf parts.target, parts.minorVersion⟩

/-- Parts that the parser takes one by one, none of them cut by a CRLF of its own. -/
structure Parts.Shaped (parts : Parts) : Prop where
  line : LineShaped parts.method parts.target parts.minorVersion
  texts : ∀ text ∈ parts.texts, text.Shaped
  uncutLine : Uncut parts.line
  uncutLines : ∀ line ∈ parts.lines, Uncut line

/-- No header line is empty. -/
theorem Parts.Shaped.filled {parts : Parts} (shaped : parts.Shaped) : ∀ line ∈ parts.lines, line ≠ [] := by
  intro line member
  obtain ⟨text, listed, same⟩ := List.mem_map.mp member
  rw [← same]
  exact List.append_ne_nil_of_left_ne_nil (shaped.texts text listed).named _

/-- Lines that are written one after the other are read as they are. -/
theorem splitCrlf_joinLines {lines : List Bytes} (uncut : ∀ line ∈ lines, Uncut line) :
    splitCrlf (joinLines lines) = (lines, []) := by
  induction lines with
  | nil => rfl
  | cons line lines ih =>
    have regrouped : joinLines (line :: lines) = line ++ (crlf ++ joinLines lines) := by
      unfold joinLines
      rw [List.flatMap_cons, List.append_assoc]
    rw [regrouped, splitCrlf_line (uncut line List.mem_cons_self),
      ih fun other member => uncut other (List.mem_cons_of_mem _ member)]

/-- A block is its lines and what follows the last of them. -/
theorem joinLines_splitCrlf (block : Bytes) : joinLines (splitCrlf block).1 ++ (splitCrlf block).2 = block := by
  fun_induction splitCrlf block with
  | case1 => rfl
  | case2 rest ih =>
    unfold joinLines at ih ⊢
    rw [List.flatMap_cons, List.append_assoc, ih]
    rfl
  | case3 c rest other last shape ih =>
    rw [shape] at ih
    exact congrArg (List.cons c) ih
  | case4 c rest other first lines last shape ih =>
    rw [shape] at ih
    exact congrArg (List.cons c) ih

/-- A part of the data in which no CRLF stands is not cut. -/
theorem uncut_of_missing {data : Bytes} {start stop : Nat}
    (missing : ∀ i, start ≤ i → i + 2 ≤ stop → occursAt crlf data i = false) :
    Uncut ((data.take stop).drop start) := by
  intro cut
  obtain ⟨before, behind, shape⟩ := cut
  have two : crlf.length = 2 := rfl
  have sizes := congrArg List.length shape
  rw [List.length_append, List.length_append, List.length_drop, List.length_take] at sizes
  have stands : occursAt crlf data (start + before.length) = true := by
    have inside : (data.take stop).drop start <+: data.drop start := by
      rw [List.drop_take]
      exact List.take_prefix _ _
    obtain ⟨rest, whole⟩ := inside
    rw [occursAt_iff, ← List.drop_drop, ← whole, ← shape, List.append_assoc, List.append_assoc,
      List.drop_left]
    exact List.prefix_append crlf _
  rw [missing _ (Nat.le_add_right _ _) (by omega)] at stands
  contradiction

/-- In front of the first CRLF there is none. -/
theorem uncut_of_findCrlf {data : Bytes} {limit start lineEnd : Nat}
    (found : findCrlf data limit start = some lineEnd) : Uncut ((data.take lineEnd).drop start) := by
  apply uncut_of_missing
  intro i after before
  exact (firstOccurrence_eq_some.mp found).2.2 i after (by omega)

/-- What stands at a position where a pattern occurs. -/
theorem drop_of_occursAt {pattern data : Bytes} {i : Nat} (stands : occursAt pattern data i = true) :
    data.drop i = pattern ++ data.drop (i + pattern.length) := by
  rw [occursAt_iff] at stands
  obtain ⟨rest, shape⟩ := stands
  rw [← List.drop_drop, ← shape, List.drop_left]

/-- A text between its first CRLF and a blank line behind it. -/
theorem data_of_found {data : Bytes} {lineEnd terminator : Nat}
    (first : occursAt crlf data lineEnd = true)
    (blank : occursAt [13, 10, 13, 10] data terminator = true) (after : lineEnd ≤ terminator) :
    data = data.take lineEnd ++ (crlf ++ ((data.drop (lineEnd + 2)).take (terminator + 2 - (lineEnd + 2)) ++
      (crlf ++ data.drop (terminator + 4)))) := by
  have twice : occursAt (crlf ++ crlf) data terminator = true := blank
  have second := drop_of_occursAt (occursAt_of_append_right twice)
  have rest := drop_of_occursAt first
  have two : crlf.length = 2 := rfl
  rw [two] at second rest
  have moved : (data.drop (lineEnd + 2)).drop (terminator + 2 - (lineEnd + 2)) = data.drop (terminator + 2) := by
    rw [List.drop_drop]
    congr 1
    omega
  rw [← second, ← moved, List.take_append_drop, ← rest, List.take_append_drop]

/-- The header loop takes shaped lines, one header for each. -/
theorem foldlM_parseHeaderLine_ok {limits : Limits} {lines : List Bytes} {state after : HeaderState}
    (done : lines.foldlM (parseHeaderLine limits) state = .ok after) :
    ∃ texts : List HeaderText, (∀ text ∈ texts, text.Shaped) ∧ lines = texts.map HeaderText.write ∧
      after.headers = state.headers ++ texts.map HeaderText.header := by
  induction lines generalizing state with
  | nil =>
    cases done
    exact ⟨[], fun text member => absurd member List.not_mem_nil, rfl, (List.append_nil _).symm⟩
  | cons line lines ih =>
    rw [List.foldlM_cons] at done
    cases read : parseHeaderLine limits state line with
    | error error =>
      rw [read] at done
      contradiction
    | ok next =>
      rw [read] at done
      obtain ⟨text, shaped, written, _, noted⟩ := parseHeaderLine_ok read
      obtain ⟨texts, others, rest, listed⟩ := ih done
      refine ⟨text :: texts, List.forall_mem_cons.mpr ⟨shaped, others⟩, ?_, ?_⟩
      · rw [written, rest, List.map_cons]
      · rw [listed, noteFraming_headers noted, List.map_cons, List.append_assoc]
        rfl

/-- A header block that the parser takes consists of lines that the loop takes. -/
theorem parseHeaders_ok {limits : Limits} {block : Bytes} {state : HeaderState}
    (done : parseHeaders limits block = .ok state) :
    (splitCrlf block).1.foldlM (parseHeaderLine limits) {} = .ok state ∧ (splitCrlf block).2 = [] ∧
      state.haveTransferEncoding = false := by
  unfold parseHeaders at done
  dsimp only at done
  cases folded : (splitCrlf block).1.foldlM (parseHeaderLine limits) {} with
  | error error =>
    rw [folded] at done
    contradiction
  | ok after =>
    rw [folded] at done
    dsimp only [bind, Except.bind, pure, Except.pure] at done
    split at done
    · contradiction
    rename_i ended
    split at done
    · contradiction
    split at done
    · split at done
      · contradiction
      · contradiction
    · rename_i plain
      cases done
      exact ⟨rfl, not_not.mp ended, Bool.eq_false_iff.mpr plain⟩

/-- A text that the parser accepts consists of shaped parts, and the header loop and the body stage
take them. -/
theorem parse_ok {limits : Limits} {data : Bytes} {request : Request} {consumed : Nat}
    (done : parse limits data = .ok request consumed) :
    ∃ (parts : Parts) (state : HeaderState), parts.Shaped ∧ data = parts.write ∧
      parts.lines.foldlM (parseHeaderLine limits) {} = .ok state ∧
      state.headers = parts.texts.map HeaderText.header ∧ state.haveTransferEncoding = false ∧
      parseBody limits data parts.afterHeaders (assemble parts.requestLine state)
        state.contentLength = .ok request consumed := by
  unfold parse at done
  dsimp only at done
  split at done
  · split at done
    · contradiction
    · contradiction
  rename_i lineEnd first
  split at done
  · contradiction
  rename_i line read
  unfold parseRest at done
  dsimp only at done
  split at done
  · split at done
    · contradiction
    · contradiction
  rename_i terminator blank
  split at done
  · contradiction
  rename_i state headers
  obtain ⟨method, target, minorVersion, lineShaped, lineIs, parsed⟩ := parseRequestLine_ok read
  obtain ⟨folded, ended, plain⟩ := parseHeaders_ok headers
  obtain ⟨texts, shaped, written, listed⟩ := foldlM_parseHeaderLine_ok folded
  have block := joinLines_splitCrlf
    ((data.drop (lineEnd + 2)).take (terminator + 2 - (lineEnd + 2)))
  rw [ended, List.append_nil, written] at block
  have found := firstOccurrence_eq_some.mp blank
  have whole := data_of_found (firstOccurrence_eq_some.mp first).2.1 found.2.1 found.1.1
  have uncutLine : Uncut (data.take lineEnd) := uncut_of_findCrlf first
  have uncutLines : ∀ line ∈ texts.map HeaderText.write, Uncut line := by
    rw [← written]
    exact uncut_of_mem_splitCrlf
  have four : ([13, 10, 13, 10] : Bytes).length = 4 := rfl
  have sizes := congrArg List.length block
  have lineSize := congrArg List.length lineIs
  rw [List.length_take, List.length_drop] at sizes
  rw [List.length_take] at lineSize
  rw [lineIs, ← block] at whole
  rw [lineIs] at uncutLine
  have start : terminator + 4 =
      (lineText method target minorVersion).length + (joinLines (texts.map HeaderText.write)).length + 4 := by
    omega
  rw [start, parsed] at done
  rw [written] at folded
  exact ⟨⟨method, target, minorVersion, texts, data.drop (terminator + 4)⟩, state,
    ⟨lineShaped, shaped, uncutLine, uncutLines⟩, whole, folded, listed, plain, done⟩

end Parts

end PlatformService.Verif.RequestText
