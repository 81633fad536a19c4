import PlatformService.Verif.Framing

/-!
# Requests are read back

A well-formed request, written with any blanks around its header values and followed by
any octets, is parsed into itself. The limits are compared with the lengths of what is
written, exactly, and any start of a request within them is incomplete.
-/

namespace PlatformService.Verif.RequestRoundTrip

open Lib Http CorsHeaders RequestText Framing

/-- A request as a client writes it. -/
structure Message where
  method : Bytes
  target : Bytes
  minorVersion : Nat
  texts : List HeaderText
  body : Bytes
  deriving DecidableEq, Repr

/-- The headers of a message. -/
def Message.headers (message : Message) : List Header := message.texts.map HeaderText.header

/-- A message in front of further octets. -/
def Message.parts (message : Message) (trailing : Bytes) : Parts :=
  ⟨message.method, message.target, message.minorVersion, message.texts, message.body ++ trailing⟩

/-- The request line of a message. -/
def Message.line (message : Message) : Bytes :=
  lineText message.method message.target message.minorVersion

/-- The header lines of a message with their CRLFs. -/
def Message.headerLines (message : Message) : Bytes :=
  joinLines (message.texts.map HeaderText.write)

/-- The text of a message. -/
def Message.write (message : Message) : Bytes := (message.parts []).write

/-- What a message is to be parsed into. -/
def Message.request (message : Message) : Request where
  method := message.method
  path := pathOf message.target
  query := queryOf message.target
  minorVersion := message.minorVersion
  headers := message.headers
  body := if message.body = [] then none else some message.body

/-- A value without line ends. -/
def LineFree (text : Bytes) : Prop := ∀ c ∈ text, c ≠ 13 ∧ c ≠ 10

/-- A message that follows the grammar and declares the length of its body. -/
structure Message.WellFormed (message : Message) : Prop where
  line : LineShaped message.method message.target message.minorVersion
  target : LineFree message.target
  texts : ∀ text ∈ message.texts, text.Shaped
  values : ∀ text ∈ message.texts, LineFree text.value
  length : Declares message.headers message.body.length

/-- Limits of type `int`. -/
structure Represented (limits : Limits) : Prop where
  line : -2 ^ 31 ≤ limits.maxRequestLineBytes ∧ limits.maxRequestLineBytes < 2 ^ 31
  header : -2 ^ 31 ≤ limits.maxHeaderBytes ∧ limits.maxHeaderBytes < 2 ^ 31
  count : -2 ^ 31 ≤ limits.maxHeaderCount ∧ limits.maxHeaderCount < 2 ^ 31
  body : -2 ^ 31 ≤ limits.maxBodyBytes ∧ limits.maxBodyBytes < 2 ^ 31

/-- A message within the limits, and within the headers that a request has room for. -/
structure Message.Within (message : Message) (limits : Limits) : Prop where
  line : (message.line.length : Int) + 2 ≤ limits.maxRequestLineBytes
  header : (message.headerLines.length : Int) ≤ limits.maxHeaderBytes
  count : (message.texts.length : Int) ≤ limits.maxHeaderCount ∧ message.texts.length ≤ maxHeaders
  body : (message.body.length : Int) ≤ limits.maxBodyBytes

section Shape

variable {message : Message}

/-- A token holds no CR. -/
theorem cr_not_mem_token {token : Bytes} (chars : ∀ c ∈ token, isTchar c = true) : (13 : UInt8) ∉ token :=
  fun member => absurd (chars 13 member) (by decide)

/-- Blanks hold no CR. -/
theorem cr_not_mem_blanks {blanks : Bytes} (all : ∀ c ∈ blanks, isSpOrHtab c = true) :
    (13 : UInt8) ∉ blanks :=
  fun member => absurd (all 13 member) (by decide)

/-- A text without line ends holds no CR. -/
theorem LineFree.cr_not_mem {text : Bytes} (free : LineFree text) : (13 : UInt8) ∉ text :=
  fun member => (free 13 member).1 rfl

/-- The request line of a well-formed message holds no CR. -/
theorem Message.WellFormed.cr_not_mem_line (formed : message.WellFormed) : (13 : UInt8) ∉ message.line := by
  have method := cr_not_mem_token formed.line.token
  have target := formed.target.cr_not_mem
  have version : (13 : UInt8) ∉ versionText message.minorVersion := by
    unfold versionText
    split
    · decide
    · decide
  unfold Message.line lineText
  simp only [List.mem_append, List.mem_cons, not_or]
  exact ⟨method, by decide, target, by decide, version⟩

/-- The line of a shaped header without line ends in its value holds no CR. -/
theorem cr_not_mem_write {text : HeaderText} (shaped : text.Shaped) (free : LineFree text.value) :
    (13 : UInt8) ∉ text.write := by
  have name := cr_not_mem_token shaped.token
  have leading := cr_not_mem_blanks shaped.leading
  have trailing := cr_not_mem_blanks shaped.trailing
  unfold HeaderText.write
  simp only [List.mem_append, List.mem_cons, not_or]
  exact ⟨name, by decide, leading, free.cr_not_mem, trailing⟩

/-- A well-formed message consists of shaped parts. -/
theorem Message.WellFormed.shaped (formed : message.WellFormed) (trailing : Bytes) :
    (message.parts trailing).Shaped := by
  refine ⟨formed.line, formed.texts, uncut_of_not_mem formed.cr_not_mem_line, ?_⟩
  intro line member
  obtain ⟨text, listed, same⟩ := List.mem_map.mp member
  rw [← same]
  exact uncut_of_not_mem (cr_not_mem_write (formed.texts text listed) (formed.values text listed))

/-- A message in front of further octets. -/
theorem Message.write_append (message : Message) (trailing : Bytes) :
    message.write ++ trailing = (message.parts trailing).write := by
  unfold Message.write Parts.write headText Message.parts Parts.line Parts.lines
  simp only [List.append_assoc, List.append_nil]

/-- How long a message is. -/
theorem Message.length_write (message : Message) :
    message.write.length = message.line.length + message.headerLines.length + 4 + message.body.length := by
  have size := length_headText message.line (message.texts.map HeaderText.write) (message.body ++ [])
  rw [List.append_nil] at size
  unfold Message.write Message.parts Parts.write
  rw [List.append_nil]
  exact size

end Shape

section Searches

variable {limits : Limits} {parts : Parts} {size : Nat}

/-- A nonnegative `int` is converted to itself. -/
theorem asSize_of_nonneg {value : Int} (nonnegative : 0 ≤ value) (small : value < 2 ^ 31) :
    (asSize value : Int) = value := by
  have same : value % 2 ^ 64 = value := by omega
  unfold asSize
  rw [same]
  omega

/-- The start of a text in which its request line does not end below the limit. -/
theorem parse_take_short (shaped : parts.Shaped) (inside : size ≤ parts.write.length)
    (short : min size (asSize limits.maxRequestLineBytes) < parts.line.length + 2) :
    parse limits (parts.write.take size) =
      if asSize limits.maxRequestLineBytes ≤ size then .error ⟨.lineTooLong, "request line too long"⟩
      else .incomplete := by
  have length : (parts.write.take size).length = size := List.length_take_of_le inside
  have found := findCrlf_line shaped.uncutLine (joinLines parts.lines ++ (crlf ++ parts.rest))
  have two : ([13, 10] : Bytes).length = 2 := rfl
  have missed : findCrlf (parts.write.take size) (min size (asSize limits.maxRequestLineBytes)) 0 = none := by
    unfold findCrlf
    rw [firstOccurrence_take (by omega)]
    exact (firstOccurrence_lower found).trans (if_neg (by omega))
  unfold parse
  dsimp only
  rw [length, missed]

/-- The start of a text in which its request line ends below the limit. -/
theorem parse_take (shaped : parts.Shaped) (inside : size ≤ parts.write.length)
    (enough : parts.line.length + 2 ≤ min size (asSize limits.maxRequestLineBytes)) :
    parse limits (parts.write.take size) =
      parseRest limits (parts.write.take size) parts.line.length parts.requestLine := by
  have length : (parts.write.take size).length = size := List.length_take_of_le inside
  have first := findCrlf_line shaped.uncutLine (joinLines parts.lines ++ (crlf ++ parts.rest))
  have two : ([13, 10] : Bytes).length = 2 := rfl
  have found : findCrlf (parts.write.take size) (min size (asSize limits.maxRequestLineBytes)) 0 =
      some parts.line.length := by
    unfold findCrlf
    rw [firstOccurrence_take (by omega)]
    exact (firstOccurrence_lower first).trans (if_pos (by omega))
  have line : (parts.write.take size).take parts.line.length = parts.line := by
    rw [List.take_take, Nat.min_eq_left (by omega)]
    exact List.take_left
  unfold parse
  dsimp only
  rw [length, found]
  dsimp only
  rw [line]
  unfold Parts.line
  rw [parseRequestLine_lineText shaped.line]
  rfl

/-- The limit of the header scan, for a limit that does not wrap. -/
theorem headerLimit_eq (represented : Represented limits) (nonnegative : 0 ≤ limits.maxHeaderBytes)
    {lineEnd : Nat} (early : (lineEnd : Int) + 2 ≤ limits.maxRequestLineBytes) :
    (((lineEnd + 2 + asSize limits.maxHeaderBytes + 2) % 2 ^ 64 : Nat) : Int) =
      lineEnd + 4 + limits.maxHeaderBytes := by
  have lineRange := represented.line
  have header := asSize_of_nonneg nonnegative represented.header.2
  have headerRange := represented.header
  have noWrap : (lineEnd + 2 + asSize limits.maxHeaderBytes + 2) % 2 ^ 64 =
      lineEnd + 2 + asSize limits.maxHeaderBytes + 2 := by
    apply Nat.mod_eq_of_lt
    omega
  rw [noWrap]
  omega

/-- The start of a text in which its headers do not end below the limit. -/
theorem parseRest_take_short (shaped : parts.Shaped) (inside : size ≤ parts.write.length)
    (short : min size ((parts.line.length + 2 + asSize limits.maxHeaderBytes + 2) % 2 ^ 64) <
      parts.line.length + (joinLines parts.lines).length + 4) (line : RequestLine) :
    parseRest limits (parts.write.take size) parts.line.length line =
      if (parts.line.length + 2 + asSize limits.maxHeaderBytes + 2) % 2 ^ 64 ≤ size then
        .error ⟨.headersTooLarge, "headers too large"⟩
      else .incomplete := by
  have length : (parts.write.take size).length = size := List.length_take_of_le inside
  have found := blank_headText parts.line shaped.uncutLines shaped.filled parts.rest
  have four : ([13, 10, 13, 10] : Bytes).length = 4 := rfl
  unfold parseRest
  dsimp only
  rw [length]
  generalize (parts.line.length + 2 + asSize limits.maxHeaderBytes + 2) % 2 ^ 64 = headerLimit at short ⊢
  have missed : firstOccurrence [13, 10, 13, 10] (parts.write.take size) parts.line.length
      (min size headerLimit) = none := by
    rw [firstOccurrence_take (by omega)]
    exact (firstOccurrence_lower found).trans (if_neg (by omega))
  rw [missed]

/-- The start of a text in which its headers end below the limit. -/
theorem parseRest_take (shaped : parts.Shaped) (inside : size ≤ parts.write.length)
    (enough : parts.line.length + (joinLines parts.lines).length + 4 ≤
      min size ((parts.line.length + 2 + asSize limits.maxHeaderBytes + 2) % 2 ^ 64))
    (line : RequestLine) :
    parseRest limits (parts.write.take size) parts.line.length line =
      match parseHeaders limits (joinLines parts.lines) with
      | .error error => .error error
      | .ok state => parseBody limits (parts.write.take size)
          (parts.line.length + (joinLines parts.lines).length + 4) (assemble line state)
          state.contentLength := by
  have length : (parts.write.take size).length = size := List.length_take_of_le inside
  have blank := blank_headText parts.line shaped.uncutLines shaped.filled parts.rest
  have four : ([13, 10, 13, 10] : Bytes).length = 4 := rfl
  unfold parseRest
  dsimp only
  rw [length]
  generalize (parts.line.length + 2 + asSize limits.maxHeaderBytes + 2) % 2 ^ 64 = headerLimit at enough ⊢
  have found : firstOccurrence [13, 10, 13, 10] (parts.write.take size) parts.line.length
      (min size headerLimit) = some (parts.line.length + (joinLines parts.lines).length) := by
    rw [firstOccurrence_take (by omega)]
    exact (firstOccurrence_lower blank).trans (if_pos (by omega))
  have block : ((parts.write.take size).drop (parts.line.length + 2)).take
      (parts.line.length + (joinLines parts.lines).length + 2 - (parts.line.length + 2)) =
      joinLines parts.lines := by
    rw [← List.drop_take, List.take_take, Nat.min_eq_left (by omega)]
    exact block_write parts
  rw [found]
  cases headers : parseHeaders limits (joinLines parts.lines) with
  | error error => simp only [block, headers]
  | ok state => simp only [block, headers]

/-- What the parser makes of the start of a message and what follows it. -/
theorem parse_start (limits : Limits) {message : Message} (formed : message.WellFormed) (trailing : Bytes)
    {size : Nat} (inside : size ≤ (message.write ++ trailing).length) :
    parse limits ((message.write ++ trailing).take size) =
      let headerLimit := (message.line.length + 2 + asSize limits.maxHeaderBytes + 2) % 2 ^ 64
      let afterHeaders := message.line.length + message.headerLines.length + 4
      if min size (asSize limits.maxRequestLineBytes) < message.line.length + 2 then
        if asSize limits.maxRequestLineBytes ≤ size then
          .error ⟨.lineTooLong, "request line too long"⟩
        else .incomplete
      else if min size headerLimit < afterHeaders then
        if headerLimit ≤ size then .error ⟨.headersTooLarge, "headers too large"⟩ else .incomplete
      else match parseHeaders limits message.headerLines with
        | .error error => .error error
        | .ok state => parseBody limits ((message.write ++ trailing).take size) afterHeaders
            (assemble (message.parts trailing).requestLine state) state.contentLength := by
  have shaped := formed.shaped trailing
  rw [message.write_append] at inside ⊢
  dsimp only
  by_cases short : min size (asSize limits.maxRequestLineBytes) < message.line.length + 2
  · rw [if_pos short]
    exact parse_take_short shaped inside short
  rw [if_neg short]
  have line := parse_take shaped inside (Nat.le_of_not_lt short)
  by_cases cut : min size ((message.line.length + 2 + asSize limits.maxHeaderBytes + 2) % 2 ^ 64) <
      message.line.length + message.headerLines.length + 4
  · rw [if_pos cut]
    exact line.trans (parseRest_take_short shaped inside cut _)
  · rw [if_neg cut]
    exact line.trans (parseRest_take shaped inside (Nat.le_of_not_lt cut) _)

/-- What the parser makes of a message within the limits and what follows it. -/
theorem parse_whole (limits : Limits) {message : Message} (formed : message.WellFormed) (trailing : Bytes)
    (line : message.line.length + 2 ≤ asSize limits.maxRequestLineBytes)
    (header : message.line.length + message.headerLines.length + 4 ≤
      (message.line.length + 2 + asSize limits.maxHeaderBytes + 2) % 2 ^ 64) :
    parse limits (message.write ++ trailing) =
      match parseHeaders limits message.headerLines with
      | .error error => .error error
      | .ok state => parseBody limits (message.write ++ trailing)
          (message.line.length + message.headerLines.length + 4)
          (assemble (message.parts trailing).requestLine state) state.contentLength := by
  have size := message.length_write
  have total : (message.write ++ trailing).length = message.write.length + trailing.length :=
    List.length_append
  have start := parse_start limits formed trailing (Nat.le_refl _)
  rw [List.take_length] at start
  rw [start]
  dsimp only
  rw [if_neg (by omega), if_neg (by omega)]

end Searches

section Headers

variable {limits : Limits}

/-- A decimal of at most 18 digits is read. -/
theorem parseNonnegDecimal_digits {text : Bytes} (filled : text ≠ [])
    (digits : ∀ c ∈ text, isDigit c = true) (short : text.length ≤ 18) :
    parseNonnegDecimal text = some (natOfDigits text) := by
  have size : ¬(text.length = 0 ∨ 18 < text.length) := by
    rw [not_or, List.length_eq_zero_iff, Nat.not_lt]
    exact ⟨filled, short⟩
  unfold parseNonnegDecimal
  rw [if_neg size, if_pos (List.all_eq_true.mpr digits)]

/-- Headers with at most one Content-Length, which can be read. -/
structure Readable (headers : List Header) : Prop where
  single : (named "Content-Length" headers).length ≤ 1
  read : ∀ header ∈ named "Content-Length" headers, (parseNonnegDecimal header.value).isSome = true

/-- The guard takes a header after which the headers are still readable. -/
theorem noteFraming_ok {state : HeaderState} {header : Header} (noted : Noted state)
    (readable : Readable (state.headers ++ [header])) :
    ∃ after, noteFraming { state with headers := state.headers ++ [header] } header = .ok after := by
  have lengths := congrArg List.length noted.lengths
  rw [List.length_map, List.length_map] at lengths
  unfold noteFraming
  dsimp only
  by_cases length : ciEqual header.name "Content-Length" = true
  · have single := readable.single
    rw [named_append_singleton, if_pos length, List.length_append, List.length_singleton] at single
    have first : ¬state.contentLength.isSome = true := by
      intro given
      obtain ⟨value, some⟩ := Option.isSome_iff_exists.mp given
      rw [some, Option.toList_some, List.length_singleton] at lengths
      omega
    have value : (parseNonnegDecimal header.value).isSome = true := by
      apply readable.read
      rw [named_append_singleton, if_pos length]
      exact List.mem_append_right _ List.mem_cons_self
    obtain ⟨decimal, read⟩ := Option.isSome_iff_exists.mp value
    rw [if_pos length, if_neg first, read]
    exact ⟨_, rfl⟩
  · rw [if_neg length]
    split
    · exact ⟨_, rfl⟩
    · exact ⟨_, rfl⟩

/-- The headers in front of readable ones are readable. -/
theorem Readable.init {headers more : List Header} (readable : Readable (headers ++ more)) :
    Readable headers := by
  have split : named "Content-Length" (headers ++ more) =
      named "Content-Length" headers ++ named "Content-Length" more := List.filter_append ..
  have single := readable.single
  rw [split, List.length_append] at single
  refine ⟨by omega, ?_⟩
  intro header member
  apply readable.read
  rw [split]
  exact List.mem_append_left _ member

/-- The header loop takes the lines of shaped headers that are readable and for which there is room. -/
theorem foldlM_ok (limits : Limits) {texts : List HeaderText} {state : HeaderState} (noted : Noted state)
    (shaped : ∀ text ∈ texts, text.Shaped)
    (readable : Readable (state.headers ++ texts.map HeaderText.header))
    (room : state.headers.length + texts.length ≤ maxHeaders ∧
      (state.headers.length + texts.length : Int) ≤ limits.maxHeaderCount) :
    ∃ after, (texts.map HeaderText.write).foldlM (parseHeaderLine limits) state = .ok after ∧
      Noted after ∧ after.headers = state.headers ++ texts.map HeaderText.header := by
  induction texts generalizing state with
  | nil => exact ⟨state, rfl, noted, (List.append_nil _).symm⟩
  | cons text texts ih =>
    have here := shaped text List.mem_cons_self
    rw [List.length_cons] at room
    have regrouped : state.headers ++ (text :: texts).map HeaderText.header =
        (state.headers ++ [text.header]) ++ texts.map HeaderText.header := by
      rw [List.map_cons, List.append_assoc, List.singleton_append]
    rw [regrouped] at readable
    obtain ⟨next, guarded⟩ := noteFraming_ok noted readable.init
    have pushed : next.headers = state.headers ++ [text.header] := noteFraming_headers guarded
    have fits : ¬(maxHeaders ≤ state.headers.length ∨ limits.maxHeaderCount ≤ state.headers.length) := by
      omega
    have taken : parseHeaderLine limits state text.write = .ok next := by
      rw [parseHeaderLine_write here, if_neg fits]
      exact guarded
    rw [← pushed] at readable
    have size : next.headers.length = state.headers.length + 1 := by
      rw [pushed, List.length_append, List.length_singleton]
    obtain ⟨after, folded, notes, listed⟩ := ih (noted_noteFraming noted guarded)
      (fun other member => shaped other (List.mem_cons_of_mem _ member)) readable (by omega)
    refine ⟨after, ?_, notes, ?_⟩
    · rw [List.map_cons, List.foldlM_cons, taken]
      exact folded
    · rw [listed, pushed, regrouped]

/-- Headers declare one length. -/
theorem declares_unique {headers : List Header} {length other : Nat} (first : Declares headers length)
    (second : Declares headers other) : length = other := by
  cases given : named "Content-Length" headers with
  | nil => rw [first.absent given, second.absent given]
  | cons header rest =>
    have member : header ∈ named "Content-Length" headers := by
      rw [given]
      exact List.mem_cons_self
    rw [(first.present header member).2.2, (second.present header member).2.2]

/-- A header block whose loop ends well and that has no Transfer-Encoding is taken. -/
theorem parseHeaders_joinLines {lines : List Bytes} (uncut : ∀ line ∈ lines, Uncut line)
    {state : HeaderState} (folded : lines.foldlM (parseHeaderLine limits) {} = .ok state)
    (plain : state.haveTransferEncoding = false) : parseHeaders limits (joinLines lines) = .ok state := by
  unfold parseHeaders
  rw [splitCrlf_joinLines uncut]
  dsimp only
  rw [folded]
  dsimp only [bind, Except.bind, pure, Except.pure]
  rw [plain, Bool.and_false]
  rfl

end Headers

section RoundTrip

variable {limits : Limits} {message : Message}

/-- The header block of a well-formed message is taken. -/
theorem parseHeaders_message (formed : message.WellFormed) (within : message.Within limits)
    (short : ∀ header ∈ named "Content-Length" message.headers, header.value.length ≤ 18) :
    ∃ state, parseHeaders limits message.headerLines = .ok state ∧ state.headers = message.headers ∧
      state.contentLength.getD 0 = message.body.length := by
  have readable : Readable message.headers := by
    refine ⟨formed.length.single, ?_⟩
    intro header member
    obtain ⟨filled, digits, _⟩ := formed.length.present header member
    rw [parseNonnegDecimal_digits filled digits (short header member)]
    rfl
  have count := within.count
  obtain ⟨state, folded, noted, listed⟩ := foldlM_ok limits noted_start formed.texts readable
    (by show 0 + _ ≤ maxHeaders ∧ (0 + _ : Int) ≤ _; omega)
  have same : state.headers = message.headers := listed
  have plain : state.haveTransferEncoding = false := by
    rw [noted.codings, same, formed.length.uncoded]
    rfl
  refine ⟨state, parseHeaders_joinLines (formed.shaped []).uncutLines folded plain, same, ?_⟩
  have declares := declares_of_noted noted plain
  rw [same] at declares
  exact declares_unique declares formed.length

/-- The body stage reads the body of a message. -/
theorem parseBody_message (within : message.Within limits)
    (trailing : Bytes) {state : HeaderState} (listed : state.headers = message.headers)
    (length : state.contentLength.getD 0 = message.body.length) :
    parseBody limits (message.write ++ trailing) (message.line.length + message.headerLines.length + 4)
        (assemble (message.parts trailing).requestLine state) state.contentLength =
      .ok message.request message.write.length := by
  have size := message.length_write
  unfold parseBody
  dsimp only
  rw [length]
  by_cases empty : message.body = []
  · have zero : message.body.length = 0 := List.length_eq_zero_iff.mpr empty
    rw [if_pos zero, size, zero]
    unfold assemble Message.request
    rw [listed, if_pos empty]
    rfl
  · have filled : ¬message.body.length = 0 := mt List.length_eq_zero_iff.mp empty
    have small : ¬limits.maxBodyBytes < (message.body.length : Int) := Int.not_lt.mpr within.body
    have enough : ¬(message.write ++ trailing).length -
        (message.line.length + message.headerLines.length + 4) < message.body.length := by
      rw [List.length_append]
      omega
    have body : ((message.write ++ trailing).drop
        (message.line.length + message.headerLines.length + 4)).take message.body.length =
        message.body := by
      rw [message.write_append]
      exact (congrArg (List.take message.body.length)
        (drop_headText message.line (message.texts.map HeaderText.write) _)).trans List.take_left
    rw [if_neg filled, if_neg small, if_neg enough, body, size]
    unfold assemble Message.request
    rw [listed, if_neg empty]
    rfl

/-- The limits of a message that is within them leave room for it. -/
theorem limits_of_within (represented : Represented limits) (within : message.Within limits) :
    message.line.length + 2 ≤ asSize limits.maxRequestLineBytes ∧
      message.line.length + message.headerLines.length + 4 ≤
        (message.line.length + 2 + asSize limits.maxHeaderBytes + 2) % 2 ^ 64 := by
  have lineWithin := within.line
  have headerWithin := within.header
  have line := asSize_of_nonneg (by omega) represented.line.2
  have header := headerLimit_eq represented (by omega) lineWithin
  omega

/-- A well-formed message within the limits, whose Content-Length has at most 18 digits, is parsed into
itself, whatever follows. -/
theorem parse_write (limits : Limits) (represented : Represented limits) (message : Message)
    (formed : message.WellFormed) (within : message.Within limits)
    (short : ∀ header ∈ named "Content-Length" message.headers, header.value.length ≤ 18)
    (trailing : Bytes) :
    parse limits (message.write ++ trailing) = .ok message.request message.write.length := by
  have ⟨line, header⟩ := limits_of_within represented within
  obtain ⟨state, block, listed, length⟩ := parseHeaders_message formed within short
  rw [parse_whole limits formed trailing line header, block]
  exact parseBody_message within trailing listed length

/-- A POST request with a body of one octet, whose length is written with any number of zeros. -/
def zeroPadded (zeros : Nat) : Message where
  method := ascii "POST"
  target := ascii "/a?b"
  minorVersion := 1
  texts := [⟨ascii "Host", [32], ascii "h", []⟩,
    ⟨ascii "content-length", [9], List.replicate zeros 48 ++ [49], [32]⟩]
  body := [10]

/-- The message is well-formed. -/
theorem wellFormed_zeroPadded {zeros : Nat} (few : zeros = 1 ∨ zeros = 18) :
    (zeroPadded zeros).WellFormed := by
  have target : LineFree (ascii "/a?b") := by
    unfold LineFree
    decide +kernel
  have line : LineShaped (ascii "POST") (ascii "/a?b") 1 :=
    ⟨by decide +kernel, by decide +kernel, rfl, by decide +kernel, Or.inr rfl⟩
  have host : HeaderText.Shaped ⟨ascii "Host", [32], ascii "h", []⟩ :=
    ⟨by decide +kernel, by decide +kernel, by decide +kernel, by decide +kernel, by decide +kernel,
      by decide +kernel⟩
  cases few with
  | inl one =>
    rw [one]
    refine ⟨line, target, ?_, ?_, by decide +kernel, by decide +kernel,
      fun absent => absurd absent (by decide), by decide +kernel⟩
    · unfold zeroPadded
      rw [List.forall_mem_cons, List.forall_mem_singleton]
      exact ⟨host, by decide +kernel, by decide +kernel, by decide +kernel, by decide +kernel,
        by decide +kernel, by decide +kernel⟩
    · unfold LineFree
      decide +kernel
  | inr eighteen =>
    rw [eighteen]
    refine ⟨line, target, ?_, ?_, by decide +kernel, by decide +kernel,
      fun absent => absurd absent (by decide), by decide +kernel⟩
    · unfold zeroPadded
      rw [List.forall_mem_cons, List.forall_mem_singleton]
      exact ⟨host, by decide +kernel, by decide +kernel, by decide +kernel, by decide +kernel,
        by decide +kernel, by decide +kernel⟩
    · unfold LineFree
      decide +kernel

/-- Limits above everything in the message. -/
def sampleLimits : Limits := ⟨64, 64, 4, 64⟩

/-- The limits are of type `int`. -/
theorem represented_sampleLimits : Represented sampleLimits :=
  ⟨by decide, by decide, by decide, by decide⟩

/-- A length that is written with 19 digits is refused, however small it is. -/
theorem long_length_refused :
    ¬∀ limits, Represented limits → ∀ message : Message, message.WellFormed → message.Within limits →
      ∀ trailing, parse limits (message.write ++ trailing) = .ok message.request message.write.length := by
  intro all
  have within : (zeroPadded 18).Within sampleLimits := ⟨by decide, by decide, by decide, by decide⟩
  have accepted := all _ represented_sampleLimits _ (wellFormed_zeroPadded (Or.inr rfl)) within []
  have refused : parse sampleLimits ((zeroPadded 18).write ++ []) =
      .error ⟨.contentLengthInvalid, "invalid Content-Length"⟩ := by decide +kernel
  rw [refused] at accepted
  contradiction

/-- A message with blanks around its values and the start of another one behind it. -/
theorem parse_write_of_zeroPadded :
    parse sampleLimits ((zeroPadded 1).write ++ ascii "GET") =
      .ok (zeroPadded 1).request (zeroPadded 1).write.length := by
  have within : (zeroPadded 1).Within sampleLimits := ⟨by decide, by decide, by decide, by decide⟩
  exact parse_write _ represented_sampleLimits _ (wellFormed_zeroPadded (Or.inl rfl)) within
    (by decide) _

end RoundTrip

section Limits

variable {limits : Limits} {message : Message}

/-- A parse fails with a kind of error. -/
def FailsWith (result : ParseResult) (kind : ParseErrorKind) : Prop :=
  ∃ message, result = .error ⟨kind, message⟩

/-- The guard does not judge the length of a head. -/
theorem kind_noteFraming {state : HeaderState} {header : Header} {error : ParseError}
    (refused : noteFraming state header = .error error) :
    error.kind ≠ .lineTooLong ∧ error.kind ≠ .headersTooLarge := by
  unfold noteFraming at refused
  split at refused
  · split at refused
    · cases refused
      decide
    · split at refused
      · cases refused
        decide
      · contradiction
  · split at refused
    · contradiction
    · contradiction

/-- One turn of the header loop does not judge the length of a head. -/
theorem kind_parseHeaderLine {state : HeaderState} {line : Bytes} {error : ParseError}
    (refused : parseHeaderLine limits state line = .error error) :
    error.kind ≠ .lineTooLong ∧ error.kind ≠ .headersTooLarge := by
  rw [parseHeaderLine_eq] at refused
  dsimp only at refused
  split at refused
  · cases refused
    decide
  split at refused
  · cases refused
    decide
  split at refused
  · cases refused
    decide
  split at refused
  · cases refused
    decide
  · exact kind_noteFraming refused

/-- The header loop does not judge the length of a head, on any lines. -/
theorem kind_foldlM {lines : List Bytes} {state : HeaderState} {error : ParseError}
    (refused : lines.foldlM (parseHeaderLine limits) state = .error error) :
    error.kind ≠ .lineTooLong ∧ error.kind ≠ .headersTooLarge := by
  induction lines generalizing state with
  | nil => contradiction
  | cons line lines ih =>
    rw [List.foldlM_cons] at refused
    cases read : parseHeaderLine limits state line with
    | error other =>
      rw [read] at refused
      cases refused
      exact kind_parseHeaderLine read
    | ok next =>
      rw [read] at refused
      exact ih refused

/-- The header stage does not judge the length of a head. -/
theorem kind_parseHeaders {block : Bytes} {error : ParseError}
    (refused : parseHeaders limits block = .error error) :
    error.kind ≠ .lineTooLong ∧ error.kind ≠ .headersTooLarge := by
  unfold parseHeaders at refused
  dsimp only at refused
  cases folded : (splitCrlf block).1.foldlM (parseHeaderLine limits) {} with
  | error other =>
    rw [folded] at refused
    cases refused
    exact kind_foldlM folded
  | ok state =>
    rw [folded] at refused
    dsimp only [bind, Except.bind, pure, Except.pure] at refused
    split at refused
    · cases refused
      decide
    split at refused
    · cases refused
      decide
    split at refused
    · split at refused
      · cases refused
        decide
      · cases refused
        decide
    · contradiction

/-- The stage behind a header block does not judge the length of a head. -/
theorem kind_parseBody {data : Bytes} {afterHeaders : Nat} {request : Request}
    {contentLength : Option Nat} {kind : ParseErrorKind}
    (fails : FailsWith (parseBody limits data afterHeaders request contentLength) kind) :
    kind ≠ .lineTooLong ∧ kind ≠ .headersTooLarge := by
  obtain ⟨message, refused⟩ := fails
  unfold parseBody at refused
  dsimp only at refused
  split at refused
  · contradiction
  split at refused
  · cases refused
    decide
  split at refused
  · contradiction
  · contradiction

/-- A well-formed message whose head is within the limits fails, if it fails, for another reason than the
length of its head. -/
theorem kind_parse (formed : message.WellFormed)
    (line : message.line.length + 2 ≤ asSize limits.maxRequestLineBytes)
    (header : message.line.length + message.headerLines.length + 4 ≤
      (message.line.length + 2 + asSize limits.maxHeaderBytes + 2) % 2 ^ 64)
    {kind : ParseErrorKind} (fails : FailsWith (parse limits message.write) kind) :
    kind ≠ .lineTooLong ∧ kind ≠ .headersTooLarge := by
  have parsed := parse_whole limits formed [] line header
  rw [List.append_nil] at parsed
  rw [parsed] at fails
  cases block : parseHeaders limits message.headerLines with
  | error error =>
    rw [block] at fails
    obtain ⟨text, refused⟩ := fails
    cases refused
    exact kind_parseHeaders block
  | ok state =>
    rw [block] at fails
    exact kind_parseBody fails

/-- The size limits are exact on the text of a well-formed message without a body, and every proper start
of such a text within the limits is incomplete. -/
theorem size_limits_exact (limits : Limits) (represented : Represented limits)
    (lineLimit : 0 < limits.maxRequestLineBytes) (headerLimit : 0 < limits.maxHeaderBytes)
    (message : Message) (formed : message.WellFormed) (bodiless : message.body = []) :
    (FailsWith (parse limits message.write) .lineTooLong ↔
      limits.maxRequestLineBytes < message.line.length + 2) ∧
    ((message.line.length : Int) + 2 ≤ limits.maxRequestLineBytes →
      (FailsWith (parse limits message.write) .headersTooLarge ↔
        limits.maxHeaderBytes < message.headerLines.length) ∧
      ((message.headerLines.length : Int) ≤ limits.maxHeaderBytes →
        ∀ size < message.write.length, parse limits (message.write.take size) = .incomplete)) := by
  have size := message.length_write
  rw [bodiless, List.length_nil] at size
  have lineSize := asSize_of_nonneg lineLimit.le represented.line.2
  have start := @parse_start limits message formed []
  simp only [List.append_nil] at start
  have whole := start (Nat.le_refl _)
  rw [List.take_length] at whole
  refine ⟨⟨?_, ?_⟩, ?_⟩
  · intro fails
    by_contra within
    rw [Int.not_lt] at within
    by_cases header : message.line.length + message.headerLines.length + 4 ≤
        (message.line.length + 2 + asSize limits.maxHeaderBytes + 2) % 2 ^ 64
    · exact (kind_parse formed (by omega) header fails).1 rfl
    · obtain ⟨text, refused⟩ := fails
      rw [whole, if_neg (by omega), if_pos (by omega)] at refused
      split at refused
      · cases refused
      · cases refused
  · intro long
    rw [whole, if_pos (by omega), if_pos (by omega)]
    exact ⟨_, rfl⟩
  · intro early
    have headerSize := headerLimit_eq represented headerLimit.le early
    refine ⟨⟨?_, ?_⟩, ?_⟩
    · intro fails
      by_contra within
      exact (kind_parse formed (by omega) (by omega) fails).2 rfl
    · intro long
      rw [whole, if_neg (by omega), if_pos (by omega), if_pos (by omega)]
      exact ⟨_, rfl⟩
    · intro fits cut below
      rw [start below.le]
      by_cases inLine : min cut (asSize limits.maxRequestLineBytes) < message.line.length + 2
      · rw [if_pos inLine, if_neg (by omega)]
      · rw [if_neg inLine, if_pos (by omega), if_neg (by omega)]

/-- A message of a request line of 16 octets and one header line of 9, at both limits. -/
def hostMessage : Message where
  method := ascii "GET"
  target := ascii "/"
  minorVersion := 1
  texts := [⟨ascii "Host", [32], ascii "a", []⟩]
  body := []

/-- A message at both limits does not fail for its size and is incomplete at any cut. -/
theorem size_limits_exact_at_limits :
    ¬FailsWith (parse ⟨16, 9, 4, 64⟩ hostMessage.write) .lineTooLong ∧
    ¬FailsWith (parse ⟨16, 9, 4, 64⟩ hostMessage.write) .headersTooLarge ∧
    FailsWith (parse ⟨15, 9, 4, 64⟩ hostMessage.write) .lineTooLong ∧
    FailsWith (parse ⟨16, 8, 4, 64⟩ hostMessage.write) .headersTooLarge ∧
    ∀ size < 27, parse ⟨16, 9, 4, 64⟩ (hostMessage.write.take size) = .incomplete := by
  have formed : hostMessage.WellFormed := by
    refine ⟨⟨by decide +kernel, by decide +kernel, rfl, by decide +kernel, Or.inr rfl⟩, ?_, ?_, ?_, by decide +kernel, by decide +kernel,
      fun _ => rfl, by decide +kernel⟩
    · unfold LineFree
      decide +kernel
    · unfold hostMessage
      rw [List.forall_mem_singleton]
      exact ⟨by decide +kernel, by decide +kernel, by decide +kernel, by decide +kernel, by decide +kernel, by decide +kernel⟩
    · unfold LineFree
      decide +kernel
  have exactly := size_limits_exact ⟨16, 9, 4, 64⟩ ⟨by decide, by decide, by decide, by decide⟩
    (by decide) (by decide) hostMessage formed rfl
  have shorter := size_limits_exact ⟨15, 9, 4, 64⟩ ⟨by decide, by decide, by decide, by decide⟩
    (by decide) (by decide) hostMessage formed rfl
  have smaller := size_limits_exact ⟨16, 8, 4, 64⟩ ⟨by decide, by decide, by decide, by decide⟩
    (by decide) (by decide) hostMessage formed rfl
  refine ⟨?_, ?_, ?_, ?_, ?_⟩
  · exact mt exactly.1.mp (by decide)
  · exact mt (exactly.2 (by decide)).1.mp (by decide)
  · exact shorter.1.mpr (by decide)
  · exact (smaller.2 (by decide)).1.mpr (by decide)
  · exact (exactly.2 (by decide)).2 (by decide)

end Limits

end PlatformService.Verif.RequestRoundTrip
