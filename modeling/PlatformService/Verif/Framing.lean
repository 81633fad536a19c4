import PlatformService.Verif.Slices

/-!
# The framing of a request

The length of a body comes from one Content-Length header or is zero, and no
Transfer-Encoding is accepted: the header loop notes both as it goes, and what it has
noted is what its headers say. The parts of a request lie one behind the other in the
octets that it consumes.
-/

namespace PlatformService.Verif.Framing

open Lib Http CorsHeaders RequestText Slices

section Headers

/-- The headers with a name, in any letter case. -/
def named (name : String) (headers : List Header) : List Header :=
  headers.filter fun header => ciEqual header.name name

/-- The header loop has noted what its headers say. -/
structure Noted (state : HeaderState) : Prop where
  lengths : (named "Content-Length" state.headers).map (parseNonnegDecimal ·.value) =
    state.contentLength.toList.map some
  codings : state.haveTransferEncoding = !(named "Transfer-Encoding" state.headers).isEmpty

/-- The headers with a name, behind one more header. -/
theorem named_append_singleton (name : String) (headers : List Header) (header : Header) :
    named name (headers ++ [header]) =
      named name headers ++ if ciEqual header.name name then [header] else [] := by
  unfold named
  rw [List.filter_append, List.filter_singleton, Bool.cond_eq_ite]

/-- A name is not equal to two literals of different lengths. -/
theorem ciEqual_exclusive {text : Bytes} {first second : String} (equal : ciEqual text first = true)
    (other : (ascii first).length ≠ (ascii second).length) : ciEqual text second = false := by
  by_contra both
  rw [Bool.not_eq_false] at both
  unfold ciEqual at equal both
  rw [decide_eq_true_eq] at equal both
  have sizes := congrArg List.length (equal.symm.trans both)
  rw [List.length_map, List.length_map] at sizes
  exact other sizes

/-- The guard notes what the header says. -/
theorem noted_noteFraming {state after : HeaderState} {header : Header} (noted : Noted state)
    (done : noteFraming { state with headers := state.headers ++ [header] } header = .ok after) :
    Noted after := by
  have kept := noteFraming_headers done
  dsimp only at kept
  have lengths := noted.lengths
  have codings := noted.codings
  unfold noteFraming at done
  dsimp only at done
  by_cases length : ciEqual header.name "Content-Length" = true
  · have coding : ciEqual header.name "Transfer-Encoding" = false :=
      ciEqual_exclusive length (by decide)
    rw [if_pos length] at done
    split at done
    · contradiction
    rename_i first
    split at done
    · contradiction
    rename_i value read
    have none : state.contentLength = none := by simpa using first
    cases done
    rw [none] at lengths
    constructor
    · rw [named_append_singleton, if_pos length, List.map_append, lengths, List.map_singleton, read]
      rfl
    · rw [named_append_singleton, coding, codings]
      simp
  rw [if_neg length] at done
  by_cases coding : ciEqual header.name "Transfer-Encoding" = true
  · rw [if_pos coding] at done
    cases done
    constructor
    · rw [named_append_singleton, if_neg length, List.append_nil]
      exact lengths
    · rw [named_append_singleton, if_pos coding]
      simp
  · rw [if_neg coding] at done
    cases done
    constructor
    · rw [named_append_singleton, if_neg length, List.append_nil]
      exact lengths
    · rw [named_append_singleton, if_neg coding, List.append_nil]
      exact codings

/-- The header loop notes what its lines say. -/
theorem noted_foldlM {limits : Limits} {lines : List Bytes} {state after : HeaderState}
    (noted : Noted state) (done : lines.foldlM (parseHeaderLine limits) state = .ok after) :
    Noted after := by
  induction lines generalizing state with
  | nil =>
    cases done
    exact noted
  | cons line lines ih =>
    rw [List.foldlM_cons] at done
    cases read : parseHeaderLine limits state line with
    | error error =>
      rw [read] at done
      contradiction
    | ok next =>
      rw [read] at done
      obtain ⟨text, _, _, _, guarded⟩ := parseHeaderLine_ok read
      exact ih (noted_noteFraming noted guarded) done

/-- At the start nothing is noted. -/
theorem noted_start : Noted {} := ⟨rfl, rfl⟩

/-- What a decimal value that is read consists of. -/
theorem parseNonnegDecimal_eq_some {text : Bytes} {value : Nat}
    (read : parseNonnegDecimal text = some value) :
    text ≠ [] ∧ (∀ c ∈ text, isDigit c = true) ∧ text.length ≤ 18 ∧ value = natOfDigits text := by
  unfold parseNonnegDecimal at read
  split at read
  · contradiction
  rename_i size
  split at read
  · rename_i digits
    rw [not_or, Nat.not_lt, List.length_eq_zero_iff] at size
    exact ⟨size.1, List.all_eq_true.mp digits, size.2, (Option.some.inj read).symm⟩
  · contradiction

/-- The length of a body, as the headers of its request give it. -/
structure Declares (headers : List Header) (length : Nat) : Prop where
  uncoded : named "Transfer-Encoding" headers = []
  single : (named "Content-Length" headers).length ≤ 1
  absent : named "Content-Length" headers = [] → length = 0
  present : ∀ header ∈ named "Content-Length" headers, header.value ≠ [] ∧
    (∀ c ∈ header.value, isDigit c = true) ∧ length = natOfDigits header.value

/-- What the header loop has noted is what the headers declare. -/
theorem declares_of_noted {state : HeaderState} (noted : Noted state)
    (plain : state.haveTransferEncoding = false) :
    Declares state.headers (state.contentLength.getD 0) := by
  have lengths := noted.lengths
  have sizes := congrArg List.length lengths
  rw [List.length_map, List.length_map] at sizes
  refine ⟨?_, ?_, ?_, ?_⟩
  · have codings := noted.codings
    rw [plain] at codings
    simpa using codings
  · rw [sizes]
    exact Option.length_toList_le
  · intro absent
    rw [absent] at sizes
    cases given : state.contentLength with
    | none => rfl
    | some value =>
      rw [given] at sizes
      contradiction
  · intro header member
    have value : parseNonnegDecimal header.value ∈ state.contentLength.toList.map some := by
      rw [← lengths]
      exact List.mem_map_of_mem member
    obtain ⟨length, given, same⟩ := List.mem_map.mp value
    obtain ⟨filled, digits, _, decimal⟩ := parseNonnegDecimal_eq_some same.symm
    refine ⟨filled, digits, ?_⟩
    rw [Option.mem_toList.mp given, ← decimal]
    rfl

end Headers

section Positions

variable {limits : Limits} {data : Bytes}

/-- Slices one behind another between two positions. -/
def Laid (start stop : Nat) : List Slice → Prop
  | [] => start ≤ stop
  | slice :: slices => start ≤ slice.start ∧ Laid slice.stop stop slices

/-- The slices of a request in the order of the text. -/
def slicesOf (request : RequestSlices) : List Slice :=
  request.method :: request.path :: (request.query.toList ++
    (request.headers.flatMap (fun header => [header.name, header.value]) ++ request.body.toList))

/-- `body_len` -/
def bodyLength (request : RequestSlices) : Nat := (request.body.map Slice.length).getD 0

/-- Slices behind slices. -/
theorem Laid.append {start middle stop : Nat} {slices others : List Slice}
    (first : Laid start middle slices) (second : Laid middle stop others) :
    Laid start stop (slices ++ others) := by
  induction slices generalizing start with
  | nil =>
    cases others with
    | nil => exact Nat.le_trans first second
    | cons slice others => exact ⟨Nat.le_trans first second.1, second.2⟩
  | cons slice slices ih => exact ⟨first.1, ih first.2⟩

/-- A forward scan stops between its start and its limit. -/
theorem scan_bounds (passes : UInt8 → Bool) (data : Bytes) {start limit : Nat} (begins : start ≤ limit) :
    start ≤ scan passes data start limit ∧ scan passes data start limit ≤ limit := by
  have short := (List.takeWhile_prefix passes (l := (data.take limit).drop start)).length_le
  have size := List.length_take_le limit data
  rw [List.length_drop] at short
  unfold scan
  omega

/-- A backward scan stops between its limit and its start. -/
theorem scanBack_bounds (passes : UInt8 → Bool) (data : Bytes) {start limit : Nat}
    (begins : start ≤ limit) :
    start ≤ scanBack passes data start limit ∧ scanBack passes data start limit ≤ limit := by
  have short := (List.rdropWhile_prefix passes ((data.take limit).drop start)).length_le
  have size := List.length_take_le limit data
  rw [List.length_drop] at short
  unfold scanBack
  omega

/-- The end of a slice between two positions. -/
theorem stop_between {start stop : Nat} (ordered : start ≤ stop) : (Slice.between start stop).stop = stop :=
  Nat.add_sub_cancel' ordered

/-- The slices of a request line lie in it. -/
theorem laid_requestLine {lineLen : Nat} {line : LineSlices}
    (done : sliceRequestLine data lineLen = .ok line) :
    Laid 0 lineLen (line.method :: line.path :: line.query.toList) := by
  rw [sliceRequestLine_eq] at done
  dsimp only at done
  split at done
  · contradiction
  split at done
  · contradiction
  rename_i alone
  split at done
  · contradiction
  rename_i aimless
  split at done
  · contradiction
  have method := scan_bounds (fun c => decide (c ≠ 32)) data (Nat.zero_le lineLen)
  generalize scan (fun c => decide (c ≠ 32)) data 0 lineLen = methodEnd at done alone aimless method
  have behind : methodEnd + 1 ≤ lineLen := by omega
  have target := scan_bounds (fun c => decide (c ≠ 32)) data behind
  generalize scan (fun c => decide (c ≠ 32)) data (methodEnd + 1) lineLen = targetEnd at done aimless target
  have path := scan_bounds (fun c => decide (c ≠ 63)) data target.1
  generalize scan (fun c => decide (c ≠ 63)) data (methodEnd + 1) targetEnd = pathEnd at done path
  have laid : Laid 0 lineLen (Slice.between 0 methodEnd :: .between (methodEnd + 1) pathEnd ::
      (if pathEnd < targetEnd then some (Slice.between (pathEnd + 1) targetEnd) else none).toList) := by
    refine ⟨Nat.le_refl 0, ?_⟩
    rw [stop_between method.1]
    refine ⟨Nat.le_succ _, ?_⟩
    rw [stop_between path.1]
    split
    · refine ⟨Nat.le_succ _, ?_⟩
      rw [stop_between (by omega)]
      exact target.2
    · show pathEnd ≤ lineLen
      omega
  split at done
  · cases done
    exact laid
  split at done
  · cases done
    exact laid
  · contradiction

/-- The slices of a header line lie in it. -/
theorem laid_headerLine {state after : HeaderPositions} {cursor lineEnd : Nat} (begins : cursor ≤ lineEnd)
    (done : sliceHeaderLine limits data state cursor lineEnd = .ok after) :
    ∃ header, after.headers = state.headers ++ [header] ∧ Laid cursor lineEnd [header.name, header.value] := by
  rw [sliceHeaderLine_eq] at done
  dsimp only at done
  split at done
  · contradiction
  split at done
  · contradiction
  split at done
  · contradiction
  rename_i unnamed
  split at done
  · contradiction
  have name := scan_bounds (fun c => decide (c ≠ 58)) data begins
  generalize scan (fun c => decide (c ≠ 58)) data cursor lineEnd = nameEnd at done unnamed name
  have behind : nameEnd + 1 ≤ lineEnd := by omega
  have value := scan_bounds isSpOrHtab data behind
  generalize scan isSpOrHtab data (nameEnd + 1) lineEnd = valueStart at done value
  have back := scanBack_bounds isSpOrHtab data value.2
  generalize scanBack isSpOrHtab data valueStart lineEnd = valueEnd at done back
  refine ⟨⟨.between cursor nameEnd, .between valueStart valueEnd⟩, ?_, Nat.le_refl cursor, ?_⟩
  · cases noted : noteFraming (HeaderPositions.read { state with headers := state.headers ++
        [⟨.between cursor nameEnd, .between valueStart valueEnd⟩] } data)
        (HeaderSlices.read ⟨.between cursor nameEnd, .between valueStart valueEnd⟩ data) with
    | error error =>
      rw [noted] at done
      contradiction
    | ok next =>
      rw [noted] at done
      cases done
      rfl
  · rw [stop_between name.1]
    refine ⟨by show nameEnd ≤ valueStart; omega, ?_⟩
    rw [stop_between back.1]
    exact back.2

/-- The slices of the headers of a block lie in it. -/
theorem laid_headerLines {blockEnd : Nat} {state after : HeaderPositions} {cursor : Nat}
    (begins : cursor ≤ blockEnd) (done : sliceHeaderLines limits data blockEnd state cursor = .ok after) :
    ∃ headers, after.headers = state.headers ++ headers ∧
      Laid cursor blockEnd (headers.flatMap fun header => [header.name, header.value]) := by
  fun_induction sliceHeaderLines limits data blockEnd state cursor with
  | case1 state cursor ahead missed => contradiction
  | case2 state cursor ahead lineEnd found _ error refused => contradiction
  | case3 state cursor ahead lineEnd found _ next taken ih =>
    have bounds := (firstOccurrence_eq_some.mp found).1
    have two : ([13, 10] : Bytes).length = 2 := rfl
    obtain ⟨header, pushed, line⟩ := laid_headerLine bounds.1 taken
    obtain ⟨headers, others, rest⟩ := ih (by omega) done
    have crossed : Laid lineEnd (lineEnd + 2) [] := Nat.le_add_right _ _
    refine ⟨header :: headers, ?_, ?_⟩
    · rw [others, pushed, List.append_assoc]
      rfl
    · exact line.append (crossed.append rest)
  | case4 state cursor ended =>
    cases done
    exact ⟨[], (List.append_nil _).symm, begins⟩

/-- The checks behind the header loop keep its headers. -/
theorem checkFraming_ok {state after : HeaderPositions} (done : checkFraming state = .ok after) :
    after = state := by
  unfold checkFraming at done
  dsimp only [bind, Except.bind, pure, Except.pure] at done
  split at done
  · contradiction
  split at done
  · split at done
    · contradiction
    · contradiction
  · exact (Except.ok.inj done).symm

/-- What the body stage leaves. -/
theorem sliceBody_ok {afterHeaders : Nat} {line : LineSlices} {state : HeaderPositions}
    {request : RequestSlices} {consumed : Nat} (inside : afterHeaders ≤ data.length)
    (done : sliceBody limits data afterHeaders line state = .ok request consumed) :
    request.method = line.method ∧ request.path = line.path ∧ request.query = line.query ∧
      request.headers = state.headers ∧
      consumed = afterHeaders + state.contentLength.getD 0 ∧ consumed ≤ data.length ∧
      bodyLength request = state.contentLength.getD 0 ∧
      Laid afterHeaders consumed request.body.toList := by
  unfold sliceBody at done
  dsimp only at done
  split at done
  · rename_i empty
    cases done
    refine ⟨rfl, rfl, rfl, rfl, by omega, inside, empty.symm, Nat.le_refl _⟩
  split at done
  · contradiction
  split at done
  · contradiction
  · rename_i enough
    cases done
    refine ⟨rfl, rfl, rfl, rfl, rfl, by omega, rfl, Nat.le_refl _, Nat.le_refl _⟩

/-- An accepted request ends where its body does, and its slices lie one behind another in front of
that. -/
theorem parseSlices_ok {request : RequestSlices} {consumed : Nat}
    (done : parseSlices limits data = .ok request consumed) :
    ∃ lineEnd terminator, findCrlf data data.length 0 = some lineEnd ∧
      firstOccurrence [13, 10, 13, 10] data lineEnd data.length = some terminator ∧
      consumed = terminator + 4 + bodyLength request ∧ consumed ≤ data.length ∧
      Laid 0 consumed (slicesOf request) := by
  unfold parseSlices at done
  dsimp only at done
  split at done
  · split at done
    · contradiction
    · contradiction
  rename_i lineEnd first
  split at done
  · contradiction
  rename_i line read
  unfold sliceRest at done
  dsimp only at done
  split at done
  · split at done
    · contradiction
    · contradiction
  rename_i terminator blank
  split at done
  · contradiction
  rename_i state headers
  have four : ([13, 10, 13, 10] : Bytes).length = 4 := rfl
  have bounds := (firstOccurrence_eq_some.mp blank).1
  cases looped : sliceHeaderLines limits data (terminator + 2) {} (lineEnd + 2) with
  | error error =>
    rw [looped] at headers
    contradiction
  | ok loopState =>
    rw [looped] at headers
    have same : state = loopState := checkFraming_ok headers
    obtain ⟨texts, pushed, block⟩ := laid_headerLines (by omega) looped
    obtain ⟨method, path, query, kept, ends, inside, size, body⟩ := sliceBody_ok (by omega) done
    have crossed : Laid lineEnd (lineEnd + 2) [] := Nat.le_add_right _ _
    have blankLine : Laid (terminator + 2) (terminator + 4) [] := Nat.le_add_right (terminator + 2) 2
    have laid := (laid_requestLine read).append (crossed.append (block.append (blankLine.append body)))
    refine ⟨lineEnd, terminator, firstOccurrence_of_found first (by omega),
      firstOccurrence_of_found blank (by omega), ?_, inside, ?_⟩
    · rw [size]
      exact ends
    · have listed : request.headers = texts := by
        rw [kept, same, pushed]
        rfl
      unfold slicesOf
      rw [method, path, query, listed]
      exact laid

end Positions

section Acceptance

/-- The lines between the request line and the blank line behind the headers. -/
def blockLines (data : Bytes) (lineEnd terminator : Nat) : List Bytes :=
  (splitCrlf ((data.take (terminator + 2)).drop (lineEnd + 2))).1

/-- A line has a header name, in any letter case. -/
def nameIs (name : String) (line : Bytes) : Bool := ciEqual (line.takeWhile (· ≠ 58)) name

/-- The header block of a text. -/
theorem block_write (parts : Parts) :
    (parts.write.take (parts.line.length + (joinLines parts.lines).length + 2)).drop
      (parts.line.length + 2) = joinLines parts.lines := by
  have two : crlf.length = 2 := rfl
  unfold Parts.write headText
  rw [List.drop_take, ← two, ← List.drop_drop, List.drop_left, List.drop_left,
    show parts.line.length + (joinLines parts.lines).length + crlf.length -
      (parts.line.length + crlf.length) = (joinLines parts.lines).length by omega, List.take_left]

/-- The header lines of a text are its header lines. -/
theorem blockLines_write {parts : Parts} (shaped : parts.Shaped) :
    blockLines parts.write parts.line.length (parts.line.length + (joinLines parts.lines).length) =
      parts.lines := by
  unfold blockLines
  rw [block_write, splitCrlf_joinLines shaped.uncutLines]

/-- Where the request line and the header lines of a text end. -/
theorem ends_of_write {parts : Parts} (shaped : parts.Shaped) {lineEnd terminator : Nat}
    (first : findCrlf parts.write parts.write.length 0 = some lineEnd)
    (blank : firstOccurrence [13, 10, 13, 10] parts.write lineEnd parts.write.length = some terminator) :
    lineEnd = parts.line.length ∧ terminator = parts.line.length + (joinLines parts.lines).length := by
  have line := findCrlf_line shaped.uncutLine (joinLines parts.lines ++ (crlf ++ parts.rest))
  have block := blank_headText parts.line shaped.uncutLines shaped.filled parts.rest
  have lineIs : lineEnd = parts.line.length := Option.some.inj (first.symm.trans line)
  rw [lineIs] at blank
  exact ⟨lineIs, Option.some.inj (blank.symm.trans block)⟩

/-- The lines with a name are as many as the headers with it. -/
theorem countP_lines {parts : Parts} (shaped : parts.Shaped) (name : String) :
    parts.lines.countP (nameIs name) = (named name (parts.texts.map HeaderText.header)).length := by
  unfold named Parts.lines
  rw [← List.countP_eq_length_filter, List.countP_map, List.countP_map]
  apply List.countP_congr
  intro text member
  have key : text.write.takeWhile (· ≠ 58) = text.name :=
    takeWhile_token (shaped.texts text member).token rfl _
  unfold Function.comp nameIs
  rw [key]
  exact Iff.rfl

/-- The body stage consumes as much as the headers declare. -/
theorem consumed_parseBody {limits : Limits} {data : Bytes} {afterHeaders : Nat}
    {request accepted : Request} {contentLength : Option Nat} {consumed : Nat}
    (done : parseBody limits data afterHeaders request contentLength = .ok accepted consumed) :
    consumed = afterHeaders + contentLength.getD 0 := by
  unfold parseBody at done
  dsimp only at done
  split at done
  · rename_i empty
    injection done with _ here
    omega
  split at done
  · contradiction
  split at done
  · contradiction
  · injection done with _ here
    exact here.symm

/-- What an accepted request declares is what it consumes behind its head. -/
theorem declares_of_parse {limits : Limits} {data : Bytes} {request : Request} {consumed : Nat}
    (done : parse limits data = .ok request consumed) :
    ∃ (parts : Parts) (length : Nat), parts.Shaped ∧ data = parts.write ∧
      request.headers = parts.texts.map HeaderText.header ∧ Declares request.headers length ∧
      consumed = parts.line.length + (joinLines parts.lines).length + 4 + length := by
  obtain ⟨parts, state, shaped, written, folded, listed, plain, body⟩ := parse_ok done
  have declares := declares_of_noted (noted_foldlM noted_start folded) plain
  have kept : request.headers = state.headers := parseBody_headers body
  refine ⟨parts, _, shaped, written, kept.trans listed, ?_, consumed_parseBody body⟩
  rw [kept]
  exact declares

/-- The framing of an accepted request is that of its one Content-Length header, its parts lie in order
in what it consumes, and a header block with two Content-Length lines or a Transfer-Encoding line is
never accepted. -/
theorem framing_exact (limits : Limits) (data : Bytes) :
    (∀ request consumed, parse limits data = .ok request consumed →
      ∃ slices, parseSlices limits data = .ok slices consumed ∧ slices.read data = request ∧
        Declares request.headers (bodyLength slices) ∧
        (∃ lineEnd terminator, findCrlf data data.length 0 = some lineEnd ∧
          firstOccurrence [13, 10, 13, 10] data lineEnd data.length = some terminator ∧
          consumed = terminator + 4 + bodyLength slices) ∧
        consumed ≤ data.length ∧ Laid 0 consumed (slicesOf slices)) ∧
    ∀ lineEnd terminator, findCrlf data data.length 0 = some lineEnd →
      firstOccurrence [13, 10, 13, 10] data lineEnd data.length = some terminator →
      2 ≤ (blockLines data lineEnd terminator).countP (nameIs "Content-Length") ∨
        1 ≤ (blockLines data lineEnd terminator).countP (nameIs "Transfer-Encoding") →
      ∀ request consumed, parse limits data ≠ .ok request consumed := by
  constructor
  · intro request consumed done
    obtain ⟨parts, length, shaped, written, _, declares, total⟩ := declares_of_parse done
    have read := parse_eq_read limits data
    rw [done] at read
    cases positions : parseSlices limits data with
    | incomplete =>
      rw [positions] at read
      contradiction
    | error error =>
      rw [positions] at read
      contradiction
    | ok slices ending =>
      rw [positions] at read
      injection read with same here
      obtain ⟨lineEnd, terminator, first, blank, ends, inside, laid⟩ := parseSlices_ok positions
      have ⟨_, blankIs⟩ := ends_of_write shaped (written ▸ first) (written ▸ blank)
      have declared : length = bodyLength slices := by omega
      rw [declared] at declares
      rw [here]
      exact ⟨slices, rfl, same.symm, declares, ⟨lineEnd, terminator, first, blank, ends⟩, inside, laid⟩
  · intro lineEnd terminator first blank forbidden request consumed done
    obtain ⟨parts, length, shaped, written, listed, declares, _⟩ := declares_of_parse done
    have ⟨lineIs, blankIs⟩ := ends_of_write shaped (written ▸ first) (written ▸ blank)
    rw [lineIs, blankIs, written, blockLines_write shaped, countP_lines shaped, countP_lines shaped,
      ← listed, declares.uncoded] at forbidden
    have single := declares.single
    cases forbidden with
    | inl twice => omega
    | inr coded => contradiction

/-- A request with a body of two octets and the start of another request. -/
def sampleText : Bytes := ascii "PUT /a?b HTTP/1.1\r\ncontent-length: 2\r\n\r\nhiGET"

/-- The framing of a request with a body, and of one with two lengths. -/
theorem framing_sample :
    (∃ slices, parseSlices ⟨64, 64, 4, 64⟩ sampleText = .ok slices 42 ∧
      Declares [⟨ascii "content-length", ascii "2"⟩] (bodyLength slices) ∧
      Laid 0 42 (slicesOf slices)) ∧
    ∀ request consumed, parse ⟨64, 64, 4, 64⟩
      (ascii "GET / HTTP/1.1\r\nContent-Length: 0\r\nX: y\r\nCONTENT-LENGTH: 0\r\n\r\n") ≠
        .ok request consumed := by
  constructor
  · have done : parse ⟨64, 64, 4, 64⟩ sampleText =
        .ok ⟨ascii "PUT", ascii "/a", some (ascii "b"), 1,
          [⟨ascii "content-length", ascii "2"⟩], some (ascii "hi")⟩ 42 := by decide +kernel
    obtain ⟨slices, positions, _, declares, _, _, laid⟩ := (framing_exact _ _).1 _ _ done
    exact ⟨slices, positions, declares, laid⟩
  · exact (framing_exact _ _).2 14 58 (by decide +kernel) (by decide +kernel) (by decide +kernel)

end Acceptance

end PlatformService.Verif.Framing
