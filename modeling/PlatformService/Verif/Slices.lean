import PlatformService.Verif.RequestText

/-!
# Positions and texts

The parser on positions reads what the parser on texts copies: `parse_eq_read`. The scan
that finds the header block and the scan that cuts it into lines meet the same CRLFs,
so the loop over positions takes the lines of the block one after the other.
-/

namespace PlatformService.Verif.Slices

open Lib Http CorsHeaders RequestText

section Scans

variable {data : Bytes} {start limit : Nat} (passes : UInt8 → Bool)

/-- The slice that starts at a position and is as long as something that stands there. -/
theorem read_of_leads {text : Bytes} (here : text <+: data.drop start) :
    Slice.read ⟨start, text.length⟩ data = text :=
  (List.prefix_iff_eq_take.mp here).symm

/-- The rest of a text below a limit is a part of the rest of the text. -/
theorem drop_take_leads (data : Bytes) (start limit : Nat) :
    (data.take limit).drop start <+: data.drop start := by
  rw [List.drop_take]
  exact List.take_prefix _ _

/-- What a forward scan passes. -/
theorem read_scan : (Slice.between start (scan passes data start limit)).read data =
    ((data.take limit).drop start).takeWhile passes := by
  have size : scan passes data start limit - start =
      (((data.take limit).drop start).takeWhile passes).length := Nat.add_sub_cancel_left _ _
  unfold Slice.between
  rw [size]
  exact read_of_leads ((List.takeWhile_prefix _).trans (drop_take_leads data start limit))

/-- What a backward scan leaves. -/
theorem read_scanBack : (Slice.between start (scanBack passes data start limit)).read data =
    ((data.take limit).drop start).rdropWhile passes := by
  have size : scanBack passes data start limit - start =
      (((data.take limit).drop start).rdropWhile passes).length := Nat.add_sub_cancel_left _ _
  unfold Slice.between
  rw [size]
  exact read_of_leads ((List.rdropWhile_prefix _ _).trans (drop_take_leads data start limit))

/-- The slice up to a limit. -/
theorem read_between : (Slice.between start limit).read data = (data.take limit).drop start :=
  (List.drop_take ..).symm

/-- What a forward scan stops before. -/
theorem drop_scan : (data.take limit).drop (scan passes data start limit) =
    ((data.take limit).drop start).dropWhile passes := by
  have parts : ((data.take limit).drop start).takeWhile passes ++
      ((data.take limit).drop start).dropWhile passes = (data.take limit).drop start :=
    List.takeWhile_append_dropWhile
  have dropped := congrArg (List.drop (((data.take limit).drop start).takeWhile passes).length) parts
  rw [List.drop_left] at dropped
  unfold scan
  rw [← List.drop_drop]
  exact dropped.symm

end Scans

section RequestLine

/-- The request line on positions, its checks one after the other. -/
theorem sliceRequestLine_eq (data : Bytes) (lineLen : Nat) :
    sliceRequestLine data lineLen =
      let methodEnd := scan (· ≠ 32) data 0 lineLen
      let targetStart := methodEnd + 1
      let targetEnd := scan (· ≠ 32) data targetStart lineLen
      let pathEnd := scan (· ≠ 63) data targetStart targetEnd
      let query := if pathEnd < targetEnd then some (Slice.between (pathEnd + 1) targetEnd) else none
      let version := (Slice.between (targetEnd + 1) lineLen).read data
      let line := LineSlices.mk (.between 0 methodEnd) (.between targetStart pathEnd) query
      if (!((Slice.between 0 methodEnd).read data).all isTchar) = true then
        .error (malformed "invalid method token")
      else if methodEnd = 0 ∨ lineLen ≤ methodEnd then
        .error (malformed "malformed request line (method)")
      else if targetEnd = targetStart ∨ lineLen ≤ targetEnd then
        .error (malformed "malformed request line (target)")
      else if data[targetStart]? ≠ some 47 then
        .error (malformed "only origin-form request targets are supported")
      else if version = ascii "HTTP/1.1" then .ok (line 1)
      else if version = ascii "HTTP/1.0" then .ok (line 0)
      else .error (malformed "unsupported or malformed HTTP version") := by
  unfold sliceRequestLine
  dsimp only [bind, Except.bind, pure, Except.pure]
  by_cases strange : (!((Slice.between 0 (scan (· ≠ 32) data 0 lineLen)).read data).all isTchar) = true
  · rw [if_pos strange, if_pos strange]
    rfl
  rw [if_neg strange, if_neg strange]
  by_cases alone : scan (· ≠ 32) data 0 lineLen = 0 ∨ lineLen ≤ scan (· ≠ 32) data 0 lineLen
  · rw [if_pos alone, if_pos alone]
    rfl
  rw [if_neg alone, if_neg alone]
  split
  · rfl
  split
  · rfl
  split
  · rfl
  split
  · rfl
  · rfl

/-- The first octet of a slice that is not empty. -/
theorem head_read {data : Bytes} {start stop : Nat} (filled : start < stop) :
    ((Slice.between start stop).read data).head? = (data.drop start).head? := by
  have nonzero : stop - start ≠ 0 := by omega
  unfold Slice.between Slice.read
  rw [List.head?_take, if_neg nonzero]

/-- The query is read from its position. -/
theorem queryOf_read {data : Bytes} {start stop : Nat} (inside : stop ≤ data.length) :
    queryOf ((Slice.between start stop).read data) =
      (if scan (· ≠ 63) data start stop < stop then
        some (Slice.between (scan (· ≠ 63) data start stop + 1) stop) else none).map (·.read data) := by
  have size : ((Slice.between start stop).read data).length = stop - start := by
    rw [read_between, List.length_drop, List.length_take_of_le inside]
  have path : (pathOf ((Slice.between start stop).read data)).length + start =
      scan (· ≠ 63) data start stop := by
    rw [read_between, Nat.add_comm]
    rfl
  unfold queryOf
  rw [size]
  by_cases asks : scan (· ≠ 63) data start stop < stop
  · rw [if_pos asks, if_pos (by omega), Option.map_some, read_between, read_between, List.drop_drop]
    rfl
  · rw [if_neg asks, if_neg (by omega)]
    rfl

/-- The request line is read from its positions. -/
theorem parseRequestLine_read {data : Bytes} {lineLen : Nat} (inside : lineLen ≤ data.length) :
    parseRequestLine (data.take lineLen) = (sliceRequestLine data lineLen).map (·.read data) := by
  have size : (data.take lineLen).length = lineLen := List.length_take_of_le inside
  have methodEnd : scan (· ≠ 32) data 0 lineLen = ((data.take lineLen).takeWhile (· ≠ 32)).length :=
    Nat.zero_add _
  have method : (Slice.between 0 (scan (· ≠ 32) data 0 lineLen)).read data =
      (data.take lineLen).takeWhile (· ≠ 32) := read_scan _
  rw [parseRequestLine_eq, sliceRequestLine_eq]
  dsimp only
  rw [method, size]
  by_cases strange : (!((data.take lineLen).takeWhile (· ≠ 32)).all isTchar) = true
  · rw [if_pos strange, if_pos strange]
    rfl
  rw [methodEnd] at method
  rw [if_neg strange, if_neg strange, methodEnd]
  by_cases alone : (data.take lineLen).takeWhile (· ≠ 32) = [] ∨
      lineLen ≤ ((data.take lineLen).takeWhile (· ≠ 32)).length
  · rw [if_pos alone, if_pos (alone.imp_left List.length_eq_zero_iff.mpr)]
    rfl
  rw [if_neg alone, if_neg (mt (Or.imp_left List.length_eq_zero_iff.mp) alone)]
  generalize ((data.take lineLen).takeWhile (· ≠ 32)).length + 1 = targetStart
  have target : (Slice.between targetStart (scan (· ≠ 32) data targetStart lineLen)).read data =
      ((data.take lineLen).drop targetStart).takeWhile (· ≠ 32) := read_scan _
  have targetEnd : scan (· ≠ 32) data targetStart lineLen =
      targetStart + (((data.take lineLen).drop targetStart).takeWhile (· ≠ 32)).length := rfl
  have rest : ((data.take lineLen).drop targetStart).length = lineLen - targetStart := by
    rw [List.length_drop, size]
  have short := (List.takeWhile_prefix (fun c => decide (c ≠ 32))
    (l := (data.take lineLen).drop targetStart)).length_le
  have aims : (((data.take lineLen).drop targetStart).takeWhile (· ≠ 32) = [] ∨
      ((data.take lineLen).drop targetStart).length ≤
        (((data.take lineLen).drop targetStart).takeWhile (· ≠ 32)).length) ↔
      (scan (· ≠ 32) data targetStart lineLen = targetStart ∨
        lineLen ≤ scan (· ≠ 32) data targetStart lineLen) := by
    rw [targetEnd, ← List.length_eq_zero_iff]
    omega
  by_cases aimless : scan (· ≠ 32) data targetStart lineLen = targetStart ∨
      lineLen ≤ scan (· ≠ 32) data targetStart lineLen
  · rw [if_pos aimless, if_pos (aims.mpr aimless)]
    rfl
  rw [if_neg aimless, if_neg (mt aims.mp aimless)]
  have head : (((data.take lineLen).drop targetStart).takeWhile (· ≠ 32)).head? = data[targetStart]? := by
    rw [← target, ← List.head?_drop]
    exact head_read (by omega)
  have version : ((data.take lineLen).drop targetStart).drop
      ((((data.take lineLen).drop targetStart).takeWhile (· ≠ 32)).length + 1) =
      (Slice.between (scan (· ≠ 32) data targetStart lineLen + 1) lineLen).read data := by
    rw [read_between, List.drop_drop]
    rfl
  rw [head, version, ← target, queryOf_read (by omega)]
  generalize scan (· ≠ 32) data targetStart lineLen = targetEnd
  have path : pathOf ((Slice.between targetStart targetEnd).read data) =
      (Slice.between targetStart (scan (· ≠ 63) data targetStart targetEnd)).read data := by
    rw [read_scan, read_between]
    rfl
  rw [path]
  split
  · rfl
  split
  · exact congrArg (fun text => Except.ok (RequestLine.mk text _ _ 1)) method.symm
  split
  · exact congrArg (fun text => Except.ok (RequestLine.mk text _ _ 0)) method.symm
  · rfl

end RequestLine

section Headers

variable {limits : Limits} {data : Bytes}

/-- One turn of the header loop on positions, its checks one after the other. -/
theorem sliceHeaderLine_eq (limits : Limits) (data : Bytes) (state : HeaderPositions)
    (cursor lineEnd : Nat) :
    sliceHeaderLine limits data state cursor lineEnd =
      let nameEnd := scan (· ≠ 58) data cursor lineEnd
      let valueStart := scan isSpOrHtab data (nameEnd + 1) lineEnd
      let valueEnd := scanBack isSpOrHtab data valueStart lineEnd
      let header : HeaderSlices := ⟨.between cursor nameEnd, .between valueStart valueEnd⟩
      let pushed : HeaderPositions := { state with headers := state.headers ++ [header] }
      if data[cursor]?.any isSpOrHtab then
        .error (malformed "obsolete line folding is not supported")
      else if (!((Slice.between cursor nameEnd).read data).all isTchar) = true then
        .error (malformed "invalid header name")
      else if nameEnd = cursor ∨ lineEnd ≤ nameEnd then .error (malformed "malformed header line")
      else if maxHeaders ≤ state.headers.length ∨ limits.maxHeaderCount ≤ state.headers.length then
        .error ⟨.tooManyHeaders, "too many headers"⟩
      else (noteFraming (pushed.read data) (header.read data)).map fun noted =>
        ⟨pushed.headers, noted.contentLength, noted.haveTransferEncoding,
          noted.transferEncodingChunked⟩ := by
  unfold sliceHeaderLine
  dsimp only [bind, Except.bind, pure, Except.pure]
  by_cases folded : data[cursor]?.any isSpOrHtab = true
  · rw [if_pos folded, if_pos folded]
    rfl
  rw [if_neg folded, if_neg folded]
  by_cases strange : (!((Slice.between cursor (scan (· ≠ 58) data cursor lineEnd)).read data).all
      isTchar) = true
  · rw [if_pos strange, if_pos strange]
    rfl
  rw [if_neg strange, if_neg strange]
  by_cases unnamed : scan (· ≠ 58) data cursor lineEnd = cursor ∨
      lineEnd ≤ scan (· ≠ 58) data cursor lineEnd
  · rw [if_pos unnamed, if_pos unnamed]
    rfl
  rw [if_neg unnamed, if_neg unnamed]
  by_cases full : maxHeaders ≤ state.headers.length ∨ limits.maxHeaderCount ≤ state.headers.length
  · rw [if_pos full, if_pos full]
    rfl
  rw [if_neg full, if_neg full]
  split
  · rename_i refused
    rw [refused]
    rfl
  · rename_i noted
    rw [noted]
    rfl

/-- The guard reads a header that is pushed, and changes nothing that is kept as positions. -/
theorem noteFraming_read (data : Bytes) (state : HeaderPositions) (header : HeaderSlices) :
    noteFraming { state.read data with headers := (state.read data).headers ++ [header.read data] }
        (header.read data) =
      ((noteFraming (HeaderPositions.read { state with headers := state.headers ++ [header] } data)
        (header.read data)).map fun noted => HeaderPositions.mk (state.headers ++ [header])
          noted.contentLength noted.haveTransferEncoding noted.transferEncodingChunked).map
          (·.read data) := by
  have pushed : HeaderPositions.read { state with headers := state.headers ++ [header] } data =
      { state.read data with headers := (state.read data).headers ++ [header.read data] } := by
    unfold HeaderPositions.read
    rw [List.map_append]
    rfl
  rw [pushed]
  cases done : noteFraming
    { state.read data with headers := (state.read data).headers ++ [header.read data] }
    (header.read data) with
  | error error => rfl
  | ok noted =>
    have kept : noted.headers = state.headers.map (·.read data) ++ [header.read data] :=
      noteFraming_headers done
    have same : (HeaderPositions.mk (state.headers ++ [header]) noted.contentLength
        noted.haveTransferEncoding noted.transferEncodingChunked).read data = noted := by
      unfold HeaderPositions.read
      rw [List.map_append, List.map_singleton, ← kept]
    exact (congrArg Except.ok same).symm

/-- The first octet of a line, or of the CRLF that ends it, is a blank only in a line. -/
theorem folded_read {cursor lineEnd : Nat} (begins : cursor ≤ lineEnd)
    (ends : occursAt crlf data lineEnd = true) :
    ((data.take lineEnd).drop cursor).head?.any isSpOrHtab = data[cursor]?.any isSpOrHtab := by
  by_cases filled : cursor < lineEnd
  · rw [← read_between, head_read filled, List.head?_drop]
  · have here : cursor = lineEnd := by omega
    have empty : (data.take cursor).drop cursor = [] :=
      List.drop_eq_nil_of_le (List.length_take_le cursor data)
    rw [← here] at ends ⊢
    rw [empty, ← List.head?_drop, drop_of_occursAt ends]
    rfl

/-- A header line is read from its positions. -/
theorem parseHeaderLine_read (limits : Limits) (state : HeaderPositions) {cursor lineEnd : Nat}
    (begins : cursor ≤ lineEnd) (ends : occursAt crlf data lineEnd = true) :
    parseHeaderLine limits (state.read data) ((data.take lineEnd).drop cursor) =
      (sliceHeaderLine limits data state cursor lineEnd).map (·.read data) := by
  have name : (Slice.between cursor (scan (· ≠ 58) data cursor lineEnd)).read data =
      ((data.take lineEnd).drop cursor).takeWhile (· ≠ 58) := read_scan _
  have nameEnd : scan (· ≠ 58) data cursor lineEnd =
      cursor + (((data.take lineEnd).drop cursor).takeWhile (· ≠ 58)).length := rfl
  have value : (Slice.between (scan isSpOrHtab data (scan (· ≠ 58) data cursor lineEnd + 1) lineEnd)
      (scanBack isSpOrHtab data
        (scan isSpOrHtab data (scan (· ≠ 58) data cursor lineEnd + 1) lineEnd) lineEnd)).read data =
      trimEnds isSpOrHtab (((data.take lineEnd).drop cursor).drop
        ((((data.take lineEnd).drop cursor).takeWhile (· ≠ 58)).length + 1)) := by
    rw [read_scanBack, drop_scan, List.drop_drop]
    rfl
  have size : ((data.take lineEnd).drop cursor).length = lineEnd - cursor := by
    have rest := congrArg List.length (drop_of_occursAt ends)
    have two : crlf.length = 2 := rfl
    rw [List.length_append, List.length_drop] at rest
    rw [List.length_drop, List.length_take_of_le (by omega)]
  have short := (List.takeWhile_prefix (fun c => decide (c ≠ 58))
    (l := (data.take lineEnd).drop cursor)).length_le
  have named : (((data.take lineEnd).drop cursor).takeWhile (· ≠ 58) = [] ∨
      ((data.take lineEnd).drop cursor).length ≤
        (((data.take lineEnd).drop cursor).takeWhile (· ≠ 58)).length) ↔
      (scan (· ≠ 58) data cursor lineEnd = cursor ∨ lineEnd ≤ scan (· ≠ 58) data cursor lineEnd) := by
    rw [nameEnd, ← List.length_eq_zero_iff]
    omega
  have count : (state.read data).headers.length = state.headers.length := List.length_map _
  rw [parseHeaderLine_eq, sliceHeaderLine_eq]
  dsimp only
  rw [folded_read begins ends, ← value, ← name, count]
  by_cases folded : data[cursor]?.any isSpOrHtab = true
  · rw [if_pos folded, if_pos folded]
    rfl
  rw [if_neg folded, if_neg folded]
  split
  · rfl
  rw [← name] at named
  by_cases unnamed : scan (· ≠ 58) data cursor lineEnd = cursor ∨
      lineEnd ≤ scan (· ≠ 58) data cursor lineEnd
  · rw [if_pos unnamed, if_pos (named.mpr unnamed)]
    rfl
  rw [if_neg unnamed, if_neg (mt named.mp unnamed)]
  split
  · rfl
  · exact noteFraming_read data state ⟨.between cursor _, .between _ _⟩

/-- A block without a CRLF has no lines. -/
theorem splitCrlf_uncut {block : Bytes} (uncut : Uncut block) : splitCrlf block = ([], block) := by
  have whole := joinLines_splitCrlf block
  cases split : splitCrlf block with
  | mk lines last =>
    rw [split] at whole
    cases lines with
    | nil => exact Prod.ext rfl whole
    | cons line lines =>
      have cut : crlf <:+: block := by
        rw [← whole]
        exact ⟨line, joinLines lines ++ last, by simp [joinLines]⟩
      exact absurd cut uncut

/-- The cursor is at the line that the next CRLF ends, and behind it the block goes on. -/
theorem splitCrlf_at {blockEnd cursor lineEnd : Nat} (found : findCrlf data blockEnd cursor = some lineEnd) :
    splitCrlf ((data.take blockEnd).drop cursor) =
      ((data.take lineEnd).drop cursor :: (splitCrlf ((data.take blockEnd).drop (lineEnd + 2))).1,
        (splitCrlf ((data.take blockEnd).drop (lineEnd + 2))).2) := by
  obtain ⟨bounds, here, _⟩ := firstOccurrence_eq_some.mp found
  have two : ([13, 10] : Bytes).length = 2 := rfl
  rw [two] at bounds
  have line : ((data.take blockEnd).drop cursor).take (lineEnd - cursor) =
      (data.take lineEnd).drop cursor := by
    rw [List.drop_take, List.take_take, List.drop_take, Nat.min_eq_left (by omega)]
  have rest : ((data.take blockEnd).drop cursor).drop (lineEnd - cursor) =
      crlf ++ (data.take blockEnd).drop (lineEnd + 2) := by
    have whole : crlf.take (blockEnd - lineEnd) = crlf := List.take_of_length_le (by
      have size : crlf.length = 2 := rfl
      omega)
    rw [List.drop_drop, Nat.add_sub_cancel' bounds.1, List.drop_take, drop_of_occursAt here,
      List.take_append, List.drop_take]
    exact congrArg (· ++ _) whole
  have parts : (data.take blockEnd).drop cursor =
      (data.take lineEnd).drop cursor ++ (crlf ++ (data.take blockEnd).drop (lineEnd + 2)) := by
    rw [← rest, ← line, List.take_append_drop]
  rw [parts, splitCrlf_line (uncut_of_findCrlf found)]

/-- Without a further CRLF the block has no more lines. -/
theorem splitCrlf_end {blockEnd cursor : Nat} (missed : findCrlf data blockEnd cursor = none) :
    splitCrlf ((data.take blockEnd).drop cursor) = ([], (data.take blockEnd).drop cursor) :=
  splitCrlf_uncut (uncut_of_missing fun _ after below => not_occursAt_of_eq_none missed after below)

/-- The header loop reads the lines of the block. -/
theorem foldlM_read (limits : Limits) {blockEnd : Nat} (inside : blockEnd ≤ data.length) (state : HeaderPositions)
    (cursor : Nat) :
    ((splitCrlf ((data.take blockEnd).drop cursor)).1.foldlM (parseHeaderLine limits)
        (state.read data) >>= fun after =>
      if (splitCrlf ((data.take blockEnd).drop cursor)).2 ≠ [] then
        .error (malformed "malformed headers")
      else .ok after) =
      (sliceHeaderLines limits data blockEnd state cursor).map (·.read data) := by
  fun_induction sliceHeaderLines limits data blockEnd state cursor with
  | case1 state cursor begins missed =>
    have filled : (data.take blockEnd).drop cursor ≠ [] := by
      rw [List.ne_nil_iff_length_pos, List.length_drop, List.length_take_of_le inside]
      omega
    rw [splitCrlf_end missed]
    exact if_pos filled
  | case2 state cursor begins lineEnd found _ error refused =>
    have bounds := (firstOccurrence_eq_some.mp found).1
    have ends := (firstOccurrence_eq_some.mp found).2.1
    have read := parseHeaderLine_read limits state bounds.1 ends
    rw [splitCrlf_at found, List.foldlM_cons, read, refused]
    rfl
  | case3 state cursor begins lineEnd found _ next taken ih =>
    have bounds := (firstOccurrence_eq_some.mp found).1
    have ends := (firstOccurrence_eq_some.mp found).2.1
    have read := parseHeaderLine_read limits state bounds.1 ends
    rw [splitCrlf_at found, List.foldlM_cons, read, taken]
    exact ih
  | case4 state cursor ended =>
    have empty : (data.take blockEnd).drop cursor = [] :=
      List.drop_eq_nil_of_le ((List.length_take_le _ _).trans (Nat.le_of_not_lt ended))
    rw [empty]
    rfl

/-- The checks behind the loop read no positions. -/
theorem checkFraming_read (state : HeaderPositions) :
    (checkFraming state).map (·.read data) =
      if (state.contentLength.isSome && state.haveTransferEncoding) = true then
        .error ⟨.contentLengthInvalid,
          "Content-Length and Transfer-Encoding must not both be present"⟩
      else if state.haveTransferEncoding = true then
        if (!state.transferEncodingChunked) = true then
          .error (malformed "unsupported Transfer-Encoding")
        else .error ⟨.chunkedUnsupported, "chunked request bodies are not supported"⟩
      else .ok (state.read data) := by
  unfold checkFraming
  dsimp only [bind, Except.bind, pure, Except.pure]
  split
  · rfl
  split
  · split
    · rfl
    · rfl
  · rfl

/-- The header block is read from its positions. -/
theorem parseHeaders_read (limits : Limits) {blockEnd : Nat} (inside : blockEnd ≤ data.length)
    (headerStart : Nat) :
    parseHeaders limits ((data.take blockEnd).drop headerStart) =
      (sliceHeaderLines limits data blockEnd {} headerStart >>= checkFraming).map (·.read data) := by
  have loop := foldlM_read limits inside {} headerStart
  have start : HeaderPositions.read {} data = {} := rfl
  rw [start] at loop
  unfold parseHeaders
  dsimp only [bind, Except.bind, pure, Except.pure] at loop ⊢
  cases folded : (splitCrlf ((data.take blockEnd).drop headerStart)).1.foldlM (parseHeaderLine limits)
      {} with
  | error error =>
    rw [folded] at loop
    cases done : sliceHeaderLines limits data blockEnd {} headerStart with
    | error other =>
      rw [done] at loop
      exact congrArg Except.error (Except.error.inj loop)
    | ok state =>
      rw [done] at loop
      contradiction
  | ok after =>
    rw [folded] at loop
    dsimp only at loop ⊢
    by_cases trailing : (splitCrlf ((data.take blockEnd).drop headerStart)).2 ≠ []
    · rw [if_pos trailing] at loop
      rw [if_pos trailing]
      cases done : sliceHeaderLines limits data blockEnd {} headerStart with
      | error other =>
        rw [done] at loop
        exact congrArg Except.error (Except.error.inj loop)
      | ok state =>
        rw [done] at loop
        contradiction
    · rw [if_neg trailing] at loop
      rw [if_neg trailing]
      cases done : sliceHeaderLines limits data blockEnd {} headerStart with
      | error other =>
        rw [done] at loop
        contradiction
      | ok state =>
        rw [done] at loop
        have same : after = state.read data := Except.ok.inj loop
        dsimp only
        rw [checkFraming_read, same]
        rfl

end Headers

/-- The body stage is read from its positions. -/
theorem parseBody_read (limits : Limits) (data : Bytes) (afterHeaders : Nat) (line : LineSlices)
    (state : HeaderPositions) :
    parseBody limits data afterHeaders (assemble (line.read data) (state.read data))
      state.contentLength = (sliceBody limits data afterHeaders line state).read data := by
  unfold parseBody sliceBody
  dsimp only
  split
  · rfl
  split
  · rfl
  split
  · rfl
  · rfl

/-- What the parser copies is what stands at the positions it finds. -/
theorem parse_eq_read (limits : Limits) (data : Bytes) :
    parse limits data = (parseSlices limits data).read data := by
  unfold parse parseSlices
  dsimp only
  cases first : findCrlf data (min data.length (asSize limits.maxRequestLineBytes)) 0 with
  | none =>
    dsimp only
    split
    · rfl
    · rfl
  | some lineEnd =>
    have bounds := (firstOccurrence_eq_some.mp first).1
    dsimp only
    rw [parseRequestLine_read (by omega)]
    cases sliceRequestLine data lineEnd with
    | error error => rfl
    | ok line =>
      show parseRest limits data lineEnd (line.read data) = (sliceRest limits data lineEnd line).read data
      unfold parseRest sliceRest
      dsimp only
      cases blank : firstOccurrence [13, 10, 13, 10] data lineEnd
          (min data.length ((lineEnd + 2 + asSize limits.maxHeaderBytes + 2) % 2 ^ 64)) with
      | none =>
        dsimp only
        split
        · rfl
        · rfl
      | some terminator =>
        have below := (firstOccurrence_eq_some.mp blank).1
        have four : ([13, 10, 13, 10] : Bytes).length = 4 := rfl
        have block : (data.drop (lineEnd + 2)).take (terminator + 2 - (lineEnd + 2)) =
            (data.take (terminator + 2)).drop (lineEnd + 2) := (List.drop_take ..).symm
        dsimp only
        rw [block, parseHeaders_read limits (by omega)]
        cases sliceHeaderLines limits data (terminator + 2) {} (lineEnd + 2) >>= checkFraming with
        | error error => rfl
        | ok state => exact parseBody_read limits data (terminator + 4) line state

end PlatformService.Verif.Slices
