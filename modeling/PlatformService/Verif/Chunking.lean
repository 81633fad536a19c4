import PlatformService.Http.Conn

/-!
# A connection does not depend on how its stream is cut

The parser starts over on every read. Once it has accepted or refused a buffer, it
says the same of every longer buffer: `parse_append`. So the loop answers the same
requests, and meets the same error, however the peer's stream is cut into reads.
-/

namespace PlatformService.Verif.Chunking

open Lib Http

section Parser

variable {limits : Limits}

/-- The verdict of a parse, once there is one. -/
def Settled : ParseResult → Prop
  | .incomplete => False
  | _ => True

/-- A part of the data found before its end is the same in more data. -/
theorem slice_append {data : Bytes} {start length : Nat} (inside : start + length ≤ data.length)
    (more : Bytes) : ((data ++ more).drop start).take length = (data.drop start).take length := by
  have begins : start ≤ data.length := by omega
  have covered : length ≤ (data.drop start).length := by
    rw [List.length_drop]
    omega
  rw [List.drop_append_of_le_length begins, List.take_append_of_le_length covered]

/-- A settled body stage does not change with more data. -/
theorem parseBody_append {data : Bytes} {afterHeaders : Nat} {request : Request}
    {contentLength : Option Nat} (inside : afterHeaders ≤ data.length)
    (settled : Settled (Http.parseBody limits data afterHeaders request contentLength))
    (more : Bytes) :
    Http.parseBody limits (data ++ more) afterHeaders request contentLength =
      Http.parseBody limits data afterHeaders request contentLength := by
  unfold Http.parseBody at settled ⊢
  dsimp only at settled ⊢
  by_cases empty : contentLength.getD 0 = 0
  · rw [if_pos empty, if_pos empty]
  rw [if_neg empty] at settled
  rw [if_neg empty, if_neg empty]
  by_cases large : limits.maxBodyBytes < contentLength.getD 0
  · rw [if_pos large, if_pos large]
  rw [if_neg large] at settled
  rw [if_neg large, if_neg large]
  by_cases short : data.length - afterHeaders < contentLength.getD 0
  · rw [if_pos short] at settled
    exact settled.elim
  · have enough : ¬(data ++ more).length - afterHeaders < contentLength.getD 0 := by
      rw [List.length_append]
      omega
    rw [if_neg short, if_neg enough, slice_append (by omega)]

/-- A search below a limit that data or a cap sets finds the same in more data, or the cap is the
limit and nothing is found. -/
theorem search_append {pattern data : Bytes} {start cap : Nat} (more : Bytes)
    (decided : (∃ i, firstOccurrence pattern data start (min data.length cap) = some i) ∨
      cap ≤ data.length) :
    firstOccurrence pattern (data ++ more) start (min (data ++ more).length cap) =
      firstOccurrence pattern data start (min data.length cap) := by
  have longer : data.length ≤ (data ++ more).length := by
    rw [List.length_append]
    omega
  cases decided with
  | inl found =>
    obtain ⟨i, found⟩ := found
    have inside : min data.length cap ≤ data.length := by omega
    rw [found]
    rw [← firstOccurrence_append inside more] at found
    exact firstOccurrence_of_found found (by omega)
  | inr capped =>
    have short : min data.length cap = cap := by omega
    have long : min (data ++ more).length cap = cap := by omega
    rw [short, long]
    exact firstOccurrence_append capped more

/-- The stage behind the request line does not change with more data, once it is settled. -/
theorem parseRest_append {data : Bytes} {lineEnd : Nat} {line : RequestLine}
    (settled : Settled (parseRest limits data lineEnd line)) (more : Bytes) :
    parseRest limits (data ++ more) lineEnd line = parseRest limits data lineEnd line := by
  have longer : data.length ≤ (data ++ more).length := by
    rw [List.length_append]
    omega
  unfold parseRest at settled ⊢
  dsimp only at settled ⊢
  cases found : firstOccurrence [13, 10, 13, 10] data lineEnd
      (min data.length ((lineEnd + 2 + asSize limits.maxHeaderBytes + 2) % 2 ^ 64)) with
  | none =>
    rw [found] at settled
    by_cases capped : (lineEnd + 2 + asSize limits.maxHeaderBytes + 2) % 2 ^ 64 ≤ data.length
    · rw [search_append more (Or.inr capped), found]
      dsimp only
      rw [if_pos capped, if_pos (capped.trans longer)]
    · dsimp only at settled
      rw [if_neg capped] at settled
      exact settled.elim
  | some terminator =>
    rw [found] at settled
    rw [search_append more (Or.inl ⟨terminator, found⟩), found]
    obtain ⟨after, below⟩ := (firstOccurrence_eq_some.mp found).1
    have inside : terminator + 4 ≤ data.length := by
      have size : ([13, 10, 13, 10] : Bytes).length = 4 := rfl
      omega
    dsimp only at settled ⊢
    rw [slice_append (by omega)]
    cases read : parseHeaders limits
        ((data.drop (lineEnd + 2)).take (terminator + 2 - (lineEnd + 2))) with
    | error error => rfl
    | ok state =>
      rw [read] at settled
      exact parseBody_append inside settled more

/-- A body ends inside the data. -/
theorem parseBody_consumed {data : Bytes} {afterHeaders : Nat} {request accepted : Request}
    {contentLength : Option Nat} {consumed : Nat} (inside : afterHeaders ≤ data.length)
    (done : Http.parseBody limits data afterHeaders request contentLength = .ok accepted consumed) :
    consumed ≤ data.length := by
  unfold Http.parseBody at done
  dsimp only at done
  split at done
  · injection done with _ here
    omega
  · split at done
    · contradiction
    · split at done
      · contradiction
      · injection done with _ here
        omega

/-- An accepted request ends inside the data. -/
theorem parse_consumed {data : Bytes} {request : Request} {consumed : Nat}
    (done : parse limits data = .ok request consumed) : consumed ≤ data.length := by
  unfold parse at done
  dsimp only at done
  split at done
  · split at done
    · contradiction
    · contradiction
  · split at done
    · contradiction
    · unfold parseRest at done
      dsimp only at done
      split at done
      · split at done
        · contradiction
        · contradiction
      · rename_i terminator found
        have below := (firstOccurrence_eq_some.mp found).1.2
        have size : ([13, 10, 13, 10] : Bytes).length = 4 := rfl
        split at done
        · contradiction
        · exact parseBody_consumed (by omega) done

/-- What the parser says of a buffer once it has accepted or refused it, it says of every longer
buffer. -/
theorem parse_append {data : Bytes} (settled : Settled (parse limits data)) (more : Bytes) :
    parse limits (data ++ more) = parse limits data := by
  have longer : data.length ≤ (data ++ more).length := by
    rw [List.length_append]
    omega
  unfold parse findCrlf at settled ⊢
  dsimp only at settled ⊢
  cases found : firstOccurrence [13, 10] data 0
      (min data.length (asSize limits.maxRequestLineBytes)) with
  | none =>
    rw [found] at settled
    by_cases capped : asSize limits.maxRequestLineBytes ≤ data.length
    · rw [search_append more (Or.inr capped), found]
      dsimp only
      rw [if_pos capped, if_pos (capped.trans longer)]
    · dsimp only at settled
      rw [if_neg capped] at settled
      exact settled.elim
  | some lineEnd =>
    rw [found] at settled
    rw [search_append more (Or.inl ⟨lineEnd, found⟩), found]
    have inside : lineEnd ≤ data.length := by
      have bounds := (firstOccurrence_eq_some.mp found).1.2
      omega
    dsimp only at settled ⊢
    rw [List.take_append_of_le_length inside]
    cases read : parseRequestLine (data.take lineEnd) with
    | error error => rfl
    | ok line =>
      rw [read] at settled
      exact parseRest_append settled more

end Parser

section Loop

variable {server : Server} {ending : StreamEnd}

/-- What the loop does with a buffer that starts with a whole request. -/
theorem serve_of_ok {remaining : Nat} {buffer : Bytes} {request : Request} {consumed : Nat}
    (read : parse server.limits.httpLimits buffer = .ok request consumed) :
    serve server (remaining + 1) buffer =
      if connectionShouldStayAlive request (server.limits.keepaliveMaxRequests - remaining)
          server.limits.keepaliveMaxRequests then
        (.answered request (server.answer request) ::
            (serve server remaining (buffer.drop consumed)).1,
          (serve server remaining (buffer.drop consumed)).2)
      else
        ([.answered request (server.answer request)],
          .closed (if server.limits.keepaliveMaxRequests ≤
            server.limits.keepaliveMaxRequests - remaining then .maxRequests
            else .connectionHeader)) := by
  rw [serve, read]

/-- What the loop does between two reads, if it is given more data: the same if it has ended, else
the same and then what it does with what it holds and the new data. -/
theorem serve_append (remaining : Nat) (buffer more : Bytes) :
    serve server remaining (buffer ++ more) =
      match (serve server remaining buffer).2 with
      | .closed reason => ((serve server remaining buffer).1, .closed reason)
      | .waiting left held =>
        ((serve server remaining buffer).1 ++ (serve server left (held ++ more)).1,
          (serve server left (held ++ more)).2) := by
  induction remaining generalizing buffer with
  | zero => rfl
  | succ remaining ih =>
    rw [serve]
    cases read : parse server.limits.httpLimits buffer with
    | incomplete => simp [serve, read]
    | error error =>
      have again : parse server.limits.httpLimits (buffer ++ more) = .error error := by
        rw [← read]
        exact parse_append (by rw [read]; trivial) more
      simp [serve, read, again]
    | ok request consumed =>
      have again : parse server.limits.httpLimits (buffer ++ more) = .ok request consumed := by
        rw [← read]
        exact parse_append (by rw [read]; trivial) more
      have slid : (buffer ++ more).drop consumed = buffer.drop consumed ++ more :=
        List.drop_append_of_le_length (parse_consumed read)
      rw [again]
      dsimp only
      rw [serve_of_ok read, slid]
      split
      · rw [ih]
        cases (serve server remaining (buffer.drop consumed)).2 with
        | closed reason => rfl
        | waiting left held => rfl
      · rfl

/-- The loop does with a stream in chunks what it does with the whole of it. -/
theorem handleFrom_eq (remaining : Nat) (buffer : Bytes) (chunks : List Bytes) :
    handleFrom server ending remaining buffer chunks =
      handleFrom server ending remaining (buffer ++ chunks.flatten) [] := by
  induction chunks generalizing remaining buffer with
  | nil => rw [List.flatten_nil, List.append_nil]
  | cons chunk chunks ih =>
    have whole := @serve_append server remaining buffer (chunk ++ chunks.flatten)
    cases standing : (serve server remaining buffer).2 with
    | closed reason =>
      rw [standing] at whole
      simp only [List.flatten_cons, handleFrom, whole, standing]
    | waiting left held =>
      rw [standing] at whole
      simp only [List.flatten_cons, handleFrom, whole, standing, ih, List.append_assoc]
      cases (serve server left (held ++ (chunk ++ chunks.flatten))).2 with
      | closed reason => rfl
      | waiting left held => rfl

/-- A request that the loop answers. -/
def isAnswered : Event → Bool
  | .answered _ _ => true
  | .refused _ _ _ => false

/-- The loop answers at most the requests that remain. -/
theorem answered_serve (remaining : Nat) (buffer : Bytes) :
    (serve server remaining buffer).1.countP isAnswered ≤ remaining := by
  induction remaining generalizing buffer with
  | zero => exact Nat.le_refl 0
  | succ remaining ih =>
    cases read : parse server.limits.httpLimits buffer with
    | incomplete => simp [serve, read]
    | error error => simp [serve, read, refusal, isAnswered]
    | ok request consumed =>
      rw [serve_of_ok read]
      split
      · rw [List.countP_cons_of_pos rfl]
        exact Nat.succ_le_succ (ih _)
      · simp [isAnswered]

/-- Nothing follows the refusal of a request. -/
theorem refused_last {remaining : Nat} {buffer : Bytes} {before after : List Event}
    {error : ParseError} {status : Int} {code : String}
    (split : (serve server remaining buffer).1 = before ++ .refused error status code :: after) :
    after = [] := by
  induction remaining generalizing buffer before with
  | zero => simp [serve] at split
  | succ remaining ih =>
    cases read : parse server.limits.httpLimits buffer with
    | incomplete => simp [serve, read] at split
    | error error =>
      simp only [serve, read] at split
      cases before with
      | nil =>
        injection split with _ rest
        exact rest.symm
      | cons event before => simp at split
    | ok request consumed =>
      rw [serve_of_ok read] at split
      by_cases alive : connectionShouldStayAlive request
          (server.limits.keepaliveMaxRequests - remaining) server.limits.keepaliveMaxRequests
      · rw [if_pos alive] at split
        cases before with
        | nil => simp at split
        | cons event before =>
          injection split with _ rest
          exact ih rest
      · rw [if_neg alive] at split
        cases before with
        | nil => simp at split
        | cons event before => simp at split

/-- What a connection does is what the loop does with the whole stream. -/
theorem events_connHandle (chunks : List Bytes) :
    (connHandle server ending chunks).events =
      (serve server server.limits.keepaliveMaxRequests.toNat chunks.flatten).1 := by
  rw [connHandle, handleFrom_eq, List.nil_append, handleFrom]
  cases (serve server server.limits.keepaliveMaxRequests.toNat chunks.flatten).2 with
  | closed reason => rfl
  | waiting left held => rfl

end Loop

/-- However a stream is cut into reads, a connection answers the same requests in the same way and
ends the same way; nothing follows a parse error, at most the configured number of requests is
answered, and a settled parse does not change with more data. -/
theorem connection_independent_of_chunking (server : Server) (ending : StreamEnd) :
    (∀ chunks others : List Bytes, chunks.flatten = others.flatten →
      connHandle server ending chunks = connHandle server ending others) ∧
    (∀ chunks before error status code after,
      (connHandle server ending chunks).events = before ++ .refused error status code :: after →
      after = []) ∧
    (∀ chunks, (connHandle server ending chunks).events.countP isAnswered ≤
      server.limits.keepaliveMaxRequests.toNat) ∧
    ∀ limits data more, parse limits data ≠ .incomplete →
      parse limits (data ++ more) = parse limits data := by
  refine ⟨?_, ?_, ?_, ?_⟩
  · intro chunks others same
    rw [connHandle, connHandle, handleFrom_eq, same, ← handleFrom_eq]
  · intro chunks before error status code after split
    rw [events_connHandle] at split
    exact refused_last split
  · intro chunks
    rw [events_connHandle]
    exact answered_serve _ _
  · intro limits data more settled
    apply parse_append
    cases read : parse limits data with
    | incomplete => exact absurd read settled
    | ok request consumed => trivial
    | error error => trivial

/-- A connection that reads a whole request and the start of a second one. -/
def splitReads : List Bytes :=
  [ascii "GET /healthz HTTP/1.1\r\nHos", ascii "t: a\r\n\r\nGET "]

/-- The limits and the one route of the connection of the witness. -/
def smallServer : Server where
  limits := ⟨2, ⟨64, 64, 4, 64⟩⟩
  routes := [⟨ascii "GET", ascii "/healthz", 7⟩]
  corsEnabled := false

/-- A request cut in two reads is answered as the same request in one, and its parse is settled. -/
theorem connection_split_reads :
    (connHandle smallServer .closeNotify splitReads).events.countP isAnswered = 1 ∧
    connHandle smallServer .closeNotify splitReads =
      connHandle smallServer .closeNotify [splitReads.flatten] ∧
    parse smallServer.limits.httpLimits (splitReads.flatten ++ ascii "/x") =
      parse smallServer.limits.httpLimits splitReads.flatten := by
  have result := connection_independent_of_chunking smallServer .closeNotify
  refine ⟨by decide +kernel, result.1 _ _ ?_, result.2.2.2 _ _ _ (by decide +kernel)⟩
  rw [List.flatten_cons, List.flatten_nil, List.append_nil]

end PlatformService.Verif.Chunking
