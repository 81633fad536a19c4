import PlatformService.Http.Wire
import PlatformService.Verif.Chunking
import PlatformService.Verif.RequestRoundTrip
import PlatformService.Verif.ResponseRoundTrip

/-!
# Both directions of a connection

Whatever a peer sends, what the connection loop writes is a sequence of whole responses, and the
responses and what the handlers leave do not depend on how the peer's stream is cut into reads. A
response tells whether another may follow. A peer that sends well-formed requests one after the other
reads back the responses of the handlers, run one after the other.
-/

namespace PlatformService.Verif.Wire

open Lib Lib.Stream Http CorsHeaders ResponseRoundTrip RequestRoundTrip Framing

variable {S : Type}

section Responses

/-- The response to a request is one without CORS headers, or what `apply_cors` makes of one. -/
theorem reply_base (service : Service S) (state : S) (request : Request) (keepAlive : Bool) :
    ∃ base : Response, base.corsOrigin = none ∧ PlainTexts base ∧ base.keepAlive = keepAlive ∧
      ((service.reply state request keepAlive).1 = base ∨
        ∃ isPreflight, (service.reply state request keepAlive).1 =
          applyCors service.cors request isPreflight base) := by
  unfold Service.reply
  dsimp only
  cases service.server.answer request with
  | options status =>
    unfold answerResponse
    dsimp only
    split
    · exact ⟨_, rfl, plainTexts_of_none rfl rfl, rfl, Or.inr ⟨true, rfl⟩⟩
    · exact ⟨_, rfl, plainTexts_of_none rfl rfl, rfl, Or.inl rfl⟩
  | notFound => exact ⟨_, rfl, plainTexts_of_none rfl rfl, rfl, Or.inl rfl⟩
  | methodNotAllowed => exact ⟨_, rfl, plainTexts_of_none rfl rfl, rfl, Or.inl rfl⟩
  | dispatched routeId params =>
    exact ⟨_, rfl, plainTexts_of_none rfl rfl, rfl, Or.inr ⟨false, rfl⟩⟩

/-- An origin that is copied to its buffer is a part of itself. -/
theorem copied_part (origin : Bytes) (size : Nat) : cString (origin.take size ++ [0]) <:+: origin := by
  unfold cString
  rw [List.takeWhile_append]
  split
  · have stop : [(0 : UInt8)].takeWhile (fun c => decide (c ≠ 0)) = [] := rfl
    rw [stop, List.append_nil]
    exact (List.take_prefix _ _).isInfix
  · exact ((List.takeWhile_prefix _).trans (List.take_prefix _ _)).isInfix

/-- The response to a request echoes nothing but a part of a header value of the request. -/
theorem reply_whole (service : Service S) (state : S) {request : Request} (keepAlive : Bool)
    (uncut : ∀ header ∈ request.headers, Uncut header.value) :
    PlainTexts (service.reply state request keepAlive).1 ∧
      ∀ origin ∈ (service.reply state request keepAlive).1.corsOrigin, Uncut (cString origin) := by
  obtain ⟨base, unset, texts, -, same | ⟨isPreflight, same⟩⟩ :=
    reply_base service state request keepAlive
  · rw [same, unset]
    exact ⟨texts, fun _ member => by simp at member⟩
  obtain ⟨-, unchanged⟩ | ⟨origin, allowed, copied, plain⟩ :=
    applyCors_cases service.cors request isPreflight base
  · rw [same, unchanged, unset]
    exact ⟨texts, fun _ member => by simp at member⟩
  · rw [same, copied]
    refine ⟨plain texts, fun other member => ?_⟩
    obtain ⟨value, -⟩ := Option.filter_eq_some_iff.mp allowed
    obtain ⟨header, found, rfl⟩ := Option.map_eq_some_iff.mp value
    have stored : header ∈ request.headers := List.mem_of_find?_eq_some found
    rw [← Option.mem_some_iff.mp member]
    exact (uncut header stored).part (copied_part _ _)

/-- The response to a request says whether the loop goes on. -/
theorem keepAlive_reply (service : Service S) (state : S) (request : Request) (keepAlive : Bool) :
    (service.reply state request keepAlive).1.keepAlive = keepAlive := by
  obtain ⟨base, -, -, marked, same | ⟨isPreflight, same⟩⟩ :=
    reply_base service state request keepAlive
  · rw [same, marked]
  · rw [same, ← marked]
    unfold applyCors
    split
    · rfl
    · split
      · rfl
      · split
        · rfl
        · split <;> rfl

/-- The response to a parsed request is delimited by itself. -/
theorem takes_reply {service : Service S} {state : S} {data written : Bytes} {request : Request}
    {consumed : Nat} {keepAlive : Bool}
    (parsed : parse service.limits.httpLimits data = .ok request consumed)
    (done : httpResponseWrite (service.reply state request keepAlive).1 = some written) :
    Takes receive written (received (service.reply state request keepAlive).1) := by
  obtain ⟨texts, uncut⟩ := reply_whole service state keepAlive (uncut_of_parse parsed)
  exact takes_write texts uncut done

/-- The response to a parse error is delimited by itself. -/
theorem takes_refusal {error : ParseError} {written : Bytes}
    (done : httpResponseWrite (refusalResponse error) = some written) :
    Takes receive written (received (refusalResponse error)) := by
  have texts : PlainTexts (refusalResponse error) := plainTexts_of_none rfl rfl
  have unset : (refusalResponse error).corsOrigin = none := rfl
  apply takes_write texts _ done
  rw [unset]
  simp

/-- A response says that the connection stays open. -/
def persists (value : Received) : Bool := fieldValues "Connection: " value.fields = [ascii "keep-alive"]

/-- A response says what the loop decided. -/
theorem persists_received (response : Response) : persists (received response) = response.keepAlive := by
  unfold persists received
  dsimp only
  rw [fieldValues_connection]
  cases response.keepAlive <;> decide

end Responses

section Loop

variable {service : Service S} {ending : StreamEnd}

/-- A request of a buffer is the last one of a connection, or others may follow it. -/
def aliveAfter (service : Service S) (remaining : Nat) (request : Request) : Bool :=
  connectionShouldStayAlive request (service.limits.keepaliveMaxRequests - remaining)
    service.limits.keepaliveMaxRequests

/-- A response that cannot be written ends the loop. -/
theorem serveWire_of_unwritten {remaining : Nat} {buffer : Bytes} {request : Request} {consumed : Nat}
    {state : S} (read : parse service.limits.httpLimits buffer = .ok request consumed)
    (done : httpResponseWrite
      (service.reply state request (aliveAfter service remaining request)).1 = none) :
    serveWire service (remaining + 1) buffer state =
      ⟨[], (service.reply state request (aliveAfter service remaining request)).2, .closed .error⟩ := by
  unfold aliveAfter at done ⊢
  simp only [serveWire, read, done]

/-- A request after which the connection stays open is answered, and then what follows it. -/
theorem serveWire_of_alive {remaining : Nat} {buffer written : Bytes} {request : Request}
    {consumed : Nat} {state : S} (read : parse service.limits.httpLimits buffer = .ok request consumed)
    (alive : aliveAfter service remaining request = true)
    (done : httpResponseWrite (service.reply state request true).1 = some written) :
    serveWire service (remaining + 1) buffer state =
      let rest := serveWire service remaining (buffer.drop consumed) (service.reply state request true).2
      ⟨written :: rest.responses, rest.state, rest.standing⟩ := by
  unfold aliveAfter at alive
  simp only [serveWire, read, alive, done, if_true]

/-- The last request of a connection is answered, and no other. -/
theorem serveWire_of_last {remaining : Nat} {buffer written : Bytes} {request : Request}
    {consumed : Nat} {state : S} (read : parse service.limits.httpLimits buffer = .ok request consumed)
    (last : aliveAfter service remaining request = false)
    (done : httpResponseWrite (service.reply state request false).1 = some written) :
    serveWire service (remaining + 1) buffer state =
      ⟨[written], (service.reply state request false).2,
        .closed (if service.limits.keepaliveMaxRequests ≤ service.limits.keepaliveMaxRequests - remaining
          then .maxRequests else .connectionHeader)⟩ := by
  unfold aliveAfter at last
  simp only [serveWire, read, last, done, if_neg Bool.false_ne_true]

/-- The loop goes on only within the cap. -/
theorem pos_of_alive {remaining : Nat} {request : Request}
    (alive : aliveAfter service remaining request = true) : 0 < remaining := by
  unfold aliveAfter connectionShouldStayAlive at alive
  split at alive
  · contradiction
  · omega

/-- What the loop does between two reads, if it is given more data: the same if it has ended, else
the same and then what it does with what it holds and the new data. -/
theorem serveWire_append (service : Service S) (remaining : Nat) (buffer more : Bytes) (state : S) :
    serveWire service remaining (buffer ++ more) state =
      let served := serveWire service remaining buffer state
      match served.standing with
      | .closed _ => served
      | .waiting left held =>
        let rest := serveWire service left (held ++ more) served.state
        ⟨served.responses ++ rest.responses, rest.state, rest.standing⟩ := by
  induction remaining generalizing buffer state with
  | zero => rfl
  | succ remaining ih =>
    cases read : parse service.limits.httpLimits buffer with
    | incomplete => simp [serveWire, read]
    | error error =>
      have again : parse service.limits.httpLimits (buffer ++ more) = .error error := by
        rw [← read]
        exact Chunking.parse_append (by rw [read]; trivial) more
      simp [serveWire, read, again]
    | ok request consumed =>
      have again : parse service.limits.httpLimits (buffer ++ more) = .ok request consumed := by
        rw [← read]
        exact Chunking.parse_append (by rw [read]; trivial) more
      have slid : (buffer ++ more).drop consumed = buffer.drop consumed ++ more :=
        List.drop_append_of_le_length (Chunking.parse_consumed read)
      cases done : httpResponseWrite
          (service.reply state request (aliveAfter service remaining request)).1 with
      | none => rw [serveWire_of_unwritten again done, serveWire_of_unwritten read done]
      | some written =>
        cases alive : aliveAfter service remaining request with
        | false =>
          rw [alive] at done
          rw [serveWire_of_last again alive done, serveWire_of_last read alive done]
        | true =>
          rw [alive] at done
          rw [serveWire_of_alive again alive done, serveWire_of_alive read alive done, slid, ih]
          dsimp only
          cases standing : (serveWire service remaining (buffer.drop consumed)
              (service.reply state request true).2).standing with
          | closed reason => simp only [standing]
          | waiting left held => simp only [List.cons_append]

/-- The loop does with a stream in chunks what it does with the whole of it. -/
theorem exchangeFrom_eq (remaining : Nat) (buffer : Bytes) (state : S) (chunks : List Bytes) :
    exchangeFrom service ending remaining buffer state chunks =
      exchangeFrom service ending remaining (buffer ++ chunks.flatten) state [] := by
  induction chunks generalizing remaining buffer state with
  | nil => rw [List.flatten_nil, List.append_nil]
  | cons chunk chunks ih =>
    have whole := serveWire_append service remaining buffer (chunk ++ chunks.flatten) state
    cases standing : (serveWire service remaining buffer state).standing with
    | closed reason =>
      simp only [standing] at whole
      simp only [List.flatten_cons, exchangeFrom, whole, standing]
    | waiting left held =>
      simp only [standing] at whole
      simp only [List.flatten_cons, exchangeFrom, whole, standing, ih, List.append_assoc]
      cases (serveWire service left (held ++ (chunk ++ chunks.flatten))
          (serveWire service remaining buffer state).state).standing with
      | closed reason => rfl
      | waiting left held => rfl

/-- What a connection does is what the loop does with the whole stream. -/
theorem exchange_eq (chunks : List Bytes) (state : S) :
    exchange service ending chunks state =
      exchangeFrom service ending service.limits.keepaliveMaxRequests.toNat chunks.flatten state [] := by
  rw [exchange, exchangeFrom_eq, List.nil_append]

/-- What the responses of a connection tell of its end: each but the last says that the connection
stays open, and so does the last unless the loop has ended. -/
def Told : Standing → List Received → Prop
  | .waiting _ _, values => ∀ value ∈ values, persists value = true
  | .closed reason, values =>
    (∀ value ∈ values.dropLast, persists value = true) ∧
      (reason = .maxRequests ∨ reason = .connectionHeader →
        ∃ value ∈ values.getLast?, persists value = false)

/-- A response that says that the connection stays open goes before others. -/
theorem Told.cons {standing : Standing} {values : List Received} (told : Told standing values)
    {value : Received} (open' : persists value = true) : Told standing (value :: values) := by
  cases standing with
  | waiting left held => exact List.forall_mem_cons.mpr ⟨open', told⟩
  | closed reason =>
    obtain ⟨before, last⟩ := told
    cases values with
    | nil =>
      refine ⟨by simp, fun ends => ?_⟩
      obtain ⟨other, member, -⟩ := last ends
      simp at member
    | cons next values =>
      refine ⟨?_, fun ends => ?_⟩
      · rw [List.dropLast_cons_cons]
        exact List.forall_mem_cons.mpr ⟨open', before⟩
      · rw [List.getLast?_cons_cons]
        exact last ends

/-- The responses of the loop are delimited, and tell of its end. -/
theorem serveWire_told (service : Service S) {remaining : Nat} (positive : 0 < remaining)
    (buffer : Bytes) (state : S) :
    ∃ values,
      List.Forall₂ (Takes receive) (serveWire service remaining buffer state).responses values ∧
        Told (serveWire service remaining buffer state).standing values := by
  induction remaining generalizing buffer state with
  | zero => exact absurd positive (Nat.lt_irrefl 0)
  | succ remaining ih =>
    cases read : parse service.limits.httpLimits buffer with
    | incomplete =>
      simp only [serveWire, read]
      exact ⟨[], .nil, fun _ member => by simp at member⟩
    | error error =>
      simp only [serveWire, read]
      cases done : httpResponseWrite (refusalResponse error) with
      | none => exact ⟨[], .nil, by simp, by simp⟩
      | some written => exact ⟨[_], .cons (takes_refusal done) .nil, by simp, by simp⟩
    | ok request consumed =>
      cases done : httpResponseWrite
          (service.reply state request (aliveAfter service remaining request)).1 with
      | none =>
        rw [serveWire_of_unwritten read done]
        exact ⟨[], .nil, by simp, by simp⟩
      | some written =>
        have takes := takes_reply read done
        have marked : persists (received
            (service.reply state request (aliveAfter service remaining request)).1) =
              aliveAfter service remaining request := by
          rw [persists_received, keepAlive_reply]
        cases alive : aliveAfter service remaining request with
        | true =>
          rw [alive] at done takes marked
          obtain ⟨values, delimited, told⟩ := ih (pos_of_alive alive) (buffer.drop consumed)
            (service.reply state request true).2
          rw [serveWire_of_alive read alive done]
          exact ⟨_ :: values, .cons takes delimited, told.cons marked⟩
        | false =>
          rw [alive] at done takes marked
          rw [serveWire_of_last read alive done]
          exact ⟨[_], .cons takes .nil, by simp, fun _ => ⟨_, rfl, marked⟩⟩

/-- As many responses as requests may be answered. -/
theorem length_serveWire (service : Service S) (remaining : Nat) (buffer : Bytes) (state : S) :
    (serveWire service remaining buffer state).responses.length ≤ remaining := by
  induction remaining generalizing buffer state with
  | zero => exact Nat.le_refl 0
  | succ remaining ih =>
    cases read : parse service.limits.httpLimits buffer with
    | incomplete => simp [serveWire, read]
    | error error =>
      simp only [serveWire, read]
      cases httpResponseWrite (refusalResponse error) with
      | none => exact Nat.zero_le _
      | some written => exact Nat.succ_le_succ (Nat.zero_le _)
    | ok request consumed =>
      cases done : httpResponseWrite
          (service.reply state request (aliveAfter service remaining request)).1 with
      | none =>
        rw [serveWire_of_unwritten read done]
        exact Nat.zero_le _
      | some written =>
        cases alive : aliveAfter service remaining request with
        | true =>
          rw [alive] at done
          rw [serveWire_of_alive read alive done]
          exact Nat.succ_le_succ (ih _ _)
        | false =>
          rw [alive] at done
          rw [serveWire_of_last read alive done]
          exact Nat.succ_le_succ (Nat.zero_le _)

/-- Nothing is a response. -/
theorem receive_nil : receive [] = none := rfl

/-- The reason for which a connection ends, where the loop stands at the end of the stream. -/
def closing (ending : StreamEnd) : Standing → CloseReason
  | .closed reason => reason
  | .waiting _ buffer => endReason ending buffer

/-- The whole of a connection over a stream that comes in one read. -/
theorem exchangeFrom_nil (remaining : Nat) (buffer : Bytes) (state : S) :
    exchangeFrom service ending remaining buffer state [] =
      let served := serveWire service remaining buffer state
      ⟨served.responses, served.state, closing ending served.standing⟩ := by
  unfold exchangeFrom closing
  dsimp only
  cases (serveWire service remaining buffer state).standing with
  | closed reason => rfl
  | waiting left held => rfl

/-- The loop that waits at the end of the stream ends because of the peer or of an error. -/
theorem endReason_cases (ending : StreamEnd) (buffer : Bytes) :
    endReason ending buffer = .byPeer ∨ endReason ending buffer = .error := by
  unfold endReason
  cases ending with
  | closeNotify => exact Or.inl rfl
  | disconnect =>
    dsimp only
    split
    · exact Or.inl rfl
    · exact Or.inr rfl
  | failure => exact Or.inr rfl

/-- What the responses tell where the peer or the server ends the connection. -/
theorem Told.read {standing : Standing} {values : List Received} (told : Told standing values)
    (ending : StreamEnd) :
    (∀ value ∈ values.dropLast, persists value = true) ∧
      (closing ending standing = .maxRequests ∨ closing ending standing = .connectionHeader →
        ∃ value ∈ values.getLast?, persists value = false) ∧
      (standing ≠ .closed .byPeer → closing ending standing = .byPeer →
        ∀ value ∈ values, persists value = true) := by
  cases standing with
  | closed reason =>
    refine ⟨told.1, told.2, fun ended left => ?_⟩
    have same : reason = .byPeer := left
    exact absurd (congrArg Standing.closed same) ended
  | waiting left held =>
    refine ⟨fun value member => told value (List.mem_of_mem_dropLast member), fun ends => ?_,
      fun _ _ => told⟩
    have either := endReason_cases ending held
    unfold closing at ends
    rcases either with peer | failed
    · simp [peer] at ends
    · simp [failed] at ends

/-- The loop does not end by itself for the reason that the peer ended the stream. -/
theorem standing_serveWire (service : Service S) (remaining : Nat) (buffer : Bytes) (state : S) :
    (serveWire service remaining buffer state).standing ≠ .closed .byPeer := by
  induction remaining generalizing buffer state with
  | zero => simp [serveWire]
  | succ remaining ih =>
    cases read : parse service.limits.httpLimits buffer with
    | incomplete => simp [serveWire, read]
    | error error => simp [serveWire, read]
    | ok request consumed =>
      cases done : httpResponseWrite
          (service.reply state request (aliveAfter service remaining request)).1 with
      | none =>
        rw [serveWire_of_unwritten read done]
        simp
      | some written =>
        cases alive : aliveAfter service remaining request with
        | true =>
          rw [alive] at done
          rw [serveWire_of_alive read alive done]
          exact ih _ _
        | false =>
          rw [alive] at done
          rw [serveWire_of_last read alive done]
          dsimp only
          split <;> simp

/-- Whatever a peer sends and however it is cut into reads, the connection answers as to the whole
stream. What it writes is read back as its responses and nothing else, at most as many as the cap: all but
the last say that the connection stays open, the last one says that it does not where the server ends
the connection after a request, and none says so where the peer ended it. -/
theorem connection_speaks_http (service : Service S)
    (positive : 0 < service.limits.keepaliveMaxRequests) (ending : StreamEnd) (chunks : List Bytes)
    (state : S) :
    let spoken := exchange service ending chunks state
    let values := (readAll receive spoken.responses.flatten).1
    spoken = exchange service ending [chunks.flatten] state ∧
      (readAll receive spoken.responses.flatten).2 = [] ∧
      List.Forall₂ (Takes receive) spoken.responses values ∧
      (values.length : Int) ≤ service.limits.keepaliveMaxRequests ∧
      (∀ value ∈ values.dropLast, persists value = true) ∧
      (spoken.reason = .maxRequests ∨ spoken.reason = .connectionHeader →
        ∃ value ∈ values.getLast?, persists value = false) ∧
      (spoken.reason = .byPeer → ∀ value ∈ values, persists value = true) := by
  intro spoken values
  have whole : exchange service ending chunks state = _ := exchange_eq chunks state
  have once : exchange service ending [chunks.flatten] state = _ := exchange_eq [chunks.flatten] state
  rw [exchangeFrom_nil] at whole
  have turns : 0 < service.limits.keepaliveMaxRequests.toNat := by omega
  obtain ⟨found, delimited, told⟩ := serveWire_told service turns chunks.flatten state
  have few := length_serveWire service service.limits.keepaliveMaxRequests.toNat chunks.flatten state
  have unforced := standing_serveWire service service.limits.keepaliveMaxRequests.toNat chunks.flatten state
  have written : spoken.responses = (serveWire service service.limits.keepaliveMaxRequests.toNat
      chunks.flatten state).responses := congrArg Exchange.responses whole
  have reason : spoken.reason = closing ending (serveWire service
      service.limits.keepaliveMaxRequests.toNat chunks.flatten state).standing :=
    congrArg Exchange.reason whole
  have back : readAll receive spoken.responses.flatten = (found, []) := by
    have read := readAll_texts delimited receive_nil receive_nil
    rwa [List.append_nil, ← written] at read
  have same : values = found := congrArg Prod.fst back
  obtain ⟨before, last, all⟩ := told.read ending
  refine ⟨?_, congrArg Prod.snd back, ?_, ?_, ?_, ?_, ?_⟩
  · show exchange service ending chunks state = _
    rw [whole, once, exchangeFrom_nil, List.flatten_singleton]
  · rwa [same, written]
  · have sizes := delimited.length_eq
    rw [same]
    omega
  · rwa [same]
  · rw [same, reason]
    exact last
  · rw [same, reason]
    exact all unforced

/-- A service that counts the requests of its one route. -/
def tally : Service Nat where
  limits := ⟨2, sampleLimits⟩
  routes := [⟨ascii "POST", ascii "/a", 7⟩]
  cors := ⟨[], [], false⟩
  dispatch served _ _ _ := ({ status := 204 }, served + 1)

/-- Three requests cut into three reads by the way, where two are answered. -/
theorem connection_speaks_http_of_tally :
    let reads := [(zeroPadded 1).write.take 5, (zeroPadded 1).write.drop 5 ++ (zeroPadded 1).write,
      (zeroPadded 1).write]
    (readAll receive (exchange tally .closeNotify reads 0).responses.flatten).2 = [] ∧
      (exchange tally .closeNotify reads 0).state = 2 ∧
      ∃ value ∈ (readAll receive (exchange tally .closeNotify reads 0).responses.flatten).1.getLast?,
        persists value = false := by
  intro reads
  have spoken := connection_speaks_http tally (by decide) .closeNotify reads 0
  exact ⟨spoken.2.1, by decide +kernel, spoken.2.2.2.2.2.1 (by decide +kernel)⟩

end Loop

section Conversation

variable {service : Service S} {ending : StreamEnd}

/-- Requests answered one after the other: up to the cap, the first one that ends the connection, and the
first response that cannot be written. -/
def converse (service : Service S) : (remaining : Nat) → List Request → S → List Received × S
  | 0, _, state => ([], state)
  | _ + 1, [], state => ([], state)
  | remaining + 1, request :: requests, state =>
    let alive := aliveAfter service remaining request
    let replied := service.reply state request alive
    match httpResponseWrite replied.1 with
    | none => ([], replied.2)
    | some _ =>
      if alive then
        let rest := converse service remaining requests replied.2
        (received replied.1 :: rest.1, rest.2)
      else ([received replied.1], replied.2)

/-- A message that the service takes: it is well-formed and within the limits, and writes its length in
at most 18 digits. -/
structure Taken (limits : Limits) (message : Message) : Prop where
  formed : message.WellFormed
  within : message.Within limits
  short : ∀ header ∈ named "Content-Length" message.headers, header.value.length ≤ 18

/-- A taken message is parsed into its request, whatever follows. -/
theorem Taken.parse_eq {limits : Limits} {message : Message} (taken : Taken limits message)
    (represented : Represented limits) (trailing : Bytes) :
    parse limits (message.write ++ trailing) = .ok message.request message.write.length := by
  have ⟨line, header⟩ := limits_of_within represented taken.within
  obtain ⟨state, block, listed, length⟩ := parseHeaders_message taken.formed taken.within taken.short
  rw [parse_whole limits taken.formed trailing line header, block]
  exact parseBody_message taken.within trailing listed length

/-- The start of a request is awaited where nothing is held. -/
theorem parse_nil {limits : Limits} (represented : Represented limits)
    (positive : 0 < limits.maxRequestLineBytes) : parse limits [] = .incomplete := by
  have size := asSize_of_nonneg positive.le represented.line.2
  have absent : findCrlf [] (min ([] : Bytes).length (asSize limits.maxRequestLineBytes)) 0 = none := by
    rw [List.length_nil, Nat.zero_min]
    rfl
  unfold parse
  dsimp only
  rw [absent]
  exact if_neg (by rw [List.length_nil]; omega)

/-- What the loop writes for the texts of messages is read back as the answers to their requests. -/
theorem serveWire_messages (represented : Represented service.limits.httpLimits)
    (positive : 0 < service.limits.httpLimits.maxRequestLineBytes) (remaining : Nat)
    {messages : List Message} (taken : ∀ message ∈ messages, Taken service.limits.httpLimits message)
    (state : S) :
    let served := serveWire service remaining (messages.map Message.write).flatten state
    List.Forall₂ (Takes receive) served.responses
        (converse service remaining (messages.map Message.request) state).1 ∧
      served.state = (converse service remaining (messages.map Message.request) state).2 := by
  induction remaining generalizing messages state with
  | zero => exact ⟨.nil, rfl⟩
  | succ remaining ih =>
    cases messages with
    | nil =>
      have awaited : parse service.limits.httpLimits [] = .incomplete := parse_nil represented positive
      simp only [List.map_nil, List.flatten_nil, serveWire, awaited]
      exact ⟨.nil, rfl⟩
    | cons message messages =>
      have read := (taken message List.mem_cons_self).parse_eq represented
        (messages.map Message.write).flatten
      have behind : (message.write ++ (messages.map Message.write).flatten).drop message.write.length =
          (messages.map Message.write).flatten := List.drop_left
      simp only [List.map_cons, List.flatten_cons, converse]
      cases done : httpResponseWrite
          (service.reply state message.request (aliveAfter service remaining message.request)).1 with
      | none =>
        rw [serveWire_of_unwritten read done]
        exact ⟨.nil, rfl⟩
      | some written =>
        have takes := takes_reply read done
        cases alive : aliveAfter service remaining message.request with
        | true =>
          rw [alive] at done takes
          rw [serveWire_of_alive read alive done, behind]
          have rest := ih (fun other member => taken other (List.mem_cons_of_mem _ member))
            (service.reply state message.request true).2
          exact ⟨.cons takes rest.1, rest.2⟩
        | false =>
          rw [alive] at done takes
          rw [serveWire_of_last read alive done]
          exact ⟨.cons takes .nil, rfl⟩

/-- A peer that sends well-formed requests one after the other, however its stream is cut into reads, reads
back the answers of the handlers run one after the other on the state that the one before left, and the
service is left as the last of them leaves it. -/
theorem requests_are_answered_in_order (service : Service S)
    (represented : Represented service.limits.httpLimits)
    (positive : 0 < service.limits.httpLimits.maxRequestLineBytes) (messages : List Message)
    (taken : ∀ message ∈ messages, Taken service.limits.httpLimits message) (ending : StreamEnd)
    (chunks : List Bytes) (stream : chunks.flatten = (messages.map Message.write).flatten) (state : S) :
    let spoken := exchange service ending chunks state
    let answers := converse service service.limits.keepaliveMaxRequests.toNat
      (messages.map Message.request) state
    readAll receive spoken.responses.flatten = (answers.1, []) ∧ spoken.state = answers.2 := by
  intro spoken answers
  have whole : spoken = _ := exchange_eq chunks state
  have served := serveWire_messages represented positive service.limits.keepaliveMaxRequests.toNat
    taken state
  rw [exchangeFrom_nil, stream] at whole
  rw [whole]
  have read := readAll_texts served.1 receive_nil receive_nil
  rw [List.append_nil] at read
  exact ⟨read, served.2⟩

/-- The message of the witnesses is taken. -/
theorem taken_zeroPadded : Taken tally.limits.httpLimits (zeroPadded 1) :=
  ⟨wellFormed_zeroPadded (Or.inl rfl), ⟨by decide, by decide, by decide, by decide⟩, by decide⟩

/-- Two requests in three reads are answered in order. -/
theorem requests_are_answered_in_order_of_tally :
    let reads := [(zeroPadded 1).write.take 5, (zeroPadded 1).write.drop 5, (zeroPadded 1).write]
    let spoken := exchange tally .closeNotify reads 0
    let answers := converse tally 2 [(zeroPadded 1).request, (zeroPadded 1).request] 0
    readAll receive spoken.responses.flatten = (answers.1, []) ∧ spoken.state = answers.2 := by
  intro reads
  have represented : Represented tally.limits.httpLimits :=
    ⟨by decide, by decide, by decide, by decide⟩
  have taken : ∀ message ∈ [zeroPadded 1, zeroPadded 1], Taken tally.limits.httpLimits message := by
    intro message member
    rw [List.eq_of_mem_replicate (n := 2) member]
    exact taken_zeroPadded
  have stream : reads.flatten = ([zeroPadded 1, zeroPadded 1].map Message.write).flatten := by
    simp only [reads, List.flatten_cons, List.map_cons, List.map_nil, List.flatten_nil,
      List.append_nil, ← List.append_assoc, List.take_append_drop]
  exact requests_are_answered_in_order tally represented (by decide) [zeroPadded 1, zeroPadded 1]
    taken .closeNotify reads stream 0

end Conversation

end PlatformService.Verif.Wire
