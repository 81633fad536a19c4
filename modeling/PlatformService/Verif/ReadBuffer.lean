import PlatformService.Http.Conn

/-!
# How much a connection buffers

The loop reads only when the parser reports an incomplete request. Each of the three
places that report it has compared the length with a limit of its own, so what the
loop holds stays below the sum of the limits and one read, whatever the peer sends
and however it pipelines.
-/

namespace PlatformService.Verif.ReadBuffer

open Lib Http

/-- Limits that `ps_config_validate` lets through: positive values of type `int`. -/
structure Positive (limits : Limits) : Prop where
  line : 0 < limits.maxRequestLineBytes ∧ limits.maxRequestLineBytes < 2 ^ 31
  header : 0 < limits.maxHeaderBytes ∧ limits.maxHeaderBytes < 2 ^ 31
  body : 0 < limits.maxBodyBytes ∧ limits.maxBodyBytes < 2 ^ 31

/-- The length that an incomplete request does not reach. -/
def bound (limits : Limits) : Int :=
  limits.maxRequestLineBytes + limits.maxHeaderBytes + limits.maxBodyBytes + 2

/-- The most that one `SSL_read` returns. -/
def readSize : Nat := 4096

/-- What the loop holds whenever it is about to parse, up to its next read. -/
def heldServing (server : Server) : (remaining : Nat) → (buffer : Bytes) → List Bytes
  | 0, buffer => [buffer]
  | remaining + 1, buffer =>
    match parse server.limits.httpLimits buffer with
    | .ok request consumed =>
      let maxRequests := server.limits.keepaliveMaxRequests
      if connectionShouldStayAlive request (maxRequests - remaining) maxRequests then
        buffer :: heldServing server remaining (buffer.drop consumed)
      else [buffer]
    | _ => [buffer]

/-- What the loop holds over the reads to come. -/
def heldFrom (server : Server) (remaining : Nat) (buffer : Bytes) (chunks : List Bytes) : List Bytes :=
  heldServing server remaining buffer ++
    match chunks with
    | [] => []
    | chunk :: chunks =>
      match (serve server remaining buffer).2 with
      | .closed _ => []
      | .waiting remaining buffer => heldFrom server remaining (buffer ++ chunk) chunks

/-- Everything that `readbuf` holds in the life of a connection. -/
def held (server : Server) (chunks : List Bytes) : List Bytes :=
  heldFrom server server.limits.keepaliveMaxRequests.toNat [] chunks

section Parser

variable {limits : Limits} {data : Bytes}

/-- A positive `int` is converted to itself. -/
theorem asSize_eq {value : Int} (range : 0 < value ∧ value < 2 ^ 31) : (asSize value : Int) = value := by
  unfold asSize
  have small : value % 2 ^ 64 = value := by omega
  rw [small]
  omega

/-- The body stage waits for no more than the largest body. -/
theorem incomplete_body {afterHeaders : Nat} {request : Request} {contentLength : Option Nat}
    (waits : Http.parseBody limits data afterHeaders request contentLength = .incomplete) :
    (data.length : Int) < afterHeaders + limits.maxBodyBytes := by
  unfold Http.parseBody at waits
  dsimp only at waits
  split at waits
  · contradiction
  · split at waits
    · contradiction
    · split at waits
      · omega
      · contradiction

/-- The stages behind the request line wait for no more than the headers and the largest body. -/
theorem incomplete_rest {lineEnd : Nat} {line : RequestLine} (positive : Positive limits)
    (early : (lineEnd : Int) + 2 ≤ limits.maxRequestLineBytes)
    (waits : parseRest limits data lineEnd line = .incomplete) :
    (data.length : Int) < bound limits := by
  have lineRange := positive.line
  have headerRange := positive.header
  have bodyRange := positive.body
  have header := asSize_eq headerRange
  have noWrap : (lineEnd + 2 + asSize limits.maxHeaderBytes + 2) % 2 ^ 64 =
      lineEnd + 2 + asSize limits.maxHeaderBytes + 2 := by
    apply Nat.mod_eq_of_lt
    omega
  unfold parseRest at waits
  dsimp only at waits
  rw [noWrap] at waits
  unfold bound
  split at waits
  · split at waits
    · contradiction
    · omega
  · rename_i terminator found
    obtain ⟨after, below⟩ := (firstOccurrence_eq_some.mp found).1
    have size : ([13, 10, 13, 10] : Bytes).length = 4 := rfl
    split at waits
    · contradiction
    · have body := incomplete_body waits
      omega

/-- The parser waits only while the data is shorter than the bound. -/
theorem incomplete_parse (positive : Positive limits) (waits : parse limits data = .incomplete) :
    (data.length : Int) < bound limits := by
  have lineRange := positive.line
  have headerRange := positive.header
  have bodyRange := positive.body
  have line := asSize_eq lineRange
  unfold parse at waits
  dsimp only at waits
  split at waits
  · split at waits
    · contradiction
    · unfold bound
      omega
  · rename_i lineEnd found
    obtain ⟨after, below⟩ := (firstOccurrence_eq_some.mp found).1
    have size : ([13, 10] : Bytes).length = 2 := rfl
    split at waits
    · contradiction
    · apply incomplete_rest positive _ waits
      omega

end Parser

section Loop

variable {server : Server}

/-- Between two reads the loop holds no more than it began with. -/
theorem length_heldServing {remaining : Nat} {buffer other : Bytes}
    (member : other ∈ heldServing server remaining buffer) : other.length ≤ buffer.length := by
  induction remaining generalizing buffer with
  | zero =>
    have same : other = buffer := List.mem_singleton.mp member
    rw [same]
  | succ remaining ih =>
    unfold heldServing at member
    split at member
    · dsimp only at member
      split at member
      · cases List.mem_cons.mp member with
        | inl same => rw [same]
        | inr later =>
          have shorter := ih later
          rw [List.length_drop] at shorter
          omega
      · have same : other = buffer := List.mem_singleton.mp member
        rw [same]
    · have same : other = buffer := List.mem_singleton.mp member
      rw [same]

/-- The loop reads only when the parser waits for what it holds. -/
theorem incomplete_of_waiting {remaining left : Nat} {buffer kept : Bytes}
    (waits : (serve server remaining buffer).2 = .waiting left kept) :
    parse server.limits.httpLimits kept = .incomplete := by
  induction remaining generalizing buffer with
  | zero => contradiction
  | succ remaining ih =>
    unfold serve at waits
    split at waits
    · rename_i incomplete
      cases waits
      exact incomplete
    · contradiction
    · dsimp only at waits
      split at waits
      · exact ih waits
      · contradiction

/-- What the loop holds stays below the bound and one read. -/
theorem length_heldFrom (positive : Positive server.limits.httpLimits) {remaining : Nat}
    {buffer : Bytes} {chunks : List Bytes}
    (start : (buffer.length : Int) < bound server.limits.httpLimits + readSize)
    (reads : ∀ chunk ∈ chunks, chunk.length ≤ readSize) {other : Bytes}
    (member : other ∈ heldFrom server remaining buffer chunks) :
    (other.length : Int) < bound server.limits.httpLimits + readSize := by
  induction chunks generalizing remaining buffer with
  | nil =>
    unfold heldFrom at member
    rw [List.append_nil] at member
    have short := length_heldServing member
    omega
  | cons chunk chunks ih =>
    unfold heldFrom at member
    cases List.mem_append.mp member with
    | inl now =>
      have short := length_heldServing now
      omega
    | inr later =>
      dsimp only at later
      split at later
      · contradiction
      · rename_i left kept waits
        have incomplete := incomplete_parse positive (incomplete_of_waiting waits)
        have read : chunk.length ≤ readSize := reads chunk List.mem_cons_self
        apply ih _ _ later
        · rw [List.length_append]
          omega
        · intro next listed
          exact reads next (List.mem_cons_of_mem _ listed)

/-- The parser waits only below the sum of the limits, and `readbuf` never holds more than that and
one read, for any stream, any reads and any number of pipelined requests. -/
theorem read_buffer_bounded (server : Server) (positive : Positive server.limits.httpLimits) :
    (∀ data, parse server.limits.httpLimits data = .incomplete →
      (data.length : Int) < bound server.limits.httpLimits) ∧
    ∀ chunks : List Bytes, (∀ chunk ∈ chunks, chunk.length ≤ readSize) →
      ∀ buffer ∈ held server chunks,
        (buffer.length : Int) < bound server.limits.httpLimits + readSize := by
  constructor
  · intro data waits
    exact incomplete_parse positive waits
  · intro chunks reads buffer member
    apply length_heldFrom positive _ reads member
    have lineRange := positive.line
    have headerRange := positive.header
    have bodyRange := positive.body
    unfold bound
    rw [List.length_nil]
    omega

/-- The bound for limits of 16, 16 and 8 octets, and a request line in two reads. -/
theorem read_buffer_bounded_of_small :
    let server : Server := ⟨⟨100, ⟨16, 16, 4, 8⟩⟩, [], false⟩
    let chunks := [ascii "GET / HT", ascii "TP/1.1\r\n\r\n"]
    Positive server.limits.httpLimits ∧ held server chunks = [[], chunks.flatten.take 8, chunks.flatten, []] ∧
      ∀ buffer ∈ held server chunks, buffer.length < 42 + 4096 := by
  have positive : Positive ⟨16, 16, 4, 8⟩ := ⟨by decide, by decide, by decide⟩
  refine ⟨positive, by decide, ?_⟩
  intro buffer member
  have bounded := (read_buffer_bounded ⟨⟨100, ⟨16, 16, 4, 8⟩⟩, [], false⟩ positive).2
    [ascii "GET / HT", ascii "TP/1.1\r\n\r\n"] (by decide) buffer member
  have sum : bound ⟨16, 16, 4, 8⟩ = 42 := by decide
  rw [sum] at bounded
  have read : readSize = 4096 := rfl
  omega

end Loop

end PlatformService.Verif.ReadBuffer
