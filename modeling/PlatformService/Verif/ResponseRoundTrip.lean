import PlatformService.Lib.Stream
import PlatformService.Verif.CorsHeaders
import PlatformService.Verif.JsonRoundTrip

/-!
# Responses are read back

A client reads a response by its framing: the lines up to the first empty one, and then as many octets
as the one Content-Length says. What the writer writes for a response is such a text whatever follows
it, its status line, header lines and body are read as they were meant, and a body is the JSON value of
the handler.
-/

namespace PlatformService.Verif.ResponseRoundTrip

open Lib Lib.Stream Http CorsHeaders

/-- What a client reads of a response. -/
structure Received where
  statusLine : Bytes
  fields : List Bytes
  body : Bytes
  deriving DecidableEq, Repr

/-- The values of the headers whose lines start with a text. -/
def fieldValues (name : String) (fields : List Bytes) : List Bytes :=
  fields.filterMap (ascii name).isPrefixOf?

/-- The length that the one Content-Length header says. -/
def declaredLength (fields : List Bytes) : Option Nat :=
  match fieldValues "Content-Length: " fields with
  | [digits] => if digits.all isDigit then some (natOfDigits digits) else none
  | _ => none

/-- The first response of a stream, and what follows it. -/
def receive (stream : Bytes) : Option (Received × Bytes) :=
  match headLines stream with
  | [] => none
  | statusLine :: fields => do
    let behind := stream.drop (joinLines (statusLine :: fields)).length
    let length ← declaredLength fields
    if crlf <+: behind ∧ length + 2 ≤ behind.length then
      some (⟨statusLine, fields, (behind.drop 2).take length⟩, behind.drop (2 + length))
    else none

/-- The text of the body of a response. -/
def bodyText (response : Response) : Option Bytes := response.jsonBody.elim (some []) Json.write

/-- The status line of a response. -/
def statusLine (response : Response) : Bytes :=
  ascii "HTTP/1.1 " ++ intDigits response.status ++ ascii " " ++ ascii (reasonPhrase response.status)

/-- The header lines of a response with a body of some length. -/
def fieldLines (response : Response) (length : Nat) : List Bytes :=
  (plainLines response length).tail ++ corsLines response

/-- What a client is to read of a response. -/
def received (response : Response) : Received :=
  let body := (bodyText response).getD []
  ⟨statusLine response, fieldLines response body.length, body⟩

/-- A written response is its status line, its header lines, an empty line and its body. -/
theorem write_eq {response : Response} {written : Bytes}
    (done : httpResponseWrite response = some written) :
    written = joinLines ((received response).statusLine :: (received response).fields) ++
      (crlf ++ (received response).body) ∧ bodyText response = some (received response).body := by
  obtain ⟨body, encoded, rest⟩ := Option.bind_eq_some_iff.mp done
  obtain ⟨status, statusFits, rest⟩ := Option.bind_eq_some_iff.mp rest
  obtain ⟨length, lengthFits, rest⟩ := Option.bind_eq_some_iff.mp rest
  obtain ⟨cors, corsFits, rest⟩ := Option.bind_eq_some_iff.mp rest
  have text : bodyText response = some body := encoded
  have lines : (received response).statusLine :: (received response).fields =
      plainLines response body.length ++ corsLines response := by
    simp only [received, text, Option.getD_some, fieldLines, plainLines, statusLine,
      List.cons_append, List.tail_cons]
  have same : (received response).body = body := by simp only [received, text, Option.getD_some]
  rw [lines, same, ← Option.some.inj rest, formatted_eq_some statusFits, formatted_eq_some lengthFits,
    corsHeaders_eq corsFits]
  refine ⟨?_, text⟩
  unfold plainLines
  simp only [joinLines_append, joinLines_singleton, joinLines_ite, List.append_assoc]

/-- No CORS line is a header whose name starts with C. -/
theorem fieldValues_corsLines {name : String} {rest : Bytes} (first : ascii name = 67 :: rest)
    (response : Response) : fieldValues name (corsLines response) = [] := by
  unfold fieldValues corsLines
  rw [first, List.filterMap_eq_nil_iff]
  intro line member
  cases echoed : response.corsOrigin with
  | none =>
    rw [echoed] at member
    contradiction
  | some origin =>
    rw [echoed, Option.elim_some] at member
    simp only [List.append_assoc, List.mem_append, List.mem_cons, List.not_mem_nil, or_false] at member
    rcases member with (allow | vary) | credentials | methods | headers
    · rw [allow]
      rfl
    · rw [vary]
      rfl
    · split at credentials
      · rw [List.mem_singleton.mp credentials]
        rfl
      · contradiction
    · cases listed : response.corsAllowMethods with
      | none => simp [listed] at methods
      | some text =>
        rw [listed, Option.elim_some, List.mem_singleton] at methods
        rw [methods]
        rfl
    · cases listed : response.corsAllowHeaders with
      | none => simp [listed] at headers
      | some text =>
        rw [listed, Option.elim_some, List.mem_singleton] at headers
        rw [headers]
        rfl

/-- The values of a header name in several parts of the lines. -/
theorem fieldValues_append (name : String) (fields more : List Bytes) :
    fieldValues name (fields ++ more) = fieldValues name fields ++ fieldValues name more :=
  List.filterMap_append

/-- The header lines of a response that are not CORS headers. -/
theorem tail_plainLines (response : Response) (length : Nat) :
    (plainLines response length).tail =
      (if response.jsonBody.isSome then [ascii "Content-Type: application/json"] else []) ++
        [ascii "Content-Length: " ++ natDigits length] ++
        [if response.keepAlive then ascii "Connection: keep-alive" else ascii "Connection: close"] ++
        [ascii "X-Content-Type-Options: nosniff"] ++
        (if response.noStore then [ascii "Cache-Control: no-store"] else []) := by
  simp only [plainLines, List.cons_append, List.tail_cons, List.nil_append]

/-- A header name that starts with C and names none of the constant lines has values in the lines of the
length and the connection only. -/
theorem fieldValues_fieldLines {name : String} {rest : Bytes} (first : ascii name = 67 :: rest)
    (constant : ∀ line ∈ [ascii "Content-Type: application/json",
      ascii "X-Content-Type-Options: nosniff", ascii "Cache-Control: no-store"],
      (ascii name).isPrefixOf? line = none) (response : Response) (length : Nat) :
    fieldValues name (fieldLines response length) =
      fieldValues name [ascii "Content-Length: " ++ natDigits length] ++
        fieldValues name
          [if response.keepAlive then ascii "Connection: keep-alive" else ascii "Connection: close"] := by
  have absent (present : Bool) {line : Bytes} (member : line ∈ [ascii "Content-Type: application/json",
      ascii "X-Content-Type-Options: nosniff", ascii "Cache-Control: no-store"]) :
      fieldValues name (if present then [line] else []) = [] := by
    have none := constant line member
    cases present with
    | true => simp [fieldValues, none]
    | false => rfl
  have type := absent response.jsonBody.isSome List.mem_cons_self
  have sniffing := absent true (List.mem_cons_of_mem _ List.mem_cons_self)
  have caching := absent response.noStore
    (List.mem_cons_of_mem _ (List.mem_cons_of_mem _ List.mem_cons_self))
  have cors := fieldValues_corsLines first response
  unfold fieldLines
  rw [tail_plainLines]
  simp only [if_true] at sniffing
  simp only [fieldValues_append, type, sniffing, caching, cors, List.nil_append, List.append_nil]

/-- The one Content-Length of a response is the length of its body. -/
theorem fieldValues_length (response : Response) (length : Nat) :
    fieldValues "Content-Length: " (fieldLines response length) = [natDigits length] := by
  have split : (ascii "Content-Length: ").isPrefixOf? (ascii "Content-Length: " ++ natDigits length) =
      some (natDigits length) := List.isPrefixOf?_eq_some_iff_append_eq.mpr rfl
  have connection : fieldValues "Content-Length: "
      [if response.keepAlive then ascii "Connection: keep-alive" else ascii "Connection: close"] = [] := by
    cases response.keepAlive <;> decide
  rw [fieldValues_fieldLines rfl (by decide), connection]
  simp only [fieldValues, List.filterMap_cons, split, List.filterMap_nil, List.append_nil]

/-- The one Connection header of a response says whether the connection stays open. -/
theorem fieldValues_connection (response : Response) (length : Nat) :
    fieldValues "Connection: " (fieldLines response length) =
      [if response.keepAlive then ascii "keep-alive" else ascii "close"] := by
  have digits : fieldValues "Connection: " [ascii "Content-Length: " ++ natDigits length] = [] := rfl
  rw [fieldValues_fieldLines rfl (by decide), digits]
  cases response.keepAlive <;> decide

/-- The declared length of a response is the length of its body. -/
theorem declaredLength_fieldLines (response : Response) (length : Nat) :
    declaredLength (fieldLines response length) = some length := by
  have digits : (natDigits length).all isDigit = true :=
    List.all_eq_true.mpr fun byte stored => isDigit_of_mem_natDigits stored
  unfold declaredLength
  rw [fieldValues_length]
  simp only [digits, if_true, natOfDigits_natDigits]

/-- The lines of a response are whole: none is empty or holds a CRLF. -/
theorem lines_whole {response : Response} (texts : PlainTexts response)
    (uncut : ∀ origin ∈ response.corsOrigin, Uncut (cString origin)) :
    ∀ line ∈ (received response).statusLine :: (received response).fields,
      Uncut line ∧ line ≠ [] := by
  have split : (received response).statusLine :: (received response).fields =
      plainLines response (received response).body.length ++ corsLines response := by
    simp only [received, fieldLines, plainLines, statusLine, List.cons_append, List.tail_cons]
  rw [split, List.forall_mem_append]
  exact ⟨fun line member =>
    ⟨(plainLines_spec response _ line member).1, (plainLines_spec response _ line member).2.1⟩,
    corsLines_uncut texts uncut⟩

/-- A written response is read back as it was meant, whatever follows it. -/
theorem takes_write {response : Response} {written : Bytes} (texts : PlainTexts response)
    (uncut : ∀ origin ∈ response.corsOrigin, Uncut (cString origin))
    (done : httpResponseWrite response = some written) :
    Takes receive written (received response) := by
  intro rest
  obtain ⟨shape, -⟩ := write_eq done
  have whole := lines_whole texts uncut
  have stream : written ++ rest =
      joinLines ((received response).statusLine :: (received response).fields) ++
        (crlf ++ ((received response).body ++ rest)) := by
    rw [shape]
    simp only [List.append_assoc]
  have head : headLines (written ++ rest) =
      (received response).statusLine :: (received response).fields := by
    rw [stream]
    exact headLines_joinLines (fun line member => (whole line member).1)
      (fun line member => (whole line member).2) _
  have behind : (written ++ rest).drop
      (joinLines ((received response).statusLine :: (received response).fields)).length =
        crlf ++ ((received response).body ++ rest) := by
    rw [stream, List.drop_left]
  have declared : declaredLength (received response).fields = some (received response).body.length :=
    declaredLength_fieldLines response _
  have room : (received response).body.length + 2 ≤
      (crlf ++ ((received response).body ++ rest)).length := by
    simp only [crlf, List.length_append, List.length_cons, List.length_nil]
    omega
  have blank : (crlf ++ ((received response).body ++ rest)).drop 2 = (received response).body ++ rest :=
    List.drop_left' rfl
  unfold receive
  rw [head]
  simp only [behind, declared, Option.bind_eq_bind, Option.bind_some]
  rw [if_pos ⟨List.prefix_append _ _, room⟩, ← List.drop_drop, blank, List.take_left, List.drop_left]

end PlatformService.Verif.ResponseRoundTrip
