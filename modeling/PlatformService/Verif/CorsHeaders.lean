import PlatformService.Http.Response
import PlatformService.Verif.CorsPolicy

/-!
# The origin on the wire

A response is read back as the lines in front of its first empty one. The value of a
request header holds no CRLF, so an origin that is echoed stays one line; it is an
entry of the configured list, so it fits the buffer it is copied to and the buffer its
line is written to. Then the origins a client finds in a response are those that the
request has and the list allows.
-/

namespace PlatformService.Verif.CorsHeaders

open Lib Http CorsPolicy

/-- A line that CRLF does not cut. -/
def Uncut (line : Bytes) : Prop := ¬crlf <:+: line

/-- A line without CR is not cut. -/
theorem uncut_of_not_mem {line : Bytes} (free : (13 : UInt8) ∉ line) : Uncut line := by
  intro cut
  exact free (cut.subset List.mem_cons_self)

/-- A part of a line that is not cut is not cut. -/
theorem Uncut.part {line part : Bytes} (uncut : Uncut line) (inside : part <:+: line) : Uncut part :=
  fun cut => uncut (cut.trans inside)

/-- A line that starts with no CR and goes on uncut is not cut. -/
theorem Uncut.append {start line : Bytes} (free : (13 : UInt8) ∉ start) (uncut : Uncut line) :
    Uncut (start ++ line) := by
  induction start with
  | nil => exact uncut
  | cons first start ih =>
    intro cut
    rcases List.infix_cons_iff.mp cut with leads | inside
    · obtain ⟨rest, shape⟩ := leads
      have same : (13 : UInt8) = first := (List.cons.inj shape).1
      exact free (by rw [same]; exact List.mem_cons_self)
    · exact ih (fun stored => free (List.mem_cons_of_mem _ stored)) inside

/-- A line behind another is read as it is. -/
theorem splitCrlf_line {line : Bytes} (uncut : Uncut line) (rest : Bytes) :
    splitCrlf (line ++ (crlf ++ rest)) = (line :: (splitCrlf rest).1, (splitCrlf rest).2) := by
  induction line with
  | nil => rfl
  | cons c line ih =>
    have inner := ih (uncut.part (List.infix_cons (List.infix_refl line)))
    rw [List.cons_append, splitCrlf]
    · rw [inner]
    · intro after cr shape
      cases line with
      | nil =>
        have wrong := (List.cons.inj shape).1
        contradiction
      | cons d line =>
        have lf : d = 10 := (List.cons.inj shape).1
        apply uncut
        rw [cr, lf]
        exact ⟨[], line, rfl⟩

/-- The first line of a block is where it starts. -/
theorem first_leads (block : Bytes) : ∀ line ∈ (splitCrlf block).1.head?, line <+: block := by
  fun_induction splitCrlf block with
  | case1 => exact fun line member => absurd member (by simp)
  | case2 rest ih =>
    intro line member
    cases member
    exact List.nil_prefix
  | case3 c rest other last shape ih => exact fun line member => absurd member (by simp)
  | case4 c rest other first lines last shape ih =>
    intro line member
    cases member
    rw [shape] at ih
    exact List.cons_prefix_cons.mpr ⟨rfl, ih first rfl⟩

/-- The lines of a block are not cut. -/
theorem uncut_of_mem_splitCrlf {block : Bytes} : ∀ line ∈ (splitCrlf block).1, Uncut line := by
  have start := first_leads block
  fun_induction splitCrlf block with
  | case1 => exact fun line member => absurd member List.not_mem_nil
  | case2 rest ih =>
    intro line member
    cases List.mem_cons.mp member with
    | inl empty =>
      rw [empty]
      exact uncut_of_not_mem List.not_mem_nil
    | inr later => exact ih (first_leads rest) line later
  | case3 c rest other last shape ih => exact fun line member => absurd member List.not_mem_nil
  | case4 c rest other first lines last shape ih =>
    have inner := ih (first_leads rest)
    have leads := first_leads rest
    rw [shape] at inner leads
    intro line member
    cases List.mem_cons.mp member with
    | inl same =>
      rw [same]
      intro cut
      rcases List.infix_cons_iff.mp cut with here | inside
      · obtain ⟨after, equal⟩ := here
        obtain ⟨more, whole⟩ := leads first rfl
        have cr := (List.cons.inj equal).1
        have tail : 10 :: after = first := (List.cons.inj equal).2
        apply other (after ++ more) cr.symm
        rw [← whole, ← tail]
        rfl
      · exact inner first List.mem_cons_self inside
    | inr later => exact inner line (List.mem_cons_of_mem _ later)

/-- The framing guard leaves the headers alone. -/
theorem noteFraming_headers {state after : HeaderState} {header : Header}
    (done : noteFraming state header = .ok after) : after.headers = state.headers := by
  unfold noteFraming at done
  split at done
  · split at done
    · contradiction
    · split at done
      · contradiction
      · cases done
        rfl
  · split at done
    · cases done
      rfl
    · cases done
      rfl

/-- A header line adds one header, whose value is a part of the line. -/
theorem parseHeaderLine_headers {limits : Limits} {state after : HeaderState} {line : Bytes}
    (done : parseHeaderLine limits state line = .ok after) :
    ∃ header, after.headers = state.headers ++ [header] ∧ header.value <:+: line := by
  unfold parseHeaderLine at done
  dsimp only at done
  split at done
  · contradiction
  dsimp only [bind, Except.bind, pure, Except.pure] at done
  split at done
  · contradiction
  split at done
  · contradiction
  split at done
  · contradiction
  have trimmed : ∀ rest : Bytes, (rest.dropWhile isSpOrHtab).rdropWhile isSpOrHtab <:+: rest :=
    fun rest => (List.rdropWhile_prefix isSpOrHtab _).isInfix.trans (List.dropWhile_suffix _).isInfix
  exact ⟨_, noteFraming_headers done, (trimmed _).trans (List.drop_suffix _ _).isInfix⟩

/-- The header loop over lines that are not cut leaves values that are not cut. -/
theorem uncut_of_foldlM {limits : Limits} {lines : List Bytes} {state after : HeaderState}
    (uncut : ∀ line ∈ lines, Uncut line) (before : ∀ header ∈ state.headers, Uncut header.value)
    (done : lines.foldlM (parseHeaderLine limits) state = .ok after) :
    ∀ header ∈ after.headers, Uncut header.value := by
  induction lines generalizing state with
  | nil =>
    cases done
    exact before
  | cons line lines ih =>
    rw [List.foldlM_cons] at done
    cases read : parseHeaderLine limits state line with
    | error error =>
      rw [read] at done
      contradiction
    | ok next =>
      rw [read] at done
      obtain ⟨header, added, inside⟩ := parseHeaderLine_headers read
      apply ih (fun other member => uncut other (List.mem_cons_of_mem _ member)) _ done
      intro other member
      rw [added] at member
      cases List.mem_append.mp member with
      | inl old => exact before other old
      | inr new =>
        rw [List.mem_singleton.mp new]
        exact (uncut line List.mem_cons_self).part inside

/-- The values of the headers of a block are not cut. -/
theorem uncut_of_parseHeaders {limits : Limits} {block : Bytes} {state : HeaderState}
    (done : parseHeaders limits block = .ok state) : ∀ header ∈ state.headers, Uncut header.value := by
  unfold parseHeaders at done
  dsimp only at done
  cases folded : (splitCrlf block).1.foldlM (parseHeaderLine limits) {} with
  | error error =>
    rw [folded] at done
    contradiction
  | ok after =>
    have same : after = state := by
      rw [folded] at done
      dsimp only [bind, Except.bind, pure, Except.pure] at done
      split at done
      · contradiction
      split at done
      · contradiction
      split at done
      · split at done
        · contradiction
        · contradiction
      · exact Except.ok.inj done
    rw [← same]
    exact uncut_of_foldlM uncut_of_mem_splitCrlf (fun _ member => absurd member List.not_mem_nil)
      folded

/-- The body stage leaves the headers alone. -/
theorem parseBody_headers {limits : Limits} {data : Bytes} {afterHeaders : Nat}
    {request accepted : Request} {contentLength : Option Nat} {consumed : Nat}
    (done : parseBody limits data afterHeaders request contentLength = .ok accepted consumed) :
    accepted.headers = request.headers := by
  unfold parseBody at done
  dsimp only at done
  split at done
  · cases done
    rfl
  split at done
  · contradiction
  split at done
  · contradiction
  · cases done
    rfl

/-- The values of the headers of a request are not cut. -/
theorem uncut_of_parse {limits : Limits} {data : Bytes} {request : Request} {consumed : Nat}
    (parsed : parse limits data = .ok request consumed) :
    ∀ header ∈ request.headers, Uncut header.value := by
  unfold parse at parsed
  dsimp only at parsed
  split at parsed
  · split at parsed
    · contradiction
    · contradiction
  split at parsed
  · contradiction
  unfold parseRest at parsed
  dsimp only at parsed
  split at parsed
  · split at parsed
    · contradiction
    · contradiction
  split at parsed
  · contradiction
  · rename_i state read
    rw [parseBody_headers parsed]
    exact uncut_of_parseHeaders read

/-- The lines in front of the first empty line of a response. -/
def headLines (written : Bytes) : List Bytes := (splitCrlf written).1.takeWhile (· ≠ [])

/-- The values of the header `Access-Control-Allow-Origin` of a response. -/
def allowOrigins (written : Bytes) : List Bytes :=
  (headLines written).filterMap (ascii "Access-Control-Allow-Origin: ").isPrefixOf?

/-- Lines that are written one after the other, each with its CRLF. -/
def joinLines (lines : List Bytes) : Bytes := lines.flatMap (· ++ crlf)

/-- Written lines are read as they are. -/
theorem headLines_joinLines {lines : List Bytes} (uncut : ∀ line ∈ lines, Uncut line)
    (nonempty : ∀ line ∈ lines, line ≠ []) (body : Bytes) :
    headLines (joinLines lines ++ (crlf ++ body)) = lines := by
  unfold headLines
  induction lines with
  | nil =>
    have empty : Uncut [] := uncut_of_not_mem List.not_mem_nil
    have blank := splitCrlf_line empty body
    rw [List.nil_append] at blank
    unfold joinLines
    rw [List.flatMap_nil, List.nil_append, blank]
    rfl
  | cons line lines ih =>
    have regrouped : joinLines (line :: lines) ++ (crlf ++ body) =
        line ++ (crlf ++ (joinLines lines ++ (crlf ++ body))) := by
      unfold joinLines
      rw [List.flatMap_cons, List.append_assoc, List.append_assoc]
    have filled := nonempty line List.mem_cons_self
    rw [regrouped, splitCrlf_line (uncut line List.mem_cons_self),
      List.takeWhile_cons_of_pos (by simpa using filled),
      ih (fun other member => uncut other (List.mem_cons_of_mem _ member))
        fun other member => nonempty other (List.mem_cons_of_mem _ member)]

/-- The CORS lines of a response. -/
def corsLines (response : Response) : List Bytes :=
  response.corsOrigin.elim [] fun origin =>
    [ascii "Access-Control-Allow-Origin: " ++ cString origin, ascii "Vary: Origin"] ++
      (if response.corsAllowCredentials then [ascii "Access-Control-Allow-Credentials: true"]
        else []) ++
      (response.corsAllowMethods.elim [] fun methods =>
        [ascii "Access-Control-Allow-Methods: " ++ ascii methods]) ++
      (response.corsAllowHeaders.elim [] fun headers =>
        [ascii "Access-Control-Allow-Headers: " ++ ascii headers])

/-- The other lines of a response with a body of some length. -/
def plainLines (response : Response) (length : Nat) : List Bytes :=
  [ascii "HTTP/1.1 " ++ intDigits response.status ++ ascii " " ++
      ascii (reasonPhrase response.status)] ++
    (if response.jsonBody.isSome then [ascii "Content-Type: application/json"] else []) ++
    [ascii "Content-Length: " ++ natDigits length] ++
    [if response.keepAlive then ascii "Connection: keep-alive" else ascii "Connection: close"] ++
    [ascii "X-Content-Type-Options: nosniff"] ++
    (if response.noStore then [ascii "Cache-Control: no-store"] else [])

/-- Lines behind others. -/
theorem joinLines_append (lines more : List Bytes) :
    joinLines (lines ++ more) = joinLines lines ++ joinLines more := List.flatMap_append

/-- A single line. -/
theorem joinLines_singleton (line : Bytes) : joinLines [line] = line ++ crlf := List.flatMap_singleton ..

/-- A line that is there or not. -/
theorem joinLines_ite (present : Bool) (line : Bytes) :
    joinLines (if present then [line] else []) = if present then line ++ crlf else [] := by
  cases present with
  | true => exact joinLines_singleton line
  | false => rfl

/-- A line with a text, if there is one. -/
theorem joinLines_elim (text : Option String) (line : String → Bytes) :
    joinLines (text.elim [] fun text => [line text]) = text.elim [] fun text => line text ++ crlf := by
  cases text with
  | none => rfl
  | some text => exact joinLines_singleton (line text)

/-- What fits is written as it is. -/
theorem formatted_eq_some {size : Nat} {text line : Bytes} (done : formatted size text = some line) :
    line = text := by
  unfold formatted at done
  split at done
  · exact (Option.some.inj done).symm
  · contradiction

/-- The CORS headers are the CORS lines. -/
theorem corsHeaders_eq {response : Response} {cors : Bytes}
    (done : corsHeaders response = some cors) : cors = joinLines (corsLines response) := by
  unfold corsHeaders at done
  unfold corsLines
  cases echoed : response.corsOrigin with
  | none =>
    rw [echoed] at done
    exact (Option.some.inj done).symm
  | some origin =>
    rw [echoed] at done
    obtain ⟨line, fits, whole⟩ := Option.bind_eq_some_iff.mp done
    rw [← Option.some.inj whole, formatted_eq_some fits]
    have pair : joinLines [ascii "Access-Control-Allow-Origin: " ++ cString origin,
        ascii "Vary: Origin"] = ascii "Access-Control-Allow-Origin: " ++ cString origin ++ crlf ++
          ascii "Vary: Origin" ++ crlf := by
      unfold joinLines
      rw [List.flatMap_cons, List.flatMap_singleton]
      simp only [List.append_assoc]
    rw [Option.elim_some, joinLines_append, joinLines_append, joinLines_append, pair, joinLines_ite,
      joinLines_elim, joinLines_elim]

/-- A written response is its lines, an empty line and its body. -/
theorem httpResponseWrite_eq {response : Response} {written : Bytes}
    (done : httpResponseWrite response = some written) :
    ∃ body : Bytes, written =
      joinLines (plainLines response body.length ++ corsLines response) ++ (crlf ++ body) := by
  obtain ⟨body, _, rest⟩ := Option.bind_eq_some_iff.mp done
  obtain ⟨status, statusFits, rest⟩ := Option.bind_eq_some_iff.mp rest
  obtain ⟨length, lengthFits, rest⟩ := Option.bind_eq_some_iff.mp rest
  obtain ⟨cors, corsFits, rest⟩ := Option.bind_eq_some_iff.mp rest
  refine ⟨body, ?_⟩
  rw [← Option.some.inj rest, formatted_eq_some statusFits, formatted_eq_some lengthFits,
    corsHeaders_eq corsFits]
  unfold plainLines
  simp only [joinLines_append, joinLines_singleton, joinLines_ite, List.append_assoc]

/-- Digits are no CR. -/
theorem not_mem_natDigits (n : Nat) : (13 : UInt8) ∉ natDigits n := by
  intro stored
  have digit := isDigit_of_mem_natDigits stored
  contradiction

/-- The digits of a number are no CR. -/
theorem not_mem_intDigits (n : Int) : (13 : UInt8) ∉ intDigits n :=
  byte_not_mem_intDigits (by decide) (by decide) n

/-- A choice of two texts without a CR. -/
theorem not_mem_ite {choice : Prop} [Decidable choice] {left right : String}
    (first : (13 : UInt8) ∉ ascii left) (second : (13 : UInt8) ∉ ascii right) :
    (13 : UInt8) ∉ ascii (if choice then left else right) := by
  by_cases chosen : choice
  · rwa [if_pos chosen]
  · rwa [if_neg chosen]

/-- No reason holds a CR. -/
theorem not_mem_reasonPhrase (status : Int) : (13 : UInt8) ∉ ascii (reasonPhrase status) := by
  unfold reasonPhrase
  iterate 14 refine not_mem_ite (by decide +kernel) ?_
  decide +kernel

/-- The lines that are not CORS headers are whole, and none allows an origin. -/
theorem plainLines_spec (response : Response) (length : Nat) :
    ∀ line ∈ plainLines response length, Uncut line ∧ line ≠ [] ∧
      (ascii "Access-Control-Allow-Origin: ").isPrefixOf? line = none := by
  intro line member
  unfold plainLines at member
  simp only [List.append_assoc, List.mem_append, List.mem_singleton] at member
  rcases member with status | type | size | connection | sniffing | caching
  · rw [status]
    refine ⟨uncut_of_not_mem ?_, List.cons_ne_nil _ _, rfl⟩
    simp only [List.mem_append, not_or]
    exact ⟨by decide, not_mem_intDigits _, by decide, not_mem_reasonPhrase _⟩
  · split at type
    · rw [List.mem_singleton.mp type]
      exact ⟨uncut_of_not_mem (by decide), List.cons_ne_nil _ _, rfl⟩
    · contradiction
  · rw [size]
    refine ⟨uncut_of_not_mem ?_, List.cons_ne_nil _ _, rfl⟩
    simp only [List.mem_append, not_or]
    exact ⟨by decide, not_mem_natDigits _⟩
  · rw [connection]
    split
    · exact ⟨uncut_of_not_mem (by decide), List.cons_ne_nil _ _, rfl⟩
    · exact ⟨uncut_of_not_mem (by decide), List.cons_ne_nil _ _, rfl⟩
  · rw [sniffing]
    exact ⟨uncut_of_not_mem (by decide), List.cons_ne_nil _ _, rfl⟩
  · split at caching
    · rw [List.mem_singleton.mp caching]
      exact ⟨uncut_of_not_mem (by decide), List.cons_ne_nil _ _, rfl⟩
    · contradiction

/-- The texts of the preflight headers hold no CR. -/
def PlainTexts (response : Response) : Prop :=
  (∀ methods ∈ response.corsAllowMethods, (13 : UInt8) ∉ ascii methods) ∧
    ∀ headers ∈ response.corsAllowHeaders, (13 : UInt8) ∉ ascii headers

/-- The CORS lines are whole. -/
theorem corsLines_uncut {response : Response} (texts : PlainTexts response)
    (uncut : ∀ origin ∈ response.corsOrigin, Uncut (cString origin)) :
    ∀ line ∈ corsLines response, Uncut line ∧ line ≠ [] := by
  intro line member
  unfold corsLines at member
  cases echoed : response.corsOrigin with
  | none =>
    rw [echoed] at member
    contradiction
  | some origin =>
    rw [echoed, Option.elim_some] at member
    simp only [List.append_assoc, List.mem_append, List.mem_cons, List.not_mem_nil, or_false] at member
    rcases member with (allow | vary) | credentials | methods | headers
    · rw [allow]
      exact ⟨Uncut.append (by decide) (uncut origin echoed), List.cons_ne_nil _ _⟩
    · rw [vary]
      exact ⟨uncut_of_not_mem (by decide), List.cons_ne_nil _ _⟩
    · split at credentials
      · rw [List.mem_singleton.mp credentials]
        exact ⟨uncut_of_not_mem (by decide), List.cons_ne_nil _ _⟩
      · contradiction
    · cases listed : response.corsAllowMethods with
      | none =>
        rw [listed] at methods
        contradiction
      | some text =>
        rw [listed, Option.elim_some, List.mem_singleton] at methods
        rw [methods]
        exact ⟨Uncut.append (by decide) (uncut_of_not_mem (texts.1 text listed)),
          List.cons_ne_nil _ _⟩
    · cases listed : response.corsAllowHeaders with
      | none =>
        rw [listed] at headers
        contradiction
      | some text =>
        rw [listed, Option.elim_some, List.mem_singleton] at headers
        rw [headers]
        exact ⟨Uncut.append (by decide) (uncut_of_not_mem (texts.2 text listed)),
          List.cons_ne_nil _ _⟩

/-- The CORS lines allow the origin that is echoed, and no other. -/
theorem corsLines_origins (response : Response) :
    (corsLines response).filterMap (ascii "Access-Control-Allow-Origin: ").isPrefixOf? =
      (response.corsOrigin.map cString).toList := by
  unfold corsLines
  cases response.corsOrigin with
  | none => rfl
  | some origin =>
    have echoed : (ascii "Access-Control-Allow-Origin: ").isPrefixOf?
        (ascii "Access-Control-Allow-Origin: " ++ cString origin) = some (cString origin) :=
      List.isPrefixOf?_eq_some_iff_append_eq.mpr rfl
    have credentials : (if response.corsAllowCredentials then
        [ascii "Access-Control-Allow-Credentials: true"] else []).filterMap
          (ascii "Access-Control-Allow-Origin: ").isPrefixOf? = [] := by
      cases response.corsAllowCredentials with
      | true => rfl
      | false => rfl
    have methods : (response.corsAllowMethods.elim [] fun methods =>
        [ascii "Access-Control-Allow-Methods: " ++ ascii methods]).filterMap
          (ascii "Access-Control-Allow-Origin: ").isPrefixOf? = [] := by
      cases response.corsAllowMethods with
      | none => rfl
      | some text => rfl
    have headers : (response.corsAllowHeaders.elim [] fun headers =>
        [ascii "Access-Control-Allow-Headers: " ++ ascii headers]).filterMap
          (ascii "Access-Control-Allow-Origin: ").isPrefixOf? = [] := by
      cases response.corsAllowHeaders with
      | none => rfl
      | some text => rfl
    rw [Option.elim_some, List.filterMap_append, List.filterMap_append, List.filterMap_append,
      credentials, methods, headers, List.filterMap_cons, echoed]
    rfl

/-- The origins that a client reads from a response are the one that it echoes. -/
theorem allowOrigins_write {response : Response} {written : Bytes} (texts : PlainTexts response)
    (uncut : ∀ origin ∈ response.corsOrigin, Uncut (cString origin))
    (done : httpResponseWrite response = some written) :
    allowOrigins written = (response.corsOrigin.map cString).toList := by
  obtain ⟨body, shape⟩ := httpResponseWrite_eq done
  have plain := plainLines_spec response body.length
  have cors := corsLines_uncut texts uncut
  have lines : headLines written = plainLines response body.length ++ corsLines response := by
    rw [shape]
    apply headLines_joinLines
    · intro line member
      cases List.mem_append.mp member with
      | inl inside => exact (plain line inside).1
      | inr inside => exact (cors line inside).1
    · intro line member
      cases List.mem_append.mp member with
      | inl inside => exact (plain line inside).2.1
      | inr inside => exact (cors line inside).2
  have none : (plainLines response body.length).filterMap
      (ascii "Access-Control-Allow-Origin: ").isPrefixOf? = [] := by
    rw [List.filterMap_eq_nil_iff]
    intro line member
    exact (plain line member).2.2
  unfold allowOrigins
  rw [lines, List.filterMap_append, none, corsLines_origins]
  rfl

/-- Octets are compared with their equality. -/
local instance lawfulOctets : LawfulBEq Bytes := List.instLawfulBEq

/-- The origin of a request that a list of entries allows. -/
def allowedOrigin (entries : List Bytes) (request : Request) : Option Bytes :=
  ((request.header "Origin").map Header.value).filter (· ∈ entries)

/-- `ps_cors_origin_allowed` compares byte for byte. -/
theorem corsOriginAllowed_eq (policy : CorsPolicy) (origin : Bytes) :
    corsOriginAllowed policy origin = decide (origin ∈ policy.entries) := by
  unfold corsOriginAllowed
  rw [Bool.eq_iff_iff, List.any_eq_true, decide_eq_true_eq]
  constructor
  · intro ⟨entry, member, same⟩
    rw [Bool.and_eq_true, decide_eq_true_eq, decide_eq_true_eq] at same
    rwa [← same.2]
  · intro member
    exact ⟨origin, member, by simp⟩

/-- A policy without origins allows none. -/
theorem allowedOrigin_of_disabled {policy : CorsPolicy} (off : policy.enabled = false)
    (request : Request) : allowedOrigin policy.entries request = none := by
  have empty : policy.entries = [] := by
    have none : policy.origins = [] := by
      unfold CorsPolicy.enabled at off
      simpa using off
    unfold CorsPolicy.entries
    rw [none]
    rfl
  unfold allowedOrigin
  rw [empty, Option.filter_eq_none_iff]
  exact fun _ _ => by simp

/-- `apply_cors` changes nothing, or echoes the allowed origin. -/
theorem applyCors_cases (policy : CorsPolicy) (request : Request) (isPreflight : Bool)
    (response : Response) :
    allowedOrigin policy.entries request = none ∧
        applyCors policy request isPreflight response = response ∨
      ∃ origin, allowedOrigin policy.entries request = some origin ∧
        (applyCors policy request isPreflight response).corsOrigin =
          some (origin.take (min origin.length (originBufLen - 1)) ++ [0]) ∧
        (PlainTexts response → PlainTexts (applyCors policy request isPreflight response)) := by
  unfold applyCors
  by_cases off : (!policy.enabled) = true
  · rw [if_pos off]
    exact Or.inl ⟨allowedOrigin_of_disabled (by simpa using off) request, rfl⟩
  unfold allowedOrigin
  rw [if_neg off]
  cases request.header "Origin" with
  | none => exact Or.inl ⟨rfl, rfl⟩
  | some origin =>
    dsimp only
    rw [corsOriginAllowed_eq, Option.map_some]
    by_cases allowed : origin.value ∈ policy.entries
    · refine Or.inr ⟨origin.value, ?_, ?_⟩
      · rw [Option.filter_some, if_pos (by simpa using allowed)]
      · rw [if_neg (by simpa using allowed)]
        cases isPreflight with
        | true =>
          have methods : (13 : UInt8) ∉ ascii "GET, POST, PUT, DELETE, OPTIONS" := by decide +kernel
          have headers : (13 : UInt8) ∉ ascii "Content-Type, Authorization" := by decide +kernel
          refine ⟨rfl, fun _ => ⟨fun text same => ?_, fun text same => ?_⟩⟩
          · rw [← Option.some.inj same]
            exact methods
          · rw [← Option.some.inj same]
            exact headers
        | false => exact ⟨rfl, fun texts => texts⟩
    · refine Or.inl ⟨?_, ?_⟩
      · rw [Option.filter_some, if_neg (by simpa using allowed)]
      · rw [if_pos (by simpa using allowed)]

/-- Responses that differ in their CORS headers are written or not alike, if those can be written. -/
theorem isSome_write_congr {response other : Response} (status : other.status = response.status)
    (body : other.jsonBody = response.jsonBody) (cors : (corsHeaders response).isSome)
    (cors' : (corsHeaders other).isSome) :
    (httpResponseWrite other).isSome = (httpResponseWrite response).isSome := by
  obtain ⟨headers, written⟩ := Option.isSome_iff_exists.mp cors
  obtain ⟨headers', written'⟩ := Option.isSome_iff_exists.mp cors'
  unfold httpResponseWrite
  rw [status, body, written, written']
  cases response.jsonBody.elim (some []) Json.write with
  | none => rfl
  | some text =>
    dsimp only [Option.bind_eq_bind, Option.bind_some]
    cases formatted 64 (ascii "HTTP/1.1 " ++ intDigits response.status ++ ascii " " ++
        ascii (reasonPhrase response.status) ++ crlf) with
    | none => rfl
    | some line =>
      dsimp only [Option.bind_some]
      cases formatted 64 (ascii "Content-Length: " ++ natDigits text.length ++ crlf) with
      | none => rfl
      | some length => rfl

/-- A short origin fits the line it is written to. -/
theorem isSome_corsHeaders {response : Response}
    (short : ∀ origin ∈ response.corsOrigin, (cString origin).length < originBufLen) :
    (corsHeaders response).isSome := by
  unfold corsHeaders
  cases echoed : response.corsOrigin with
  | none => rfl
  | some origin =>
    have bound := short origin echoed
    have label : (ascii "Access-Control-Allow-Origin: ").length = 29 := by decide +kernel
    have vary : (ascii "Vary: Origin").length = 12 := by decide +kernel
    have ending : crlf.length = 2 := rfl
    have size : originBufLen = 256 := rfl
    have fits : formatted 320 (ascii "Access-Control-Allow-Origin: " ++ cString origin ++ crlf ++
        ascii "Vary: Origin" ++ crlf) = some (ascii "Access-Control-Allow-Origin: " ++
          cString origin ++ crlf ++ ascii "Vary: Origin" ++ crlf) := by
      apply if_pos
      simp only [List.length_append, label, vary, ending]
      omega
    dsimp only
    rw [fits]
    rfl

/-- A short origin is copied whole. -/
theorem cString_copied {origin : Bytes} (short : origin.length < originBufLen)
    (free : (0 : UInt8) ∉ origin) :
    cString (origin.take (min origin.length (originBufLen - 1)) ++ [0]) = origin := by
  have whole : min origin.length (originBufLen - 1) = origin.length := by omega
  rw [whole, List.take_length]
  exact textAt_append [] [] free

/-- A response that echoes what the policy allows is written like the one without it, and a client
reads from it the origin that is allowed. -/
def Exact (entries : List Bytes) (request : Request) (response : Response) : Prop :=
  (httpResponseWrite response).isSome =
      (httpResponseWrite { response with corsOrigin := none }).isSome ∧
    ∀ written, httpResponseWrite response = some written →
      allowOrigins written = (allowedOrigin entries request).toList

/-- A response without an origin is exact where none is allowed. -/
theorem exact_of_none {entries : List Bytes} {request : Request} {response : Response}
    (silent : response.corsOrigin = none) (texts : PlainTexts response)
    (refused : allowedOrigin entries request = none) : Exact entries request response := by
  have same : { response with corsOrigin := none } = response := by rw [← silent]
  refine ⟨by rw [same], ?_⟩
  intro written done
  have read := allowOrigins_write texts (fun origin echoed => by rw [silent] at echoed; contradiction) done
  rw [read, silent, refused]
  rfl

/-- What `apply_cors` makes of a response is exact. -/
theorem exact_applyCors {policy : CorsPolicy} {request : Request} {response : Response}
    (isPreflight : Bool) (silent : response.corsOrigin = none) (texts : PlainTexts response)
    (short : ∀ entry ∈ policy.entries, entry.length < originBufLen ∧ (0 : UInt8) ∉ entry)
    (uncut : ∀ header ∈ request.headers, Uncut header.value) :
    Exact policy.entries request (applyCors policy request isPreflight response) := by
  rcases applyCors_cases policy request isPreflight response with refused | allowed
  · rw [refused.2]
    exact exact_of_none silent texts refused.1
  · obtain ⟨origin, found, echoed, plain⟩ := allowed
    have parts := Option.filter_eq_some_iff.mp found
    have listed : origin ∈ policy.entries := by simpa using parts.2
    obtain ⟨header, first, value⟩ := Option.map_eq_some_iff.mp parts.1
    have whole := cString_copied (short origin listed).1 (short origin listed).2
    have line : Uncut origin := by
      rw [← value]
      exact uncut header (List.mem_of_find?_eq_some first)
    refine ⟨?_, ?_⟩
    · refine isSome_write_congr ?_ ?_ ?_ ?_
      · rfl
      · rfl
      · rfl
      · apply isSome_corsHeaders
        intro copy same
        rw [echoed] at same
        rw [← Option.some.inj same, whole]
        exact (short origin listed).1
    · intro written done
      have read := allowOrigins_write (plain texts) (fun copy same => by
        rw [echoed] at same
        rw [← Option.some.inj same, whole]
        exact line) done
      rw [read, echoed, found, Option.map_some, whole]

/-- A response to OPTIONS or from a handler. -/
def Dispatched : Answer → Prop
  | .options _ => True
  | .dispatched _ _ => True
  | _ => False

/-- `ps_cors_policy_init` fails for more than sixteen entries or a wildcard with credentials. -/
theorem corsPolicyInit_fails_iff {csv : Bytes} (free : (0 : UInt8) ∉ csv) (allowCredentials : Bool) :
    (∃ message, corsPolicyInit csv allowCredentials = .error message) ↔
      corsMaxOrigins < (originEntries csv).length ∨
        allowCredentials = true ∧ [42] ∈ originEntries csv := by
  have spec := corsPolicyInit_spec free allowCredentials
  have allowed := refusal_eq_none allowCredentials (originEntries csv) (Nat.zero_le corsMaxOrigins)
  rw [Nat.zero_add] at allowed
  cases refused : refusal allowCredentials 0 (originEntries csv) with
  | none =>
    rw [refused] at spec
    obtain ⟨policy, done, _⟩ := spec
    have within := allowed.mp refused
    constructor
    · intro ⟨message, failed⟩
      rw [done] at failed
      contradiction
    · intro excess
      cases excess with
      | inl many => omega
      | inr wildcard => exact absurd wildcard within.2
  | some message =>
    rw [refused] at spec
    refine ⟨fun _ => ?_, fun _ => ⟨message, spec⟩⟩
    by_contra neither
    rw [not_or, Nat.not_lt] at neither
    have taken := allowed.mpr neither
    rw [refused] at taken
    contradiction

/-- A policy that `ps_cors_policy_init` makes has the entries of the list. -/
theorem entries_of_corsPolicyInit {csv : Bytes} {allowCredentials : Bool} {policy : CorsPolicy}
    (free : (0 : UInt8) ∉ csv) (done : corsPolicyInit csv allowCredentials = .ok policy) :
    policy.entries = originEntries csv := by
  have spec := corsPolicyInit_spec free allowCredentials
  cases refused : refusal allowCredentials 0 (originEntries csv) with
  | none =>
    rw [refused] at spec
    obtain ⟨same, made, listed, _⟩ := spec
    rw [done] at made
    rw [Except.ok.inj made]
    exact listed
  | some message =>
    rw [refused, done] at spec
    contradiction

/-- A response without the preflight headers has no texts in them. -/
theorem plainTexts_of_none {response : Response} (methods : response.corsAllowMethods = none)
    (headers : response.corsAllowHeaders = none) : PlainTexts response := by
  refine ⟨fun text stored => ?_, fun text stored => ?_⟩
  · rw [methods] at stored
    contradiction
  · rw [headers] at stored
    contradiction

/-- The response to OPTIONS and the responses of the handlers are exact. -/
theorem exact_answerResponse {policy : CorsPolicy} {request : Request} {answer : Answer}
    (keepAlive : Bool) (dispatch : Int → List RouteParam → Api.HandlerResult)
    (served : Dispatched answer)
    (short : ∀ entry ∈ policy.entries, entry.length < originBufLen ∧ (0 : UInt8) ∉ entry)
    (uncut : ∀ header ∈ request.headers, Uncut header.value) :
    Exact policy.entries request (answerResponse policy request keepAlive dispatch answer) := by
  cases answer with
  | options status =>
    unfold answerResponse
    by_cases on : policy.enabled = true
    · rw [if_pos on]
      exact exact_applyCors true rfl (plainTexts_of_none rfl rfl) short uncut
    · rw [if_neg on]
      exact exact_of_none rfl (plainTexts_of_none rfl rfl)
        (allowedOrigin_of_disabled (Bool.eq_false_iff.mpr on) request)
  | dispatched routeId params =>
    exact exact_applyCors false rfl (plainTexts_of_none rfl rfl) short uncut
  | notFound => exact served.elim
  | methodNotAllowed => exact served.elim

/-- The origin list is read exactly, by both readers, and what it allows goes out exactly. -/
theorem cors_exact {csv : Bytes} (free : (0 : UInt8) ∉ csv) (fits : csv.length < strMax)
    (allowCredentials : Bool) :
    ((∃ message, corsPolicyInit csv allowCredentials = .error message) ↔
      corsMaxOrigins < (originEntries csv).length ∨
        allowCredentials = true ∧ [42] ∈ originEntries csv) ∧
    (corsOriginsContainsWildcard csv = true ↔ [42] ∈ originEntries csv) ∧
    ∀ policy, corsPolicyInit csv allowCredentials = .ok policy →
      policy.entries = originEntries csv ∧
      ∀ limits data request consumed, parse limits data = .ok request consumed →
        ∀ keepAlive dispatch answer, Dispatched answer →
          Exact (originEntries csv) request
            (answerResponse policy request keepAlive dispatch answer) := by
  refine ⟨corsPolicyInit_fails_iff free allowCredentials, ?_, ?_⟩
  · unfold corsOriginsContainsWildcard
    rw [cString_eq_self free, wildcardLoop_eq, decide_eq_true_eq]
  · intro policy done
    have entries := entries_of_corsPolicyInit free done
    have short : ∀ entry ∈ policy.entries, entry.length < originBufLen ∧ (0 : UInt8) ∉ entry := by
      intro entry member
      rw [entries] at member
      have part : entry <:+: csv := infix_of_mem_fields member
      exact ⟨Nat.lt_of_le_of_lt part.length_le fits, fun stored => free (part.subset stored)⟩
    refine ⟨entries, ?_⟩
    intro limits data request consumed parsed keepAlive dispatch answer served
    rw [← entries]
    exact exact_answerResponse keepAlive dispatch served short (uncut_of_parse parsed)

/-- A list with blanks and an empty entry. -/
def sampleList : Bytes := ascii " https://app.example ,, https://b.example"

/-- The text of a preflight request. -/
def samplePreflight : Bytes :=
  ascii "OPTIONS /x HTTP/1.1\r\nHost: h\r\nOrigin: https://b.example\r\n\r\n"

/-- The preflight request. -/
def sampleRequest : Request :=
  ⟨ascii "OPTIONS", ascii "/x", none, 1,
    [⟨ascii "Host", ascii "h"⟩, ⟨ascii "Origin", ascii "https://b.example"⟩], none⟩

/-- The second origin of a list is echoed to a preflight request. -/
theorem second_origin_echoed :
    allowedOrigin (originEntries sampleList) sampleRequest = some (ascii "https://b.example") ∧
      ∃ policy, corsPolicyInit sampleList true = .ok policy ∧
        Exact (originEntries sampleList) sampleRequest (answerResponse policy sampleRequest true
          (fun _ _ => Api.internalErrorResult) (.options 204)) := by
  have free : (0 : UInt8) ∉ sampleList := by decide +kernel
  have fits : sampleList.length < strMax := by decide +kernel
  have exact' := cors_exact free fits true
  have parsed : parse ⟨100, 100, 10, 10⟩ samplePreflight =
      .ok sampleRequest samplePreflight.length := by decide +kernel
  refine ⟨by decide +kernel, ?_⟩
  cases made : corsPolicyInit sampleList true with
  | error message =>
    have excess := exact'.1.mp ⟨message, made⟩
    have within : ¬(corsMaxOrigins < (originEntries sampleList).length ∨
        true = true ∧ [42] ∈ originEntries sampleList) := by decide +kernel
    exact absurd excess within
  | ok policy =>
    have served := (exact'.2.2 policy made).2 _ _ _ _ parsed true (fun _ _ => Api.internalErrorResult)
      (.options 204) trivial
    exact ⟨policy, rfl, served⟩

end PlatformService.Verif.CorsHeaders
