import PlatformService.Verif.RequestText

/-!
# Line and string terminators in a request

The parser ends a line at CRLF alone. The method and the header names are tokens, so
they hold no CR, LF or NUL; the target and the header values are taken as they are. An
accepted request is free of these octets exactly when the lines of its head are.
-/

namespace PlatformService.Verif.Terminators

open Lib Http CorsHeaders RequestText

/-- A text without CR, LF and NUL. -/
def Plain (text : Bytes) : Prop := ∀ c ∈ text, c ≠ 13 ∧ c ≠ 10 ∧ c ≠ 0

/-- The texts of a request in front of its body. -/
def carried (request : Request) : List Bytes :=
  request.method :: request.path :: (request.query.toList ++
    request.headers.flatMap fun header => [header.name, header.value])

/-- A text is plain if its parts are. -/
theorem plain_append {text more : Bytes} : Plain (text ++ more) ↔ Plain text ∧ Plain more :=
  List.forall_mem_append

/-- A text is plain if its first octet and the others are. -/
theorem plain_cons {first : UInt8} {text : Bytes} :
    Plain (first :: text) ↔ (first ≠ 13 ∧ first ≠ 10 ∧ first ≠ 0) ∧ Plain text :=
  List.forall_mem_cons

/-- A token is plain. -/
theorem plain_of_token {token : Bytes} (chars : ∀ c ∈ token, isTchar c = true) : Plain token := by
  intro c member
  have char := chars c member
  refine ⟨?_, ?_, ?_⟩
  all_goals
    intro same
    rw [same] at char
    contradiction

/-- Blanks are plain. -/
theorem plain_of_blanks {blanks : Bytes} (all : ∀ c ∈ blanks, isSpOrHtab c = true) : Plain blanks := by
  intro c member
  have blank := all c member
  refine ⟨?_, ?_, ?_⟩
  all_goals
    intro same
    rw [same] at blank
    contradiction

/-- A target is plain if its path and its query are. -/
theorem plain_target (target : Bytes) :
    Plain target ↔ Plain (pathOf target) ∧ ∀ query ∈ queryOf target, Plain query := by
  unfold queryOf
  by_cases asks : (pathOf target).length < target.length
  · have whole : target = pathOf target ++ 63 :: target.drop ((pathOf target).length + 1) := split_at asks
    rw [if_pos asks]
    conv_lhs => rw [whole, plain_append, plain_cons]
    simp only [Option.mem_def, Option.some.injEq, forall_eq']
    exact and_congr_right fun _ => and_iff_right (by decide)
  · have whole : pathOf target = target := by
      apply (List.takeWhile_prefix _).eq_of_length
      have short := (List.takeWhile_prefix (l := target) fun c => decide (c ≠ 63)).length_le
      unfold pathOf at asks
      omega
    rw [if_neg asks, whole]
    exact ⟨fun plain => ⟨plain, fun _ member => absurd member (by simp)⟩, fun both => both.1⟩

/-- A shaped request line is plain if its target is. -/
theorem plain_lineText {method target : Bytes} {minorVersion : Nat}
    (shaped : LineShaped method target minorVersion) :
    Plain (lineText method target minorVersion) ↔ Plain target := by
  have token := plain_of_token shaped.token
  have version : Plain (versionText minorVersion) := by
    unfold versionText
    split
    · unfold Plain
      decide +kernel
    · unfold Plain
      decide +kernel
  unfold lineText
  rw [plain_append, plain_cons, plain_append, plain_cons]
  constructor
  · exact fun whole => whole.2.2.1
  · exact fun plain => ⟨token, by decide +kernel, plain, by decide +kernel, version⟩

/-- The line of a shaped header is plain if the value is. -/
theorem plain_write {text : HeaderText} (shaped : text.Shaped) :
    Plain text.write ↔ Plain text.name ∧ Plain text.value := by
  have leading := plain_of_blanks shaped.leading
  have trailing := plain_of_blanks shaped.trailing
  unfold HeaderText.write
  rw [plain_append, plain_cons, plain_append, plain_append]
  constructor
  · exact fun whole => ⟨whole.1, whole.2.2.2.1⟩
  · exact fun parts => ⟨parts.1, by decide, leading, parts.2, trailing⟩

/-- The lines of an accepted head. -/
theorem headLines_write {parts : Parts} (shaped : parts.Shaped) :
    headLines parts.write = parts.line :: parts.lines := by
  have filled : parts.line ≠ [] := List.append_ne_nil_of_left_ne_nil shaped.line.named _
  have text : parts.write = joinLines (parts.line :: parts.lines) ++ (crlf ++ parts.rest) := by
    unfold Parts.write headText joinLines
    rw [List.flatMap_cons, List.append_assoc, List.append_assoc]
  rw [text]
  apply headLines_joinLines
  · exact List.forall_mem_cons.mpr ⟨shaped.uncutLine, shaped.uncutLines⟩
  · exact List.forall_mem_cons.mpr ⟨filled, shaped.filled⟩

/-- The body stage changes the body alone. -/
theorem carried_parseBody {limits : Limits} {data : Bytes} {afterHeaders : Nat}
    {request accepted : Request} {contentLength : Option Nat} {consumed : Nat}
    (done : parseBody limits data afterHeaders request contentLength = .ok accepted consumed) :
    carried accepted = carried request := by
  unfold parseBody at done
  dsimp only at done
  split at done
  · cases done
    rfl
  split at done
  · contradiction
  split at done
  · contradiction
  · cases done
    rfl

/-- An accepted request holds no CR, LF or NUL in front of its body if and only if no line of its head
does. -/
theorem plain_iff_head (limits : Limits) (data : Bytes) (request : Request) (consumed : Nat)
    (accepted : parse limits data = .ok request consumed) :
    (∀ text ∈ carried request, Plain text) ↔ ∀ line ∈ headLines data, Plain line := by
  obtain ⟨parts, state, shaped, written, _, listed, _, body⟩ := parse_ok accepted
  have token := plain_of_token shaped.line.token
  have lines : (∀ line ∈ parts.lines, Plain line) ↔
      ∀ text ∈ parts.texts, Plain text.name ∧ Plain text.value := by
    unfold Parts.lines
    rw [List.forall_mem_map]
    exact forall₂_congr fun text member => plain_write (shaped.texts text member)
  have headers : (∀ text ∈ (parts.texts.map HeaderText.header).flatMap fun header =>
      [header.name, header.value], Plain text) ↔
      ∀ text ∈ parts.texts, Plain text.name ∧ Plain text.value := by
    rw [List.flatMap_map]
    constructor
    · intro plain text member
      refine ⟨plain _ ?_, plain _ ?_⟩
      · exact List.mem_flatMap.mpr ⟨text, member, List.mem_cons_self⟩
      · exact List.mem_flatMap.mpr ⟨text, member, List.mem_cons_of_mem _ List.mem_cons_self⟩
    · intro plain line member
      obtain ⟨text, stored, here⟩ := List.mem_flatMap.mp member
      have both := plain text stored
      cases List.mem_cons.mp here with
      | inl name =>
        rw [name]
        exact both.1
      | inr value =>
        rw [List.mem_singleton.mp value]
        exact both.2
  rw [carried_parseBody body, written, headLines_write shaped]
  unfold carried assemble Parts.requestLine Parts.line
  dsimp only
  rw [listed, List.forall_mem_cons, List.forall_mem_cons, List.forall_mem_cons, List.forall_mem_append,
    headers, plain_lineText shaped.line, plain_target parts.target, lines]
  constructor
  · intro ⟨_, path, query, rest⟩
    exact ⟨⟨path, fun text member => query text (Option.mem_toList.mpr member)⟩, rest⟩
  · intro ⟨⟨path, query⟩, rest⟩
    exact ⟨token, path, fun text member => query text (Option.mem_toList.mp member), rest⟩

/-- Limits of the inputs below. -/
def sampleLimits : Limits := ⟨64, 64, 4, 64⟩

/-- A request whose target holds a line feed. -/
def bareLineFeed : Bytes := ascii "GET /a\nb HTTP/1.1\r\n\r\n"

/-- A request with a line feed in its target is accepted, line feed included. -/
theorem bare_line_feed_accepted :
    ¬∀ limits data request consumed, parse limits data = .ok request consumed →
      ∀ text ∈ carried request, Plain text := by
  intro all
  have accepted : parse sampleLimits bareLineFeed =
      .ok ⟨ascii "GET", ascii "/a\nb", none, 1, [], none⟩ 21 := by decide +kernel
  have plain := all _ _ _ _ accepted (ascii "/a\nb") (List.mem_cons_of_mem _ List.mem_cons_self)
  exact (plain 10 (by decide)).2.1 rfl

/-- The equivalence on a request with a header. -/
theorem plain_iff_head_of_host :
    let request : Request := ⟨ascii "GET", ascii "/", none, 1, [⟨ascii "Host", ascii "a"⟩], none⟩
    (∀ text ∈ carried request, Plain text) ↔
      ∀ line ∈ headLines (ascii "GET / HTTP/1.1\r\nHost: a\r\n\r\n"), Plain line :=
  plain_iff_head sampleLimits (ascii "GET / HTTP/1.1\r\nHost: a\r\n\r\n") _ 27 (by decide +kernel)

end PlatformService.Verif.Terminators
