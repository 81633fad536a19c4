import PlatformService.Http.RouteCursors
import PlatformService.Verif.Slices

/-!
# Routes and segments

The router's loop keeps a cursor in the pattern and one in the path. Between two turns both
stand at a slash or at the end, so what lies ahead of them is a list of segments, and a
turn takes one segment off each list. Over a whole table the first route that matches and
has the method wins, and a match without the method is remembered.
-/

namespace PlatformService.Verif.RouteSegments

open Lib Http

section Reference

/-- The name in a segment `{name}`. -/
def captureName : Bytes → Option Bytes
  | [] => none
  | c :: rest => if c = 123 ∧ rest.getLast? = some 125 then some rest.dropLast else none

/-- A segment of a pattern that faces a segment of a path. -/
abbrev Facing : Type := Bytes × Bytes

/-- Whether a literal faces itself, or a capture something that is not empty. -/
def Facing.Fits (facing : Facing) : Prop :=
  if (captureName facing.1).isSome then facing.2 ≠ [] else facing.1 = facing.2

instance (facing : Facing) : Decidable facing.Fits := inferInstanceAs (Decidable (ite ..))

/-- What a segment captures of the segment it faces. -/
def Facing.capture (facing : Facing) : Option RouteParam :=
  (captureName facing.1).map fun name => ⟨name, facing.2⟩

/-- The segments of a pattern with the segments of a path. -/
def facings (pattern path : Bytes) : List Facing := (pattern.splitOn 47).zip (path.splitOn 47)

/-- What a pattern captures of a path. -/
def captures (pattern path : Bytes) : List RouteParam :=
  (facings pattern path).filterMap Facing.capture

/-- A pattern and a path that match, split at every slash. -/
structure Matching (pattern path : Bytes) : Prop where
  patternSlash : pattern.head? = some 47
  pathSlash : path.head? = some 47
  sameCount : (pattern.splitOn 47).length = (path.splitOn 47).length
  fits : ∀ facing ∈ facings pattern path, facing.Fits
  fewCaptures : (captures pattern path).length ≤ maxParams

instance (pattern path : Bytes) : Decidable (Matching pattern path) :=
  decidable_of_iff (pattern.head? = some 47 ∧ path.head? = some 47 ∧
      (pattern.splitOn 47).length = (path.splitOn 47).length ∧
      (∀ facing ∈ facings pattern path, facing.Fits) ∧
      (captures pattern path).length ≤ maxParams)
    ⟨fun ⟨patternSlash, pathSlash, sameCount, fits, fewCaptures⟩ =>
        ⟨patternSlash, pathSlash, sameCount, fits, fewCaptures⟩,
      fun matching => ⟨matching.patternSlash, matching.pathSlash, matching.sameCount, matching.fits,
        matching.fewCaptures⟩⟩

/-- A route whose pattern matches a path. -/
def matchesPath (path : Bytes) (route : RouteEntry) : Bool := decide (Matching route.pattern path)

/-- A route that matches a path and has a method. -/
def serves (method path : Bytes) (route : RouteEntry) : Bool :=
  matchesPath path route && decide (route.method = method)

/-- The first route that serves a request; else whether any route matches its path. -/
def segmentRoute (routes : List RouteEntry) (method path : Bytes) : RouteMatch :=
  match routes.find? (serves method path) with
  | some route => .matched route.routeId (captures route.pattern path)
  | none => if routes.any (matchesPath path) then .methodNotAllowed else .notFound

end Reference

section Segments

/-- The segments behind a slash are the one up to the next slash, and those from there on. -/
theorem segments_slash (rest : Bytes) :
    segments (47 :: rest) =
      (segments (rest.dropWhile inSegment)).map (rest.takeWhile inSegment :: ·) := by
  have parts : rest.takeWhile inSegment ++ rest.dropWhile inSegment = rest :=
    List.takeWhile_append_dropWhile
  have uncut : (47 : UInt8) ∉ rest.takeWhile inSegment := by
    intro inside
    have passed := List.mem_takeWhile_imp inside
    simp [inSegment] at passed
  have whole : segments (47 :: rest) = some (rest.splitOn 47) := rfl
  rw [whole]
  cases after : rest.dropWhile inSegment with
  | nil =>
    rw [after, List.append_nil] at parts
    rw [parts] at uncut ⊢
    rw [List.splitOn_eq_singleton uncut]
    rfl
  | cons c more =>
    have stops := List.head_dropWhile_not inSegment (l := rest) (by rw [after]; simp)
    have slash : c = 47 := by simpa [after, inSegment] using stops
    rw [after, slash] at parts
    have cut : (rest.takeWhile inSegment ++ 47 :: more).splitOn 47 =
        rest.takeWhile inSegment :: more.splitOn 47 :=
      List.splitOn_append_cons_self_of_not_mem uncut more
    rw [parts] at cut
    rw [cut, slash]
    rfl

/-- A text that is empty or starts with a slash has segments. -/
theorem segments_of_done {data : Bytes} {p : Nat} (done : data.length ≤ p) :
    segments (data.drop p) = some [] := by
  rw [List.drop_eq_nil_of_le done]
  rfl

/-- Ahead of a cursor at a slash: the segment the scan passes, and what follows it. -/
theorem segments_at {data : Bytes} {p : Nat} (slash : data[p]? = some 47) :
    segments (data.drop p) =
      (segments (data.drop (scan inSegment data (p + 1) data.length))).map
        (Slice.read ⟨p + 1, scan inSegment data (p + 1) data.length - (p + 1)⟩ data :: ·) := by
  have bound : p < data.length := (List.getElem?_eq_some_iff.mp slash).1
  have here : data[p] = 47 := (List.getElem?_eq_some_iff.mp slash).2
  have ahead : data.drop p = 47 :: data.drop (p + 1) := by
    rw [List.drop_eq_getElem_cons bound, here]
  have rest : (data.take data.length).drop (scan inSegment data (p + 1) data.length) =
      ((data.take data.length).drop (p + 1)).dropWhile inSegment := Slices.drop_scan inSegment
  have segment : (Slice.between (p + 1) (scan inSegment data (p + 1) data.length)).read data =
      ((data.take data.length).drop (p + 1)).takeWhile inSegment := Slices.read_scan inSegment
  rw [List.take_length] at rest segment
  rw [ahead, segments_slash, ← rest, ← segment]
  rfl

/-- The bound of what a scan passes. -/
theorem scan_le {data : Bytes} {start : Nat} (inside : start ≤ data.length) :
    scan inSegment data start data.length ≤ data.length := by
  have short := (List.takeWhile_prefix inSegment (l := data.drop start)).length_le
  rw [List.length_drop] at short
  unfold scan
  rw [List.take_length]
  omega

/-- The text of a slice. -/
theorem read_eq (start length : Nat) (data : Bytes) :
    Slice.read ⟨start, length⟩ data = (data.drop start).take length := rfl

/-- The length of a slice inside the data. -/
theorem length_read {data : Bytes} {start length : Nat} (inside : start + length ≤ data.length) :
    (Slice.read ⟨start, length⟩ data).length = length := by
  rw [read_eq, List.length_take, List.length_drop]
  omega

/-- The braces at the ends of a slice are the braces of its text. -/
theorem isCapture_read {data : Bytes} {start length : Nat} (inside : start + length ≤ data.length) :
    isCapture (Slice.read ⟨start, length⟩ data) = true ↔
      2 ≤ length ∧ data[start]? = some 123 ∧ data[start + length - 1]? = some 125 := by
  have size := length_read inside
  unfold isCapture
  rw [Bool.and_eq_true, Bool.and_eq_true, decide_eq_true_eq, decide_eq_true_eq, decide_eq_true_eq,
    size, and_assoc]
  apply and_congr_right
  intro two
  have first : (Slice.read ⟨start, length⟩ data).head? = data[start]? := by
    rw [read_eq, List.head?_take, if_neg (by omega), List.head?_drop]
  have last : (Slice.read ⟨start, length⟩ data).getLast? = data[start + length - 1]? := by
    rw [List.getLast?_eq_getElem?, size]
    rw [read_eq, List.getElem?_take_of_lt (by omega), List.getElem?_drop]
    congr 1
    omega
  rw [first, last]

/-- The name between the braces. -/
theorem read_name {data : Bytes} {start length : Nat} (inside : start + length ≤ data.length) :
    Slice.read ⟨start + 1, length - 2⟩ data = (Slice.read ⟨start, length⟩ data).tail.dropLast := by
  rw [read_eq, read_eq, ← List.drop_one, List.drop_take, List.drop_drop, List.dropLast_eq_take, List.length_take,
    List.length_drop, List.take_take]
  congr 1
  omega

/-- What is matched ahead of two cursors. -/
def ahead (pattern path : Bytes) (pp qp : Nat) (params : List RouteParam) :
    Option (List RouteParam) :=
  (segments (pattern.drop pp)).bind fun expected =>
    (segments (path.drop qp)).bind fun given => matchSegments expected given params

/-- Texts that begin elsewhere than at a slash have no segments. -/
theorem segments_of_other {data : Bytes} {p : Nat} (active : p < data.length)
    (other : data[p]? ≠ some 47) : segments (data.drop p) = none := by
  rw [List.getElem?_eq_getElem active] at other
  rw [List.drop_eq_getElem_cons active]
  exact if_neg fun slash => other (congrArg some slash)

/-- A text that goes on has no empty list of segments. -/
theorem segments_ne_nil {data : Bytes} {p : Nat} (active : p < data.length) :
    segments (data.drop p) ≠ some [] := by
  rw [List.drop_eq_getElem_cons active]
  intro empty
  by_cases slash : data[p] = 47
  · rw [slash] at empty
    exact List.splitOn_ne_nil _ _ (Option.some.inj empty)
  · have none : segments (data[p] :: data.drop (p + 1)) = none := if_neg slash
    rw [none] at empty
    contradiction

/-- One cursor at the end and the other before it match nothing. -/
theorem ahead_unequal {pattern path : Bytes} {pp qp : Nat} (params : List RouteParam)
    (unequal : decide (pattern.length ≤ pp) ≠ decide (path.length ≤ qp)) :
    ahead pattern path pp qp params = none := by
  unfold ahead
  by_cases patternDone : pattern.length ≤ pp
  · have pathActive : qp < path.length := by
      by_contra ended
      exact unequal (by rw [decide_eq_true patternDone, decide_eq_true (Nat.le_of_not_lt ended)])
    rw [segments_of_done patternDone]
    cases given : segments (path.drop qp) with
    | none => rfl
    | some list =>
      cases list with
      | nil => exact absurd given (segments_ne_nil pathActive)
      | cons segment rest => rfl
  · have pathDone : path.length ≤ qp := by
      by_contra active
      exact unequal (by rw [decide_eq_false patternDone, decide_eq_false active])
    rw [segments_of_done pathDone]
    cases expected : segments (pattern.drop pp) with
    | none => rfl
    | some list =>
      cases list with
      | nil => exact absurd expected (segments_ne_nil (Nat.lt_of_not_le patternDone))
      | cons segment rest => rfl

/-- At two slashes the next segments face each other. -/
theorem ahead_at {pattern path : Bytes} {pp qp : Nat} (params : List RouteParam)
    (patternSlash : pattern[pp]? = some 47) (pathSlash : path[qp]? = some 47) :
    let patSegEnd := scan inSegment pattern (pp + 1) pattern.length
    let pathSegEnd := scan inSegment path (qp + 1) path.length
    let expected := Slice.read ⟨pp + 1, patSegEnd - (pp + 1)⟩ pattern
    let segment := Slice.read ⟨qp + 1, pathSegEnd - (qp + 1)⟩ path
    ahead pattern path pp qp params =
      if isCapture expected then
        if segment = [] then none
        else if maxParams ≤ params.length then none
        else ahead pattern path patSegEnd pathSegEnd (params ++ [⟨expected.tail.dropLast, segment⟩])
      else if expected = segment then ahead pattern path patSegEnd pathSegEnd params
      else none := by
  dsimp only
  unfold ahead
  rw [segments_at patternSlash, segments_at pathSlash]
  cases segments (pattern.drop (scan inSegment pattern (pp + 1) pattern.length)) with
  | none => simp
  | some expected =>
    cases segments (path.drop (scan inSegment path (qp + 1) path.length)) with
    | none => simp
    | some given => rfl

/-- The segment behind a slash is inside the data. -/
theorem segment_inside {data : Bytes} {p : Nat} (slash : data[p]? = some 47) :
    p + 1 + (scan inSegment data (p + 1) data.length - (p + 1)) ≤ data.length := by
  have bound : p < data.length := (List.getElem?_eq_some_iff.mp slash).1
  have ends : scan inSegment data (p + 1) data.length ≤ data.length := scan_le bound
  have forward := le_scan inSegment data (p + 1) data.length
  omega

/-- A slice without length is empty, and no other is. -/
theorem read_eq_nil {data : Bytes} {start length : Nat} (inside : start + length ≤ data.length) :
    Slice.read ⟨start, length⟩ data = [] ↔ length = 0 := by
  rw [← List.length_eq_zero_iff, length_read inside]

/-- Slices have one text when they are equally long and `memcmp` finds no difference. -/
theorem read_eq_read {pattern path : Bytes} {p q length other : Nat}
    (insidePattern : p + length ≤ pattern.length) (insidePath : q + other ≤ path.length) :
    Slice.read ⟨p, length⟩ pattern = Slice.read ⟨q, other⟩ path ↔
      ¬(length ≠ other ∨ Slice.read ⟨p, length⟩ pattern ≠ Slice.read ⟨q, length⟩ path) := by
  rw [not_or, not_not, not_not]
  constructor
  · intro same
    have sizes := congrArg List.length same
    rw [length_read insidePattern, length_read insidePath] at sizes
    exact ⟨sizes, by rw [same, sizes]⟩
  · intro ⟨sizes, same⟩
    rw [same, sizes]

/-- The loop matches the segments ahead of its cursors. -/
theorem matchLoop_eq (pattern path : Bytes) (pp qp : Nat) (params : List ParamSlices) :
    (matchLoop pattern path pp qp params).map (·.map (·.read pattern path)) =
      ahead pattern path pp qp (params.map (·.read pattern path)) := by
  fun_induction matchLoop pattern path pp qp params with
  | case1 pp qp params unequal => exact (ahead_unequal _ unequal).symm
  | case2 pp qp params equal done =>
    have pathDone : path.length ≤ qp := by
      by_contra active
      exact equal (by rw [decide_eq_true done, decide_eq_false active]; decide)
    unfold ahead
    rw [segments_of_done done, segments_of_done pathDone]
    rfl
  | case3 pp qp params equal active other =>
    have pathActive : qp < path.length := by
      by_contra ended
      exact equal (by rw [decide_eq_false active, decide_eq_true (Nat.le_of_not_lt ended)]; decide)
    unfold ahead
    cases other with
    | inl patternOther => rw [segments_of_other (Nat.lt_of_not_le active) patternOther]; rfl
    | inr pathOther =>
      rw [segments_of_other pathActive pathOther]
      exact (Option.bind_fun_none _).symm
  | case4 pp qp params equal active slashes start stop length start' stop' length' braces empty =>
    have slash := not_or.mp slashes
    have patternInside := segment_inside (not_not.mp slash.1)
    have pathInside := segment_inside (not_not.mp slash.2)
    rw [ahead_at _ (not_not.mp slash.1) (not_not.mp slash.2),
      if_pos ((isCapture_read patternInside).mpr braces), if_pos ((read_eq_nil pathInside).mpr empty)]
    rfl
  | case5 pp qp params equal active slashes start stop length start' stop' length' braces filled full =>
    have slash := not_or.mp slashes
    have patternInside := segment_inside (not_not.mp slash.1)
    have pathInside := segment_inside (not_not.mp slash.2)
    rw [ahead_at _ (not_not.mp slash.1) (not_not.mp slash.2),
      if_pos ((isCapture_read patternInside).mpr braces),
      if_neg (mt (read_eq_nil pathInside).mp filled), List.length_map, if_pos full]
    rfl
  | case6 pp qp params equal active slashes start stop length start' stop' length' braces filled room
      ih =>
    have slash := not_or.mp slashes
    have patternInside := segment_inside (not_not.mp slash.1)
    have pathInside := segment_inside (not_not.mp slash.2)
    rw [ahead_at _ (not_not.mp slash.1) (not_not.mp slash.2),
      if_pos ((isCapture_read patternInside).mpr braces),
      if_neg (mt (read_eq_nil pathInside).mp filled), List.length_map, if_neg room, ih,
      List.map_append, List.map_singleton, ← read_name patternInside]
    rfl
  | case7 pp qp params equal active slashes start stop length start' stop' length' literal differs =>
    have slash := not_or.mp slashes
    have patternInside := segment_inside (not_not.mp slash.1)
    have pathInside := segment_inside (not_not.mp slash.2)
    rw [ahead_at _ (not_not.mp slash.1) (not_not.mp slash.2),
      if_neg (mt (isCapture_read patternInside).mp literal),
      if_neg (mt (read_eq_read patternInside pathInside).mp (not_not.mpr differs))]
    rfl
  | case8 pp qp params equal active slashes start stop length start' stop' length' literal same ih =>
    have slash := not_or.mp slashes
    have patternInside := segment_inside (not_not.mp slash.1)
    have pathInside := segment_inside (not_not.mp slash.2)
    rw [ahead_at _ (not_not.mp slash.1) (not_not.mp slash.2),
      if_neg (mt (isCapture_read patternInside).mp literal),
      if_pos ((read_eq_read patternInside pathInside).mpr same), ih]

end Segments

section Matching

/-- The router's test for braces finds the segments that have a name. -/
theorem captureName_eq (segment : Bytes) :
    captureName segment = if isCapture segment then some segment.tail.dropLast else none := by
  cases segment with
  | nil => rfl
  | cons c rest =>
    have unfolded : captureName (c :: rest) =
        if c = 123 ∧ rest.getLast? = some 125 then some rest.dropLast else none := rfl
    have same : isCapture (c :: rest) = true ↔ c = 123 ∧ rest.getLast? = some 125 := by
      cases rest with
      | nil => simp [isCapture]
      | cons d more => simp [isCapture, List.getLast?_cons_cons]
    rw [unfolded]
    by_cases braces : c = 123 ∧ rest.getLast? = some 125
    · rw [if_pos braces, if_pos (same.mpr braces)]
      rfl
    · rw [if_neg braces, if_neg (mt same.mp braces)]

/-- What a capturing segment needs and gives. -/
theorem facing_of_capture {expected : Bytes} (segment : Bytes) (braces : isCapture expected = true) :
    (Facing.Fits (expected, segment) ↔ segment ≠ []) ∧
      Facing.capture (expected, segment) = some ⟨expected.tail.dropLast, segment⟩ := by
  unfold Facing.Fits Facing.capture
  dsimp only
  rw [captureName_eq, if_pos braces]
  exact ⟨Iff.rfl, rfl⟩

/-- What a literal segment needs and gives. -/
theorem facing_of_literal {expected : Bytes} (segment : Bytes) (literal : ¬isCapture expected = true) :
    (Facing.Fits (expected, segment) ↔ expected = segment) ∧
      Facing.capture (expected, segment) = none := by
  unfold Facing.Fits Facing.capture
  dsimp only
  rw [captureName_eq, if_neg literal]
  exact ⟨Iff.rfl, rfl⟩

/-- The recursion over the segments takes equally many that fit, while there is room for captures. -/
theorem matchSegments_eq_some_iff (pattern path : List Bytes) (params result : List RouteParam) :
    matchSegments pattern path params = some result ↔
      pattern.length = path.length ∧ (∀ facing ∈ pattern.zip path, Facing.Fits facing) ∧
        ((pattern.zip path).filterMap Facing.capture = [] ∨
          params.length + ((pattern.zip path).filterMap Facing.capture).length ≤ maxParams) ∧
        result = params ++ (pattern.zip path).filterMap Facing.capture := by
  fun_induction matchSegments pattern path params with
  | case1 params => simp [eq_comm]
  | case2 expected pattern path params braces =>
    have needs := (facing_of_capture [] braces).1
    simp [needs]
  | case3 expected pattern segment path params braces filled full =>
    have taken := (facing_of_capture segment braces).2
    rw [List.zip_cons_cons, List.filterMap_cons_some taken]
    constructor
    · intro refused
      contradiction
    · intro ⟨_, _, room, _⟩
      cases room with
      | inl nothing => contradiction
      | inr room =>
        rw [List.length_cons] at room
        omega
  | case4 expected pattern segment path params braces filled room ih =>
    have needs := (facing_of_capture segment braces).1
    have taken := (facing_of_capture segment braces).2
    rw [ih, List.zip_cons_cons, List.filterMap_cons_some taken, List.forall_mem_cons, needs,
      List.length_append, List.length_singleton, List.append_assoc, List.length_cons,
      List.length_cons, List.length_cons, List.singleton_append, Nat.add_right_cancel_iff]
    constructor
    · intro ⟨count, fits, few, same⟩
      refine ⟨count, ⟨filled, fits⟩, Or.inr ?_, same⟩
      cases few with
      | inl nothing =>
        rw [nothing, List.length_nil]
        omega
      | inr few => omega
    · intro ⟨count, fits, few, same⟩
      refine ⟨count, fits.2, Or.inr ?_, same⟩
      cases few with
      | inl nothing => contradiction
      | inr few => omega
  | case5 pattern segment path params literal ih =>
    have needs := (facing_of_literal segment literal).1
    have nothing := (facing_of_literal segment literal).2
    rw [ih, List.zip_cons_cons, List.filterMap_cons_none nothing, List.forall_mem_cons, needs,
      List.length_cons, List.length_cons, Nat.add_right_cancel_iff]
    simp
  | case6 expected pattern segment path params literal differs =>
    have needs := (facing_of_literal segment literal).1
    rw [List.zip_cons_cons, List.forall_mem_cons, needs]
    simp [differs]
  | case7 pattern path params noneLeft noPair =>
    constructor
    · intro refused
      contradiction
    · intro ⟨count, _⟩
      cases pattern with
      | nil => exact (noneLeft rfl (List.length_eq_zero_iff.mp count.symm)).elim
      | cons expected rest =>
        cases path with
        | nil => contradiction
        | cons segment given => exact (noPair _ _ _ _ rfl rfl).elim

/-- Splitting a text that starts with a slash gives an empty segment and those behind the slash. -/
theorem splitOn_slash (rest : Bytes) : (47 :: rest : Bytes).splitOn 47 = [] :: rest.splitOn 47 :=
  List.splitOn_append_cons_self [] rest

/-- The empty segments in front of the first slashes fit and capture nothing. -/
theorem facings_slash (pattern path : Bytes) :
    facings (47 :: pattern) (47 :: path) =
      ([], []) :: (pattern.splitOn 47).zip (path.splitOn 47) := by
  unfold facings
  rw [splitOn_slash, splitOn_slash]
  rfl

/-- The segments ahead of two cursors at the beginning are the segments of the reference. -/
theorem ahead_start_eq_some_iff {pattern path : Bytes} (starts : pattern.head? = some 47)
    (params : List RouteParam) :
    ahead pattern path 0 0 [] = some params ↔
      Matching pattern path ∧ params = captures pattern path := by
  cases pattern with
  | nil => contradiction
  | cons c pattern =>
    have slash : c = 47 := Option.some.inj starts
    rw [slash]
    cases path with
    | nil =>
      constructor
      · intro found
        have refused : ahead (47 :: pattern) [] 0 0 [] = none := ahead_unequal [] (by simp)
        rw [refused] at found
        contradiction
      · intro ⟨matching, _⟩
        exact absurd matching.pathSlash (by simp)
    | cons d path =>
      by_cases slash' : d = 47
      · rw [slash']
        have run : ahead (47 :: pattern) (47 :: path) 0 0 [] =
            matchSegments (pattern.splitOn 47) (path.splitOn 47) [] := rfl
        have caught : captures (47 :: pattern) (47 :: path) =
            ((pattern.splitOn 47).zip (path.splitOn 47)).filterMap Facing.capture := by
          unfold captures
          rw [facings_slash]
          rfl
        rw [run, matchSegments_eq_some_iff, ← caught, List.nil_append, List.length_nil, Nat.zero_add]
        constructor
        · intro ⟨count, fits, few, same⟩
          refine ⟨⟨rfl, rfl, ?_, ?_, ?_⟩, same⟩
          · rw [splitOn_slash, splitOn_slash, List.length_cons, List.length_cons, count]
          · rw [facings_slash, List.forall_mem_cons]
            exact ⟨rfl, fits⟩
          · cases few with
            | inl nothing => rw [nothing]; decide
            | inr few => exact few
        · intro ⟨matching, same⟩
          have count := matching.sameCount
          have fits := matching.fits
          rw [splitOn_slash, splitOn_slash, List.length_cons, List.length_cons,
            Nat.add_right_cancel_iff] at count
          rw [facings_slash, List.forall_mem_cons] at fits
          exact ⟨count, fits.2, Or.inr matching.fewCaptures, same⟩
      · constructor
        · intro found
          have other : segments (d :: path) = none := if_neg slash'
          have refused : ahead (47 :: pattern) (d :: path) 0 0 [] = none := by
            unfold ahead
            rw [List.drop_zero, List.drop_zero, other]
            exact Option.bind_fun_none _
          rw [refused] at found
          contradiction
        · intro ⟨matching, _⟩
          exact absurd (Option.some.inj matching.pathSlash) slash'

end Matching

section Tables

/-- `match_path` finds the captures of the patterns that match. -/
theorem matchLoop_eq_reference {pattern : Bytes} (starts : pattern.head? = some 47) (path : Bytes) :
    (matchLoop pattern path 0 0 []).map (·.map (·.read pattern path)) =
      if Matching pattern path then some (captures pattern path) else none := by
  have loop := matchLoop_eq pattern path 0 0 []
  rw [List.map_nil] at loop
  rw [loop]
  by_cases matching : Matching pattern path
  · rw [if_pos matching]
    exact (ahead_start_eq_some_iff starts _).mpr ⟨matching, rfl⟩
  · rw [if_neg matching, Option.eq_none_iff_forall_ne_some]
    intro params found
    exact matching ((ahead_start_eq_some_iff starts params).mp found).1

/-- Every registered pattern starts with a slash. -/
theorem starts_of_registered {routes : List RouteEntry} (registered : Registered routes) :
    ∀ route ∈ routes, route.pattern.head? = some 47 := by
  induction registered with
  | init => simp
  | @add routes after method pattern routeId errlen _ added ih =>
    unfold routerAdd at added
    dsimp only at added
    by_cases unreported : errlen = 0
    · rw [if_pos unreported] at added
      contradiction
    rw [if_neg unreported] at added
    by_cases full : maxRoutes ≤ routes.length
    · rw [if_pos full] at added
      contradiction
    rw [if_neg full] at added
    by_cases badMethod : (cString method).length = 0 ∨ methodMax ≤ (cString method).length
    · rw [if_pos badMethod] at added
      contradiction
    rw [if_neg badMethod] at added
    by_cases badPattern : (cString pattern).length = 0 ∨ patternMax ≤ (cString pattern).length ∨
        (cString pattern).head? ≠ some 47
    · rw [if_pos badPattern] at added
      contradiction
    rw [if_neg badPattern] at added
    have appended : routes ++ [⟨cString method, cString pattern, routeId⟩] = after :=
      Except.ok.inj added
    intro route stored
    rw [← appended, List.mem_append, List.mem_singleton] at stored
    cases stored with
    | inl old => exact ih route old
    | inr new =>
      rw [new]
      exact not_not.mp (not_or.mp (not_or.mp badPattern).2).2

/-- The loop over the routes, in terms of the routes that match. -/
theorem routerMatchLoop_eq (method path : Bytes) {routes : List RouteEntry} (matched : Bool)
    (starts : ∀ route ∈ routes, route.pattern.head? = some 47) :
    routerMatchLoop method path matched routes =
      match routes.find? (serves method path) with
      | some route => .matched route.routeId (captures route.pattern path)
      | none => if matched || routes.any (matchesPath path) then .methodNotAllowed else .notFound := by
  induction routes generalizing matched with
  | nil =>
    unfold routerMatchLoop
    rw [List.find?_nil, List.any_nil, Bool.or_false]
  | cons route routes ih =>
    have first := starts route List.mem_cons_self
    have rest := fun matched => ih matched fun route stored => starts route (List.mem_cons_of_mem _ stored)
    have reference := matchLoop_eq_reference first path
    unfold routerMatchLoop
    by_cases matching : Matching route.pattern path
    · have fits : matchesPath path route = true := decide_eq_true matching
      rw [if_pos matching] at reference
      cases found : matchLoop route.pattern path 0 0 [] with
      | none =>
        rw [found] at reference
        contradiction
      | some params =>
        rw [found] at reference
        have caught : params.map (·.read route.pattern path) = captures route.pattern path :=
          Option.some.inj reference
        dsimp only
        by_cases own : route.method = method
        · have here : serves method path route = true := by
            unfold serves
            rw [fits, decide_eq_true own]
            rfl
          rw [if_pos own, caught, List.find?_cons_of_pos here]
        · have passed : ¬serves method path route = true := by
            unfold serves
            rw [fits, decide_eq_false own]
            decide
          rw [if_neg own, rest, List.find?_cons_of_neg passed, List.any_cons, fits, Bool.true_or,
            Bool.or_true]
    · have unfit : matchesPath path route = false := decide_eq_false matching
      have passed : ¬serves method path route = true := by
        unfold serves
        rw [unfit]
        exact Bool.false_ne_true
      rw [if_neg matching] at reference
      have missed : matchLoop route.pattern path 0 0 [] = none := Option.map_eq_none_iff.mp reference
      rw [missed]
      dsimp only
      rw [rest, List.find?_cons_of_neg passed, List.any_cons, unfit, Bool.false_or]

/-- The router answers as the reference on segments does, on every table built by registration. -/
theorem router_matches_segments {routes : List RouteEntry} (registered : Registered routes)
    (method path : Bytes) : routerMatchCursors routes method path = segmentRoute routes method path :=
  routerMatchLoop_eq method path false (starts_of_registered registered)

/-- A table of one route with a capture. -/
def userRoute : List RouteEntry := [⟨ascii "GET", ascii "/v1/users/\x7buserId\x7d", 4⟩]

/-- The router's answer on a table with one route. -/
theorem router_matches_segments_userRoute :
    routerMatchCursors userRoute (ascii "GET") (ascii "/v1/users/7") =
      segmentRoute userRoute (ascii "GET") (ascii "/v1/users/7") :=
  have added : routerAdd [] (ascii "GET") (ascii "/v1/users/\x7buserId\x7d") 4 256 = .ok userRoute := by
    decide +kernel
  router_matches_segments (.add .init added) (ascii "GET") (ascii "/v1/users/7")

/-- The router the connection loop asks is the router on positions. -/
theorem routerMatchCursors_eq (routes : List RouteEntry) (method path : Bytes) :
    routerMatchCursors routes method path = routerMatch routes method path := by
  have loops : ∀ matched : Bool,
      routerMatchLoop method path matched routes = routerMatchFrom method path matched routes := by
    induction routes with
    | nil => exact fun matched => rfl
    | cons route routes ih =>
      intro matched
      have run := matchLoop_eq route.pattern path 0 0 []
      have whole : ahead route.pattern path 0 0 [] = matchPath route.pattern path := rfl
      rw [List.map_nil, whole] at run
      unfold routerMatchLoop routerMatchFrom
      rw [← run]
      cases matchLoop route.pattern path 0 0 [] with
      | none => exact ih matched
      | some params =>
        dsimp only [Option.map_some]
        rw [ih true]
  exact loops false

end Tables

end PlatformService.Verif.RouteSegments
