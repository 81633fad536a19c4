import Mathlib.Data.List.Basic
import Mathlib.Data.List.GetD
import Mathlib.Tactic.NthRewrite
import PlatformService.Auth.Denylist
import PlatformService.Lib.Bisect
import PlatformService.Verif.Normalization

/-!
# The denylist as a set

Loading turns every line that a newline ends into the text before its terminator, and a
last line without a newline into itself. Sorting makes the bisection exact, so the policy
refuses exactly the lowered passwords among these texts. They are the lines of the file without
their terminators, except where the last line has a CR and no newline.
-/

namespace PlatformService.Verif.Denylist

open Password

section Order

variable {left right candidate : Bytes} {lines : List Bytes}

/-- `strcmp` compares the C strings. -/
theorem strcmp_eq_lt_iff : strcmp left right = .lt ↔ cString left < cString right :=
  compareOfLessAndEq_eq_lt

/-- `strcmp` finds equal C strings equal. -/
theorem strcmp_eq_eq_iff : strcmp left right = .eq ↔ cString left = cString right :=
  compareOfLessAndEq_eq_eq List.le_refl List.not_le

/-- `strcmp` is positive when the second C string is less. -/
theorem strcmp_eq_gt_iff : strcmp left right = .gt ↔ cString right < cString left :=
  compareOfLessAndEq_eq_gt List.le_antisymm List.le_total List.not_le _ _

/-- The order of the sort. -/
theorem compareLines_iff : compareLines left right = true ↔ cString left ≤ cString right := by
  unfold compareLines
  rw [decide_eq_true_eq, Ne, strcmp_eq_gt_iff, List.not_lt]

/-- The sorted lines ascend against every candidate. -/
theorem ascends_of_sorted (sorted : lines.Pairwise fun left right => compareLines left right = true) :
    Lib.Ascends (fun i => strcmp (lines.getD i []) candidate) lines.length := by
  have ordered : ∀ i j, i ≤ j → j < lines.length →
      cString (lines.getD i []) ≤ cString (lines.getD j []) := by
    intro i j before inside
    rw [List.getD_eq_getElem _ _ inside, List.getD_eq_getElem _ _ (by omega)]
    by_cases same : i = j
    · subst same
      exact List.le_refl _
    · exact compareLines_iff.mp (List.pairwise_iff_getElem.mp sorted i j _ _ (by omega))
  refine ⟨fun i j before inside lesser => ?_, fun i j before inside greater => ?_⟩
  · rw [strcmp_eq_lt_iff] at lesser ⊢
    exact List.lt_of_le_of_lt (ordered i j before inside) lesser
  · rw [strcmp_eq_gt_iff] at greater ⊢
    exact Std.lt_of_lt_of_le greater (ordered i j before inside)

/-- The loop of the lookup is a bisection. -/
theorem bisect_eq (steps lo hi : Nat) :
    Password.bisect lines candidate steps lo hi =
      Lib.bisect (fun i => strcmp (lines.getD i []) candidate) steps lo hi := by
  induction steps generalizing lo hi with
  | zero => rfl
  | succ steps ih =>
    unfold Password.bisect Lib.bisect
    by_cases active : lo < hi
    · rw [if_pos active, if_pos active]
      dsimp only
      cases strcmp (lines.getD (lo + (hi - lo) / 2) []) candidate with
      | eq => rfl
      | lt => exact ih _ _
      | gt => exact ih _ _
    · rw [if_neg active, if_neg active]

/-- The lookup in a sorted array finds exactly the C strings it holds. -/
theorem denylistContains_iff (sorted : lines.Pairwise fun left right => compareLines left right = true) :
    denylistContains lines candidate = true ↔ ∃ line ∈ lines, cString line = cString candidate := by
  unfold denylistContains
  rw [bisect_eq, Lib.bisect_eq_true_iff (ascends_of_sorted sorted) (by omega) (Nat.le_refl _)]
  constructor
  · intro ⟨i, _, inside, equal⟩
    rw [List.getD_eq_getElem _ _ inside, strcmp_eq_eq_iff] at equal
    exact ⟨_, List.getElem_mem inside, equal⟩
  · intro ⟨line, stored, equal⟩
    obtain ⟨i, inside, here⟩ := List.mem_iff_getElem.mp stored
    refine ⟨i, Nat.zero_le i, inside, ?_⟩
    rw [List.getD_eq_getElem _ _ inside, strcmp_eq_eq_iff, here]
    exact equal

/-- The sort of the lines. -/
theorem sorted_mergeSort (lines : List Bytes) :
    (lines.mergeSort compareLines).Pairwise fun left right => compareLines left right = true := by
  apply List.pairwise_mergeSort
  · intro first second third one two
    rw [compareLines_iff] at one two ⊢
    exact List.le_trans one two
  · intro first second
    rw [Bool.or_eq_true, compareLines_iff, compareLines_iff]
    exact List.le_total _ _

end Order

section Loading

/-- A line without one CR at its end. -/
def stripCr (line : Bytes) : Bytes := if line.getLast? = some 13 then line.dropLast else line

/-- Lines with the newlines that end them. -/
def terminated (lines : List Bytes) : Bytes := lines.flatMap (· ++ [10])

/-- What a pointer sees once a NUL stands behind it does not depend on what follows. -/
theorem cString_closed {text : Bytes} (closed : (0 : UInt8) ∈ text) (more : Bytes) :
    cString (text ++ more) = cString text := by
  have stops : ¬∀ byte ∈ text, decide (byte ≠ 0) = true := fun all => by simpa using all 0 closed
  unfold cString
  rw [List.takeWhile_append, if_neg]
  intro whole
  exact stops (List.takeWhile_eq_self_iff.mp
    ((List.takeWhile_prefix _).eq_of_length whole))

/-- What the splitting loop has made of the octets before a position: the lines that a newline
ended, and the start of the one that goes on. -/
structure Scanned (content : Bytes) (k : Nat) (scan : LineScan) (earlier : List Bytes)
    (current : Bytes) : Prop where
  done : content.take k = terminated earlier ++ current
  lineFree : ∀ line ∈ earlier, 10 ∉ line
  currentFree : 10 ∉ current
  start : scan.lineStart + current.length = k
  fresh : scan.buf.drop scan.lineStart = (content ++ [0]).drop scan.lineStart
  size : scan.buf.length = content.length + 1
  closed : ∀ pointer ∈ scan.lines, (0 : UInt8) ∈ (scan.buf.take scan.lineStart).drop pointer
  lines : scan.lines.map (fun pointer => cString ((scan.buf.take scan.lineStart).drop pointer)) =
    (earlier.map stripCr).filter (· ≠ [])

/-- Before its first turn the loop has seen nothing. -/
theorem scanned_start (content : Bytes) : Scanned content 0 ⟨content ++ [0], 0, []⟩ [] [] where
  done := rfl
  lineFree := by simp
  currentFree := by simp
  start := rfl
  fresh := rfl
  size := by simp
  closed := by simp
  lines := rfl

/-- The buffer ahead of the line that goes on. -/
theorem Scanned.ahead {content : Bytes} {k : Nat} {scan : LineScan} {earlier : List Bytes}
    {current : Bytes} (scanned : Scanned content k scan earlier current) (inside : k ≤ content.length) :
    scan.buf.drop scan.lineStart = current ++ (content.drop k ++ [0]) := by
  have start := scanned.start
  have front : (content.take k).drop scan.lineStart = current := by
    have size := congrArg List.length scanned.done
    rw [List.length_take_of_le inside, List.length_append] at size
    have before : (terminated earlier).length = scan.lineStart := by omega
    rw [scanned.done, ← before, List.drop_left]
  have whole : content.drop scan.lineStart = current ++ content.drop k := by
    have parts := List.take_append_drop k content
    rw [← front, ← List.drop_append_of_le_length (by rw [List.length_take_of_le inside]; omega), parts]
  rw [scanned.fresh, List.drop_append_of_le_length (by omega), whole, List.append_assoc]

/-- The line that a newline ends, as the loop leaves it: what is before its terminator, and NULs. -/
theorem step_newline {scan : LineScan} {current rest : Bytes} {k : Nat}
    (start : scan.lineStart + current.length = k)
    (ahead : scan.buf.drop scan.lineStart = current ++ 10 :: rest) :
    (scan.step k).lineStart = k + 1 ∧
      (scan.step k).buf.length = scan.buf.length ∧
      (scan.step k).buf.take scan.lineStart = scan.buf.take scan.lineStart ∧
      (∃ nuls, (scan.step k).buf.drop scan.lineStart = stripCr current ++ 0 :: (nuls ++ rest) ∧
        (stripCr current).length + 1 + nuls.length = current.length + 1) ∧
      (scan.step k).lines =
        if (scan.step k).buf[scan.lineStart]? ≠ some 0 then scan.lines ++ [scan.lineStart]
        else scan.lines := by
  have newline : scan.buf[k]? = some 10 := by
    rw [← start, ← List.getElem?_drop, ahead, List.getElem?_append_right (Nat.le_refl _), Nat.sub_self]
    rfl
  have cut : (scan.buf.set k 0).drop scan.lineStart = current ++ 0 :: rest := by
    rw [List.drop_set, if_neg (by omega), ahead, ← start, Nat.add_sub_cancel_left,
      List.set_append_right _ _ (Nat.le_refl _), Nat.sub_self]
    rfl
  have last : 0 < current.length →
      (scan.buf.set k 0)[scan.lineStart + (k - scan.lineStart) - 1]? = current.getLast? := by
    intro filled
    have place : scan.lineStart + (k - scan.lineStart) - 1 = scan.lineStart + (current.length - 1) := by
      omega
    rw [place, ← List.getElem?_drop, cut, List.getElem?_append_left (by omega),
      List.getLast?_eq_getElem?]
  have turn : scan.step k =
      { buf := if 0 < k - scan.lineStart ∧
            (scan.buf.set k 0)[scan.lineStart + (k - scan.lineStart) - 1]? = some 13 then
          (scan.buf.set k 0).set (scan.lineStart + (k - scan.lineStart) - 1) 0 else scan.buf.set k 0
        lineStart := k + 1
        lines := if (scan.step k).buf[scan.lineStart]? ≠ some 0 then scan.lines ++ [scan.lineStart]
          else scan.lines } := by
    have whole : scan.step k = if scan.buf[k]? ≠ some 10 then scan else _ := rfl
    rw [whole, if_neg (not_not.mpr newline)]
  by_cases cr : current.getLast? = some 13
  · have filled : 0 < current.length := by
      cases current with
      | nil => contradiction
      | cons first more => exact Nat.succ_pos _
    have taken : 0 < k - scan.lineStart ∧
        (scan.buf.set k 0)[scan.lineStart + (k - scan.lineStart) - 1]? = some 13 :=
      ⟨by omega, (last filled).trans cr⟩
    have whole := List.dropLast_append_getLast? 13 cr
    have short : current.dropLast.length = current.length - 1 := List.length_dropLast
    have buf : (scan.step k).buf =
        (scan.buf.set k 0).set (scan.lineStart + (k - scan.lineStart) - 1) 0 := by
      rw [turn]
      exact if_pos taken
    refine ⟨congrArg LineScan.lineStart turn, ?_, ?_, ⟨[0], ?_, ?_⟩, congrArg LineScan.lines turn⟩
    · rw [buf, List.length_set, List.length_set]
    · rw [buf, List.take_set_of_le (by omega), List.take_set_of_le (by omega)]
    · have place : scan.lineStart + (k - scan.lineStart) - 1 - scan.lineStart =
          current.dropLast.length := by omega
      unfold stripCr
      rw [buf, List.drop_set, if_neg (by omega), cut, place, if_pos cr]
      nth_rewrite 1 [← whole]
      rw [List.append_assoc, List.set_append_right _ _ (Nat.le_refl _), Nat.sub_self]
      rfl
    · unfold stripCr
      rw [if_pos cr, short, List.length_singleton]
      omega
  · have kept : ¬(0 < k - scan.lineStart ∧
        (scan.buf.set k 0)[scan.lineStart + (k - scan.lineStart) - 1]? = some 13) := by
      intro ⟨filled, found⟩
      rw [last (by omega)] at found
      exact cr found
    have buf : (scan.step k).buf = scan.buf.set k 0 := by
      rw [turn]
      exact if_neg kept
    refine ⟨congrArg LineScan.lineStart turn, ?_, ?_, ⟨[], ?_, ?_⟩, congrArg LineScan.lines turn⟩
    · rw [buf, List.length_set]
    · rw [buf, List.take_set_of_le (by omega)]
    · unfold stripCr
      rw [buf, cut, if_neg cr]
      rfl
    · unfold stripCr
      rw [if_neg cr]
      rfl

/-- A line of a file without NULs has none. -/
theorem stripCr_free {line : Bytes} (free : (0 : UInt8) ∉ line) : (0 : UInt8) ∉ stripCr line := by
  unfold stripCr
  split
  · exact fun stored => free (List.dropLast_subset _ stored)
  · exact free

/-- A pointer sees a line up to the NUL behind it. -/
theorem cString_line {line : Bytes} (free : (0 : UInt8) ∉ line) (more : Bytes) :
    cString (line ++ 0 :: more) = line := by
  have solid : ∀ byte ∈ line, decide (byte ≠ 0) = true := by
    intro byte stored
    rw [decide_eq_true_eq]
    intro zero
    rw [zero] at stored
    exact free stored
  unfold cString
  rw [List.takeWhile_append_of_pos solid, List.takeWhile_cons_of_neg (by simp), List.append_nil]

/-- The lines seen so far are lines of the file. -/
theorem Scanned.current_free {content : Bytes} {k : Nat} {scan : LineScan} {earlier : List Bytes}
    {current : Bytes} (scanned : Scanned content k scan earlier current) (free : (0 : UInt8) ∉ content) :
    (0 : UInt8) ∉ current := by
  intro stored
  have inContent : (0 : UInt8) ∈ content.take k := by
    rw [scanned.done]
    exact List.mem_append_right _ stored
  exact free (List.mem_of_mem_take inContent)

/-- The part of the buffer before the line that goes on. -/
theorem Scanned.length_front {content : Bytes} {k : Nat} {scan : LineScan} {earlier : List Bytes}
    {current : Bytes} (scanned : Scanned content k scan earlier current) (inside : k ≤ content.length) :
    (scan.buf.take scan.lineStart).length = scan.lineStart := by
  have start := scanned.start
  rw [List.length_take_of_le]
  rw [scanned.size]
  omega

/-- A turn at another octet than a newline: the line goes on. -/
theorem Scanned.other {content : Bytes} {k : Nat} {scan : LineScan} {earlier : List Bytes}
    {current : Bytes} (scanned : Scanned content k scan earlier current) (inside : k < content.length)
    (goesOn : content[k] ≠ 10) :
    Scanned content (k + 1) (scan.step k) earlier (current ++ [content[k]]) := by
  have ahead := scanned.ahead (Nat.le_of_lt inside)
  have start := scanned.start
  have next : content.drop k = content[k] :: content.drop (k + 1) := List.drop_eq_getElem_cons inside
  rw [next, List.cons_append] at ahead
  have place : scan.buf[k]? = (scan.buf.drop scan.lineStart)[current.length]? := by
    rw [List.getElem?_drop, start]
  have here : scan.buf[k]? = some content[k] := by
    rw [place, ahead, List.getElem?_append_right (Nat.le_refl _), Nat.sub_self]
    rfl
  have same : scan.step k = scan := by
    unfold LineScan.step
    rw [if_pos]
    rw [here]
    exact fun newline => goesOn (Option.some.inj newline)
  rw [same]
  refine ⟨?_, scanned.lineFree, ?_, ?_, scanned.fresh, scanned.size, scanned.closed, scanned.lines⟩
  · rw [List.take_succ_eq_append_getElem inside, scanned.done, List.append_assoc]
  · intro stored
    cases List.mem_append.mp stored with
    | inl old => exact scanned.currentFree old
    | inr new => exact goesOn (List.mem_singleton.mp new).symm
  · rw [List.length_append, List.length_singleton]
    omega

/-- A turn at a newline: the line is ended, and pointed to where something is left of it. -/
theorem Scanned.newline {content : Bytes} {k : Nat} {scan : LineScan} {earlier : List Bytes}
    {current : Bytes} (scanned : Scanned content k scan earlier current) (inside : k < content.length)
    (free : (0 : UInt8) ∉ content) (ends : content[k] = 10) :
    Scanned content (k + 1) (scan.step k) (earlier ++ [current]) [] := by
  have ahead := scanned.ahead (Nat.le_of_lt inside)
  have frontSize := scanned.length_front (Nat.le_of_lt inside)
  have start := scanned.start
  have next : content.drop k = content[k] :: content.drop (k + 1) := List.drop_eq_getElem_cons inside
  rw [next, ends, List.cons_append] at ahead
  obtain ⟨lineStart, size, front, ⟨nuls, line, count⟩, lines⟩ := step_newline start ahead
  have stripped := stripCr_free (scanned.current_free free)
  -- The buffer: what stands before this line, this line with its NULs, and the rest of the file.
  have lineSize : (scan.buf.take scan.lineStart ++ (stripCr current ++ 0 :: nuls)).length = k + 1 := by
    rw [List.length_append, frontSize, List.length_append, List.length_cons]
    omega
  have whole : (scan.step k).buf = (scan.buf.take scan.lineStart ++ (stripCr current ++ 0 :: nuls)) ++
      (content.drop (k + 1) ++ [0]) := by
    have split := List.take_append_drop scan.lineStart (scan.step k).buf
    rw [front, line] at split
    rw [← split]
    simp
  have before : (scan.step k).buf.take (k + 1) =
      scan.buf.take scan.lineStart ++ (stripCr current ++ 0 :: nuls) := by
    rw [whole]
    exact List.take_left' lineSize
  have pushed : (scan.step k).buf[scan.lineStart]? ≠ some 0 ↔ stripCr current ≠ [] := by
    rw [← List.head?_drop, line]
    cases empty : stripCr current with
    | nil => simp
    | cons byte rest =>
      rw [empty] at stripped
      have solid : byte ≠ 0 := fun zero => stripped (by rw [zero]; exact List.mem_cons_self)
      simp [solid]
  have reaches : ∀ pointer ∈ scan.lines, ((scan.step k).buf.take (k + 1)).drop pointer =
      (scan.buf.take scan.lineStart).drop pointer ++ (stripCr current ++ 0 :: nuls) := by
    intro pointer stored
    have below : pointer ≤ (scan.buf.take scan.lineStart).length := by
      by_contra outside
      have closed := scanned.closed pointer stored
      rw [List.drop_eq_nil_of_le (Nat.le_of_not_le outside)] at closed
      contradiction
    rw [before, List.drop_append_of_le_length below]
  have own : ((scan.step k).buf.take (k + 1)).drop scan.lineStart = stripCr current ++ 0 :: nuls := by
    rw [before]
    exact List.drop_left' frontSize
  refine ⟨?_, ?_, List.not_mem_nil, ?_, ?_, size.trans scanned.size, ?_, ?_⟩
  · rw [List.take_succ_eq_append_getElem inside, scanned.done, ends]
    simp [terminated]
  · intro text stored
    cases List.mem_append.mp stored with
    | inl old => exact scanned.lineFree text old
    | inr new => rw [List.mem_singleton.mp new]; exact scanned.currentFree
  · rw [lineStart]
    rfl
  · rw [lineStart, whole, List.drop_left' lineSize, List.drop_append_of_le_length inside]
  · intro pointer stored
    rw [lineStart]
    rw [lines] at stored
    have cases : pointer ∈ scan.lines ∨ pointer = scan.lineStart := by
      split at stored
      · cases List.mem_append.mp stored with
        | inl old => exact Or.inl old
        | inr new => exact Or.inr (List.mem_singleton.mp new)
      · exact Or.inl stored
    cases cases with
    | inl old =>
      rw [reaches pointer old]
      exact List.mem_append_left _ (scanned.closed pointer old)
    | inr new =>
      rw [new, own]
      exact List.mem_append_right _ List.mem_cons_self
  · have older : scan.lines.map (fun pointer => cString (((scan.step k).buf.take (k + 1)).drop pointer)) =
        (earlier.map stripCr).filter (· ≠ []) := by
      rw [← scanned.lines]
      apply List.map_congr_left
      intro pointer stored
      rw [reaches pointer stored, cString_closed (scanned.closed pointer stored)]
    rw [lineStart, lines, List.map_append, List.filter_append, ← older]
    by_cases filled : stripCr current ≠ []
    · rw [if_pos (pushed.mpr filled), List.map_append, List.map_singleton, own, cString_line stripped,
        List.map_singleton, List.filter_singleton]
      simp [filled]
    · rw [if_neg (mt pushed.mp filled), List.map_singleton, List.filter_singleton]
      simp [filled]

/-- The loop up to any position of the file. -/
theorem scanned_run {content : Bytes} (free : (0 : UInt8) ∉ content) {k : Nat}
    (inside : k ≤ content.length) :
    ∃ earlier current, Scanned content k
      ((List.range k).foldl LineScan.step ⟨content ++ [0], 0, []⟩) earlier current := by
  induction k with
  | zero => exact ⟨[], [], scanned_start content⟩
  | succ k ih =>
    obtain ⟨earlier, current, scanned⟩ := ih (Nat.le_of_succ_le inside)
    rw [List.range_succ, List.foldl_append, List.foldl_cons, List.foldl_nil]
    by_cases ends : content[k] = 10
    · exact ⟨_, _, scanned.newline inside free ends⟩
    · exact ⟨_, _, scanned.other inside ends⟩

/-- A text in lines, the last of which no newline ends, is split into them. -/
theorem splitOn_terminated {earlier : List Bytes} {current : Bytes} (lineFree : ∀ line ∈ earlier, 10 ∉ line)
    (currentFree : 10 ∉ current) :
    (terminated earlier ++ current : Bytes).splitOn 10 = earlier ++ [current] := by
  induction earlier with
  | nil => exact List.splitOn_eq_singleton currentFree
  | cons line earlier ih =>
    have first : 10 ∉ line := lineFree line List.mem_cons_self
    have rest := ih fun other stored => lineFree other (List.mem_cons_of_mem _ stored)
    have regrouped : terminated (line :: earlier) ++ current =
        line ++ 10 :: (terminated earlier ++ current) := by simp [terminated]
    rw [regrouped, List.splitOn_append_cons_self_of_not_mem first, rest]
    rfl

/-- The lines of a file that a newline ends. -/
def endedLines (content : Bytes) : List Bytes := (content.splitOn 10).dropLast

/-- What stands behind the last newline of a file. -/
def lastLine (content : Bytes) : Bytes := (content.splitOn 10).getLastD []

/-- Loading keeps the lines that a newline ends without their terminators, and the last line as it
is. -/
theorem mem_denylistLoad {content line : Bytes} (free : (0 : UInt8) ∉ content) :
    line ∈ denylistLoad content ↔
      line ≠ [] ∧ (line ∈ (endedLines content).map stripCr ∨ line = lastLine content) := by
  obtain ⟨earlier, current, scanned⟩ := scanned_run free (Nat.le_refl content.length)
  have run : (List.range content.length).foldl LineScan.step ⟨content ++ [0], 0, []⟩ =
      splitLines content := rfl
  rw [run] at scanned
  have start := scanned.start
  have ahead := scanned.ahead (Nat.le_refl _)
  have currentNul := scanned.current_free free
  have frontSize := scanned.length_front (Nat.le_refl _)
  have done := scanned.done
  rw [List.take_length] at done
  have split : content.splitOn 10 = earlier ++ [current] := by
    rw [done]
    exact splitOn_terminated scanned.lineFree scanned.currentFree
  rw [List.drop_length, List.nil_append] at ahead
  have first : (splitLines content).buf[(splitLines content).lineStart]? = (current ++ [0]).head? := by
    rw [← List.head?_drop, ahead]
  have unended : ((splitLines content).lineStart < content.length ∧
      (splitLines content).buf[(splitLines content).lineStart]? ≠ some 0) ↔ current ≠ [] := by
    rw [first]
    cases empty : current with
    | nil => simp
    | cons byte rest =>
      rw [empty] at currentNul start
      have solid : byte ≠ 0 := fun zero => currentNul (by rw [zero]; exact List.mem_cons_self)
      rw [List.length_cons] at start
      simp only [List.cons_append, List.head?_cons, ne_eq, Option.some.injEq, solid, not_false_eq_true,
        reduceCtorEq, and_true, iff_true]
      omega
  have closedText : ∀ pointer ∈ (splitLines content).lines,
      cString ((splitLines content).buf.drop pointer) =
        cString (((splitLines content).buf.take (splitLines content).lineStart).drop pointer) := by
    intro pointer stored
    have closed := scanned.closed pointer stored
    have below : pointer ≤ ((splitLines content).buf.take (splitLines content).lineStart).length := by
      by_contra outside
      rw [List.drop_eq_nil_of_le (Nat.le_of_not_le outside)] at closed
      contradiction
    have parts := List.take_append_drop (splitLines content).lineStart (splitLines content).buf
    rw [← cString_closed closed, ← List.drop_append_of_le_length below, parts]
  have older : (splitLines content).lines.map (fun pointer => cString ((splitLines content).buf.drop pointer)) =
      (earlier.map stripCr).filter (· ≠ []) := by
    rw [← scanned.lines]
    exact List.map_congr_left closedText
  have own : cString ((splitLines content).buf.drop (splitLines content).lineStart) = current := by
    rw [ahead]
    exact cString_line currentNul []
  unfold denylistLoad endedLines lastLine
  dsimp only
  rw [(List.mergeSort_perm _ _).mem_iff, split, List.dropLast_concat, List.getLastD_concat]
  unfold LineScan.pointers
  by_cases filled : current ≠ []
  · rw [if_pos (unended.mpr filled), List.map_append, older, List.map_singleton, own, List.mem_append,
      List.mem_filter, List.mem_singleton, decide_eq_true_eq]
    constructor
    · intro kept
      cases kept with
      | inl ended => exact ⟨ended.2, Or.inl ended.1⟩
      | inr last => exact ⟨last ▸ filled, Or.inr last⟩
    · intro ⟨nonempty, kept⟩
      exact kept.imp_left fun ended => ⟨ended, nonempty⟩
  · rw [if_neg (mt unended.mp filled), older, List.mem_filter, decide_eq_true_eq, not_not.mp filled]
    constructor
    · intro kept
      exact ⟨kept.2, Or.inl kept.1⟩
    · intro ⟨nonempty, kept⟩
      exact ⟨kept.resolve_right nonempty, nonempty⟩

end Loading

section Policy

/-- The lines of a file without their terminators, the last one's CR among these. -/
def fileLines (content : Bytes) : List Bytes := ((content.splitOn 10).map stripCr).filter (· ≠ [])

/-- A password for which the CR decides that is left on a last line without a newline: it is that
line with or without the CR, and no other line. -/
structure LeftCr (content lowered : Bytes) : Prop where
  unended : (lastLine content).getLast? = some 13
  filled : lowered ≠ []
  noOther : lowered ∉ (endedLines content).map stripCr
  last : lowered = lastLine content ∨ lowered = (lastLine content).dropLast

/-- The lines of a file are those that a newline ends and the last. -/
theorem mem_fileLines {content line : Bytes} :
    line ∈ fileLines content ↔
      line ≠ [] ∧ (line ∈ (endedLines content).map stripCr ∨ line = stripCr (lastLine content)) := by
  have parts : endedLines content ++ [lastLine content] = content.splitOn 10 := by
    unfold endedLines lastLine
    have nonempty := List.splitOn_ne_nil 10 content
    rw [List.getLastD_eq_getLast?, List.getLast?_eq_getLast_of_ne_nil nonempty, Option.getD_some,
      List.dropLast_append_getLast]
  unfold fileLines
  rw [← parts, List.map_append, List.map_singleton, List.mem_filter, List.mem_append,
    List.mem_singleton, decide_eq_true_eq, and_comm]

/-- The lookup in a loaded list finds exactly its lines. -/
theorem denylistContains_load_iff {content lowered : Bytes} (free : (0 : UInt8) ∉ lowered) :
    denylistContains (denylistLoad content) lowered = true ↔ lowered ∈ denylistLoad content := by
  have sorted : (denylistLoad content).Pairwise fun left right => compareLines left right = true :=
    sorted_mergeSort _
  rw [denylistContains_iff sorted]
  have cut : ∀ line ∈ denylistLoad content, cString line = line := by
    intro line stored
    unfold denylistLoad at stored
    rw [(List.mergeSort_perm _ _).mem_iff, List.mem_map] at stored
    obtain ⟨pointer, _, same⟩ := stored
    rw [← same]
    exact cString_eq_self (zero_not_mem_cString _)
  constructor
  · intro ⟨line, stored, same⟩
    rw [cut line stored, cString_eq_self free] at same
    rw [← same]
    exact stored
  · intro stored
    exact ⟨lowered, stored, rfl⟩

/-- The loaded lines and the lines of the file agree on a text exactly where no CR decides. -/
theorem loaded_iff_fileLines {content lowered : Bytes} (free : (0 : UInt8) ∉ content) :
    (lowered ∈ denylistLoad content ↔ lowered ∈ fileLines content) ↔ ¬LeftCr content lowered := by
  rw [mem_denylistLoad free, mem_fileLines]
  by_cases unended : (lastLine content).getLast? = some 13
  · have stripped : stripCr (lastLine content) = (lastLine content).dropLast := if_pos unended
    have shorter : (lastLine content).dropLast ≠ lastLine content := by
      intro same
      have sizes := congrArg List.length same
      cases empty : lastLine content with
      | nil =>
        rw [empty] at unended
        contradiction
      | cons byte rest =>
        rw [empty, List.length_dropLast, List.length_cons] at sizes
        omega
    rw [stripped]
    constructor
    · intro agree left
      have other := left.noOther
      have filled := left.filled
      cases left.last with
      | inl whole =>
        have loaded := agree.mp ⟨filled, Or.inr whole⟩
        cases loaded.2 with
        | inl ended => exact other ended
        | inr cut => exact shorter (cut.symm.trans whole)
      | inr cut =>
        have loaded := agree.mpr ⟨filled, Or.inr cut⟩
        cases loaded.2 with
        | inl ended => exact other ended
        | inr whole => exact shorter (cut.symm.trans whole)
    · intro undecided
      have decided : ∀ filled : lowered ≠ [], ∀ last : lowered = lastLine content ∨
          lowered = (lastLine content).dropLast, lowered ∈ (endedLines content).map stripCr := by
        intro filled last
        by_contra other
        exact undecided ⟨unended, filled, other, last⟩
      constructor
      · intro ⟨filled, kept⟩
        exact ⟨filled, Or.inl (kept.elim id fun whole => decided filled (Or.inl whole))⟩
      · intro ⟨filled, kept⟩
        exact ⟨filled, Or.inl (kept.elim id fun cut => decided filled (Or.inr cut))⟩
  · have kept : stripCr (lastLine content) = lastLine content := if_neg unended
    rw [kept]
    exact ⟨fun _ left => unended left.unended, fun _ => Iff.rfl⟩

/-- Within the length bounds the policy refuses exactly the lowered passwords that are loaded. -/
theorem policyCheck_eq_breached_iff {content password : Bytes} {minLength maxLength : Int}
    (free : (0 : UInt8) ∉ password) (long : minLength ≤ password.length)
    (short : password.length ≤ maxLength) :
    policyCheck password minLength maxLength (some (denylistLoad content)) = .breached ↔
      password.map toLower ∈ denylistLoad content := by
  have loweredFree : (0 : UInt8) ∉ password.map toLower :=
    mt (Normalization.mem_lowercase fun byte => (Normalization.toLower_spec byte).2.1).mp free
  rw [← denylistContains_load_iff loweredFree]
  unfold policyCheck
  rw [if_neg (by omega), if_neg (by omega)]
  dsimp only
  by_cases listed : denylistContains (denylistLoad content) (password.map toLower) = true
  · rw [if_pos listed]
    exact ⟨fun _ => listed, fun _ => rfl⟩
  · rw [if_neg listed]
    exact ⟨fun refused => PolicyResult.noConfusion refused, fun found => absurd found listed⟩

/-- The policy refuses the passwords that a line of the file is, in lower case, exactly where no CR
is left on the last line that decides. -/
theorem policyCheck_exact_iff {content password : Bytes} {minLength maxLength : Int}
    (fileFree : (0 : UInt8) ∉ content) (passwordFree : (0 : UInt8) ∉ password)
    (long : minLength ≤ password.length) (short : password.length ≤ maxLength) :
    (policyCheck password minLength maxLength (some (denylistLoad content)) = .breached ↔
        password.map toLower ∈ fileLines content) ↔
      ¬LeftCr content (password.map toLower) := by
  rw [policyCheck_eq_breached_iff passwordFree long short]
  exact loaded_iff_fileLines fileFree

/-- The policy on a file whose last line has a newline. -/
theorem policyCheck_exact_iff_newline :
    (policyCheck (ascii "Password1234") 12 128 (some (denylistLoad (ascii "password1234\r\n"))) =
        .breached ↔ (ascii "Password1234").map toLower ∈ fileLines (ascii "password1234\r\n")) ↔
      ¬LeftCr (ascii "password1234\r\n") ((ascii "Password1234").map toLower) :=
  policyCheck_exact_iff (by decide) (by decide) (by decide) (by decide)

/-- A listed password passes when its line is the last, with a CR and without a newline. -/
theorem policyCheck_misses_last_line :
    policyCheck (ascii "password1234") 12 128 (some (denylistLoad (ascii "letmein\r\npassword1234\r"))) ≠
        .breached ∧
      (ascii "password1234").map toLower ∈ fileLines (ascii "letmein\r\npassword1234\r") := by
  constructor
  · rw [Ne, policyCheck_eq_breached_iff (by decide) (by decide) (by decide),
      mem_denylistLoad (by decide)]
    decide +kernel
  · decide +kernel

end Policy

end PlatformService.Verif.Denylist
