import PlatformService.Verif.JsonGrammar

/-!
# Writing and parsing are inverse

Every numeral of `%.17g` is a number literal of the grammar that fits the parser's
buffer, so a finite number that reads back from its numeral is parsed back. A tree
within the nesting limit, of such numbers and of distinct keys without NUL, then
survives being written and parsed; and no value the parser returns is too deep for
the writer.
-/

namespace PlatformService.Verif.JsonInverse

open Lib Json Json.Grammar JsonRoundTrip JsonGrammar

section Numerals

/-- Stripping zeros keeps digits digits. -/
theorem mem_stripZeros {digits : Bytes} {byte : UInt8} (stored : byte ∈ stripZeros digits) :
    byte ∈ digits := by
  unfold stripZeros at stored
  rw [List.mem_reverse] at stored
  exact List.mem_reverse.mp ((List.dropWhile_suffix _).mem stored)

/-- Stripping zeros adds no digit. -/
theorem length_stripZeros_le (digits : Bytes) : (stripZeros digits).length ≤ digits.length := by
  unfold stripZeros
  have within := (List.dropWhile_suffix (l := digits.reverse) (· = 48)).length_le
  rw [List.length_reverse] at within ⊢
  exact within

/-- Digits behind a point are a fraction. -/
theorem fraction_fractionPart {digits : Bytes} (all : ∀ byte ∈ digits, isDigit byte = true) :
    Fraction (fractionPart (stripZeros digits)) := by
  unfold fractionPart
  split
  · exact Or.inl rfl
  · rename_i nonempty
    exact Or.inr ⟨_, rfl, nonempty, fun byte stored => all byte (mem_stripZeros stored)⟩

/-- A fraction is at most one byte longer than its digits. -/
theorem length_fractionPart_le (digits : Bytes) :
    (fractionPart (stripZeros digits)).length ≤ digits.length + 1 := by
  have stripped := length_stripZeros_le digits
  unfold fractionPart
  split
  · simp
  · rw [List.length_cons]
    omega

/-- The first digits of a number are an integer. -/
theorem integer_take_natDigits (n count : Nat) : Integer ((natDigits n).take (count + 1)) := by
  rcases natDigits_cases n with zero | ⟨first, digits, split, nonzero⟩
  · left
    simp [zero]
  · right
    rw [split, List.take_succ_cons]
    refine ⟨⟨List.cons_ne_nil _ _, ?_⟩, by simpa using nonzero⟩
    intro byte stored
    apply isDigit_of_mem_natDigits (n := n)
    rw [split]
    rcases List.mem_cons.mp stored with rfl | later
    · exact List.mem_cons_self
    · exact List.mem_cons_of_mem _ (List.mem_of_mem_take later)

/-- The exponent of `%g` is an exponent. -/
theorem exponent_formatExponent (exponent : Int) : Exponent (formatExponent exponent) := by
  have all : ∀ byte ∈ natDigits exponent.natAbs, isDigit byte = true :=
    fun byte => isDigit_of_mem_natDigits
  obtain ⟨first, digits, split, -, -⟩ := natDigits_opens exponent.natAbs
  refine Or.inr ⟨101, [if exponent < 0 then 45 else 43],
    if (natDigits exponent.natAbs).length < 2 then 48 :: natDigits exponent.natAbs
      else natDigits exponent.natAbs, rfl, Or.inl rfl, ?_, ?_, ?_⟩
  · by_cases negative : exponent < 0
    · simp [negative]
    · simp [negative]
  · split_ifs
    · exact List.cons_ne_nil _ _
    · simp [split]
  · split_ifs
    · exact List.forall_mem_cons.mpr ⟨rfl, all⟩
    · exact all

/-- `%.17g` prints number literals. -/
theorem number_formatG17 (number : Binary64.Finite) : Number (formatG17 number) := by
  have signed : (if number.negative then [45] else ([] : Bytes)) = [] ∨
      (if number.negative then [45] else ([] : Bytes)) = [45] := by
    by_cases negative : number.negative <;> simp [negative]
  have unsigned : ∃ integer fraction exponent,
      formatMagnitude number.magnitude = integer ++ (fraction ++ exponent) ∧
        Integer integer ∧ Fraction fraction ∧ Exponent exponent := by
    have all : ∀ byte ∈ natDigits (significant number.magnitude).1, isDigit byte = true :=
      fun byte => isDigit_of_mem_natDigits
    unfold formatMagnitude
    dsimp only
    split_ifs with zero scientific below
    · exact ⟨[48], [], [], rfl, Or.inl rfl, Or.inl rfl, Or.inl rfl⟩
    · have later : ∀ byte ∈ (natDigits (significant number.magnitude).1).drop 1,
          isDigit byte = true := fun byte stored => all byte (List.mem_of_mem_drop stored)
      exact ⟨_, _, _, List.append_assoc _ _ _, integer_take_natDigits _ 0,
        fraction_fractionPart later, exponent_formatExponent _⟩
    · have padded : ∀ byte ∈ List.replicate (-(significant number.magnitude).2 - 1).toNat 48 ++
          natDigits (significant number.magnitude).1, isDigit byte = true := by
        intro byte stored
        rcases List.mem_append.mp stored with padding | digit
        · rw [List.eq_of_mem_replicate padding]
          rfl
        · exact all byte digit
      refine ⟨[48], _, [], ?_, Or.inl rfl, fraction_fractionPart padded, Or.inl rfl⟩
      rw [List.append_nil]
    · have later : ∀ byte ∈ (natDigits (significant number.magnitude).1).drop
          ((significant number.magnitude).2.toNat + 1), isDigit byte = true :=
        fun byte stored => all byte (List.mem_of_mem_drop stored)
      have whole := integer_take_natDigits (significant number.magnitude).1
        (significant number.magnitude).2.toNat
      refine ⟨_, _, [], ?_, whole, fraction_fractionPart later, Or.inl rfl⟩
      rw [List.append_nil]
  obtain ⟨integer, fraction, exponent, shape, whole, fractional, exponential⟩ := unsigned
  exact ⟨_, integer, fraction, exponent, by rw [formatG17, shape], signed, whole, fractional,
    exponential⟩

/-- A positive double lies between two powers of ten. -/
theorem magnitude_bounds {number : Binary64.Finite} (nonzero : number.magnitude ≠ 0) :
    -1074 ≤ Int.log 10 number.magnitude ∧ Int.log 10 number.magnitude < 1024 := by
  have positiveMantissa : 0 < number.mantissa := by
    rcases Nat.eq_zero_or_pos number.mantissa with zero | positive
    · exact absurd (by simp [Binary64.Finite.magnitude, zero]) nonzero
    · exact positive
  have least : (1 : ℚ) ≤ number.mantissa := by exact_mod_cast positiveMantissa
  have greatest : (number.mantissa : ℚ) < 2 ^ (53 : Int) := by
    have bound := number.mantissa_lt
    rw [show ((2 : ℚ) ^ (53 : Int)) = ((2 ^ 53 : Nat) : ℚ) by norm_num]
    exact_mod_cast bound
  have weight : (0 : ℚ) < 2 ^ number.exponent := zpow_pos two_pos _
  have highest : 53 + number.exponent ≤ 1024 := by
    have bound := number.exponent_le
    omega
  have positive : 0 < number.magnitude := mul_pos (by linarith) weight
  constructor
  · rw [← Int.zpow_le_iff_le_log (by decide) positive]
    calc ((10 : Nat) : ℚ) ^ (-1074 : Int) ≤ 2 ^ (-1074 : Int) := by
          rw [zpow_neg, zpow_neg]
          exact inv_anti₀ (zpow_pos two_pos _)
            (zpow_le_zpow_left₀ (by decide) (by norm_num) (by norm_num))
      _ ≤ 2 ^ number.exponent := zpow_le_zpow_right₀ (by norm_num) number.exponent_ge
      _ = 1 * 2 ^ number.exponent := (one_mul _).symm
      _ ≤ number.magnitude := mul_le_mul_of_nonneg_right least weight.le
  · rw [← Int.lt_zpow_iff_log_lt (by decide) positive]
    calc number.magnitude < 2 ^ (53 : Int) * 2 ^ number.exponent :=
          mul_lt_mul_of_pos_right greatest weight
      _ = 2 ^ (53 + number.exponent) := (zpow_add₀ (by norm_num) _ _).symm
      _ ≤ 2 ^ (1024 : Int) := zpow_le_zpow_right₀ (by norm_num) highest
      _ ≤ ((10 : Nat) : ℚ) ^ (1024 : Int) :=
          zpow_le_zpow_left₀ (by decide) (by norm_num) (by norm_num)

/-- There are at most seventeen significant digits, and their exponent is that of the number or the
next. -/
theorem significant_bounds (q : ℚ) :
    (significant q).1 < 10 ^ 17 ∧ Int.log 10 q ≤ (significant q).2 ∧
      (significant q).2 ≤ Int.log 10 q + 1 := by
  have upper : q / 10 ^ (Int.log 10 q - 16) ≤ ((10 ^ 17 : Int) : ℚ) := by
    have below := Int.lt_zpow_succ_log_self (b := 10) (by decide) q
    rw [div_le_iff₀ (zpow_pos (by norm_num) _)]
    calc q ≤ ((10 : Nat) : ℚ) ^ (Int.log 10 q + 1) := below.le
      _ = 10 ^ ((17 : Int) + (Int.log 10 q - 16)) := by
          push_cast
          congr 1
          omega
      _ = 10 ^ (17 : Int) * 10 ^ (Int.log 10 q - 16) := zpow_add₀ (by norm_num) _ _
      _ = ((10 ^ 17 : Int) : ℚ) * 10 ^ (Int.log 10 q - 16) := by norm_num
  have rounded := roundHalfEven_le upper
  unfold significant
  dsimp only
  split_ifs with overflow
  · refine ⟨by norm_num, ?_, ?_⟩ <;> omega
  · refine ⟨?_, ?_, ?_⟩ <;> omega

/-- A number below a power of ten has at most so many digits. -/
theorem length_natDigits_le {n : Nat} (count : Nat) (small : n < 10 ^ (count + 1)) :
    (natDigits n).length ≤ count + 1 := by
  rcases Nat.eq_zero_or_pos n with rfl | positive
  · simp [natDigits]
  · rw [length_natDigits positive]
    exact Nat.log_lt_of_lt_pow positive.ne' small

/-- The exponent of `%g` for a double has at most six bytes. -/
theorem length_formatExponent_le {exponent : Int} (small : exponent.natAbs < 10 ^ 4) :
    (formatExponent exponent).length ≤ 6 := by
  have digits := length_natDigits_le 3 small
  unfold formatExponent
  dsimp only
  rw [List.length_append, List.length_cons, List.length_singleton]
  split_ifs with single
  · rw [List.length_cons]
    omega
  · omega

/-- The numerals of `%.17g` fit the parser's buffer. -/
theorem length_formatG17 (number : Binary64.Finite) : (formatG17 number).length < 64 := by
  have sign : (if number.negative then [45] else ([] : Bytes)).length ≤ 1 := by
    split_ifs <;> simp
  have magnitude : (formatMagnitude number.magnitude).length ≤ 42 := by
    by_cases zero : number.magnitude = 0
    · simp [formatMagnitude, zero]
    · obtain ⟨low, high⟩ := magnitude_bounds zero
      obtain ⟨seventeen, least, greatest⟩ := significant_bounds number.magnitude
      have digits := length_natDigits_le 16 seventeen
      have exponent : (formatExponent (significant number.magnitude).2).length ≤ 6 :=
        length_formatExponent_le (by omega)
      unfold formatMagnitude
      rw [if_neg zero]
      dsimp only
      split_ifs with scientific below
      · have part := length_fractionPart_le ((natDigits (significant number.magnitude).1).drop 1)
        simp only [List.length_append, List.length_take, List.length_drop] at part ⊢
        omega
      · have part := length_fractionPart_le
          (List.replicate (-(significant number.magnitude).2 - 1).toNat 48 ++
            natDigits (significant number.magnitude).1)
        simp only [List.length_append, List.length_replicate, List.length_cons,
          List.length_nil] at part ⊢
        omega
      · have part := length_fractionPart_le ((natDigits (significant number.magnitude).1).drop
          ((significant number.magnitude).2.toNat + 1))
        simp only [List.length_append, List.length_take, List.length_drop] at part ⊢
        omega
  rw [formatG17, List.length_append]
  omega

/-- A finite number that reads back from its numeral is parsed back. -/
theorem readable_finite {number : Binary64.Finite}
    (exact : strtod (formatG17 number) = .finite number) : Readable (.finite number) := by
  have literal := number_formatG17 number
  obtain ⟨first, tail, split, numeral⟩ := number_opens literal
  refine ⟨first, tail, split, numeral, ?_⟩
  intro rest terminated
  have ends : Ends rest := fun byte head => Or.inr (terminated byte head)
  rw [writeNumber, parseNumber_complete literal (length_formatG17 number) ends, exact]

end Numerals

section Trees

mutual
/-- The nesting depth of a value, one for a scalar or an empty container. -/
def depth : Value → Nat
  | .array items => depthItems items + 1
  | .object members => depthMembers members + 1
  | _ => 1

/-- The depth of the deepest item. -/
def depthItems : List Value → Nat
  | [] => 0
  | value :: values => max (depth value) (depthItems values)

/-- The depth of the deepest member. -/
def depthMembers : List (Bytes × Value) → Nat
  | [] => 0
  | (_, value) :: members => max (depth value) (depthMembers members)
end

mutual
/-- The numbers of a value. -/
def numbers : Value → List Binary64
  | .number number => [number]
  | .array items => numbersItems items
  | .object members => numbersMembers members
  | _ => []

/-- The numbers of the items. -/
def numbersItems : List Value → List Binary64
  | [] => []
  | value :: values => numbers value ++ numbersItems values

/-- The numbers of the members. -/
def numbersMembers : List (Bytes × Value) → List Binary64
  | [] => []
  | (_, value) :: members => numbers value ++ numbersMembers members
end

mutual
/-- The keys of each object in a value. -/
def keys : Value → List (List Bytes)
  | .array items => keysItems items
  | .object members => members.map Prod.fst :: keysMembers members
  | _ => []

/-- The keys of each object in the items. -/
def keysItems : List Value → List (List Bytes)
  | [] => []
  | value :: values => keys value ++ keysItems values

/-- The keys of each object in the members. -/
def keysMembers : List (Bytes × Value) → List (List Bytes)
  | [] => []
  | (_, value) :: members => keys value ++ keysMembers members
end

/-- A number that is finite and read back from its numeral by `strtod`. -/
def PrintsExactly (number : Binary64) : Prop :=
  ∃ finite, number = .finite finite ∧ strtod (formatG17 finite) = number

/-- A value of numbers that print exactly, whose objects have distinct keys without NUL. -/
structure Clean (value : Value) : Prop where
  numbers : ∀ number ∈ numbers value, PrintsExactly number
  keys : ∀ names ∈ keys value, names.Nodup ∧ ∀ name ∈ names, (0 : UInt8) ∉ name

/-- The items of an array are no deeper than the deepest and as clean as the array. -/
theorem item_within {items : List Value} {item : Value} (stored : item ∈ items) :
    depth item ≤ depthItems items ∧ numbers item ⊆ numbersItems items ∧
      keys item ⊆ keysItems items := by
  induction items with
  | nil => contradiction
  | cons value values ih =>
    rw [depthItems, numbersItems, keysItems]
    rcases List.mem_cons.mp stored with rfl | later
    · exact ⟨le_max_left _ _, List.subset_append_left _ _, List.subset_append_left _ _⟩
    · obtain ⟨deep, numbered, keyed⟩ := ih later
      exact ⟨deep.trans (le_max_right _ _), List.subset_append_of_subset_right _ numbered,
        List.subset_append_of_subset_right _ keyed⟩

/-- The members of an object are no deeper than the deepest and as clean as the object. -/
theorem member_within {members : List (Bytes × Value)} {member : Bytes × Value}
    (stored : member ∈ members) :
    depth member.2 ≤ depthMembers members ∧ numbers member.2 ⊆ numbersMembers members ∧
      keys member.2 ⊆ keysMembers members := by
  induction members with
  | nil => contradiction
  | cons first members ih =>
    obtain ⟨name, value⟩ := first
    rw [depthMembers, numbersMembers, keysMembers]
    rcases List.mem_cons.mp stored with rfl | later
    · exact ⟨le_max_left _ _, List.subset_append_left _ _, List.subset_append_left _ _⟩
    · obtain ⟨deep, numbered, keyed⟩ := ih later
      exact ⟨deep.trans (le_max_right _ _), List.subset_append_of_subset_right _ numbered,
        List.subset_append_of_subset_right _ keyed⟩

/-- A clean value within the nesting limit is one the parser reads back. -/
theorem plain_of_clean {levels : Nat} {value : Value} (deep : depth value ≤ levels)
    (clean : Clean value) : Plain levels value := by
  induction levels generalizing value with
  | zero => cases value <;> simp [depth] at deep
  | succ levels ih =>
    obtain ⟨numbered, keyed⟩ := clean
    cases value with
    | null => trivial
    | bool value => trivial
    | string text => trivial
    | number number =>
      rw [numbers] at numbered
      obtain ⟨finite, rfl, exact⟩ := numbered number (List.mem_singleton_self _)
      exact readable_finite exact
    | array items =>
      rw [depth] at deep
      rw [numbers] at numbered
      rw [keys] at keyed
      intro item stored
      obtain ⟨below, within, among⟩ := item_within stored
      apply ih (below.trans (Nat.le_of_succ_le_succ deep))
      exact ⟨fun number used => numbered number (within used),
        fun names used => keyed names (among used)⟩
    | object members =>
      rw [depth] at deep
      rw [numbers] at numbered
      rw [keys] at keyed
      obtain ⟨distinct, free⟩ := keyed _ List.mem_cons_self
      refine ⟨distinct, ?_⟩
      intro member stored
      obtain ⟨below, within, among⟩ := member_within stored
      refine ⟨free _ (List.mem_map_of_mem stored), ih (below.trans (Nat.le_of_succ_le_succ deep)) ?_⟩
      exact ⟨fun number used => numbered number (within used),
        fun names used => keyed names (List.mem_cons_of_mem _ (among used))⟩

/-- The writer accepts every value within its nesting limit. -/
theorem writeValue_of_depth {levels : Nat} {value : Value} (deep : depth value ≤ levels) :
    ∃ text, writeValue levels value = some text := by
  induction levels generalizing value with
  | zero => cases value <;> simp [depth] at deep
  | succ levels ih =>
    cases value with
    | null => exact ⟨_, rfl⟩
    | bool value => cases value <;> exact ⟨_, rfl⟩
    | number number => exact ⟨_, rfl⟩
    | string text => exact ⟨_, rfl⟩
    | array items =>
      rw [depth] at deep
      have each : ∀ item ∈ items, ∃ text, writeValue levels item = some text ∧ True := by
        intro item stored
        have below := (item_within stored).1.trans (Nat.le_of_succ_le_succ deep)
        obtain ⟨text, written⟩ := ih below
        exact ⟨text, written, trivial⟩
      obtain ⟨parts, written, -⟩ := mapM_forall₂ each
      refine ⟨[91] ++ joinParts parts ++ [93], ?_⟩
      simp only [writeValue, written, Option.bind_eq_bind, Option.bind_some]
    | object members =>
      rw [depth] at deep
      have each : ∀ member ∈ members, ∃ part,
          (do some (writeString (cString member.1) ++ [58] ++ (← writeValue levels member.2))) =
            some part ∧ True := by
        intro member stored
        have below := (member_within stored).1.trans (Nat.le_of_succ_le_succ deep)
        obtain ⟨text, written⟩ := ih below
        exact ⟨_, by rw [written]; rfl, trivial⟩
      obtain ⟨parts, written, -⟩ := mapM_forall₂ each
      have whole : writeValue (levels + 1) (.object members) =
          (some parts).bind fun parts => some ([123] ++ joinParts parts ++ [125]) := by
        rw [← written]
        rfl
      exact ⟨_, whole⟩

/-- Setting a member nests no deeper than the object and the value. -/
theorem depthMembers_objectSet (members : List (Bytes × Value)) (key : Bytes) (value : Value) :
    depthMembers (objectSet members key value) ≤ max (depthMembers members) (depth value) := by
  induction members with
  | nil => simp [objectSet, depthMembers]
  | cons member members ih =>
    obtain ⟨name, old⟩ := member
    rw [objectSet, depthMembers]
    split_ifs with same
    · rw [depthMembers]
      omega
    · rw [depthMembers]
      omega

/-- Setting members nests no deeper than the object and the members. -/
theorem depthMembers_setAll (set more : List (Bytes × Value)) :
    depthMembers (Tree.setAll set more) ≤ max (depthMembers set) (depthMembers more) := by
  induction more generalizing set with
  | nil => exact le_max_left _ _
  | cons member more ih =>
    obtain ⟨name, value⟩ := member
    have first := depthMembers_objectSet set name value
    have later := ih (objectSet set name value)
    have unfolded : Tree.setAll set ((name, value) :: more) =
        Tree.setAll (objectSet set name value) more := rfl
    rw [unfolded, depthMembers]
    omega

mutual
/-- The value of a tree is no deeper than the tree. -/
theorem depth_value : ∀ tree : Tree, depth tree.value ≤ tree.depth
  | .null => by simp [Tree.value, depth, Tree.depth]
  | .bool _ => by simp [Tree.value, depth, Tree.depth]
  | .number _ => by simp [Tree.value, depth, Tree.depth]
  | .string _ => by simp [Tree.value, depth, Tree.depth]
  | .array items => by
    rw [Tree.value, depth, Tree.depth]
    exact Nat.succ_le_succ (depth_values items)
  | .object members => by
    rw [Tree.value, depth, Tree.depth]
    have all := depthMembers_setAll [] (Tree.memberValues members)
    have listed := depth_memberValues members
    rw [depthMembers] at all
    omega

/-- The values of items are no deeper than the items. -/
theorem depth_values : ∀ trees : List Tree, depthItems (Tree.values trees) ≤ Tree.depthItems trees
  | [] => by simp [Tree.values, depthItems]
  | tree :: trees => by
    rw [Tree.values, depthItems, Tree.depthItems]
    exact max_le_max (depth_value tree) (depth_values trees)

/-- The values of members are no deeper than the members. -/
theorem depth_memberValues : ∀ members : List (Bytes × Tree),
    depthMembers (Tree.memberValues members) ≤ Tree.depthMembers members
  | [] => by simp [Tree.memberValues, depthMembers]
  | (_, tree) :: members => by
    rw [Tree.memberValues, depthMembers, Tree.depthMembers]
    exact max_le_max (depth_value tree) (depth_memberValues members)
end

/-- A parsed value is within the nesting limit. -/
theorem depth_of_parse {input : Bytes} {value : Value} (parsed : parse input = some value) :
    depth value ≤ maxDepth := by
  simp only [parse, Option.bind_eq_bind, Option.bind_eq_some_iff, Prod.exists] at parsed
  obtain ⟨read, rest, valueRead, accepted⟩ := parsed
  split_ifs at accepted with ended
  obtain ⟨tree, start, -, -, fits, denotes⟩ := parseValue_sound _ _ _ _ valueRead
  rw [← Option.some.inj accepted, ← denotes]
  exact (depth_value tree).trans fits.depth

end Trees

/-- A value tree of depth at most 32, of finite numbers that print exactly, of any strings and with
distinct keys without NUL in each object, is written, and the text is parsed back to the same tree;
and every value the parser returns is written. -/
theorem write_parse_inverse :
    (∀ value, depth value ≤ 32 → Clean value →
      ∃ text, write value = some text ∧ parse text = some value) ∧
    ∀ input value, parse input = some value → ∃ text, write value = some text := by
  refine ⟨?_, ?_⟩
  · intro value deep clean
    exact parse_of_write (plain_of_clean deep clean)
  · intro input value parsed
    exact writeValue_of_depth (depth_of_parse parsed)

/-- Integers a double holds exactly print exactly. -/
theorem printsExactly_ofInt {n : Int} (small : n.natAbs ≤ 2 ^ 53) :
    PrintsExactly (Binary64.ofInt n) := by
  obtain ⟨number, converted, -⟩ := Binary64.value_ofInt small
  have written := writeNumber_ofInt small
  rw [converted, writeNumber] at written
  exact ⟨number, converted, by rw [written, strtod_intNumeral]⟩

/-- An object with a nested array, a negative number and a string of control and high bytes. -/
def sampleValue : Value :=
  .object [(ascii "n", .array [.number (Binary64.ofInt (-5)), .null]),
    (ascii "s", .string [0, 31, 34, 92, 255])]

/-- The sample is written and parsed back, and what is parsed is written again. -/
theorem write_parse_sample :
    ∃ text, write sampleValue = some text ∧ parse text = some sampleValue ∧
      ∃ again, write sampleValue = some again := by
  have clean : Clean sampleValue := by
    constructor
    · intro number used
      have only : number = Binary64.ofInt (-5) := by
        simpa [sampleValue, numbers, numbersItems, numbersMembers] using used
      rw [only]
      exact printsExactly_ofInt (by decide)
    · have listed : keys sampleValue = [[ascii "n", ascii "s"]] := by
        simp [sampleValue, keys, keysItems, keysMembers]
      rw [listed]
      decide
  have deep : depth sampleValue ≤ 32 := by
    simp [sampleValue, depth, depthItems, depthMembers]
  obtain ⟨text, written, parsed⟩ := write_parse_inverse.1 sampleValue deep clean
  exact ⟨text, written, parsed, write_parse_inverse.2 text sampleValue parsed⟩

end PlatformService.Verif.JsonInverse
