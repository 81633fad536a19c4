import Mathlib.Data.Finset.Card
import Mathlib.Data.List.Basic

/-!
# Association lists in insertion order

A map kept as a list of entries: setting a key that is present replaces its value
in place, and any other key is appended. After a list of entries is set one by
one, every key has the value that was set last, and the keys stand in the order
in which they were set first.
-/

namespace PlatformService.Lib.Assoc

variable {K V : Type} [DecidableEq K]

/-- The entries after a key is set. -/
def set : List (K × V) → K → V → List (K × V)
  | [], key, value => [(key, value)]
  | (name, old) :: entries, key, value =>
    if name = key then (name, value) :: entries else (name, old) :: set entries key value

/-- The value of a key. -/
def get (entries : List (K × V)) (key : K) : Option V :=
  (entries.find? fun entry => entry.1 = key).map Prod.snd

/-- The entries after each of a list is set in turn. -/
def setAll (entries more : List (K × V)) : List (K × V) :=
  more.foldl (fun entries entry => set entries entry.1 entry.2) entries

/-- The value of the last entry under a key. -/
def last (entries : List (K × V)) (key : K) : Option V :=
  ((entries.filter fun entry => entry.1 = key).getLast?).map Prod.snd

/-- Among distinct keys, an entry gives the value of its key. -/
theorem get_of_mem {entries : List (K × V)} (distinct : (entries.map Prod.fst).Nodup) {key : K}
    {value : V} (stored : (key, value) ∈ entries) : get entries key = some value := by
  induction entries with
  | nil => contradiction
  | cons entry entries ih =>
    rw [List.map_cons, List.nodup_cons] at distinct
    rcases List.mem_cons.mp stored with rfl | later
    · simp [get]
    · have other : entry.1 ≠ key := fun same =>
        distinct.1 (same ▸ List.mem_map_of_mem (f := Prod.fst) later)
      have found := ih distinct.2 later
      unfold get at found ⊢
      simp only [List.find?_cons, decide_eq_false other]
      exact found

/-- Setting a key changes its value and no other. -/
theorem get_set (entries : List (K × V)) (key other : K) (value : V) :
    get (set entries key value) other = if key = other then some value else get entries other := by
  induction entries with
  | nil =>
    by_cases same : key = other
    · simp [set, get, same]
    · simp [set, get, same]
  | cons entry entries ih =>
    obtain ⟨name, old⟩ := entry
    by_cases named : name = key
    · by_cases same : key = other
      · simp [set, get, named, same]
      · simp [set, get, named, same]
    · rw [set, if_neg named]
      unfold get at ih ⊢
      by_cases here : name = other
      · have different : key ≠ other := fun same => named (here.trans same.symm)
        simp [here, different]
      · simp only [List.find?_cons, decide_eq_false here]
        exact ih

/-- Setting a key keeps the keys, or appends the key. -/
theorem keys_set (entries : List (K × V)) (key : K) (value : V) :
    (set entries key value).map Prod.fst =
      if key ∈ entries.map Prod.fst then entries.map Prod.fst
      else entries.map Prod.fst ++ [key] := by
  induction entries with
  | nil => rfl
  | cons entry entries ih =>
    obtain ⟨name, old⟩ := entry
    by_cases named : name = key
    · simp [set, named]
    · have other : key ≠ name := fun same => named same.symm
      rw [set, if_neg named, List.map_cons, ih]
      by_cases known : key ∈ entries.map Prod.fst
      · simp only [List.map_cons, List.mem_cons, known, or_true, if_true]
      · simp only [List.map_cons, List.mem_cons, known, other, or_self, if_false, List.cons_append]

/-- A value after setting a key is the value set or one from before. -/
theorem mem_values_set {entries : List (K × V)} {key : K} {value other : V}
    (stored : other ∈ (set entries key value).map Prod.snd) :
    other = value ∨ other ∈ entries.map Prod.snd := by
  induction entries with
  | nil => simpa [set] using stored
  | cons entry entries ih =>
    obtain ⟨name, old⟩ := entry
    rw [set] at stored
    split at stored
    · rw [List.map_cons, List.mem_cons] at stored
      rcases stored with here | later
      · exact Or.inl here
      · exact Or.inr (List.mem_cons_of_mem _ later)
    · rw [List.map_cons, List.mem_cons] at stored
      rcases stored with here | later
      · exact Or.inr (here ▸ List.mem_cons_self)
      · exact (ih later).imp_right (List.mem_cons_of_mem _)

/-- Setting one more entry after a list of them. -/
theorem setAll_concat (entries more : List (K × V)) (entry : K × V) :
    setAll entries (more ++ [entry]) = set (setAll entries more) entry.1 entry.2 := by
  simp [setAll]

/-- Every value set is one of the list. -/
theorem mem_values_setAll {more : List (K × V)} {value : V}
    (stored : value ∈ (setAll [] more).map Prod.snd) : value ∈ more.map Prod.snd := by
  induction more using List.reverseRecOn with
  | nil => exact stored
  | append_singleton more entry ih =>
    rw [setAll_concat] at stored
    rw [List.map_append, List.mem_append]
    rcases mem_values_set stored with same | old
    · exact Or.inr (same ▸ List.mem_singleton_self _)
    · exact Or.inl (ih old)

/-- The last value set under a key is its value. -/
theorem get_setAll (more : List (K × V)) (key : K) : get (setAll [] more) key = last more key := by
  induction more using List.reverseRecOn with
  | nil => rfl
  | append_singleton more entry ih =>
    rw [setAll_concat, get_set, ih]
    unfold last
    by_cases same : entry.1 = key
    · simp [same]
    · simp [same]

/-- The keys set are those of the list. -/
theorem mem_keys_setAll {more : List (K × V)} {key : K} :
    key ∈ (setAll [] more).map Prod.fst ↔ key ∈ more.map Prod.fst := by
  induction more using List.reverseRecOn with
  | nil => rfl
  | append_singleton more entry ih =>
    rw [setAll_concat, keys_set, List.map_append, List.mem_append, ← ih]
    by_cases known : entry.1 ∈ (setAll [] more).map Prod.fst
    · rw [if_pos known]
      refine ⟨Or.inl, fun listed => listed.elim id fun here => ?_⟩
      rw [List.mem_singleton.mp here]
      exact known
    · rw [if_neg known, List.mem_append]
      rfl

/-- Every key is kept once. -/
theorem nodup_keys_setAll (more : List (K × V)) : ((setAll [] more).map Prod.fst).Nodup := by
  induction more using List.reverseRecOn with
  | nil => exact List.nodup_nil
  | append_singleton more entry ih =>
    rw [setAll_concat, keys_set]
    by_cases known : entry.1 ∈ (setAll [] more).map Prod.fst
    · rw [if_pos known]
      exact ih
    · rw [if_neg known]
      exact List.nodup_append.mpr ⟨ih, List.nodup_singleton _, by
        intro key stored other appended same
        rw [List.mem_singleton.mp appended] at same
        exact known (same ▸ stored)⟩

/-- There are as many entries as distinct keys. -/
theorem length_setAll (more : List (K × V)) :
    (setAll [] more).length = (more.map Prod.fst).toFinset.card := by
  have same : ((setAll [] more).map Prod.fst).toFinset = (more.map Prod.fst).toFinset := by
    ext key
    rw [List.mem_toFinset, List.mem_toFinset]
    exact mem_keys_setAll
  rw [← same, List.toFinset_card_of_nodup (nodup_keys_setAll more), List.length_map]

/-- The keys stand in the order of their first occurrences. -/
theorem pairwise_keys_setAll [BEq K] [LawfulBEq K] (more : List (K × V)) :
    ((setAll [] more).map Prod.fst).Pairwise fun left right =>
      (more.map Prod.fst).idxOf left < (more.map Prod.fst).idxOf right := by
  induction more using List.reverseRecOn with
  | nil => exact List.Pairwise.nil
  | append_singleton more entry ih =>
    have early {key : K} (stored : key ∈ (setAll [] more).map Prod.fst) :
        ((more ++ [entry]).map Prod.fst).idxOf key = (more.map Prod.fst).idxOf key := by
      rw [List.map_append]
      exact List.idxOf_append_of_mem (mem_keys_setAll.mp stored)
    have kept : ((setAll [] more).map Prod.fst).Pairwise fun left right =>
        ((more ++ [entry]).map Prod.fst).idxOf left <
          ((more ++ [entry]).map Prod.fst).idxOf right := by
      apply ih.imp_of_mem
      intro left right first second before
      rw [early first, early second]
      exact before
    rw [setAll_concat, keys_set]
    by_cases known : entry.1 ∈ (setAll [] more).map Prod.fst
    · rw [if_pos known]
      exact kept
    · rw [if_neg known]
      refine List.pairwise_append.mpr ⟨kept, List.pairwise_singleton _ _, ?_⟩
      intro key stored other appended
      rw [List.mem_singleton.mp appended, early stored]
      have absent : entry.1 ∉ more.map Prod.fst := fun listed => known (mem_keys_setAll.mpr listed)
      have place : ((more ++ [entry]).map Prod.fst).idxOf entry.1 = (more.map Prod.fst).length := by
        rw [List.map_append, List.idxOf_append_of_notMem absent]
        simp
      rw [place]
      exact List.idxOf_lt_length_of_mem (mem_keys_setAll.mp stored)

end PlatformService.Lib.Assoc
