import Mathlib.Data.Fin.Basic
import Mathlib.Data.Nat.ModEq
import Mathlib.Logic.Function.Basic

/-!
# Open addressing

A fixed array of slots, each empty or holding an entry, searched for a key from
the key's home slot on, cyclically, until the key or an empty slot turns up. The
table is sound when every key is stored once and its slot is reached from its
home without crossing an empty slot; then a search finds exactly the stored keys
(`Sound.search_stored`, `Sound.search_absent`). Storing an entry keeps the table
sound exactly when its slot is reached from its home (`Sound.store_iff`).
-/

namespace PlatformService.Lib.Probe

variable {n : Nat} [NeZero n] {K E : Type} [DecidableEq K]

/-- The slot a number of steps after a starting point, cyclically. -/
def slotAt (start offset : Nat) : Fin n := Fin.ofNat n (start + offset)

/-- What a search ends with. -/
inductive Outcome (n : Nat) where
  | hit (slot : Fin n)
  | empty (slot : Fin n)
  | full
  deriving DecidableEq, Repr

/-- Search from an offset on, for a number of steps. -/
def searchFrom (slots : Fin n → Option E) (key : E → K) (k : K) (start : Nat) :
    Nat → Nat → Outcome n
  | 0, _ => .full
  | steps + 1, offset =>
    match slots (slotAt start offset) with
    | none => .empty (slotAt start offset)
    | some entry =>
      if key entry = k then .hit (slotAt start offset)
      else searchFrom slots key k start steps (offset + 1)

/-- Search the whole table from the key's home. -/
def search (slots : Fin n → Option E) (key : E → K) (home : K → Nat) (k : K) : Outcome n :=
  searchFrom slots key k (home k) n 0

/-- A slot that is reached from a starting point without crossing an empty slot. -/
def Reaches (slots : Fin n → Option E) (start : Nat) (slot : Fin n) : Prop :=
  ∃ offset < n, slotAt start offset = slot ∧ ∀ before < offset, slots (slotAt start before) ≠ none

instance (slots : Fin n → Option E) (start : Nat) (slot : Fin n) :
    Decidable (Reaches slots start slot) :=
  inferInstanceAs (Decidable (∃ offset < n, _))

/-- Every key is stored once, where a search from its home gets to. -/
structure Sound (slots : Fin n → Option E) (key : E → K) (home : K → Nat) : Prop where
  unique : ∀ {i j : Fin n} {e e' : E}, slots i = some e → slots j = some e' → key e = key e' → i = j
  reached : ∀ {i : Fin n} {e : E}, slots i = some e → Reaches slots (home (key e)) i

/-- Every slot is some number of steps after any starting point. -/
theorem exists_slotAt (start : Nat) (slot : Fin n) : ∃ offset < n, slotAt start offset = slot := by
  have positive : 0 < n := Nat.pos_of_neZero n
  have below := Nat.mod_lt start positive
  have split := Nat.div_add_mod start n
  refine ⟨(slot.val + (n - start % n)) % n, Nat.mod_lt _ positive, ?_⟩
  apply Fin.ext
  simp only [slotAt, Fin.ofNat_eq_cast, Fin.val_natCast]
  rw [Nat.add_mod_mod, Nat.add_mod]
  have whole : start % n + (slot.val + (n - start % n)) = slot.val + n := by omega
  rw [← Nat.add_mod, ← Nat.mod_add_mod, whole, Nat.add_mod_right, Nat.mod_eq_of_lt slot.isLt]

/-- Fewer than a full round of steps never returns to a slot. -/
theorem slotAt_inj {start left right : Nat} (hl : left < n) (hr : right < n)
    (same : (slotAt start left : Fin n) = slotAt start right) : left = right := by
  have residues : (start + left) % n = (start + right) % n := by
    simpa [slotAt, Fin.ext_iff] using same
  have cancelled : left % n = right % n := Nat.ModEq.add_left_cancel' start residues
  rwa [Nat.mod_eq_of_lt hl, Nat.mod_eq_of_lt hr] at cancelled

/-- What the outcome of a search says about the table. -/
theorem searchFrom_cases (slots : Fin n → Option E) (key : E → K) (k : K) (start steps offset : Nat) :
    (∃ d < steps, ∃ e, searchFrom slots key k start steps offset = .hit (slotAt start (offset + d)) ∧
        slots (slotAt start (offset + d)) = some e ∧ key e = k ∧
        ∀ i < d, ∃ e, slots (slotAt start (offset + i)) = some e ∧ key e ≠ k) ∨
      (∃ d < steps, searchFrom slots key k start steps offset = .empty (slotAt start (offset + d)) ∧
        slots (slotAt start (offset + d)) = none ∧
        ∀ i < d, ∃ e, slots (slotAt start (offset + i)) = some e ∧ key e ≠ k) ∨
      (searchFrom slots key k start steps offset = .full ∧
        ∀ i < steps, ∃ e, slots (slotAt start (offset + i)) = some e ∧ key e ≠ k) := by
  induction steps generalizing offset with
  | zero => exact Or.inr (Or.inr ⟨rfl, fun i impossible => absurd impossible (Nat.not_lt_zero i)⟩)
  | succ steps ih =>
    unfold searchFrom
    cases found : slots (slotAt start offset) with
    | none => exact Or.inr (Or.inl ⟨0, Nat.succ_pos _, rfl, found, fun i impossible =>
        absurd impossible (Nat.not_lt_zero i)⟩)
    | some entry =>
      dsimp only
      by_cases same : key entry = k
      · rw [if_pos same]
        exact Or.inl ⟨0, Nat.succ_pos _, entry, rfl, found, same, fun i impossible =>
          absurd impossible (Nat.not_lt_zero i)⟩
      · rw [if_neg same]
        -- the slot just passed joins those the rest of the search passes
        have extend : ∀ d, (∀ i < d, ∃ e, slots (slotAt start (offset + 1 + i)) = some e ∧ key e ≠ k) →
            ∀ i < d + 1, ∃ e, slots (slotAt start (offset + i)) = some e ∧ key e ≠ k := by
          intro d passed i bound
          cases i with
          | zero => exact ⟨entry, found, same⟩
          | succ i =>
            have shift : offset + (i + 1) = offset + 1 + i := by omega
            rw [shift]
            exact passed i (by omega)
        have shift : ∀ d, offset + 1 + d = offset + (d + 1) := fun d => by omega
        rcases ih (offset + 1) with ⟨d, bound, e, outcome, stored, matching, passed⟩ |
          ⟨d, bound, outcome, stored, passed⟩ | ⟨outcome, passed⟩
        · rw [shift] at outcome stored
          exact Or.inl ⟨d + 1, by omega, e, outcome, stored, matching, extend d passed⟩
        · rw [shift] at outcome stored
          exact Or.inr (Or.inl ⟨d + 1, by omega, outcome, stored, extend d passed⟩)
        · exact Or.inr (Or.inr ⟨outcome, extend steps passed⟩)

section Search

variable {slots : Fin n → Option E} {key : E → K} {home : K → Nat} {k : K}

/-- A hit is a slot that holds the key. -/
theorem stored_of_search_hit {slot : Fin n} (outcome : search slots key home k = .hit slot) :
    ∃ e, slots slot = some e ∧ key e = k := by
  rcases searchFrom_cases slots key k (home k) n 0 with ⟨d, _, e, hit, stored, same, _⟩ |
    ⟨d, _, miss, _, _⟩ | ⟨miss, _⟩
  · rw [search, hit] at outcome
    exact ⟨e, Outcome.hit.inj outcome ▸ stored, same⟩
  · rw [search, miss] at outcome
    contradiction
  · rw [search, miss] at outcome
    contradiction

/-- A search that ends at an empty slot has reached it. -/
theorem reaches_of_search_empty {slot : Fin n} (outcome : search slots key home k = .empty slot) :
    slots slot = none ∧ Reaches slots (home k) slot := by
  rcases searchFrom_cases slots key k (home k) n 0 with ⟨d, _, e, hit, _⟩ |
    ⟨d, bound, miss, stored, passed⟩ | ⟨miss, _⟩
  · rw [search, hit] at outcome
    contradiction
  · rw [search, miss] at outcome
    obtain rfl := Outcome.empty.inj outcome
    refine ⟨stored, 0 + d, by omega, rfl, fun before earlier => ?_⟩
    obtain ⟨e, occupied, _⟩ := passed before (by omega)
    rw [Nat.zero_add] at occupied
    rw [occupied]
    exact Option.some_ne_none e
  · rw [search, miss] at outcome
    contradiction

/-- A search that finds no end has passed every slot. -/
theorem occupied_of_search_full (outcome : search slots key home k = .full) (slot : Fin n) :
    slots slot ≠ none := by
  rcases searchFrom_cases slots key k (home k) n 0 with ⟨d, _, e, hit, _⟩ | ⟨d, _, miss, _⟩ |
    ⟨_, passed⟩
  · rw [search, hit] at outcome
    contradiction
  · rw [search, miss] at outcome
    contradiction
  · obtain ⟨offset, bound, rfl⟩ := exists_slotAt (home k) slot
    obtain ⟨e, occupied, _⟩ := passed offset bound
    rw [Nat.zero_add] at occupied
    rw [occupied]
    exact Option.some_ne_none e

/-- In a sound table a stored key is found where it is. -/
theorem Sound.search_stored (sound : Sound slots key home) {slot : Fin n} {e : E}
    (stored : slots slot = some e) (same : key e = k) : search slots key home k = .hit slot := by
  obtain ⟨offset, bound, rfl, path⟩ := sound.reached stored
  rw [same] at stored path
  rcases searchFrom_cases slots key k (home k) n 0 with ⟨d, _, other, hit, found, matching, _⟩ |
    ⟨d, _, _, absent, passed⟩ | ⟨_, passed⟩
  · have place := sound.unique found stored (matching.trans same.symm)
    rw [search, hit, place, same]
  · exfalso
    -- the search stopped before the key's slot, at a slot its path crosses
    rcases Nat.lt_trichotomy d offset with before | at_slot | after
    · exact path d before (by simpa using absent)
    · rw [at_slot, Nat.zero_add, stored] at absent
      contradiction
    · obtain ⟨other, found, differs⟩ := passed offset after
      rw [Nat.zero_add, stored] at found
      exact differs (Option.some.inj found ▸ same)
  · exfalso
    obtain ⟨other, found, differs⟩ := passed offset bound
    rw [Nat.zero_add, stored] at found
    exact differs (Option.some.inj found ▸ same)

/-- A search hits the first slot on its way that holds the key. -/
theorem search_eq_hit_iff {slot : Fin n} : search slots key home k = .hit slot ↔
    ∃ offset < n, slotAt (home k) offset = slot ∧ (∃ e, slots slot = some e ∧ key e = k) ∧
      ∀ before < offset, ∃ e, slots (slotAt (home k) before) = some e ∧ key e ≠ k := by
  have outcomes := searchFrom_cases slots key k (home k) n 0
  simp only [Nat.zero_add] at outcomes
  constructor
  · intro outcome
    rw [search] at outcome
    rcases outcomes with ⟨d, bound, e, hit, found, same, passed⟩ | ⟨d, _, miss, _⟩ | ⟨miss, _⟩
    · rw [hit] at outcome
      have place := Outcome.hit.inj outcome
      exact ⟨d, bound, place, ⟨e, place ▸ found, same⟩, passed⟩
    · rw [miss] at outcome
      contradiction
    · rw [miss] at outcome
      contradiction
  · intro ⟨offset, bound, place, ⟨e, stored, same⟩, before⟩
    rw [← place] at stored
    -- the key's first slot is neither passed by nor behind the end of the search
    have unpassed : ¬ ∃ other, slots (slotAt (home k) offset) = some other ∧ key other ≠ k := by
      intro ⟨other, found, differs⟩
      rw [stored] at found
      exact differs (Option.some.inj found ▸ same)
    rcases outcomes with ⟨d, _, other, hit, found, matching, passed⟩ | ⟨d, _, _, absent, passed⟩ |
      ⟨_, passed⟩
    · rcases Nat.lt_trichotomy d offset with earlier | at_slot | later
      · obtain ⟨content, held, differs⟩ := before d earlier
        rw [found] at held
        exact absurd (Option.some.inj held ▸ matching) differs
      · rw [search, hit, at_slot, place]
      · exact absurd (passed offset later) unpassed
    · rcases Nat.lt_trichotomy d offset with earlier | at_slot | later
      · obtain ⟨content, held, _⟩ := before d earlier
        rw [absent] at held
        contradiction
      · rw [at_slot, stored] at absent
        contradiction
      · exact absurd (passed offset later) unpassed
    · exact absurd (passed offset bound) unpassed

end Search

section Store

variable {slots : Fin n → Option E} {key : E → K} {home : K → Nat}

/-- Storing an entry of another key elsewhere does not move a key that a search hits. -/
theorem search_hit_update_of_ne {k : K} {slot place : Fin n} {e : E}
    (outcome : search slots key home k = .hit slot) (elsewhere : slot ≠ place)
    (differs : key e ≠ k) :
    search (Function.update slots place (some e)) key home k = .hit slot := by
  obtain ⟨offset, bound, at_slot, held, before⟩ := search_eq_hit_iff.mp outcome
  refine search_eq_hit_iff.mpr ⟨offset, bound, at_slot, ?_, fun d earlier => ?_⟩
  · rw [Function.update_of_ne elsewhere]
    exact held
  · by_cases here : slotAt (home k) d = place
    · rw [here, Function.update_self]
      exact ⟨e, rfl, differs⟩
    · rw [Function.update_of_ne here]
      exact before d earlier

/-- Storing a new entry of a key where a search hits it does not move it. -/
theorem search_hit_update_self {k : K} {slot : Fin n} {e : E}
    (outcome : search slots key home k = .hit slot) (same : key e = k) :
    search (Function.update slots slot (some e)) key home k = .hit slot := by
  obtain ⟨offset, bound, at_slot, ⟨old, held, matching⟩, before⟩ := search_eq_hit_iff.mp outcome
  refine search_eq_hit_iff.mpr ⟨offset, bound, at_slot, ?_, fun d earlier => ?_⟩
  · rw [Function.update_self]
    exact ⟨e, rfl, same⟩
  · obtain ⟨other, found, differs⟩ := before d earlier
    have elsewhere : slotAt (home k) d ≠ slot := by
      intro here
      rw [here, held] at found
      exact differs (Option.some.inj found ▸ matching)
    rw [Function.update_of_ne elsewhere]
    exact ⟨other, found, differs⟩

/-- A key stored where a search from its home gets to is hit there. -/
theorem search_hit_store {slot : Fin n} {e : E} (path : Reaches slots (home (key e)) slot)
    (absent : ∀ i other, slots i = some other → key other ≠ key e) :
    search (Function.update slots slot (some e)) key home (key e) = .hit slot := by
  obtain ⟨offset, bound, at_slot, passed⟩ := path
  refine search_eq_hit_iff.mpr ⟨offset, bound, at_slot, ?_, fun d earlier => ?_⟩
  · rw [Function.update_self]
    exact ⟨e, rfl, rfl⟩
  · have elsewhere : slotAt (home (key e)) d ≠ slot := by
      intro here
      have returned := slotAt_inj (by omega) bound (here.trans at_slot.symm)
      omega
    rw [Function.update_of_ne elsewhere]
    obtain ⟨other, found⟩ := Option.ne_none_iff_exists'.mp (passed d earlier)
    exact ⟨other, found, absent _ other found⟩

/-- Paths survive when slots only fill up. -/
theorem Reaches.mono {after : Fin n → Option E} {start : Nat} {slot : Fin n}
    (path : Reaches slots start slot) (fills : ∀ s, slots s ≠ none → after s ≠ none) :
    Reaches after start slot := by
  obtain ⟨offset, bound, place, passed⟩ := path
  exact ⟨offset, bound, place, fun before earlier => fills _ (passed before earlier)⟩

omit [DecidableEq K] in
/-- Storing an entry whose key is nowhere else keeps a table sound exactly when its slot is reached
from its home. -/
theorem Sound.store_iff (sound : Sound slots key home) {slot : Fin n} {e : E}
    (absent : ∀ i e', slots i = some e' → i ≠ slot → key e' ≠ key e) :
    Sound (Function.update slots slot (some e)) key home ↔ Reaches slots (home (key e)) slot := by
  have fills : ∀ s, slots s ≠ none → Function.update slots slot (some e) s ≠ none := by
    intro s occupied
    by_cases here : s = slot
    · rw [here, Function.update_self]
      exact Option.some_ne_none e
    · rwa [Function.update_of_ne here]
  constructor
  · intro after
    obtain ⟨offset, bound, place, passed⟩ := after.reached (Function.update_self slot (some e) slots)
    refine ⟨offset, bound, place, fun before earlier => ?_⟩
    have crossed := passed before earlier
    by_cases here : slotAt (home (key e)) before = slot
    · have returned := slotAt_inj (by omega) bound (here.trans place.symm)
      omega
    · rwa [Function.update_of_ne here] at crossed
  · intro path
    refine ⟨?_, ?_⟩
    · intro i j left right hl hr same
      by_cases li : i = slot
      · by_cases rj : j = slot
        · rw [li, rj]
        · rw [li, Function.update_self] at hl
          rw [Function.update_of_ne rj] at hr
          exact absurd (Option.some.inj hl ▸ same.symm) (absent j right hr rj)
      · rw [Function.update_of_ne li] at hl
        by_cases rj : j = slot
        · rw [rj, Function.update_self] at hr
          exact absurd (Option.some.inj hr ▸ same) (absent i left hl li)
        · rw [Function.update_of_ne rj] at hr
          exact sound.unique hl hr same
    · intro i stored hl
      by_cases li : i = slot
      · rw [li, Function.update_self] at hl
        rw [li, ← Option.some.inj hl]
        exact path.mono fills
      · rw [Function.update_of_ne li] at hl
        exact (sound.reached hl).mono fills

end Store

end PlatformService.Lib.Probe
