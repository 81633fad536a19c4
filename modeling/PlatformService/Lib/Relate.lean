import PlatformService.Lib.Faulty

/-!
# Two runs side by side

`Relates` compares two commands that start in related states and draw the same
faults: it states what holds of their results and of the states they leave, and that
they have drawn the same faults. Like `Ensures`, it may be limited to runs without a
fault, and has one rule for each way of building a command.
-/

namespace PlatformService.Lib.Faulty

variable {σ τ α β γ δ : Type} {reliable : Prop}

/-- What holds of two commands that start in related states: whatever their faults are, or, when
they are `reliable`, on runs without faults. -/
def Relates (reliable : Prop) (before : σ → τ → Prop) (left : Faulty σ α) (right : Faulty τ β)
    (after : α → β → σ → τ → Prop) : Prop :=
  ∀ state other faults, (reliable → faults = []) → before state other →
    after (left (state, faults)).1 (right (other, faults)).1 (left (state, faults)).2.1
        (right (other, faults)).2.1 ∧
      (left (state, faults)).2.2 = (right (other, faults)).2.2 ∧
      (reliable → (left (state, faults)).2.2 = [])

/-- Two values that are returned. -/
theorem relates_pure {before : σ → τ → Prop} {value : α} {other : β} {after : α → β → σ → τ → Prop}
    (h : ∀ state state', before state state' → after value other state state') :
    Relates reliable before (pure value) (pure other) after :=
  fun state state' _ none related => ⟨h state state' related, rfl, none⟩

/-- Two sequences, by what relates their first commands. -/
theorem relates_bind {before : σ → τ → Prop} {first : Faulty σ α} {first' : Faulty τ β}
    {next : α → Faulty σ γ} {next' : β → Faulty τ δ} {middle : α → β → σ → τ → Prop}
    {after : γ → δ → σ → τ → Prop} (begins : Relates reliable before first first' middle)
    (continues : ∀ value value', Relates reliable (middle value value') (next value) (next' value') after) :
    Relates reliable before (first >>= next) (first' >>= next') after := by
  intro state other faults none related
  obtain ⟨reached, same, left⟩ := begins state other faults none related
  rw [run_bind, run_bind]
  have ends := continues _ _ _ _ (first (state, faults)).2.2 left reached
  have swap : (first' (other, faults)).2 =
      ((first' (other, faults)).2.1, (first (state, faults)).2.2) := by rw [same]
  rw [swap]
  exact ends

/-- Two attempts: both fail in place on a fault, and else do what their actions do. -/
theorem relates_attempt {before : σ → τ → Prop} {action : σ → Option (α × σ)}
    {action' : τ → Option (β × τ)} {after : Option α → Option β → σ → τ → Prop}
    (failure : ¬reliable → ∀ state other, before state other → after none none state other)
    (success : ∀ state other, before state other →
      after ((action state).map Prod.fst) ((action' other).map Prod.fst)
        ((action state).elim state Prod.snd) ((action' other).elim other Prod.snd)) :
    Relates reliable before (attempt action) (attempt action') after := by
  intro state other faults none related
  unfold attempt
  dsimp only
  by_cases drawn : faults.headD false = true
  · have possible : ¬reliable := by
      intro sure
      rw [none sure] at drawn
      contradiction
    rw [if_pos drawn, if_pos drawn]
    exact ⟨failure possible state other related, rfl, fun sure => absurd sure possible⟩
  · have left : reliable → faults.tail = [] := fun sure => by rw [none sure, List.tail_nil]
    have done := success state other related
    rw [if_neg drawn, if_neg drawn]
    cases ran : action state with
    | none =>
      cases ran' : action' other with
      | none =>
        rw [ran, ran'] at done
        exact ⟨done, rfl, left⟩
      | some result =>
        rw [ran, ran'] at done
        exact ⟨done, rfl, left⟩
    | some result =>
      cases ran' : action' other with
      | none =>
        rw [ran, ran'] at done
        exact ⟨done, rfl, left⟩
      | some result' =>
        rw [ran, ran'] at done
        exact ⟨done, rfl, left⟩

/-- A weaker relation follows from a stronger one. -/
theorem Relates.mono {before : σ → τ → Prop} {left : Faulty σ α} {right : Faulty τ β}
    {after weaker : α → β → σ → τ → Prop} (h : Relates reliable before left right after)
    (weaken : ∀ value value' state state', after value value' state state' →
      weaker value value' state state') : Relates reliable before left right weaker :=
  fun state other faults none related =>
    ⟨weaken _ _ _ _ (h state other faults none related).1, (h state other faults none related).2⟩

end PlatformService.Lib.Faulty
