import PlatformService.Store.Db

/-!
# Transactions

Every handler writes in the same shape: `BEGIN IMMEDIATE`, statements, `COMMIT`, and
`ROLLBACK` when a statement or a check gives up. `transaction` is that shape.

`Guarantees` states what SQL inside a transaction does to the content it sees, and
`Leaves` what a whole block does to the content other connections see. Both have
one rule for each way of building SQL, in which what follows a statement is proved
from each of its results, and `leaves_transaction` leads from one to the other: a
transaction leaves the whole effect of its body, or nothing at all.
-/

namespace PlatformService.Store.Sql

open Lib

variable {α β ε : Type}

/-- `BEGIN IMMEDIATE`, a body, `COMMIT`; `ROLLBACK` when the body gives up with a reason. A
failed `COMMIT` returns with the transaction still open. -/
def transaction (failed : ε) (body : Sql (Except ε α)) : Sql (Except ε α) := do
  if !(← Sql.begin) then return .error failed
  match ← body with
  | .error reason =>
    Sql.rollback
    return .error reason
  | .ok value => if ← Sql.commit then return .ok value else return .error failed

/-- `BEGIN IMMEDIATE` on a closed connection. -/
theorem begin_eq (db : Db) (faults : List Bool) :
    Sql.begin (Conn.of db, faults) =
      if faults.headD false then (false, Conn.of db, faults.tail)
      else (true, ⟨db, [db]⟩, faults.tail) := by
  unfold Sql.begin
  rw [Faulty.run_bind]
  unfold Faulty.attempt
  dsimp only
  cases faults.headD false with
  | true => rfl
  | false => rfl

/-- `COMMIT` inside a transaction. -/
theorem commit_eq {conn : Conn} (inside : conn.undo ≠ []) (faults : List Bool) :
    Sql.commit (conn, faults) =
      if faults.headD false then (false, conn, faults.tail)
      else (true, Conn.of conn.db, faults.tail) := by
  unfold Sql.commit
  rw [Faulty.run_bind]
  unfold Faulty.attempt
  dsimp only
  rw [if_neg inside]
  cases faults.headD false with
  | true => rfl
  | false => rfl

/-- A transaction on a closed connection, in terms of its body and its `COMMIT`. -/
theorem transaction_eq (failed : ε) (body : Sql (Except ε α)) (db : Db) (faults : List Bool) :
    transaction failed body (Conn.of db, faults) =
      if faults.headD false then (.error failed, Conn.of db, faults.tail)
      else
        match body (⟨db, [db]⟩, faults.tail) with
        | (.error reason, conn, rest) => (.error reason, Conn.of conn.committed, rest)
        | (.ok value, conn, rest) =>
          match Sql.commit (conn, rest) with
          | (true, after) => (.ok value, after)
          | (false, after) => (.error failed, after) := by
  unfold transaction
  rw [Faulty.run_bind, begin_eq]
  cases faults.headD false with
  | true => rfl
  | false =>
    rw [if_neg (by simp), if_neg (by simp), Faulty.run_bind]
    generalize body (⟨db, [db]⟩, faults.tail) = out
    obtain ⟨result, conn, rest⟩ := out
    cases result with
    | error reason => rfl
    | ok value =>
      dsimp only
      rw [Faulty.run_bind]
      generalize Sql.commit (conn, rest) = done
      obtain ⟨committed, after⟩ := done
      cases committed with
      | true => rfl
      | false => rfl

variable {reliable : Prop}

/-- What SQL that opens no transaction of its own does to the content it sees. -/
def Guarantees (reliable : Prop) (command : Sql α) (db : Db) (post : α → Db → Prop) : Prop :=
  ∀ undo, Faulty.Ensures reliable command ⟨db, undo⟩ fun value conn =>
    conn.undo = undo ∧ post value conn.db

/-- SQL without a transaction of its own, followed by SQL that may change what is restored. -/
theorem Guarantees.andThen {first : Sql α} {next : α → Sql β} {db : Db} {undo : List Db}
    {middle : α → Db → Prop} {post : β → Conn → Prop} (begins : Guarantees reliable first db middle)
    (continues : ∀ value after, middle value after →
      Faulty.Ensures reliable (next value) ⟨after, undo⟩ post) :
    Faulty.Ensures reliable (first >>= next) ⟨db, undo⟩ post := by
  apply Faulty.ensures_bind (begins undo)
  intro value conn reached
  have same : conn = ⟨conn.db, undo⟩ := by rw [← reached.1]
  rw [same]
  exact continues value conn.db reached.2

/-- Returning a value changes nothing. -/
theorem guarantees_pure {value : α} {db : Db} {post : α → Db → Prop} (h : post value db) :
    Guarantees reliable (pure value) db post := fun _ => Faulty.ensures_pure ⟨rfl, h⟩

/-- A sequence guarantees what its second command does from every result of the first. -/
theorem guarantees_bind {first : Sql α} {next : α → Sql β} {db : Db} {middle : α → Db → Prop}
    {post : β → Db → Prop} (begins : Guarantees reliable first db middle)
    (continues : ∀ value after, middle value after → Guarantees reliable (next value) after post) :
    Guarantees reliable (first >>= next) db post := by
  intro undo
  exact begins.andThen fun value after reached => continues value after reached undo

/-- A conditional guarantees what its branches do where they are taken. -/
theorem guarantees_ite {condition : Prop} [Decidable condition] {yes no : Sql α} {db : Db}
    {post : α → Db → Prop} (holds : condition → Guarantees reliable yes db post)
    (fails : ¬condition → Guarantees reliable no db post) :
    Guarantees reliable (if condition then yes else no) db post := by
  by_cases taken : condition
  · rw [if_pos taken]
    exact holds taken
  · rw [if_neg taken]
    exact fails taken

/-- A weaker guarantee follows from a stronger one. -/
theorem Guarantees.mono {command : Sql α} {db : Db} {post weaker : α → Db → Prop}
    (h : Guarantees reliable command db post)
    (weaken : ∀ value after, post value after → weaker value after) :
    Guarantees reliable command db weaker := fun undo =>
  (h undo).mono fun value conn reached => ⟨reached.1, weaken value conn.db reached.2⟩

/-- A statement guarantees what holds of its result, and of failure in place where it has none or
a fault is possible. -/
theorem statement_spec {run : Db → Option (α × Db)} {db : Db} {post : Option α → Db → Prop}
    (failure : ¬reliable ∨ run db = none → post none db)
    (success : ∀ value after, run db = some (value, after) → post (some value) after) :
    Guarantees reliable (statement run) db post := by
  intro undo
  apply Faulty.ensures_attempt
  · intro cause
    exact ⟨rfl, failure (cause.imp_right fun impossible => by simpa using impossible)⟩
  · intro value conn done
    cases ran : run db with
    | none => simp [ran] at done
    | some result =>
      simp only [ran, Option.map_some, Option.some.injEq, Prod.mk.injEq] at done
      obtain ⟨rfl, rfl⟩ := done
      exact ⟨rfl, success _ _ ran⟩

/-- Before a statement: what follows it, from its result or from its failure in place. -/
theorem guarantees_statement {run : Db → Option (α × Db)} {next : Option α → Sql β} {db : Db}
    {post : β → Db → Prop}
    (failure : ¬reliable ∨ run db = none → Guarantees reliable (next none) db post)
    (success : ∀ value after, run db = some (value, after) →
      Guarantees reliable (next (some value)) after post) :
    Guarantees reliable (statement run >>= next) db post :=
  guarantees_bind (statement_spec failure success) fun _ _ reached => reached

/-- Before a query: what follows it, from its answer or from its failure. -/
theorem guarantees_query {read : Db → α} {next : Option α → Sql β} {db : Db}
    {post : β → Db → Prop} (failure : ¬reliable → Guarantees reliable (next none) db post)
    (success : Guarantees reliable (next (some (read db))) db post) :
    Guarantees reliable (query read >>= next) db post := by
  apply guarantees_statement
  · intro cause
    exact failure (cause.resolve_right (by simp))
  · intro value after done
    simp only [Option.some.injEq, Prod.mk.injEq] at done
    exact done.1 ▸ done.2 ▸ success

/-- Before a query for at most one row, whose failure looks like absence. -/
theorem guarantees_lookup {read : Db → Option α} {next : Option α → Sql β} {db : Db}
    {post : β → Db → Prop} (failure : ¬reliable → Guarantees reliable (next none) db post)
    (success : Guarantees reliable (next (read db)) db post) :
    Guarantees reliable ((do return (← query read).join) >>= next) db post := by
  rw [bind_assoc]
  apply guarantees_query
  · intro possible
    exact failure possible
  · exact success

/-- Before a statement that reports success or failure. -/
theorem guarantees_execute {run : Db → Option Db} {next : Bool → Sql β} {db : Db}
    {post : β → Db → Prop}
    (failure : ¬reliable ∨ run db = none → Guarantees reliable (next false) db post)
    (success : ∀ after, run db = some after → Guarantees reliable (next true) after post) :
    Guarantees reliable (execute run >>= next) db post := by
  unfold execute
  rw [bind_assoc]
  apply guarantees_statement
  · intro cause
    exact failure (cause.imp_right fun impossible => by simpa using impossible)
  · intro value after done
    cases ran : run db with
    | none => simp [ran] at done
    | some result =>
      have same : result = after := by simpa [ran] using done
      exact same ▸ success result ran

/-- Before an update, which applies unless a fault stops it. -/
theorem guarantees_update {change : Db → Db} {next : Bool → Sql β} {db : Db}
    {post : β → Db → Prop} (failure : ¬reliable → Guarantees reliable (next false) db post)
    (success : Guarantees reliable (next true) (change db) post) :
    Guarantees reliable (execute (fun db => some (change db)) >>= next) db post := by
  apply guarantees_execute
  · intro cause
    exact failure (cause.resolve_right (by simp))
  · intro after done
    cases done
    exact success

/-- What a block, started outside any transaction, leaves for other connections to see. -/
def Leaves (reliable : Prop) (command : Sql α) (db : Db) (post : α → Db → Prop) : Prop :=
  Faulty.Ensures reliable command (Conn.of db) fun value conn => post value conn.committed

/-- A weaker effect follows from a stronger one. -/
theorem Leaves.mono {command : Sql α} {db : Db} {post weaker : α → Db → Prop}
    (h : Leaves reliable command db post)
    (weaken : ∀ value after, post value after → weaker value after) :
    Leaves reliable command db weaker := Faulty.Ensures.mono h fun _ _ => weaken _ _

/-- Two effects of one command. -/
theorem Leaves.and {command : Sql α} {db : Db} {left right : α → Db → Prop}
    (first : Leaves reliable command db left) (second : Leaves reliable command db right) :
    Leaves reliable command db fun value after => left value after ∧ right value after :=
  fun faults none => ⟨⟨(first faults none).1, (second faults none).1⟩, (first faults none).2⟩

/-- Outside a transaction a statement's effect is seen at once. -/
theorem Guarantees.leaves {command : Sql α} {db : Db} {post : α → Db → Prop}
    (h : Guarantees reliable command db post) : Leaves reliable command db post := by
  refine (h []).mono ?_
  rintro value ⟨after, undo⟩ ⟨rfl, reached⟩
  exact reached

/-- Returning something for the value of a block changes nothing more. -/
theorem Leaves.andReturn {command : Sql α} {next : α → Sql β} {db : Db} {middle : α → Db → Prop}
    {post : β → Db → Prop} (h : Leaves reliable command db middle)
    (returns : ∀ value after, middle value after →
      ∃ result, next value = pure result ∧ post result after) :
    Leaves reliable (command >>= next) db post := by
  apply Faulty.ensures_bind h
  intro value conn reached
  obtain ⟨result, same, ends⟩ := returns value conn.committed reached
  rw [same]
  exact Faulty.ensures_pure ends

/-- Turning the value of a block into another leaves the same content. -/
theorem Leaves.map {command : Sql α} {next : α → Sql β} {f : α → β} {db : Db}
    {post : β → Db → Prop} (h : Leaves reliable command db fun value after => post (f value) after)
    (returns : ∀ value, next value = pure (f value)) :
    Leaves reliable (command >>= next) db post :=
  h.andReturn fun value _ reached => ⟨f value, returns value, reached⟩

/-- What a block leaves, whatever is made of its value. -/
theorem Leaves.andThen {command : Sql α} {next : α → Sql β} {db : Db} {left : Db → Prop}
    (h : Leaves reliable command db fun _ after => left after)
    (returns : ∀ value, ∃ result, next value = pure result) :
    Leaves reliable (command >>= next) db fun _ after => left after := by
  apply h.andReturn
  intro value after reached
  obtain ⟨result, same⟩ := returns value
  exact ⟨result, same, reached⟩

/-- An effect required of a body that runs through; one that gives up is rolled back. -/
def OnSuccess (effect : α → Db → Prop) (result : Except ε α) (after : Db) : Prop :=
  ∀ value, result = .ok value → effect value after

/-- A body that gives up owes nothing. -/
theorem guarantees_giveUp {reason : ε} {db : Db} {effect : α → Db → Prop} :
    Guarantees reliable (pure (.error reason)) db (OnSuccess effect) :=
  guarantees_pure fun _ impossible => by contradiction

/-- A body that runs through owes its effect. -/
theorem guarantees_finish {value : α} {db : Db} {effect : α → Db → Prop} (h : effect value db) :
    Guarantees reliable (pure (.ok value : Except ε α)) db (OnSuccess effect) :=
  guarantees_pure fun _ same => Except.ok.inj same ▸ h

/-- The whole effect, or the content as it was. -/
def AllOrNothing (db : Db) (effect : α → Db → Prop) : Except ε α → Db → Prop
  | .ok value, after => effect value after
  | .error _, after => after = db

/-- An effect required of a body that runs through, as it does when nothing fails. -/
def SureSuccess (reliable : Prop) (effect : α → Db → Prop) (result : Except ε α) (after : Db) :
    Prop :=
  (∀ value, result = .ok value → effect value after) ∧ ∀ reason, result = .error reason → ¬reliable

/-- A body gives up only where something may fail. -/
theorem guarantees_giveUp_sure {reason : ε} {db : Db} {effect : α → Db → Prop}
    (possible : ¬reliable) :
    Guarantees reliable (pure (.error reason)) db (SureSuccess reliable effect) :=
  guarantees_pure ⟨fun _ impossible => by contradiction, fun _ _ => possible⟩

/-- A body that runs through owes its effect. -/
theorem guarantees_finish_sure {value : α} {db : Db} {effect : α → Db → Prop}
    (h : effect value db) :
    Guarantees reliable (pure (.ok value : Except ε α)) db (SureSuccess reliable effect) :=
  guarantees_pure ⟨fun _ same => Except.ok.inj same ▸ h, fun _ impossible => by contradiction⟩

/-- The whole effect, or the content as it was because something failed. -/
def Settles (reliable : Prop) (db : Db) (effect : α → Db → Prop) : Except ε α → Db → Prop
  | .ok value, after => effect value after
  | .error _, after => ¬reliable ∧ after = db

/-- What is settled is all or nothing. -/
theorem Settles.allOrNothing {db after : Db} {effect : α → Db → Prop} {result : Except ε α}
    (h : Settles reliable db effect result after) : AllOrNothing db effect result after := by
  cases result with
  | ok value => exact h
  | error reason => exact h.2

/-- `BEGIN IMMEDIATE` outside a transaction remembers the content it finds. -/
private theorem ensures_begin (db : Db) :
    Faulty.Ensures reliable Sql.begin (Conn.of db) fun begun conn =>
      if begun then conn = ⟨db, [db]⟩ else ¬reliable ∧ conn = Conn.of db := by
  have attempted : Faulty.Ensures reliable (Faulty.attempt fun conn : Conn =>
      if conn.undo = [] then some ((), { conn with undo := [conn.db] }) else none) (Conn.of db)
      fun begun conn =>
        if begun.isSome then conn = ⟨db, [db]⟩ else ¬reliable ∧ conn = Conn.of db := by
    apply Faulty.ensures_attempt
    · intro cause
      exact ⟨cause.resolve_right (by simp [Conn.of]), rfl⟩
    · intro value conn done
      simp only [Conn.of, if_true, Option.some.injEq, Prod.mk.injEq] at done
      exact done.2.symm
  exact Faulty.ensures_bind attempted fun begun conn reached => Faulty.ensures_pure reached

/-- `COMMIT` forgets what `ROLLBACK` would restore, or fails in place. -/
private theorem ensures_commit {conn : Conn} (inside : conn.undo ≠ []) :
    Faulty.Ensures reliable Sql.commit conn fun done after =>
      if done then after = Conn.of conn.db else ¬reliable ∧ after = conn := by
  have attempted : Faulty.Ensures reliable (Faulty.attempt fun conn : Conn =>
      if conn.undo = [] then none else some ((), { conn with undo := [] })) conn
      fun done after =>
        if done.isSome then after = Conn.of conn.db else ¬reliable ∧ after = conn := by
    apply Faulty.ensures_attempt
    · intro cause
      exact ⟨cause.resolve_right (by simp [inside]), rfl⟩
    · intro value after done
      rw [if_neg inside] at done
      exact (congrArg Prod.snd (Option.some.inj done)).symm
  exact Faulty.ensures_bind attempted fun done after reached => Faulty.ensures_pure reached

/-- What the body of a transaction does: it may leave savepoints open, but never the transaction. -/
def Inside (reliable : Prop) (body : Sql α) (db : Db) (post : α → Db → Prop) : Prop :=
  Faulty.Ensures reliable body ⟨db, [db]⟩ fun value conn =>
    conn.undo.getLast? = some db ∧ post value conn.db

/-- SQL without savepoints of its own can be the body of a transaction. -/
theorem Guarantees.inside {body : Sql α} {db : Db} {post : α → Db → Prop}
    (h : Guarantees reliable body db post) : Inside reliable body db post :=
  (h [db]).mono fun _ _ reached => ⟨by rw [reached.1]; rfl, reached.2⟩

/-- After a part that may leave savepoints open, SQL without savepoints of its own. -/
theorem inside_bind {first : Sql α} {next : α → Sql β} {db : Db} {middle : α → Db → Prop}
    {post : β → Db → Prop} (begins : Inside reliable first db middle)
    (continues : ∀ value after, middle value after → Guarantees reliable (next value) after post) :
    Inside reliable (first >>= next) db post := by
  apply Faulty.ensures_bind begins
  intro value conn ⟨began, reached⟩
  refine (continues value conn.db reached conn.undo).mono fun _ after ends => ?_
  exact ⟨by rw [ends.1]; exact began, ends.2⟩

/-- What others see of a connection whose transaction began on some content. -/
private theorem committed_of_getLast? {conn : Conn} {db : Db}
    (began : conn.undo.getLast? = some db) : conn.committed = db := by
  rw [Conn.committed, List.getLastD_eq_getLast?, began]
  rfl

/-- A transaction leaves the effect of its body, or what it found. Without a chance of failure it
reports what the body does. -/
private theorem transaction_spec {failed : ε} {body : Sql (Except ε α)} {db : Db}
    {post : Except ε α → Db → Prop} (h : Inside reliable body db post) :
    Leaves reliable (transaction failed body) db fun result after =>
      match result with
      | .ok value => post (.ok value) after
      | .error reason => after = db ∧ (¬reliable ∨ ∃ seen, post (.error reason) seen) := by
  apply Faulty.ensures_bind (ensures_begin db)
  intro begun conn started
  cases begun with
  | false =>
    have outside : ¬reliable ∧ conn = Conn.of db := started
    rw [outside.2]
    exact Faulty.ensures_pure ⟨rfl, Or.inl outside.1⟩
  | true =>
    have inside : conn = ⟨db, [db]⟩ := started
    rw [inside]
    apply Faulty.ensures_bind h
    intro result conn ⟨began, reached⟩
    cases result with
    | error reason =>
      have rolledBack : Faulty.Ensures reliable Sql.rollback conn fun _ conn => conn = Conn.of db :=
        Faulty.ensures_always (congrArg Conn.of (committed_of_getLast? began))
      apply Faulty.ensures_bind rolledBack
      intro _ _ back
      rw [back]
      exact Faulty.ensures_pure ⟨rfl, Or.inr ⟨conn.db, reached⟩⟩
    | ok value =>
      have opened : conn.undo ≠ [] := by
        intro empty
        rw [empty] at began
        contradiction
      apply Faulty.ensures_bind (ensures_commit opened)
      intro done closed finished
      cases done with
      | true =>
        have committed : closed = Conn.of conn.db := finished
        rw [committed]
        exact Faulty.ensures_pure reached
      | false =>
        have stuck : ¬reliable ∧ closed = conn := finished
        rw [stuck.2]
        exact Faulty.ensures_pure ⟨committed_of_getLast? began, Or.inl stuck.1⟩

/-- A transaction leaves the effect of its body, or what it found. -/
theorem leaves_of_inside {failed : ε} {body : Sql (Except ε α)} {db : Db} {effect : α → Db → Prop}
    (h : Inside reliable body db (OnSuccess effect)) :
    Leaves reliable (transaction failed body) db (AllOrNothing db effect) := by
  refine (transaction_spec h).mono fun result after left => ?_
  cases result with
  | ok value => exact left value rfl
  | error reason => exact left.1

/-- A transaction whose body runs through unless something fails leaves the effect of the body, or
what it found because something failed. -/
theorem leaves_transaction_sure {failed : ε} {body : Sql (Except ε α)} {db : Db}
    {effect : α → Db → Prop} (h : Guarantees reliable body db (SureSuccess reliable effect)) :
    Leaves reliable (transaction failed body) db (Settles reliable db effect) := by
  refine (transaction_spec h.inside).mono fun result after left => ?_
  cases result with
  | ok value => exact left.1 value rfl
  | error reason =>
    refine ⟨?_, left.1⟩
    cases left.2 with
    | inl possible => exact possible
    | inr gaveUp =>
      obtain ⟨seen, refused⟩ := gaveUp
      exact refused.2 reason rfl

/-- A transaction whose body has no savepoints leaves the effect of the body, or what it found. -/
theorem leaves_transaction {failed : ε} {body : Sql (Except ε α)} {db : Db}
    {effect : α → Db → Prop} (h : Guarantees reliable body db (OnSuccess effect)) :
    Leaves reliable (transaction failed body) db (AllOrNothing db effect) :=
  leaves_of_inside h.inside

/-- What a body reports, its transaction reports, unless something fails. -/
theorem leaves_transaction_answers {failed : ε} {body : Sql (Except ε α)} {db : Db}
    {holds : Except ε α → Prop} (sure : reliable)
    (h : Inside reliable body db fun result _ => holds result) :
    Leaves reliable (transaction failed body) db fun result _ => holds result := by
  refine (transaction_spec h).mono fun result after left => ?_
  cases result with
  | ok value => exact left
  | error reason =>
    cases left.2 with
    | inl possible => exact absurd sure possible
    | inr reported =>
      obtain ⟨_, holds⟩ := reported
      exact holds

section Frames

variable {V : Type} {view : Db → V}

/-- SQL that opens no transaction of its own and leaves a part of the content alone. -/
def Keeps (view : Db → V) (command : Sql α) : Prop :=
  ∀ reliable db, Guarantees reliable command db fun _ after => view after = view db

/-- Returning a value leaves everything alone. -/
theorem keeps_pure (value : α) : Keeps view (pure value) := fun _ _ => guarantees_pure rfl

/-- A sequence leaves alone what both its commands do. -/
theorem keeps_bind {first : Sql α} {next : α → Sql β} (begins : Keeps view first)
    (continues : ∀ value, Keeps view (next value)) : Keeps view (first >>= next) := by
  intro reliable db
  apply guarantees_bind (begins reliable db)
  intro value after same
  exact (continues value reliable after).mono fun _ _ kept => kept.trans same

/-- A conditional leaves alone what both its branches do. -/
theorem keeps_ite {condition : Prop} [Decidable condition] {yes no : Sql α}
    (holds : Keeps view yes) (fails : Keeps view no) :
    Keeps view (if condition then yes else no) := fun reliable db =>
  guarantees_ite (fun _ => holds reliable db) fun _ => fails reliable db

/-- A statement leaves alone what it does not compute anew. -/
theorem keeps_statement {run : Db → Option (α × Db)}
    (same : ∀ db value after, run db = some (value, after) → view after = view db) :
    Keeps view (statement run) := fun _ db =>
  statement_spec (fun _ => rfl) fun value after done => same db value after done

/-- A query leaves everything alone. -/
theorem keeps_query (read : Db → α) : Keeps view (query read) := by
  apply keeps_statement
  intro db value after done
  cases done
  rfl

/-- A query for at most one row leaves everything alone. -/
theorem keeps_lookup (read : Db → Option α) : Keeps view (do return (← query read).join) :=
  keeps_bind (keeps_query read) fun _ => keeps_pure _

/-- A statement that reports success or failure leaves alone what it does not compute anew. -/
theorem keeps_execute {run : Db → Option Db}
    (same : ∀ db after, run db = some after → view after = view db) : Keeps view (execute run) := by
  refine keeps_bind (keeps_statement fun db value after done => ?_) fun _ => keeps_pure _
  cases ran : run db with
  | none => simp [ran] at done
  | some result =>
    have result_eq : result = after := by simpa [ran] using done
    exact result_eq ▸ same db result ran

/-- An update leaves alone what it does not set. -/
theorem keeps_update {change : Db → Db} (same : ∀ db, view (change db) = view db) :
    Keeps view (execute fun db => some (change db)) := by
  apply keeps_execute
  intro db after done
  cases done
  exact same db

/-- A block that leaves a part of the committed content alone. -/
def KeepsCommitted (view : Db → V) (command : Sql α) : Prop :=
  ∀ reliable db, Leaves reliable command db fun _ after => view after = view db

/-- Outside a transaction, what SQL leaves alone stays for the others to see. -/
theorem Keeps.committed {command : Sql α} (h : Keeps view command) : KeepsCommitted view command :=
  fun reliable db => (h reliable db).leaves

/-- A transaction leaves alone what its effect does. -/
theorem keepsCommitted_of_effect {command : Sql (Except ε α)}
    {effect : Prop → Db → α → Db → Prop}
    (spec : ∀ reliable db, Leaves reliable command db (AllOrNothing db (effect reliable db)))
    (same : ∀ reliable db value after, effect reliable db value after → view after = view db) :
    KeepsCommitted view command := by
  intro reliable db
  refine (spec reliable db).mono fun result after left => ?_
  cases result with
  | ok value => exact same reliable db value after left
  | error reason => exact congrArg view left

/-- A transaction leaves alone what its body does. -/
theorem Keeps.transaction {failed : ε} {body : Sql (Except ε α)} (h : Keeps view body) :
    KeepsCommitted view (transaction failed body) := by
  have leaves (reliable : Prop) (db : Db) : Leaves reliable (Sql.transaction failed body) db
      (AllOrNothing db fun _ after => view after = view db) :=
    leaves_transaction ((h reliable db).mono fun _ _ same _ _ => same)
  exact keepsCommitted_of_effect leaves fun _ _ _ _ same => same

/-- Working on the value of a block leaves the same alone. -/
theorem KeepsCommitted.andThen {command : Sql α} {next : α → Sql β}
    (h : KeepsCommitted view command) (returns : ∀ value, ∃ result, next value = pure result) :
    KeepsCommitted view (command >>= next) := fun reliable db => (h reliable db).andThen returns

end Frames

end PlatformService.Store.Sql
