import PlatformService.Store.Transaction

/-!
# SQL on two contents

The same or similar SQL is run on two contents, and no statement fails.
`BothGuarantee` relates what the two runs report and leave inside a transaction,
`BothLeave` what they report and commit outside one. A statement and what follows
it are compared from each outcome of the statement; `bothLeave_transaction` leads
from the bodies of two transactions to the transactions.
-/

namespace PlatformService.Store.Sql

open Lib

variable {α β γ δ ε : Type} {db db' : Db}

/-- What holds of two pieces of SQL without a transaction of their own, each on a content of its own. -/
def BothGuarantee (left : Sql α) (right : Sql β) (db db' : Db)
    (after : α → β → Db → Db → Prop) : Prop :=
  ∀ undo undo', ∃ value value' seen seen',
    left (⟨db, undo⟩, []) = (value, ⟨seen, undo⟩, []) ∧
    right (⟨db', undo'⟩, []) = (value', ⟨seen', undo'⟩, []) ∧ after value value' seen seen'

/-- What holds of two blocks outside a transaction, each on a content of its own. -/
def BothLeave (left : Sql α) (right : Sql β) (db db' : Db)
    (after : α → β → Db → Db → Prop) : Prop :=
  ∃ value value' seen seen', left (Conn.of db, []) = (value, Conn.of seen, []) ∧
    right (Conn.of db', []) = (value', Conn.of seen', []) ∧ after value value' seen seen'

/-- Outside a transaction, what SQL sees is what it leaves. -/
theorem BothGuarantee.leave {left : Sql α} {right : Sql β} {after : α → β → Db → Db → Prop}
    (h : BothGuarantee left right db db' after) : BothLeave left right db db' after := h [] []

/-- Two values that are returned. -/
theorem bothGuarantee_pure {value : α} {value' : β} {after : α → β → Db → Db → Prop}
    (h : after value value' db db') : BothGuarantee (pure value) (pure value') db db' after :=
  fun _ _ => ⟨value, value', db, db', rfl, rfl, h⟩

/-- Two sequences, by what holds of their first commands. -/
theorem bothGuarantee_bind {first : Sql α} {first' : Sql β} {next : α → Sql γ} {next' : β → Sql δ}
    {middle : α → β → Db → Db → Prop} {after : γ → δ → Db → Db → Prop}
    (begins : BothGuarantee first first' db db' middle)
    (continues : ∀ value value' seen seen', middle value value' seen seen' →
      BothGuarantee (next value) (next' value') seen seen' after) :
    BothGuarantee (first >>= next) (first' >>= next') db db' after := by
  intro undo undo'
  obtain ⟨value, value', seen, seen', ran, ran', reached⟩ := begins undo undo'
  obtain ⟨last, last', final, final', ends, ends', holds⟩ :=
    continues value value' seen seen' reached undo undo'
  refine ⟨last, last', final, final', ?_, ?_, holds⟩
  · rw [Faulty.run_bind, ran, ends]
  · rw [Faulty.run_bind, ran', ends']

/-- Two sequences outside a transaction. -/
theorem bothLeave_bind {first : Sql α} {first' : Sql β} {next : α → Sql γ} {next' : β → Sql δ}
    {middle : α → β → Db → Db → Prop} {after : γ → δ → Db → Db → Prop}
    (begins : BothLeave first first' db db' middle)
    (continues : ∀ value value' seen seen', middle value value' seen seen' →
      BothLeave (next value) (next' value') seen seen' after) :
    BothLeave (first >>= next) (first' >>= next') db db' after := by
  obtain ⟨value, value', seen, seen', ran, ran', reached⟩ := begins
  obtain ⟨last, last', final, final', ends, ends', holds⟩ :=
    continues value value' seen seen' reached
  refine ⟨last, last', final, final', ?_, ?_, holds⟩
  · rw [Faulty.run_bind, ran, ends]
  · rw [Faulty.run_bind, ran', ends']

/-- Two runs that have nothing to do with each other, by what each of them guarantees. -/
theorem bothGuarantee_of_each {left : Sql α} {right : Sql β} {post : α → Db → Prop}
    {post' : β → Db → Prop} {after : α → β → Db → Db → Prop}
    (one : Guarantees True left db post) (other : Guarantees True right db' post')
    (join : ∀ value value' seen seen', post value seen → post' value' seen' →
      after value value' seen seen') : BothGuarantee left right db db' after := by
  intro undo undo'
  obtain ⟨⟨same, holds⟩, none⟩ := one undo [] fun _ => rfl
  obtain ⟨⟨same', holds'⟩, none'⟩ := other undo' [] fun _ => rfl
  have unfolds {τ : Type} (out : τ × Conn × List Bool) {undo : List Db} (same : out.2.1.undo = undo)
      (none : out.2.2 = []) : out = (out.1, ⟨out.2.1.db, undo⟩, []) := by
    rw [← same, ← none]
  exact ⟨_, _, _, _, unfolds _ same (none trivial), unfolds _ same' (none' trivial),
    join _ _ _ _ holds holds'⟩

/-- Two statements that both succeed, and what follows them. -/
theorem bothGuarantee_statement {run : Db → Option (α × Db)} {run' : Db → Option (β × Db)}
    {next : Option α → Sql γ} {next' : Option β → Sql δ} {after : γ → δ → Db → Db → Prop}
    {value : α} {value' : β} {seen seen' : Db} (done : run db = some (value, seen))
    (done' : run' db' = some (value', seen'))
    (continues : BothGuarantee (next (some value)) (next' (some value')) seen seen' after) :
    BothGuarantee (statement run >>= next) (statement run' >>= next') db db' after := by
  have ran {τ : Type} {run : Db → Option (τ × Db)} {db seen : Db} {value : τ}
      (done : run db = some (value, seen)) (undo : List Db) :
      statement run (⟨db, undo⟩, []) = (some value, ⟨seen, undo⟩, []) := by
    unfold statement Faulty.attempt
    simp [done]
  have begins : BothGuarantee (statement run) (statement run') db db'
      fun answer answer' left right =>
        answer = some value ∧ answer' = some value' ∧ left = seen ∧ right = seen' :=
    fun undo undo' => ⟨_, _, _, _, ran done undo, ran done' undo', rfl, rfl, rfl, rfl⟩
  apply bothGuarantee_bind begins
  intro answer answer' left right reached
  obtain ⟨rfl, rfl, rfl, rfl⟩ := reached
  exact continues

/-- Two statements that both violate a constraint, and what follows them. -/
theorem bothGuarantee_refused {run : Db → Option (α × Db)} {run' : Db → Option (β × Db)}
    {next : Option α → Sql γ} {next' : Option β → Sql δ} {after : γ → δ → Db → Db → Prop}
    (refused : run db = none) (refused' : run' db' = none)
    (continues : BothGuarantee (next none) (next' none) db db' after) :
    BothGuarantee (statement run >>= next) (statement run' >>= next') db db' after := by
  have ran {τ : Type} {run : Db → Option (τ × Db)} {db : Db} (refused : run db = none)
      (undo : List Db) : statement run (⟨db, undo⟩, []) = (none, ⟨db, undo⟩, []) := by
    unfold statement Faulty.attempt
    simp [refused]
  have begins : BothGuarantee (statement run) (statement run') db db'
      fun answer answer' left right => answer = none ∧ answer' = none ∧ left = db ∧ right = db' :=
    fun undo undo' => ⟨_, _, _, _, ran refused undo, ran refused' undo', rfl, rfl, rfl, rfl⟩
  apply bothGuarantee_bind begins
  intro answer answer' left right reached
  obtain ⟨rfl, rfl, rfl, rfl⟩ := reached
  exact continues

/-- Two queries, and what follows their answers. -/
theorem bothGuarantee_query {read : Db → α} {read' : Db → β} {next : Option α → Sql γ}
    {next' : Option β → Sql δ} {after : γ → δ → Db → Db → Prop}
    (continues : BothGuarantee (next (some (read db))) (next' (some (read' db'))) db db' after) :
    BothGuarantee (query read >>= next) (query read' >>= next') db db' after :=
  bothGuarantee_statement rfl rfl continues

/-- Two queries for at most one row, and what follows what they find. -/
theorem bothGuarantee_lookup {read : Db → Option α} {read' : Db → Option β}
    {next : Option α → Sql γ} {next' : Option β → Sql δ} {after : γ → δ → Db → Db → Prop}
    (continues : BothGuarantee (next (read db)) (next' (read' db')) db db' after) :
    BothGuarantee ((do return (← query read).join) >>= next)
      ((do return (← query read').join) >>= next') db db' after := by
  rw [bind_assoc, bind_assoc]
  apply bothGuarantee_query
  exact continues

/-- Two statements of which only the success is reported, both with a result. -/
theorem bothGuarantee_execute {run run' : Db → Option Db} {next : Bool → Sql γ}
    {next' : Bool → Sql δ} {after : γ → δ → Db → Db → Prop} {seen seen' : Db}
    (done : run db = some seen) (done' : run' db' = some seen')
    (continues : BothGuarantee (next true) (next' true) seen seen' after) :
    BothGuarantee (execute run >>= next) (execute run' >>= next') db db' after := by
  have ran : (run db).map (fun after => ((), after)) = some ((), seen) := by
    rw [done]
    rfl
  have ran' : (run' db').map (fun after => ((), after)) = some ((), seen') := by
    rw [done']
    rfl
  unfold execute
  rw [bind_assoc, bind_assoc]
  exact bothGuarantee_statement ran ran' continues

/-- Two statements of which only the success is reported, both refused. -/
theorem bothGuarantee_executeRefused {run run' : Db → Option Db} {next : Bool → Sql γ}
    {next' : Bool → Sql δ} {after : γ → δ → Db → Db → Prop} (refused : run db = none)
    (refused' : run' db' = none)
    (continues : BothGuarantee (next false) (next' false) db db' after) :
    BothGuarantee (execute run >>= next) (execute run' >>= next') db db' after := by
  have ran : (run db).map (fun after => ((), after)) = none := by rw [refused, Option.map_none]
  have ran' : (run' db').map (fun after => ((), after)) = none := by rw [refused', Option.map_none]
  unfold execute
  rw [bind_assoc, bind_assoc]
  exact bothGuarantee_refused ran ran' continues

/-- Two updates, and what follows them. -/
theorem bothGuarantee_update {change change' : Db → Db} {next : Bool → Sql γ} {next' : Bool → Sql δ}
    {after : γ → δ → Db → Db → Prop}
    (continues : BothGuarantee (next true) (next' true) (change db) (change' db') after) :
    BothGuarantee (execute (fun db => some (change db)) >>= next)
      (execute (fun db => some (change' db)) >>= next') db db' after :=
  bothGuarantee_execute rfl rfl continues

/-- What a transaction leaves that reports a result, from what its body saw last. -/
def settled (db seen : Db) : Except ε α → Db
  | .ok _ => seen
  | .error _ => db

/-- A transaction on which nothing fails reports what its body does, and leaves what it says. -/
private theorem transaction_run {failed : ε} {body : Sql (Except ε α)} {result : Except ε α}
    {db seen : Db} (ran : body (⟨db, [db]⟩, []) = (result, ⟨seen, [db]⟩, [])) :
    transaction failed body (Conn.of db, []) = (result, Conn.of (settled db seen result), []) := by
  have inside : (⟨seen, [db]⟩ : Conn).undo ≠ [] := List.cons_ne_nil _ _
  rw [transaction_eq, List.headD_nil, if_neg (by simp), List.tail_nil, ran]
  cases result with
  | error reason => rfl
  | ok value =>
    dsimp only
    rw [commit_eq inside, List.headD_nil, if_neg (by simp)]
    rfl

/-- Two results that are both values or both reasons to give up. -/
def SameKind {ε' : Type} : Except ε α → Except ε' β → Prop
  | .ok _, .ok _ => True
  | .error _, .error _ => True
  | _, _ => False

/-- Two transactions report what their bodies do. If they run through, they leave what the bodies
see last, and else what they found. -/
theorem bothLeave_transaction {ε' : Type} {failed : ε} {failed' : ε'} {body : Sql (Except ε α)}
    {body' : Sql (Except ε' β)} {join : Except ε α → Except ε' β → Prop} {related : Db → Db → Prop}
    (kinds : ∀ result result', join result result' → SameKind result result') (start : related db db')
    (h : BothGuarantee body body' db db' fun result result' seen seen' =>
      join result result' ∧ (result.isOk → related seen seen')) :
    BothLeave (transaction failed body) (transaction failed' body') db db'
      fun result result' left right => join result result' ∧ related left right := by
  obtain ⟨result, result', seen, seen', ran, ran', joined, kept⟩ := h [db] [db']
  refine ⟨result, result', _, _, transaction_run ran, transaction_run ran', joined, ?_⟩
  have same := kinds result result' joined
  cases result with
  | ok value =>
    cases result' with
    | ok value' => exact kept rfl
    | error reason' => exact same.elim
  | error reason =>
    cases result' with
    | ok value' => exact same.elim
    | error reason' => exact start

end PlatformService.Store.Sql
