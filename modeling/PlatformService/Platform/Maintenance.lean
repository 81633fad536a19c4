import Mathlib.Algebra.Group.Nat.Defs
import PlatformService.Lib.Batches
import PlatformService.Store.Statements

/-!
# Maintenance

`maintenance.c`: the sweeps of `run_sweep`, each a loop over batches. A batch is one
statement in autocommit mode, so other connections run between two batches. The
statement picks its rows by `SELECT … LIMIT` without an order, which SQLite may
answer with any matching rows: the choice is a `Scan`.
-/

namespace PlatformService.Maintenance

open Lib Store

/-- `SECONDS_PER_DAY` -/
def secondsPerDay : Int := 24 * 60 * 60

/-- The order in which SQLite visits the matching rows of a table, as positions. -/
structure Scan where
  order : List Nat → List Nat
  /-- Every matching row is visited once. -/
  visits : ∀ positions, (order positions).Perm positions

/-- The scan in insertion order. -/
def Scan.inOrder : Scan := ⟨id, fun _ => List.Perm.refl _⟩

/-- The positions of the rows a condition selects. -/
def matching {R : Type} (rows : List R) (condition : R → Bool) : List Nat :=
  (List.range rows.length).filter fun position => rows[position]?.any condition

/-- The positions `SELECT … WHERE condition LIMIT limit` answers. -/
def Scan.limit {R : Type} (scan : Scan) (limit : Nat) (rows : List R) (condition : R → Bool) :
    List Nat :=
  (scan.order (matching rows condition)).take limit

/-- The rows at the answered positions. -/
def Scan.chosen {R : Type} (scan : Scan) (limit : Nat) (rows : List R) (condition : R → Bool) :
    List R :=
  (scan.limit limit rows condition).filterMap (rows[·]?)

/-- Only stored rows that meet the condition are chosen. -/
theorem Scan.of_mem_chosen {R : Type} {scan : Scan} {limit : Nat} {rows : List R}
    {condition : R → Bool} {row : R} (chosen : row ∈ scan.chosen limit rows condition) :
    row ∈ rows ∧ condition row = true := by
  obtain ⟨position, answered, found⟩ := List.mem_filterMap.mp chosen
  have visited := (scan.visits _).mem_iff.mp (List.mem_of_mem_take answered)
  have selected := (List.mem_filter.mp visited).2
  rw [found] at selected
  exact ⟨List.mem_of_getElem? found, selected⟩

/-- `struct ps_maintenance`: the settings a sweep reads. -/
structure Settings where
  batchSize : Nat
  auditRetentionDays : Int
  deriving DecidableEq, Repr

/-- What `run_sweep` sweeps, in its order. -/
inductive Target where
  | emailVerificationTokens
  | refreshTokens
  | sessionFamilies
  | devOutbox
  | auditLog
  | expiredLockouts
  deriving DecidableEq, Repr

/-- The targets of `run_sweep`. -/
def Target.all : List Target :=
  [.emailVerificationTokens, .refreshTokens, .sessionFamilies, .devOutbox, .auditLog,
    .expiredLockouts]

/-- Drop the rows at some positions. -/
def dropAt {R : Type} (rows : List R) (positions : List Nat) : List R :=
  ((rows.zipIdx).filter fun entry => entry.2 ∉ positions).map Prod.fst

/-- One batch of `sweep_table`, `sweep_session_families` or `sweep_expired_lockouts`: the number of
rows changed, and the content after. -/
def batch (settings : Settings) (scan : Scan) (now : Int) : Target → Db → Nat × Db
  | .emailVerificationTokens, db =>
    let doomed := scan.chosen settings.batchSize db.emailVerificationTokens.rows fun token =>
      token.expiresAt < now - secondsPerDay
    (doomed.length, db.deleteVerificationTokens fun token =>
      token.tokenHash ∈ doomed.map VerificationTokenRow.tokenHash)
  | .refreshTokens, db =>
    let doomed := scan.chosen settings.batchSize db.refreshTokens.rows fun token =>
      db.sessionFamilies.rows.any fun family =>
        family.familyId = token.familyId && family.absoluteExp < now
    (doomed.length, db.deleteRefreshTokens fun token =>
      token.tokenHash ∈ doomed.map RefreshTokenRow.tokenHash)
  | .sessionFamilies, db =>
    let doomed := scan.chosen settings.batchSize db.sessionFamilies.rows fun family =>
      family.absoluteExp < now || family.revokedAt.any (· < now - 30 * secondsPerDay)
    (doomed.length, db.deleteFamilies fun family =>
      family.familyId ∈ doomed.map SessionFamilyRow.familyId)
  | .devOutbox, db =>
    let doomed := scan.limit settings.batchSize db.devOutbox fun row =>
      row.createdAt < now - 7 * secondsPerDay
    (doomed.length, { db with devOutbox := dropAt db.devOutbox doomed })
  | .auditLog, db =>
    let doomed := scan.limit settings.batchSize db.auditLog fun entry =>
      entry.occurredAt < now - settings.auditRetentionDays * secondsPerDay
    (doomed.length, { db with auditLog := dropAt db.auditLog doomed })
  | .expiredLockouts, db =>
    let expired := scan.chosen settings.batchSize db.users.rows fun user =>
      user.lockedUntil.any (· < now)
    (expired.length, db.updateUsers (fun user => user.userId ∈ expired.map UserRow.userId)
      ⟨fun user => { user with lockedUntil := none, updatedAt := now }, fun _ => rfl, fun _ => rfl,
        fun _ => rfl⟩)

/-- One batch as the statement a sweep steps: the number of rows changed, unless it fails. -/
def sweepBatch (settings : Settings) (scan : Scan) (now : Int) (target : Target) :
    Sql (Option Nat) :=
  Sql.statement fun db => some (batch settings scan now target db)

/-- `INT_MAX`, the most a loop's `int` total can hold; a larger total is undefined. -/
def totalMax : Nat := 2 ^ 31 - 1

/-- The loop of `sweep_table`, `sweep_session_families` or `sweep_expired_lockouts` on a connection
of its own, without a stop request or a failing statement: what it returns and the content after,
within a number of batches. Each batch may answer its `SELECT` in an order of its own. -/
def sweepLoop (settings : Settings) (scans : Nat → Scan) (now : Int) (target : Target)
    (batches : Nat) (db : Db) : Batches.Ended Db :=
  Batches.loop (fun turn db => batch settings (scans turn) now target db) settings.batchSize
    totalMax batches 0 0 db

/-- The rest of `run_sweep` after a batch: the next target once the batch failed or was not full,
or when a stop was requested; else another batch. -/
def afterBatch (settings : Settings) (stopping : Bool) (changed : Option Nat) :
    List Target → List Target
  | [] => []
  | target :: targets =>
    match changed with
    | none => targets
    | some rows => if rows < settings.batchSize || stopping then targets else target :: targets

/-- The next step of `run_sweep` with some targets left. -/
def runSweep (settings : Settings) (scan : Scan) (stopping : Bool) (now : Int) :
    List Target → Sql (List Target)
  | [] => return []
  | target :: targets => do
    return afterBatch settings stopping (← sweepBatch settings scan now target) (target :: targets)

end PlatformService.Maintenance
