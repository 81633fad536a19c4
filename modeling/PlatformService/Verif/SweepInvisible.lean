import PlatformService.Api.Server
import PlatformService.Verif.Deployment
import PlatformService.Verif.RetentionRuns
import PlatformService.Verif.Revocation

/-!
# Sweeps that no client notices

Two databases serve the same requests to log in, refresh and verify: one that was
swept before, and one that was not. What a sweep retains is enough for every handler to
answer alike on both, so by induction over the requests all answers are the same.
-/

namespace PlatformService.Verif.SweepInvisible

open Lib Store Api Maintenance Retention

variable {ctx : AppCtx} {now : Int} {full swept : Db}

section Requests

/-- Where a handler stands on the two databases. -/
inductive Pair (ctx : AppCtx) (now : Int) (full : Db) : Activity → Activity → Prop where
  | verify (env : Env) (tokenHash : Bytes) (phase phase' : Verify.Phase) (later : now ≤ env.now)
    (pair : VerifyPair phase phase') :
    Pair ctx now full (.verify env tokenHash phase) (.verify env tokenHash phase')
  | login (env : Env) (input : Login.Input) (phase phase' : Login.Phase) (later : now ≤ env.now)
    (pair : LoginPair ctx env now full phase phase') :
    Pair ctx now full (.login env input phase) (.login env input phase')
  | refresh (env : Env) (tokenHash : Bytes) (phase phase' : Refresh.Phase) (later : now ≤ env.now)
    (pair : RefreshPair ctx env full phase phase') :
    Pair ctx now full (.refresh env tokenHash phase) (.refresh env tokenHash phase')

/-- Handlers that stand alike have given the same answer, if any. -/
theorem Pair.answer {activity activity' : Activity} (pair : Pair ctx now full activity activity') :
    activity'.answer = activity.answer := by
  cases pair with
  | verify env tokenHash phase phase' later pair => cases pair with | _ => rfl
  | login env input phase phase' later pair => cases pair with | _ => rfl
  | refresh env tokenHash phase phase' later pair => cases pair with | _ => rfl

/-- A step of a handler on both databases. -/
theorem step_pairs {activity activity' : Activity} (pair : Pair ctx now full activity activity')
    (retains : Retains now full swept) :
    Sql.BothLeave (activity.step ctx) (activity'.step ctx) full swept
      fun next next' left right => Pair ctx now left next next' ∧ Retains now left right := by
  cases pair with
  | verify env tokenHash phase phase' later pair =>
    apply Sql.bothLeave_bind (verify_pairs later tokenHash pair retains)
    intro next next' left right reached
    exact (Sql.bothGuarantee_pure ⟨.verify env tokenHash _ _ later reached.1, reached.2⟩).leave
  | login env input phase phase' later pair =>
    apply Sql.bothLeave_bind (login_pairs later input pair retains)
    intro next next' left right reached
    exact (Sql.bothGuarantee_pure ⟨.login env input _ _ later reached.1, reached.2⟩).leave
  | refresh env tokenHash phase phase' later pair =>
    apply Sql.bothLeave_bind (refresh_pairs later tokenHash pair retains)
    intro next next' left right reached
    exact (Sql.bothGuarantee_pure ⟨.refresh env tokenHash _ _ later reached.1, reached.2⟩).leave

/-- Some steps of a handler on both databases. -/
theorem run_pairs (turns : Nat) {activity activity' : Activity}
    (pair : Pair ctx now full activity activity') (retains : Retains now full swept) :
    Sql.BothLeave (activity.run ctx turns) (activity'.run ctx turns) full swept
      fun next next' left right => Pair ctx now left next next' ∧ Retains now left right := by
  induction turns generalizing activity activity' full swept with
  | zero => exact (Sql.bothGuarantee_pure ⟨pair, retains⟩).leave
  | succ turns ih =>
    apply Sql.bothLeave_bind (step_pairs pair retains)
    intro next next' left right reached
    exact ih reached.1 reached.2

/-- The requests that log in, refresh and verify. -/
def SessionRequest (arrival : Arrival) : Prop :=
  arrival.routeId = RouteId.login.number ∨ arrival.routeId = RouteId.refresh.number ∨
    arrival.routeId = RouteId.verify.number

/-- Two runs that answer alike. -/
def Answered (now : Int) (answer answer' : Option HandlerResult) (left right : Db) : Prop :=
  answer' = answer ∧ Retains now left right

/-- A request that is admitted, or not, on both databases. -/
theorem admitted_pairs {α : Type} (admission : Except HandlerResult α) {begin : α → Activity}
    (pair : ∀ input, Pair ctx now full (begin input) (begin input))
    (retains : Retains now full swept) :
    let call := Call.admitted admission fun input => .activity (begin input)
    Sql.BothLeave (call.run ctx) (call.run ctx) full swept (Answered now) := by
  cases admission with
  | error result => exact (Sql.bothGuarantee_pure ⟨rfl, retains⟩).leave
  | ok input =>
    apply Sql.bothLeave_bind (run_pairs Activity.turns (pair input) retains)
    intro next next' left right reached
    exact (Sql.bothGuarantee_pure ⟨reached.1.answer, reached.2⟩).leave

/-- A request on both databases. -/
theorem answer_pairs {arrival : Arrival} (session : SessionRequest arrival)
    (later : now ≤ arrival.env.now) (fresh : Fresh ctx arrival.env full)
    (retains : Retains now full swept) :
    Sql.BothLeave (arrival.answer ctx) (arrival.answer ctx) full swept (Answered now) := by
  have dispatched {route : RouteId} (routed : arrival.routeId = route.number) :
      arrival.dispatched ctx =
        dispatch ctx arrival.now route.number arrival.request arrival.params := by
    unfold Arrival.dispatched
    rw [routed]
  unfold Arrival.answer
  rcases session with login | refresh | verify
  · rw [dispatched login]
    exact admitted_pairs _ (fun input => .login arrival.env input _ _ later (.lookup fresh)) retains
  · rw [dispatched refresh]
    exact admitted_pairs _ (fun input => .refresh arrival.env input _ _ later (.write fresh)) retains
  · rw [dispatched verify]
    exact admitted_pairs _ (fun input => .verify arrival.env input _ _ later .lookup) retains

/-- The answers to some requests, one after the other and none of their statements failing, and the
content after them. -/
def serve (ctx : AppCtx) : Db → List Arrival → List (Option HandlerResult) × Db
  | db, [] => ([], db)
  | db, arrival :: rest =>
    let out := arrival.answer ctx (Conn.of db, [])
    (out.1 :: (serve ctx out.2.1.committed rest).1, (serve ctx out.2.1.committed rest).2)

/-- Whatever the requests draw is not stored when they arrive. -/
def FreshAlong (ctx : AppCtx) : Db → List Arrival → Prop
  | _, [] => True
  | db, arrival :: rest => Fresh ctx arrival.env db ∧
      FreshAlong ctx (arrival.answer ctx (Conn.of db, [])).2.1.committed rest

/-- Requests are answered alike on both databases. -/
theorem serve_pairs {requests : List Arrival}
    (sessions : ∀ arrival ∈ requests, SessionRequest arrival ∧ now ≤ arrival.env.now)
    (fresh : FreshAlong ctx full requests) (retains : Retains now full swept) :
    (serve ctx swept requests).1 = (serve ctx full requests).1 ∧
      Retains now (serve ctx full requests).2 (serve ctx swept requests).2 := by
  induction requests generalizing full swept with
  | nil => exact ⟨rfl, retains⟩
  | cons arrival rest ih =>
    obtain ⟨session, later⟩ := sessions arrival List.mem_cons_self
    obtain ⟨answer, answer', left, right, ran, ran', same, kept⟩ :=
      answer_pairs session later fresh.1 retains
    have after := fresh.2
    rw [ran] at after
    obtain ⟨answers, ends⟩ :=
      ih (fun other member => sessions other (List.mem_cons_of_mem _ member)) after kept
    unfold serve
    rw [ran, ran']
    exact ⟨congrArg₂ List.cons same answers, ends⟩

end Requests

section Runs

variable {ι : Type} [DecidableEq ι]

/-- Where the clock never reads 0, no revocation that the service stores reads as NULL. -/
theorem revocationsRead_run (ctx : AppCtx) {service : Service ι}
    (start : service.shared.sessionFamilies = Table.empty)
    (positive : ∀ i, 0 < clock (service.thread i).activity) (schedule : List ι) :
    RevocationsRead (service.run (Running.act ctx) schedule).shared := by
  let invariant (service : Service ι) : Prop :=
    RevocationsRead service.shared ∧ ∀ i, 0 < clock (service.thread i).activity
  have begins : invariant service := by
    refine ⟨fun family stored => ?_, positive⟩
    rw [start] at stored
    exact absurd stored (Table.not_mem_empty family)
  have kept : ∀ service i, invariant service → invariant (service.step (Running.act ctx) i) := by
    intro service i here
    constructor
    · intro later stored
      cases (sessionEffect_step ctx service i).family stored with
      | same stored => exact here.1 later stored
      | revoked old cause stored live row revokedBy =>
        have ticks := here.2 i
        rw [row]
        simp only [ne_eq, Option.some.injEq]
        omega
      | opened env input user login drawn row unused =>
        rw [row]
        simp [newFamily]
    · intro j
      by_cases same : j = i
      · rw [same, Pool.thread_step_self, Revocation.clock_act]
        exact here.2 i
      · rw [Pool.thread_step_of_ne service same]
        exact here.2 j
  exact (Pool.run_keeps invariant kept begins schedule).1

/-- A live family that is stored is seen, and a family that is seen is stored. -/
theorem mem_iff_seenFamily {db : Db} {family : SessionFamilyRow} (unexpired : now ≤ family.absoluteExp)
    (unrevoked : family.revokedAt = none) :
    family ∈ db.sessionFamilies ↔ seenFamily now db family.familyId = some family := by
  rw [seenFamily_eq_some, Table.find?_eq_some_iff, unrevoked]
  exact ⟨fun stored => ⟨⟨stored, rfl⟩, unexpired, rfl⟩, fun seen => seen.1.1⟩

end Runs

/-- In every state that the service reaches: a sweep, complete or stopped after any number of batches,
changes no answer to later logins, refreshes and verifications, removes no token of a live family,
consumed or not, and the same families are live after the requests. -/
theorem sweeps_invisible {ι : Type} [DecidableEq ι] (ctx : AppCtx) (service : Service ι)
    (start : service.shared.sessionFamilies = Table.empty)
    (positive : ∀ i, 0 < clock (service.thread i).activity) (schedule : List ι)
    (settings : Settings) (now : Int) (batches : Nat) (choices : List (Scan × Bool))
    (faults : List Bool) (requests : List Arrival)
    (sessions : ∀ arrival ∈ requests, SessionRequest arrival ∧ now ≤ arrival.env.now)
    (fresh : FreshAlong ctx (service.run (Running.act ctx) schedule).shared requests) :
    let full := (service.run (Running.act ctx) schedule).shared
    let swept := (Running.acts ctx batches full ⟨.sweep settings now choices Target.all, faults⟩).1
    (serve ctx swept requests).1 = (serve ctx full requests).1 ∧
      (∀ token ∈ full.refreshTokens, ∀ family ∈ full.sessionFamilies,
        family.familyId = token.familyId → now ≤ family.absoluteExp → family.revokedAt = none →
          token ∈ swept.refreshTokens) ∧
      ∀ family : SessionFamilyRow, now ≤ family.absoluteExp → family.revokedAt = none →
        (family ∈ (serve ctx swept requests).2.sessionFamilies ↔
          family ∈ (serve ctx full requests).2.sessionFamilies) := by
  intro full swept
  have reads : RevocationsRead full := revocationsRead_run ctx start positive schedule
  have retains : Retains now full swept :=
    sweep_retains ctx settings now batches choices Target.all faults reads
  obtain ⟨answers, ends⟩ := serve_pairs sessions fresh retains
  refine ⟨answers, fun token stored family owner names unexpired unrevoked => ?_,
    fun family unexpired unrevoked => ?_⟩
  · have visible : seenFamily now full token.familyId = some family :=
      names ▸ (mem_iff_seenFamily unexpired unrevoked).mp owner
    have seen : seenToken now full token.tokenHash = some token :=
      seenToken_eq_some.mpr ⟨Table.find?_of_mem stored, family, visible⟩
    have seen' := seenToken_eq_some.mp ((retains.tokens token.tokenHash).trans seen)
    exact (Table.find?_eq_some_iff.mp seen'.1).1
  · rw [mem_iff_seenFamily unexpired unrevoked, mem_iff_seenFamily unexpired unrevoked,
      ends.families]

/-- A login, about to look up its user. -/
def visited : Service Unit where
  shared := Deployment.database .active
  thread _ := ⟨.login (Deployment.env 2000 1 1) ⟨ascii "alice", ascii "correct horse"⟩ .lookup, []⟩

/-- A request after the lifetime of the session that the login opens. -/
def late (route : RouteId) (path body : String) : Arrival where
  now := 7778001
  routeId := route.number
  request := Deployment.post path body
  params := []
  env := Deployment.env 7778001 2 2

/-- The token of the login is presented, and alice logs in again. -/
def returning : List Arrival :=
  [late .refresh "/v1/auth/refresh"
      "\x7b\"refresh_token\":\"AQEBAQEBAQEBAQEBAQEBAQEBAQEBAQEBAQEBAQEBAQE\"\x7d",
    late .login "/v1/auth/login" "\x7b\"username\":\"alice\",\"password\":\"correct horse\"\x7d"]

/-- A sweep deletes the session of a login after its lifetime, and nobody who returns can tell. -/
theorem sweep_unnoticed :
    let full := (visited.run (Running.act Deployment.ctx) [(), ()]).shared
    let swept := (Running.acts Deployment.ctx 6 full
      ⟨.sweep ⟨1000, 365⟩ 7778001 [] Target.all, []⟩).1
    (full.sessionFamilies.rows.length, swept.sessionFamilies.rows.length) = (1, 0) ∧
      (serve Deployment.ctx full returning).1.map (Option.map HandlerResult.status) =
        [some 401, some 200] ∧
      (serve Deployment.ctx swept returning).1 = (serve Deployment.ctx full returning).1 := by
  refine ⟨by decide +kernel, by decide +kernel, ?_⟩
  have sessions : ∀ arrival ∈ returning,
      SessionRequest arrival ∧ (7778001 : Int) ≤ arrival.env.now := by
    intro arrival member
    cases member with
    | head => exact ⟨Or.inr (Or.inl rfl), le_refl _⟩
    | tail _ member =>
      rw [List.mem_singleton.mp member]
      exact ⟨Or.inl rfl, le_refl _⟩
  have unused {db : Db} (tokens : ∀ stored ∈ db.refreshTokens.rows,
      stored.tokenHash ≠ Deployment.crypto.sha256 (Deployment.rawToken 2).bytes)
      (families : ∀ stored ∈ db.sessionFamilies.rows,
        stored.familyId ≠ (Deployment.sixteen 2).bytes) :
      Fresh Deployment.ctx (Deployment.env 7778001 2 2) db :=
    ⟨fun _ drawn => Option.some.inj drawn ▸ tokens, fun _ drawn => Option.some.inj drawn ▸ families⟩
  have fresh : FreshAlong Deployment.ctx
      (visited.run (Running.act Deployment.ctx) [(), ()]).shared returning :=
    ⟨unused (by decide +kernel) (by decide +kernel),
      unused (by decide +kernel) (by decide +kernel), trivial⟩
  exact (sweeps_invisible Deployment.ctx visited rfl
    (fun _ => (by decide : (0 : Int) < 2000)) [(), ()] ⟨1000, 365⟩ 7778001
    6 [] [] returning sessions fresh).1

end PlatformService.Verif.SweepInvisible
