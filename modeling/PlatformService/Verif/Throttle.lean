import PlatformService.Api.System
import PlatformService.Lib.Recall
import PlatformService.Verif.AccountSpecs
import PlatformService.Verif.Deployment

/-!
# The throttle on resends

A resend counts the tokens of its account before its transaction begins, and the
transaction does not count again. The limits hold in every run in which each resend
that begins its transaction finds the tokens that its first count saw; two resends
that count before either writes exceed them.
-/

namespace PlatformService.Verif.Throttle

open Lib Store Api

/-- The creation times of the verification tokens of a user, in the order of their insertion. -/
def createdTimes (db : Db) (userId : Int) : List Int :=
  (db.emailVerificationTokens.rows.filter fun token => token.userId = userId).map
    VerificationTokenRow.createdAt

/-- A day in seconds. -/
def day : Int := 24 * 60 * 60

/-- How many of some tokens were created at or after a time. -/
def createdSince (times : List Int) (since : Int) : Nat := times.countP fun time => since ≤ time

/-- What `ps_token_store_count_created_since` counts. -/
theorem count_eq_createdSince (db : Db) (userId since : Int) :
    (db.emailVerificationTokens.count fun token =>
      token.userId = userId && since ≤ token.createdAt) =
        createdSince (createdTimes db userId) since := by
  rw [createdSince, createdTimes, List.countP_map, List.countP_filter, Table.count]
  congr 1
  funext token
  rw [Bool.and_comm]
  rfl

/-- The limits that the settings state for the tokens created for an account. -/
structure Throttled (config : Config) (times : List Int) : Prop where
  /-- Any two tokens are more than the interval apart. -/
  apart : times.Pairwise fun first second => config.resendMinIntervalS < |second - first|
  /-- In any 24-hour window at most so many tokens are created. -/
  daily : ∀ start, ((times.countP fun time => start ≤ time ∧ time ≤ start + day : Nat) : Int) ≤
    max config.resendMaxPerDay 0

/-- A token that the two counts allow. -/
structure Allowed (config : Config) (times : List Int) (now : Int) : Prop where
  /-- No token was created within the interval. -/
  minute : createdSince times (now - config.resendMinIntervalS) = 0
  /-- Fewer tokens than the limit were created within a day. -/
  daily : (createdSince times (now - day) : Int) < config.resendMaxPerDay

/-- An allowed token keeps the limits, also among some of the tokens counted. -/
theorem Throttled.issue {config : Config} {times counted : List Int} {now : Int}
    (h : Throttled config times) (among : times.Sublist counted)
    (allowed : Allowed config counted now) : Throttled config (times ++ [now]) where
  apart := by
    rw [List.pairwise_append]
    refine ⟨h.apart, List.pairwise_singleton _ _, fun earlier member now' own => ?_⟩
    have none := List.countP_eq_zero.mp allowed.minute earlier (among.subset member)
    have late : ¬now - config.resendMinIntervalS ≤ earlier := fun within =>
      none (decide_eq_true within)
    rw [List.mem_singleton.mp own]
    have gap : config.resendMinIntervalS < now - earlier := by omega
    exact gap.trans_le (le_abs_self _)
  daily := by
    intro start
    rw [List.countP_append]
    have before := h.daily start
    by_cases inside : start ≤ now ∧ now ≤ start + day
    · -- Every other token of the window was counted by the day's count.
      have fewer : (times.countP fun time => start ≤ time ∧ time ≤ start + day) ≤
          createdSince counted (now - day) := by
        calc
          _ ≤ counted.countP fun time => start ≤ time ∧ time ≤ start + day := among.countP_le
          _ ≤ createdSince counted (now - day) := by
            apply List.countP_mono_left
            intro time _ within
            have bounds := of_decide_eq_true within
            apply decide_eq_true
            omega
      have last : [now].countP (fun time => start ≤ time ∧ time ≤ start + day) = 1 := by
        simp [inside]
      have limit := allowed.daily
      rw [last]
      omega
    · have last : [now].countP (fun time => start ≤ time ∧ time ≤ start + day) = 0 := by
        simp only [List.countP_singleton, decide_eq_true_eq, if_neg inside]
      rw [last]
      omega

/-- Tokens issued one after the other, each of them allowed. -/
inductive Issues (config : Config) (stored : List Int) : List Int → Prop where
  /-- No token yet. -/
  | none : Issues config stored stored
  /-- One more token. -/
  | one {times : List Int} {now : Int} (earlier : Issues config stored times)
    (allowed : Allowed config times now) : Issues config stored (times ++ [now])

/-- Tokens issued one after the other keep the limits, and so do all tokens if the stored ones do. -/
theorem Issues.throttled {config : Config} {stored times : List Int}
    (h : Issues config stored times) : ∃ issued, times = stored ++ issued ∧
      Throttled config issued ∧ (Throttled config stored → Throttled config times) := by
  induction h with
  | none =>
    have empty : Throttled config [] := ⟨List.Pairwise.nil, fun _ => by simp⟩
    exact ⟨[], (List.append_nil _).symm, empty, fun fine => fine⟩
  | @one times now earlier allowed ih =>
    obtain ⟨issued, split, fine, whole⟩ := ih
    refine ⟨issued ++ [now], by rw [split, List.append_assoc], ?_, fun start => ?_⟩
    · apply fine.issue _ allowed
      rw [split]
      exact List.sublist_append_right _ _
    · exact (whole start).issue (List.Sublist.refl _) allowed

section Steps

variable {reliable : Prop} {ctx : AppCtx} {env : Env}

/-- The user whose tokens a resend has counted. -/
def pending : Resend.Phase → Option UserRow
  | .countDay user _ => some user
  | .write user => some user
  | _ => none

/-- What a step of a resend may do: where the handler stands next, and which tokens there are. -/
inductive ResendStep (config : Config) (now : Int) (db : Db) :
    Resend.Phase → Resend.Phase → Db → Prop where
  /-- No token, and nothing counted. -/
  | idle (phase next : Resend.Phase) (after : Db) (same : createdTimes after = createdTimes db)
    (clear : pending next = none) : ResendStep config now db phase next after
  /-- The first count. -/
  | countedMinute (user : UserRow) (after : Db) (same : createdTimes after = createdTimes db) :
    ResendStep config now db (.countMinute user) (.countDay user
      (createdSince (createdTimes db user.userId) (now - config.resendMinIntervalS))) after
  /-- The second count, and both are below their limits. -/
  | allowed (user : UserRow) (after : Db) (same : createdTimes after = createdTimes db)
    (below : (createdSince (createdTimes db user.userId) (now - day) : Int) <
      config.resendMaxPerDay) :
    ResendStep config now db (.countDay user 0) (.write user) after
  /-- One more token. -/
  | issued (user : UserRow) (next : Resend.Phase) (after : Db) (clear : pending next = none)
    (grown : createdTimes after = Function.update (createdTimes db) user.userId
      (createdTimes db user.userId ++ [now])) :
    ResendStep config now db (.write user) next after

/-- Consuming tokens leaves their creation times alone. -/
theorem createdTimes_consume (db : Db) (selected : VerificationTokenRow → Bool) (now : Int) :
    createdTimes (db.consumeVerificationTokens selected now) = createdTimes db := by
  funext userId
  have rows : (db.consumeVerificationTokens selected now).emailVerificationTokens.rows =
      db.emailVerificationTokens.rows.map fun token =>
        if selected token then { token with consumedAt := some now } else token := rfl
  rw [createdTimes, rows, List.filter_map, List.map_map, createdTimes]
  have owner : ((fun token : VerificationTokenRow => decide (token.userId = userId)) ∘ fun token =>
      if selected token then { token with consumedAt := some now } else token) =
        fun token => decide (token.userId = userId) := by
    funext token
    simp only [Function.comp_apply]
    split
    · rfl
    · rfl
  have created : (VerificationTokenRow.createdAt ∘ fun token =>
      if selected token then { token with consumedAt := some now } else token) =
        VerificationTokenRow.createdAt := by
    funext token
    simp only [Function.comp_apply]
    split
    · rfl
    · rfl
  rw [owner, created]

/-- Inserting a token adds its creation time for its user. -/
theorem createdTimes_insert {db after : Db} {row : VerificationTokenRow}
    (inserted : db.insertVerificationToken row = some after) :
    createdTimes after = Function.update (createdTimes db) row.userId
      (createdTimes db row.userId ++ [row.createdAt]) := by
  have rows := Table.rows_insert (Db.insertVerificationToken_eq_some inserted).1
  funext userId
  rw [createdTimes, rows, List.filter_append, List.map_append]
  by_cases own : userId = row.userId
  · rw [own, Function.update_self, List.filter_singleton, createdTimes]
    simp
  · rw [Function.update_of_ne own, List.filter_singleton, createdTimes]
    simp [Ne.symm own]

/-- What a step of a resend does, with the production limits. -/
theorem resend_step_spec (production : ctx.config.devMode = false) (email : Bytes)
    (phase : Resend.Phase) (db : Db) :
    Sql.Leaves reliable (Resend.step ctx env email phase) db
      (ResendStep ctx.config env.now db phase) := by
  have idle (next : Resend.Phase) (clear : pending next = none) :
      ResendStep ctx.config env.now db phase next db := .idle phase next db rfl clear
  cases phase with
  | lookup =>
    apply Sql.Guarantees.leaves
    apply Sql.guarantees_lookup
    · intro _
      exact Sql.guarantees_pure (idle _ rfl)
    cases db.users.rows.find? fun user => user.emailNormalized = cString email with
    | none => exact Sql.guarantees_pure (idle _ rfl)
    | some user =>
      exact Sql.guarantees_ite (fun _ => Sql.guarantees_pure (idle _ rfl)) fun _ =>
        Sql.guarantees_pure (idle _ rfl)
  | auditFailure userId reason =>
    apply Sql.Guarantees.leaves
    apply Sql.guarantees_update
    · intro _
      exact Sql.guarantees_pure (idle _ rfl)
    · exact Sql.guarantees_pure (.idle _ _ _ rfl rfl)
  | countMinute user =>
    apply Sql.Guarantees.leaves
    apply Sql.guarantees_query
    · intro _
      exact Sql.guarantees_pure (idle _ rfl)
    · rw [devRelaxedIntervalS, production, if_neg (by simp), count_eq_createdSince]
      exact Sql.guarantees_pure (.countedMinute user db rfl)
  | countDay user recentMinute =>
    apply Sql.Guarantees.leaves
    apply Sql.guarantees_query
    · intro _
      exact Sql.guarantees_pure (idle _ rfl)
    · rw [devRelaxedCount, production, if_neg (by simp), count_eq_createdSince]
      apply Sql.guarantees_ite
      · intro _
        exact Sql.guarantees_pure (idle _ rfl)
      · intro below
        have none : recentMinute = 0 := by omega
        have daily : (createdSince (createdTimes db user.userId) (env.now - day) : Int) <
            ctx.config.resendMaxPerDay := by
          rw [day]
          omega
        rw [none]
        exact Sql.guarantees_pure (.allowed user db rfl daily)
  | write user =>
    apply (resend_write_effect ctx env user db).andReturn
    intro result after left
    cases result with
    | error reason =>
      have same : after = db := left
      rw [same]
      exact ⟨_, rfl, idle _ rfl⟩
    | ok rawToken =>
      obtain ⟨_, issued, inserted, rfl⟩ := left
      have grown := createdTimes_insert inserted
      rw [createdTimes_consume] at grown
      exact ⟨_, rfl, .issued user _ _ rfl grown⟩
  | sendEmail user rawToken =>
    apply Sql.Guarantees.leaves
    apply Sql.guarantees_update
    · intro _
      exact Sql.guarantees_pure (idle _ rfl)
    · exact Sql.guarantees_pure (.idle _ _ _ rfl rfl)
  | done result => exact Sql.Guarantees.leaves (Sql.guarantees_pure (idle _ rfl))

/-- A step of a resend issues at most one token, and takes none back. -/
theorem ResendStep.grows {config : Config} {now : Int} {db after : Db} {phase next : Resend.Phase}
    (step : ResendStep config now db phase next after) (userId : Int) :
    createdTimes db userId <+: createdTimes after userId := by
  cases step with
  | idle phase next after same clear => rw [same]
  | countedMinute user after same => rw [same]
  | allowed user after same below => rw [same]
  | issued user next after clear grown =>
    rw [grown]
    by_cases own : userId = user.userId
    · rw [own, Function.update_self]
      exact List.prefix_append _ _
    · rw [Function.update_of_ne own]

end Steps

section Runs

variable {ι : Type}

/-- A resend at its beginning. -/
def Begins : Activity → Prop
  | .resend _ _ .lookup => True
  | _ => False

/-- What a resend sees of the tokens of its account when it counts them first. -/
def observe (service : Service ι) (i : ι) : Option (List Int) :=
  match (service.thread i).activity with
  | .resend _ _ (.countMinute user) => some (createdTimes service.shared user.userId)
  | _ => none

/-- The condition of a step: a resend that begins its transaction finds the tokens that it saw. -/
def Current (seen : List Int) (service : Service ι) (i : ι) : Prop :=
  match (service.thread i).activity with
  | .resend _ _ (.write user) => createdTimes service.shared user.userId = seen
  | _ => True

instance decidableCurrent (seen : List Int) (service : Service ι) (i : ι) :
    Decidable (Current seen service i) := by
  unfold Current
  split
  · exact inferInstance
  · exact inferInstance

/-- What a resend that has counted knows of the tokens there are. -/
def Knows (config : Config) (now : Int) (seen : List Int) (times : Int → List Int) :
    Resend.Phase → Prop
  | .countDay user recentMinute => seen <+: times user.userId ∧
      recentMinute = createdSince seen (now - config.resendMinIntervalS)
  | .write user => ∃ counted, seen <+: counted ∧ counted <+: times user.userId ∧
      createdSince seen (now - config.resendMinIntervalS) = 0 ∧
        (createdSince counted (now - day) : Int) < config.resendMaxPerDay
  | _ => True

/-- What was counted stays counted when more tokens are issued. -/
theorem Knows.grow {config : Config} {now : Int} {seen : List Int} {before after : Int → List Int}
    {phase : Resend.Phase} (h : Knows config now seen before phase)
    (grows : ∀ userId, before userId <+: after userId) : Knows config now seen after phase := by
  cases phase with
  | countDay user recentMinute => exact ⟨h.1.trans (grows _), h.2⟩
  | write user =>
    obtain ⟨counted, first, second, limits⟩ := h
    exact ⟨counted, first, second.trans (grows _), limits⟩
  | lookup => trivial
  | auditFailure userId reason => trivial
  | countMinute user => trivial
  | sendEmail user rawToken => trivial
  | done result => trivial

/-- A resend that has counted nothing knows nothing. -/
theorem knows_of_clear {config : Config} {now : Int} {seen : List Int} {times : Int → List Int}
    {phase : Resend.Phase} (clear : pending phase = none) : Knows config now seen times phase := by
  cases phase with
  | countDay user recentMinute => contradiction
  | write user => contradiction
  | lookup => trivial
  | auditFailure userId reason => trivial
  | countMinute user => trivial
  | sendEmail user rawToken => trivial
  | done result => trivial

/-- A resend that finds the tokens it saw may issue one more. -/
theorem Knows.allowed {config : Config} {now : Int} {seen : List Int} {times : Int → List Int}
    {user : UserRow} (h : Knows config now seen times (.write user))
    (current : times user.userId = seen) : Allowed config (times user.userId) now := by
  obtain ⟨counted, first, second, minute, daily⟩ := h
  rw [current] at second ⊢
  have same : counted = seen := second.eq_of_length_le first.length_le
  rw [same] at daily
  exact ⟨minute, daily⟩

/-- What holds of resends side by side, with what each has seen. -/
structure Watched (config : Config) (start : Db) (memory : ι → List Int) (service : Service ι) :
    Prop where
  resends : ∀ i, ∃ env email phase, (service.thread i).activity = .resend env email phase ∧
    Knows config env.now (memory i) (createdTimes service.shared) phase
  issues : ∀ userId, Issues config (createdTimes start userId) (createdTimes service.shared userId)

variable [DecidableEq ι] {ctx : AppCtx}

/-- A step of a resend that finds the tokens it saw keeps the invariant. -/
theorem Watched.step (production : ctx.config.devMode = false) {start : Db}
    {memory : ι → List Int} {service : Service ι} {i : ι}
    (h : Watched ctx.config start memory service) (current : Current (memory i) service i) :
    Watched ctx.config start (Pool.recalled observe memory service i)
      (service.step (Running.act ctx) i) := by
  obtain ⟨env, email, phase, here, knows⟩ := h.resends i
  have moved : ∃ next, ((service.step (Running.act ctx) i).thread i).activity =
      .resend env email next ∧ ResendStep ctx.config env.now service.shared phase next
        (service.step (Running.act ctx) i).shared := by
    rw [Pool.thread_step_self]
    have spec : Sql.Leaves ((service.thread i).faults = []) ((service.thread i).activity.step ctx)
        service.shared fun activity after => ∃ next, activity = .resend env email next ∧
          ResendStep ctx.config env.now service.shared phase next after := by
      rw [here]
      apply Sql.Leaves.andReturn (resend_step_spec production email phase service.shared)
      intro next after step
      exact ⟨_, rfl, next, rfl, step⟩
    exact Running.act_spec spec
  obtain ⟨next, there, step⟩ := moved
  have own : Knows ctx.config env.now (Pool.recalled observe memory service i i)
      (createdTimes (service.step (Running.act ctx) i).shared) next := by
    rw [Pool.recalled_self, observe, here]
    cases step with
    | idle phase next after same clear => exact knows_of_clear clear
    | countedMinute user after same =>
      rw [same]
      exact ⟨List.prefix_rfl, rfl⟩
    | allowed user after same below =>
      rw [same]
      exact ⟨_, knows.1, List.prefix_rfl, knows.2.symm, below⟩
    | issued user next after clear grown => exact knows_of_clear clear
  refine ⟨fun j => ?_, fun userId => ?_⟩
  · by_cases same : j = i
    · rw [same]
      exact ⟨env, email, next, there, own⟩
    · obtain ⟨otherEnv, otherEmail, otherPhase, waits, otherKnows⟩ := h.resends j
      refine ⟨otherEnv, otherEmail, otherPhase, ?_, ?_⟩
      · rw [Pool.thread_step_of_ne service same]
        exact waits
      · rw [Pool.recalled_of_ne same]
        exact otherKnows.grow step.grows
  · have before := h.issues userId
    cases step with
    | idle phase next after same clear =>
      rw [same]
      exact before
    | countedMinute user after same =>
      rw [same]
      exact before
    | allowed user after same below =>
      rw [same]
      exact before
    | issued user next after clear grown =>
      rw [grown]
      by_cases owner : userId = user.userId
      · rw [owner, Function.update_self]
        rw [owner] at before
        rw [Current, here] at current
        exact before.one (knows.allowed current)
      · rw [Function.update_of_ne owner]
        exact before

/-- As long as every resend that begins its transaction finds the tokens of its account that its first
count saw, the tokens issued keep the limits in every state reached, and so do all tokens of an account
whose tokens kept them at the start. -/
theorem throttled_of_current (ctx : AppCtx) (production : ctx.config.devMode = false)
    (service : Service ι) (begins : ∀ i, Begins (service.thread i).activity) (schedule : List ι)
    (current : Pool.AlongRecalling (Running.act ctx) observe Current (fun _ => []) service schedule)
    (before rest : List ι) (split : schedule = before ++ rest) (userId : Int) :
    ∃ issued, createdTimes (service.run (Running.act ctx) before).shared userId =
        createdTimes service.shared userId ++ issued ∧
      Throttled ctx.config issued ∧
      (Throttled ctx.config (createdTimes service.shared userId) →
        Throttled ctx.config (createdTimes (service.run (Running.act ctx) before).shared userId)) := by
  have start : Watched ctx.config service.shared (fun _ => []) service := by
    refine ⟨fun i => ?_, fun _ => Issues.none⟩
    have beginning := begins i
    unfold Begins at beginning
    split at beginning
    · rename_i env email here
      exact ⟨env, email, .lookup, here, trivial⟩
    · exact beginning.elim
  rw [split] at current
  obtain ⟨recalled, watched⟩ := Pool.run_invariant_recalling
    (Watched ctx.config service.shared) (fun _ _ _ here allowed => here.step production allowed) start
    current.beginning
  exact (watched.issues userId).throttled

end Runs

/-- Two resends to an account with an outstanding token. -/
def twoResends : Service Bool where
  shared := Deployment.unverified .pendingVerification
  thread second := ⟨.resend (Deployment.env 2000 (if second then 2 else 1) 1)
    (ascii "alice@example.org") .lookup, []⟩

/-- One token keeps the limits, if the settings allow any. -/
theorem throttled_singleton (time : Int) {config : Config} (positive : 0 < config.resendMaxPerDay) :
    Throttled config [time] := by
  refine ⟨List.pairwise_singleton _ _, fun start => ?_⟩
  have few : [time].countP (fun time => start ≤ time ∧ time ≤ start + day) ≤ 1 :=
    List.countP_le_length
  omega

/-- One resend after the other: the second is refused. -/
theorem throttled_of_serial_resends :
    let final := (twoResends.run (Running.act Deployment.ctx)
      [false, false, false, false, false, true, true, true, true, true]).shared
    createdTimes final 1 = [1000, 2000] ∧ Throttled Deployment.config (createdTimes final 1) := by
  have start : Throttled Deployment.config (createdTimes twoResends.shared 1) :=
    throttled_singleton 1000 (by decide)
  obtain ⟨_, _, _, throttled⟩ := throttled_of_current Deployment.ctx rfl twoResends
    (fun _ => trivial) [false, false, false, false, false, true, true, true, true, true]
    (by decide +kernel) _ [] (List.append_nil _).symm 1
  exact ⟨by decide +kernel, throttled start⟩

/-- Two resends that both count before either writes issue two tokens at one time. -/
theorem overlapping_resends_not_throttled :
    let final := (twoResends.run (Running.act Deployment.ctx)
      [false, false, false, true, true, true, false, true]).shared
    Deployment.ctx.config.devMode = false ∧
    Throttled Deployment.config (createdTimes twoResends.shared 1) ∧
    createdTimes final 1 = [1000, 2000, 2000] ∧
      ¬Throttled Deployment.config (createdTimes final 1) := by
  have issued : createdTimes (twoResends.run (Running.act Deployment.ctx)
      [false, false, false, true, true, true, false, true]).shared 1 = [1000, 2000, 2000] := by
    decide +kernel
  refine ⟨rfl, throttled_singleton _ (by decide), issued, fun throttled => ?_⟩
  have apart := throttled.apart
  rw [issued] at apart
  exact absurd apart (by decide)

end PlatformService.Verif.Throttle
