import PlatformService.Api.System
import PlatformService.Verif.AccountSpecs
import PlatformService.Verif.Deployment

/-!
# Verification tokens are used once

Verification looks its token up outside any transaction and consumes it in a later
one, and neither `ps_token_store_consume` nor the handler asks again whether the
token is still outstanding. Runs of verifications and resends use every token at
most once as long as each verification finds, when its transaction begins, the
row that it read.
-/

namespace PlatformService.Verif.Verification

open Lib Store Api

/-- A token that was consumed or invalidated. -/
def Consumed (db : Db) (tokenHash : Bytes) : Prop :=
  ∃ token ∈ db.emailVerificationTokens, token.tokenHash = tokenHash ∧ token.consumedAt ≠ none

/-- The times of consumption are times: none of them reads as NULL. -/
def Stamped (db : Db) : Prop :=
  ∀ token ∈ db.emailVerificationTokens, token.consumedAt ≠ some 0

/-- The hash of the token for which a verification has answered 200. -/
def succeeded : Activity → Option Bytes
  | .verify _ tokenHash (.done result) => if result.status = 200 then some tokenHash else none
  | _ => none

/-- The hash and the row a verification read, when it is about to write. -/
def rereads : Activity → Option (Bytes × VerificationTokenRow)
  | .verify _ tokenHash (.write token) => some (tokenHash, token)
  | _ => none

/-- A verification or a resend at its beginning. -/
def Begins : Activity → Prop
  | .verify env _ .lookup => 0 < env.now
  | .resend env _ .lookup => 0 < env.now
  | _ => False

/-- A verification or a resend under way, with what it knows of the row it read. -/
def UnderWay : Activity → Prop
  | .verify env _ phase =>
    0 < env.now ∧ ∀ token, phase = .write token → Verify.usable env.now token = true
  | .resend env _ _ => 0 < env.now
  | _ => False

/-- What a step of a verification or a resend does to the tokens and to its answer. -/
structure TokenStep (activity : Activity) (db : Db) (next : Activity) (after : Db) : Prop where
  underWay : UnderWay next
  consumed : ∀ tokenHash, Consumed db tokenHash → Consumed after tokenHash
  stamped : Stamped db → Stamped after
  answered : ∀ tokenHash, succeeded next = some tokenHash → succeeded activity = some tokenHash ∨
    (∃ token, rereads activity = some (tokenHash, token)) ∧
      ((∃ token ∈ db.emailVerificationTokens, token.tokenHash = tokenHash) →
        Consumed after tokenHash)

/-- Consuming some tokens keeps what was consumed. -/
theorem consumed_consume {db : Db} {selected : VerificationTokenRow → Bool} {now : Int}
    {tokenHash : Bytes} (before : Consumed db tokenHash) :
    Consumed (db.consumeVerificationTokens selected now) tokenHash := by
  obtain ⟨token, stored, own, marked⟩ := before
  refine ⟨_, Db.mem_consumeVerificationTokens.mpr ⟨token, stored, rfl⟩, ?_⟩
  split
  · exact ⟨own, by simp⟩
  · exact ⟨own, marked⟩

/-- Tokens consumed at a time are stamped. -/
theorem stamped_consume {db : Db} {selected : VerificationTokenRow → Bool} {now : Int}
    (positive : 0 < now) (before : Stamped db) :
    Stamped (db.consumeVerificationTokens selected now) := by
  intro token stored
  obtain ⟨old, member, rfl⟩ := Db.mem_consumeVerificationTokens.mp stored
  split
  · intro zero
    have time : now = 0 := Option.some.inj zero
    omega
  · exact before old member

section Steps

variable {reliable : Prop} {ctx : AppCtx} {env : Env}

/-- A step that leaves the tokens alone and answers nothing new. -/
theorem tokenStep_of_kept {activity next : Activity} {db after : Db} (underWay : UnderWay next)
    (same : after.emailVerificationTokens = db.emailVerificationTokens)
    (silent : ∀ tokenHash, succeeded next = some tokenHash → succeeded activity = some tokenHash) :
    TokenStep activity db next after where
  underWay := underWay
  consumed tokenHash before := by
    unfold Consumed
    rw [same]
    exact before
  stamped before := by
    unfold Stamped
    rw [same]
    exact before
  answered tokenHash reached := Or.inl (silent tokenHash reached)

/-- What a step of a verification does to the tokens. -/
theorem verify_step_spec {tokenHash : Bytes} {phase : Verify.Phase}
    (underWay : UnderWay (.verify env tokenHash phase)) (db : Db) :
    Sql.Leaves reliable (Verify.step env tokenHash phase) db fun next after =>
      TokenStep (.verify env tokenHash phase) db (.verify env tokenHash next) after := by
  obtain ⟨positive, readUsable⟩ := underWay
  cases phase with
  | lookup =>
    have refused (found : Option VerificationTokenRow) :
        TokenStep (.verify env tokenHash .lookup) db
          (.verify env tokenHash (.auditFailure found)) db :=
      tokenStep_of_kept ⟨positive, fun _ impossible => by contradiction⟩ rfl fun _ impossible => by
        contradiction
    apply Sql.Guarantees.leaves
    apply Sql.guarantees_lookup
    · intro _
      exact Sql.guarantees_pure (refused none)
    cases found : db.emailVerificationTokens.find? tokenHash with
    | none => exact Sql.guarantees_pure (refused none)
    | some token =>
      apply Sql.guarantees_pure
      by_cases usable : Verify.usable env.now token = true
      · rw [if_pos usable]
        refine tokenStep_of_kept ⟨positive, fun other same => ?_⟩ rfl fun _ impossible => by
          contradiction
        rw [← Verify.Phase.write.inj same]
        exact usable
      · rw [if_neg usable]
        exact refused (some token)
  | auditFailure found =>
    have refused (after : Db) (same : after.emailVerificationTokens = db.emailVerificationTokens) :
        TokenStep (.verify env tokenHash (.auditFailure found)) db
          (.verify env tokenHash (.done Verify.invalidToken)) after :=
      tokenStep_of_kept ⟨positive, fun _ impossible => by contradiction⟩ same fun _ impossible => by
        simp [succeeded, Verify.invalidToken, errorResult] at impossible
    apply Sql.Guarantees.leaves
    apply Sql.guarantees_update
    · intro _
      exact Sql.guarantees_pure (refused db rfl)
    · exact Sql.guarantees_pure (refused _ rfl)
  | write token =>
    apply (verify_write_spec env tokenHash token db).andReturn
    intro result after left
    cases result with
    | error reason =>
      have same : after = db := left
      refine ⟨_, rfl, tokenStep_of_kept ⟨positive, fun _ impossible => by contradiction⟩ (by rw [same])
        fun _ impossible => ?_⟩
      simp [succeeded, internalErrorResult] at impossible
    | ok _ =>
      have verified : after = verifiedDb env tokenHash token.userId db := left
      rw [verified]
      refine ⟨_, rfl, ⟨positive, fun _ impossible => by contradiction⟩, fun _ => consumed_consume,
        stamped_consume positive, fun other reached => Or.inr ?_⟩
      have own : tokenHash = other := Option.some.inj reached
      rw [← own]
      refine ⟨⟨token, rfl⟩, fun stored => ?_⟩
      obtain ⟨row, member, same⟩ := stored
      refine ⟨_, Db.mem_consumeVerificationTokens.mpr ⟨row, member, rfl⟩, ?_⟩
      rw [if_pos (by simpa using same)]
      exact ⟨same, by simp⟩
  | done result =>
    exact Sql.Guarantees.leaves (Sql.guarantees_pure (tokenStep_of_kept
      ⟨positive, fun _ impossible => by contradiction⟩ rfl fun _ reached => reached))

/-- Issuing a token keeps what was consumed, and the stamps. -/
theorem tokens_insert {db after : Db} {row : VerificationTokenRow} (fresh : row.consumedAt = none)
    (inserted : db.emailVerificationTokens.insert row = some after.emailVerificationTokens) :
    (∀ tokenHash, Consumed db tokenHash → Consumed after tokenHash) ∧
      (Stamped db → Stamped after) := by
  have rows := (Table.mem_insert inserted).1
  constructor
  · intro tokenHash before
    obtain ⟨token, stored, marked⟩ := before
    exact ⟨token, (rows token).mpr (Or.inl stored), marked⟩
  · intro before token stored
    cases (rows token).mp stored with
    | inl old => exact before token old
    | inr new =>
      rw [new, fresh]
      simp

/-- What a step of a resend does to the tokens. -/
theorem resend_step_spec {email : Bytes} {phase : Resend.Phase} (positive : 0 < env.now) (db : Db) :
    Sql.Leaves reliable (Resend.step ctx env email phase) db fun next after =>
      TokenStep (.resend env email phase) db (.resend env email next) after := by
  have kept (next : Resend.Phase) {after : Db}
      (same : after.emailVerificationTokens = db.emailVerificationTokens) :
      TokenStep (.resend env email phase) db (.resend env email next) after :=
    tokenStep_of_kept positive same fun _ impossible => by contradiction
  cases phase with
  | lookup =>
    apply Sql.Guarantees.leaves
    apply Sql.guarantees_lookup
    · intro _
      exact Sql.guarantees_pure (kept _ rfl)
    cases db.users.rows.find? fun user => user.emailNormalized = cString email with
    | none => exact Sql.guarantees_pure (kept _ rfl)
    | some user =>
      exact Sql.guarantees_ite (fun _ => Sql.guarantees_pure (kept _ rfl)) fun _ =>
        Sql.guarantees_pure (kept _ rfl)
  | auditFailure userId reason =>
    apply Sql.Guarantees.leaves
    apply Sql.guarantees_update
    · intro _
      exact Sql.guarantees_pure (kept _ rfl)
    · exact Sql.guarantees_pure (kept _ rfl)
  | countMinute user =>
    apply Sql.Guarantees.leaves
    apply Sql.guarantees_query
    · intro _
      exact Sql.guarantees_pure (kept _ rfl)
    · exact Sql.guarantees_pure (kept _ rfl)
  | countDay user recentMinute =>
    apply Sql.Guarantees.leaves
    apply Sql.guarantees_query
    · intro _
      exact Sql.guarantees_pure (kept _ rfl)
    · exact Sql.guarantees_ite (fun _ => Sql.guarantees_pure (kept _ rfl)) fun _ =>
        Sql.guarantees_pure (kept _ rfl)
  | write user =>
    apply (resend_write_spec ctx env user db).andReturn
    intro result after left
    cases result with
    | error reason =>
      have same : after = db := left
      exact ⟨_, rfl, kept _ (by rw [same])⟩
    | ok rawToken =>
      obtain ⟨consumed, stamped⟩ := tokens_insert rfl left.2.1
      exact ⟨_, rfl, positive, fun tokenHash before => consumed tokenHash (consumed_consume before),
        fun before => stamped (stamped_consume positive before), fun _ impossible => by contradiction⟩
  | sendEmail user rawToken =>
    apply Sql.Guarantees.leaves
    apply Sql.guarantees_update
    · intro _
      exact Sql.guarantees_pure (kept _ rfl)
    · exact Sql.guarantees_pure (kept _ rfl)
  | done result => exact Sql.Guarantees.leaves (Sql.guarantees_pure (kept _ rfl))

/-- What a step of an activity under way does to the tokens. -/
theorem activity_spec {activity : Activity} (underWay : UnderWay activity) (db : Db) :
    Sql.Leaves reliable (activity.step ctx) db (TokenStep activity db) := by
  cases activity with
  | verify env tokenHash phase =>
    exact Sql.Leaves.map (verify_step_spec underWay db) fun _ => rfl
  | resend env email phase => exact Sql.Leaves.map (resend_step_spec underWay db) fun _ => rfl
  | register env input phase => exact underWay.elim
  | login env input phase => exact underWay.elim
  | refresh env tokenHash phase => exact underWay.elim
  | logout env claims tokenHash phase => exact underWay.elim
  | passwordChange env claims input phase => exact underWay.elim
  | sweep settings now choices targets => exact underWay.elim
  | operator userId now done => exact underWay.elim

end Steps

section Runs

variable {ι : Type} {ctx : AppCtx}

/-- The condition of a step: a verification that begins its transaction finds the row it read. -/
def Undisturbed (service : Service ι) (i : ι) : Prop :=
  ∀ read ∈ rereads (service.thread i).activity,
    service.shared.emailVerificationTokens.find? read.1 = some read.2

instance decidableUndisturbed (service : Service ι) (i : ι) : Decidable (Undisturbed service i) :=
  inferInstanceAs (Decidable (∀ read ∈ rereads (service.thread i).activity, _))

/-- What holds between the tokens and the answers given so far. -/
structure SingleUse (service : Service ι) : Prop where
  stamped : Stamped service.shared
  underWay : ∀ i, UnderWay (service.thread i).activity
  consumed : ∀ i tokenHash, succeeded (service.thread i).activity = some tokenHash →
    Consumed service.shared tokenHash
  once : ∀ i j tokenHash, succeeded (service.thread i).activity = some tokenHash →
    succeeded (service.thread j).activity = some tokenHash → i = j

/-- A token under which a verification begins its transaction undisturbed is outstanding. -/
theorem SingleUse.outstanding {service : Service ι} (h : SingleUse service) {i : ι}
    (undisturbed : Undisturbed service i) {tokenHash : Bytes} {token : VerificationTokenRow}
    (read : rereads (service.thread i).activity = some (tokenHash, token)) :
    token ∈ service.shared.emailVerificationTokens ∧ token.tokenHash = tokenHash ∧
      token.consumedAt = none := by
  obtain ⟨stored, own⟩ := Table.find?_eq_some_iff.mp (undisturbed _ read)
  refine ⟨stored, own, ?_⟩
  have underWay := h.underWay i
  have marked := h.stamped token stored
  unfold rereads at read
  split at read
  · rename_i env hash row here
    rw [here] at underWay
    have usable := underWay.2 row rfl
    have same : row = token := congrArg Prod.snd (Option.some.inj read)
    rw [same] at usable
    simp only [Verify.usable, Bool.and_eq_true, decide_eq_true_eq] at usable
    cases time : token.consumedAt with
    | none => rfl
    | some stamp =>
      have zero : stamp = 0 := by simpa [time, nullAsZero] using usable.1
      rw [time, zero] at marked
      exact absurd rfl marked
  · contradiction

/-- A token that is stored unconsumed is not consumed. -/
theorem not_consumed {db : Db} {token : VerificationTokenRow}
    (stored : token ∈ db.emailVerificationTokens) (open_ : token.consumedAt = none) :
    ¬Consumed db token.tokenHash := by
  intro consumed
  obtain ⟨other, member, same, marked⟩ := consumed
  rw [Table.eq_of_key member stored same] at marked
  exact marked open_

variable [DecidableEq ι]

/-- What a step of the service does to the tokens. -/
theorem tokenStep_step {service : Service ι} {i : ι}
    (underWay : UnderWay (service.thread i).activity) :
    TokenStep (service.thread i).activity service.shared
      ((service.step (Running.act ctx) i).thread i).activity
      (service.step (Running.act ctx) i).shared := by
  rw [Pool.thread_step_self]
  exact Running.act_spec (activity_spec underWay service.shared)

/-- An undisturbed step keeps the invariant. -/
theorem SingleUse.step {service : Service ι} (h : SingleUse service) {i : ι}
    (undisturbed : Undisturbed service i) : SingleUse (service.step (Running.act ctx) i) := by
  have step : TokenStep (service.thread i).activity service.shared
      ((service.step (Running.act ctx) i).thread i).activity
      (service.step (Running.act ctx) i).shared := tokenStep_step (h.underWay i)
  have waits {j : ι} (other : j ≠ i) :
      ((service.step (Running.act ctx) i).thread j).activity = (service.thread j).activity := by
    rw [Pool.thread_step_of_ne service other]
  -- A new answer is for a token that no answer was given for.
  have newAnswer (tokenHash : Bytes)
      (reached : succeeded ((service.step (Running.act ctx) i).thread i).activity = some tokenHash) :
      succeeded (service.thread i).activity = some tokenHash ∨
        Consumed (service.step (Running.act ctx) i).shared tokenHash ∧
          ∀ j, succeeded (service.thread j).activity ≠ some tokenHash := by
    cases step.answered tokenHash reached with
    | inl already => exact Or.inl already
    | inr wrote =>
      obtain ⟨⟨token, read⟩, consumes⟩ := wrote
      obtain ⟨stored, own, unconsumed⟩ := h.outstanding undisturbed read
      refine Or.inr ⟨consumes ⟨token, stored, own⟩, fun j answered => ?_⟩
      exact not_consumed stored unconsumed (own ▸ h.consumed j tokenHash answered)
  exact {
    stamped := step.stamped h.stamped
    underWay := by
      intro j
      by_cases own : j = i
      · rw [own]
        exact step.underWay
      · rw [waits own]
        exact h.underWay j
    consumed := by
      intro j tokenHash answered
      by_cases own : j = i
      · rw [own] at answered
        cases newAnswer tokenHash answered with
        | inl already => exact step.consumed tokenHash (h.consumed i tokenHash already)
        | inr fresh => exact fresh.1
      · rw [waits own] at answered
        exact step.consumed tokenHash (h.consumed j tokenHash answered)
    once := by
      intro j k tokenHash first second
      by_cases ownFirst : j = i
      · by_cases ownSecond : k = i
        · rw [ownFirst, ownSecond]
        · rw [ownFirst] at first
          rw [waits ownSecond] at second
          cases newAnswer tokenHash first with
          | inl already => exact ownFirst.trans (h.once i k tokenHash already second)
          | inr fresh => exact absurd second (fresh.2 k)
      · rw [waits ownFirst] at first
        by_cases ownSecond : k = i
        · rw [ownSecond] at second
          cases newAnswer tokenHash second with
          | inl already => exact (h.once j i tokenHash first already).trans ownSecond.symm
          | inr fresh => exact absurd first (fresh.2 j)
        · rw [waits ownSecond] at second
          exact h.once j k tokenHash first second }

/-- A beginning activity has answered nothing and knows nothing. -/
theorem underWay_of_begins {activity : Activity} (begins : Begins activity) :
    UnderWay activity ∧ succeeded activity = none := by
  unfold Begins at begins
  split at begins
  · exact ⟨⟨begins, fun _ impossible => by contradiction⟩, rfl⟩
  · exact ⟨begins, rfl⟩
  · exact begins.elim

/-- As long as every verification finds the row it read when its transaction begins, each token is
answered 200 at most once, and only if it is outstanding when that transaction begins. -/
theorem single_use_of_undisturbed (ctx : AppCtx) (service : Service ι) (schedule : List ι)
    (begins : ∀ i, Begins (service.thread i).activity) (stamped : Stamped service.shared)
    (undisturbed : Pool.Along (Running.act ctx) Undisturbed service schedule) :
    (∀ i j tokenHash,
      succeeded ((service.run (Running.act ctx) schedule).thread i).activity = some tokenHash →
      succeeded ((service.run (Running.act ctx) schedule).thread j).activity = some tokenHash →
      i = j) ∧
    ∀ before i rest tokenHash, schedule = before ++ i :: rest →
      succeeded ((service.run (Running.act ctx) before).thread i).activity = none →
      succeeded ((service.run (Running.act ctx) (before ++ [i])).thread i).activity =
        some tokenHash →
      ∃ token ∈ (service.run (Running.act ctx) before).shared.emailVerificationTokens,
        token.tokenHash = tokenHash ∧ token.consumedAt = none := by
  have start : SingleUse service := {
    stamped := stamped
    underWay := fun i => (underWay_of_begins (begins i)).1
    consumed := by
      intro i tokenHash answered
      rw [(underWay_of_begins (begins i)).2] at answered
      contradiction
    once := by
      intro i j tokenHash answered
      rw [(underWay_of_begins (begins i)).2] at answered
      contradiction }
  have holds {first : List ι} (along : Pool.Along (Running.act ctx) Undisturbed service first) :
      SingleUse (service.run (Running.act ctx) first) :=
    Pool.run_invariant SingleUse (fun _ _ here allowed => here.step allowed) start along
  constructor
  · intro i j tokenHash first second
    exact (holds undisturbed).once i j tokenHash first second
  · intro before i rest tokenHash split unanswered answered
    rw [split] at undisturbed
    have here := holds undisturbed.beginning
    rw [Pool.run_append] at answered
    have step : TokenStep ((service.run (Running.act ctx) before).thread i).activity
        (service.run (Running.act ctx) before).shared
        (((service.run (Running.act ctx) before).step (Running.act ctx) i).thread i).activity
        ((service.run (Running.act ctx) before).step (Running.act ctx) i).shared :=
      tokenStep_step (here.underWay i)
    cases step.answered tokenHash answered with
    | inl already =>
      rw [unanswered] at already
      contradiction
    | inr wrote =>
      obtain ⟨⟨token, read⟩, _⟩ := wrote
      exact ⟨token, here.outstanding undisturbed.at_split read⟩

end Runs

/-- Two verifications of the outstanding token, and a resend to its user. -/
def verifyTwice : Service (Fin 3) where
  shared := Deployment.unverified .pendingVerification
  thread i :=
    if i = 2 then ⟨.resend (Deployment.env 2000 1 1) (ascii "alice@example.org") .lookup, []⟩
    else ⟨.verify (Deployment.env 2000 1 1) Deployment.outstanding.tokenHash .lookup, []⟩

/-- One verification after the other: only the first is answered 200. -/
theorem single_use_of_serial_verifications :
    let final := verifyTwice.run (Running.act Deployment.ctx) [0, 0, 2, 1, 1]
    succeeded (final.thread 0).activity = some Deployment.outstanding.tokenHash ∧
      succeeded (final.thread 1).activity ≠ some Deployment.outstanding.tokenHash := by
  have first : succeeded ((verifyTwice.run (Running.act Deployment.ctx)
      [0, 0, 2, 1, 1]).thread 0).activity = some Deployment.outstanding.tokenHash := by
    decide +kernel
  have begins (i : Fin 3) : Begins (verifyTwice.thread i).activity := by
    have positive : (0 : Int) < 2000 := by decide
    match i with
    | 0 => exact positive
    | 1 => exact positive
    | 2 => exact positive
  have stamped : Stamped verifyTwice.shared := by
    intro token stored
    rw [List.mem_singleton.mp stored]
    decide
  refine ⟨first, fun second => ?_⟩
  have same := (single_use_of_undisturbed Deployment.ctx verifyTwice [0, 0, 2, 1, 1]
    begins stamped (by decide +kernel)).1 0 1 _ first second
  contradiction

/-- Two verifications that both look the token up before either writes are both answered 200, the
second one for a token that is consumed when its transaction begins. -/
theorem overlapping_verifications_both_succeed :
    let final := verifyTwice.run (Running.act Deployment.ctx) [0, 1, 0, 1]
    succeeded (final.thread 0).activity = some Deployment.outstanding.tokenHash ∧
      succeeded (final.thread 1).activity = some Deployment.outstanding.tokenHash ∧
      Consumed (verifyTwice.run (Running.act Deployment.ctx) [0, 1, 0]).shared
        Deployment.outstanding.tokenHash := by
  refine ⟨by decide +kernel, by decide +kernel, ?_⟩
  exact ⟨{ Deployment.outstanding with consumedAt := some 2000 }, by decide +kernel, by decide +kernel,
    by decide +kernel⟩

end PlatformService.Verif.Verification
