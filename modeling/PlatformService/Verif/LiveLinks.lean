import PlatformService.Verif.AccountChanges
import PlatformService.Verif.Deployment

/-!
# At most one live verification link

A resend decides on reads made before its transaction, but the transaction itself
consumes every outstanding token of the user before it inserts a new one, and a
registration inserts the first token of a user that nobody could refer to before.
So whatever the interleaving, a user has at most one outstanding token.
-/

namespace PlatformService.Verif.LiveLinks

open Lib Store Api

/-- Each user has at most one token whose `consumed_at` is NULL. -/
def SingleLink (db : Db) : Prop :=
  ∀ userId, ∀ first ∈ db.emailVerificationTokens, ∀ second ∈ db.emailVerificationTokens,
    TokenStore.outstandingOf userId first = true → TokenStore.outstandingOf userId second = true →
      first = second

/-- A token is outstanding for a user exactly when it is the user's and not consumed. -/
theorem outstandingOf_iff {userId : Int} {token : VerificationTokenRow} :
    TokenStore.outstandingOf userId token = true ↔
      token.userId = userId ∧ token.consumedAt = none := by
  simp [TokenStore.outstandingOf]

/-- No more tokens, and none outstanding again: at most one link is live. -/
theorem SingleLink.of_fewer {db after : Db} (h : SingleLink db)
    (fewer : ∀ token ∈ after.emailVerificationTokens, token.consumedAt = none →
      token ∈ db.emailVerificationTokens) : SingleLink after := by
  intro userId first firstStored second secondStored firstLive secondLive
  have firstOld := fewer first firstStored (outstandingOf_iff.mp firstLive).2
  have secondOld := fewer second secondStored (outstandingOf_iff.mp secondLive).2
  exact h userId first firstOld second secondOld firstLive secondLive

/-- Consuming tokens makes none outstanding again. -/
theorem stored_of_consume {db : Db} {selected : VerificationTokenRow → Bool} {now : Int}
    {token : VerificationTokenRow}
    (stored : token ∈ (db.consumeVerificationTokens selected now).emailVerificationTokens)
    (live : token.consumedAt = none) :
    token ∈ db.emailVerificationTokens ∧ selected token = false := by
  obtain ⟨old, member, changed⟩ := Db.mem_consumeVerificationTokens.mp stored
  by_cases chosen : selected old = true
  · rw [changed, if_pos chosen] at live
    contradiction
  · rw [if_neg chosen] at changed
    rw [changed]
    exact ⟨member, Bool.eq_false_of_not_eq_true chosen⟩

/-- Issuing a token to a user without an outstanding one leaves at most one link live. -/
theorem SingleLink.insert {db after : Db} {row : VerificationTokenRow} (h : SingleLink db)
    (inserted : db.emailVerificationTokens.insert row = some after.emailVerificationTokens)
    (free : ∀ token ∈ db.emailVerificationTokens,
      TokenStore.outstandingOf row.userId token = false) : SingleLink after := by
  have rows := (Table.mem_insert inserted).1
  -- A token that is outstanding for the user of the new row is the new row.
  have own {userId : Int} {token : VerificationTokenRow} (stored : token ∈ db.emailVerificationTokens)
      (live : TokenStore.outstandingOf userId token = true)
      (same : TokenStore.outstandingOf userId row = true) : False := by
    have owner := (outstandingOf_iff.mp same).1
    have absent := free token stored
    rw [owner, live] at absent
    contradiction
  intro userId first firstStored second secondStored firstLive secondLive
  cases (rows first).mp firstStored with
  | inl firstOld =>
    cases (rows second).mp secondStored with
    | inl secondOld => exact h userId first firstOld second secondOld firstLive secondLive
    | inr secondNew =>
      rw [secondNew] at secondLive
      exact (own firstOld firstLive secondLive).elim
  | inr firstNew =>
    cases (rows second).mp secondStored with
    | inl secondOld =>
      rw [firstNew] at firstLive
      exact (own secondOld secondLive firstLive).elim
    | inr secondNew => rw [firstNew, secondNew]

/-- A registration issues the first token of its user. -/
theorem SingleLink.register {ctx : AppCtx} {env : Env} {input : Register.Input} {db after : Db}
    {rawToken : Bytes} (h : SingleLink db)
    (effect : RegisterEffect ctx env input db rawToken after) : SingleLink after := by
  obtain ⟨_, userId, added, issued, adds, inserted, rfl⟩ := effect
  have tokens : added.emailVerificationTokens = db.emailVerificationTokens :=
    adds.emailVerificationTokens
  have kept : SingleLink added := h.of_fewer fun token stored _ => tokens ▸ stored
  have first : SingleLink issued := by
    apply kept.insert (Db.insertVerificationToken_eq_some inserted).1
    intro token stored
    obtain ⟨owner, member, own⟩ := db.verificationOwners token (tokens ▸ stored)
    have other := (Table.mem_insert adds.inserts).2 owner member
    rw [own] at other
    exact Bool.eq_false_of_not_eq_true fun live => other (outstandingOf_iff.mp live).1
  exact first

/-- A resend issues a token when it has consumed the others. -/
theorem SingleLink.resend {ctx : AppCtx} {env : Env} {userId : Int} {db after : Db}
    {rawToken : Bytes} (h : SingleLink db)
    (effect : ResendEffect ctx env userId db rawToken after) : SingleLink after := by
  obtain ⟨_, issued, inserted, rfl⟩ := effect
  have consumed : SingleLink (db.consumeVerificationTokens (TokenStore.outstandingOf userId) env.now) :=
    h.of_fewer fun token stored live => (stored_of_consume stored live).1
  have replaced : SingleLink issued := by
    apply consumed.insert (Db.insertVerificationToken_eq_some inserted).1
    intro token stored
    apply Bool.eq_false_of_not_eq_true
    intro live
    have spared := (stored_of_consume stored (outstandingOf_iff.mp live).2).2
    have outstanding : TokenStore.outstandingOf userId token = true := live
    rw [outstanding] at spared
    contradiction
  exact replaced

/-- Whatever a step does to the accounts, at most one link stays live. -/
theorem SingleLink.change {ctx : AppCtx} {activity : Activity} {db after : Db} (h : SingleLink db)
    (change : AccountChange ctx db activity after) : SingleLink after := by
  cases change with
  | kept activity after same =>
    have tokens : after.emailVerificationTokens = db.emailVerificationTokens :=
      congrArg (fun view => view.2.2) same
    exact h.of_fewer fun token stored _ => tokens ▸ stored
  | registered env input rawToken after effect => exact h.register effect
  | verified env tokenHash token =>
    exact h.of_fewer fun other stored live => (stored_of_consume stored live).1
  | resent env email user rawToken after effect => exact h.resend effect
  | swept settings now choices targets selected expired =>
    exact h.of_fewer fun token stored _ => (Table.mem_delete.mp stored).1

/-- In every state that any interleaving of activities reaches, each user has at most one outstanding
verification token. -/
theorem single_link_of_run {ι : Type} [DecidableEq ι] (ctx : AppCtx) (service : Service ι)
    (start : SingleLink service.shared) (schedule : List ι) :
    SingleLink (service.run (Running.act ctx) schedule).shared :=
  Pool.run_keeps (fun service => SingleLink service.shared)
    (fun service i here => here.change (step_accountChange ctx service i)) start schedule

/-- Two resends to one account, and a verification of its outstanding token. -/
def overlapping : Service (Fin 3) where
  shared := Deployment.unverified .pendingVerification
  thread i := match i with
    | 0 => ⟨.resend (Deployment.env 2000 1 1) (ascii "alice@example.org") .lookup, []⟩
    | 1 => ⟨.resend (Deployment.env 2000 2 1) (ascii "alice@example.org") .lookup, []⟩
    | 2 => ⟨.verify (Deployment.env 2000 4 1) Deployment.outstanding.tokenHash .lookup, []⟩

/-- Both resends issue a token while the verification is under way; one of the three stays live. -/
theorem single_link_of_overlapping :
    let final := (overlapping.run (Running.act Deployment.ctx) [2, 0, 1, 0, 1, 0, 1, 0, 1, 2]).shared
    final.emailVerificationTokens.count (TokenStore.outstandingOf 1) = 1 ∧
      final.emailVerificationTokens.rows.length = 3 ∧ SingleLink final := by
  refine ⟨by decide +kernel, by decide +kernel, ?_⟩
  have start : SingleLink overlapping.shared := by
    intro userId first firstStored second secondStored _ _
    rw [List.mem_singleton.mp firstStored, List.mem_singleton.mp secondStored]
  exact single_link_of_run Deployment.ctx overlapping start _

end PlatformService.Verif.LiveLinks
