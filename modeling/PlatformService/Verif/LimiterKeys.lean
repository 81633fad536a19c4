import PlatformService.Api.Sessions
import PlatformService.Platform.Net
import PlatformService.Verif.Deployment
import PlatformService.Verif.Limiter

/-!
# Keys of the rate limiter

The register and login endpoints charge buckets under `register-ip:…`,
`register:__global__` and `login-ip:…`; a login also charges its username, and a
password change the username of its account, under the bare name. The first three
never meet each other. A submitted username is not checked before it is charged, so
it can spell one of them, and exactly then the purposes share a bucket. A key keeps
63 octets: two scoped addresses that differ only behind them share a bucket, and a
username is cut at a NUL octet.
-/

namespace PlatformService.Verif.LimiterKeys

open Lib Lib.Probe Store Api Ratelimit Net

/-- The key of a registration's address. -/
def registerIpKey (peer : Option Peer) : Bytes :=
  namespacedIpKey (ascii "register-ip") (some (formatPeer peer))

/-- The key of all registrations. -/
def registerGlobalKey : Bytes := ascii "register:__global__"

/-- The key of a login's address. -/
def loginIpKey (peer : Option Peer) : Bytes :=
  namespacedIpKey (ascii "login-ip") (some (formatPeer peer))

/-- The key of a login's username. -/
def usernameKey (username : Bytes) : Bytes := lowercaseInto username keyMax

section Addresses

/-- A character of an IPv4 host is no bracket. -/
theorem v4Char_ne {byte : UInt8} (numeric : isV4Char byte = true) : byte ≠ 91 ∧ byte ≠ 93 := by
  constructor
  · rintro rfl
    revert numeric
    decide
  · rintro rfl
    revert numeric
    decide

/-- A digit is neither NUL nor a colon. -/
theorem digit_ne {byte : UInt8} (digit : isDigit byte = true) : byte ≠ 0 ∧ byte ≠ 58 := by
  constructor
  · rintro rfl
    revert digit
    decide
  · rintro rfl
    revert digit
    decide

/-- A text that is short and free of NUL is copied whole. -/
theorem boundedCopy_eq_self {size : Nat} {text : Bytes} (free : (0 : UInt8) ∉ text)
    (fits : text.length ≤ size - 1) : boundedCopy size text = text := by
  rw [boundedCopy, cString_eq_self free, List.take_of_length_le fits]

/-- What the keys take of an address: it ends at a bracket, which only a zone may hold. -/
def shown (peer : Option Peer) : Bytes := (address peer).takeWhile (· ≠ 93)

/-- The address part of a formatted peer is what the keys take of its address. -/
theorem peerIp_formatPeer (peer : Option Peer) : peerIp (some (formatPeer peer)) = shown peer := by
  cases peer with
  | none => rfl
  | some peer =>
    obtain ⟨family, host, serv, hostFree, dotted, short, port, digits⟩ := peer
    have ports := List.all_eq_true.mp port
    have servFree : (0 : UInt8) ∉ serv := fun stored => (digit_ne (ports 0 stored)).1 rfl
    cases family with
    | inet6 =>
      -- the closing bracket is always inside the buffer, the port need not be
      have free : (0 : UInt8) ∉ 91 :: (host ++ [93, 58] ++ serv) := by simp [hostFree, servFree]
      have room : peerMax - 1 = 62 + 1 := rfl
      have split : (host ++ [93, 58] ++ serv).take 62 =
          host ++ 93 :: (58 :: serv).take (61 - host.length) := by
        have fits : host.take 62 = host := List.take_of_length_le (by omega)
        have behind : 62 - host.length = (61 - host.length) + 1 := by omega
        rw [List.append_assoc, List.take_append, fits, behind]
        rfl
      have kept : boundedCopy peerMax (91 :: (host ++ [93, 58] ++ serv)) =
          91 :: (host ++ 93 :: (58 :: serv).take (61 - host.length)) := by
        rw [boundedCopy, cString_eq_self free, room, List.take_succ_cons, split]
      have still : (0 : UInt8) ∉ 91 :: (host ++ 93 :: (58 :: serv).take (61 - host.length)) := by
        rw [← kept]
        intro stored
        rw [boundedCopy, cString_eq_self free] at stored
        exact free (List.mem_of_mem_take stored)
      have inside : (host ++ 93 :: (58 :: serv).take (61 - host.length)).takeWhile (· ≠ 93) =
          host.takeWhile (· ≠ 93) := by
        rw [List.takeWhile_append]
        split
        · rename_i whole
          rw [List.takeWhile_cons_of_neg (by simp), List.append_nil]
          exact (List.takeWhile_prefix _).eq_of_length whole |>.symm
        · rfl
      unfold formatPeer peerIp shown address
      dsimp only [Option.map_some]
      rw [kept, cString_eq_self still, if_pos (by simp)]
      exact inside
    | inet =>
      obtain ⟨numeric, length⟩ := dotted rfl
      have chars := List.all_eq_true.mp numeric
      have free : (0 : UInt8) ∉ host ++ [58] ++ serv := by simp [hostFree, servFree]
      have fits : (host ++ [58] ++ serv).length ≤ peerMax - 1 := by
        simp only [List.length_cons, List.length_append, List.length_nil, peerMax]
        omega
      have unbracketed : ¬((host ++ [58] ++ serv).head? = some 91 ∧ 93 ∈ host ++ [58] ++ serv) := by
        intro bracketed
        cases host with
        | nil => simp at bracketed
        | cons first rest =>
          have opening : first = 91 := by simpa using bracketed.1
          exact (v4Char_ne (chars first List.mem_cons_self)).1 opening
      have before : (host ++ [58] ++ serv).rdropWhile (· ≠ 58) = host ++ [58] := by
        rw [List.rdropWhile, List.reverse_append, List.dropWhile_append_of_pos]
        · simp
        · intro byte stored
          simp [(digit_ne (ports byte (List.mem_reverse.mp stored))).2]
      have plain : host.takeWhile (· ≠ 93) = host :=
        List.takeWhile_eq_self_iff.mpr fun byte stored => by simp [(v4Char_ne (chars byte stored)).2]
      unfold formatPeer peerIp shown address
      dsimp only [Option.map_some]
      rw [boundedCopy_eq_self free fits, cString_eq_self free, if_neg unbracketed,
        if_pos (by simp), before, List.dropLast_concat, plain]

/-- The key of an address is the purpose and the beginning of the address, 63 octets in all. -/
theorem namespacedIpKey_eq {purpose : Bytes} (named : purpose.length ≤ 62) (peer : Option Peer) :
    namespacedIpKey purpose (some (formatPeer peer)) =
      purpose ++ [58] ++ (shown peer).take (62 - purpose.length) := by
  have room : keyMax - 1 = 63 := rfl
  have whole : purpose.take 63 = purpose := List.take_of_length_le (by omega)
  have separated : (purpose ++ [58]).take 63 = purpose ++ [58] := by
    apply List.take_of_length_le
    rw [List.length_append, List.length_singleton]
    omega
  have rest : 63 - (purpose ++ [58]).length = 62 - purpose.length := by
    rw [List.length_append, List.length_singleton]
    omega
  have shorter : min (62 - purpose.length) 63 = 62 - purpose.length := by omega
  unfold namespacedIpKey
  dsimp only
  rw [peerIp_formatPeer, room, whole, separated, List.take_append, separated, rest, List.take_take,
    shorter]

/-- The key of a registration's address, spelt out. -/
theorem registerIpKey_eq (peer : Option Peer) :
    registerIpKey peer = ascii "register-ip:" ++ (shown peer).take 51 :=
  namespacedIpKey_eq (by decide) peer

/-- The key of a login's address, spelt out. -/
theorem loginIpKey_eq (peer : Option Peer) :
    loginIpKey peer = ascii "login-ip:" ++ (shown peer).take 54 :=
  namespacedIpKey_eq (by decide) peer

/-- Texts that differ in their first octets differ. -/
theorem ne_of_take_ne {left right : Bytes} (count : Nat) (different : left.take count ≠ right.take count) :
    left ≠ right := fun same => different (congrArg (List.take count) same)

/-- Keys of different purposes that name one are different. -/
theorem purposes_ne (first second : Option Peer) :
    registerIpKey first ≠ loginIpKey second ∧ registerIpKey first ≠ registerGlobalKey ∧
      loginIpKey second ≠ registerGlobalKey := by
  rw [registerIpKey_eq, loginIpKey_eq]
  refine ⟨ne_of_take_ne 9 ?_, ne_of_take_ne 9 ?_, ne_of_take_ne 9 ?_⟩
  · rw [List.take_append_of_le_length (by decide), List.take_append_of_le_length (by decide)]
    decide
  · rw [List.take_append_of_le_length (by decide)]
    decide
  · rw [List.take_append_of_le_length (by decide)]
    decide

/-- Two addresses are the same, or a key that takes some octets of an address tells them apart. -/
def told (octets : Nat) (first second : Option Peer) : Bool :=
  address first = address second || (shown first).take octets ≠ (shown second).take octets

/-- Taking some octets of addresses shows whether they are equal exactly when it tells them apart. -/
theorem told_iff (octets : Nat) (first second : Option Peer) :
    ((shown first).take octets = (shown second).take octets ↔ address first = address second) ↔
      told octets first second = true := by
  have same : address first = address second →
      (shown first).take octets = (shown second).take octets := fun equal => by
    unfold shown
    rw [equal]
  unfold told
  rw [Bool.or_eq_true, decide_eq_true_eq, decide_eq_true_eq]
  constructor
  · intro shows
    by_cases equal : address first = address second
    · exact Or.inl equal
    · exact Or.inr fun taken => equal (shows.mp taken)
  · rintro (equal | apart)
    · exact ⟨fun _ => equal, same⟩
    · exact ⟨fun taken => absurd taken apart, same⟩

/-- Two keys of one purpose are equal exactly when the addresses are, if what the key takes of the
addresses tells them apart, and only then. -/
theorem ipKey_eq_iff (first second : Option Peer) :
    ((registerIpKey first = registerIpKey second ↔ address first = address second) ↔
        told 51 first second = true) ∧
      ((loginIpKey first = loginIpKey second ↔ address first = address second) ↔
        told 54 first second = true) := by
  rw [registerIpKey_eq, registerIpKey_eq, loginIpKey_eq, loginIpKey_eq, List.append_right_inj,
    List.append_right_inj]
  exact ⟨told_iff 51 first second, told_iff 54 first second⟩

end Addresses

section Usernames

/-- A name that an account may have: registration and the bootstrap administrator take no other. -/
structure AccountName where
  raw : Bytes
  checkReserved : Bool
  name : Bytes
  valid : Validate.username raw Validate.usernameMax checkReserved = .valid name

/-- A valid name is short and made of letters in lower case, digits, hyphens and underscores. -/
theorem validName_shape {raw name : Bytes} {checkReserved : Bool}
    (valid : Validate.username raw Validate.usernameMax checkReserved = .valid name) :
    name.length ≤ 32 ∧ name.all Validate.isUsernameChar = true := by
  unfold Validate.username at valid
  dsimp only at valid
  split_ifs at valid with short long charset start reserved
  rw [← Validate.UsernameResult.valid.inj valid]
  constructor
  · rw [List.length_map, List.length_take]
    exact Nat.min_le_left _ _
  · simpa using charset

/-- A character of a valid name is in lower case, not NUL and no colon. -/
theorem usernameChar_spec {byte : UInt8} (allowed : Validate.isUsernameChar byte = true) :
    byte ≠ 0 ∧ byte ≠ 58 ∧ toLower byte = byte := by
  have cases (number : Fin 256) : Validate.isUsernameChar (UInt8.ofFin number) = true →
      UInt8.ofFin number ≠ 0 ∧ UInt8.ofFin number ≠ 58 ∧
        toLower (UInt8.ofFin number) = UInt8.ofFin number := by
    revert number
    decide +kernel
  exact cases byte.toFin allowed

/-- The name of an account is made of such characters. -/
theorem accountChar_spec (account : AccountName) {byte : UInt8} (stored : byte ∈ account.name) :
    byte ≠ 0 ∧ byte ≠ 58 ∧ toLower byte = byte :=
  usernameChar_spec (List.all_eq_true.mp (validName_shape account.valid).2 byte stored)

/-- The name of an account is a C string. -/
theorem account_free (account : AccountName) : (0 : UInt8) ∉ account.name :=
  fun stored => (accountChar_spec account stored).1 rfl

/-- The name of an account has no letter in upper case. -/
theorem account_lower (account : AccountName) : account.name.map toLower = account.name :=
  (List.map_congr_left fun _ stored => (accountChar_spec account stored).2.2).trans (List.map_id _)

/-- The name of an account is its own key. -/
theorem nocase_account (account : AccountName) : nocase account.name = account.name := by
  rw [nocase, cString_eq_self (account_free account), account_lower]

/-- The key of a username is the beginning of the username in lower case. -/
theorem usernameKey_eq (username : Bytes) : usernameKey username = (nocase username).take 63 := by
  rw [usernameKey, lowercaseInto, nocase, List.map_take]
  rfl

/-- The key of an account's name is the name. -/
theorem usernameKey_account (account : AccountName) : usernameKey account.name = account.name := by
  have short := (validName_shape account.valid).1
  rw [usernameKey_eq, nocase_account, List.take_of_length_le (by omega)]

/-- A submitted username that is cut at a NUL octet to the name of an account. -/
def cutTo (name username : Bytes) : Bool := username.contains 0 && nocase username = nocase name

/-- A submitted username has the key of an account exactly when it is the account's name up to case, if it
is not cut to that name, and only then. -/
theorem usernameKey_eq_account_iff (username : Bytes) (account : AccountName) :
    (usernameKey username = usernameKey account.name ↔
        username.map toLower = account.name.map toLower) ↔ cutTo account.name username = false := by
  have short := (validName_shape account.valid).1
  have key : usernameKey username = usernameKey account.name ↔ nocase username = account.name := by
    rw [usernameKey_account, usernameKey_eq]
    constructor
    · intro same
      have bound := congrArg List.length same
      rw [List.length_take] at bound
      rw [← same, List.take_of_length_le (by omega)]
    · intro same
      rw [same, List.take_of_length_le (by omega)]
  rw [key, account_lower]
  unfold cutTo
  rw [nocase_account]
  by_cases cut : (0 : UInt8) ∈ username
  · -- a name with a NUL octet is the name of no account
    have other : username.map toLower ≠ account.name := by
      intro same
      have stored : toLower 0 ∈ username.map toLower := List.mem_map_of_mem cut
      rw [same] at stored
      exact account_free account stored
    simp [cut, other]
  · have whole : nocase username = username.map toLower := by rw [nocase, cString_eq_self cut]
    simp [cut, whole]

/-- The namespaced keys: those of all registrations, of a client's registrations and of a client's
logins. -/
inductive Named where
  | registrations
  | register (peer : Option Peer)
  | login (peer : Option Peer)

/-- The key under which a purpose is charged. -/
def Named.key : Named → Bytes
  | .registrations => registerGlobalKey
  | .register peer => registerIpKey peer
  | .login peer => loginIpKey peer

/-- What a key of a purpose spells. -/
def Named.text : Named → Bytes
  | .registrations => ascii "register:__global__"
  | .register peer => ascii "register-ip:" ++ (shown peer).take 51
  | .login peer => ascii "login-ip:" ++ (shown peer).take 54

/-- The key of a purpose, spelt out. -/
theorem Named.key_eq (named : Named) : named.key = named.text := by
  cases named with
  | registrations => rfl
  | register peer => exact registerIpKey_eq peer
  | login peer => exact loginIpKey_eq peer

/-- A submitted username that spells a key of another purpose, up to case and in its first 63 octets. -/
def Named.spelt (named : Named) (username : Bytes) : Bool := (nocase username).take 63 = named.text

/-- A submitted username shares no key with another purpose exactly when it does not spell it. -/
theorem usernameKey_ne_iff (username : Bytes) (named : Named) :
    usernameKey username ≠ named.key ↔ named.spelt username = false := by
  rw [usernameKey_eq, named.key_eq]
  exact decide_eq_false_iff_not.symm

/-- The name of an account spells no key of another purpose. -/
theorem spelt_account (account : AccountName) (named : Named) : named.spelt account.name = false := by
  have colon : (58 : UInt8) ∉ usernameKey account.name := by
    rw [usernameKey_account]
    exact fun stored => (accountChar_spec account stored).2.1 rfl
  apply (usernameKey_ne_iff account.name named).mp
  intro same
  rw [same, named.key_eq] at colon
  cases named with
  | registrations =>
    revert colon
    decide
  | register peer => exact colon (List.mem_append_left _ (by decide))
  | login peer => exact colon (List.mem_append_left _ (by decide))

end Usernames

section Buckets

variable {α : Type} {cap : Nat}

/-- The buckets stored under a key, where they are stored. -/
def stored (limiter : Limiter α cap) (key : Bytes) (slot : Fin (2 * cap)) : Option (Entry α) :=
  ((limiter (shardOf key)).slots slot).filter fun entry => entry.key = key

variable [Add α] [Sub α] [Mul α] [Div α] [IntCast α] [LT α] [DecidableLT α] [NeZero cap]

/-- A call for a key makes its shard give up an entry: the key is not stored, and there is no room. -/
def evicting (shard : Shard α cap) (called : Bytes) : Bool :=
  match search shard.slots Entry.key (home (2 * cap)) called with
  | .hit _ => false
  | .empty _ => cap ≤ shard.occupied
  | .full => true

/-- A call evicts a bucket of a key: the least recently used entry of the called key's shard. -/
def evicts (limiter : Limiter α cap) (call : Limiter.Call) (key : Bytes) : Bool :=
  let called := boundedCopy keyMax call.key
  let shard := limiter (shardOf called)
  0 < call.perMinute && evicting shard called &&
    (shard.slots (scanVictim shard.slots)).any fun entry => entry.key = key

omit [NeZero cap] in
/-- Storing an entry over one of another key leaves the buckets of a key alone. -/
theorem put_other {shard : Shard α cap} {place : Fin (2 * cap)} {called key : Bytes}
    (bucket : Bucket α) (perMinute nowNs : Int) (occupied : Nat) (other : called ≠ key)
    (spares : ∀ entry, shard.slots place = some entry → entry.key ≠ key) (slot : Fin (2 * cap)) :
    ((shard.put place called bucket perMinute nowNs occupied).2.slots slot).filter
        (fun entry => entry.key = key) =
      (shard.slots slot).filter fun entry => entry.key = key := by
  unfold Shard.put
  dsimp only
  by_cases here : slot = place
  · rw [here, Function.update_self]
    cases before : shard.slots place with
    | none => simp [Option.filter, other]
    | some entry => simp [Option.filter, other, spares entry before]
  · rw [Function.update_of_ne here]

/-- A call for another key that evicts no bucket of a key leaves its buckets alone. -/
theorem allow_other {shard : Shard α cap} {called key : Bytes} (perMinute nowNs : Int)
    (other : called ≠ key)
    (spares : evicting shard called = true →
      ∀ entry, shard.slots (scanVictim shard.slots) = some entry → entry.key ≠ key)
    (slot : Fin (2 * cap)) :
    ((shard.allow called perMinute nowNs).2.slots slot).filter (fun entry => entry.key = key) =
      (shard.slots slot).filter fun entry => entry.key = key := by
  unfold evicting at spares
  unfold Shard.allow
  cases outcome : search shard.slots Entry.key (home (2 * cap)) called with
  | hit place =>
    obtain ⟨entry, held, same⟩ := stored_of_search_hit outcome
    dsimp only
    rw [held]
    apply put_other _ _ _ _ other
    intro found stored
    rw [held] at stored
    cases stored
    rw [same]
    exact other
  | empty place =>
    rw [outcome] at spares
    dsimp only
    by_cases room : shard.occupied < cap
    · rw [if_pos room]
      apply put_other _ _ _ _ other
      intro found stored
      rw [(reaches_of_search_empty outcome).1] at stored
      contradiction
    · rw [if_neg room]
      exact put_other _ _ _ _ other (spares (decide_eq_true (Nat.le_of_not_lt room))) slot
  | full =>
    rw [outcome] at spares
    exact put_other _ _ _ _ other (spares rfl) slot

/-- A call that is not for a key and does not evict its buckets leaves them alone. -/
theorem stored_allowAt {limiter : Limiter α cap} {call : Limiter.Call} {key : Bytes}
    (other : boundedCopy keyMax call.key ≠ key) (spares : evicts limiter call key = false) :
    stored (allowAt limiter call.key call.perMinute call.nowNs).2 key = stored limiter key := by
  funext slot
  unfold allowAt
  by_cases positive : call.perMinute ≤ 0
  · rw [if_pos positive]
  · rw [if_neg positive]
    unfold stored
    dsimp only
    by_cases here : shardOf key = shardOf (boundedCopy keyMax call.key)
    · rw [here, Function.update_self]
      apply allow_other _ _ other
      intro forced entry held same
      unfold evicts at spares
      dsimp only at spares
      rw [forced, held, decide_eq_true (by omega : 0 < call.perMinute)] at spares
      simp [same] at spares
    · rw [Function.update_of_ne here]

/-- The limiter after some calls. -/
def chargeAll (limiter : Limiter α cap) : List Limiter.Call → Limiter α cap
  | [] => limiter
  | call :: calls => chargeAll (allowAt limiter call.key call.perMinute call.nowNs).2 calls

/-- No call of a sequence evicts a bucket of a key. -/
def spares (key : Bytes) : Limiter α cap → List Limiter.Call → Bool
  | _, [] => true
  | limiter, call :: calls => !evicts limiter call key &&
      spares key (allowAt limiter call.key call.perMinute call.nowNs).2 calls

/-- Calls that are not for a key and do not evict its buckets leave them alone. -/
theorem stored_chargeAll {key : Bytes} {limiter : Limiter α cap} {calls : List Limiter.Call}
    (others : ∀ call ∈ calls, boundedCopy keyMax call.key ≠ key) (spared : spares key limiter calls = true) :
    stored (chargeAll limiter calls) key = stored limiter key := by
  induction calls generalizing limiter with
  | nil => rfl
  | cons call calls ih =>
    rw [spares, Bool.and_eq_true, Bool.not_eq_true'] at spared
    rw [chargeAll, ih (fun later member => others later (List.mem_cons_of_mem _ member)) spared.2]
    exact stored_allowAt (others call List.mem_cons_self) spared.1

end Buckets

section Requests

/-- The username that a login charges: that of a body with a username and a password. -/
def submittedUsername (body : Bytes) : Option Bytes :=
  match parseBody body with
  | .error _ => none
  | .ok object =>
    match readStringField object "username" 512, Json.stringField object (ascii "password") with
    | some username, some _ => some username
    | _, _ => none

/-- The keys that a login may be charged under. -/
def loginKeys (peer : Option Peer) (body : Bytes) : List Bytes :=
  loginIpKey peer :: ((submittedUsername body).map usernameKey).toList

/-- A login asks the limiter about its address and its username, and nothing else. -/
theorem login_asks (ctx : AppCtx) {env : Env} {peer : Option Peer} (body : Bytes)
    {allow : LimitSite → Bytes → Int → Bool} (origin : env.peerAddr = some (formatPeer peer))
    (same : ∀ key ∈ loginKeys peer body, ∀ site budget, allow site key budget = env.allow site key budget) :
    Login.admission ctx { env with allow := allow } body = Login.admission ctx env body := by
  have address : ∀ budget, allow .perIp (namespacedIpKey (ascii "login-ip") env.peerAddr) budget =
      env.allow .perIp (namespacedIpKey (ascii "login-ip") env.peerAddr) budget := by
    rw [origin]
    exact same _ List.mem_cons_self .perIp
  have name : ∀ username budget, submittedUsername body = some username →
      allow .perUsername (usernameKey username) budget =
        env.allow .perUsername (usernameKey username) budget := fun username budget submitted =>
    same _ (List.mem_cons_of_mem _ (by simp [submitted])) .perUsername budget
  unfold submittedUsername at name
  unfold Login.admission
  simp only [bind, Except.bind, pure, Except.pure, throw, throwThe, MonadExceptOf.throw, address]
  cases parsed : parseBody body with
  | error result => rfl
  | ok object =>
    rw [parsed] at name
    dsimp only at name ⊢
    cases read : readStringField object "username" 512 with
    | none => rfl
    | some username =>
      cases given : Json.stringField object (ascii "password") with
      | none => rfl
      | some password =>
        rw [read, given] at name
        have same := name username
          (devRelaxedCount ctx.config ctx.config.ratelimitLoginUsernamePerMinute) rfl
        unfold usernameKey at same
        simp only [same]

/-- A request that charges usernames: a login with its body, or a password change with the account it
found; with the times of its calls. -/
inductive Attempt where
  | login (peer : Option Peer) (body : Bytes) (addressNs usernameNs : Int)
  | passwordChange (peer : Option Peer) (claims : Claims) (found : Option UserRow)
    (valid : ∀ user, found = some user → ∃ account : AccountName, account.name = user.username)
    (nowNs : Int)

/-- The client of a request. -/
def Attempt.peer : Attempt → Option Peer
  | .login peer _ _ _ => peer
  | .passwordChange peer _ _ _ _ => peer

/-- A request's username does not spell a key, and its client's address is told apart from that of a
bucket of logins. -/
def Attempt.Plain (named : Named) : Attempt → Prop
  | .login peer body _ _ =>
    (∀ username, submittedUsername body = some username → named.spelt username = false) ∧
      ∀ other, named = .login other → told 54 peer other = true
  | .passwordChange _ _ _ _ _ => True

variable {α : Type} {cap : Nat} [Add α] [Sub α] [Mul α] [Div α] [IntCast α] [LT α] [DecidableLT α]
  [NeZero cap]

/-- The calls that a request makes of the limiter. -/
def Attempt.calls (config : Config) (limiter : Limiter α cap) : Attempt → List Limiter.Call
  | .login peer body addressNs usernameNs =>
    let first : Limiter.Call :=
      ⟨loginIpKey peer, devRelaxedCount config config.ratelimitLoginPerMinute, addressNs⟩
    if !(allowAt limiter first.key first.perMinute first.nowNs).1 then [first]
    else match submittedUsername body with
      | none => [first]
      | some username => [first, ⟨usernameKey username,
          devRelaxedCount config config.ratelimitLoginUsernamePerMinute, usernameNs⟩]
  | .passwordChange _ claims found _ nowNs =>
    [⟨PasswordChange.limiterKey claims found,
      devRelaxedCount config config.ratelimitLoginUsernamePerMinute, nowNs⟩]

/-- The limiter after some requests. -/
def serve (config : Config) : Limiter α cap → List Attempt → Limiter α cap
  | limiter, [] => limiter
  | limiter, attempt :: attempts =>
    serve config (chargeAll limiter (attempt.calls config limiter)) attempts

/-- No request of a sequence makes the limiter evict a bucket of a key. -/
def sparesThroughout (config : Config) (key : Bytes) : Limiter α cap → List Attempt → Bool
  | _, [] => true
  | limiter, attempt :: attempts => spares key limiter (attempt.calls config limiter) &&
      sparesThroughout config key (chargeAll limiter (attempt.calls config limiter)) attempts

/-- The buckets of the register endpoint, and of the logins of other clients than those of some
requests. -/
def Named.Foreign (named : Named) (attempts : List Attempt) : Prop :=
  ∀ peer, named = .login peer → ∀ attempt ∈ attempts, address attempt.peer ≠ address peer

/-- No letter is NUL in lower case. -/
theorem toLower_ne_zero {byte : UInt8} (letter : byte ≠ 0) : toLower byte ≠ 0 := by
  have cases (number : Fin 256) : UInt8.ofFin number ≠ 0 → toLower (UInt8.ofFin number) ≠ 0 := by
    revert number
    decide +kernel
  exact cases byte.toFin letter

/-- The limiter stores the key of a username as it is. -/
theorem boundedCopy_usernameKey (username : Bytes) :
    boundedCopy keyMax (usernameKey username) = usernameKey username := by
  apply boundedCopy_eq_self
  · rw [usernameKey_eq]
    intro stored
    obtain ⟨byte, held, zero⟩ := List.mem_map.mp (List.mem_of_mem_take stored)
    apply toLower_ne_zero _ zero
    rintro rfl
    exact zero_not_mem_cString username held
  · rw [usernameKey_eq, List.length_take]
    exact Nat.min_le_left _ _

/-- The limiter stores the key of an address as it is. -/
theorem boundedCopy_loginIpKey (peer : Option Peer) :
    boundedCopy keyMax (loginIpKey peer) = loginIpKey peer := by
  have free : (0 : UInt8) ∉ address peer := by
    cases peer with
    | none => decide
    | some peer => exact peer.free
  rw [loginIpKey_eq]
  apply boundedCopy_eq_self
  · intro stored
    cases List.mem_append.mp stored with
    | inl named =>
      revert named
      decide
    | inr addressed =>
      exact free ((List.takeWhile_subset _) (List.mem_of_mem_take addressed))
  · have named : (ascii "login-ip:").length = 9 := by decide
    have bound : ((shown peer).take 54).length ≤ 54 := List.length_take_le ..
    rw [List.length_append, named]
    exact Nat.le_trans (Nat.add_le_add_left bound 9) (by decide)

/-- A namespaced key does not begin like the key of a missing account. -/
theorem Named.key_ne_uid (named : Named) (rest : Bytes) :
    boundedCopy keyMax (ascii "uid:" ++ rest) ≠ named.key := by
  have begins : (boundedCopy keyMax (ascii "uid:" ++ rest)).head? = some 117 := rfl
  intro same
  rw [same, named.key_eq] at begins
  cases named with
  | registrations => contradiction
  | register peer =>
    have first : (Named.register peer).text.head? = some 114 := rfl
    rw [first] at begins
    contradiction
  | login peer =>
    have first : (Named.login peer).text.head? = some 108 := rfl
    rw [first] at begins
    contradiction

/-- The key of a client's logins is none of the register endpoint, nor that of another client whose
address it tells apart. -/
theorem Named.Foreign.ne_loginIpKey {named : Named} {attempts : List Attempt} {attempt : Attempt}
    (foreign : named.Foreign attempts) (member : attempt ∈ attempts)
    (apart : ∀ other, named = .login other → told 54 attempt.peer other = true) :
    loginIpKey attempt.peer ≠ named.key := by
  cases named with
  | registrations => exact (purposes_ne attempt.peer attempt.peer).2.2
  | register peer => exact (purposes_ne peer attempt.peer).1.symm
  | login peer =>
    intro same
    have shows := (ipKey_eq_iff attempt.peer peer).2.mpr (apart peer rfl)
    exact foreign peer rfl attempt member (shows.mp same)

/-- No call of a plain request is for a foreign key. -/
theorem Named.Foreign.ne_call {config : Config} {named : Named} {attempts : List Attempt}
    {attempt : Attempt} (foreign : named.Foreign attempts) (member : attempt ∈ attempts)
    (plain : attempt.Plain named) (limiter : Limiter α cap) :
    ∀ call ∈ attempt.calls config limiter, boundedCopy keyMax call.key ≠ named.key := by
  cases attempt with
  | login peer body addressNs usernameNs =>
    obtain ⟨unspelt, apart⟩ := plain
    have addressed : boundedCopy keyMax (loginIpKey peer) ≠ named.key := by
      rw [boundedCopy_loginIpKey]
      exact foreign.ne_loginIpKey member apart
    intro call made
    unfold Attempt.calls at made
    dsimp only at made
    split at made
    · rw [List.mem_singleton.mp made]
      exact addressed
    · split at made
      · rw [List.mem_singleton.mp made]
        exact addressed
      · rename_i username submitted
        cases List.mem_cons.mp made with
        | inl first =>
          rw [first]
          exact addressed
        | inr second =>
          rw [List.mem_singleton.mp second]
          dsimp only
          rw [boundedCopy_usernameKey]
          exact (usernameKey_ne_iff username named).mpr (unspelt username submitted)
  | passwordChange peer claims found valid nowNs =>
    intro call made
    rw [List.mem_singleton.mp made]
    cases found with
    | none => exact named.key_ne_uid _
    | some user =>
      obtain ⟨account, same⟩ := valid user rfl
      unfold PasswordChange.limiterKey
      dsimp only
      rw [← same]
      have key_eq := boundedCopy_usernameKey account.name
      unfold usernameKey at key_eq
      rw [key_eq]
      exact (usernameKey_ne_iff account.name named).mpr (spelt_account account named)

/-- Plain requests leave the buckets of a foreign key alone, unless one is evicted. -/
theorem stored_serve {config : Config} {named : Named} {limiter : Limiter α cap}
    {attempts : List Attempt} (foreign : named.Foreign attempts)
    (plain : ∀ attempt ∈ attempts, attempt.Plain named)
    (spared : sparesThroughout config named.key limiter attempts = true) :
    stored (serve config limiter attempts) named.key = stored limiter named.key := by
  induction attempts generalizing limiter with
  | nil => rfl
  | cons attempt attempts ih =>
    have later : named.Foreign attempts := fun peer own other member =>
      foreign peer own other (List.mem_cons_of_mem _ member)
    rw [sparesThroughout, Bool.and_eq_true] at spared
    rw [serve, ih later (fun other member => plain other (List.mem_cons_of_mem _ member)) spared.2]
    exact stored_chargeAll
      (foreign.ne_call List.mem_cons_self (plain attempt List.mem_cons_self) limiter) spared.1

/-- Keys of different purposes are different, a submitted username's exactly when it does not spell the
other; keys of one purpose are equal exactly when the addresses are, if and only if what the key takes
of the addresses tells them apart; a username has the key of an account exactly when it is its name up
to case, if and only if it is not cut to the name; a login asks the limiter about these keys only; and
logins and password changes whose usernames do not spell the key of a bucket of the register endpoint
or of another client's logins, and whose clients are told apart from that one, leave the bucket alone,
unless the limiter evicts it. -/
theorem limiter_keys_disjoint (α : Type) [Add α] [Sub α] [Mul α] [Div α] [IntCast α] [LT α]
    [DecidableLT α] (cap : Nat) [NeZero cap] (ctx : AppCtx) :
    (∀ first second, registerIpKey first ≠ loginIpKey second ∧
      registerIpKey first ≠ registerGlobalKey ∧ loginIpKey second ≠ registerGlobalKey) ∧
    (∀ username (named : Named), usernameKey username ≠ named.key ↔ named.spelt username = false) ∧
    (∀ first second,
      ((registerIpKey first = registerIpKey second ↔ address first = address second) ↔
        told 51 first second = true) ∧
      ((loginIpKey first = loginIpKey second ↔ address first = address second) ↔
        told 54 first second = true)) ∧
    (∀ (username : Bytes) (account : AccountName),
      (usernameKey username = usernameKey account.name ↔
        username.map toLower = account.name.map toLower) ↔ cutTo account.name username = false) ∧
    (∀ (env : Env) (peer : Option Peer) (body : Bytes) (allow : LimitSite → Bytes → Int → Bool),
      env.peerAddr = some (formatPeer peer) →
      (∀ key ∈ loginKeys peer body, ∀ site budget,
        allow site key budget = env.allow site key budget) →
      Login.admission ctx { env with allow := allow } body = Login.admission ctx env body) ∧
    ∀ (limiter : Limiter α cap) (attempts : List Attempt) (named : Named), named.Foreign attempts →
      (∀ attempt ∈ attempts, attempt.Plain named) →
      sparesThroughout ctx.config named.key limiter attempts = true →
      stored (serve ctx.config limiter attempts) named.key = stored limiter named.key :=
  ⟨purposes_ne, usernameKey_ne_iff, ipKey_eq_iff, usernameKey_eq_account_iff,
    fun _ _ body _ origin same => login_asks ctx body origin same,
    fun _ _ _ foreign plain spares => stored_serve foreign plain spares⟩

end Requests

/-- A limiter that has charged one registration. -/
def charged : Limiter ℚ (perShardCap 64) :=
  (allowAt (create ℚ 64) registerGlobalKey 50 1000).2

/-- A client. -/
def client : Peer where
  family := .inet
  host := ascii "192.0.2.7"
  serv := ascii "40000"
  free := by decide
  dotted _ := by decide
  short := by decide
  port := by decide
  digits := by decide

/-- A login of the client under a name. -/
def loginAs (username : String) : Attempt :=
  .login (some client) (ascii ("\x7b\"username\":\"" ++ username ++ "\",\"password\":\"correct horse\"\x7d"))
    2000 2001

/-- A login as alice leaves the bucket of all registrations alone. -/
theorem limiter_keys_disjoint_of_alice :
    stored (serve Deployment.config charged [loginAs "alice"]) registerGlobalKey =
      stored charged registerGlobalKey := by
  apply (limiter_keys_disjoint ℚ (perShardCap 64) Deployment.ctx).2.2.2.2.2 charged
    [loginAs "alice"] .registrations
  · intro peer impossible
    contradiction
  · intro attempt member
    rw [List.mem_singleton.mp member]
    refine ⟨fun username submitted => ?_, fun other impossible => by contradiction⟩
    have named : submittedUsername
        (ascii "\x7b\"username\":\"alice\",\"password\":\"correct horse\"\x7d") =
          some (ascii "alice") := by
      decide +kernel
    cases named.symm.trans submitted
    decide
  · decide +kernel

/-- A login under the name of the registrations' own key charges their bucket. -/
theorem login_charges_registrations :
    usernameKey (ascii "Register:__GLOBAL__") = registerGlobalKey ∧
      stored (serve Deployment.config charged [loginAs "Register:__GLOBAL__"]) registerGlobalKey ≠
        stored charged registerGlobalKey := by
  decide +kernel

end PlatformService.Verif.LimiterKeys
