import PlatformService.Api.Users
import PlatformService.Verif.Deployment
import PlatformService.Verif.Identifiers

/-!
# Walking the users page by page

A client asks for pages of users and hands each page's `nextAfterId` back as the next
page's `after_id`, until a page says that there is no more. Users may be added between
two pages. Each page holds the least ids above its cursor, as many as fit, so what a
page skips lies above the next cursor and what later pages list lies above all of it.
-/

namespace PlatformService.Verif.Pagination

open Lib Json Store Api Admin

/-- The query for a page: the cursor, unless it is the first page, and the size, unless the default
is meant. -/
def pageQuery (limit : Option Int) (afterId : Option Bytes) : Option Bytes :=
  match afterId, limit with
  | none, none => none
  | none, some limit => some (ascii "limit=" ++ intDigits limit)
  | some cursor, none => some (ascii "after_id=" ++ cursor)
  | some cursor, some limit =>
    some (ascii "after_id=" ++ cursor ++ 38 :: (ascii "limit=" ++ intDigits limit))

/-- What a client reads off a page. -/
structure Listing where
  ids : List Int
  nextAfterId : Bytes
  hasMore : Bool
  deriving DecidableEq, Repr

/-- Reading an answer: the ids of the users, the cursor and whether there is more. -/
def readListing (result : HandlerResult) : Option Listing :=
  match result.status, result.body with
  | 200, some body =>
    match objectGet body (ascii "users"), stringField body (ascii "nextAfterId"),
        objectGet body (ascii "hasMore") with
    | some (.array users), some nextAfterId, some (.bool hasMore) => do
      let ids ← users.mapM fun user => (stringField user (ascii "userId")).bind parseInt64
      return ⟨ids, nextAfterId, hasMore⟩
    | _, _, _ => none
  | _, _ => none

/-- Asking for a page: `ps_admin_handle_list_users` on a content, none of its statements failing. -/
def fetch (limit : Option Int) (claims : Claims) (env : Env) (db : Db) (afterId : Option Bytes) :
    Option Listing :=
  match page (pageQuery limit afterId) with
  | .error refusal => readListing refusal
  | .ok page => readListing (listUsers env claims page (Conn.of db, [])).1

/-- A walk of some pages at most: the pages, and whether the last of them said that there is no more.
Each page is read from the content at its turn. -/
def walk (limit : Option Int) (claims : Claims) (envs : Nat → Env) (dbs : Nat → Db) :
    (pages turn : Nat) → Option Bytes → Option (List Listing × Bool)
  | 0, _, _ => some ([], false)
  | pages + 1, turn, afterId =>
    match fetch limit claims (envs turn) (dbs turn) afterId with
    | none => none
    | some listing =>
      if listing.hasMore then
        (walk limit claims envs dbs pages (turn + 1) (some listing.nextAfterId)).map
          fun (rest, ended) => (listing :: rest, ended)
      else some ([listing], true)

section Queries

/-- The value of a pair, if it has the key. -/
def paramOf (pair : Bytes) (key : String) : Option Bytes :=
  if pair.takeWhile (· ≠ 61) = ascii key then some (pair.dropWhile (· ≠ 61)).tail else none

/-- A query of one pair. -/
theorem queryParamGet_pair {pair : Bytes} (single : (38 : UInt8) ∉ pair) (key : String) :
    queryParamGet pair key = paramOf pair key := by
  unfold queryParamGet paramOf
  rw [List.splitOn_eq_singleton single]
  by_cases named : pair.takeWhile (· ≠ 61) = ascii key
  · rw [if_pos named, List.find?_cons_of_pos (by simpa using named)]
    rfl
  · rw [if_neg named, List.find?_cons_of_neg (by simpa using named)]
    rfl

/-- A query of a pair and more. -/
theorem queryParamGet_cons {pair : Bytes} (single : (38 : UInt8) ∉ pair) (rest : Bytes)
    (key : String) :
    queryParamGet (pair ++ 38 :: rest) key = (paramOf pair key).or (queryParamGet rest key) := by
  unfold queryParamGet paramOf
  rw [List.splitOn_append_cons_self_of_not_mem single]
  by_cases named : pair.takeWhile (· ≠ 61) = ascii key
  · rw [if_pos named, List.find?_cons_of_pos (by simpa using named)]
    rfl
  · rw [if_neg named, List.find?_cons_of_neg (by simpa using named)]
    rfl

/-- The key and the value of a pair that is written out. -/
theorem paramOf_written {name value : Bytes} (plain : (61 : UInt8) ∉ name) (key : String) :
    paramOf (name ++ 61 :: value) key = if name = ascii key then some value else none := by
  have stops : ∀ byte ∈ name, decide (byte ≠ 61) = true := by
    intro byte member
    rw [decide_eq_true_eq]
    rintro rfl
    exact plain member
  have front : (name ++ 61 :: value).takeWhile (· ≠ 61) = name := by
    rw [List.takeWhile_append_of_pos stops]
    simp
  have back : (name ++ 61 :: value).dropWhile (· ≠ 61) = 61 :: value := by
    rw [List.dropWhile_append_of_pos stops]
    simp
  unfold paramOf
  rw [front, back]
  rfl

/-- No digit is an ampersand. -/
theorem ampersand_not_mem_intDigits (n : Int) : (38 : UInt8) ∉ intDigits n :=
  byte_not_mem_intDigits (by decide) (by decide) n

/-- The size of a page: the number asked for, capped, or the cap. -/
def pageSize (limit : Option Int) : Nat := (min (limit.getD userListMax) userListMax).toNat

/-- A pair of a name and an integer. -/
theorem paramOf_intDigits {name : Bytes} (plain : (61 : UInt8) ∉ name) (n : Int) (key : String) :
    paramOf (name ++ 61 :: intDigits n) key = if name = ascii key then some (intDigits n) else none :=
  paramOf_written plain key

/-- A pair of a name and an integer holds no ampersand. -/
theorem ampersand_not_mem_pair {name : Bytes} (single : (38 : UInt8) ∉ name) (n : Int) :
    (38 : UInt8) ∉ name ++ 61 :: intDigits n := by
  rw [List.mem_append, List.mem_cons, not_or, not_or]
  exact ⟨single, by decide, ampersand_not_mem_intDigits n⟩

/-- The limit of a query that is read back as an integer. -/
theorem page_of_params {query : Option Bytes} {limit cursor : Option Int}
    (size : ∀ n ∈ limit, 1 ≤ n ∧ n < 2 ^ 63) (int64 : ∀ n ∈ cursor, -2 ^ 63 ≤ n ∧ n < 2 ^ 63)
    (afterId : (query.bind fun text => queryParamGet text "after_id") = cursor.map intDigits)
    (limited : (query.bind fun text => queryParamGet text "limit") = limit.map intDigits) :
    page query = .ok ⟨cursor.getD 0, pageSize limit⟩ := by
  have cursorRead : ∀ n ∈ cursor, parseInt64 (intDigits n) = some n := fun n given =>
    Identifiers.parseInt64_intDigits (int64 n given).1 (int64 n given).2
  have limitRead : ∀ n ∈ limit, parseInt64 (intDigits n) = some n := by
    intro n given
    have bounds := size n given
    exact Identifiers.parseInt64_intDigits (by omega) bounds.2
  have positive : ∀ n ∈ limit, ¬ n ≤ 0 := by
    intro n given
    have bounds := size n given
    omega
  unfold page
  rw [afterId, limited]
  cases cursor with
  | none =>
    cases limit with
    | none => rfl
    | some n =>
      simp only [Option.map_none, Option.map_some, limitRead n rfl, if_neg (positive n rfl)]
      rfl
  | some c =>
    cases limit with
    | none =>
      simp only [Option.map_none, Option.map_some, cursorRead c rfl]
      rfl
    | some n =>
      simp only [Option.map_some, cursorRead c rfl, limitRead n rfl, if_neg (positive n rfl)]
      rfl

/-- The queries of a walk are read back: the cursor, or none, and the size. -/
theorem page_pageQuery {limit cursor : Option Int} (size : ∀ n ∈ limit, 1 ≤ n ∧ n < 2 ^ 63)
    (int64 : ∀ n ∈ cursor, -2 ^ 63 ≤ n ∧ n < 2 ^ 63) :
    page (pageQuery limit (cursor.map intDigits)) = .ok ⟨cursor.getD 0, pageSize limit⟩ := by
  have afterName : ascii "after_id=" = ascii "after_id" ++ [61] := by decide
  have limitName : ascii "limit=" = ascii "limit" ++ [61] := by decide
  have afterPair : ∀ n : Int, ascii "after_id=" ++ intDigits n = ascii "after_id" ++ 61 :: intDigits n :=
    fun n => by rw [afterName, List.append_assoc, List.singleton_append]
  have limitPair : ∀ n : Int, ascii "limit=" ++ intDigits n = ascii "limit" ++ 61 :: intDigits n :=
    fun n => by rw [limitName, List.append_assoc, List.singleton_append]
  have afterPlain : (61 : UInt8) ∉ ascii "after_id" ∧ (38 : UInt8) ∉ ascii "after_id" := by decide
  have limitPlain : (61 : UInt8) ∉ ascii "limit" ∧ (38 : UInt8) ∉ ascii "limit" := by decide
  have different : ascii "after_id" ≠ ascii "limit" := by decide
  apply page_of_params size int64
  · cases cursor with
    | none =>
      cases limit with
      | none => rfl
      | some n =>
        show queryParamGet (ascii "limit=" ++ intDigits n) "after_id" = none
        rw [limitPair, queryParamGet_pair (ampersand_not_mem_pair limitPlain.2 n),
          paramOf_intDigits limitPlain.1, if_neg different.symm]
    | some c =>
      cases limit with
      | none =>
        show queryParamGet (ascii "after_id=" ++ intDigits c) "after_id" = some (intDigits c)
        rw [afterPair, queryParamGet_pair (ampersand_not_mem_pair afterPlain.2 c),
          paramOf_intDigits afterPlain.1, if_pos rfl]
      | some n =>
        show queryParamGet (ascii "after_id=" ++ intDigits c ++ 38 :: (ascii "limit=" ++ intDigits n))
          "after_id" = some (intDigits c)
        rw [afterPair, queryParamGet_cons (ampersand_not_mem_pair afterPlain.2 c),
          paramOf_intDigits afterPlain.1, if_pos rfl]
        rfl
  · cases cursor with
    | none =>
      cases limit with
      | none => rfl
      | some n =>
        show queryParamGet (ascii "limit=" ++ intDigits n) "limit" = some (intDigits n)
        rw [limitPair, queryParamGet_pair (ampersand_not_mem_pair limitPlain.2 n),
          paramOf_intDigits limitPlain.1, if_pos rfl]
    | some c =>
      cases limit with
      | none =>
        show queryParamGet (ascii "after_id=" ++ intDigits c) "limit" = none
        rw [afterPair, queryParamGet_pair (ampersand_not_mem_pair afterPlain.2 c),
          paramOf_intDigits afterPlain.1, if_neg different]
      | some n =>
        show queryParamGet (ascii "after_id=" ++ intDigits c ++ 38 :: (ascii "limit=" ++ intDigits n))
          "limit" = some (intDigits n)
        rw [afterPair, queryParamGet_cons (ampersand_not_mem_pair afterPlain.2 c),
          paramOf_intDigits afterPlain.1, if_neg different, limitPair,
          queryParamGet_pair (ampersand_not_mem_pair limitPlain.2 n),
          paramOf_intDigits limitPlain.1, if_pos rfl]
        rfl

end Queries

section Pages

/-- Members set in order, under names of their own, are the members. -/
theorem foldl_objectSet {members : List (String × Value)} {object : List (Bytes × Value)}
    (plain : ∀ member ∈ members, (0 : UInt8) ∉ ascii member.1)
    (distinct : (object.map Prod.fst ++ members.map fun member => ascii member.1).Nodup) :
    members.foldl (fun object member => objectSet object (ascii member.1) member.2) object =
      object ++ members.map fun member => (ascii member.1, member.2) := by
  induction members generalizing object with
  | nil => simp
  | cons member members ih =>
    have free := cString_eq_self (plain member List.mem_cons_self)
    have absent : cString (ascii member.1) ∉ object.map Prod.fst := by
      rw [free]
      intro present
      exact (List.nodup_append.mp distinct).2.2 _ present _ List.mem_cons_self rfl
    rw [List.foldl_cons, objectSet_of_absent absent, free,
      ih (fun other stored => plain other (List.mem_cons_of_mem _ stored)) (by simpa using distinct)]
    simp

/-- An object with names of their own holds its members in order. -/
theorem jsonObject_eq (members : List (String × Value))
    (plain : ∀ name ∈ members.map Prod.fst, (0 : UInt8) ∉ ascii name)
    (distinct : ((members.map Prod.fst).map ascii).Nodup) :
    jsonObject members = .object (members.map fun member => (ascii member.1, member.2)) := by
  unfold jsonObject
  rw [foldl_objectSet (fun member stored => plain _ (List.mem_map_of_mem stored)) (by
    rw [List.map_map] at distinct
    exact distinct)]
  rfl

/-- A brief row is read back. -/
theorem userId_briefObject (row : UserStore.BriefRow) :
    stringField (jsonObject [("userId", .string (intDigits row.userId)),
      ("username", .string row.username)]) (ascii "userId") = some (intDigits row.userId) := by
  have plain : ∀ name ∈ ["userId", "username"], (0 : UInt8) ∉ ascii name := by decide
  have distinct : (["userId", "username"].map ascii).Nodup := by decide
  rw [jsonObject_eq [("userId", _), ("username", _)] plain distinct]
  simp only [List.map_cons, List.map_nil]
  rfl

/-- The page as a client reads it. -/
theorem readListing_pageBody {page : Page} {rows : List UserStore.BriefRow}
    (int64 : ∀ row ∈ rows, -2 ^ 63 ≤ row.userId ∧ row.userId < 2 ^ 63) :
    readListing { status := 200, body := some (pageBody page rows) } =
      some ⟨rows.map UserStore.BriefRow.userId,
        intDigits ((rows.getLast?.map UserStore.BriefRow.userId).getD page.afterId),
        rows.length = page.limit⟩ := by
  have plain : ∀ name ∈ ["users", "count", "nextAfterId", "hasMore"], (0 : UInt8) ∉ ascii name := by
    decide
  have distinct : (["users", "count", "nextAfterId", "hasMore"].map ascii).Nodup := by decide
  have read : ∀ list : List UserStore.BriefRow,
      (∀ row ∈ list, -2 ^ 63 ≤ row.userId ∧ row.userId < 2 ^ 63) →
      (list.map fun row => jsonObject [("userId", .string (intDigits row.userId)),
        ("username", .string row.username)]).mapM
          (fun user => (stringField user (ascii "userId")).bind parseInt64) =
        some (list.map UserStore.BriefRow.userId) := by
    intro list inside
    induction list with
    | nil => rfl
    | cons row list ih =>
      have bounds := inside row List.mem_cons_self
      have rest := ih fun other member => inside other (List.mem_cons_of_mem _ member)
      rw [List.map_cons, List.mapM_cons, userId_briefObject, Option.bind_some,
        Identifiers.parseInt64_intDigits bounds.1 bounds.2, rest]
      rfl
  unfold pageBody
  dsimp only
  rw [jsonObject_eq [("users", _), ("count", _), ("nextAfterId", _), ("hasMore", _)] plain distinct]
  have users := read rows int64
  unfold readListing
  simp only [List.map_cons, List.map_nil]
  have found : ∀ (items : List Value) (count : Binary64) (cursor : Bytes) (more : Bool),
      objectGet (.object [(ascii "users", .array items), (ascii "count", .number count),
          (ascii "nextAfterId", .string cursor), (ascii "hasMore", .bool more)]) (ascii "users") =
        some (.array items) ∧
      stringField (.object [(ascii "users", .array items), (ascii "count", .number count),
          (ascii "nextAfterId", .string cursor), (ascii "hasMore", .bool more)])
            (ascii "nextAfterId") = some cursor ∧
      objectGet (.object [(ascii "users", .array items), (ascii "count", .number count),
          (ascii "nextAfterId", .string cursor), (ascii "hasMore", .bool more)]) (ascii "hasMore") =
        some (.bool more) := fun items count cursor more => ⟨rfl, rfl, rfl⟩
  obtain ⟨items, cursor, more⟩ := found
    (rows.map fun row => jsonObject [("userId", .string (intDigits row.userId)),
      ("username", .string row.username)]) (Binary64.ofInt rows.length)
    (intDigits ((rows.getLast?.map UserStore.BriefRow.userId).getD page.afterId))
    (rows.length = page.limit)
  rw [items, cursor, more]
  dsimp only
  rw [users]
  rfl

/-- The ids of the users. -/
def ids (db : Db) : List Int := db.users.rows.map UserRow.userId

/-- The ids above a cursor, in order. -/
def following (db : Db) (afterId : Int) : List Int :=
  ((db.users.rows.filter fun user => afterId < user.userId).mergeSort fun first second =>
    first.userId ≤ second.userId).map UserRow.userId

/-- The ids above a cursor are those of users. -/
theorem mem_following {db : Db} {afterId id : Int} :
    id ∈ following db afterId ↔ id ∈ ids db ∧ afterId < id := by
  unfold following ids
  simp only [List.mem_map, List.mem_mergeSort, List.mem_filter, decide_eq_true_eq]
  constructor
  · intro ⟨user, ⟨stored, above⟩, same⟩
    exact ⟨⟨user, stored, same⟩, same ▸ above⟩
  · intro ⟨⟨user, stored, same⟩, above⟩
    exact ⟨user, ⟨stored, same ▸ above⟩, same⟩

/-- They ascend, each of them once. -/
theorem ascending_following (db : Db) (afterId : Int) :
    (following db afterId).Pairwise fun first second => first < second := by
  have ordered : ((db.users.rows.filter fun user => afterId < user.userId).mergeSort
      fun first second => first.userId ≤ second.userId).Pairwise
        fun first second => decide (first.userId ≤ second.userId) = true := by
    apply List.pairwise_mergeSort
    · intro first second third
      simp only [decide_eq_true_eq]
      omega
    · intro first second
      simp only [Bool.or_eq_true, decide_eq_true_eq]
      omega
  have sorted : (following db afterId).Pairwise fun first second => first ≤ second := by
    refine List.pairwise_map.mpr (ordered.imp ?_)
    intro first second before
    exact of_decide_eq_true before
  have distinct : (following db afterId).Nodup := by
    have kept : ((db.users.rows.filter fun user => afterId < user.userId).map UserRow.userId).Nodup :=
      db.users.unique.sublist (List.Sublist.map _ List.filter_sublist)
    exact ((List.mergeSort_perm _ _).map _).nodup_iff.mpr kept
  refine (sorted.and distinct).imp ?_
  intro first second both
  exact lt_of_le_of_ne both.1 both.2

/-- The ids of a page. -/
def pageIds (db : Db) (afterId : Int) (limit : Nat) : List Int := (following db afterId).take limit

/-- The ids of a page ascend. -/
theorem ascending_pageIds (db : Db) (afterId : Int) (limit : Nat) :
    (pageIds db afterId limit).Pairwise fun first second => first < second :=
  (ascending_following db afterId).sublist (List.take_sublist _ _)

/-- The ids of a page are above its cursor. -/
theorem of_mem_pageIds {db : Db} {afterId id : Int} {limit : Nat}
    (listed : id ∈ pageIds db afterId limit) : id ∈ ids db ∧ afterId < id :=
  mem_following.mp (List.mem_of_mem_take listed)

/-- What a page skips is above all it lists, and a page that is not full skips nothing. -/
theorem listed_or_above {db : Db} {afterId id : Int} {limit : Nat} (stored : id ∈ ids db)
    (above : afterId < id) :
    id ∈ pageIds db afterId limit ∨
      (pageIds db afterId limit).length = limit ∧ ∀ other ∈ pageIds db afterId limit, other < id := by
  have member := mem_following.mpr ⟨stored, above⟩
  have ascending := ascending_following db afterId
  rw [← List.take_append_drop limit (following db afterId)] at member ascending
  rcases List.mem_append.mp member with listed | skipped
  · exact Or.inl listed
  · have full : limit ≤ (following db afterId).length := by
      by_contra short
      rw [List.drop_eq_nil_of_le (by omega)] at skipped
      exact List.not_mem_nil skipped
    refine Or.inr ⟨by rw [pageIds, List.length_take]; omega, fun other listed => ?_⟩
    exact (List.pairwise_append.mp ascending).2.2 other listed id skipped

/-- A content whose ids are 64-bit integers. -/
def Int64Ids (db : Db) : Prop := ∀ id ∈ ids db, -2 ^ 63 ≤ id ∧ id < 2 ^ 63

/-- What a client gets for a cursor. -/
theorem fetch_eq {limit cursor : Option Int} (size : ∀ n ∈ limit, 1 ≤ n ∧ n < 2 ^ 63)
    (int64 : ∀ n ∈ cursor, -2 ^ 63 ≤ n ∧ n < 2 ^ 63) (claims : Claims) (env : Env) {db : Db}
    (stored : Int64Ids db) :
    fetch limit claims env db (cursor.map intDigits) =
      some ⟨pageIds db (cursor.getD 0) (pageSize limit),
        intDigits ((pageIds db (cursor.getD 0) (pageSize limit)).getLast?.getD (cursor.getD 0)),
        (pageIds db (cursor.getD 0) (pageSize limit)).length = pageSize limit⟩ := by
  have answered : ∃ rows : List UserStore.BriefRow,
      (listUsers env claims ⟨cursor.getD 0, pageSize limit⟩ (Conn.of db, [])).1 =
        { status := 200, body := some (pageBody ⟨cursor.getD 0, pageSize limit⟩ rows) } ∧
      rows.map UserStore.BriefRow.userId = pageIds db (cursor.getD 0) (pageSize limit) := by
    refine ⟨_, rfl, ?_⟩
    unfold pageIds following
    rw [← List.map_take, List.map_map]
    rfl
  obtain ⟨rows, answer, listed⟩ := answered
  have inside : ∀ row ∈ rows, -2 ^ 63 ≤ row.userId ∧ row.userId < 2 ^ 63 := by
    intro row member
    have here := List.mem_map_of_mem (f := UserStore.BriefRow.userId) member
    rw [listed] at here
    exact stored _ (of_mem_pageIds here).1
  have last : rows.getLast?.map UserStore.BriefRow.userId =
      (pageIds db (cursor.getD 0) (pageSize limit)).getLast? := by
    rw [← listed, List.getLast?_map]
  have count : rows.length = (pageIds db (cursor.getD 0) (pageSize limit)).length := by
    rw [← listed, List.length_map]
  unfold fetch
  rw [page_pageQuery size int64]
  dsimp only
  rw [answer, readListing_pageBody inside, listed, last, count]

/-- A page has room. -/
theorem pageSize_pos {limit : Option Int} (size : ∀ n ∈ limit, 1 ≤ n ∧ n < 2 ^ 63) :
    1 ≤ pageSize limit := by
  unfold pageSize userListMax
  cases limit with
  | none => decide
  | some n =>
    have bounds := (size n rfl).1
    simp only [Option.getD_some]
    omega

end Pages

section Walks

variable {limit : Option Int} {claims : Claims} {envs : Nat → Env} {dbs : Nat → Db}

/-- Each cursor a walk hands back is read as the last id listed before it. -/
def CursorsReturn : Int → List Listing → Prop
  | _, [] => True
  | last, listing :: rest =>
    parseInt64 listing.nextAfterId = some (listing.ids.getLast?.getD last) ∧
      CursorsReturn (listing.ids.getLast?.getD last) rest

/-- What the listings behind a cursor hold: their ids ascend from the cursor on, they miss no user
that was there once the walk has ended, and their cursors are read back. -/
structure Visits (afterId : Int) (db : Db) (listings : List Listing) (ended : Bool) : Prop where
  ascending : (listings.flatMap Listing.ids).Pairwise fun first second => first < second
  above : ∀ id ∈ listings.flatMap Listing.ids, afterId < id
  complete : ended = true → ∀ id ∈ ids db, afterId < id → id ∈ listings.flatMap Listing.ids
  cursors : CursorsReturn afterId listings

/-- A walk that has asked for nothing. -/
theorem visits_nil (afterId : Int) (db : Db) : Visits afterId db [] false :=
  ⟨List.Pairwise.nil, fun _ member => absurd member List.not_mem_nil, fun ended => by simp at ended,
    trivial⟩

/-- A page that says that there is no more. -/
theorem visits_last {db : Db} {afterId : Int} {limit : Nat} {nextAfterId : Bytes}
    (read : parseInt64 nextAfterId = some ((pageIds db afterId limit).getLast?.getD afterId))
    (short : (pageIds db afterId limit).length ≠ limit) :
    Visits afterId db [⟨pageIds db afterId limit, nextAfterId, false⟩] true := by
  have only : [⟨pageIds db afterId limit, nextAfterId, false⟩].flatMap Listing.ids =
      pageIds db afterId limit := List.append_nil _
  refine ⟨?_, ?_, ?_, ⟨read, trivial⟩⟩
  · rw [only]
    exact ascending_pageIds db afterId limit
  · rw [only]
    exact fun id listed => (of_mem_pageIds listed).2
  · rw [only]
    intro _ id stored above
    rcases listed_or_above stored above with listed | ⟨full, _⟩
    · exact listed
    · exact absurd full short

/-- A full page, and what the walk visits behind it. -/
theorem visits_cons {db later : Db} {afterId last : Int} {limit : Nat} {nextAfterId : Bytes}
    {rest : List Listing} {ended : Bool} (kept : ∀ id ∈ ids db, id ∈ ids later)
    (at_end : (pageIds db afterId limit).getLast? = some last)
    (read : parseInt64 nextAfterId = some last) (visits : Visits last later rest ended) :
    Visits afterId db (⟨pageIds db afterId limit, nextAfterId, true⟩ :: rest) ended := by
  have ascending := ascending_pageIds db afterId limit
  have listed : last ∈ pageIds db afterId limit := List.mem_of_getLast? at_end
  have before : ∀ id ∈ pageIds db afterId limit, id ≤ last := by
    intro id member
    obtain ⟨front, split⟩ := List.getLast?_eq_some_iff.mp at_end
    rw [split] at member ascending
    rcases List.mem_append.mp member with early | same
    · exact ((List.pairwise_append.mp ascending).2.2 id early last (List.mem_singleton_self _)).le
    · exact (List.mem_singleton.mp same).le
  refine ⟨?_, ?_, ?_, ?_⟩
  · rw [List.flatMap_cons, List.pairwise_append]
    refine ⟨ascending, visits.ascending, fun first early second late => ?_⟩
    have low := before first early
    have high := visits.above second late
    omega
  · intro id member
    rw [List.flatMap_cons] at member
    rcases List.mem_append.mp member with early | late
    · exact (of_mem_pageIds early).2
    · have high := visits.above id late
      have low := (of_mem_pageIds listed).2
      omega
  · intro done id stored above
    rw [List.flatMap_cons]
    rcases listed_or_above stored above with here | ⟨_, beyond⟩
    · exact List.mem_append_left _ here
    · exact List.mem_append_right _ (visits.complete done id (kept id stored) (beyond last listed))
  · have returned : CursorsReturn afterId (⟨pageIds db afterId limit, nextAfterId, true⟩ :: rest) =
        (parseInt64 nextAfterId = some ((pageIds db afterId limit).getLast?.getD afterId) ∧
          CursorsReturn ((pageIds db afterId limit).getLast?.getD afterId) rest) := rfl
    rw [returned, at_end, Option.getD_some]
    exact ⟨read, visits.cursors⟩

/-- The cursor a page hands back is read as the same id. -/
theorem nextAfterId_read {db : Db} {cursor : Option Int} (limit : Nat) (stored : Int64Ids db)
    (int64 : ∀ n ∈ cursor, -2 ^ 63 ≤ n ∧ n < 2 ^ 63) :
    parseInt64 (intDigits ((pageIds db (cursor.getD 0) limit).getLast?.getD (cursor.getD 0))) =
      some ((pageIds db (cursor.getD 0) limit).getLast?.getD (cursor.getD 0)) := by
  have bounds : -2 ^ 63 ≤ (pageIds db (cursor.getD 0) limit).getLast?.getD (cursor.getD 0) ∧
      (pageIds db (cursor.getD 0) limit).getLast?.getD (cursor.getD 0) < 2 ^ 63 := by
    cases at_end : (pageIds db (cursor.getD 0) limit).getLast? with
    | some last => exact stored last (of_mem_pageIds (List.mem_of_getLast? at_end)).1
    | none =>
      cases cursor with
      | none => decide
      | some n => exact int64 n rfl
  exact Identifiers.parseInt64_intDigits bounds.1 bounds.2

/-- A turn of a walk: the last page, or a full page with an id to go on from. -/
theorem walk_turn (claims : Claims) (envs : Nat → Env) {cursor : Option Int}
    (size : ∀ n ∈ limit, 1 ≤ n ∧ n < 2 ^ 63) (int64 : ∀ n ∈ cursor, -2 ^ 63 ≤ n ∧ n < 2 ^ 63) {turn : Nat} (stored : Int64Ids (dbs turn)) :
    ((pageIds (dbs turn) (cursor.getD 0) (pageSize limit)).length ≠ pageSize limit ∧
      ∃ nextAfterId, parseInt64 nextAfterId = some
          ((pageIds (dbs turn) (cursor.getD 0) (pageSize limit)).getLast?.getD (cursor.getD 0)) ∧
        ∀ pages, walk limit claims envs dbs (pages + 1) turn (cursor.map intDigits) =
          some ([⟨pageIds (dbs turn) (cursor.getD 0) (pageSize limit), nextAfterId, false⟩], true)) ∨
      ∃ last, (pageIds (dbs turn) (cursor.getD 0) (pageSize limit)).getLast? = some last ∧
        ∀ pages, walk limit claims envs dbs (pages + 1) turn (cursor.map intDigits) =
          (walk limit claims envs dbs pages (turn + 1) ((some last).map intDigits)).map
            fun (rest, ended) =>
              (⟨pageIds (dbs turn) (cursor.getD 0) (pageSize limit), intDigits last, true⟩ :: rest,
                ended) := by
  have fetched := fetch_eq size int64 claims (envs turn) stored
  have read := nextAfterId_read (pageSize limit) stored int64
  have room := pageSize_pos size
  by_cases full : (pageIds (dbs turn) (cursor.getD 0) (pageSize limit)).length = pageSize limit
  · right
    cases at_end : (pageIds (dbs turn) (cursor.getD 0) (pageSize limit)).getLast? with
    | none =>
      rw [List.getLast?_eq_none_iff.mp at_end, List.length_nil] at full
      omega
    | some last =>
      refine ⟨last, rfl, fun pages => ?_⟩
      rw [walk, fetched]
      simp only [full, at_end, decide_true, if_true, Option.getD_some, Option.map_some]
  · left
    refine ⟨full, _, read, fun pages => ?_⟩
    rw [walk, fetched]
    simp only [full, decide_false, Bool.false_eq_true, if_false]

/-- Every walk over contents that lose no user visits what it should. -/
theorem walk_visits (size : ∀ n ∈ limit, 1 ≤ n ∧ n < 2 ^ 63)
    (stored : ∀ turn, Int64Ids (dbs turn))
    (kept : ∀ turn, ∀ id ∈ ids (dbs turn), id ∈ ids (dbs (turn + 1))) (pages : Nat) {turn : Nat}
    {cursor : Option Int} (int64 : ∀ n ∈ cursor, -2 ^ 63 ≤ n ∧ n < 2 ^ 63) :
    ∃ listings ended,
      walk limit claims envs dbs pages turn (cursor.map intDigits) = some (listings, ended) ∧
      Visits (cursor.getD 0) (dbs turn) listings ended := by
  induction pages generalizing turn cursor with
  | zero => exact ⟨[], false, rfl, visits_nil _ _⟩
  | succ pages ih =>
    rcases walk_turn claims envs size int64 (stored turn) with
      ⟨short, nextAfterId, read, last⟩ | ⟨last, at_end, next⟩
    · exact ⟨_, true, last pages, visits_last read short⟩
    · have listed := of_mem_pageIds (List.mem_of_getLast? at_end)
      have bounds := stored turn last listed.1
      have inside : ∀ n ∈ some last, -2 ^ 63 ≤ n ∧ n < 2 ^ 63 := by
        intro n given
        rw [← Option.some.inj given]
        exact bounds
      have onward : ∃ rest ended,
          walk limit claims envs dbs pages (turn + 1) ((some last).map intDigits) =
            some (rest, ended) ∧ Visits last (dbs (turn + 1)) rest ended := ih inside
      obtain ⟨rest, ended, done, visits⟩ := onward
      refine ⟨_, ended, by rw [next pages, done]; rfl, ?_⟩
      exact visits_cons (kept turn) at_end
        (Identifiers.parseInt64_intDigits bounds.1 bounds.2) visits

/-- With some number of pages on, the walk from a turn and a cursor has ended. -/
def Ends (limit : Option Int) (claims : Claims) (envs : Nat → Env) (dbs : Nat → Db) (turn : Nat)
    (cursor : Option Int) : Prop :=
  ∃ enough, ∀ pages, enough ≤ pages → ∃ listings,
    walk limit claims envs dbs pages turn (cursor.map intDigits) = some (listings, true)

/-- A walk ends if it does from its next full page on. -/
theorem ends_of_next (size : ∀ n ∈ limit, 1 ≤ n ∧ n < 2 ^ 63) {turn : Nat} {cursor : Option Int}
    (int64 : ∀ n ∈ cursor, -2 ^ 63 ≤ n ∧ n < 2 ^ 63) (stored : Int64Ids (dbs turn))
    (next : ∀ last ∈ ids (dbs turn), cursor.getD 0 < last →
      Ends limit claims envs dbs (turn + 1) (some last)) : Ends limit claims envs dbs turn cursor := by
  rcases walk_turn claims envs size int64 stored with
    ⟨_, nextAfterId, _, last⟩ | ⟨last, at_end, onward⟩
  · refine ⟨1, fun pages enough => ?_⟩
    obtain ⟨more, rfl⟩ := Nat.exists_eq_add_of_le' enough
    exact ⟨_, last more⟩
  · have listed := of_mem_pageIds (List.mem_of_getLast? at_end)
    obtain ⟨enough, ends⟩ := next last listed.1 listed.2
    refine ⟨enough + 1, fun pages bound => ?_⟩
    obtain ⟨more, rfl⟩ := Nat.exists_eq_add_of_le' (Nat.le_trans (Nat.le_add_left 1 enough) bound)
    obtain ⟨listings, done⟩ := ends more (by omega)
    exact ⟨_, by rw [onward more, done]; rfl⟩

/-- Behind a listed id fewer ids follow, when none was added. -/
theorem length_following_lt {db later : Db} {afterId last : Int} (listed : last ∈ ids db)
    (above : afterId < last) (none_added : ∀ id ∈ ids later, id ∈ ids db) :
    (following later last).length < (following db afterId).length := by
  have distinct : (last :: following later last).Nodup := by
    refine List.nodup_cons.mpr ⟨fun member => lt_irrefl _ (mem_following.mp member).2, ?_⟩
    exact (ascending_following later last).imp fun before => ne_of_lt before
  have inside : last :: following later last ⊆ following db afterId := by
    intro id member
    rcases List.mem_cons.mp member with rfl | behind
    · exact mem_following.mpr ⟨listed, above⟩
    · obtain ⟨there, beyond⟩ := mem_following.mp behind
      exact mem_following.mpr ⟨none_added id there, by omega⟩
  exact (List.subperm_of_subset distinct inside).length_le

/-- A walk ends when no user is added any more. -/
theorem ends_of_quiet (size : ∀ n ∈ limit, 1 ≤ n ∧ n < 2 ^ 63)
    (stored : ∀ turn, Int64Ids (dbs turn)) {quiet : Nat}
    (none_added : ∀ turn, quiet ≤ turn → ∀ id ∈ ids (dbs (turn + 1)), id ∈ ids (dbs turn))
    (left : Nat) {turn : Nat} (later : quiet ≤ turn) {cursor : Option Int}
    (int64 : ∀ n ∈ cursor, -2 ^ 63 ≤ n ∧ n < 2 ^ 63)
    (fewer : (following (dbs turn) (cursor.getD 0)).length ≤ left) :
    Ends limit claims envs dbs turn cursor := by
  induction left generalizing turn cursor with
  | zero =>
    refine ends_of_next size int64 (stored turn) fun last listed above => ?_
    have shrinks := length_following_lt listed above (none_added turn later)
    omega
  | succ left ih =>
    refine ends_of_next size int64 (stored turn) fun last listed above => ?_
    have shrinks := length_following_lt listed above (none_added turn later)
    have onward : quiet ≤ turn + 1 := by omega
    refine ih onward ?_ (by rw [Option.getD_some]; omega)
    intro n given
    rw [← Option.some.inj given]
    exact stored turn last listed

/-- A walk ends when finitely many users are added meanwhile. -/
theorem ends_of_finitely_many (size : ∀ n ∈ limit, 1 ≤ n ∧ n < 2 ^ 63)
    (stored : ∀ turn, Int64Ids (dbs turn)) {quiet : Nat}
    (none_added : ∀ turn, quiet ≤ turn → ∀ id ∈ ids (dbs (turn + 1)), id ∈ ids (dbs turn))
    (before : Nat) {turn : Nat} (soon : quiet ≤ turn + before) {cursor : Option Int}
    (int64 : ∀ n ∈ cursor, -2 ^ 63 ≤ n ∧ n < 2 ^ 63) : Ends limit claims envs dbs turn cursor := by
  induction before generalizing turn cursor with
  | zero => exact ends_of_quiet size stored none_added _ soon int64 le_rfl
  | succ before ih =>
    refine ends_of_next size int64 (stored turn) fun last listed above => ih (by omega) ?_
    intro n given
    rw [← Option.some.inj given]
    exact stored turn last listed

/-- Over contents that lose no user, whatever users are added between the pages, and for every size of
the pages: a walk gets every page it asks for, lists ids in strictly ascending order and is handed
cursors that are read back as the last id listed; when it has ended it has listed every user there
was at its start exactly once; and it ends if finitely many users are added. -/
theorem walk_lists_everyone_once (limit : Option Int) (size : ∀ n ∈ limit, 1 ≤ n ∧ n < 2 ^ 63)
    (claims : Claims) (envs : Nat → Env) (dbs : Nat → Db) (stored : ∀ turn, Int64Ids (dbs turn))
    (positive : ∀ id ∈ ids (dbs 0), 0 < id)
    (kept : ∀ turn, ∀ id ∈ ids (dbs turn), id ∈ ids (dbs (turn + 1))) :
    (∀ pages, ∃ listings ended, walk limit claims envs dbs pages 0 none = some (listings, ended) ∧
      (listings.flatMap Listing.ids).Pairwise (fun first second => first < second) ∧
      CursorsReturn 0 listings ∧
      (ended = true → ∀ id ∈ ids (dbs 0), (listings.flatMap Listing.ids).count id = 1)) ∧
    ((∃ quiet, ∀ turn, quiet ≤ turn → ∀ id ∈ ids (dbs (turn + 1)), id ∈ ids (dbs turn)) →
      ∃ enough, ∀ pages, enough ≤ pages → ∃ listings,
        walk limit claims envs dbs pages 0 none = some (listings, true)) := by
  have nothing : ∀ n ∈ (none : Option Int), -2 ^ 63 ≤ n ∧ n < 2 ^ 63 := by
    intro n given
    contradiction
  constructor
  · intro pages
    have visited : ∃ listings ended,
        walk limit claims envs dbs pages 0 ((none : Option Int).map intDigits) =
          some (listings, ended) ∧ Visits 0 (dbs 0) listings ended :=
      walk_visits size stored kept pages nothing
    obtain ⟨listings, ended, done, visits⟩ := visited
    refine ⟨listings, ended, done, visits.ascending, visits.cursors, fun whole id there => ?_⟩
    have listed := visits.complete whole id there (positive id there)
    have distinct : (listings.flatMap Listing.ids).Nodup :=
      visits.ascending.imp fun before => ne_of_lt before
    exact List.count_eq_one_of_mem distinct listed
  · intro ⟨quiet, none_added⟩
    have soon : quiet ≤ 0 + quiet := by omega
    exact ends_of_finitely_many size stored none_added quiet soon nothing

end Walks

/-- The sample content, and from the second turn on with one more user. -/
def joined : Nat → Db
  | 0 => Deployment.database .active
  | _ + 1 =>
    (((Deployment.database .active).insertUser
      { Deployment.alice .active with
        username := ascii "bob"
        email := ascii "bob@example.org"
        emailNormalized := ascii "bob@example.org" }).map Prod.snd).getD (Deployment.database .active)

/-- The ids of the sample contents. -/
theorem ids_joined (turn : Nat) : ids (joined turn) = if turn = 0 then [1] else [1, 2] := by
  cases turn with
  | zero => decide +kernel
  | succ turn =>
    have grown : ids (joined 1) = [1, 2] := by decide +kernel
    rw [if_neg (Nat.succ_ne_zero turn)]
    exact grown

/-- The claims of the first user, as an administrator. -/
def reader : Claims := ⟨1, 3, 1000, 1000, 1900, [], []⟩

/-- A walk in pages of one user, with a user added behind the first page. -/
theorem walk_lists_everyone_once_joined :
    (∀ pages, ∃ listings ended,
      walk (some 1) reader (fun _ => Deployment.env 1000 1 1) joined pages 0 none =
          some (listings, ended) ∧
        (listings.flatMap Listing.ids).Pairwise (fun first second => first < second) ∧
        CursorsReturn 0 listings ∧
        (ended = true → ∀ id ∈ ids (joined 0), (listings.flatMap Listing.ids).count id = 1)) ∧
    ((∃ quiet, ∀ turn, quiet ≤ turn → ∀ id ∈ ids (joined (turn + 1)), id ∈ ids (joined turn)) →
      ∃ enough, ∀ pages, enough ≤ pages → ∃ listings,
        walk (some 1) reader (fun _ => Deployment.env 1000 1 1) joined pages 0 none =
          some (listings, true)) := by
  refine walk_lists_everyone_once (some 1) ?_ reader (fun _ => Deployment.env 1000 1 1) joined ?_ ?_ ?_
  · intro n given
    rw [← Option.some.inj given]
    decide
  · intro turn id stored
    rw [ids_joined] at stored
    by_cases start : turn = 0
    · rw [if_pos start] at stored
      revert id
      decide
    · rw [if_neg start] at stored
      revert id
      decide
  · intro id stored
    rw [ids_joined, if_pos rfl] at stored
    revert id
    decide
  · intro turn id stored
    rw [ids_joined] at stored ⊢
    rw [if_neg (by omega)]
    by_cases start : turn = 0
    · rw [if_pos start] at stored
      exact List.mem_of_mem_take (i := 1) stored
    · rw [if_neg start] at stored
      exact stored

end PlatformService.Verif.Pagination
