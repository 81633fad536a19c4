import PlatformService.Api.Common

/-!
# Reading users

`user_api.c` and `admin_api.c`: a user's own record, the number of users and a page of
users. These handlers run single statements in autocommit mode; the audit row of a
read is written with its failure ignored.
-/

namespace PlatformService.Api

open Lib Json Store

namespace Users

/-- `user_write_self` -/
def writeSelf (user : UserRow) : Value :=
  jsonObject [("userId", .string (intDigits user.userId)), ("username", .string (cString user.username)),
    ("email", .string (cString user.email))]

/-- `user_write_admin` -/
def writeAdmin (user : UserRow) : Value :=
  jsonObject [("userId", .string (intDigits user.userId)), ("username", .string (cString user.username))]

/-- `ps_user_handle_get_user` -/
def getUser (env : Env) (claims : Claims) (targetUserId : Int) : Sql HandlerResult := do
  match ← UserStore.getById targetUserId with
  | none => return errorResult 404 "NOT_FOUND" "no such user"
  | some target =>
    if claims.userId = targetUserId then return { status := 200, body := some (writeSelf target) }
    else
      let _ ← AuditStore.write
        { occurredAt := env.now, event := .adminUserRead, outcome := .success,
          actorUserId := some claims.userId, targetUserId := some targetUserId,
          sourceIp := auditSourceIp env }
      return { status := 200, body := some (writeAdmin target) }

end Users

namespace Admin

/-- `PS_USER_LIST_MAX` -/
def userListMax : Nat := 1000

/-- `ps_parse_int64` -/
def parseInt64 (text : Bytes) : Option Int :=
  if text.length = 0 ∨ 32 ≤ text.length then none
  else
    let buf := cString text
    if buf.head?.any isSpace then none
    else
      let parsed := strtoll buf
      if ¬parsed.converted ∨ parsed.rest ≠ [] ∨ parsed.erange then none else some parsed.value

/-- `query_param_get`: the value of the first pair with a key. -/
def queryParamGet (query : Bytes) (key : String) : Option Bytes :=
  ((query.splitOn 38).find? fun pair => pair.takeWhile (· ≠ 61) = ascii key).map fun pair =>
    (pair.dropWhile (· ≠ 61)).tail

/-- `ps_admin_handle_count_users` -/
def countUsers : Sql HandlerResult := do
  match ← UserStore.count with
  | none => return internalErrorResult
  | some count =>
    return { status := 200, body := some (jsonObject [("count", .number (Binary64.ofInt count))]) }

/-- The cursor and the size of a page. -/
structure Page where
  afterId : Int
  limit : Nat
  deriving DecidableEq, Repr

/-- `ps_admin_handle_list_users` up to its first use of the database. -/
def page (query : Option Bytes) : Except HandlerResult Page := do
  let afterId ← match query.bind fun text => queryParamGet text "after_id" with
    | none => pure 0
    | some value => match parseInt64 value with
      | none => throw (errorResult 400 "BAD_REQUEST" "after_id is invalid")
      | some afterId => pure afterId
  let limit ← match query.bind fun text => queryParamGet text "limit" with
    | none => pure (userListMax : Int)
    | some value => match parseInt64 value with
      | none => throw (errorResult 400 "BAD_REQUEST" "limit is invalid")
      | some limit =>
        if limit ≤ 0 then throw (errorResult 400 "BAD_REQUEST" "limit must be positive")
        else pure limit
  return { afterId, limit := (min limit userListMax).toNat }

/-- The body of a page of users. -/
def pageBody (page : Page) (rows : List UserStore.BriefRow) : Value :=
  let users := rows.map fun row =>
    jsonObject [("userId", .string (intDigits row.userId)), ("username", .string row.username)]
  let nextAfterId := (rows.getLast?.map UserStore.BriefRow.userId).getD page.afterId
  jsonObject [("users", .array users), ("count", .number (Binary64.ofInt rows.length)),
    ("nextAfterId", .string (intDigits nextAfterId)),
    ("hasMore", .bool (rows.length = page.limit))]

/-- `ps_admin_handle_list_users` from its first use of the database on. -/
def listUsers (env : Env) (claims : Claims) (page : Page) : Sql HandlerResult := do
  match ← UserStore.listAfter page.afterId page.limit with
  | none => return internalErrorResult
  | some rows =>
    let _ ← AuditStore.write
      { occurredAt := env.now, event := .adminUserList, outcome := .success,
        actorUserId := some claims.userId, sourceIp := auditSourceIp env,
        detail := some (ascii "\x7b\"after_id\":" ++ intDigits page.afterId ++
          ascii ",\"limit\":" ++ natDigits page.limit ++ ascii "\x7d") }
    return { status := 200, body := some (pageBody page rows) }

end Admin

end PlatformService.Api
