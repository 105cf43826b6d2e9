import Pgweb.Client.Role

/-!
# Requests that share one client

All requests of a connection go through one `*Client`. Gin serves each request on its own
goroutine, `roleInjectionMiddleware` writes `defaultRole` without a lock, and the pool hands
each statement to any session, so the statements of concurrent requests interleave with one
another and with other requests' headers in any order.

A `Step` is one atomic action of some request on what the requests share: a header stored by
`SetRole`, or one statement sent to a session, which changes the session only if it succeeds;
a `SET ROLE` reads `defaultRole` at that moment (field reads and writes are taken as atomic).
A `Run` is any sequence of steps, labelled with the statements sent and their sessions. Every
call of `query` is a run of its client whose labels are what the pool logs, and
`query_issues` says which statements it sends; so any interleaving of requests is a run too.

`defaultRole` starts unset and only `SetRole` writes it, after `isValidRoleName`. So in every
run each `SET ROLE "<role>"` names an accepted role, which cannot close the quotes
(`run_setRole_valid`). A single atomic read covers the code's two reads of `defaultRole` (the
test, then `Sprintf`), because `SetRole` never unsets it. Which request's role that is remains
open: a request can run under the role another request stored.
-/

namespace Pgweb

/-- What concurrent requests share: the client and the sessions of its pool. -/
structure Shared where
  client : Client
  sessions : Nat → Session

/-- Statement `st` sent to session `i`, which it changes if it succeeds. -/
def Shared.send (s : Shared) (i : Nat) (st : Stmt) (succeeds : Bool) : Shared :=
  if succeeds then { s with sessions := Function.update s.sessions i ((s.sessions i).apply st) }
  else s

/-- One atomic action of some request, with the statement it sends and the session. -/
inductive Step : Shared → Option (Nat × Stmt) → Shared → Prop
  /-- A request's `roleInjectionMiddleware` passes its header to `SetRole`. -/
  | header (s : Shared) (role : String) :
      Step s none { s with client := (roleInjectionMiddleware role (some s.client)).getD s.client }
  /-- `query` or `exec` sends `SET ROLE` with `defaultRole` as it reads it, when it is set. -/
  | setRole (s : Shared) (i : Nat) (h : s.client.defaultRole ≠ "") (succeeds : Bool) :
      Step s (some (i, .setRole s.client.defaultRole))
        (s.send i (.setRole s.client.defaultRole) succeeds)
  /-- Any other statement, on any session. -/
  | stmt (s : Shared) (i : Nat) (st : Stmt) (h : ∀ role, st ≠ .setRole role) (succeeds : Bool) :
      Step s (some (i, st)) (s.send i st succeeds)

/-- Steps one after another, and the statements they send. -/
inductive Run : Shared → List (Nat × Stmt) → Shared → Prop
  | refl (s : Shared) : Run s [] s
  | tail {s s' s'' : Shared} {sent : List (Nat × Stmt)} {o : Option (Nat × Stmt)} :
      Run s sent s' → Step s' o s'' → Run s (sent ++ o.toList) s''

theorem Run.single {s s' : Shared} {o : Option (Nat × Stmt)} (h : Step s o s') :
    Run s o.toList s' := by
  simpa using (Run.refl s).tail h

theorem Run.trans {s s' s'' : Shared} {a b : List (Nat × Stmt)} (h : Run s a s')
    (h' : Run s' b s'') : Run s (a ++ b) s'' := by
  induction h' with
  | refl => simpa using h
  | tail _ hs ih => simpa using ih.tail hs

/-! ## `query` is a run

`Issues client ok m`: from any pool, the statements `m` sends are what it appends to the
pool's log, they form a run of `client` that leaves the client as it is, and each satisfies
`ok`. -/

section Issues

variable {client : Client} {ok : Stmt → Prop} {α β : Type}

/-- `m` logs the statements it sends, which form a run of `client` and satisfy `ok`. -/
def Issues (client : Client) (ok : Stmt → Prop) (m : StateM Pool α) : Prop :=
  ∀ p : Pool, ∃ sent, (m.run p).2.log = p.log ++ sent ∧
    Run ⟨client, p.sessions⟩ sent ⟨client, (m.run p).2.sessions⟩ ∧ ∀ x ∈ sent, ok x.2

theorem Issues.pure (a : α) : Issues client ok (pure a : StateM Pool α) :=
  fun _ => ⟨[], (List.append_nil _).symm, .refl _, fun _ h => absurd h (List.not_mem_nil _)⟩

theorem Issues.bind {x : StateM Pool α} {f : α → StateM Pool β} (hx : Issues client ok x)
    (hf : ∀ a, Issues client ok (f a)) : Issues client ok (x >>= f) := fun p => by
  obtain ⟨a, hla, ha, ha'⟩ := hx p
  obtain ⟨b, hlb, hb, hb'⟩ := hf (x.run p).1 (x.run p).2
  refine ⟨a ++ b, ?_, ha.trans hb, fun st h => (List.mem_append.1 h).elim (ha' st) (hb' st)⟩
  rw [stateM_run_bind, hlb, hla, List.append_assoc]

theorem Issues.ite {c : Prop} [Decidable c] {x y : StateM Pool α} (hx : c → Issues client ok x)
    (hy : ¬c → Issues client ok y) : Issues client ok (if c then x else y) := by
  split
  · exact hx ‹_›
  · exact hy ‹_›

/-- The pool's call is one step, which applies the statement only if it succeeds. -/
theorem issue_run (pick : Nat → Nat) (st : Stmt) (p : Pool) :
    (⟨client, ((issue pick st).run p).2.sessions⟩ : Shared) =
      Shared.send ⟨client, p.sessions⟩ (pick p.issued) st
        (p.fails (p.sessions (pick p.issued)) st).isNone := by
  rw [issue_sessions]; unfold Shared.send; split <;> simp_all

/-- A statement that is a step of `client` on any session, whether or not it succeeds. -/
theorem issues_issue (pick : Nat → Nat) {st : Stmt}
    (hs : ∀ sessions i succeeds, Step ⟨client, sessions⟩ (some (i, st))
      (Shared.send ⟨client, sessions⟩ i st succeeds))
    (hok : ok st) : Issues client ok (issue pick st) := fun p =>
  ⟨[(pick p.issued, st)], issue_log pick st p, issue_run pick st p ▸ .single (hs _ _ _),
    fun _ h => List.mem_singleton.1 h ▸ hok⟩

theorem issues_stmt (pick : Nat → Nat) {st : Stmt} (h : ∀ role, st ≠ .setRole role)
    (hok : ok st) : Issues client ok (issue pick st) :=
  issues_issue pick (fun _ i _ => .stmt _ i st h _) hok

theorem issues_setDefaultRole (pick : Nat → Nat)
    (hok : client.defaultRole ≠ "" → ok (.setRole client.defaultRole)) :
    Issues client ok (client.setDefaultRole pick) := by
  unfold Client.setDefaultRole
  refine .ite (fun h => (issues_issue pick (fun _ i _ => .setRole _ i h _) (hok h)).bind
    fun r => ?_) fun _ => .pure _
  cases r <;> exact .pure _

theorem issues_setReadOnlyMode (pick : Nat → Nat) (h1 : ok .showReadOnly) (h2 : ok .setReadOnly) :
    Issues client ok (Client.setReadOnlyMode pick) := by
  unfold Client.setReadOnlyMode
  refine (issues_stmt pick (fun _ => Stmt.noConfusion) h1).bind fun r => ?_
  cases r with
  | error err => exact .pure _
  | ok s =>
    exact .ite (fun _ => (issues_stmt pick (fun _ => Stmt.noConfusion) h2).bind fun _ => .pure _)
      fun _ => .pure _

theorem issues_dispatch (pick : Nat → Nat) (q : String)
    (hr : client.defaultRole ≠ "" → ok (.setRole client.defaultRole)) (hq : ok (.run q)) :
    Issues client ok (client.dispatch pick q) := by
  unfold Client.dispatch Client.exec
  refine .ite (fun _ => (issues_setDefaultRole pick hr).bind fun r => ?_) fun _ =>
    issues_stmt pick (fun _ => Stmt.noConfusion) hq
  cases r with
  | error err => exact .pure _
  | ok u => exact issues_stmt pick (fun _ => Stmt.noConfusion) hq

/-- A statement that `query(q)` may send: `SET ROLE` with `defaultRole`; the two read-only
statements, in read-only mode only; and `q` itself, which in read-only mode has passed
`containsRestrictedKeywords`. -/
def QueryStmt (opts : Options) (client : Client) (q : String) : Stmt → Prop
  | .setRole role => role = client.defaultRole ∧ role ≠ ""
  | .showReadOnly | .setReadOnly => (opts.readOnly || client.readonly) = true
  | .run query => query = q ∧
      ((opts.readOnly || client.readonly) = true → opts.containsRestrictedKeywords q = false)

/-- Every call of `query` logs a run that sends `SET ROLE` only for a set `defaultRole`, and no
query but its own, checked first in read-only mode. -/
theorem query_issues (opts : Options) (pick : Nat → Nat) (q : String) :
    Issues client (QueryStmt opts client q) (client.query opts pick q) := by
  have hr : client.defaultRole ≠ "" → QueryStmt opts client q (.setRole client.defaultRole) :=
    fun h => ⟨rfl, h⟩
  have hd : ((opts.readOnly || client.readonly) = true →
      opts.containsRestrictedKeywords q = false) →
      Issues client (QueryStmt opts client q) (client.dispatch pick q >>= fun r =>
        (Pure.pure (r.map some) : StateM Pool (Except String (Option Session)))) :=
    fun hq => (issues_dispatch pick q hr ⟨rfl, hq⟩).bind fun _ => .pure _
  unfold Client.query; dsimp only
  refine .ite (fun _ => .pure _) fun _ => (Issues.pure _).bind fun _ =>
    (issues_setDefaultRole pick hr).bind fun r => ?_
  cases r with
  | error err => exact .pure _
  | ok u =>
    refine .ite (fun hro => (issues_setReadOnlyMode pick hro hro).bind fun r' => ?_) fun hro =>
      (Issues.pure _).bind fun _ => hd fun h => absurd h hro
    cases r' with
    | error err => exact .pure _
    | ok u' =>
      exact .ite (fun _ => .pure _) fun hk =>
        (Issues.pure _).bind fun _ => hd fun _ => Bool.eq_false_iff.2 hk

end Issues

/-! ## Every `SET ROLE` names an accepted role -/

/-- `defaultRole` is unset or a name `isValidRoleName` accepts. -/
def RoleOk (client : Client) : Prop :=
  client.defaultRole = "" ∨ Client.isValidRoleName client.defaultRole = true

theorem roleOk_setRole {client : Client} (h : RoleOk client) (role : String) :
    RoleOk (client.setRole role) := by
  rw [RoleOk, setRole_defaultRole]; split
  · exact .inr (‹_ ∧ _›).2
  · exact h

/-- A step keeps `RoleOk`, and a `SET ROLE` it issues names an accepted role. -/
theorem Step.roleOk {s s' : Shared} {o : Option (Nat × Stmt)} (h : Step s o s')
    (hs : RoleOk s.client) :
    RoleOk s'.client ∧
      ∀ i role, o = some (i, .setRole role) → Client.isValidRoleName role = true := by
  cases h with
  | header role =>
    refine ⟨?_, fun _ _ h => nomatch h⟩
    rw [middleware_getD]; exact roleOk_setRole hs role
  | setRole i hr b =>
    refine ⟨by unfold Shared.send; split <;> exact hs, fun j role he => ?_⟩
    cases he
    exact hs.resolve_left hr
  | stmt i st hst b =>
    refine ⟨by unfold Shared.send; split <;> exact hs, fun j role he => ?_⟩
    cases he
    exact absurd rfl (hst role)

theorem Run.roleOk {s s' : Shared} {sent : List (Nat × Stmt)} (h : Run s sent s')
    (hs : RoleOk s.client) :
    RoleOk s'.client ∧
      ∀ i role, (i, Stmt.setRole role) ∈ sent → Client.isValidRoleName role = true := by
  induction h with
  | refl => exact ⟨hs, by simp⟩
  | tail _ hst ih =>
    obtain ⟨h1, h2⟩ := hst.roleOk ih.1
    exact ⟨h1, fun i role hr => (List.mem_append.1 hr).elim (ih.2 i role)
      fun hr => h2 i role (Option.mem_toList.1 hr)⟩

theorem isValidRoleName_quote {role : String} (h : Client.isValidRoleName role = true) :
    '"' ∉ role.data := by
  unfold Client.isValidRoleName at h
  split at h
  · cases h
  · rename_i c cs hd
    simp only [Bool.and_eq_true, List.all_eq_true, Bool.or_eq_true, beq_iff_eq] at h
    rw [hd, List.mem_cons]
    rintro (rfl | hq)
    · exact absurd h.1.1 (by decide)
    · rcases h.1.2 _ hq with h' | h' <;> exact absurd h' (by decide)

/-- Every `SET ROLE` of every run from an unset `defaultRole` names an accepted role. -/
theorem run_setRole_valid {s s' : Shared} {sent : List (Nat × Stmt)}
    (h0 : s.client.defaultRole = "") (h : Run s sent s') {i : Nat} {role : String}
    (hr : (i, Stmt.setRole role) ∈ sent) :
    Client.isValidRoleName role = true ∧ '"' ∉ role.data :=
  have hv := (h.roleOk (.inl h0)).2 i role hr
  ⟨hv, isValidRoleName_quote hv⟩

/-- A request stores the header `alice`, then a query of any request issues `SET ROLE` on
session `0`. -/
theorem run_setRole_alice : Client.isValidRoleName "alice" = true ∧ '"' ∉ "alice".data :=
  run_setRole_valid (s := ⟨⟨true, "", false⟩, fun _ => ⟨"postgres", false⟩⟩) (i := 0) rfl
    (((Run.refl _).tail (.header _ "alice")).tail (.setRole _ 0 (by decide) true)) (by decide)

end Pgweb
