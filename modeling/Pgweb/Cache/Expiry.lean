import Pgweb.Cache.Store
import Pgweb.Cache.Size

/-!
# What `Get` returns

`lastSet key h` is the latest write to `key` in the history `h`: the clock reading, value
and TTL of the last `Set(key, ...)`, or `none` when a `Delete(key)` or `Clear()` came after
it or there was none. In every reachable state each stored entry holds the value of its
key's latest write and expires at that write's clock reading plus its effective TTL
(`mem_lastSet`); so `Get` returns only that value, and only up to and including the expiry
instant, since `Get` tests `now.After(item.expiresAt)`.
-/

namespace Pgweb

namespace Cache

variable {V : Type}

/-- The effect of one call on the latest write to `key`. -/
def lastSetStep (key : String) (acc : Option (Int × V × Int)) (x : Int × Op V) :
    Option (Int × V × Int) :=
  match x.2 with
  | .set k v ttl => if k = key then some (x.1, v, ttl) else acc
  | .delete k => if k = key then none else acc
  | .clear => none
  | .get _ | .cleanup => acc

/-- The latest write to `key` in a history, oldest call first. -/
def lastSet (key : String) (h : List (Int × Op V)) : Option (Int × V × Int) :=
  h.foldl (lastSetStep key) none

theorem lastSet_append (key : String) (h : List (Int × Op V)) (x : Int × Op V) :
    lastSet key (h ++ [x]) = lastSetStep key (lastSet key h) x := by
  simp [lastSet]

/-- The entry of `key` is the latest write to `key`, with its TTL resolved against
`defaultTTL`. -/
def WrittenBy (defaultTTL : Int) (h : List (Int × Op V)) (e : KeyItem V) : Prop :=
  ∃ t0 ttl, lastSet e.1 h = some (t0, e.2.value, ttl) ∧
    e.2.expiresAt = t0 + if ttl = 0 then defaultTTL else ttl

theorem writtenBy_append {d : Int} {h : List (Int × Op V)} {e : KeyItem V} {x : Int × Op V}
    (he : WrittenBy d h e) (hx : lastSetStep e.1 (lastSet e.1 h) x = lastSet e.1 h) :
    WrittenBy d (h ++ [x]) e := by
  rwa [WrittenBy, lastSet_append, hx]

/-- In every state reached from an empty store, each entry is its key's latest write. -/
theorem mem_lastSet {estimateSize : V → Int} {defaultTTL maxItems maxMemory : Int}
    {h : List (Int × Op V)} {c : Cache V}
    (hr : Reach estimateSize (empty defaultTTL maxItems maxMemory) h c) :
    ∀ e ∈ c.items.entries, WrittenBy defaultTTL h e := by
  induction hr with
  | init => simp [empty]
  | @step h c now op hr hw =>
    intro e hmem
    cases op with
    | set key value ttl =>
      obtain ⟨c', hc', he, -⟩ := set_spec estimateSize c now key value ttl
      rw [Cache.exec, he] at hmem
      rcases List.mem_append.1 hmem with hmem | hmem
      · obtain ⟨hmem, hk⟩ := List.mem_filter.1 hmem
        have hk : e.1 ≠ key := by simpa using hk
        exact writtenBy_append (hw e (hc'.sublist.subset hmem)) (by simp [lastSetStep, Ne.symm hk])
      · rw [List.mem_singleton.1 hmem]
        exact ⟨now, ttl, by simp [lastSet_append, lastSetStep], by rw [(Reach.settings hr).1]⟩
    | get key => exact writtenBy_append (hw e hmem) rfl
    | delete key =>
      obtain ⟨hmem, hk⟩ := mem_delete hmem
      exact writtenBy_append (hw e hmem) (by simp [lastSetStep, Ne.symm hk])
    | clear => simp [Cache.exec, clear] at hmem
    | cleanup => exact writtenBy_append (hw e ((cleanup_shrinks c now).sublist.subset hmem)) rfl
  | reorder l hl _ ih => exact fun e hmem => ih e (hl.subset hmem)

/-- `Get` changes nothing and returns only the key's latest write, no later than its expiry. -/
theorem get_lastSet {estimateSize : V → Int} {defaultTTL maxItems maxMemory : Int}
    {h : List (Int × Op V)} {c : Cache V}
    (hr : Reach estimateSize (empty defaultTTL maxItems maxMemory) h c) (now : Int)
    (key : String) (v : V) :
    c.exec estimateSize now (.get key) = c ∧
    (c.get now key = some v →
      ∃ t0 ttl, lastSet key h = some (t0, v, ttl) ∧
        now ≤ t0 + if ttl = 0 then defaultTTL else ttl) := by
  refine ⟨rfl, fun hg => ?_⟩
  unfold get at hg
  split at hg
  · cases hg
  · rename_i it hl
    split at hg
    · cases hg
    · rename_i hlt
      obtain ⟨t0, ttl, hs, hx⟩ := mem_lastSet hr _ (ItemMap.mem_of_lookup hl)
      cases hg
      exact ⟨t0, ttl, hs, by rw [← hx]; exact not_lt.1 hlt⟩

theorem get_lastSet_at_expiry :
    ((new 300 : Cache String).run stringSize [(0, .set "k" "v" 10)]).get 10 "k" = some "v" ∧
    (∃ t0 ttl, lastSet "k" [((0 : Int), (Op.set "k" "v" 10 : Op String))] = some (t0, "v", ttl) ∧
      (10 : Int) ≤ t0 + if ttl = 0 then 300 else ttl) :=
  ⟨by decide, (get_lastSet (reach_run stringSize (new 300 : Cache String)
    [(0, .set "k" "v" 10)]) 10 "k" "v").2 (by decide)⟩

/-- At the expiry instant itself `Get` still returns the value. -/
theorem get_at_expiry :
    ((new 300 : Cache String).run stringSize [(0, .set "k" "v" 10)]).get 10 "k" = some "v" ∧
    lastSet "k" [((0 : Int), (Op.set "k" "v" 10 : Op String))] = some (0, "v", 10) ∧
    ¬ ((10 : Int) < 0 + 10) := by
  decide

end Cache

end Pgweb
