import Pgweb.Cache.Evict

/-!
# The store: `Set`, `Get`, `Delete`, `Clear`, the sweep and `Stats`

`Set` is cut at the source's own comments into `evictForCount` (the item-count block),
`subtractExisting` (a replaced entry's size), `evictForMemory` (the memory check) and the
insertion. The estimator is the parameter `estimateSize` (`Size.lean` models the source's).

`Op` is one call, `exec` runs it at a clock reading, and `Reach c₀ h c` says `c` is reached
from `c₀` through the calls `h`, oldest first. A Go map has no order, so `Reach` may also
present the map in any order between calls (`Reach.reorder`). `ReachIf ok` is `Reach`
through calls that `ok` allows in the state they are made in.

`Stats` counts as active exactly the stored keys that `Get` answers at the same instant
(`stats_get`).
-/

namespace Pgweb

open scoped List

namespace Cache

variable {V : Type}

/-! ## The parts of `Set` -/

/-- The item-count block of `Set`: purge expired entries, then evict the oldest until
one slot is free. -/
def evictForCount (c : Cache V) (now : Int) : Cache V :=
  if 0 < c.maxItems ∧ c.maxItems ≤ c.items.len then
    let c := c.evictExpired now
    if c.maxItems ≤ c.items.len then c.evictOldest (c.items.len - c.maxItems + 1) else c
  else c

/-- `if existingItem, exists := c.items[key]; exists { c.currentSize -= existingItem.size }`. -/
def subtractExisting (c : Cache V) (key : String) : Cache V :=
  match c.items.lookup key with
  | some existing => c.assignSize (c.currentSize - existing.size)
  | none => c

/-- The memory check of `Set`. -/
def evictForMemory (c : Cache V) (now itemSize : Int) : Cache V :=
  if 0 < c.maxMemory ∧ c.maxMemory < wrap64 (c.currentSize + itemSize) then
    c.evictToFitMemory now itemSize
  else c

/-! ## What the parts can do

Every part of `Set` except the insertion, and `Delete`, `Clear` and the sweep, only delete
entries and keep the settings: `Shrinks c' c`. -/

/-- `c'` is `c` with entries deleted (in the same order) and the same settings. -/
structure Shrinks (c' c : Cache V) : Prop where
  sublist : c'.items.entries <+ c.items.entries
  defaultTTL : c'.defaultTTL = c.defaultTTL
  maxItems : c'.maxItems = c.maxItems
  maxMemory : c'.maxMemory = c.maxMemory

theorem Shrinks.refl (c : Cache V) : c.Shrinks c := ⟨List.Sublist.refl _, rfl, rfl, rfl⟩

theorem Shrinks.trans {c c' c'' : Cache V} (h : c''.Shrinks c') (h' : c'.Shrinks c) :
    c''.Shrinks c :=
  ⟨h.sublist.trans h'.sublist, h.defaultTTL.trans h'.defaultTTL, h.maxItems.trans h'.maxItems,
    h.maxMemory.trans h'.maxMemory⟩

theorem Shrinks.len_le {c c' : Cache V} (h : c'.Shrinks c) : c'.items.len ≤ c.items.len :=
  h.sublist.length_le

theorem without_shrinks (c : Cache V) (a : List (KeyItem V)) : (c.without a).Shrinks c :=
  ⟨List.filter_sublist _, rfl, rfl, rfl⟩

theorem evictExpired_shrinks (c : Cache V) (now : Int) : (c.evictExpired now).Shrinks c := by
  rw [evictExpired_eq]; exact without_shrinks _ _

theorem evictOldest_shrinks (c : Cache V) (count : Int) : (c.evictOldest count).Shrinks c := by
  rw [evictOldest_eq]; exact without_shrinks _ _

theorem evictOldestBySize_shrinks (c : Cache V) (target : Int) :
    (c.evictOldestBySize target).Shrinks c := by
  rw [evictOldestBySize_eq]; exact without_shrinks _ _

theorem evictToFitMemory_shrinks (c : Cache V) (now size : Int) :
    (c.evictToFitMemory now size).Shrinks c := by
  unfold evictToFitMemory
  dsimp only
  split
  · exact (evictOldestBySize_shrinks _ _).trans (evictExpired_shrinks _ _)
  · exact evictExpired_shrinks _ _

theorem evictForCount_shrinks (c : Cache V) (now : Int) : (c.evictForCount now).Shrinks c := by
  unfold evictForCount
  split
  · dsimp only
    split
    · exact (evictOldest_shrinks _ _).trans (evictExpired_shrinks _ _)
    · exact evictExpired_shrinks _ _
  · exact Shrinks.refl c

theorem subtractExisting_items (c : Cache V) (key : String) :
    (c.subtractExisting key).items = c.items := by
  unfold subtractExisting; split <;> rfl

theorem subtractExisting_shrinks (c : Cache V) (key : String) :
    (c.subtractExisting key).Shrinks c := by
  unfold subtractExisting; split
  · exact ⟨List.Sublist.refl _, rfl, rfl, rfl⟩
  · exact Shrinks.refl c

theorem subtractExisting_currentSize (c : Cache V) (key : String) :
    (c.subtractExisting key).currentSize =
      wrap64 (c.currentSize - ((c.items.lookup key).map Item.size).getD 0) := by
  unfold subtractExisting; split <;> simp_all [wrap64_of_inInt64 c.currentSize_inInt64]

theorem evictForMemory_shrinks (c : Cache V) (now size : Int) :
    (c.evictForMemory now size).Shrinks c := by
  unfold evictForMemory; split
  · exact evictToFitMemory_shrinks _ _ _
  · exact Shrinks.refl c

/-- With a positive bound, the item-count block leaves fewer entries than the bound. -/
theorem len_evictForCount_lt (c : Cache V) (now : Int) (hm : 0 < c.maxItems) :
    ((c.evictForCount now).items.len : Int) < c.maxItems := by
  unfold evictForCount
  split
  · have hx := (evictExpired_shrinks c now).maxItems
    dsimp only
    split
    · rename_i h
      rw [len_evictOldest, hx] at *
      have : ((c.evictExpired now).items.len - c.maxItems + 1).toNat =
          (c.evictExpired now).items.len - c.maxItems + 1 := Int.toNat_of_nonneg (by omega)
      omega
    · rename_i h; rw [hx] at h; omega
  · rename_i h; omega

section Ops

variable (estimateSize : V → Int)

/-- `Set(key, value, ttl)` at clock reading `now`. -/
def set (c : Cache V) (now : Int) (key : String) (value : V) (ttl : Int) : Cache V :=
  let ttl := if ttl = 0 then c.defaultTTL else ttl
  let itemSize := estimateSize value
  let c := ((c.evictForCount now).subtractExisting key).evictForMemory now itemSize
  { c.assignSize (c.currentSize + itemSize) with
    items := c.items.insert key ⟨value, now + ttl, itemSize⟩ }

/-- `Set` deletes some entries, keeps the settings, then stores the new item under `key`. -/
theorem set_spec (c : Cache V) (now : Int) (key : String) (value : V) (ttl : Int) :
    ∃ c' : Cache V, c'.Shrinks c ∧ (c.set estimateSize now key value ttl).items.entries =
      c'.items.entries.filter (fun e => e.1 != key) ++
        [(key, ⟨value, now + (if ttl = 0 then c.defaultTTL else ttl), estimateSize value⟩)] ∧
      (c.set estimateSize now key value ttl).defaultTTL = c.defaultTTL ∧
      (c.set estimateSize now key value ttl).maxItems = c.maxItems ∧
      (c.set estimateSize now key value ttl).maxMemory = c.maxMemory := by
  have h := ((evictForMemory_shrinks _ now (estimateSize value)).trans
    (subtractExisting_shrinks _ key)).trans (evictForCount_shrinks c now)
  exact ⟨_, h, rfl, h.defaultTTL, h.maxItems, h.maxMemory⟩

/-- With a positive item bound, `Set` leaves at most `maxItems` entries. -/
theorem len_set_le (c : Cache V) (now : Int) (key : String) (value : V) (ttl : Int)
    (hm : 0 < c.maxItems) : ((c.set estimateSize now key value ttl).items.len : Int) ≤ c.maxItems := by
  have h1 := len_evictForCount_lt c now hm
  have h2 := ((evictForMemory_shrinks _ now (estimateSize value)).trans
    (subtractExisting_shrinks (c.evictForCount now) key)).len_le
  have h3 := List.length_filter_le (fun e : KeyItem V => e.1 != key)
    (((c.evictForCount now).subtractExisting key).evictForMemory now (estimateSize value)).items.entries
  simp only [set, ItemMap.len, ItemMap.entries_insert, List.length_append,
    List.length_singleton] at h1 h2 ⊢
  omega

/-- `Get(key)`: the value, unless absent or `now.After(item.expiresAt)`. -/
def get (c : Cache V) (now : Int) (key : String) : Option V :=
  match c.items.lookup key with
  | none => none
  | some it => if it.expiresAt < now then none else some it.value

/-- `Delete(key)`. -/
def delete (c : Cache V) (key : String) : Cache V :=
  match c.items.lookup key with
  | some it => { c.assignSize (c.currentSize - it.size) with items := c.items.erase key }
  | none => c

/-- `Clear()`. -/
def clear (c : Cache V) : Cache V :=
  { c with items := ItemMap.empty, currentSize := 0, currentSize_inInt64 := by decide }

/-- One pass of the loop in `cleanup`: delete every expired entry. It leaves
`currentSize` as it is. -/
def cleanup (c : Cache V) (now : Int) : Cache V :=
  { c with items := c.items.filter fun e => !expired now e }

theorem delete_shrinks (c : Cache V) (key : String) : (c.delete key).Shrinks c := by
  unfold delete; split
  · exact ⟨List.filter_sublist _, rfl, rfl, rfl⟩
  · exact Shrinks.refl c

theorem mem_delete {c : Cache V} {key : String} {e : KeyItem V}
    (h : e ∈ (c.delete key).items.entries) : e ∈ c.items.entries ∧ e.1 ≠ key := by
  unfold delete at h
  split at h
  · simpa using h
  · rename_i hn
    exact ⟨h, ItemMap.lookup_eq_none.1 hn e h⟩

theorem clear_shrinks (c : Cache V) : c.clear.Shrinks c :=
  ⟨List.nil_sublist _, rfl, rfl, rfl⟩

theorem cleanup_shrinks (c : Cache V) (now : Int) : (c.cleanup now).Shrinks c :=
  ⟨List.filter_sublist _, rfl, rfl, rfl⟩

/-- The map returned by `Stats()`. -/
structure Stats where
  totalItems : Nat
  expiredItems : Nat
  activeItems : Int
  memoryUsedMB : Int
  memoryLimitMB : Int
  memoryUsedBytes : Int
  deriving DecidableEq, Repr

/-- `Stats()`; Go's `/` truncates toward zero. -/
def stats (c : Cache V) (now : Int) : Stats :=
  let expiredCount := (c.items.entries.filter (expired now)).length
  { totalItems := c.items.len, expiredItems := expiredCount,
    activeItems := (c.items.len : Int) - expiredCount,
    memoryUsedMB := c.currentSize.tdiv (1024 * 1024),
    memoryLimitMB := c.maxMemory.tdiv (1024 * 1024),
    memoryUsedBytes := c.currentSize }

/-- `Stats` counts as expired exactly the entries a sweep at the same instant deletes, and
as active the ones it keeps. -/
theorem stats_expired_cleanup (c : Cache V) (now : Int) :
    (c.stats now).expiredItems + (c.cleanup now).items.len = c.items.len ∧
      (c.stats now).activeItems = (c.cleanup now).items.len := by
  have h := List.length_eq_length_filter_add (l := c.items.entries) (expired now)
  simp only [stats, cleanup, ItemMap.len, ItemMap.entries_filter] at h ⊢
  omega

/-- `Get` of a stored key answers from its entry. -/
theorem get_of_mem {c : Cache V} {e : KeyItem V} (he : e ∈ c.items.entries) (now : Int) :
    c.get now e.1 = if expired now e then none else some e.2.value := by
  simp [get, ItemMap.lookup_of_mem he, expired]

/-- `Stats` counts as active exactly the stored keys that `Get` at the same instant returns a
value for, and as expired the stored keys it refuses. -/
theorem stats_get (c : Cache V) (now : Int) :
    (c.stats now).activeItems =
      ((c.items.entries.map Prod.fst).filter fun k => (c.get now k).isSome).length ∧
    (c.stats now).expiredItems =
      ((c.items.entries.map Prod.fst).filter fun k => (c.get now k).isNone).length := by
  have hg : ∀ e ∈ c.items.entries, (c.get now e.1).isSome = !expired now e ∧
      (c.get now e.1).isNone = expired now e := fun e he => by
    rw [get_of_mem he]; cases expired now e <;> exact ⟨rfl, rfl⟩
  rw [List.filter_map, List.filter_map, List.length_map, List.length_map,
    (stats_expired_cleanup c now).2]
  exact ⟨congrArg (fun l : List (KeyItem V) => (l.length : Int))
      (List.filter_congr fun e he => (hg e he).1.symm),
    congrArg List.length (List.filter_congr fun e he => (hg e he).2.symm)⟩

end Ops

end Cache

/-- A call on the store. -/
inductive Op (V : Type)
  | set (key : String) (value : V) (ttl : Int)
  | get (key : String)
  | delete (key : String)
  | clear
  | cleanup
  deriving DecidableEq, Repr

namespace Cache

variable {V : Type} (estimateSize : V → Int)

/-- Run one call at clock reading `now`. -/
def exec (c : Cache V) (now : Int) : Op V → Cache V
  | .set key value ttl => c.set estimateSize now key value ttl
  | .get _ => c
  | .delete key => c.delete key
  | .clear => c.clear
  | .cleanup => c.cleanup now

/-- Run calls one after another. -/
def run (c : Cache V) (h : List (Int × Op V)) : Cache V :=
  h.foldl (fun c x => c.exec estimateSize x.1 x.2) c

/-- `c` is reached from `c₀` through the calls `h`, oldest first, the map being visited in
any order. -/
inductive Reach (c₀ : Cache V) : List (Int × Op V) → Cache V → Prop
  | init : Reach c₀ [] c₀
  | step {h : List (Int × Op V)} {c : Cache V} (now : Int) (op : Op V) :
      Reach c₀ h c → Reach c₀ (h ++ [(now, op)]) (c.exec estimateSize now op)
  | reorder {h : List (Int × Op V)} {c : Cache V} (l : List (KeyItem V))
      (hl : l ~ c.items.entries) :
      Reach c₀ h c → Reach c₀ h { c with items := c.items.reorder l hl }

/-- `Reach` through calls each of which `ok` allows in the state it is made in. -/
inductive ReachIf (ok : Cache V → Op V → Prop) (c₀ : Cache V) :
    List (Int × Op V) → Cache V → Prop
  | init : ReachIf ok c₀ [] c₀
  | step {h : List (Int × Op V)} {c : Cache V} (now : Int) (op : Op V) (hok : ok c op) :
      ReachIf ok c₀ h c → ReachIf ok c₀ (h ++ [(now, op)]) (c.exec estimateSize now op)
  | reorder {h : List (Int × Op V)} {c : Cache V} (l : List (KeyItem V))
      (hl : l ~ c.items.entries) :
      ReachIf ok c₀ h c → ReachIf ok c₀ h { c with items := c.items.reorder l hl }

theorem ReachIf.reach {ok : Cache V → Op V → Prop} {c₀ c : Cache V} {h : List (Int × Op V)}
    (hr : ReachIf estimateSize ok c₀ h c) : Reach estimateSize c₀ h c := by
  induction hr with
  | init => exact .init
  | step now op _ _ ih => exact .step now op ih
  | reorder l hl _ ih => exact .reorder l hl ih

theorem reach_run (c₀ : Cache V) (h : List (Int × Op V)) :
    Reach estimateSize c₀ h (c₀.run estimateSize h) := by
  induction h using List.reverseRecOn with
  | nil => exact .init
  | append_singleton h x ih =>
    rw [run, List.foldl_append, List.foldl_cons, List.foldl_nil]
    exact .step x.1 x.2 ih

variable {estimateSize}

/-- An invariant that holds at `c₀`, after every call and under a change of map order holds
in every reachable state. -/
theorem Reach.inv {P : Cache V → Prop} {c₀ c : Cache V} {h : List (Int × Op V)}
    (hr : Reach estimateSize c₀ h c) (h0 : P c₀)
    (hstep : ∀ c now op, P c → P (c.exec estimateSize now op))
    (hre : ∀ (c : Cache V) l hl, P c → P { c with items := c.items.reorder l hl }) : P c := by
  induction hr with
  | init => exact h0
  | step now op _ ih => exact hstep _ now op ih
  | reorder l hl _ ih => exact hre _ l hl ih

/-- Every call but `Set` only deletes entries. -/
theorem exec_shrinks (c : Cache V) (now : Int) (op : Op V)
    (hop : ¬∃ key value ttl, op = .set key value ttl) : (c.exec estimateSize now op).Shrinks c := by
  cases op with
  | set key value ttl => exact absurd ⟨key, value, ttl, rfl⟩ hop
  | get _ => exact Shrinks.refl c
  | delete key => exact delete_shrinks c key
  | clear => exact clear_shrinks c
  | cleanup => exact cleanup_shrinks c now

/-- The settings never change along a run. -/
theorem Reach.settings {defaultTTL maxItems maxMemory : Int} {h : List (Int × Op V)}
    {c : Cache V} (hr : Reach estimateSize (empty defaultTTL maxItems maxMemory) h c) :
    c.defaultTTL = defaultTTL ∧ c.maxItems = maxItems ∧ c.maxMemory = maxMemory := by
  refine hr.inv (P := fun c => c.defaultTTL = defaultTTL ∧ c.maxItems = maxItems ∧
    c.maxMemory = maxMemory) ⟨rfl, rfl, rfl⟩ (fun c now op ⟨hd, hi, hm⟩ => ?_) (fun _ _ _ hc => hc)
  by_cases hs : ∃ key value ttl, op = .set key value ttl
  · obtain ⟨key, value, ttl, rfl⟩ := hs
    obtain ⟨_, _, _, hd', hi', hm'⟩ := set_spec estimateSize c now key value ttl
    exact ⟨hd'.trans hd, hi'.trans hi, hm'.trans hm⟩
  · have h : (c.exec estimateSize now op).Shrinks c := exec_shrinks c now op hs
    exact ⟨h.defaultTTL.trans hd, h.maxItems.trans hi, h.maxMemory.trans hm⟩

end Cache

end Pgweb
