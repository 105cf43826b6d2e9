import Pgweb.Cache.Sort

/-!
# The cache and its eviction functions

`Cache` is the Go struct without its mutex: every function here runs with the lock held.
Each deleting loop of the source (`evictExpired`, the last loops of `evictOldest` and
`evictOldestBySize`) deletes a list of entries and subtracts each one's size from
`currentSize`, which is `Cache.without`: `foldl_removeEntry` says so once, and every
eviction function gets a spec equation in terms of it. The clock is the argument `now`, one
reading per operation.

`currentSize`, `freedBytes` and the memory targets are `int64`: each assignment wraps
(`assignSize`), and `currentSize` is an `int64` in every state (`currentSize_inInt64`).
Deleting entries subtracts their sizes modulo `2^64`; `evictOldestBySize` deletes the
shortest sorted prefix reaching its target only while no prefix sum leaves `int64`
(`evictOldestBySize_wraps`).
-/

namespace Pgweb

open scoped List

/-- A `Cache`: the item map, the default TTL, the two bounds (`0` is unlimited) and the
running total `currentSize`, an `int64`. -/
structure Cache (V : Type) where
  items : ItemMap V
  defaultTTL : Int
  maxItems : Int
  maxMemory : Int
  currentSize : Int
  currentSize_inInt64 : InInt64 currentSize

namespace Cache

variable {V : Type}

/-- An empty cache with the given TTL and bounds; the constructors differ only in these. -/
def empty (defaultTTL maxItems maxMemory : Int) : Cache V :=
  ⟨ItemMap.empty, defaultTTL, maxItems, maxMemory, 0, by decide⟩

/-- `New`. -/
def new (defaultTTL : Int) : Cache V := empty defaultTTL 500 (100 * 1024 * 1024)

/-- `NewWithMaxItems`. -/
def newWithMaxItems (defaultTTL maxItems : Int) : Cache V :=
  empty defaultTTL maxItems (100 * 1024 * 1024)

/-- `NewWithMemoryLimit`: `int64(maxMemoryMB) * 1024 * 1024` wraps. -/
def newWithMemoryLimit (defaultTTL maxMemoryMB : Int) : Cache V :=
  empty defaultTTL 10000 (wrap64 (maxMemoryMB * 1024 * 1024))

/-- `NewWithoutCleanup`. -/
def newWithoutCleanup (defaultTTL : Int) : Cache V := empty defaultTTL 500 (100 * 1024 * 1024)

/-- `now.After(item.expiresAt)`. -/
def expired (now : Int) (e : KeyItem V) : Bool := decide (e.2.expiresAt < now)

/-- `c.currentSize = z`, in `int64`. -/
def assignSize (c : Cache V) (z : Int) : Cache V :=
  { c with currentSize := wrap64 z, currentSize_inInt64 := inInt64_wrap64 z }

@[simp] theorem assignSize_items (c : Cache V) (z : Int) : (c.assignSize z).items = c.items := rfl
@[simp] theorem assignSize_currentSize (c : Cache V) (z : Int) :
    (c.assignSize z).currentSize = wrap64 z := rfl
@[simp] theorem assignSize_defaultTTL (c : Cache V) (z : Int) :
    (c.assignSize z).defaultTTL = c.defaultTTL := rfl
@[simp] theorem assignSize_maxItems (c : Cache V) (z : Int) :
    (c.assignSize z).maxItems = c.maxItems := rfl
@[simp] theorem assignSize_maxMemory (c : Cache V) (z : Int) :
    (c.assignSize z).maxMemory = c.maxMemory := rfl

/-- One iteration of a deleting loop: `c.currentSize -= item.size; delete(c.items, key)`. -/
def removeEntry (c : Cache V) (e : KeyItem V) : Cache V :=
  { c.assignSize (c.currentSize - e.2.size) with items := c.items.erase e.1 }

/-- The cache with the entries of `a` deleted and their sizes subtracted. -/
def without (c : Cache V) (a : List (KeyItem V)) : Cache V :=
  { c.assignSize (c.currentSize - sizeSum a) with
    items := c.items.filter (fun e => e.1 ∉ a.map Prod.fst) }

@[simp] theorem without_items (c : Cache V) (a : List (KeyItem V)) :
    (c.without a).items.entries = c.items.entries.filter (fun e => e.1 ∉ a.map Prod.fst) := rfl
@[simp] theorem without_currentSize (c : Cache V) (a : List (KeyItem V)) :
    (c.without a).currentSize = wrap64 (c.currentSize - sizeSum a) := rfl
@[simp] theorem without_defaultTTL (c : Cache V) (a : List (KeyItem V)) :
    (c.without a).defaultTTL = c.defaultTTL := rfl
@[simp] theorem without_maxItems (c : Cache V) (a : List (KeyItem V)) :
    (c.without a).maxItems = c.maxItems := rfl
@[simp] theorem without_maxMemory (c : Cache V) (a : List (KeyItem V)) :
    (c.without a).maxMemory = c.maxMemory := rfl

@[simp] theorem without_nil (c : Cache V) : c.without [] = c := by
  obtain ⟨items, _, _, _, size, hs⟩ := c
  simp only [without, assignSize, Cache.mk.injEq, sizeSum_nil, Int.sub_zero,
    wrap64_of_inInt64 hs, and_true]
  ext1; simp

theorem foldl_removeEntry (a : List (KeyItem V)) (c : Cache V) :
    a.foldl removeEntry c = c.without a := by
  induction a generalizing c with
  | nil => simp
  | cons e a ih =>
    rw [List.foldl_cons, ih]
    simp only [without, removeEntry, assignSize, sizeSum_cons, wrap64_sub_wrap64, Cache.mk.injEq,
      and_true, true_and]
    refine ⟨?_, by rw [Int.sub_sub]⟩
    ext1
    simp only [ItemMap.entries_filter, ItemMap.entries_erase, List.filter_filter,
      List.map_cons, List.mem_cons, not_or]
    congr 1
    funext x
    rw [Bool.decide_and, decide_not, decide_not, Bool.and_comm]; rfl

theorem without_sublist (c : Cache V) (a : List (KeyItem V)) :
    (c.without a).items.entries <+ c.items.entries := List.filter_sublist _

/-- Deleting the entries of `a` from a permutation of `a ++ b` leaves one of `b`. -/
theorem without_perm {c : Cache V} {a b : List (KeyItem V)} (h : c.items.entries ~ a ++ b) :
    (c.without a).items.entries ~ b := ItemMap.filter_keys_perm h

/-! ## `evictExpired` -/

/-- `evictExpired`: delete every expired entry. -/
def evictExpired (c : Cache V) (now : Int) : Cache V :=
  c.items.entries.foldl (fun c e => if expired now e then c.removeEntry e else c) c

theorem foldl_removeEntry_if (p : KeyItem V → Bool) (a : List (KeyItem V)) (c : Cache V) :
    a.foldl (fun c e => if p e then c.removeEntry e else c) c = (a.filter p).foldl removeEntry c := by
  induction a generalizing c with
  | nil => rfl
  | cons e a ih => by_cases h : p e <;> simp [List.filter_cons, h, ih]

theorem evictExpired_eq (c : Cache V) (now : Int) :
    c.evictExpired now = c.without (c.items.entries.filter (expired now)) := by
  rw [evictExpired, foldl_removeEntry_if, foldl_removeEntry]

theorem evictExpired_perm (c : Cache V) (now : Int) :
    (c.evictExpired now).items.entries ~ c.items.entries.filter (fun e => !expired now e) := by
  rw [evictExpired_eq]
  exact without_perm (List.filter_append_perm _ _).symm

/-! ## `evictOldest` -/

/-- `evictOldest(count)`: sort, then delete the first `count` entries. -/
def evictOldest (c : Cache V) (count : Int) : Cache V :=
  if count ≤ 0 then c else ((sortByExpiry c.items.entries).take count.toNat).foldl removeEntry c

/-- `evictOldest(count)` deletes the first `max count 0` entries of the sorted map. -/
theorem evictOldest_eq (c : Cache V) (count : Int) :
    c.evictOldest count = c.without ((sortByExpiry c.items.entries).take count.toNat) := by
  unfold evictOldest
  split
  · rw [show count.toNat = 0 by omega, List.take_zero, without_nil]
  · rw [foldl_removeEntry]

/-! ## `evictOldestBySize` -/

/-- The deleting loop of `evictOldestBySize`:
`for i := 0; i < len(items) && freedBytes < targetBytesToFree; i++`. -/
def evictUntil (target : Int) : Int → List (KeyItem V) → Cache V → Cache V
  | _, [], c => c
  | freed, e :: es, c =>
    if freed < target then evictUntil target (wrap64 (freed + e.2.size)) es (c.removeEntry e)
    else c

/-- `evictOldestBySize(targetBytesToFree)`: sort, then delete until enough is freed. -/
def evictOldestBySize (c : Cache V) (targetBytesToFree : Int) : Cache V :=
  if targetBytesToFree ≤ 0 then c
  else evictUntil targetBytesToFree 0 (sortByExpiry c.items.entries) c

/-- The number of entries the loop of `evictOldestBySize` deletes. -/
def cutLen (target : Int) : Int → List (KeyItem V) → Nat
  | _, [] => 0
  | freed, e :: es =>
    if freed < target then cutLen target (wrap64 (freed + e.2.size)) es + 1 else 0

theorem evictUntil_eq (target freed : Int) (es : List (KeyItem V)) (c : Cache V) :
    evictUntil target freed es c = (es.take (cutLen target freed es)).foldl removeEntry c := by
  induction es generalizing freed c with
  | nil => rfl
  | cons e es ih =>
    simp only [evictUntil, cutLen]
    split
    · rw [ih, List.take_succ_cons, List.foldl_cons]
    · rfl

/-- Without `int64` overflow the loop stops at the first prefix reaching the target, or at
the end. -/
theorem cutLen_spec (target freed : Int) (es : List (KeyItem V))
    (hr : ∀ q, InInt64 (freed + sizeSum (es.take q))) :
    cutLen target freed es ≤ es.length ∧
    (∀ q < cutLen target freed es, freed + sizeSum (es.take q) < target) ∧
    (cutLen target freed es < es.length →
      target ≤ freed + sizeSum (es.take (cutLen target freed es))) := by
  induction es generalizing freed with
  | nil => simp [cutLen]
  | cons e es ih =>
    have hw : wrap64 (freed + e.2.size) = freed + e.2.size := by
      simpa using wrap64_of_inInt64 (hr 1)
    simp only [cutLen, hw]
    split
    · rename_i h
      obtain ⟨h1, h2, h3⟩ := ih (freed + e.2.size) fun q => by
        simpa [Int.add_assoc] using hr (q + 1)
      refine ⟨by simpa using h1, fun q hq => ?_, fun hp => ?_⟩
      · cases q with
        | zero => simpa using h
        | succ q =>
          have := h2 q (by omega)
          simp only [List.take_succ_cons, sizeSum_cons]; omega
      · have := h3 (by simpa using hp)
        simp only [List.take_succ_cons, sizeSum_cons]; omega
    · rename_i h
      exact ⟨Nat.zero_le _, fun q hq => absurd hq (Nat.not_lt_zero q),
        fun _ => by simpa using not_lt.1 h⟩

theorem evictOldestBySize_eq (c : Cache V) (target : Int) :
    c.evictOldestBySize target = c.without ((sortByExpiry c.items.entries).take
      (if target ≤ 0 then 0 else cutLen target 0 (sortByExpiry c.items.entries))) := by
  unfold evictOldestBySize
  split
  · simp
  · rw [evictUntil_eq, foldl_removeEntry]

/-! ## What the two sorting evictions delete -/

/-- Every prefix of the sorted map expires no later than the rest of it. -/
theorem take_le_drop (l : List (KeyItem V)) (k : Nat) :
    ∀ x ∈ (sortByExpiry l).take k, ∀ y ∈ (sortByExpiry l).drop k, ExpiryLe x y := by
  have h := sortByExpiry_sorted l
  rw [← List.take_append_drop k (sortByExpiry l)] at h
  exact (List.pairwise_append.1 h).2.2

theorem perm_take_append_drop (c : Cache V) (k : Nat) :
    c.items.entries ~ (sortByExpiry c.items.entries).take k ++ (sortByExpiry c.items.entries).drop k := by
  rw [List.take_append_drop]
  exact (sortByExpiry_perm _).symm

/-- `evictOldest(count)` leaves the sorted map without its first `count` entries. -/
theorem evictOldest_perm (c : Cache V) (count : Int) :
    (c.evictOldest count).items.entries ~ (sortByExpiry c.items.entries).drop count.toNat := by
  rw [evictOldest_eq]
  exact without_perm (perm_take_append_drop c _)

theorem len_evictOldest (c : Cache V) (count : Int) :
    (c.evictOldest count).items.len = c.items.len - count.toNat := by
  rw [ItemMap.len, (evictOldest_perm c count).length_eq, List.length_drop,
    (sortByExpiry_perm _).length_eq, ItemMap.len]

/-- Without `int64` overflow, `evictOldestBySize(b)` deletes the shortest sorted prefix whose
sizes reach `b`, or all. -/
theorem evictOldestBySize_spec (c : Cache V) (b : Int)
    (hr : ∀ q, InInt64 (sizeSum ((sortByExpiry c.items.entries).take q))) :
    ∃ p, p ≤ c.items.len ∧
      (∀ q < p, sizeSum ((sortByExpiry c.items.entries).take q) < b) ∧
      (p < c.items.len → b ≤ sizeSum ((sortByExpiry c.items.entries).take p)) ∧
      (c.evictOldestBySize b).items.entries ~ (sortByExpiry c.items.entries).drop p ∧
      (∀ x ∈ (sortByExpiry c.items.entries).take p,
        ∀ y ∈ (c.evictOldestBySize b).items.entries, ExpiryLe x y) ∧
      (c.evictOldestBySize b).currentSize =
        wrap64 (c.currentSize - sizeSum ((sortByExpiry c.items.entries).take p)) := by
  have hlen : (sortByExpiry c.items.entries).length = c.items.len := (sortByExpiry_perm _).length_eq
  have hp : ∀ p, (c.without ((sortByExpiry c.items.entries).take p)).items.entries ~
      (sortByExpiry c.items.entries).drop p := fun p => without_perm (perm_take_append_drop c p)
  rw [evictOldestBySize_eq]
  refine ⟨if b ≤ 0 then 0 else cutLen b 0 (sortByExpiry c.items.entries), ?_, ?_, ?_, hp _,
    fun x hx y hy => take_le_drop _ _ x hx y ((hp _).subset hy), rfl⟩ <;>
  split <;> rename_i hb <;>
    have hc := cutLen_spec b 0 (sortByExpiry c.items.entries) (fun q => by simpa using hr q) <;>
  simp only [Int.zero_add, hlen] at hc
  · exact Nat.zero_le _
  · exact hc.1
  · intro q hq; omega
  · exact hc.2.1
  · intro _; simpa using hb
  · exact hc.2.2

/-- `evictToFitMemory(newItemSize)`: delete the expired entries, then the oldest until
`currentSize` is at most `maxMemory - newItemSize`. -/
def evictToFitMemory (c : Cache V) (now newItemSize : Int) : Cache V :=
  let targetSize := wrap64 (c.maxMemory - newItemSize)
  let c := c.evictExpired now
  if targetSize < c.currentSize then c.evictOldestBySize (wrap64 (c.currentSize - targetSize))
  else c

end Cache

end Pgweb
