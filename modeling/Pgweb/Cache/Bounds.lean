import Pgweb.Cache.Expiry

/-!
# Bounds over runs

The item bound holds in every reachable state: the count block of `Set` leaves fewer than
`maxItems` entries and the insertion adds at most one (`len_set_le`); every other call only
deletes.

The memory bound holds as long as `currentSize` is the sum of the stored sizes: then the
memory block of `Set` frees enough, or everything (`total_le_maxMemory`). Two things break
that accounting. The sweep deletes expired entries and leaves `currentSize` as it was,
unlike `evictExpired`; `Set` subtracts a replaced entry's size and may then evict that same
entry and subtract it again. The runs at the end are the code at such inputs, with string
values (`stringSize`).

The two defects push `currentSize` opposite ways: with no sweep it never exceeds the stored
sizes (`currentSize_le_total`), and with no `Set` of a stored key it never falls below them,
so the memory bound holds with sweeps too (`total_le_maxMemory_of_fresh`).
-/

namespace Pgweb

open scoped List

namespace Cache

variable {V : Type}

/-! ## The item bound -/

/-- With `maxItems > 0`, no reachable state holds more than `maxItems` entries. -/
theorem len_le_maxItems {estimateSize : V → Int} {defaultTTL maxItems maxMemory : Int}
    {h : List (Int × Op V)} {c : Cache V} (hm : 0 < maxItems)
    (hr : Reach estimateSize (empty defaultTTL maxItems maxMemory) h c) :
    (c.items.len : Int) ≤ maxItems := by
  induction hr with
  | init => exact hm.le
  | @step h c now op hr ih =>
    have hc := (Reach.settings hr).2.1
    by_cases hs : ∃ key value ttl, op = .set key value ttl
    · obtain ⟨key, value, ttl, rfl⟩ := hs
      exact hc ▸ len_set_le estimateSize c now key value ttl (hc ▸ hm)
    · have h : (c.exec estimateSize now op).Shrinks c := exec_shrinks c now op hs
      exact le_trans (by exact_mod_cast h.len_le) ih
  | reorder l hl _ ih => simpa [ItemMap.len, hl.length_eq] using ih

theorem len_le_maxItems_two_sets :
    (((empty 0 1 0 : Cache String).run stringSize
      [(0, .set "a" "x" 0), (0, .set "b" "y" 0)]).items.len : Int) ≤ 1 :=
  len_le_maxItems (by decide) (reach_run _ _ _)

/-! ## Memory accounting

`drift c = currentSize - Σ sizes`. Deleting stored entries subtracts their sizes from
`currentSize` in `int64`. While the sizes are non-negative and the drift is an `int64`
(`Deletable`), no such subtraction wraps, and deleting keeps the drift. So do `Delete` and a
`Set` of a key that is not stored, as long as `currentSize + itemSize` fits; `Clear` resets
the drift, and the sweep raises it by the sizes it deletes. -/

/-- How far `currentSize` is from the sum of the stored sizes. -/
def drift (c : Cache V) : Int := c.currentSize - c.items.total

/-- No deletion of stored entries takes `currentSize` below `int64`. -/
structure Deletable (c : Cache V) : Prop where
  nonneg : ∀ e ∈ c.items.entries, 0 ≤ e.2.size
  drift_ge : -9223372036854775808 ≤ c.drift

theorem Deletable.shrinks {c c' : Cache V} (hd : c.Deletable) (hs : c'.Shrinks c)
    (hdr : c'.drift = c.drift) : c'.Deletable :=
  ⟨fun e he => hd.nonneg e (hs.sublist.subset he), hdr ▸ hd.drift_ge⟩

theorem drift_without {c : Cache V} (hd : c.Deletable) {a b : List (KeyItem V)}
    (h : c.items.entries ~ a ++ b) : (c.without a).drift = c.drift := by
  have hn : ∀ e ∈ a ++ b, 0 ≤ e.2.size := fun e he => hd.nonneg e (h.symm.subset he)
  have ha := sizeSum_nonneg fun e he => hn e (List.mem_append_left b he)
  have hb := sizeSum_nonneg fun e he => hn e (List.mem_append_right a he)
  have ht := sizeSum_perm h
  have hc := c.currentSize_inInt64
  have hdg := hd.drift_ge
  unfold InInt64 at hc
  simp only [drift, ItemMap.total, sizeSum_append] at hdg ht ⊢
  rw [without_currentSize, wrap64_of_inInt64 ⟨by omega, by omega⟩,
    sizeSum_perm (without_perm h)]
  omega

theorem drift_evictExpired {c : Cache V} (hd : c.Deletable) (now : Int) :
    (c.evictExpired now).drift = c.drift := by
  rw [evictExpired_eq]; exact drift_without hd (List.filter_append_perm _ _).symm

theorem drift_evictOldest {c : Cache V} (hd : c.Deletable) (count : Int) :
    (c.evictOldest count).drift = c.drift := by
  rw [evictOldest_eq]; exact drift_without hd (perm_take_append_drop c _)

theorem drift_evictOldestBySize {c : Cache V} (hd : c.Deletable) (target : Int) :
    (c.evictOldestBySize target).drift = c.drift := by
  rw [evictOldestBySize_eq]; exact drift_without hd (perm_take_append_drop c _)

theorem Deletable.evictExpired {c : Cache V} (hd : c.Deletable) (now : Int) :
    (c.evictExpired now).Deletable :=
  hd.shrinks (evictExpired_shrinks c now) (drift_evictExpired hd now)

theorem drift_evictToFitMemory {c : Cache V} (hd : c.Deletable) (now size : Int) :
    (c.evictToFitMemory now size).drift = c.drift := by
  unfold evictToFitMemory; dsimp only; split
  · rw [drift_evictOldestBySize (hd.evictExpired now), drift_evictExpired hd]
  · exact drift_evictExpired hd now

theorem drift_evictForCount {c : Cache V} (hd : c.Deletable) (now : Int) :
    (c.evictForCount now).drift = c.drift := by
  unfold evictForCount; split
  · dsimp only; split
    · rw [drift_evictOldest (hd.evictExpired now), drift_evictExpired hd]
    · exact drift_evictExpired hd now
  · rfl

theorem drift_evictForMemory {c : Cache V} (hd : c.Deletable) (now size : Int) :
    (c.evictForMemory now size).drift = c.drift := by
  unfold evictForMemory; split
  · exact drift_evictToFitMemory hd now size
  · rfl

theorem Deletable.evictForCount {c : Cache V} (hd : c.Deletable) (now : Int) :
    (c.evictForCount now).Deletable :=
  hd.shrinks (evictForCount_shrinks c now) (drift_evictForCount hd now)

theorem Deletable.currentSize_subtractExisting {c : Cache V} (hd : c.Deletable) (key : String) :
    (c.subtractExisting key).currentSize =
      c.currentSize - ((c.items.lookup key).map Item.size).getD 0 := by
  have ho := ItemMap.lookup_size_le hd.nonneg key
  have hc := c.currentSize_inInt64
  have hdg := hd.drift_ge
  unfold InInt64 at hc
  unfold drift at hdg
  rw [subtractExisting_currentSize, wrap64_of_inInt64 ⟨by omega, by omega⟩]

/-- On a key that is not stored, the count block keeps it absent and `Set` subtracts nothing. -/
theorem subtractExisting_evictForCount {c : Cache V} {key : String} (now : Int)
    (hk : c.items.lookup key = none) :
    (c.evictForCount now).items.lookup key = none ∧
      (c.evictForCount now).subtractExisting key = c.evictForCount now := by
  have h1 : (c.evictForCount now).items.lookup key = none :=
    ItemMap.lookup_eq_none.2 fun e he => ItemMap.lookup_eq_none.1 hk e
      ((evictForCount_shrinks c now).sublist.subset he)
  exact ⟨h1, by unfold subtractExisting; rw [h1]⟩

/-- `Set` of a key that is not stored keeps the drift, while `currentSize + itemSize` fits. -/
theorem drift_set (estimateSize : V → Int) {c : Cache V} (hd : c.Deletable) (now : Int)
    (key : String) (value : V) (ttl : Int) (hk : c.items.lookup key = none)
    (hv : 0 ≤ estimateSize value)
    (hs : c.currentSize + estimateSize value < 9223372036854775808) :
    (c.set estimateSize now key value ttl).drift = c.drift := by
  obtain ⟨h1, h2⟩ := subtractExisting_evictForCount now hk
  set c' := (c.evictForCount now).evictForMemory now (estimateSize value) with hc'
  have hsh : c'.Shrinks c := (evictForMemory_shrinks _ now _).trans (evictForCount_shrinks c now)
  have hdc : c'.drift = c.drift := by
    rw [hc', drift_evictForMemory (hd.evictForCount now), drift_evictForCount hd]
  have ht := sizeSum_le_of_sublist hsh.sublist hd.nonneg
  have h0 := sizeSum_nonneg (hd.shrinks hsh hdc).nonneg
  have hf : c'.items.entries.filter (fun e => e.1 != key) = c'.items.entries := by
    refine List.filter_eq_self.2 fun e he => ?_
    have := ItemMap.lookup_eq_none.1 h1 e
      ((evictForMemory_shrinks _ now (estimateSize value)).sublist.subset he)
    simpa using this
  have hdg := hd.drift_ge
  simp only [drift, ItemMap.total] at hdc hdg ⊢
  simp only [set, h2, ← hc', assignSize_currentSize, ItemMap.entries_insert, hf, sizeSum_append,
    sizeSum_cons, sizeSum_nil]
  rw [wrap64_of_inInt64 ⟨by omega, by omega⟩]
  omega

/-- The insertion that ends `Set`, over the state the memory block leaves. -/
theorem set_sums (estimateSize : V → Int) (c : Cache V) (now : Int) (key : String) (value : V)
    (ttl : Int) :
    (c.set estimateSize now key value ttl).currentSize =
      wrap64 ((((c.evictForCount now).subtractExisting key).evictForMemory now
        (estimateSize value)).currentSize + estimateSize value) ∧
    (c.set estimateSize now key value ttl).items.total =
      (((c.evictForCount now).subtractExisting key).evictForMemory now
        (estimateSize value)).items.total -
      (((((c.evictForCount now).subtractExisting key).evictForMemory now
        (estimateSize value)).items.lookup key).map Item.size).getD 0 + estimateSize value := by
  refine ⟨rfl, ?_⟩
  rw [← ItemMap.sizeSum_filter_ne]
  simp only [set, ItemMap.total, ItemMap.entries_insert, sizeSum_append, sizeSum_cons,
    sizeSum_nil, Int.add_zero]

/-- `Set` never raises the drift, and lowers `drift - Σ sizes` by at most the new size. -/
theorem drift_set_le (estimateSize : V → Int) {c : Cache V}
    (hn : ∀ e ∈ c.items.entries, 0 ≤ e.2.size)
    (hd : -9223372036854775808 ≤ c.drift - c.items.total) (now : Int) (key : String)
    (value : V) (ttl : Int) (hv : 0 ≤ estimateSize value)
    (hs : c.currentSize + estimateSize value < 9223372036854775808) :
    (c.set estimateSize now key value ttl).drift ≤ c.drift ∧
      c.drift - c.items.total - estimateSize value ≤
        (c.set estimateSize now key value ttl).drift -
          (c.set estimateSize now key value ttl).items.total := by
  have h0 := sizeSum_nonneg hn
  have hD : c.Deletable := ⟨hn, by unfold ItemMap.total at hd; omega⟩
  have hD1 := hD.evictForCount now
  have hd1 := drift_evictForCount hD now
  have ht1 := sizeSum_le_of_sublist (evictForCount_shrinks c now).sublist hn
  have ho := ItemMap.lookup_size_le hD1.nonneg key
  have hi2 := subtractExisting_items (c.evictForCount now) key
  have hcs2 := hD1.currentSize_subtractExisting key
  have hD2 : ((c.evictForCount now).subtractExisting key).Deletable := by
    refine ⟨hi2 ▸ hD1.nonneg, ?_⟩
    simp only [drift, ItemMap.total, hi2, hcs2] at hd1 hd ho ⊢
    omega
  have hd3 := drift_evictForMemory hD2 now (estimateSize value)
  have hsub := (evictForMemory_shrinks ((c.evictForCount now).subtractExisting key) now
    (estimateSize value)).sublist
  rw [hi2] at hsub
  have h03 := sizeSum_nonneg fun e he => hD1.nonneg e (hsub.subset he)
  have ht3 := sizeSum_le_of_sublist hsub hD1.nonneg
  have hk := ItemMap.lookup_of_sublist hsub hD1.nonneg key
  obtain ⟨hcs, htot⟩ := set_sums estimateSize c now key value ttl
  simp only [drift, ItemMap.total, hi2, hcs2] at hd1 hd3 hd ho hk htot ⊢
  rw [hcs, wrap64_of_inInt64 ⟨by omega, by omega⟩]
  rcases hk with hk | ⟨hk, hk'⟩ <;>
    simp only [hk, Option.map_none', Option.getD_none] at htot <;> omega

/-- `Set` stores its estimate and otherwise only deletes. -/
theorem set_total_le (estimateSize : V → Int) {c : Cache V}
    (hn : ∀ e ∈ c.items.entries, 0 ≤ e.2.size) (now : Int) (key : String) (value : V)
    (ttl : Int) :
    (c.set estimateSize now key value ttl).items.total ≤ c.items.total + estimateSize value := by
  obtain ⟨c', hc', he, -⟩ := set_spec estimateSize c now key value ttl
  have := sizeSum_le_of_sublist (l := c'.items.entries.filter fun e => e.1 != key)
    ((List.filter_sublist _).trans hc'.sublist) hn
  rw [ItemMap.total, he]
  simp only [sizeSum_append, sizeSum_cons, sizeSum_nil]
  unfold ItemMap.total; omega

theorem set_size_nonneg (estimateSize : V → Int) {c : Cache V} (now : Int) (key : String)
    (value : V) (ttl : Int) (hn : ∀ e ∈ c.items.entries, 0 ≤ e.2.size)
    (hv : 0 ≤ estimateSize value) :
    ∀ e ∈ (c.set estimateSize now key value ttl).items.entries, 0 ≤ e.2.size := by
  obtain ⟨c', hc', he, -⟩ := set_spec estimateSize c now key value ttl
  intro e hmem
  rw [he] at hmem
  rcases List.mem_append.1 hmem with hmem | hmem
  · exact hn e (hc'.sublist.subset (List.mem_filter.1 hmem).1)
  · rw [List.mem_singleton.1 hmem]; exact hv

theorem delete_eq_without {c : Cache V} {key : String} {it : Item V}
    (h : c.items.lookup key = some it) : c.delete key = c.without [(key, it)] := by
  simp only [delete, h, without, sizeSum_cons, sizeSum_nil, Int.add_zero, List.map_cons,
    List.map_nil]
  congr 1
  ext1
  simp only [ItemMap.entries_erase, ItemMap.entries_filter, List.mem_singleton, decide_not]
  rfl

theorem drift_delete {c : Cache V} (hd : c.Deletable) (key : String) :
    (c.delete key).drift = c.drift := by
  classical
  cases h : c.items.lookup key with
  | none => simp [delete, h]
  | some it =>
    rw [delete_eq_without h]
    exact drift_without hd (List.perm_cons_erase (ItemMap.mem_of_lookup h))

theorem drift_clear (c : Cache V) : c.clear.drift = 0 := rfl

theorem drift_reorder (c : Cache V) (l : List (KeyItem V)) (hl : l ~ c.items.entries) :
    ({ c with items := c.items.reorder l hl } : Cache V).drift = c.drift :=
  congrArg (c.currentSize - ·) (sizeSum_perm hl)

/-- The sweep raises the drift by the sizes it deletes. -/
theorem drift_cleanup (c : Cache V) (now : Int) :
    (c.cleanup now).drift = c.drift + sizeSum (c.items.entries.filter (expired now)) := by
  have h := sizeSum_perm (List.filter_append_perm (expired now) c.items.entries)
  simp only [drift, ItemMap.total, cleanup, ItemMap.entries_filter, sizeSum_append] at h ⊢
  omega

/-! ## The memory block

With `currentSize` at least the stored sizes, the memory block of `Set` leaves them within
`maxMemory - itemSize`, or deletes every entry. -/

/-- `evictOldestBySize(b)` deletes a sorted prefix worth at least `b`, or every entry. -/
theorem evictOldestBySize_cases {c : Cache V} (hd : c.Deletable)
    (ht : c.items.total < 9223372036854775808) (b : Int) :
    (∃ p, b ≤ sizeSum ((sortByExpiry c.items.entries).take p) ∧
      (c.evictOldestBySize b).currentSize =
        c.currentSize - sizeSum ((sortByExpiry c.items.entries).take p)) ∨
      (c.evictOldestBySize b).items.entries = [] := by
  have hs := sizeSum_perm (sortByExpiry_perm c.items.entries)
  have hn : ∀ e ∈ sortByExpiry c.items.entries, 0 ≤ e.2.size :=
    fun e he => hd.nonneg e ((sortByExpiry_perm _).subset he)
  obtain ⟨p, -, -, hb, hp, -, hcs⟩ := evictOldestBySize_spec c b (inInt64_take hn (hs.trans_lt ht))
  rcases Nat.lt_or_ge p c.items.len with hlt | hge
  · refine .inl ⟨p, hb hlt, hcs.trans (wrap64_of_inInt64 ?_)⟩
    have h1 := sizeSum_le_of_sublist (List.take_sublist p _) hn
    have h0 := sizeSum_nonneg (l := (sortByExpiry c.items.entries).take p)
      fun e he => hn e (List.mem_of_mem_take he)
    have hc := c.currentSize_inInt64
    have hdg := hd.drift_ge
    unfold InInt64 at hc ⊢
    unfold drift ItemMap.total at hdg
    exact ⟨by omega, by omega⟩
  · rw [List.drop_of_length_le (by rwa [(sortByExpiry_perm _).length_eq])] at hp
    exact .inr (List.perm_nil.1 hp)

/-- `evictOldestBySize(b)` frees `b` bytes of `currentSize`, or empties the map. -/
theorem evictOldestBySize_frees {c : Cache V} (hd : c.Deletable)
    (ht : c.items.total < 9223372036854775808) (b : Int) :
    (c.evictOldestBySize b).currentSize ≤ c.currentSize - b ∨
      (c.evictOldestBySize b).items.total = 0 := by
  rcases evictOldestBySize_cases hd ht b with ⟨p, hb, hcs⟩ | he
  · exact .inl (by omega)
  · exact .inr (by rw [ItemMap.total, he, sizeSum_nil])

theorem evictToFitMemory_total {c : Cache V} (hd : 0 ≤ c.drift)
    (hn : ∀ e ∈ c.items.entries, 0 ≤ e.2.size) (now : Int) {n : Int} (h0 : 0 ≤ n)
    (hnm : n ≤ c.maxMemory) (hm : c.maxMemory < 9223372036854775808) :
    (c.evictToFitMemory now n).items.total ≤ c.maxMemory - n ∨
      (c.evictToFitMemory now n).items.total = 0 := by
  have hD : c.Deletable := ⟨hn, by omega⟩
  have hD1 := hD.evictExpired now
  have hd1 := drift_evictExpired hD now
  have ht1 := sizeSum_nonneg hD1.nonneg
  have hc := (c.evictExpired now).currentSize_inInt64
  unfold InInt64 at hc
  unfold evictToFitMemory; dsimp only
  rw [wrap64_of_inInt64 ⟨by omega, by omega⟩]; split
  · rename_i hlt
    have hd2 := drift_evictOldestBySize hD1 ((c.evictExpired now).currentSize - (c.maxMemory - n))
    unfold drift ItemMap.total at hd1 hd2 hd
    rw [wrap64_of_inInt64 ⟨by omega, by omega⟩]
    rcases evictOldestBySize_frees hD1 (by unfold ItemMap.total; omega)
      ((c.evictExpired now).currentSize - (c.maxMemory - n)) with h | h
    · left; unfold ItemMap.total; omega
    · exact .inr h
  · left; unfold drift ItemMap.total at hd1 hd; unfold ItemMap.total; omega

/-- The memory block of `Set` leaves room for the new item within `maxMemory`. -/
theorem evictForMemory_total {c : Cache V} (hd : 0 ≤ c.drift)
    (hn : ∀ e ∈ c.items.entries, 0 ≤ e.2.size) (now : Int) {n : Int} (hm : 0 < c.maxMemory)
    (h0 : 0 ≤ n) (hnm : n ≤ c.maxMemory) (hs : c.currentSize + n < 9223372036854775808) :
    (c.evictForMemory now n).items.total + n ≤ c.maxMemory := by
  have ht := sizeSum_nonneg hn
  unfold drift ItemMap.total at hd
  unfold evictForMemory
  rw [wrap64_of_inInt64 ⟨by omega, hs⟩]; split
  · rcases evictToFitMemory_total (by unfold drift ItemMap.total; omega) hn now h0 hnm
      (by omega) with h | h <;> omega
  · unfold ItemMap.total; omega

/-- `Set` of an absent key keeps the drift, and the stored sizes within `maxMemory`. -/
theorem set_fresh_total_le (estimateSize : V → Int) {c : Cache V} (hd : 0 ≤ c.drift)
    (hn : ∀ e ∈ c.items.entries, 0 ≤ e.2.size) (hm : 0 < c.maxMemory) (now : Int)
    (key : String) (value : V) (ttl : Int) (hk : c.items.lookup key = none)
    (hv : 0 ≤ estimateSize value) (hv' : estimateSize value ≤ c.maxMemory)
    (hs : c.currentSize + estimateSize value < 9223372036854775808) :
    (c.set estimateSize now key value ttl).drift = c.drift ∧
      (c.set estimateSize now key value ttl).items.total ≤ c.maxMemory := by
  have hD : c.Deletable := ⟨hn, by omega⟩
  obtain ⟨h1, h2⟩ := subtractExisting_evictForCount now hk
  have hc := (evictForCount_shrinks c now).maxMemory
  have hd1 := drift_evictForCount hD now
  have ht1 := sizeSum_le_of_sublist (evictForCount_shrinks c now).sublist hn
  set c' := (c.evictForCount now).evictForMemory now (estimateSize value) with hc'
  have hle : c'.items.total + estimateSize value ≤ c.maxMemory := by
    have := evictForMemory_total (hd1 ▸ hd) (hD.evictForCount now).nonneg now (hc ▸ hm) hv
      (hc ▸ hv') (by unfold drift ItemMap.total at hd1 hd; omega)
    rwa [hc] at this
  have hk' : c'.items.lookup key = none := ItemMap.lookup_eq_none.2 fun e he =>
    ItemMap.lookup_eq_none.1 h1 e ((evictForMemory_shrinks _ now _).sublist.subset he)
  have hf := ItemMap.sizeSum_filter_ne c'.items key
  rw [hk'] at hf
  refine ⟨drift_set estimateSize hD now key value ttl hk hv hs, ?_⟩
  simp only [ItemMap.total, Option.map_none', Option.getD_none, Int.sub_zero] at hf hle
  simp only [Cache.set, h2, ← hc', ItemMap.total, ItemMap.entries_insert, sizeSum_append,
    sizeSum_cons, sizeSum_nil, hf]
  omega

/-! ## The memory bound when the accounting is exact

With `currentSize` exact, the memory block of `Set` brings the stored sizes to at most
`maxMemory - itemSize`, or deletes every entry: so the bound holds in every run with no
sweep and no `Set` that replaces a stored key. -/

/-- A call of a tidy history after the calls `h`: no sweep, and a `Set` only of a key with
no live write and of a value whose estimate lies within `0..maxMemory`. -/
def tidyOp (estimateSize : V → Int) (maxMemory : Int) (h : List (Int × Op V)) : Op V → Prop
  | .set key value _ =>
    lastSet key h = none ∧ 0 ≤ estimateSize value ∧ estimateSize value ≤ maxMemory
  | .cleanup => False
  | .get _ | .delete _ | .clear => True

/-- A history every call of which is tidy. -/
inductive Tidy (estimateSize : V → Int) (maxMemory : Int) : List (Int × Op V) → Prop
  | nil : Tidy estimateSize maxMemory []
  | snoc {h : List (Int × Op V)} (now : Int) (op : Op V) :
      Tidy estimateSize maxMemory h → tidyOp estimateSize maxMemory h op →
        Tidy estimateSize maxMemory (h ++ [(now, op)])

theorem Tidy.of_snoc {estimateSize : V → Int} {maxMemory : Int} {h : List (Int × Op V)}
    {now : Int} {op : Op V} (ht : Tidy estimateSize maxMemory (h ++ [(now, op)])) :
    Tidy estimateSize maxMemory h ∧ tidyOp estimateSize maxMemory h op := by
  generalize hx : h ++ [(now, op)] = h' at ht
  cases ht with
  | nil => simp at hx
  | snoc now' op' ht hop =>
    obtain ⟨rfl, h2⟩ := List.append_inj' hx rfl
    simp only [List.cons.injEq, Prod.mk.injEq, and_true] at h2
    obtain ⟨rfl, rfl⟩ := h2
    exact ⟨ht, hop⟩

/-- The accounting is exact, every stored size is non-negative, and they sum to at most
`maxMemory`. -/
structure MemoryInv (maxMemory : Int) (c : Cache V) : Prop where
  maxMemory_eq : c.maxMemory = maxMemory
  exact : c.drift = 0
  nonneg : ∀ e ∈ c.items.entries, 0 ≤ e.2.size
  le : c.items.total ≤ maxMemory

section MemoryInv

variable {maxMemory : Int} {c : Cache V}

theorem MemoryInv.shrinks {c' : Cache V} (hi : MemoryInv maxMemory c) (hs : c'.Shrinks c)
    (hd : c'.drift = 0) : MemoryInv maxMemory c' :=
  ⟨hs.maxMemory.trans hi.maxMemory_eq, hd, fun e he => hi.nonneg e (hs.sublist.subset he),
    (sizeSum_le_of_sublist hs.sublist hi.nonneg).trans hi.le⟩

theorem MemoryInv.set (estimateSize : V → Int) (hi : MemoryInv maxMemory c) (hm : 0 < maxMemory)
    (hm' : maxMemory < 4611686018427387904) (now : Int) (key : String) (value : V) (ttl : Int)
    (hk : c.items.lookup key = none) (hv : 0 ≤ estimateSize value)
    (hv' : estimateSize value ≤ maxMemory) :
    MemoryInv maxMemory (c.set estimateSize now key value ttl) := by
  obtain ⟨-, -, -, -, -, hmm⟩ := set_spec estimateSize c now key value ttl
  have he := hi.exact
  have hl := hi.le
  unfold drift at he
  obtain ⟨hd, hle⟩ := set_fresh_total_le estimateSize (le_of_eq hi.exact.symm) hi.nonneg
    (hi.maxMemory_eq ▸ hm) now key value ttl hk hv (hi.maxMemory_eq ▸ hv') (by omega)
  exact ⟨hmm.trans hi.maxMemory_eq, hd.trans hi.exact,
    set_size_nonneg estimateSize now key value ttl hi.nonneg hv, hi.maxMemory_eq ▸ hle⟩

theorem MemoryInv.reorder (hi : MemoryInv maxMemory c) (l : List (KeyItem V))
    (hl : l ~ c.items.entries) : MemoryInv maxMemory { c with items := c.items.reorder l hl } :=
  ⟨hi.maxMemory_eq, (congrArg (c.currentSize - ·) (sizeSum_perm hl)).trans hi.exact,
    fun e he => hi.nonneg e (hl.subset he), (sizeSum_perm hl).trans_le hi.le⟩

end MemoryInv

/-- With no sweep, and each `Set` of a key with no live write, `currentSize` is the sum of
the stored sizes and stays within `maxMemory`. -/
theorem total_le_maxMemory {estimateSize : V → Int} {defaultTTL maxItems maxMemory : Int}
    {h : List (Int × Op V)} {c : Cache V} (hm : 0 < maxMemory)
    (hm' : maxMemory < 4611686018427387904)
    (hr : Reach estimateSize (empty defaultTTL maxItems maxMemory) h c)
    (ht : Tidy estimateSize maxMemory h) :
    c.currentSize = c.items.total ∧ c.items.total ≤ maxMemory := by
  suffices hi : MemoryInv maxMemory c from
    ⟨by have := hi.exact; unfold drift at this; omega, hi.le⟩
  induction hr with
  | init => exact ⟨rfl, rfl, by simp [empty, ItemMap.empty], hm.le⟩
  | @step h c now op hr ih =>
    obtain ⟨ht, hop⟩ := ht.of_snoc
    have hi := ih ht
    have hD : c.Deletable := ⟨hi.nonneg, by rw [hi.exact]; decide⟩
    cases op with
    | set key value ttl =>
      obtain ⟨hl, hv, hv'⟩ := hop
      refine hi.set estimateSize hm hm' now key value ttl
        (ItemMap.lookup_eq_none.2 fun e he hk => ?_) hv hv'
      obtain ⟨_, _, hs, -⟩ := mem_lastSet hr e he
      rw [hk, hl] at hs; cases hs
    | get key => exact hi
    | delete key => exact hi.shrinks (delete_shrinks c key) ((drift_delete hD key).trans hi.exact)
    | clear => exact hi.shrinks (clear_shrinks c) rfl
    | cleanup => exact hop.elim
  | reorder l hl _ ih => exact (ih ht).reorder l hl

theorem total_le_maxMemory_two_sets :
    ((empty 0 0 40 : Cache String).run stringSize
      [(0, .set "a" "aaaa" 10), (0, .set "b" "bbbb" 20)]).items.total ≤ 40 :=
  (total_le_maxMemory (by decide) (by decide) (reach_run _ _ _)
    (.snoc 0 (.set "b" "bbbb" 20) (.snoc 0 (.set "a" "aaaa" 10) .nil ⟨rfl, by decide, by decide⟩)
      ⟨rfl, by decide, by decide⟩)).2

/-- A sweep deletes an expired entry but keeps its size in `currentSize`. -/
theorem cleanup_keeps_size :
    ((new 300 : Cache String).run stringSize [(0, .set "a" "x" 100), (200, .cleanup)]).currentSize
      = 17 ∧
    ((new 300 : Cache String).run stringSize [(0, .set "a" "x" 100), (200, .cleanup)]).items.total
      = 0 := by
  decide

/-- Replacing `a` under memory pressure frees its size twice: the map then holds 44 bytes
under a 40-byte bound. -/
theorem set_replace_exceeds_maxMemory :
    stringSize "aaaa" = 20 ∧ stringSize "bbbb" = 20 ∧ stringSize "aaaaaaaa" = 24 ∧
    ((empty 0 0 40 : Cache String).run stringSize
      [(0, .set "a" "aaaa" 10), (0, .set "b" "bbbb" 20), (0, .set "a" "aaaaaaaa" 30)]).items.total
      = 44 := by
  decide

/-! ## Eviction of live entries -/

/-- On a full map with nothing expired, `Set` evicts the entry that expires first, even when it
replaces `key`. -/
theorem set_full_evicts_first (estimateSize : V → Int) {c : Cache V} {now : Int}
    {key : String} (value : V) (ttl : Int) (hm : 0 < c.maxItems)
    (hfull : c.maxItems ≤ c.items.len) (hlive : ∀ e ∈ c.items.entries, ¬e.2.expiresAt < now)
    {e : KeyItem V} (he : (sortByExpiry c.items.entries).head? = some e) (hk : e.1 ≠ key) :
    (c.set estimateSize now key value ttl).items.lookup e.1 = none := by
  have hx : c.evictExpired now = c := by
    rw [evictExpired_eq, List.filter_eq_nil_iff.2 fun x hx => by simpa [expired] using hlive x hx,
      without_nil]
  have hc : c.evictForCount now = c.evictOldest (c.items.len - c.maxItems + 1) := by
    unfold evictForCount; rw [if_pos ⟨hm, hfull⟩]; simp only [hx, if_pos hfull]
  obtain ⟨rest, hrest⟩ := List.head?_eq_some_iff.1 he
  obtain ⟨n, hn⟩ : ∃ n, ((c.items.len : Int) - c.maxItems + 1).toNat = n + 1 :=
    ⟨((c.items.len : Int) - c.maxItems).toNat, by omega⟩
  have hnd : ((e :: rest).map Prod.fst).Nodup :=
    hrest ▸ ((sortByExpiry_perm _).map Prod.fst).nodup_iff.2 c.items.nodup
  have hgone : (c.evictForCount now).items.lookup e.1 = none := by
    refine ItemMap.lookup_eq_none.2 fun x hx hxe => ?_
    have hx' := (evictOldest_perm c _).subset (hc ▸ hx)
    rw [hrest, hn, List.drop_succ_cons] at hx'
    exact (List.nodup_cons.1 hnd).1
      (List.mem_map.2 ⟨x, List.mem_of_mem_drop hx', hxe⟩)
  have hs := (evictForMemory_shrinks _ now (estimateSize value)).trans
    (subtractExisting_shrinks (c.evictForCount now) key)
  simp only [set, ItemMap.lookup_insert, if_neg hk]
  exact ItemMap.lookup_eq_none.2 fun x hx => ItemMap.lookup_eq_none.1 hgone x (hs.sublist.subset hx)

set_option maxRecDepth 4000 in
/-- Writing `a` again on a full map of `a` and `b` evicts the live `b`. -/
theorem set_again_evicts_other :
    ((newWithMaxItems 100 2 : Cache String).run stringSize
      [(0, .set "b" "y" 50), (0, .set "a" "x" 100)]).items.lookup "b" = some ⟨"y", 50, 17⟩ ∧
    (((newWithMaxItems 100 2 : Cache String).run stringSize
      [(0, .set "b" "y" 50), (0, .set "a" "x" 100)]).set stringSize 0 "a" "x" 100).items.lookup "b"
      = none := by
  decide

/-! ## Which way the accounting drifts

Only two calls move `currentSize` off the stored sizes: the sweep raises it, and a `Set`
lowers it when it evicts the item it replaces. So with no sweep `currentSize` never
overstates the memory in use, and with no `Set` of a stored key it never understates it:
the memory block then evicts at least what exact accounting would, and the bound holds in
every run, sweeps included. Both hold while the estimates the run stores sum below `2^63`,
so that nothing `currentSize` adds up wraps. -/

/-- The estimate a call stores: its value's for a `Set`, else none. -/
def opSize (estimateSize : V → Int) : Op V → Int
  | .set _ value _ => estimateSize value
  | .get _ | .delete _ | .clear | .cleanup => 0

/-- The estimates the `Set`s of a history store, summed. -/
def setSizes (estimateSize : V → Int) (h : List (Int × Op V)) : Int :=
  h.foldl (fun s x => s + opSize estimateSize x.2) 0

theorem setSizes_append (estimateSize : V → Int) (h : List (Int × Op V)) (now : Int) (op : Op V) :
    setSizes estimateSize (h ++ [(now, op)]) = setSizes estimateSize h + opSize estimateSize op := by
  simp [setSizes]

/-- A call of a run with no sweep whose `Set`s have non-negative estimates. -/
def unswept (estimateSize : V → Int) : Op V → Bool
  | .set _ value _ => decide (0 ≤ estimateSize value)
  | .cleanup => false
  | .get _ | .delete _ | .clear => true

theorem opSize_nonneg_of_unswept {estimateSize : V → Int} {op : Op V}
    (h : unswept estimateSize op = true) : 0 ≤ opSize estimateSize op := by
  cases op <;> simp_all [unswept, opSize]

/-- With no sweep, after calls storing the estimates `K`: `currentSize` does not exceed the
stored sizes, which are non-negative and at most `K`, and it falls short of them by at most
`K` less their sum. -/
structure Understated (K : Int) (c : Cache V) : Prop where
  nonneg : ∀ e ∈ c.items.entries, 0 ≤ e.2.size
  drift_le : c.drift ≤ 0
  slack : -K ≤ c.drift - c.items.total
  total_le : c.items.total ≤ K

section Understated

variable {K : Int} {c : Cache V}

theorem Understated.mono (hi : Understated K c) {K' : Int} (hK : K ≤ K') : Understated K' c :=
  ⟨hi.nonneg, hi.drift_le, by have := hi.slack; omega, hi.total_le.trans hK⟩

theorem Understated.shrinks {c' : Cache V} (hi : Understated K c) (hs : c'.Shrinks c)
    (hd : c'.drift ≤ 0) (hd' : c.drift ≤ c'.drift) : Understated K c' := by
  have ht := sizeSum_le_of_sublist hs.sublist hi.nonneg
  have hsl := hi.slack
  unfold ItemMap.total at hsl
  exact ⟨fun e he => hi.nonneg e (hs.sublist.subset he), hd, by unfold ItemMap.total; omega,
    ht.trans hi.total_le⟩

theorem Understated.set (estimateSize : V → Int) (hi : Understated K c) (now : Int)
    (key : String) (value : V) (ttl : Int) (hv : 0 ≤ estimateSize value)
    (hK : K + estimateSize value < 9223372036854775808) :
    Understated (K + estimateSize value) (c.set estimateSize now key value ttl) := by
  have h0 := sizeSum_nonneg hi.nonneg
  have hd := hi.drift_le
  have hsl := hi.slack
  have htl := hi.total_le
  unfold ItemMap.total at h0 htl hsl
  obtain ⟨h1, h2⟩ := drift_set_le estimateSize hi.nonneg (by unfold ItemMap.total; omega) now key
    value ttl hv (by unfold drift ItemMap.total at hd; omega)
  have h3 := set_total_le estimateSize hi.nonneg now key value ttl
  unfold ItemMap.total at h2 h3
  exact ⟨set_size_nonneg estimateSize now key value ttl hi.nonneg hv, by omega,
    by unfold ItemMap.total; omega, by unfold ItemMap.total; omega⟩

theorem Understated.reorder (hi : Understated K c) (l : List (KeyItem V))
    (hl : l ~ c.items.entries) : Understated K { c with items := c.items.reorder l hl } := by
  have := sizeSum_perm hl
  have := hi.slack
  exact ⟨fun e he => hi.nonneg e (hl.subset he), (drift_reorder c l hl).trans_le hi.drift_le,
    by rw [drift_reorder]; unfold ItemMap.total at *; simp only [ItemMap.entries_reorder]; omega,
    (sizeSum_perm hl).trans_le hi.total_le⟩

end Understated

/-- With no sweep, `currentSize` never exceeds the sum of the stored sizes. -/
theorem currentSize_le_total {estimateSize : V → Int} {defaultTTL maxItems maxMemory : Int}
    {h : List (Int × Op V)} {c : Cache V}
    (hr : Reach estimateSize (empty defaultTTL maxItems maxMemory) h c)
    (hh : ∀ x ∈ h, unswept estimateSize x.2 = true)
    (hk : setSizes estimateSize h < 9223372036854775808) : c.currentSize ≤ c.items.total := by
  suffices hi : Understated (setSizes estimateSize h) c by
    have := hi.drift_le; unfold drift at this; omega
  induction hr with
  | init => exact ⟨fun e he => absurd he (List.not_mem_nil e), le_refl _, le_refl _, le_refl _⟩
  | @step h c now op _ ih =>
    have hop := hh (now, op) (List.mem_append_right _ (List.mem_singleton_self _))
    have h0 : 0 ≤ opSize estimateSize op := opSize_nonneg_of_unswept hop
    rw [setSizes_append] at hk ⊢
    have hi := ih (fun x hx => hh x (List.mem_append_left _ hx)) (by omega)
    have hD : c.Deletable := ⟨hi.nonneg, by
      have := hi.slack; have := sizeSum_nonneg hi.nonneg; unfold ItemMap.total at *; omega⟩
    cases op with
    | set key value ttl => exact hi.set estimateSize now key value ttl h0 hk
    | get _ => exact hi.mono (by omega)
    | delete key =>
      have hd := drift_delete hD key
      exact (hi.shrinks (delete_shrinks c key) (hd ▸ hi.drift_le) hd.ge).mono (by omega)
    | clear => exact (hi.shrinks (clear_shrinks c) (le_refl 0) hi.drift_le).mono (by omega)
    | cleanup => cases hop
  | reorder l hl _ ih => exact (ih hh hk).reorder l hl

/-- `currentSize` is 24 while the map holds 44 bytes. -/
theorem currentSize_le_total_replace :
    ((empty 0 0 40 : Cache String).run stringSize
      [(0, .set "a" "aaaa" 10), (0, .set "b" "bbbb" 20), (0, .set "a" "aaaaaaaa" 30)]).currentSize ≤
    ((empty 0 0 40 : Cache String).run stringSize
      [(0, .set "a" "aaaa" 10), (0, .set "b" "bbbb" 20), (0, .set "a" "aaaaaaaa" 30)]).items.total :=
  currentSize_le_total (reach_run _ _ _) (by decide) (by decide)

/-- A call that, if a `Set`, writes a key the map does not hold, of a value whose estimate
lies within `0..maxMemory`. -/
def freshSet (estimateSize : V → Int) (maxMemory : Int) (c : Cache V) : Op V → Prop
  | .set key value _ =>
    c.items.lookup key = none ∧ 0 ≤ estimateSize value ∧ estimateSize value ≤ maxMemory
  | .get _ | .delete _ | .clear | .cleanup => True

/-- `currentSize` is at least the sum of the stored sizes, which are non-negative and sum to
at most `maxMemory`, and at most `K`. -/
structure MemoryBound (maxMemory K : Int) (c : Cache V) : Prop where
  maxMemory_eq : c.maxMemory = maxMemory
  over : 0 ≤ c.drift
  nonneg : ∀ e ∈ c.items.entries, 0 ≤ e.2.size
  le : c.items.total ≤ maxMemory
  size_le : c.currentSize ≤ K

section MemoryBound

variable {maxMemory K : Int} {c : Cache V}

theorem MemoryBound.mono (hi : MemoryBound maxMemory K c) {K' : Int} (hK : K ≤ K') :
    MemoryBound maxMemory K' c :=
  ⟨hi.maxMemory_eq, hi.over, hi.nonneg, hi.le, hi.size_le.trans hK⟩

theorem MemoryBound.shrinks {c' : Cache V} (hi : MemoryBound maxMemory K c) (hs : c'.Shrinks c)
    (hd : 0 ≤ c'.drift) (hc : c'.currentSize ≤ c.currentSize) : MemoryBound maxMemory K c' :=
  ⟨hs.maxMemory.trans hi.maxMemory_eq, hd, fun e he => hi.nonneg e (hs.sublist.subset he),
    (sizeSum_le_of_sublist hs.sublist hi.nonneg).trans hi.le, hc.trans hi.size_le⟩

theorem MemoryBound.set (estimateSize : V → Int) (hi : MemoryBound maxMemory K c)
    (hm : 0 < maxMemory) (now : Int) (key : String) (value : V) (ttl : Int)
    (hk : c.items.lookup key = none) (hv : 0 ≤ estimateSize value)
    (hv' : estimateSize value ≤ maxMemory) (hK : K + estimateSize value < 9223372036854775808) :
    MemoryBound maxMemory (K + estimateSize value) (c.set estimateSize now key value ttl) := by
  obtain ⟨-, -, -, -, -, hmm⟩ := set_spec estimateSize c now key value ttl
  have hcs := hi.size_le
  obtain ⟨hd, hle⟩ := set_fresh_total_le estimateSize hi.over hi.nonneg (hi.maxMemory_eq ▸ hm)
    now key value ttl hk hv (hi.maxMemory_eq ▸ hv') (by omega)
  have ht := set_total_le estimateSize hi.nonneg now key value ttl
  refine ⟨hmm.trans hi.maxMemory_eq, hd ▸ hi.over,
    set_size_nonneg estimateSize now key value ttl hi.nonneg hv, hi.maxMemory_eq ▸ hle, ?_⟩
  unfold drift at hd; omega

theorem MemoryBound.reorder (hi : MemoryBound maxMemory K c) (l : List (KeyItem V))
    (hl : l ~ c.items.entries) : MemoryBound maxMemory K { c with items := c.items.reorder l hl } :=
  ⟨hi.maxMemory_eq, (drift_reorder c l hl).symm ▸ hi.over,
    fun e he => hi.nonneg e (hl.subset he), (sizeSum_perm hl).trans_le hi.le, hi.size_le⟩

end MemoryBound

/-- When each `Set` writes a key the map does not hold, sweeps may inflate `currentSize`, never
the memory in use. -/
theorem total_le_maxMemory_of_fresh {estimateSize : V → Int}
    {defaultTTL maxItems maxMemory : Int} {h : List (Int × Op V)} {c : Cache V}
    (hm : 0 < maxMemory)
    (hr : ReachIf estimateSize (freshSet estimateSize maxMemory)
      (empty defaultTTL maxItems maxMemory) h c)
    (hk : setSizes estimateSize h < 9223372036854775808) :
    c.items.total ≤ c.currentSize ∧ c.items.total ≤ maxMemory := by
  suffices hi : MemoryBound maxMemory (setSizes estimateSize h) c from
    ⟨by have := hi.over; unfold drift at this; omega, hi.le⟩
  induction hr with
  | init => exact ⟨rfl, le_refl _, fun e he => absurd he (List.not_mem_nil e), hm.le, le_refl _⟩
  | @step h c now op hok _ ih =>
    have h0 : 0 ≤ opSize estimateSize op := by
      cases op <;> first | exact hok.2.1 | exact le_refl 0
    rw [setSizes_append] at hk ⊢
    have hi := ih (by omega)
    have hD : c.Deletable := ⟨hi.nonneg, by have := hi.over; omega⟩
    have ht := sizeSum_nonneg hi.nonneg
    cases op with
    | set key value ttl => exact hi.set estimateSize hm now key value ttl hok.1 hok.2.1 hok.2.2 hk
    | get _ => exact hi.mono (by omega)
    | delete key =>
      have hd := drift_delete hD key
      have ht' := sizeSum_le_of_sublist (delete_shrinks c key).sublist hi.nonneg
      refine (hi.shrinks (delete_shrinks c key) (hd ▸ hi.over) ?_).mono (by omega)
      unfold drift ItemMap.total at hd; omega
    | clear =>
      refine (hi.shrinks (clear_shrinks c) (le_refl _) ?_).mono (by omega)
      have := hi.over
      unfold drift ItemMap.total at this
      show (0 : Int) ≤ c.currentSize; omega
    | cleanup =>
      have hs := sizeSum_nonneg (l := c.items.entries.filter (expired now))
        fun e he => hi.nonneg e (List.mem_filter.1 he).1
      refine (hi.shrinks (cleanup_shrinks c now) ?_ (le_refl _)).mono (by omega)
      have := hi.over
      show 0 ≤ (c.cleanup now).drift
      rw [drift_cleanup]; omega
  | reorder l hl _ ih => exact (ih hk).reorder l hl

/-- A sweep keeps `a`'s 20 bytes in `currentSize`, and the next `Set` evicts what it can. -/
theorem total_le_maxMemory_after_sweep :
    ((empty 0 0 40 : Cache String).run stringSize
      [(0, .set "a" "aaaa" 10), (20, .cleanup), (20, .set "b" "bbbbbbbb" 100)]).items.total ≤
      ((empty 0 0 40 : Cache String).run stringSize
        [(0, .set "a" "aaaa" 10), (20, .cleanup), (20, .set "b" "bbbbbbbb" 100)]).currentSize ∧
    ((empty 0 0 40 : Cache String).run stringSize
      [(0, .set "a" "aaaa" 10), (20, .cleanup), (20, .set "b" "bbbbbbbb" 100)]).items.total ≤ 40 :=
  total_le_maxMemory_of_fresh (by decide)
    (.step 20 (.set "b" "bbbbbbbb" 100) ⟨by decide, by decide, by decide⟩
      (.step 20 .cleanup trivial (.step 0 (.set "a" "aaaa" 10) ⟨rfl, by decide, by decide⟩ .init)))
    (by decide)

end Cache

end Pgweb
