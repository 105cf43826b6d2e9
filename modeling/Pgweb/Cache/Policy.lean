import Pgweb.Cache.Bounds

/-!
# What `Set` evicts

Two policies of `Set` that the bounds leave open. A value whose estimate exceeds
`maxMemory` is admitted: the memory block, asked to free more than the map holds, deletes
every other entry, and the value is stored over the bound (`set_oversized_evicts_all`).
And both eviction blocks start with `evictExpired`, so a `Set` deletes a live entry only
once no expired one is left (`set_evicts_expired_first`).
-/

namespace Pgweb

open scoped List

namespace Cache

variable {V : Type}

/-! ## A value larger than the bound

Asked to fit a value whose estimate exceeds `maxMemory`, the memory block must free more
than the map holds, so it deletes every entry; the value is stored anyway. The code admits
an oversized value and exceeds the bound by the excess. -/

/-- Asked to free more than the map holds, `evictOldestBySize` deletes every entry. -/
theorem evictOldestBySize_all {c : Cache V} (hd : c.Deletable)
    (ht : c.items.total < 9223372036854775808) {b : Int} (hb : c.items.total < b) :
    (c.evictOldestBySize b).items.entries = [] := by
  refine (evictOldestBySize_cases hd ht b).resolve_left fun ⟨p, hp, _⟩ => ?_
  have hperm := sortByExpiry_perm c.items.entries
  have := sizeSum_le_of_sublist (List.take_sublist p _) fun e he => hd.nonneg e (hperm.subset he)
  rw [sizeSum_perm hperm] at this
  exact absurd (hp.trans this) (not_le.2 hb)

theorem evictToFitMemory_all {c : Cache V} (hd : 0 ≤ c.drift)
    (hn : ∀ e ∈ c.items.entries, 0 ≤ e.2.size) (now : Int) {n : Int} (hm : 0 < c.maxMemory)
    (hmn : c.maxMemory < n) (hs : c.currentSize + n < 9223372036854775808) :
    (c.evictToFitMemory now n).items.entries = [] := by
  have hD : c.Deletable := ⟨hn, by omega⟩
  have hD1 := hD.evictExpired now
  have hd1 := drift_evictExpired hD now
  have ht := sizeSum_nonneg hn
  have ht1 := sizeSum_nonneg hD1.nonneg
  have ht2 := sizeSum_le_of_sublist (evictExpired_shrinks c now).sublist hn
  unfold drift ItemMap.total at hd hd1
  unfold evictToFitMemory; dsimp only
  rw [wrap64_of_inInt64 (z := c.maxMemory - n) ⟨by omega, by omega⟩, if_pos (by omega),
    wrap64_of_inInt64 ⟨by omega, by omega⟩]
  exact evictOldestBySize_all hD1 (by unfold ItemMap.total; omega) (by unfold ItemMap.total; omega)

/-- A `Set` whose estimate exceeds `maxMemory` deletes every other entry and stores the value
over the bound. -/
theorem set_oversized_evicts_all (estimateSize : V → Int) {c : Cache V} (now : Int)
    (key : String) (value : V) (ttl : Int) (hk : c.items.lookup key = none)
    (hm : 0 < c.maxMemory) (hv : c.maxMemory < estimateSize value) (hd : 0 ≤ c.drift)
    (hn : ∀ e ∈ c.items.entries, 0 ≤ e.2.size)
    (hs : c.currentSize + estimateSize value < 9223372036854775808) :
    (c.set estimateSize now key value ttl).items.entries =
      [(key, ⟨value, now + (if ttl = 0 then c.defaultTTL else ttl), estimateSize value⟩)] := by
  obtain ⟨-, h2⟩ := subtractExisting_evictForCount now hk
  have hD : c.Deletable := ⟨hn, by omega⟩
  have hsh := evictForCount_shrinks c now
  have hd1 := drift_evictForCount hD now
  have hd1' : 0 ≤ (c.evictForCount now).drift := hd1 ▸ hd
  have hn1 := (hD.evictForCount now).nonneg
  have ht := sizeSum_nonneg hn1
  have ht1 := sizeSum_le_of_sublist hsh.sublist hn
  have hm1 : (c.evictForCount now).maxMemory = c.maxMemory := hsh.maxMemory
  have he : ((c.evictForCount now).evictForMemory now (estimateSize value)).items.entries = [] := by
    unfold drift ItemMap.total at hd1 hd
    unfold evictForMemory
    rw [wrap64_of_inInt64 ⟨by omega, by omega⟩, if_pos ⟨hm1 ▸ hm, by omega⟩]
    exact evictToFitMemory_all hd1' hn1 now (hm1 ▸ hm) (hm1 ▸ hv) (by omega)
  show (((c.evictForCount now).subtractExisting key).evictForMemory now
    (estimateSize value)).items.entries.filter (fun e => e.1 != key) ++ _ = _
  rw [h2, he]; rfl

/-- A 48-byte value under a 40-byte bound replaces the 20-byte `a`. -/
theorem set_oversized_evicts_all_run :
    (((empty 0 0 40 : Cache String).run stringSize [(0, .set "a" "aaaa" 10)]).set stringSize 0 "b"
      "bbbbbbbbbbbbbbbbbbbbbbbbbbbbbbbb" 10).items.entries =
      [("b", ⟨"bbbbbbbbbbbbbbbbbbbbbbbbbbbbbbbb", 10, 48⟩)] :=
  (set_oversized_evicts_all stringSize 0 "b" _ 10 (by decide) (by decide) (by decide) (by decide)
    (by decide) (by decide)).trans (by decide)

/-! ## Expired entries go first

Both eviction blocks of `Set` start with `evictExpired` ("remove oldest expired items first",
"First try to remove expired items"). So a `Set` deletes only expired entries, or, if it
deletes a live one, it has deleted every expired one first. -/

/-- No entry of `c` has expired at `now`. -/
def NoneExpired (now : Int) (c : Cache V) : Prop := ∀ e ∈ c.items.entries, expired now e = false

/-- `c'` lacks only expired entries of `c`, or holds no expired entry. -/
def ExpiredFirst (now : Int) (c' c : Cache V) : Prop :=
  (∀ e ∈ c.items.entries, e ∉ c'.items.entries → expired now e = true) ∨ NoneExpired now c'

section ExpiredFirst

variable {now : Int}

theorem NoneExpired.shrinks {c c' : Cache V} (h : NoneExpired now c) (hs : c'.Shrinks c) :
    NoneExpired now c' := fun e he => h e (hs.sublist.subset he)

theorem ExpiredFirst.of_items {c c' : Cache V} (h : c'.items = c.items) : ExpiredFirst now c' c :=
  .inl fun _ he hn => absurd (h ▸ he) hn

theorem ExpiredFirst.trans {c c' c'' : Cache V} (h : ExpiredFirst now c'' c')
    (h' : ExpiredFirst now c' c) (hs : c''.Shrinks c') : ExpiredFirst now c'' c := by
  rcases h with h | h
  · rcases h' with h' | h'
    · refine .inl fun e he hn => ?_
      by_cases he' : e ∈ c'.items.entries
      · exact h e he' hn
      · exact h' e he he'
    · exact .inr (h'.shrinks hs)
  · exact .inr h

theorem noneExpired_evictExpired (c : Cache V) : NoneExpired now (c.evictExpired now) :=
  fun e he => by simpa using (List.mem_filter.1 ((evictExpired_perm c now).subset he)).2

theorem evictExpired_expiredFirst (c : Cache V) : ExpiredFirst now (c.evictExpired now) c :=
  .inl fun e he hn => by
    by_contra hx
    exact hn ((evictExpired_perm c now).symm.subset (List.mem_filter.2 ⟨he, by simpa using hx⟩))

theorem evictForCount_expiredFirst (c : Cache V) : ExpiredFirst now (c.evictForCount now) c := by
  unfold evictForCount; split
  · dsimp only; split
    · exact .inr ((noneExpired_evictExpired c).shrinks (evictOldest_shrinks _ _))
    · exact evictExpired_expiredFirst c
  · exact .of_items rfl

theorem evictForMemory_expiredFirst (c : Cache V) (n : Int) :
    ExpiredFirst now (c.evictForMemory now n) c := by
  unfold evictForMemory evictToFitMemory; split
  · dsimp only; split
    · exact .inr ((noneExpired_evictExpired c).shrinks (evictOldestBySize_shrinks _ _))
    · exact evictExpired_expiredFirst c
  · exact .of_items rfl

end ExpiredFirst

/-- `Set` deletes only expired entries, or leaves none expired but its own. -/
theorem set_evicts_expired_first (estimateSize : V → Int) (c : Cache V) (now : Int)
    (key : String) (value : V) (ttl : Int) :
    (∀ e ∈ c.items.entries, e.1 ≠ key →
      (c.set estimateSize now key value ttl).items.lookup e.1 = none → expired now e = true) ∨
    ∀ e ∈ (c.set estimateSize now key value ttl).items.entries, e.1 ≠ key →
      expired now e = false := by
  set c' := ((c.evictForCount now).subtractExisting key).evictForMemory now (estimateSize value)
  have h : ExpiredFirst now c' c :=
    (evictForMemory_expiredFirst _ _).trans
      ((ExpiredFirst.of_items (subtractExisting_items _ key)).trans (evictForCount_expiredFirst c)
        (subtractExisting_shrinks _ key)) (evictForMemory_shrinks _ now _)
  have hset : (c.set estimateSize now key value ttl).items.entries =
      c'.items.entries.filter (fun e => e.1 != key) ++
        [(key, ⟨value, now + (if ttl = 0 then c.defaultTTL else ttl), estimateSize value⟩)] := rfl
  rcases h with h | h
  · refine .inl fun e he hk hn => h e he fun he' => ?_
    refine ItemMap.lookup_eq_none.1 hn e ?_ rfl
    rw [hset]; exact List.mem_append_left _ (List.mem_filter.2 ⟨he', by simpa using hk⟩)
  · refine .inr fun e he hk => h e ?_
    rw [hset] at he
    rcases List.mem_append.1 he with he | he
    · exact (List.mem_filter.1 he).1
    · exact absurd (List.mem_singleton.1 he ▸ rfl) hk

end Cache

end Pgweb
