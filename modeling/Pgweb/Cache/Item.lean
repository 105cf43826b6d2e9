import Mathlib.Data.List.Nodup

/-!
# Cache entries and the item map

The store of `pkg/cache` is a Go `map[string]*item`. Here it is an association list
whose keys are distinct (`ItemMap.nodup`): the list order is the order in which
`range` visits the map, which the code never relies on except to break ties in the
eviction sort. Times are nanoseconds and sizes bytes, both as `Int` (`time.Time`,
`time.Duration` and `int64` in the source). Go's `int64` arithmetic wraps: a result is
`wrap64` of the exact one, which it equals whenever the exact one fits (`wrap64_of_inInt64`).
-/

namespace Pgweb

open scoped List

/-- Signed 64-bit wrap-around (`2^63 = 9223372036854775808`). -/
def wrap64 (z : Int) : Int :=
  (z + 9223372036854775808) % 18446744073709551616 - 9223372036854775808

/-- `z` is an `int64`. -/
def InInt64 (z : Int) : Prop := -9223372036854775808 ≤ z ∧ z < 9223372036854775808

instance (z : Int) : Decidable (InInt64 z) := inferInstanceAs (Decidable (_ ∧ _))

theorem inInt64_wrap64 (z : Int) : InInt64 (wrap64 z) := by
  unfold InInt64 wrap64; omega

theorem wrap64_of_inInt64 {z : Int} (h : InInt64 z) : wrap64 z = z := by
  unfold InInt64 at h; unfold wrap64; omega

theorem wrap64_sub_wrap64 (a b : Int) : wrap64 (wrap64 a - b) = wrap64 (a - b) := by
  unfold wrap64; omega

/-- An `item`: the cached value, its absolute expiry time and its estimated size. -/
structure Item (V : Type) where
  value : V
  expiresAt : Int
  size : Int
  deriving DecidableEq, Repr

/-- A `keyItem`: a key with its item, as the eviction functions collect them. -/
abbrev KeyItem (V : Type) := String × Item V

/-- The sum of the `size` fields of a list of entries. -/
def sizeSum {V : Type} : List (KeyItem V) → Int
  | [] => 0
  | e :: l => e.2.size + sizeSum l

section SizeSum

variable {V : Type}

@[simp] theorem sizeSum_nil : sizeSum ([] : List (KeyItem V)) = 0 := rfl

@[simp] theorem sizeSum_cons (e : KeyItem V) (l : List (KeyItem V)) :
    sizeSum (e :: l) = e.2.size + sizeSum l := rfl

@[simp] theorem sizeSum_append (l l' : List (KeyItem V)) :
    sizeSum (l ++ l') = sizeSum l + sizeSum l' := by
  induction l with
  | nil => simp
  | cons e l ih => simp [ih]; omega

theorem sizeSum_perm {l l' : List (KeyItem V)} (h : l ~ l') : sizeSum l = sizeSum l' := by
  induction h with
  | nil => rfl
  | cons e _ ih => simp [ih]
  | swap e e' l => simp; omega
  | trans _ _ ih ih' => exact ih.trans ih'

theorem sizeSum_le_of_sublist {l l' : List (KeyItem V)} (h : l <+ l')
    (hn : ∀ e ∈ l', 0 ≤ e.2.size) : sizeSum l ≤ sizeSum l' := by
  induction h with
  | slnil => exact le_refl _
  | cons e _ ih =>
    have := hn e (List.mem_cons_self _ _)
    have := ih fun x hx => hn x (List.mem_cons_of_mem _ hx)
    simp only [sizeSum_cons]; omega
  | cons₂ e _ ih =>
    have := ih fun x hx => hn x (List.mem_cons_of_mem _ hx)
    simp only [sizeSum_cons]; omega

theorem sizeSum_nonneg {l : List (KeyItem V)} (hn : ∀ e ∈ l, 0 ≤ e.2.size) : 0 ≤ sizeSum l :=
  sizeSum_le_of_sublist (List.nil_sublist l) hn

/-- With non-negative sizes summing below `2^63`, every prefix sum is an `int64`. -/
theorem inInt64_take {l : List (KeyItem V)} (hn : ∀ e ∈ l, 0 ≤ e.2.size)
    (ht : sizeSum l < 9223372036854775808) (q : Nat) : InInt64 (sizeSum (l.take q)) := by
  have h1 := sizeSum_le_of_sublist (List.take_sublist q l) hn
  have h0 := sizeSum_nonneg (l := l.take q) fun e he => hn e (List.mem_of_mem_take he)
  exact ⟨by omega, by omega⟩

end SizeSum

/-- A Go map from keys to items: at most one entry per key. -/
@[ext]
structure ItemMap (V : Type) where
  entries : List (KeyItem V)
  nodup : (entries.map Prod.fst).Nodup

namespace ItemMap

variable {V : Type}

/-- `make(map[string]*item)`. -/
def empty : ItemMap V := ⟨[], List.nodup_nil⟩

/-- `len(m)`. -/
def len (m : ItemMap V) : Nat := m.entries.length

/-- `m[key]`, with the `exists` flag as `Option`. -/
def lookup (m : ItemMap V) (key : String) : Option (Item V) :=
  (m.entries.find? fun e => e.1 == key).map Prod.snd

/-- The sum of the sizes of the entries in the map. -/
def total (m : ItemMap V) : Int := sizeSum m.entries

theorem nodup_keys_filter (l : List (KeyItem V)) (p : KeyItem V → Bool)
    (h : (l.map Prod.fst).Nodup) : ((l.filter p).map Prod.fst).Nodup :=
  h.sublist ((List.filter_sublist l).map _)

/-- The entries that satisfy `p`; every deleting loop of the source is one. -/
def filter (m : ItemMap V) (p : KeyItem V → Bool) : ItemMap V :=
  ⟨m.entries.filter p, nodup_keys_filter _ _ m.nodup⟩

/-- `delete(m, key)`. -/
def erase (m : ItemMap V) (key : String) : ItemMap V := m.filter fun e => e.1 != key

theorem nodup_keys_insert (l : List (KeyItem V)) (key : String) (it : Item V)
    (h : (l.map Prod.fst).Nodup) :
    ((l.filter (fun e => e.1 != key) ++ [(key, it)]).map Prod.fst).Nodup := by
  rw [List.map_append, List.nodup_append]
  refine ⟨nodup_keys_filter _ _ h, List.nodup_singleton _, ?_⟩
  simp only [List.map_cons, List.map_nil, List.disjoint_singleton, List.mem_map,
    List.mem_filter, bne_iff_ne, ne_eq, not_exists, not_and]
  intro e he hk
  exact he.2 hk

/-- `m[key] = it`: the entry of `key`, if any, is replaced. -/
def insert (m : ItemMap V) (key : String) (it : Item V) : ItemMap V :=
  ⟨m.entries.filter (fun e => e.1 != key) ++ [(key, it)], nodup_keys_insert _ _ _ m.nodup⟩

/-- The same map, visited in another order. -/
def reorder (m : ItemMap V) (l : List (KeyItem V)) (h : l ~ m.entries) : ItemMap V :=
  ⟨l, ((h.map Prod.fst).nodup_iff).2 m.nodup⟩

@[simp] theorem entries_empty : (empty : ItemMap V).entries = [] := rfl
@[simp] theorem entries_filter (m : ItemMap V) (p : KeyItem V → Bool) :
    (m.filter p).entries = m.entries.filter p := rfl
@[simp] theorem entries_erase (m : ItemMap V) (key : String) :
    (m.erase key).entries = m.entries.filter fun e => e.1 != key := rfl
@[simp] theorem entries_insert (m : ItemMap V) (key : String) (it : Item V) :
    (m.insert key it).entries = m.entries.filter (fun e => e.1 != key) ++ [(key, it)] := rfl
@[simp] theorem entries_reorder (m : ItemMap V) (l : List (KeyItem V)) (h : l ~ m.entries) :
    (m.reorder l h).entries = l := rfl

theorem mem_of_lookup {m : ItemMap V} {key : String} {it : Item V}
    (h : m.lookup key = some it) : (key, it) ∈ m.entries := by
  obtain ⟨e, he, rfl⟩ := Option.map_eq_some'.1 h
  have hk : e.1 = key := by simpa using List.find?_some he
  rw [← hk]
  exact List.mem_of_find?_eq_some he

theorem lookup_of_mem {m : ItemMap V} {key : String} {it : Item V}
    (h : (key, it) ∈ m.entries) : m.lookup key = some it := by
  cases he : m.entries.find? (fun e => e.1 == key) with
  | none => exact absurd (List.find?_eq_none.1 he _ h) (by simp)
  | some e =>
  have hk : e.1 = key := by simpa using List.find?_some he
  have hmem := List.mem_of_find?_eq_some he
  have : e = (key, it) := List.inj_on_of_nodup_map m.nodup hmem h hk
  simp [lookup, he, this]

theorem lookup_eq_some {m : ItemMap V} {key : String} {it : Item V} :
    m.lookup key = some it ↔ (key, it) ∈ m.entries :=
  ⟨mem_of_lookup, lookup_of_mem⟩

theorem lookup_eq_none {m : ItemMap V} {key : String} :
    m.lookup key = none ↔ ∀ e ∈ m.entries, e.1 ≠ key := by
  simp [lookup]

theorem lookup_congr {m m' : ItemMap V} {key : String}
    (h : ∀ it, (key, it) ∈ m.entries ↔ (key, it) ∈ m'.entries) : m.lookup key = m'.lookup key :=
  Option.ext fun it => by simp only [Option.mem_def, lookup_eq_some, h]

@[simp] theorem lookup_empty (key : String) : (empty : ItemMap V).lookup key = none := rfl

@[simp] theorem lookup_filter (m : ItemMap V) (p : KeyItem V → Bool) (key : String) :
    (m.filter p).lookup key = (m.lookup key).filter fun it => p (key, it) :=
  Option.ext fun it => by
    simp only [Option.mem_def, lookup_eq_some, Option.filter_eq_some, entries_filter,
      List.mem_filter]

@[simp] theorem lookup_insert (m : ItemMap V) (key k : String) (it : Item V) :
    (m.insert key it).lookup k = if k = key then some it else m.lookup k := by
  refine Option.ext fun it' => ?_
  by_cases hk : k = key
  · subst hk
    rw [Option.mem_def, Option.mem_def, lookup_eq_some, if_pos rfl, Option.some_inj]
    simp [eq_comm]
  · rw [Option.mem_def, Option.mem_def, lookup_eq_some, if_neg hk, lookup_eq_some]
    simp [hk]

@[simp] theorem lookup_erase (m : ItemMap V) (key k : String) :
    (m.erase key).lookup k = if k = key then none else m.lookup k := by
  rw [erase, lookup_filter]
  by_cases hk : k = key <;> cases m.lookup k <;> simp [hk]

@[simp] theorem lookup_reorder (m : ItemMap V) (l : List (KeyItem V)) (h : l ~ m.entries)
    (key : String) : (m.reorder l h).lookup key = m.lookup key :=
  lookup_congr fun _ => h.mem_iff

/-- Removing a sub-list `a` of a permutation `a ++ b` of the entries leaves a permutation of `b`. -/
theorem filter_keys_perm {m : ItemMap V} {a b : List (KeyItem V)} (h : m.entries ~ a ++ b) :
    m.entries.filter (fun e => e.1 ∉ a.map Prod.fst) ~ b := by
  have hn : ((a ++ b).map Prod.fst).Nodup := ((h.map Prod.fst).nodup_iff).1 m.nodup
  rw [List.map_append, List.nodup_append] at hn
  refine (h.filter _).trans ?_
  rw [List.filter_append, List.filter_eq_nil_iff.2, List.filter_eq_self.2, List.nil_append]
  · intro e he
    simp only [decide_eq_true_eq]
    exact fun ha => hn.2.2 ha (List.mem_map_of_mem _ he)
  · intro e he
    simp only [decide_eq_true_eq, not_not]
    exact List.mem_map_of_mem _ he

/-- The entries other than `key`'s sum to the total less the size of `key`'s item, if any. -/
theorem sizeSum_filter_ne (m : ItemMap V) (key : String) :
    sizeSum (m.entries.filter fun e => e.1 != key) =
      m.total - ((m.lookup key).map Item.size).getD 0 := by
  cases h : m.lookup key with
  | none =>
    rw [List.filter_eq_self.2 fun e he => by simpa using lookup_eq_none.1 h e he]
    simp [total]
  | some it =>
    classical
    have hp := List.perm_cons_erase (mem_of_lookup h)
    have hf := filter_keys_perm (a := [(key, it)]) hp
    rw [total, sizeSum_perm hp, sizeSum_cons, ← sizeSum_perm hf]
    simp only [List.map_cons, List.map_nil, List.mem_singleton, decide_not, Option.map_some',
      Option.getD_some]
    show _ = it.size + sizeSum (m.entries.filter fun e => e.1 != key) - it.size
    omega

theorem lookup_size_le {m : ItemMap V} (hn : ∀ e ∈ m.entries, 0 ≤ e.2.size) (key : String) :
    0 ≤ ((m.lookup key).map Item.size).getD 0 ∧ ((m.lookup key).map Item.size).getD 0 ≤ m.total := by
  have hf := sizeSum_filter_ne m key
  have h0 := sizeSum_nonneg (l := m.entries.filter fun e => e.1 != key)
    fun e he => hn e (List.mem_filter.1 he).1
  refine ⟨?_, by omega⟩
  cases hl : m.lookup key with
  | none => exact le_refl 0
  | some it => exact hn _ (mem_of_lookup hl)

/-- A sub-list keeps `key`'s item, or takes its size off the sum. -/
theorem lookup_of_sublist {m m' : ItemMap V} (h : m'.entries <+ m.entries)
    (hn : ∀ e ∈ m.entries, 0 ≤ e.2.size) (key : String) :
    m'.lookup key = m.lookup key ∨
      m'.lookup key = none ∧ m'.total + ((m.lookup key).map Item.size).getD 0 ≤ m.total := by
  cases h' : m'.lookup key with
  | some it => exact .inl (lookup_of_mem (h.subset (mem_of_lookup h'))).symm
  | none =>
    have hf : m'.entries.filter (fun e => e.1 != key) = m'.entries :=
      List.filter_eq_self.2 fun e he => by simpa using lookup_eq_none.1 h' e he
    have hsub : m'.entries <+ m.entries.filter fun e => e.1 != key := by
      rw [← hf]; exact h.filter _
    have hs := sizeSum_le_of_sublist hsub fun e he => hn e (List.mem_filter.1 he).1
    rw [sizeSum_filter_ne] at hs
    exact .inr ⟨rfl, by unfold total at hs ⊢; omega⟩

end ItemMap

end Pgweb
