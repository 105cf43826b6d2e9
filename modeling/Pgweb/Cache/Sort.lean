import Mathlib.Data.List.Sort
import Pgweb.Cache.Item

/-!
# The exchange sort of the eviction functions

`evictOldest` and `evictOldestBySize` copy the map into a slice of `keyItem`s and sort it
with the same nested loop:

    for i := 0; i < len(items); i++ {
        for j := i + 1; j < len(items); j++ {
            if items[i].item.expiresAt.After(items[j].item.expiresAt) {
                items[i], items[j] = items[j], items[i]
            }
        }
    }

`sortStep` is the body, `sortInner` the inner loop and `sortByExpiry` the outer one, folds
over the index ranges. The inner loop leaves at `i` a minimum of the suffix from `i`; the
outer loop keeps the prefix sorted and below the rest. The result is a permutation of the
input in ascending `expiresAt` order (`sortByExpiry_perm`, `sortByExpiry_sorted`).
-/

namespace Pgweb

open scoped List

variable {V : Type}

/-- `a.item.expiresAt.After(b.item.expiresAt)`. -/
def after (a b : KeyItem V) : Bool := decide (b.2.expiresAt < a.2.expiresAt)

/-- The loop body at `(i, j)`: swap the two entries when `items[i]` expires later. -/
def sortStep (i : Nat) (l : List (KeyItem V)) (j : Nat) : List (KeyItem V) :=
  match l[i]?, l[j]? with
  | some a, some b => if after a b then (l.set i b).set j a else l
  | _, _ => l

/-- The inner loop `for j := i + 1; j < len(items); j++`. -/
def sortInner (l : List (KeyItem V)) (i : Nat) : List (KeyItem V) :=
  (List.range' (i + 1) (l.length - (i + 1))).foldl (sortStep i) l

/-- The outer loop `for i := 0; i < len(items); i++`. -/
def sortByExpiry (l : List (KeyItem V)) : List (KeyItem V) :=
  (List.range l.length).foldl sortInner l

/-- Ascending expiry order. -/
def ExpiryLe (a b : KeyItem V) : Prop := a.2.expiresAt ≤ b.2.expiresAt

/-- The expiry time at position `i` (`0` past the end). -/
def expAt (l : List (KeyItem V)) (i : Nat) : Int := (l[i]?.map fun e => e.2.expiresAt).getD 0

/-! ## The swap -/

theorem set_set_perm {α : Type} {l : List α} {i j : Nat} {a b : α}
    (ha : l[i]? = some a) (hb : l[j]? = some b) : (l.set i b).set j a ~ l := by
  classical
  obtain ⟨hi, rfl⟩ := List.getElem?_eq_some_iff.1 ha
  obtain ⟨hj, rfl⟩ := List.getElem?_eq_some_iff.1 hb
  rw [List.perm_iff_count]
  intro x
  have hj' : j < (l.set i l[j]).length := by simpa using hj
  have hset : (l.set i l[j])[j] = l[j] := by rw [List.getElem_set]; split <;> simp_all
  rw [List.count_set _ _ _ _ hj', List.count_set _ _ _ _ hi, hset]
  have hc : (if l[i] == x then 1 else 0) ≤ l.count x := by
    split
    · rename_i h
      exact List.count_pos_iff.2 (beq_iff_eq.1 h ▸ List.getElem_mem hi)
    · exact Nat.zero_le _
  omega

theorem sortStep_perm (i : Nat) (l : List (KeyItem V)) (j : Nat) : sortStep i l j ~ l := by
  unfold sortStep
  split
  · rename_i ha hb
    split
    · exact set_set_perm ha hb
    · exact List.Perm.refl l
  · exact List.Perm.refl l

theorem getElem?_sortStep_of_ne {i j p : Nat} {l : List (KeyItem V)} (hi : p ≠ i) (hj : p ≠ j) :
    (sortStep i l j)[p]? = l[p]? := by
  unfold sortStep
  split
  · split
    · simp [List.getElem?_set, Ne.symm hi, Ne.symm hj]
    · rfl
  · rfl

theorem take_sortStep {i j k : Nat} {l : List (KeyItem V)} (hi : k ≤ i) (hj : k ≤ j) :
    (sortStep i l j).take k = l.take k := by
  apply List.ext_getElem?
  intro p
  rw [List.getElem?_take, List.getElem?_take]
  split
  · exact getElem?_sortStep_of_ne (by omega) (by omega)
  · rfl

theorem expAt_sortStep_of_ne {i j p : Nat} {l : List (KeyItem V)} (hi : p ≠ i) (hj : p ≠ j) :
    expAt (sortStep i l j) p = expAt l p := by
  simp only [expAt, getElem?_sortStep_of_ne hi hj]

/-- After the body at `(i, j)` position `i` expires no later than `j`, and no later
than it did before. -/
theorem expAt_sortStep {i j : Nat} {l : List (KeyItem V)} (hij : i ≠ j) (hi : i < l.length)
    (hj : j < l.length) :
    expAt (sortStep i l j) i ≤ expAt (sortStep i l j) j ∧
      expAt (sortStep i l j) i ≤ expAt l i := by
  simp only [sortStep, List.getElem?_eq_getElem hi, List.getElem?_eq_getElem hj]
  split
  · rename_i h
    simp only [after, decide_eq_true_eq] at h
    simp [expAt, List.getElem?_set, hij, Ne.symm hij, hi, hj]
    omega
  · rename_i h
    simp only [after, decide_eq_true_eq, not_lt] at h
    simp [expAt, hi, hj, h]

/-! ## The inner loop -/

theorem sortInner_fold (l : List (KeyItem V)) (i : Nat) (hi : i < l.length) :
    ∀ k, i + 1 + k ≤ l.length →
      (List.range' (i + 1) k).foldl (sortStep i) l ~ l ∧
      ((List.range' (i + 1) k).foldl (sortStep i) l).take i = l.take i ∧
      ∀ j, i < j → j < i + 1 + k →
        expAt ((List.range' (i + 1) k).foldl (sortStep i) l) i ≤
          expAt ((List.range' (i + 1) k).foldl (sortStep i) l) j
  | 0, _ => ⟨List.Perm.refl l, rfl, fun j h1 h2 => by omega⟩
  | k + 1, hk => by
    obtain ⟨hp, ht, ho⟩ := sortInner_fold l i hi k (by omega)
    rw [List.range'_concat, List.foldl_append, List.foldl_cons, List.foldl_nil, Nat.one_mul]
    set lk := (List.range' (i + 1) k).foldl (sortStep i) l
    have hlen : lk.length = l.length := hp.length_eq
    have hstep := expAt_sortStep (l := lk) (i := i) (j := i + 1 + k) (by omega) (by omega)
      (by omega)
    refine ⟨(sortStep_perm _ _ _).trans hp, (take_sortStep le_rfl (by omega)).trans ht, ?_⟩
    intro j h1 h2
    rcases Nat.lt_or_ge j (i + 1 + k) with hj | hj
    · rw [expAt_sortStep_of_ne (l := lk) (p := j) (by omega) (by omega)]
      exact hstep.2.trans (ho j h1 hj)
    · rw [show j = i + 1 + k by omega]
      exact hstep.1

/-- The inner loop at `i` permutes the list, keeps the first `i` entries and leaves at `i`
an entry that expires no later than any after it. -/
theorem sortInner_spec {l : List (KeyItem V)} {i : Nat} (hi : i < l.length) :
    sortInner l i ~ l ∧ (sortInner l i).take i = l.take i ∧
      ∀ j, i < j → j < l.length → expAt (sortInner l i) i ≤ expAt (sortInner l i) j := by
  obtain ⟨hp, ht, ho⟩ := sortInner_fold l i hi (l.length - (i + 1)) (by omega)
  exact ⟨hp, ht, fun j h1 h2 => ho j h1 (by omega)⟩

/-- The inner-loop order fact, over the entries after position `i`. -/
theorem sortInner_le_drop {l : List (KeyItem V)} {i : Nat} (hi : i < l.length) {y : KeyItem V}
    (hy : y ∈ (sortInner l i).drop (i + 1)) (hlt : i < (sortInner l i).length) :
    ExpiryLe (sortInner l i)[i] y := by
  obtain ⟨_, _, ho⟩ := sortInner_spec hi
  obtain ⟨p, hp⟩ := List.mem_iff_getElem?.1 hy
  rw [List.getElem?_drop] at hp
  have hlen := (sortInner_spec hi).1.length_eq
  have hlt' : i + 1 + p < l.length := by
    rw [← hlen]; exact (List.getElem?_eq_some_iff.1 hp).1
  have := ho (i + 1 + p) (by omega) hlt'
  simpa [expAt, hp, List.getElem?_eq_getElem hlt] using this

/-! ## The outer loop -/

theorem sortByExpiry_fold (l : List (KeyItem V)) :
    ∀ m, m ≤ l.length →
      (List.range m).foldl sortInner l ~ l ∧
      (((List.range m).foldl sortInner l).take m).Sorted ExpiryLe ∧
      ∀ x ∈ ((List.range m).foldl sortInner l).take m,
        ∀ y ∈ ((List.range m).foldl sortInner l).drop m, ExpiryLe x y
  | 0, _ => ⟨List.Perm.refl l, by simp, by simp⟩
  | m + 1, hm => by
    obtain ⟨hp, hs, hle⟩ := sortByExpiry_fold l m (by omega)
    rw [List.range_succ, List.foldl_append, List.foldl_cons, List.foldl_nil]
    set lm := (List.range m).foldl sortInner l
    have hlen : lm.length = l.length := hp.length_eq
    have hm' : m < lm.length := by omega
    obtain ⟨hp', ht', _⟩ := sortInner_spec hm'
    have hlt : m < (sortInner lm m).length := by rw [hp'.length_eq]; exact hm'
    have hdrop : (sortInner lm m).drop m ~ lm.drop m := by
      have h : (sortInner lm m).take m ++ (sortInner lm m).drop m ~ lm.take m ++ lm.drop m := by
        rw [List.take_append_drop, List.take_append_drop]; exact hp'
      rw [ht'] at h
      exact (List.perm_append_left_iff _).1 h
    have hcons := List.drop_eq_getElem_cons hlt
    have hmid : ∀ x ∈ lm.take m, ExpiryLe x (sortInner lm m)[m] := fun x hx =>
      hle x hx _ (hdrop.subset (hcons ▸ List.mem_cons_self _ _))
    rw [List.take_succ, List.getElem?_eq_getElem hlt, Option.toList_some, ht']
    refine ⟨hp'.trans hp, ?_, ?_⟩
    · exact List.pairwise_append.2 ⟨hs, List.pairwise_singleton _ _, fun x hx y hy => by
        rw [List.mem_singleton] at hy; exact hy ▸ hmid x hx⟩
    · intro x hx y hy
      rcases List.mem_append.1 hx with hx | hx
      · exact hle x hx _ (hdrop.subset (hcons ▸ List.mem_cons_of_mem _ hy))
      · rw [List.mem_singleton.1 hx]
        exact sortInner_le_drop hm' hy hlt

theorem sortByExpiry_perm (l : List (KeyItem V)) : sortByExpiry l ~ l :=
  (sortByExpiry_fold l l.length le_rfl).1

theorem sortByExpiry_sorted (l : List (KeyItem V)) : (sortByExpiry l).Sorted ExpiryLe := by
  have h := (sortByExpiry_fold l l.length le_rfl).2.1
  rwa [List.take_of_length_le (by rw [(sortByExpiry_fold l l.length le_rfl).1.length_eq])] at h

end Pgweb
