import Mathlib.Data.List.Basic

/-!
# `GenerateKey`

`GenerateKey` appends `"|"` to each component, concatenates, hashes the UTF-8 bytes with
MD5 and prints the digest in hex. MD5 is the parameter `md5`; every fact here holds for
every hash function, because they are facts about the string that is hashed (`combine`).

The separator is not escaped, so `combine` forgets where a component containing `'|'`
ended: `["a|", "b"]` and `["a", "|b"]` hash the same string. On components free of `'|'`
it is injective (`combine_injective`). The hex text loses nothing of the digest, so two keys
are equal exactly when the digests are (`generateKey_eq_iff`).
-/

namespace Pgweb

/-- The loop `combined += comp + "|"`. -/
def combine (components : List String) : String :=
  components.foldl (fun combined comp => combined ++ (comp ++ "|")) ""

/-- A lowercase hex digit. -/
def hexDigit (n : Nat) : Char := Nat.digitChar n

/-- `fmt.Sprintf("%x", hash)`: two lowercase hex digits per byte. -/
def hexString (bytes : List UInt8) : String :=
  String.mk (bytes.flatMap fun b => [hexDigit (b.toNat / 16), hexDigit (b.toNat % 16)])

/-- `GenerateKey(components...)`. -/
def generateKey (md5 : List UInt8 → List UInt8) (components : List String) : String :=
  hexString (md5 (combine components).toUTF8.toList)

theorem foldl_combine (acc : String) (components : List String) :
    components.foldl (fun combined comp => combined ++ (comp ++ "|")) acc =
      acc ++ combine components := by
  induction components generalizing acc with
  | nil => exact (String.append_empty acc).symm
  | cons x xs ih =>
    have hc : combine (x :: xs) = x ++ "|" ++ combine xs := by
      show List.foldl _ ("" ++ (x ++ "|")) xs = _
      rw [ih, String.empty_append]
    rw [List.foldl_cons, ih, hc, String.append_assoc]

theorem combine_cons (x : String) (xs : List String) :
    combine (x :: xs) = x ++ "|" ++ combine xs := by
  show List.foldl _ ("" ++ (x ++ "|")) xs = _
  rw [foldl_combine, String.empty_append]

/-- The characters of `combine`: each component's followed by `'|'`. -/
theorem combine_data (components : List String) :
    (combine components).data = (components.map fun s => s.data ++ ['|']).flatten := by
  induction components with
  | nil => rfl
  | cons x xs ih => simp [combine_cons, ih]

/-- A prefix free of the separator is determined by where the separator first occurs. -/
theorem append_sep_inj {u v r r' : List Char} (hu : '|' ∉ u) (hv : '|' ∉ v)
    (h : u ++ '|' :: r = v ++ '|' :: r') : u = v ∧ r = r' := by
  induction u generalizing v with
  | nil =>
    cases v with
    | nil => simpa using h
    | cons y v => simp only [List.nil_append, List.cons_append, List.cons.injEq] at h
                  exact absurd (h.1 ▸ List.mem_cons_self _ _) hv
  | cons x u ih =>
    cases v with
    | nil => simp only [List.nil_append, List.cons_append, List.cons.injEq] at h
             exact absurd (h.1 ▸ List.mem_cons_self _ _) hu
    | cons y v =>
      simp only [List.cons_append, List.cons.injEq] at h
      obtain ⟨rfl, h⟩ := h
      have := ih (List.not_mem_of_not_mem_cons hu) (List.not_mem_of_not_mem_cons hv) h
      exact ⟨by rw [this.1], this.2⟩

/-- On components without `'|'`, the hashed string determines the components. -/
theorem combine_injective {xs ys : List String} (hx : ∀ s ∈ xs, '|' ∉ s.data)
    (hy : ∀ s ∈ ys, '|' ∉ s.data) (h : combine xs = combine ys) : xs = ys := by
  have hd := congrArg String.data h
  rw [combine_data, combine_data] at hd
  clear h
  induction xs generalizing ys with
  | nil =>
    cases ys with
    | nil => rfl
    | cons y ys => simp at hd
  | cons x xs ih =>
    cases ys with
    | nil => simp at hd
    | cons y ys =>
      simp only [List.map_cons, List.flatten_cons, List.append_assoc, List.singleton_append] at hd
      obtain ⟨h1, h2⟩ := append_sep_inj (hx x (List.mem_cons_self _ _))
        (hy y (List.mem_cons_self _ _)) hd
      rw [ih (fun s hs => hx s (List.mem_cons_of_mem _ hs))
        (fun s hs => hy s (List.mem_cons_of_mem _ hs)) h2, String.ext h1]

theorem combine_injective_ab : ["ab", "c"] = ["ab", "c"] :=
  @combine_injective ["ab", "c"] ["ab", "c"] (by decide) (by decide) rfl

/-- Two component lists with the same hashed string, so the same key. -/
theorem generateKey_separator_collision (md5 : List UInt8 → List UInt8) :
    ["a|", "b"] ≠ ["a", "|b"] ∧ combine ["a|", "b"] = combine ["a", "|b"] ∧
      generateKey md5 ["a|", "b"] = generateKey md5 ["a", "|b"] := by
  have h : combine ["a|", "b"] = combine ["a", "|b"] := by decide
  exact ⟨by decide, h, by rw [generateKey, h, generateKey]⟩

/-! ## Reading a key back

`%x` prints each byte of the digest as two lowercase hex digits, so the key reads back to the
digest (`unhex_hexString`), and two calls give the same key exactly when MD5 gives the same
digest (`generateKey_eq_iff`). -/

/-- The value of a lowercase hex digit. -/
def hexValue (c : Char) : Option Nat :=
  if '0' ≤ c ∧ c ≤ '9' then some (c.toNat - '0'.toNat)
  else if 'a' ≤ c ∧ c ≤ 'f' then some (c.toNat - 'a'.toNat + 10) else none

/-- A key read back: the byte values of its pairs of hex digits. -/
def unhex : List Char → Option (List Nat)
  | [] => some []
  | [_] => none
  | hi :: lo :: rest => do
    let h ← hexValue hi
    let l ← hexValue lo
    let bytes ← unhex rest
    pure ((h * 16 + l) :: bytes)

theorem hexValue_hexDigit : ∀ n, n < 16 → hexValue (hexDigit n) = some n
  | 0, _ | 1, _ | 2, _ | 3, _ | 4, _ | 5, _ | 6, _ | 7, _ | 8, _ | 9, _ | 10, _ | 11, _
  | 12, _ | 13, _ | 14, _ | 15, _ => by decide
  | _ + 16, h => absurd h (by omega)

theorem unhex_hexString (bytes : List UInt8) :
    unhex (hexString bytes).data = some (bytes.map UInt8.toNat) := by
  induction bytes with
  | nil => rfl
  | cons b bytes ih =>
    have hb : b.toNat < 256 := UInt8.toNat_lt_size b
    simp only [hexString, List.flatMap_cons, List.cons_append, List.nil_append] at ih ⊢
    simp [unhex, hexValue_hexDigit _ (show b.toNat / 16 < 16 by omega),
      hexValue_hexDigit _ (show b.toNat % 16 < 16 by omega), ih, Nat.div_add_mod']

/-- Two keys are equal iff MD5 agrees on the strings hashed. -/
theorem generateKey_eq_iff (md5 : List UInt8 → List UInt8) (xs ys : List String) :
    generateKey md5 xs = generateKey md5 ys ↔
      md5 (combine xs).toUTF8.toList = md5 (combine ys).toUTF8.toList := by
  refine ⟨fun h => ?_, congrArg hexString⟩
  have hd := congrArg (fun key => unhex key.data) h
  simp only [generateKey, unhex_hexString, Option.some.injEq] at hd
  exact List.map_injective_iff.2 (fun _ _ => UInt8.toNat.inj) hd

end Pgweb
