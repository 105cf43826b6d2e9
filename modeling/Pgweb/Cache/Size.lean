import Pgweb.Cache.Item

/-!
# `estimateSize`

A value is the dynamic content of an `interface{}` as far as `estimateSize` inspects it
through `reflect`: its kind and the one number the branch reads. A pointer names a variable
of a heap, and `v.Elem().Interface()` reads the variable back as a value, so pointers may
form cycles (`var x any; x = &x`, or `type P *P` with `p = &p`: both are a variable that
holds a pointer to itself).

The function recurses through the `reflect.Ptr` case. `estimateSize heap fuel v` is `none`
when the recursion has not returned within `fuel` nested calls; once it returns, more fuel
gives the same result (`estimateSize_succ`). It never returns exactly on a pointer into a
pointer cycle (`estimateSize_eq_none_iff`). Arithmetic is on `int64` (`wrap64`).
-/

namespace Pgweb

/-- What `reflect` shows `estimateSize` of a value. -/
inductive Value
  /-- `value == nil`. -/
  | nil
  | string (s : String)
  /-- A slice or an array: `v.Len()` and whether its elements are of interface kind. -/
  | slice (len : Nat) (elemInterface : Bool)
  | map (len : Nat)
  /-- A nil pointer, or a pointer to the variable at an address. -/
  | ptr (target : Option Nat)
  | struct (numField : Nat)
  /-- Every other kind. -/
  | other
  deriving DecidableEq, Repr

/-- The variables pointers point to: `v.Elem().Interface()` of a pointer to `a` is `heap a`. -/
abbrev Heap := Nat → Value

/-- `estimateSize(value)`, with at most `fuel` nested calls. -/
def estimateSize (heap : Heap) : Nat → Value → Option Int
  | 0, _ => none
  | _ + 1, .nil => some 8
  | _ + 1, .string s => some (wrap64 (s.utf8ByteSize + 16))
  | _ + 1, .slice n elemInterface =>
    let size := wrap64 (n * 8)
    let size := if 0 < n ∧ elemInterface then wrap64 (size * 4) else size
    some (wrap64 (size + 24))
  | _ + 1, .map n => some (wrap64 (n * 32))
  | _ + 1, .ptr none => some 8
  | fuel + 1, .ptr (some a) => (estimateSize heap fuel (heap a)).map fun r => wrap64 (8 + r)
  | _ + 1, .struct n => some (wrap64 (n * 16))
  | _ + 1, .other => some 16

/-- Once the recursion returns, more fuel gives the same estimate. -/
theorem estimateSize_succ {heap : Heap} :
    ∀ {fuel : Nat} {v : Value} {r : Int}, estimateSize heap fuel v = some r →
      estimateSize heap (fuel + 1) v = some r
  | 0, _, _, h => by simp [estimateSize] at h
  | fuel + 1, .ptr (some a), r, h => by
    obtain ⟨r', h', rfl⟩ := Option.map_eq_some'.1 h
    simp only [estimateSize, estimateSize_succ h', Option.map_some']
  | _ + 1, .nil, _, h | _ + 1, .string _, _, h | _ + 1, .slice _ _, _, h
  | _ + 1, .map _, _, h | _ + 1, .ptr none, _, h | _ + 1, .struct _, _, h
  | _ + 1, .other, _, h => h

theorem estimateSize_mono {heap : Heap} {fuel fuel' : Nat} {v : Value} {r : Int}
    (h : estimateSize heap fuel v = some r) (hf : fuel ≤ fuel') :
    estimateSize heap fuel' v = some r := by
  induction hf with
  | refl => exact h
  | step _ ih => exact estimateSize_succ ih

/-- A set of variables each of which holds a pointer to one of them: a pointer cycle. -/
def PtrCycle (heap : Heap) (s : Nat → Prop) : Prop :=
  ∀ a, s a → ∃ b, s b ∧ heap a = .ptr (some b)

/-- On a pointer into a cycle the recursion never returns, whatever the fuel. -/
theorem estimateSize_cycle {heap : Heap} {s : Nat → Prop} (hc : PtrCycle heap s) :
    ∀ fuel a, s a → estimateSize heap fuel (.ptr (some a)) = none
  | 0, _, _ => rfl
  | fuel + 1, a, ha => by
    obtain ⟨b, hb, hab⟩ := hc a ha
    simp only [estimateSize, hab, estimateSize_cycle hc fuel b hb, Option.map_none']

/-- A call that runs out of fuel is on a pointer, and so is the call it makes. -/
theorem estimateSize_succ_eq_none {heap : Heap} {fuel : Nat} {v : Value}
    (h : estimateSize heap (fuel + 1) v = none) :
    ∃ a, v = .ptr (some a) ∧ estimateSize heap fuel (heap a) = none := by
  cases v with
  | ptr t =>
    cases t with
    | none => cases h
    | some a => exact ⟨a, rfl, by simpa [estimateSize] using h⟩
  | _ => cases h

/-- The recursion returns, for enough fuel, except on a pointer into a pointer cycle. -/
theorem estimateSize_eq_none_iff (heap : Heap) (v : Value) :
    (∀ fuel, estimateSize heap fuel v = none) ↔
      ∃ s a, PtrCycle heap s ∧ s a ∧ v = .ptr (some a) := by
  constructor
  · intro h
    obtain ⟨a, rfl, -⟩ := estimateSize_succ_eq_none (h 1)
    refine ⟨fun b => ∀ fuel, estimateSize heap fuel (.ptr (some b)) = none, a, ?_, h, rfl⟩
    intro b hb
    have hn : ∀ fuel, estimateSize heap fuel (heap b) = none := fun fuel => by
      simpa [estimateSize] using hb (fuel + 1)
    obtain ⟨c, hc, -⟩ := estimateSize_succ_eq_none (hn 1)
    exact ⟨c, fun fuel => hc ▸ hn fuel, hc⟩
  · rintro ⟨s, a, hs, ha, rfl⟩
    exact fun fuel => estimateSize_cycle hs fuel a ha

/-- `var x any; x = &x` never returns, and `[1 << 60]struct{}` wraps to a negative estimate. -/
theorem estimateSize_self_pointer :
    (∀ fuel, estimateSize (fun _ => .ptr (some 0)) fuel (.ptr (some 0)) = none) ∧
    estimateSize (fun _ => .nil) 1 (.slice 1152921504606846976 false) =
      some (-9223372036854775784) :=
  ⟨fun fuel => estimateSize_cycle (s := fun a => a = 0) (fun _ _ => ⟨0, rfl, rfl⟩) fuel 0 rfl,
    by decide⟩

/-- The estimate of a cached string, the `reflect.String` branch. -/
def stringSize (s : String) : Int := wrap64 (s.utf8ByteSize + 16)

theorem estimateSize_string (heap : Heap) (fuel : Nat) (s : String) :
    estimateSize heap (fuel + 1) (.string s) = some (stringSize s) := rfl

end Pgweb
