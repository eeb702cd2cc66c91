import Mathlib.Data.List.Perm.Basic
import Mathlib.Data.List.Nodup
import Mathlib.Algebra.BigOperators.Group.List.Basic
import Mathlib.Algebra.GroupWithZero.Nat

/-!
# Insertion-ordered maps

A linked hash map as the list of its bindings, from the front (oldest) to the back (newest), with
the operations a recency-ordered cache needs: `erase`, `pushBack`, `toBack`. Order is data here —
the list *is* the order — so what an eviction from the front removes can be read off.

The central lemma is `perm_cons_erase`: over unique keys a bound key splits off as one binding, up
to order. Everything that does not look at the order (which bindings there are, what they weigh) is
read off that permutation; `weight_erase` and `perm_toBack` are its two uses.

`fit` is what a budget leaves of a map if bindings are dropped from the front, and
`isLongestFit_fit` says what that is without saying how it comes about.
-/

/-- A linked hash map: its bindings from front to back. -/
abbrev LinkedMap (κ ν : Type*) := List (κ × ν)

namespace LinkedMap

variable {κ ν : Type*} [DecidableEq κ]

/-- The keys, from front to back. -/
def keys (m : LinkedMap κ ν) : List κ := m.map Prod.fst

/-- Drop the binding of a key. -/
def erase (m : LinkedMap κ ν) (k : κ) : LinkedMap κ ν := m.filter fun b ↦ b.1 ≠ k

/-- Bind a key at the back; an older binding of it is dropped. -/
def pushBack (m : LinkedMap κ ν) (k : κ) (v : ν) : LinkedMap κ ν := m.erase k ++ [(k, v)]

/-- Move the binding of a key to the back and return its value; `none` if the key is not bound. -/
def toBack (m : LinkedMap κ ν) (k : κ) : Option (ν × LinkedMap κ ν) :=
  (m.lookup k).map fun v ↦ (v, m.pushBack k v)

omit [DecidableEq κ] in
theorem mem_keys_of_mem {m : LinkedMap κ ν} {b : κ × ν} (h : b ∈ m) : b.1 ∈ m.keys :=
  List.mem_map_of_mem h

theorem mem_erase {m : LinkedMap κ ν} {k : κ} {b : κ × ν} : b ∈ m.erase k ↔ b ∈ m ∧ b.1 ≠ k := by
  simp [erase]

theorem keys_erase (m : LinkedMap κ ν) (k : κ) :
    (m.erase k).keys = m.keys.filter fun k' ↦ k' ≠ k := by
  rw [keys, erase, keys, List.filter_map]
  rfl

theorem not_mem_keys_erase (m : LinkedMap κ ν) (k : κ) : k ∉ (m.erase k).keys := by
  simp [keys_erase]

theorem nodup_keys_erase {m : LinkedMap κ ν} (h : m.keys.Nodup) (k : κ) :
    (m.erase k).keys.Nodup := by
  rw [keys_erase]
  exact h.filter _

theorem erase_eq_self {m : LinkedMap κ ν} {k : κ} (h : k ∉ m.keys) : m.erase k = m := by
  rw [erase, List.filter_eq_self]
  intro b hb
  have hne : b.1 ≠ k := fun hk ↦ h (hk ▸ mem_keys_of_mem hb)
  simpa using hne

theorem nodup_keys_pushBack {m : LinkedMap κ ν} (h : m.keys.Nodup) (k : κ) (v : ν) :
    (m.pushBack k v).keys.Nodup := by
  have hk : (m.pushBack k v).keys = (m.erase k).keys ++ [k] := by simp [pushBack, keys]
  rw [hk]
  refine (nodup_keys_erase h k).append (List.nodup_singleton k) ?_
  rintro a ha hb
  rw [List.mem_singleton] at hb
  exact not_mem_keys_erase m k (hb ▸ ha)

/-! ### Splitting off a bound key -/

theorem mem_of_lookup {m : LinkedMap κ ν} {k : κ} {v : ν} (h : m.lookup k = some v) :
    (k, v) ∈ m := by
  obtain ⟨l₁, l₂, rfl, -⟩ := List.lookup_eq_some_iff.1 h
  simp

theorem lookup_isSome_iff_mem_keys {m : LinkedMap κ ν} {k : κ} :
    (m.lookup k).isSome ↔ k ∈ m.keys := by
  rw [List.lookup_isSome_iff, keys, List.mem_map]
  exact ⟨fun ⟨b, hb, hk⟩ ↦ ⟨b, hb, (beq_iff_eq.1 hk).symm⟩,
    fun ⟨b, hb, hk⟩ ↦ ⟨b, hb, beq_iff_eq.2 hk.symm⟩⟩

/-- **Splitting off a bound key.** Over unique keys, a map is the binding of a key together with
the rest, up to order. -/
theorem perm_cons_erase {m : LinkedMap κ ν} (hm : m.keys.Nodup) {k : κ} {v : ν}
    (h : m.lookup k = some v) : m.Perm ((k, v) :: m.erase k) := by
  obtain ⟨l₁, l₂, rfl, -⟩ := List.lookup_eq_some_iff.1 h
  have hk : k ∉ keys l₁ ∧ k ∉ keys l₂ := by
    rw [keys, List.map_append, List.map_cons, List.nodup_middle, List.nodup_cons,
      List.mem_append] at hm
    exact not_or.1 hm.1
  have herase : erase (l₁ ++ (k, v) :: l₂) k = l₁ ++ l₂ := by
    rw [erase, List.filter_append, List.filter_cons_of_neg (by simp)]
    exact congrArg₂ (· ++ ·) (erase_eq_self hk.1) (erase_eq_self hk.2)
  rw [herase]
  exact List.perm_middle

/-- Moving a bound key to the back rearranges the bindings and changes none. -/
theorem perm_toBack {m m' : LinkedMap κ ν} (hm : m.keys.Nodup) {k : κ} {v : ν}
    (h : m.toBack k = some (v, m')) : m'.Perm m := by
  rw [toBack, Option.map_eq_some_iff] at h
  obtain ⟨w, hw, heq⟩ := h
  obtain ⟨rfl, rfl⟩ := Prod.mk.inj heq
  exact (List.perm_append_singleton _ _).trans (perm_cons_erase hm hw).symm

/-! ### Weights -/

/-- The total weight of the bindings. -/
def weight (f : ν → ℕ) (m : LinkedMap κ ν) : ℕ := (m.map fun b ↦ f b.2).sum

omit [DecidableEq κ] in
@[simp] theorem weight_nil (f : ν → ℕ) : weight f ([] : LinkedMap κ ν) = 0 := rfl

omit [DecidableEq κ] in
@[simp] theorem weight_cons (f : ν → ℕ) (b : κ × ν) (m : LinkedMap κ ν) :
    weight f (b :: m) = f b.2 + weight f m := by
  simp [weight]

omit [DecidableEq κ] in
@[simp] theorem weight_append (f : ν → ℕ) (m m' : LinkedMap κ ν) :
    weight f (m ++ m' : List (κ × ν)) = weight f m + weight f m' := by
  simp [weight]

omit [DecidableEq κ] in
theorem weight_perm (f : ν → ℕ) {m m' : LinkedMap κ ν} (h : m.Perm m') :
    weight f m = weight f m' :=
  (h.map _).sum_eq

/-- Erasing a bound key frees exactly its weight. -/
theorem weight_erase (f : ν → ℕ) {m : LinkedMap κ ν} (hm : m.keys.Nodup) {k : κ} {v : ν}
    (h : m.lookup k = some v) : f v + weight f (m.erase k) = weight f m := by
  rw [weight_perm f (perm_cons_erase hm h), weight_cons]

/-! ### Within a budget -/

/-- Drop bindings from the front until the rest is within a budget. -/
def fit (f : ν → ℕ) (budget : ℕ) : LinkedMap κ ν → LinkedMap κ ν
  | [] => []
  | b :: m => if weight f (b :: m) ≤ budget then b :: m else fit f budget m

/-- `m'` is the longest back segment of `m` that is within a budget. -/
structure IsLongestFit (f : ν → ℕ) (budget : ℕ) (m m' : LinkedMap κ ν) : Prop where
  suffix : m' <:+ m
  within : weight f m' ≤ budget
  longest : ∀ other : LinkedMap κ ν, other <:+ m → weight f other ≤ budget → other <:+ m'

omit [DecidableEq κ] in
/-- **What is left within a budget** is the longest back segment that is. -/
theorem isLongestFit_fit (f : ν → ℕ) (budget : ℕ) (m : LinkedMap κ ν) :
    IsLongestFit f budget m (fit f budget m) := by
  induction m with
  | nil => exact ⟨List.suffix_rfl, Nat.zero_le _, fun _ h _ ↦ h⟩
  | cons b m ih =>
    rw [fit]
    split
    · rename_i hle
      exact ⟨List.suffix_rfl, hle, fun _ h _ ↦ h⟩
    · rename_i hgt
      refine ⟨ih.suffix.trans (List.suffix_cons b m), ih.within, fun other hother hle ↦ ?_⟩
      rcases List.suffix_cons_iff.1 hother with rfl | hother
      · exact absurd hle hgt
      · exact ih.longest other hother hle

omit [DecidableEq κ] in
/-- A shorter map leaves less. -/
theorem fit_suffix_fit (f : ν → ℕ) (budget : ℕ) {m m' : LinkedMap κ ν} (h : m <:+ m') :
    fit f budget m <:+ fit f budget m' :=
  (isLongestFit_fit f budget m').longest _ ((isLongestFit_fit f budget m).suffix.trans h)
    (isLongestFit_fit f budget m).within

/-- **A binding that was just made is found again** if it is within the budget on its own. -/
theorem lookup_fit_pushBack (f : ν → ℕ) {budget : ℕ} (m : LinkedMap κ ν) (k : κ) {v : ν}
    (h : f v ≤ budget) : (fit f budget (m.pushBack k v)).lookup k = some v := by
  have hfit := isLongestFit_fit f budget (m.pushBack k v)
  have hback : ([(k, v)] : LinkedMap κ ν) <:+ m.pushBack k v := List.suffix_append _ _
  -- it is at the back of what is left, behind some of the bindings of other keys
  obtain ⟨front, hfront⟩ := hfit.longest _ hback (by simpa using h)
  obtain ⟨dropped, hdropped⟩ := hfit.suffix
  have herase : dropped ++ front = m.erase k := by
    rw [← hfront, ← List.append_assoc] at hdropped
    exact List.append_cancel_right hdropped
  refine List.lookup_eq_some_iff.2 ⟨front, [], hfront.symm, fun b hb ↦ ?_⟩
  have hmem : b ∈ m.erase k := herase ▸ List.mem_append_right _ hb
  exact bne_iff_ne.2 (mem_erase.1 hmem).2.symm

end LinkedMap
