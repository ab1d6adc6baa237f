import Mathlib

/-!
# StreetParker.Merge

Two-level trees of optional values with an atomic multi-key merge: a list of
`(key, value)` pairs is merged into one child of the tree, a `none` deletes
its key, and the other children are left alone.  The module names nothing of
the application; children and keys range over arbitrary ordered types, and
the maps are the extensional tree maps of the standard library.

* `getElem?_merge` — a merged record reads back the last write of every key;
* `getElem?_mergeAt` — a merge is seen at its own child only.
-/

namespace Merge

open Std

variable {ι κ ν : Type*}

/-! ## one record -/

section Record

variable [Ord κ] [TransOrd κ]

/-- Merge key/value pairs into a record, in order; `none` deletes the key. -/
def merge (r : ExtTreeMap κ ν) (d : List (κ × Option ν)) : ExtTreeMap κ ν :=
  d.foldl (fun r kv => r.alter kv.1 fun _ => kv.2) r

/-- What the last pair for `k` writes, if `k` is written at all. -/
def lastWrite [DecidableEq κ] (d : List (κ × Option ν)) (k : κ) : Option (Option ν) :=
  d.foldl (fun acc kv => if kv.1 = k then some kv.2 else acc) none

theorem merge_append (r : ExtTreeMap κ ν) (d d' : List (κ × Option ν)) :
    merge r (d ++ d') = merge (merge r d) d' := by
  simp only [merge, List.foldl_append]

variable [DecidableEq κ]

omit [Ord κ] [TransOrd κ] in
theorem foldl_lastWrite (d : List (κ × Option ν)) (k : κ) (acc : Option (Option ν)) :
    d.foldl (fun acc kv => if kv.1 = k then some kv.2 else acc) acc =
      (lastWrite d k).or acc := by
  induction d generalizing acc with
  | nil => simp [lastWrite]
  | cons kv d ih =>
      rw [List.foldl_cons, lastWrite, List.foldl_cons, ih, ih]
      by_cases hk : kv.1 = k
      · cases lastWrite d k <;> simp [hk]
      · simp [hk]

omit [Ord κ] [TransOrd κ] in
theorem lastWrite_cons (k' : κ) (v : Option ν) (d : List (κ × Option ν)) (k : κ) :
    lastWrite ((k', v) :: d) k = (lastWrite d k).or (if k' = k then some v else none) := by
  rw [lastWrite, List.foldl_cons, foldl_lastWrite]

omit [Ord κ] [TransOrd κ] in
theorem lastWrite_append (d d' : List (κ × Option ν)) (k : κ) :
    lastWrite (d ++ d') k = (lastWrite d' k).or (lastWrite d k) := by
  rw [lastWrite, List.foldl_append, foldl_lastWrite]
  rfl

omit [Ord κ] [TransOrd κ] in
/-- What is written last is one of the pairs. -/
theorem mem_of_lastWrite {d : List (κ × Option ν)} {k : κ} {v : Option ν}
    (h : lastWrite d k = some v) : (k, v) ∈ d := by
  induction d with
  | nil => contradiction
  | cons kv d ih =>
      obtain ⟨k', v'⟩ := kv
      rw [lastWrite_cons] at h
      cases hl : lastWrite d k with
      | some w =>
          rw [hl, Option.some_or] at h
          exact List.mem_cons_of_mem _ (ih (hl.trans h))
      | none =>
          rw [hl, Option.none_or] at h
          split at h
          · next hk =>
              cases h
              rw [hk]
              exact List.mem_cons_self
          · contradiction

variable [LawfulEqOrd κ]

/-- A merged record holds, under every key, the last value written there, or
what it held before. -/
theorem getElem?_merge (r : ExtTreeMap κ ν) (d : List (κ × Option ν)) (k : κ) :
    (merge r d)[k]? = (lastWrite d k).getD r[k]? := by
  induction d generalizing r with
  | nil => simp [merge, lastWrite]
  | cons kv d ih =>
      obtain ⟨k', v⟩ := kv
      have hm : merge r ((k', v) :: d) = merge (r.alter k' fun _ => v) d := rfl
      rw [hm, ih, lastWrite_cons, ExtTreeMap.getElem?_alter]
      cases lastWrite d k with
      | some w => simp
      | none => by_cases hk : k' = k <;> simp [hk]

end Record

/-! ## one child of the tree -/

section Tree

variable [Ord ι] [TransOrd ι] [Ord κ] [TransOrd κ]

/-- Merge key/value pairs into the child `u`, which is created if it is missing. -/
def mergeAt (t : ExtTreeMap ι (ExtTreeMap κ ν)) (u : ι) (d : List (κ × Option ν)) :
    ExtTreeMap ι (ExtTreeMap κ ν) :=
  t.alter u fun r => some (merge (r.getD ∅) d)

variable [DecidableEq ι] [LawfulEqOrd ι]

theorem getElem?_mergeAt (t : ExtTreeMap ι (ExtTreeMap κ ν)) (u v : ι)
    (d : List (κ × Option ν)) :
    (mergeAt t u d)[v]? = if u = v then some (merge (t[u]?.getD ∅) d) else t[v]? := by
  rw [mergeAt, ExtTreeMap.getElem?_alter]
  by_cases h : u = v <;> simp [h]

@[simp] theorem getElem?_mergeAt_self (t : ExtTreeMap ι (ExtTreeMap κ ν)) (u : ι)
    (d : List (κ × Option ν)) :
    (mergeAt t u d)[u]? = some (merge (t[u]?.getD ∅) d) := by
  rw [getElem?_mergeAt, if_pos rfl]

theorem getElem?_mergeAt_of_ne {u v : ι} (h : u ≠ v) (t : ExtTreeMap ι (ExtTreeMap κ ν))
    (d : List (κ × Option ν)) : (mergeAt t u d)[v]? = t[v]? := by
  rw [getElem?_mergeAt, if_neg h]

end Tree

end Merge
