import StreetParker.Firebase

/-!
# StreetParker.CoreData

The local store of `UserAndCar` rows and the three `Dataservice` functions on
it.  The context keeps unsaved changes: a deleted row stays in the persistent
store until a save commits the deletion, and an inserted row is only in the
context until then.  A fetch sees the context, a relaunch sees the store.
-/

namespace StreetParker

/-! ## the store and its context -/

/-- A row of the persistent store; `deleted` is a deletion the context has not
saved. -/
structure StoredRow where
  userEmail : String
  deleted : Bool
deriving DecidableEq, Repr

/-- The persistent store and the unsaved changes of `viewContext`. -/
structure CoreData where
  stored : List StoredRow
  inserted : List String
deriving DecidableEq, Repr

namespace CoreData

/-- Nothing stored, nothing pending. -/
def empty : CoreData := ⟨[], []⟩

/-- The rows a fetch returns, up to order: stored rows that are not pending
deletion, and pending inserts. -/
def fetchable (s : CoreData) : List String :=
  (s.stored.filter fun r => !r.deleted).map StoredRow.userEmail ++ s.inserted

/-- The rows of the persistent store, whatever is pending. -/
def persisted (s : CoreData) : List String := s.stored.map StoredRow.userEmail

/-- Some deletion has not been saved. -/
def HasUnsavedDelete (s : CoreData) : Prop := ∃ r ∈ s.stored, r.deleted = true

instance (s : CoreData) : Decidable s.HasUnsavedDelete :=
  inferInstanceAs (Decidable (∃ r ∈ s.stored, r.deleted = true))

/-- `managedContext.delete` on every fetched row. -/
def deleteFetched (s : CoreData) : CoreData :=
  ⟨s.stored.map fun r => { r with deleted := true }, []⟩

/-- A successful `managedContext.save()`. -/
def commit (s : CoreData) : CoreData := ⟨s.fetchable.map fun e => ⟨e, false⟩, []⟩

/-- The store as the next process finds it. -/
def discard (s : CoreData) : CoreData :=
  ⟨s.stored.map fun r => { r with deleted := false }, []⟩

end CoreData

/-- What `managedContext.fetch` gives: the rows in some order (the request has
no sort descriptor), or an error. -/
inductive Fetch where
  | rows (emails : List String)
  | threw
deriving DecidableEq, Repr

/-- The fetch is one the context `s` can give. -/
def Fetch.Of (s : CoreData) : Fetch → Prop
  | .rows emails => emails.Perm s.fetchable
  | .threw => True

instance (s : CoreData) : (f : Fetch) → Decidable (f.Of s)
  | .rows _ => inferInstanceAs (Decidable (List.Perm _ _))
  | .threw => inferInstanceAs (Decidable True)

namespace Dataservice

/-- The handler calls of `fetchUserInfo`. -/
def fetchUserInfo : Fetch → List String
  | .rows emails => emails
  | .threw => ["Coudn't return anything "]

/-- `deleteAllDataFromCoreData`; `fetches` says whether its fetch succeeds.
The second component is what `completion` gets. -/
def deleteAllDataFromCoreData (fetches : Bool) (s : CoreData) : CoreData × Bool :=
  if fetches then (s.deleteFetched, true) else (s, false)

/-- `save(forEmail:)`; `saves` says whether `managedContext.save()` succeeds.
The new object is in the context either way. -/
def save (em : String) (saves : Bool) (s : CoreData) : CoreData × Bool :=
  let s := { s with inserted := s.inserted ++ [em] }
  if saves then (s.commit, true) else (s, false)

end Dataservice

/-! ## what the operations leave to a fetch -/

namespace CoreData

@[simp] theorem fetchable_deleteFetched (s : CoreData) : s.deleteFetched.fetchable = [] := by
  simp [deleteFetched, fetchable]

@[simp] theorem fetchable_commit (s : CoreData) : s.commit.fetchable = s.fetchable := by
  simp [commit, fetchable, Function.comp_def, List.filter_map]

/-- A save adds its row to what a fetch sees, committed or not. -/
@[simp] theorem fetchable_save (em : String) (saves : Bool) (s : CoreData) :
    (Dataservice.save em saves s).1.fetchable = s.fetchable ++ [em] := by
  cases saves
  · simp [Dataservice.save, fetchable]
  · simp only [Dataservice.save, if_true, fetchable_commit]
    simp [fetchable]

theorem fetchable_discard (s : CoreData) : s.discard.fetchable = s.persisted := by
  simp [discard, fetchable, persisted, Function.comp_def, List.filter_map]

end CoreData

end StreetParker
