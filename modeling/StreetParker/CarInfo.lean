import StreetParker.Schema

/-!
# StreetParker.CarInfo

Where the callback of `uploadCarInfo` writes.  The loop looks for the record of
`em`, the account that was signed in at the call, and then writes below the
uid of whoever is signed in when the snapshot arrives.

* `scan` — how the loop leaves the snapshot, as a function of `em` alone;
* `uploadCarInfo_eq` — the callback in terms of `scan` and the session;
* `landsOnOwner_sessionAfter_iff` — the car data lands on the record of `em`, and nowhere
  else, exactly when no record of `em` is found or the session at the delivery
  still has a record of `em` below its own uid.
-/

namespace StreetParker

open Merge

/-! ## the session between the call and the delivery -/

/-- What can happen to the session while a snapshot is on its way. -/
inductive SessionChange where
  | signOut
  | signIn (user : User)
deriving DecidableEq, Repr

/-- The session after some changes. -/
def sessionAfter (currentUser : Option User) (changes : List SessionChange) : Option User :=
  changes.foldl (fun _ c => match c with
    | .signOut => none
    | .signIn user => some user) currentUser

/-! ## the loop -/

/-- How the loop of `uploadCarInfo` ends: at a record whose e-mail is no
string, at the end of the snapshot, or at a record of `em`. -/
inductive Scan where
  | stuck
  | missing
  | found
deriving DecidableEq, Repr

def scan (em : String) : Snapshot → Scan
  | [] => .missing
  | (_, user) :: rest =>
      match user["email"]? with
      | some (.string email) => if em = email then .found else scan em rest
      | _ => .stuck

/-- The callback, with the loop replaced by its outcome. -/
theorem uploadCarInfo_eq (em name plNumber color : String) (currentUser : Option User)
    (snapshot : Snapshot) :
    Dataservice.uploadCarInfo em name plNumber color currentUser snapshot =
      match scan em snapshot, currentUser with
      | .stuck, _ => .error .emailCast
      | .missing, _ => .ok ⟨[], []⟩
      | .found, none => .error .uidUnwrap
      | .found, some u => .ok ⟨[(u.uid, Dataservice.carData em name plNumber color currentUser)],
          [em ++ " Updated to Firebase: uploadCarInfo"]⟩ := by
  induction snapshot with
  | nil => rfl
  | cons p rest ih =>
      obtain ⟨uid, user⟩ := p
      simp only [Dataservice.uploadCarInfo, Dataservice.stringChild, scan, bind, Except.bind]
      cases user["email"]? with
      | none => rfl
      | some v =>
          cases v with
          | string email =>
              simp only
              split
              · cases currentUser <;> rfl
              · exact ih
          | number n => rfl
          | bool b => rfl

/-- A record of `em` is in the tree when the loop finds one. -/
theorem exists_of_scan_found {em : String} {snapshot : Snapshot}
    (h : scan em snapshot = .found) :
    ∃ p ∈ snapshot, p.2["email"]? = some (.string em) := by
  induction snapshot with
  | nil => contradiction
  | cons p rest ih =>
      obtain ⟨uid, user⟩ := p
      simp only [scan] at h
      split at h
      · next email he =>
          split at h
          · next heq => exact ⟨(uid, user), List.mem_cons_self, by rw [he, heq]⟩
          · obtain ⟨q, hq, hqe⟩ := ih h
            exact ⟨q, List.mem_cons_of_mem _ hq, hqe⟩
      · contradiction

/-- On a well-formed snapshot with a record of `em` the loop finds one. -/
theorem scan_found {em : String} {snapshot : Snapshot} (hwf : ∀ p ∈ snapshot, WellFormed p.2)
    {p : Uid × Record} (hp : p ∈ snapshot) (he : p.2["email"]? = some (.string em)) :
    scan em snapshot = .found := by
  induction snapshot with
  | nil => exact absurd hp List.not_mem_nil
  | cons q rest ih =>
      obtain ⟨uid, user⟩ := q
      obtain ⟨s, hs⟩ := (hwf (uid, user) List.mem_cons_self).email
      simp only [scan]
      cases List.mem_cons.mp hp with
      | inl h =>
          subst h
          simp only at he
          simp only [he, if_true]
      | inr h =>
          simp only at hs
          simp only [hs]
          split
          · rfl
          · exact ih (fun q hq => hwf q (List.mem_cons_of_mem _ hq)) h

/-! ## where the data lands -/

/-- The keys `uploadCarInfo` writes. -/
def carKeys : List String := ["email", "provider", "Name", "License Plate", "Car Color"]

theorem lastWrite_carData_of_not_mem {key : String} (h : key ∉ carKeys)
    (em name plNumber color : String) (currentUser : Option User) :
    lastWrite (Dataservice.carData em name plNumber color currentUser) key = none := by
  simp only [carKeys, List.mem_cons, List.not_mem_nil, or_false, not_or] at h
  obtain ⟨h1, h2, h3, h4, h5⟩ := h
  simp [Dataservice.carData, lastWrite, Ne.symm h1, Ne.symm h2, Ne.symm h3, Ne.symm h4,
    Ne.symm h5]

theorem lastWrite_carData_email (em name plNumber color : String) (currentUser : Option User) :
    lastWrite (Dataservice.carData em name plNumber color currentUser) "email" =
      some (some (.string em)) := by
  simp [Dataservice.carData, lastWrite]

/-- The only records that differ between the two trees are records of `em`, and
they differ in `carKeys` only. -/
def OwnerOnly (em : String) (users users' : UsersTree) : Prop :=
  ∀ uid : Uid, users'[uid]? ≠ users[uid]? →
    ∃ user user' : Record, users[uid]? = some user ∧ users'[uid]? = some user' ∧
      user["email"]? = some (.string em) ∧ ∀ key ∉ carKeys, user'[key]? = user[key]?

/-- What is asked of one callback: at most one write and one handler call, only
the record of `em` changed, and no trap after the session has ended. -/
def LandsOnOwner (em name plNumber color : String) (currentUser : Option User)
    (users : UsersTree) : Prop :=
  match Dataservice.uploadCarInfo em name plNumber color currentUser users.snapshot with
  | .ok eff => eff.writes.length ≤ 1 ∧ eff.handled.length ≤ 1 ∧
      OwnerOnly em users (users.applyWrites eff.writes)
  | .error _ => currentUser ≠ none

/-- The session has a record of `em` below its uid. -/
def SessionOwns (em : String) (currentUser : Option User) (users : UsersTree) : Prop :=
  ∃ u, currentUser = some u ∧
    ∃ user : Record, users[u.uid]? = some user ∧ user["email"]? = some (.string em)

theorem ownerOnly_refl (em : String) (users : UsersTree) : OwnerOnly em users users :=
  fun _ h => absurd rfl h

/-- A write below `uid` stays on the record of `em` exactly when that is what
`uid` holds. -/
theorem ownerOnly_updateChildValues_iff (em name plNumber color : String)
    (currentUser : Option User) (users : UsersTree) (uid : Uid) :
    OwnerOnly em users (users.updateChildValues uid
        (Dataservice.carData em name plNumber color currentUser)) ↔
      ∃ user : Record, users[uid]? = some user ∧ user["email"]? = some (.string em) := by
  constructor
  · intro h
    by_cases hc : (users.updateChildValues uid
        (Dataservice.carData em name plNumber color currentUser))[uid]? = users[uid]?
    · -- an unchanged record already holds what the write put there
      rw [UsersTree.updateChildValues, getElem?_mergeAt_self] at hc
      refine ⟨_, hc.symm, ?_⟩
      rw [getElem?_merge, lastWrite_carData_email, Option.getD_some]
    · obtain ⟨user, _, hu, _, he, _⟩ := h uid hc
      exact ⟨user, hu, he⟩
  · rintro ⟨user, hu, he⟩ v hv
    by_cases huv : uid = v
    · subst huv
      refine ⟨user, merge user (Dataservice.carData em name plNumber color currentUser), hu,
        ?_, he, ?_⟩
      · rw [UsersTree.updateChildValues, getElem?_mergeAt_self, hu, Option.getD_some]
      · intro key hkey
        rw [getElem?_merge, lastWrite_carData_of_not_mem hkey, Option.getD_none]
    · rw [UsersTree.updateChildValues, getElem?_mergeAt_of_ne huv] at hv
      exact absurd rfl hv

/-- One callback, whatever the session at its delivery. -/
theorem landsOnOwner_iff (em name plNumber color : String) (currentUser : Option User)
    (users : UsersTree) :
    LandsOnOwner em name plNumber color currentUser users ↔
      match scan em users.snapshot with
      | .missing => True
      | .found => SessionOwns em currentUser users
      | .stuck => currentUser ≠ none := by
  unfold LandsOnOwner
  rw [uploadCarInfo_eq]
  cases scan em users.snapshot with
  | stuck => exact Iff.rfl
  | missing => exact iff_of_true ⟨by simp, by simp, ownerOnly_refl em users⟩ trivial
  | found =>
      cases currentUser with
      | none => simp [SessionOwns]
      | some u =>
          simp only [List.length_singleton, le_refl, true_and, SessionOwns, Option.some.injEq,
            exists_eq_left']
          exact ownerOnly_updateChildValues_iff em name plNumber color (some u) users u.uid

/-- **Where the data lands.**  For every tree, every caller and every sequence
of session changes between the call and the delivery, the callback does what
is asked exactly when the loop finds no record of `em`, or the session at the
delivery holds a record of `em` below its own uid; and where the loop meets a
record it cannot cast, exactly when somebody is still signed in. -/
theorem landsOnOwner_sessionAfter_iff (em name plNumber color : String) (caller : User)
    (changes : List SessionChange) (users : UsersTree) :
    LandsOnOwner em name plNumber color (sessionAfter (some caller) changes) users ↔
      match scan em users.snapshot with
      | .missing => True
      | .found => SessionOwns em (sessionAfter (some caller) changes) users
      | .stuck => sessionAfter (some caller) changes ≠ none :=
  landsOnOwner_iff em name plNumber color _ users

/-- Two accounts with their records, and a callback for the first that arrives
in a session of the second, or in none. -/
theorem not_landsOnOwner_of_session_change :
    let a : User := ⟨"uid-a", some "a@x.org", "Firebase"⟩
    let b : User := ⟨"uid-b", some "b@x.org", "Firebase"⟩
    let users : UsersTree :=
      Dataservice.createDBUser
        (Dataservice.createDBUser ∅ "uid-a" (Dataservice.registrationData a none))
        "uid-b" (Dataservice.registrationData b none)
    ¬LandsOnOwner "a@x.org" "Ann" "ABC" "red" (sessionAfter (some a) [.signOut, .signIn b])
      users ∧
    ¬LandsOnOwner "a@x.org" "Ann" "ABC" "red" (sessionAfter (some a) [.signOut]) users := by
  intro a b users
  have hscan : scan "a@x.org" users.snapshot = .found := by decide
  constructor
  · rw [landsOnOwner_iff, hscan]
    rintro ⟨u, hu, user, huser, he⟩
    cases hu
    have hb : (users["uid-b"]?.bind fun user => user["email"]?) =
        some (.string "b@x.org") := by decide
    rw [show b.uid = "uid-b" from rfl] at huser
    rw [huser, Option.bind_some, he] at hb
    exact absurd hb (by decide)
  · rw [landsOnOwner_iff, hscan]
    rintro ⟨u, hu, _⟩
    cases hu

end StreetParker
