import StreetParker.Merge

/-!
# StreetParker.Firebase

What the application sees of Firebase: the accounts `Auth.auth()` checks a
sign-in against, and the realtime database below `users`.

Firebase itself is not part of the repository; this module fixes the
documented behaviour that the application relies on.

* an account is found exactly by its e-mail and password, and e-mails and
  uids are never shared (`Accounts` carries this as its fields);
* `createUser` refuses an e-mail that is malformed or taken;
* `updateChildValues` merges the given keys into one child, atomically, and a
  `nil` value deletes its key;
* a snapshot lists the children in key order.
-/

namespace StreetParker

open Std

/-! ## accounts -/

abbrev Uid := String

/-- `FIRUser`, as far as it is read. -/
structure User where
  uid : Uid
  email : Option String
  providerID : String
deriving DecidableEq, Repr

/-- An account of the authentication server. -/
structure Account where
  uid : Uid
  email : String
  password : String
deriving DecidableEq, Repr

/-- The user object a sign-in to the account yields. -/
def Account.user (a : Account) : User := ⟨a.uid, some a.email, "Firebase"⟩

/-- The part of the server's e-mail check the proofs need: without an `@` an
address is refused. -/
def validEmail (e : String) : Bool := e.toList.contains '@'

/-- The account database: no two accounts share an e-mail or a uid. -/
structure Accounts where
  toList : List Account
  emails_nodup : (toList.map Account.email).Nodup
  uids_nodup : (toList.map Account.uid).Nodup
  valid : ∀ a ∈ toList, validEmail a.email = true

namespace Accounts

instance : Membership Account Accounts := ⟨fun db a => a ∈ db.toList⟩

theorem mem_def {a : Account} {db : Accounts} : a ∈ db ↔ a ∈ db.toList := Iff.rfl

/-- The database without accounts. -/
def empty : Accounts := ⟨[], by simp, by simp, by simp⟩

/-- The database of one account. -/
def single (a : Account) (h : validEmail a.email = true) : Accounts :=
  ⟨[a], by simp, by simp, by simpa using h⟩

/-- `Auth.signIn(withEmail:password:)`. -/
def signIn (db : Accounts) (email password : String) : Option Account :=
  db.toList.find? fun a => a.email = email ∧ a.password = password

/-- The e-mail may be registered. -/
def Free (db : Accounts) (email : String) : Prop :=
  validEmail email = true ∧ email ∉ db.toList.map Account.email

instance (db : Accounts) (email : String) : Decidable (db.Free email) :=
  inferInstanceAs (Decidable (_ ∧ _))

/-- `Auth.createUser(withEmail:password:)`; `uid` is the server's choice. -/
def createUser (db : Accounts) (email password : String) (uid : Uid) :
    Option (Account × Accounts) :=
  if h : db.Free email ∧ uid ∉ db.toList.map Account.uid then
    some (⟨uid, email, password⟩,
      { toList := ⟨uid, email, password⟩ :: db.toList
        emails_nodup := by simpa using ⟨by simpa using h.1.2, db.emails_nodup⟩
        uids_nodup := by simpa using ⟨by simpa using h.2, db.uids_nodup⟩
        valid := by
          intro a ha
          cases List.mem_cons.mp ha with
          | inl he => subst he; exact h.1.1
          | inr hm => exact db.valid a hm })
  else none

theorem signIn_some {db : Accounts} {email password : String} {a : Account}
    (h : db.signIn email password = some a) :
    a ∈ db ∧ a.email = email ∧ a.password = password := by
  have hp := List.find?_some h
  simp only [decide_eq_true_eq] at hp
  exact ⟨List.mem_of_find?_eq_some h, hp⟩

/-- Accounts are told apart by their e-mails. -/
theorem eq_of_email {db : Accounts} {a b : Account} (ha : a ∈ db) (hb : b ∈ db)
    (h : a.email = b.email) : a = b :=
  List.inj_on_of_nodup_map db.emails_nodup ha hb h

/-- And by their uids. -/
theorem eq_of_uid {db : Accounts} {a b : Account} (ha : a ∈ db) (hb : b ∈ db)
    (h : a.uid = b.uid) : a = b :=
  List.inj_on_of_nodup_map db.uids_nodup ha hb h

/-- A sign-in with an account's own credentials finds that account. -/
theorem signIn_of_mem {db : Accounts} {a : Account} (ha : a ∈ db) :
    db.signIn a.email a.password = some a := by
  cases h : db.signIn a.email a.password with
  | none =>
      have hn := List.find?_eq_none.mp h a ha
      simp at hn
  | some b =>
      obtain ⟨hb, he, _⟩ := signIn_some h
      rw [eq_of_email hb ha he]

/-- No account answers to a malformed e-mail. -/
theorem signIn_invalid {db : Accounts} {email : String} (h : validEmail email = false)
    (password : String) : db.signIn email password = none := by
  cases hs : db.signIn email password with
  | none => rfl
  | some a =>
      obtain ⟨ha, he, _⟩ := signIn_some hs
      have hv := db.valid a ha
      rw [he, h] at hv
      contradiction

/-- What a successful `createUser` leaves. -/
theorem createUser_some {db db' : Accounts} {email password : String} {uid : Uid}
    {a : Account} (h : db.createUser email password uid = some (a, db')) :
    db.Free email ∧ a = ⟨uid, email, password⟩ ∧ db'.toList = a :: db.toList := by
  unfold createUser at h
  split at h
  · next hf =>
      obtain ⟨ha, hdb⟩ := Prod.mk.inj (Option.some.inj h)
      subst ha
      subst hdb
      exact ⟨hf.1, rfl, rfl⟩
  · contradiction

end Accounts

/-! ## the realtime database -/

/-- A leaf value; only strings are ever written by the application. -/
inductive Value where
  | string (s : String)
  | number (n : Int)
  | bool (b : Bool)
deriving DecidableEq, Repr

/-- The children of one record below `users`. -/
abbrev Record := ExtTreeMap String Value

/-- The tree below `users`, keyed by uid. -/
abbrev UsersTree := ExtTreeMap Uid Record

/-- A dictionary handed to `updateChildValues`; `none` is a `nil` value. -/
abbrev UserData := List (String × Option Value)

/-- The children of a snapshot, `children.allObjects`. -/
abbrev Snapshot := List (Uid × Record)

/-- `REF_USERS.child(uid).updateChildValues(userData)`. -/
def UsersTree.updateChildValues (users : UsersTree) (uid : Uid) (userData : UserData) :
    UsersTree :=
  Merge.mergeAt users uid userData

/-- The snapshot of the whole tree. -/
def UsersTree.snapshot (users : UsersTree) : Snapshot := users.toList

theorem mem_snapshot {users : UsersTree} {uid : Uid} {user : Record} :
    (uid, user) ∈ users.snapshot ↔ users[uid]? = some user :=
  ExtTreeMap.mem_toList_iff_getElem?_eq_some

/-! ## crashes -/

/-- The forced casts and unwraps of the modelled code, by place. -/
inductive Trap where
  /-- `user.childSnapshot(forPath: "email").value as! String` -/
  | emailCast
  /-- `user.childSnapshot(forPath: "Name").value as! String` -/
  | nameCast
  /-- `uid!` in `uploadCarInfo` -/
  | uidUnwrap
  /-- `(Auth.auth().currentUser?.email)!` in `getNameForEmail` -/
  | fallbackUnwrap
  /-- the same unwrap in `burgerMenuVC.viewDidAppear` -/
  | menuUnwrap
  /-- the same unwrap in `burgerMenuVC.loginButton(_:didCompleteWith:error:)` -/
  | menuLoginUnwrap
  /-- the same unwrap in `uploadColorAndModelVC.viewDidLoad` -/
  | uploadUnwrap
  /-- the same unwrap in `uploadColorAndModelVC.doneBtnPressed` -/
  | doneUnwrap
  /-- `FBResult["email"] as! String`, `fullNamee!` and their like -/
  | profileCast
  /-- `try! Auth.auth().signOut()` -/
  | signOutThrew
deriving DecidableEq, Repr

end StreetParker
