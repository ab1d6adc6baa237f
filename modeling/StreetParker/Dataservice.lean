import StreetParker.Firebase

/-!
# StreetParker.Dataservice

The parts of `Dataservice` that touch the `users` tree.  A reader of the tree
gets the children of a snapshot in key order and walks over them; a forced
cast that fails ends the process, so the loops return `Except Trap`.

`uploadCarInfo` is the callback of `observeSingleEvent`: the call itself only
registers it, and the session it reads is the one current when the snapshot
is delivered.
-/

namespace StreetParker

open Std

namespace Dataservice

/-! ## writing -/

/-- `createDBUser(uid:userData:)`. -/
def createDBUser (users : UsersTree) (uid : Uid) (userData : UserData) : UsersTree :=
  users.updateChildValues uid userData

/-- The dictionary `registerUser` (`name = none`) and `registerSocialUser`
(`name = some _`) build from the created user. -/
def registrationData (user : User) (name : Option String) : UserData :=
  [("provider", some (.string user.providerID)), ("email", user.email.map .string)] ++
    match name with
    | none => []
    | some n => [("Name", some (.string n))]

/-- The dictionary `uploadCarInfo` builds; the provider is the optional one of
the session at delivery. -/
def carData (em name plNumber color : String) (currentUser : Option User) : UserData :=
  [("email", some (.string em)),
   ("provider", currentUser.map fun u => .string u.providerID),
   ("Name", some (.string name)),
   ("License Plate", some (.string plNumber)),
   ("Car Color", some (.string color))]

/-! ## reading -/

/-- `user.childSnapshot(forPath: key).value as! String`. -/
def stringChild (user : Record) (key : String) (trap : Trap) : Except Trap String :=
  match user[key]? with
  | some (.string s) => .ok s
  | _ => .error trap

/-- One delivery to the observer of `printAllEmails`: `emailArray` is the array
captured by the closure; the result is its new content, which is also what
the handler gets. -/
def printAllEmails (emailArray : List String) : Snapshot → Except Trap (List String)
  | [] => .ok emailArray
  | (_, user) :: rest => do
      let email ← stringChild user "email" .emailCast
      printAllEmails (emailArray ++ [email]) rest

/-- The name shown for a matched record: its `Name`, or else the e-mail of the
session, whoever's record it is. -/
def displayName (currentUser : Option User) (user : Record) : Except Trap String :=
  if user.contains "Name" then stringChild user "Name" .nameCast
  else match currentUser.bind User.email with
    | some e => .ok e
    | none => .error .fallbackUnwrap

/-- One delivery to the observer of `getNameForEmail`: the names the handler is
called with, in order. -/
def getNameForEmail (em : String) (currentUser : Option User) :
    Snapshot → Except Trap (List String)
  | [] => .ok []
  | (_, user) :: rest => do
      let email ← stringChild user "email" .emailCast
      if em = email then
        let name ← displayName currentUser user
        let names ← getNameForEmail em currentUser rest
        return name :: names
      else getNameForEmail em currentUser rest

/-- The writes and handler calls of one callback. -/
structure Effects where
  writes : List (Uid × UserData)
  handled : List String

/-- The callback of `uploadCarInfo`: the loop looks for `em`, writes below the
uid of the current session and leaves the loop. -/
def uploadCarInfo (em name plNumber color : String) (currentUser : Option User) :
    Snapshot → Except Trap Effects
  | [] => .ok ⟨[], []⟩
  | (_, user) :: rest => do
      let email ← stringChild user "email" .emailCast
      if em = email then
        match currentUser with
        | none => .error .uidUnwrap
        | some u => .ok ⟨[(u.uid, carData em name plNumber color currentUser)],
            [em ++ " Updated to Firebase: uploadCarInfo"]⟩
      else uploadCarInfo em name plNumber color currentUser rest

end Dataservice

/-- Apply a callback's writes to the tree. -/
def UsersTree.applyWrites (users : UsersTree) (writes : List (Uid × UserData)) : UsersTree :=
  writes.foldl (fun t w => t.updateChildValues w.1 w.2) users

end StreetParker
