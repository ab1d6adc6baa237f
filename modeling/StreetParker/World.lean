import StreetParker.CoreData
import StreetParker.Dataservice

/-!
# StreetParker.World

The state of one installation of the application together with the servers it
talks to, and the primitive changes the controllers make to it.

Every request to a server is asynchronous.  A request that has been issued and
not answered is a `Pending` value; what its completion closure does, and what
the closure has captured, is the request's `LoginDone` / `RegisterDone`
component.  Closures that capture `self` name the controller by its number, so
they still find its stored properties after it has left the screen.

The stack of full-screen controllers follows UIKit: the root (the reveal
controller with the map and the menu) is the empty stack, `present` works for
the controller on top only, and `dismiss` removes what a controller has
presented, or the controller itself when it is on top.
-/

namespace StreetParker

/-! ## controllers and the screen stack -/

/-- A full-screen controller; the root is the empty stack. -/
inductive Modal where
  | auth (vc : Nat)
  | signin (vc : Nat)
  | upload (vc : Nat)
deriving DecidableEq, Repr

/-- Stored properties of `AuthVC`. -/
structure AuthVC where
  email : String
  name : String
  emailLogged : Nat
deriving DecidableEq, Repr

/-- The text fields of `SigninVC`. -/
structure SigninVC where
  emailField : String
  passwordField : String
deriving DecidableEq, Repr

/-- The text fields of `uploadColorAndModelVC`. -/
structure UploadColorAndModelVC where
  nameTxt : String
  licensePlateTxt : String
  carColorTxt : String
deriving DecidableEq, Repr

/-- Stored properties of `burgerMenuVC` and the title of `nameLbl`. -/
structure BurgerMenuVC where
  email : String
  name : String
  nameLbl : String
deriving DecidableEq, Repr

/-- The button the menu offers since it last appeared. -/
inductive MenuButton where
  | facebook
  | signOut
deriving DecidableEq, Repr

/-- `present` on the controller `presenter`. -/
def present (presenter m : Modal) (stack : List Modal) : List Modal :=
  if stack.head? = some presenter then m :: stack else stack

/-- `dismiss` on a controller of the stack: what it has presented goes, or the
controller itself when it is on top. -/
def dismissFrom (m : Modal) : List Modal → List Modal
  | [] => []
  | top :: rest => if top = m then rest else (top :: rest).dropWhile (· ≠ m)

/-- `presentingViewController`. -/
def presenting (m : Modal) (stack : List Modal) : Option Modal :=
  (stack.dropWhile (· ≠ m)).tail.head?

/-! ## requests in flight -/

/-- The two identity providers of `AuthVC`. -/
inductive Provider where
  | facebook
  | google
deriving DecidableEq, Repr

/-- `randString` and `googlePass`, the one password of each provider. -/
def Provider.password : Provider → String
  | .facebook => "FBUser"
  | .google => "googleUser"

/-- What a provider says about the person who signed in. -/
structure Profile where
  email : Option String
  name : Option String
deriving DecidableEq, Repr

/-- What started a chain of requests. -/
inductive Origin where
  | facebook
  | google
  | email
  | silent
  | upload
deriving DecidableEq, Repr

/-- A chain of requests; the follow-ups a completion issues stay in the chain. -/
structure Flow where
  id : Nat
  origin : Origin
deriving DecidableEq, Repr

/-- The completion closures of `loginSocialUser` and `loginUser`. -/
inductive LoginDone where
  | social (vc : Nat) (password : String)
  | socialAgain (vc : Nat) (password : String)
  | email (vc : Nat)
  | emailAgain (vc : Nat)
  | silent
deriving DecidableEq, Repr

/-- The completion closures of `registerSocialUser` and `registerUser`. -/
inductive RegisterDone where
  | social (vc : Nat) (password : String)
  | email (vc : Nat)
deriving DecidableEq, Repr

/-- A request and the closure that waits for its answer. -/
inductive Request where
  | graph (vc : Nat)
  | signIn (email password : String) (done : LoginDone)
  | createUser (email password : String) (name : Option String) (done : RegisterDone)
  | carInfo (vc : Nat) (em name plNumber color : String)
deriving DecidableEq, Repr

structure Pending where
  flow : Flow
  request : Request
deriving DecidableEq, Repr

/-- The observers `getNameForEmail` registers, by what their handler does. -/
inductive Observer where
  | menuName (em : String)
  | menuLabel (em : String)
  | uploadName (em : String) (vc : Nat)
deriving DecidableEq, Repr

/-! ## the record of a run -/

/-- The places that unwrap the signed-in user's e-mail on entry. -/
inductive Gate where
  | menuAppears
  | uploadLoads
  | donePressed
deriving DecidableEq, Repr

/-- What a run leaves on record.  No controller reads the record; it is what
the statements about runs speak of. -/
inductive Entry where
  | confirmed (flow : Flow) (vc : Nat) (provider : Provider) (email name : String)
  | sent (flow : Flow) (request : Request)
  | saved (flow : Flow) (email : String)
  | signedIn (flow : Flow) (user : User)
  | entered (gate : Gate) (currentUser : Option User)
deriving DecidableEq, Repr

/-! ## the state -/

/-- `AccessToken.current`. -/
structure AccessToken where
  isExpired : Bool
deriving DecidableEq, Repr

/-- The servers. -/
structure Cloud where
  accounts : Accounts
  users : UsersTree

/-- One installation.  `currentUser`, `accessToken` and the rows in `store`
survive the process, the rest belongs to it. -/
structure Phone where
  /-- `#available(iOS 13.0, *)` -/
  available13 : Bool
  currentUser : Option User
  accessToken : Option AccessToken
  store : CoreData
  modals : List Modal
  menu : Option MenuButton
  auths : Nat → AuthVC
  signins : Nat → SigninVC
  uploads : Nat → UploadColorAndModelVC
  burger : BurgerMenuVC
  nextVC : Nat
  pending : List Pending
  observers : List Observer
  nextFlow : Nat
  log : List Entry
  crashed : Option Trap

structure World extends Cloud, Phone

namespace World

/-- `if let token = AccessToken.current, !token.isExpired`. -/
def hasToken (w : World) : Bool :=
  match w.accessToken with
  | some token => !token.isExpired
  | none => false

/-- `Auth.auth().currentUser?.email`. -/
def currentEmail (w : World) : Option String := w.currentUser.bind User.email

/-- A forced cast or unwrap failed. -/
def crash (trap : Trap) (w : World) : World := { w with crashed := some trap }

def record (e : Entry) (w : World) : World := { w with log := e :: w.log }

/-- The chain a new login, registration or upload starts. -/
def newFlow (w : World) (origin : Origin) : Flow := ⟨w.nextFlow, origin⟩

/-- Issue a request. -/
def send (flow : Flow) (request : Request) (w : World) : World :=
  { w with pending := w.pending ++ [⟨flow, request⟩], log := .sent flow request :: w.log }

/-- Issue the first request of a new chain. -/
def start (origin : Origin) (request : Request) (w : World) : World :=
  { w.send (w.newFlow origin) request with nextFlow := w.nextFlow + 1 }

/-- Firebase has signed an account in. -/
def signedIn (flow : Flow) (a : Account) (w : World) : World :=
  { w with currentUser := some a.user, log := .signedIn flow a.user :: w.log }

/-- `viewDidAppear` of the controllers that a dismissal uncovers: `SigninVC`
and, after a sign-in by e-mail, `AuthVC` dismiss themselves when somebody is
signed in. -/
def appear (w : World) : List Modal → List Modal
  | .signin vc :: rest => if w.currentUser.isSome then w.appear rest else .signin vc :: rest
  | .auth vc :: rest =>
      if w.currentUser.isSome ∧ (w.auths vc).emailLogged = 1 then w.appear rest
      else .auth vc :: rest
  | stack => stack

/-- `dismiss` on a controller, which is only seen when the controller is on
the stack. -/
def dismiss (m : Modal) (w : World) : World :=
  { w with modals := if m ∈ w.modals then w.appear (dismissFrom m w.modals) else w.modals }

/-- `dismiss` on an optional controller. -/
def dismiss? (m : Option Modal) (w : World) : World :=
  match m with
  | some m => w.dismiss m
  | none => w

/-- A fresh `AuthVC` is presented over the root. -/
def presentAuth (w : World) : World :=
  { w with
    modals := [.auth w.nextVC]
    menu := none
    auths := Function.update w.auths w.nextVC ⟨"", "", 0⟩
    nextVC := w.nextVC + 1 }

end World

/-! ## the services -/

namespace Dataservice

/-- `save(forEmail:)` called by a completion of `flow`. -/
def saveUser (flow : Flow) (em : String) (saves : Bool) (w : World) : World :=
  { w with store := (save em saves w.store).1, log := .saved flow em :: w.log }

/-- `deleteAllDataFromCoreData` called by a controller. -/
def deleteAll (fetches : Bool) (w : World) : World :=
  { w with store := (deleteAllDataFromCoreData fetches w.store).1 }

end Dataservice

namespace Authservice

/-- `registerUser(withEmail:andPassword:)`. -/
def registerUser (flow : Flow) (email password : String) (done : RegisterDone) (w : World) :
    World :=
  w.send flow (.createUser email password none done)

/-- `registerSocialUser(withEmail:withName:andPassword:)`. -/
def registerSocialUser (flow : Flow) (email name password : String) (done : RegisterDone)
    (w : World) : World :=
  w.send flow (.createUser email password (some name) done)

/-- `loginSocialUser(withEmail:andPassword:)`. -/
def loginSocialUser (flow : Flow) (email password : String) (done : LoginDone) (w : World) :
    World :=
  w.send flow (.signIn email password done)

/-- `loginUser(withEmail:andPassword:)`, the same code under another name. -/
def loginUser (flow : Flow) (email password : String) (done : LoginDone) (w : World) : World :=
  loginSocialUser flow email password done w

/-- `signOut()`; `signsOut` says whether `Auth.auth().signOut()` succeeds.  The
`try!` makes the surrounding `catch` unreachable. -/
def signOut (signsOut : Bool) (w : World) : World :=
  if signsOut then { w with currentUser := none } else w.crash .signOutThrew

end Authservice

end StreetParker
