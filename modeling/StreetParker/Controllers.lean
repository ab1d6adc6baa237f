import StreetParker.World

/-!
# StreetParker.Controllers

The controllers' actions and completion closures, each as the change it makes
to the world.  A closure reads `self`'s properties and text fields when it
runs, not when the request was issued; the password of a social sign-in is a
local of the function that started it and is captured.
-/

namespace StreetParker

open World

/-! ## `uploadColorAndModelVC` -/

namespace UploadColorAndModelVC

/-- `viewDidLoad` of the controller `vc`. -/
def viewDidLoad (vc : Nat) (w : World) : World :=
  let w := w.record (.entered .uploadLoads w.currentUser)
  match w.currentEmail with
  | some em => { w with observers := w.observers ++ [.uploadName em vc] }
  | none => w.crash .uploadUnwrap

/-- `present(UploadVC!, …)` on the controller `presenter`; nothing is loaded
when `presenter` is covered or gone. -/
def presentUpload (presenter : Modal) (w : World) : World :=
  if w.modals.head? = some presenter then
    viewDidLoad w.nextVC
      { w with
        modals := present presenter (.upload w.nextVC) w.modals
        uploads := Function.update w.uploads w.nextVC ⟨"", "", ""⟩
        nextVC := w.nextVC + 1 }
  else w

/-- `doneBtnPressed`: the unwrap comes before the check that would guard it. -/
def doneBtnPressed (vc : Nat) (w : World) : World :=
  let w := w.record (.entered .donePressed w.currentUser)
  match w.currentEmail with
  | some em =>
      let fields := w.uploads vc
      w.start .upload (.carInfo vc em fields.nameTxt fields.licensePlateTxt fields.carColorTxt)
  | none => w.crash .doneUnwrap

/-- The handler `doneBtnPressed` gives to `uploadCarInfo`. -/
def uploaded (vc : Nat) (w : World) : World :=
  let pvc := presenting (.upload vc) w.modals
  (w.dismiss (.upload vc)).dismiss? pvc

end UploadColorAndModelVC

open UploadColorAndModelVC

/-! ## `AuthVC` -/

namespace AuthVC

/-- A provider has confirmed `e` and `n`: they become `self.email` and
`self.name`, and the first sign-in is issued with what is there. -/
def confirm (vc : Nat) (flow : Flow) (provider : Provider) (e n : String) (w : World) : World :=
  let w := { w with
    auths := Function.update w.auths vc { w.auths vc with email := e, name := n }
    log := .confirmed flow vc provider e n :: w.log }
  Authservice.loginSocialUser flow (w.auths vc).email provider.password
    (.social vc provider.password) w

/-- `loginButton(_:didCompleteWith:error:)`.  The Facebook SDK has set the
token, if it was `granted`, before the delegate is called. -/
def loginButton (vc : Nat) (granted : Bool) (w : World) : World :=
  World.start .facebook (.graph vc)
    { w with
      auths := Function.update w.auths vc { w.auths vc with emailLogged := 0 }
      accessToken := if granted then some ⟨false⟩ else w.accessToken }

/-- The completion of the graph request; `none` is an error. -/
def graphCompletion (vc : Nat) (flow : Flow) (profile : Option Profile) (w : World) : World :=
  match profile with
  | none => w
  | some ⟨some e, some n⟩ => confirm vc flow .facebook e n w
  | some _ => w.crash .profileCast

/-- `sign(_:didSignInFor:withError:)`; `none` is an error. -/
def sign (vc : Nat) (profile : Option Profile) (w : World) : World :=
  let w := { w with
    auths := Function.update w.auths vc { w.auths vc with emailLogged := 0 } }
  match profile with
  | none => w
  | some ⟨some e, some n⟩ =>
      { confirm vc (w.newFlow .google) .google e n w with nextFlow := w.nextFlow + 1 }
  | some _ => w.crash .profileCast

/-- Completion of the first `loginSocialUser` of either provider. -/
def loginCompletion (vc : Nat) (password : String) (flow : Flow) (success saves : Bool)
    (w : World) : World :=
  let w := if success then
      (Dataservice.saveUser flow (w.auths vc).email saves w).dismiss (.auth vc)
    else w
  Authservice.registerSocialUser flow (w.auths vc).email (w.auths vc).name password
    (.social vc password) w

/-- Completion of `registerSocialUser`. -/
def registerCompletion (vc : Nat) (password : String) (flow : Flow) (success : Bool)
    (w : World) : World :=
  if success then
    Authservice.loginSocialUser flow (w.auths vc).email password (.socialAgain vc password) w
  else w

/-- Completion of the second `loginSocialUser`; it does not look at its
`success`. -/
def secondLoginCompletion (vc : Nat) (flow : Flow) (fetches saves : Bool) (w : World) : World :=
  let w := Dataservice.deleteAll fetches w
  let w := Dataservice.saveUser flow (w.auths vc).email saves w
  presentUpload (.auth vc) w

/-- `loginButtonDidLogOut`; the SDK has dropped the token. -/
def loginButtonDidLogOut (signsOut fetches : Bool) (w : World) : World :=
  let w := Authservice.signOut signsOut { w with accessToken := none }
  if w.crashed.isSome then w else Dataservice.deleteAll fetches w

/-- `signInWithEmail`. -/
def signInWithEmail (vc : Nat) (w : World) : World :=
  let w := { w with
    auths := Function.update w.auths vc { w.auths vc with emailLogged := 1 } }
  if w.available13 then
    { w with
      modals := w.appear (present (.auth vc) (.signin w.nextVC) w.modals)
      signins := Function.update w.signins w.nextVC ⟨"", ""⟩
      nextVC := w.nextVC + 1 }
  else w

end AuthVC

/-! ## `SigninVC` -/

namespace SigninVC

/-- `signInButtonWasPressed`. -/
def signInButtonWasPressed (vc : Nat) (w : World) : World :=
  let fields := w.signins vc
  w.start .email (.signIn fields.emailField fields.passwordField (.email vc))

/-- Completion of the first `loginUser`. -/
def loginCompletion (vc : Nat) (flow : Flow) (success fetches saves : Bool) (w : World) : World :=
  let w := if success then
      let w := Dataservice.deleteAll fetches w
      let pvc := presenting (.signin vc) w.modals
      let w := Dataservice.saveUser flow (w.signins vc).emailField saves w
      (w.dismiss (.signin vc)).dismiss? pvc
    else w
  Authservice.registerUser flow (w.signins vc).emailField (w.signins vc).passwordField
    (.email vc) w

/-- Completion of `registerUser`. -/
def registerCompletion (vc : Nat) (flow : Flow) (success : Bool) (w : World) : World :=
  if success then
    Authservice.loginUser flow (w.signins vc).emailField (w.signins vc).passwordField
      (.emailAgain vc) w
  else w

/-- Completion of the second `loginUser`; it does not look at its `success`
and stores nothing. -/
def secondLoginCompletion (vc : Nat) (w : World) : World :=
  if w.available13 then presentUpload (.signin vc) w else w

/-- `closePressed`, which is also the unwind segue to `AuthVC`'s
`unwindfFromSigninVC`. -/
def closePressed (vc : Nat) (w : World) : World :=
  let w := if w.currentUser.isSome then w.dismiss? (presenting (.signin vc) w.modals) else w
  w.dismiss (.signin vc)

end SigninVC

/-! ## `FindVC` -/

namespace FindVC

/-- `viewDidAppear`: the silent sign-in with the last row of the local store. -/
def viewDidAppear (fetched : Fetch) (w : World) : World :=
  if w.hasToken then
    let coreDataEmail := (Dataservice.fetchUserInfo fetched).getLast?.getD ""
    w.start .silent (.signIn coreDataEmail "FBUser" .silent)
  else w

end FindVC

/-! ## `burgerMenuVC` -/

namespace BurgerMenuVC

/-- `viewDidAppear`. -/
def viewDidAppear (fetched : Fetch) (w : World) : World :=
  if w.hasToken then
    let em := (Dataservice.fetchUserInfo fetched).getLast?.getD w.burger.email
    { w with
      burger := { w.burger with email := em, nameLbl := w.burger.name }
      observers := w.observers ++ [.menuName em]
      menu := some .facebook }
  else
    let w := w.record (.entered .menuAppears w.currentUser)
    match w.currentEmail with
    | some em => { w with observers := w.observers ++ [.menuLabel em], menu := some .signOut }
    | none => w.crash .menuUnwrap

/-- What both logout handlers of the menu do after the sign-out. -/
def afterSignOut (fetches : Bool) (w : World) : World :=
  if w.crashed.isSome then w else
    let w := Dataservice.deleteAll fetches w
    if w.available13 then w.presentAuth else w

/-- `signOutWasPressed`. -/
def signOutWasPressed (signsOut fetches : Bool) (w : World) : World :=
  afterSignOut fetches (if w.currentUser.isSome then Authservice.signOut signsOut w else w)

/-- `loginButtonDidLogOut`; the SDK has dropped the token. -/
def loginButtonDidLogOut (signsOut fetches : Bool) (w : World) : World :=
  afterSignOut fetches (Authservice.signOut signsOut { w with accessToken := none })

/-- `loginButton(_:didCompleteWith:error:)`, which only prints the e-mail. -/
def loginButton (granted : Bool) (w : World) : World :=
  let w := { w with accessToken := if granted then some ⟨false⟩ else w.accessToken }
  match w.currentEmail with
  | some _ => w
  | none => w.crash .menuLoginUnwrap

end BurgerMenuVC

/-! ## observers -/

namespace Observer

/-- The handler of an observer. -/
def handler (w : World) : Observer → String → World
  | .menuName _, name => { w with burger := { w.burger with name := name } }
  | .menuLabel _, name => { w with burger := { w.burger with nameLbl := name } }
  | .uploadName _ vc, name =>
      { w with uploads := Function.update w.uploads vc { w.uploads vc with nameTxt := name } }

/-- The e-mail an observer was registered for. -/
def email : Observer → String
  | .menuName em => em
  | .menuLabel em => em
  | .uploadName em _ => em

/-- Delivery of the current users snapshot to an observer. -/
def deliver (ob : Observer) (w : World) : World :=
  match Dataservice.getNameForEmail ob.email w.currentUser w.users.snapshot with
  | .ok names => names.foldl (fun w name => handler w ob name) w
  | .error trap => w.crash trap

end Observer

/-! ## `AppDelegate` -/

namespace AppDelegate

/-- `application(_:didFinishLaunchingWithOptions:)`. -/
def didFinishLaunching (w : World) : World :=
  if w.currentUser.isNone then w.presentAuth else w

/-- The process is gone and the application is launched again: the session,
the token and the saved rows are what is left. -/
def relaunch (w : World) : World :=
  didFinishLaunching
    { w with
      store := w.store.discard
      modals := []
      menu := none
      burger := ⟨"", "", "Name"⟩
      pending := []
      observers := []
      crashed := none }

end AppDelegate

end StreetParker
