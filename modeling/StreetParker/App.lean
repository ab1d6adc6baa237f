import StreetParker.Controllers
import StreetParker.Runs

/-!
# StreetParker.App

The application as a machine.  An event is something the user does, the answer
to a request, the delivery of a snapshot to an observer, the expiry of the
Facebook token, or the end of the process and its relaunch.  Answers come in
any order and may never come; user events are enabled by the screen that
offers them.
-/

namespace StreetParker

/-! ## answers -/

/-- How a request ends: the client hears the server's answer, the server has
acted but its answer was lost, or the request never reached the server. -/
inductive Answer where
  | answered
  | lost
  | failed
deriving DecidableEq, Repr

/-- What the environment decides when a request completes. -/
structure Outcome where
  answer : Answer
  /-- the result of a graph request, `none` for an error -/
  profile : Option Profile
  /-- the uid a created account gets -/
  uid : Uid
  /-- whether `updateChildValues` reaches the database -/
  writeLands : Bool
  /-- whether the fetch of `deleteAllDataFromCoreData` succeeds -/
  fetches : Bool
  /-- whether `managedContext.save()` succeeds -/
  saves : Bool
deriving DecidableEq, Repr

/-- The server answers and nothing on the phone fails; a created account gets
`uid`. -/
def Outcome.ok (uid : Uid) : Outcome := ⟨.answered, none, uid, true, true, true⟩

/-- The answer to a graph request. -/
def Outcome.graph (email name : String) : Outcome :=
  ⟨.answered, some ⟨some email, some name⟩, "", true, true, true⟩

/-- The completion closure of a sign-in. -/
def LoginDone.run (done : LoginDone) (flow : Flow) (success : Bool) (o : Outcome) (w : World) :
    World :=
  match done with
  | .social vc password => AuthVC.loginCompletion vc password flow success o.saves w
  | .socialAgain vc _ => AuthVC.secondLoginCompletion vc flow o.fetches o.saves w
  | .email vc => SigninVC.loginCompletion vc flow success o.fetches o.saves w
  | .emailAgain vc => SigninVC.secondLoginCompletion vc w
  | .silent => w

/-- The completion closure of a registration. -/
def RegisterDone.run (done : RegisterDone) (flow : Flow) (success : Bool) (w : World) : World :=
  match done with
  | .social vc password => AuthVC.registerCompletion vc password flow success w
  | .email vc => SigninVC.registerCompletion vc flow success w

namespace World

/-- The account the answer to a sign-in authenticates, if it is a success. -/
def signInReply (w : World) (o : Outcome) (email password : String) : Option Account :=
  if o.answer = .answered then w.accounts.signIn email password else none

/-- The account the server creates for a registration, if it does. -/
def createUserReply (w : World) (o : Outcome) (email password : String) :
    Option (Account × Accounts) :=
  if o.answer = .failed then none else w.accounts.createUser email password o.uid

/-- `createUser`'s own completion in `Authservice`: the session is the new
account's, and its record is written without waiting for the result. -/
def userCreated (flow : Flow) (name : Option String) (writeLands : Bool) (a : Account)
    (w : World) : World :=
  let w := w.signedIn flow a
  if writeLands then
    let userData := Dataservice.registrationData a.user name
    { w with users := Dataservice.createDBUser w.users a.uid userData }
  else w

/-- A request completes. -/
def complete (w : World) (flow : Flow) (o : Outcome) : Request → World
  | .graph vc => AuthVC.graphCompletion vc flow o.profile w
  | .signIn email password done =>
      match w.signInReply o email password with
      | some a => done.run flow true o (w.signedIn flow a)
      | none => done.run flow false o w
  | .createUser email password name done =>
      match w.createUserReply o email password with
      | some (a, db) =>
          if o.answer = .answered then
            done.run flow true ({ w with accounts := db }.userCreated flow name o.writeLands a)
          else done.run flow false { w with accounts := db }
      | none => done.run flow false w
  | .carInfo vc em name plNumber color =>
      match Dataservice.uploadCarInfo em name plNumber color w.currentUser w.users.snapshot with
      | .ok eff =>
          eff.handled.foldl (fun w _ => UploadColorAndModelVC.uploaded vc w)
            { w with users := if o.writeLands then w.users.applyWrites eff.writes else w.users }
      | .error trap => w.crash trap

end World

/-! ## events -/

inductive Event where
  | fbLogin (granted : Bool)
  | googleSignIn (profile : Option Profile)
  | signInWithEmail
  | editSignin (email password : String)
  | signInPressed
  | closePressed
  | authLogOut (signsOut fetches : Bool)
  | findAppears (fetched : Fetch)
  | menuAppears (fetched : Fetch)
  | menuLogin (granted : Bool)
  | menuLogOut (signsOut fetches : Bool)
  | signOutPressed (signsOut fetches : Bool)
  | editUpload (nameTxt licensePlateTxt carColorTxt : String)
  | donePressed
  | deliver (i : Nat) (o : Outcome)
  | snapshot (i : Nat)
  | tokenExpires
  | relaunch
deriving DecidableEq, Repr

namespace World

/-- The server gives a new account a uid no account has. -/
def FreshUid (w : World) (o : Outcome) : Request → Prop
  | .createUser _ _ _ _ => o.uid ∉ w.accounts.toList.map Account.uid
  | _ => True

instance (w : World) (o : Outcome) : (r : Request) → Decidable (w.FreshUid o r)
  | .createUser _ _ _ _ => inferInstanceAs (Decidable (_ ∉ _))
  | .graph _ => inferInstanceAs (Decidable True)
  | .signIn _ _ _ => inferInstanceAs (Decidable True)
  | .carInfo _ _ _ _ _ => inferInstanceAs (Decidable True)

/-- One event in a running process; `none` when it is not enabled. -/
def act (w : World) : Event → Option World
  | .fbLogin granted => match w.modals with
    | .auth vc :: _ => some (AuthVC.loginButton vc granted w)
    | _ => none
  | .googleSignIn profile => match w.modals with
    | .auth vc :: _ => some (AuthVC.sign vc profile w)
    | _ => none
  | .signInWithEmail => match w.modals with
    | .auth vc :: _ => some (AuthVC.signInWithEmail vc w)
    | _ => none
  | .editSignin email password => match w.modals with
    | .signin vc :: _ =>
        some { w with signins := Function.update w.signins vc ⟨email, password⟩ }
    | _ => none
  | .signInPressed => match w.modals with
    | .signin vc :: _ => some (SigninVC.signInButtonWasPressed vc w)
    | _ => none
  | .closePressed => match w.modals with
    | .signin vc :: _ => some (SigninVC.closePressed vc w)
    | _ => none
  | .authLogOut signsOut fetches => match w.modals with
    | .auth _ :: _ =>
        if w.accessToken.isSome then some (AuthVC.loginButtonDidLogOut signsOut fetches w)
        else none
    | _ => none
  | .findAppears fetched =>
      if w.modals = [] ∧ fetched.Of w.store then some (FindVC.viewDidAppear fetched w) else none
  | .menuAppears fetched =>
      if w.modals = [] ∧ fetched.Of w.store then some (BurgerMenuVC.viewDidAppear fetched w)
      else none
  | .menuLogin granted =>
      if w.modals = [] ∧ w.menu = some .facebook ∧ w.accessToken = none then
        some (BurgerMenuVC.loginButton granted w)
      else none
  | .menuLogOut signsOut fetches =>
      if w.modals = [] ∧ w.menu = some .facebook ∧ w.accessToken.isSome then
        some (BurgerMenuVC.loginButtonDidLogOut signsOut fetches w)
      else none
  | .signOutPressed signsOut fetches =>
      if w.modals = [] ∧ w.menu = some .signOut then
        some (BurgerMenuVC.signOutWasPressed signsOut fetches w)
      else none
  | .editUpload nameTxt licensePlateTxt carColorTxt => match w.modals with
    | .upload vc :: _ =>
        some { w with
          uploads := Function.update w.uploads vc ⟨nameTxt, licensePlateTxt, carColorTxt⟩ }
    | _ => none
  | .donePressed => match w.modals with
    | .upload vc :: _ => some (UploadColorAndModelVC.doneBtnPressed vc w)
    | _ => none
  | .deliver i o => match w.pending[i]? with
    | some p =>
        if w.FreshUid o p.request then
          some ({ w with pending := w.pending.eraseIdx i }.complete p.flow o p.request)
        else none
    | none => none
  | .snapshot i => match w.observers[i]? with
    | some ob => some (ob.deliver w)
    | none => none
  | .tokenExpires => some { w with accessToken := w.accessToken.map fun _ => ⟨true⟩ }
  | .relaunch => some (AppDelegate.relaunch w)

/-- The request an event answers, with its outcome. -/
def answering (w : World) : Event → Option (Outcome × Pending)
  | .deliver i o => w.pending[i]?.map (Prod.mk o)
  | _ => none

theorem answering_deliver {w : World} {i : Nat} {o : Outcome} {p : Pending}
    (hp : w.pending[i]? = some p) : w.answering (.deliver i o) = some (o, p) := by
  rw [answering, hp, Option.map_some]

theorem deliver_of_answering {w : World} {ev : Event} {o : Outcome} {p : Pending}
    (h : w.answering ev = some (o, p)) : ∃ i, ev = .deliver i o ∧ w.pending[i]? = some p := by
  cases ev with
  | deliver i o' =>
      obtain ⟨q, hq, he⟩ := Option.map_eq_some_iff.mp h
      obtain ⟨rfl, rfl⟩ := Prod.mk.inj he
      exact ⟨i, rfl, hq⟩
  | _ => contradiction

/-- One step of the machine; a crashed process can only be launched again. -/
def step (w : World) (ev : Event) : Option World :=
  if w.crashed = none ∨ ev = .relaunch then w.act ev else none

/-- A fresh install, launched for the first time. -/
def fresh (cloud : Cloud) (available13 : Bool) : World :=
  AppDelegate.didFinishLaunching
    { toCloud := cloud
      available13 := available13
      currentUser := none
      accessToken := none
      store := CoreData.empty
      modals := []
      menu := none
      auths := fun _ => ⟨"", "", 0⟩
      signins := fun _ => ⟨"", ""⟩
      uploads := fun _ => ⟨"", "", ""⟩
      burger := ⟨"", "", "Name"⟩
      nextVC := 0
      pending := []
      observers := []
      nextFlow := 0
      log := []
      crashed := none }

end World

/-- A state of a run that starts from a fresh install. -/
def Reachable (w : World) : Prop :=
  ∃ cloud available13 es, Runs.run World.step (World.fresh cloud available13) es = some w

end StreetParker
