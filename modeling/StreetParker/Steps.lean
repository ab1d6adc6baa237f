import StreetParker.App

/-!
# StreetParker.Steps

What one step of the machine can do, said once.

* `step_cases` — the inversion lemma: an enabled event, the guard that
  enabled it and the state it leads to, as the cases of `Step`;
* `complete_cases` — the same for the delivery of an answer (`Completes`);
* `followUp`, `stores`, `covers` — the request a closure issues, the e-mail it
  stores and the screen it covers;
* `loginDone_eq`, `registerDone_eq` — the closures' effect in these terms.

The run-level modules derive their invariants from these facts and do not
unfold the controllers again.
-/

namespace StreetParker

open World

/-! ## the screen stack -/

/-- Appearing screens can only go away. -/
theorem appear_suffix (w : World) (l : List Modal) : w.appear l <:+ l := by
  induction l with
  | nil => exact List.suffix_refl _
  | cons m rest ih =>
      cases m with
      | upload vc => exact List.suffix_refl _
      | signin vc =>
          simp only [appear]
          split
          · exact ih.trans (List.suffix_cons _ _)
          · exact List.suffix_refl _
      | auth vc =>
          simp only [appear]
          split
          · exact ih.trans (List.suffix_cons _ _)
          · exact List.suffix_refl _

/-- Without a session the screens that appear stay. -/
@[simp] theorem appear_of_none {w : World} (hu : w.currentUser = none) (l : List Modal) :
    w.appear l = l := by
  cases l with
  | nil => rfl
  | cons m rest => cases m <;> simp [appear, hu]

/-- What goes away depends on the session and the `AuthVC`s alone. -/
theorem appear_congr {w w' : World} (hu : w.currentUser = w'.currentUser)
    (ha : w.auths = w'.auths) (l : List Modal) : w.appear l = w'.appear l := by
  induction l with
  | nil => rfl
  | cons m rest ih => cases m <;> simp [appear, hu, ha, ih]

theorem dismiss_congr {w w' : World} (hu : w.currentUser = w'.currentUser)
    (ha : w.auths = w'.auths) (hm : w.modals = w'.modals) (m : Modal) :
    (w.dismiss m).modals = (w'.dismiss m).modals := by
  simp only [dismiss, hm, appear_congr hu ha]

theorem dismiss?_congr {w w' : World} (hu : w.currentUser = w'.currentUser)
    (ha : w.auths = w'.auths) (hm : w.modals = w'.modals) (m : Option Modal) :
    (w.dismiss? m).modals = (w'.dismiss? m).modals := by
  cases m with
  | none => exact hm
  | some m => exact dismiss_congr hu ha hm m

theorem dismissFrom_suffix (m : Modal) (l : List Modal) : dismissFrom m l <:+ l := by
  cases l with
  | nil => exact List.suffix_refl _
  | cons top rest =>
      simp only [dismissFrom]
      split
      · exact List.suffix_cons _ _
      · exact List.dropWhile_suffix _

theorem dismiss_suffix (m : Modal) (w : World) : (w.dismiss m).modals <:+ w.modals := by
  simp only [dismiss]
  split
  · exact (appear_suffix _ _).trans (dismissFrom_suffix _ _)
  · exact List.suffix_refl _

theorem dismiss?_suffix (m : Option Modal) (w : World) :
    (w.dismiss? m).modals <:+ w.modals := by
  cases m with
  | none => exact List.suffix_refl _
  | some m => exact dismiss_suffix m w

/-! ## inversion -/

/-- A logout of the current session, by the event and the token it leaves. -/
inductive LogOut (w : World) : Event → Bool → Bool → Option AccessToken → Prop
  | auth {vc rest signsOut fetches} (hm : w.modals = .auth vc :: rest) :
      LogOut w (.authLogOut signsOut fetches) signsOut fetches none
  | menu {signsOut fetches} (hm : w.modals = []) (hb : w.menu = some .facebook) :
      LogOut w (.menuLogOut signsOut fetches) signsOut fetches none
  | button {signsOut fetches} (hm : w.modals = []) (hb : w.menu = some .signOut) :
      LogOut w (.signOutPressed signsOut fetches) signsOut fetches w.accessToken

/-- At a logout, whether the fetch of its deletion succeeds. -/
def Event.deletion? : Event → Option Bool
  | .authLogOut _ fetches => some fetches
  | .menuLogOut _ fetches => some fetches
  | .signOutPressed _ fetches => some fetches
  | _ => none

theorem LogOut.deletion {w : World} {ev : Event} {signsOut fetches : Bool}
    {token : Option AccessToken} (h : LogOut w ev signsOut fetches token) :
    ev.deletion? = some fetches := by
  cases h <;> rfl

/-- The session and the stored rows after a logout that did not throw. -/
def World.loggedOut (token : Option AccessToken) (fetches : Bool) (w : World) : World :=
  Dataservice.deleteAll fetches { w with accessToken := token, currentUser := none }

/-- What is left of an installation when its process ends. -/
def World.killed (w : World) : World :=
  { w with
    store := w.store.discard
    modals := []
    menu := none
    burger := ⟨"", "", "Name"⟩
    pending := []
    observers := []
    crashed := none }

/-- The `i`th request is no longer in flight. -/
def World.taken (i : Nat) (w : World) : World := { w with pending := w.pending.eraseIdx i }

/-- The steps of a running process, with their guards. -/
inductive Step (w : World) : Event → World → Prop
  | fbLogin {vc rest granted} (hm : w.modals = .auth vc :: rest) :
      Step w (.fbLogin granted) (AuthVC.loginButton vc granted w)
  | googleDeclined {vc rest} (hm : w.modals = .auth vc :: rest) :
      Step w (.googleSignIn none)
        { w with auths := Function.update w.auths vc { w.auths vc with emailLogged := 0 } }
  | googleTrap {vc rest profile} (hm : w.modals = .auth vc :: rest) :
      Step w (.googleSignIn (some profile))
        { w with
          auths := Function.update w.auths vc { w.auths vc with emailLogged := 0 }
          crashed := some .profileCast }
  | googleConfirmed {vc rest e n} (hm : w.modals = .auth vc :: rest) :
      Step w (.googleSignIn (some ⟨some e, some n⟩)) (AuthVC.sign vc (some ⟨some e, some n⟩) w)
  | signinShown {vc rest} (hm : w.modals = .auth vc :: rest) (hu : w.currentUser = none)
      (h13 : w.available13 = true) :
      Step w .signInWithEmail
        { w with
          auths := Function.update w.auths vc { w.auths vc with emailLogged := 1 }
          modals := .signin w.nextVC :: w.modals
          signins := Function.update w.signins w.nextVC ⟨"", ""⟩
          nextVC := w.nextVC + 1 }
  | signinSkipped {vc rest modals} (hm : w.modals = .auth vc :: rest)
      (hu : w.currentUser ≠ none) (hs : modals <:+ w.modals) :
      Step w .signInWithEmail
        { w with
          auths := Function.update w.auths vc { w.auths vc with emailLogged := 1 }
          modals := modals
          signins := Function.update w.signins w.nextVC ⟨"", ""⟩
          nextVC := w.nextVC + 1 }
  | signinMissing {vc rest} (hm : w.modals = .auth vc :: rest) :
      Step w .signInWithEmail
        { w with auths := Function.update w.auths vc { w.auths vc with emailLogged := 1 } }
  | editSignin {vc rest email password} (hm : w.modals = .signin vc :: rest) :
      Step w (.editSignin email password)
        { w with signins := Function.update w.signins vc ⟨email, password⟩ }
  | signInPressed {vc rest} (hm : w.modals = .signin vc :: rest) :
      Step w .signInPressed (SigninVC.signInButtonWasPressed vc w)
  | closed {vc rest} (hm : w.modals = .signin vc :: rest) (hu : w.currentUser = none) :
      Step w .closePressed { w with modals := rest }
  | closedSignedIn {vc rest modals} (hm : w.modals = .signin vc :: rest)
      (hu : w.currentUser ≠ none) (hs : modals <:+ w.modals) :
      Step w .closePressed { w with modals := modals }
  | signOutThrew {ev fetches token} (hl : LogOut w ev false fetches token) :
      Step w ev { w with accessToken := token, crashed := some .signOutThrew }
  | loggedOut {ev signsOut fetches token} (hl : LogOut w ev signsOut fetches token)
      (h : w.modals ≠ [] ∨ w.available13 = false) : Step w ev (w.loggedOut token fetches)
  | loggedOutToAuth {ev signsOut fetches token} (hl : LogOut w ev signsOut fetches token)
      (hm : w.modals = []) (h13 : w.available13 = true) :
      Step w ev (w.loggedOut token fetches).presentAuth
  | findSilent {fetched} (hm : w.modals = []) (hf : fetched.Of w.store)
      (ht : w.hasToken = true) :
      Step w (.findAppears fetched) (w.start .silent
        (.signIn ((Dataservice.fetchUserInfo fetched).getLast?.getD "") "FBUser" .silent))
  | findQuiet {fetched} (hm : w.modals = []) (ht : w.hasToken = false) :
      Step w (.findAppears fetched) w
  | menuFacebook {fetched burger ob} (hm : w.modals = []) (ht : w.hasToken = true) :
      Step w (.menuAppears fetched)
        { w with burger := burger, observers := w.observers ++ [ob], menu := some .facebook }
  | menuSignOut {fetched em} (hm : w.modals = []) (ht : w.hasToken = false)
      (he : w.currentEmail = some em) :
      Step w (.menuAppears fetched)
        { w with
          log := .entered .menuAppears w.currentUser :: w.log
          observers := w.observers ++ [.menuLabel em]
          menu := some .signOut }
  | menuTrap {fetched} (hm : w.modals = []) (ht : w.hasToken = false)
      (he : w.currentEmail = none) :
      Step w (.menuAppears fetched)
        { w with
          log := .entered .menuAppears w.currentUser :: w.log
          crashed := some .menuUnwrap }
  | menuLogin {granted token em} (hm : w.modals = []) (hb : w.menu = some .facebook)
      (he : w.currentEmail = some em) :
      Step w (.menuLogin granted) { w with accessToken := token }
  | menuLoginTrap {granted token} (hm : w.modals = []) (hb : w.menu = some .facebook)
      (he : w.currentEmail = none) :
      Step w (.menuLogin granted)
        { w with accessToken := token, crashed := some .menuLoginUnwrap }
  | editUpload {vc rest n l c} (hm : w.modals = .upload vc :: rest) :
      Step w (.editUpload n l c)
        { w with uploads := Function.update w.uploads vc ⟨n, l, c⟩ }
  | donePressed {vc rest em} (hm : w.modals = .upload vc :: rest)
      (he : w.currentEmail = some em) :
      Step w .donePressed ((w.record (.entered .donePressed w.currentUser)).start .upload
        (.carInfo vc em (w.uploads vc).nameTxt (w.uploads vc).licensePlateTxt
          (w.uploads vc).carColorTxt))
  | doneTrap {vc rest} (hm : w.modals = .upload vc :: rest) (he : w.currentEmail = none) :
      Step w .donePressed
        { w with
          log := .entered .donePressed w.currentUser :: w.log
          crashed := some .doneUnwrap }
  | deliver {i o p} (hp : w.pending[i]? = some p) (hu : w.FreshUid o p.request) :
      Step w (.deliver i o)
        ((w.taken i).complete p.flow o p.request)
  | snapshot {i ob} (ho : w.observers[i]? = some ob) : Step w (.snapshot i) (ob.deliver w)
  | tokenExpires :
      Step w .tokenExpires { w with accessToken := w.accessToken.map fun _ => ⟨true⟩ }
  | relaunched (hu : w.currentUser ≠ none) : Step w .relaunch w.killed
  | relaunchedToAuth (hu : w.currentUser = none) : Step w .relaunch w.killed.presentAuth

section Handlers

variable {w : World}

theorem step_googleSignIn {vc : Nat} {rest : List Modal} (hm : w.modals = .auth vc :: rest)
    (profile : Option Profile) : Step w (.googleSignIn profile) (AuthVC.sign vc profile w) := by
  obtain _ | ⟨_ | e, _ | n⟩ := profile
  · exact .googleDeclined hm
  · exact .googleTrap hm
  · exact .googleTrap hm
  · exact .googleTrap hm
  · exact .googleConfirmed hm

theorem step_signInWithEmail {vc : Nat} {rest : List Modal} (hm : w.modals = .auth vc :: rest) :
    Step w .signInWithEmail (AuthVC.signInWithEmail vc w) := by
  unfold AuthVC.signInWithEmail
  dsimp only
  split
  · next h13 =>
    by_cases hu : w.currentUser = none
    · rw [appear_of_none, present, if_pos (by rw [hm]; rfl)]
      · exact .signinShown hm hu h13
      · exact hu
    · refine .signinSkipped hm hu ?_
      have hsome : w.currentUser.isSome := Option.isSome_iff_ne_none.mpr hu
      rw [present, if_pos (by rw [hm]; rfl)]
      simp only [appear, hsome, if_true]
      exact appear_suffix _ _
  · exact .signinMissing hm

theorem step_closePressed {vc : Nat} {rest : List Modal} (hm : w.modals = .signin vc :: rest) :
    Step w .closePressed (SigninVC.closePressed vc w) := by
  unfold SigninVC.closePressed
  dsimp only
  by_cases hu : w.currentUser = none
  · have hd : w.dismiss (.signin vc) = { w with modals := rest } := by
      simp [dismiss, hm, dismissFrom, hu]
    rw [if_neg (by simp [hu]), hd]
    exact .closed hm hu
  · rw [if_pos (Option.isSome_iff_ne_none.mpr hu)]
    have hs := (dismiss_suffix (.signin vc) (w.dismiss? (presenting (.signin vc) w.modals))).trans
      (dismiss?_suffix _ w)
    cases hp : presenting (.signin vc) w.modals with
    | none =>
        rw [hp] at hs
        exact .closedSignedIn hm hu hs
    | some m =>
        rw [hp] at hs
        exact .closedSignedIn hm hu hs

theorem step_authLogOut {vc : Nat} {rest : List Modal} (hm : w.modals = .auth vc :: rest)
    (hc : w.crashed = none) (signsOut fetches : Bool) :
    Step w (.authLogOut signsOut fetches)
      (AuthVC.loginButtonDidLogOut signsOut fetches w) := by
  cases signsOut with
  | false => exact .signOutThrew (.auth hm)
  | true =>
      have he : AuthVC.loginButtonDidLogOut true fetches w = w.loggedOut none fetches := by
        simp [AuthVC.loginButtonDidLogOut, Authservice.signOut, hc, loggedOut]
      rw [he]
      exact .loggedOut (.auth hm) (.inl (by rw [hm]; exact List.cons_ne_nil _ _))

theorem step_menuLogOut (hm : w.modals = []) (hb : w.menu = some .facebook)
    (hc : w.crashed = none) (signsOut fetches : Bool) :
    Step w (.menuLogOut signsOut fetches)
      (BurgerMenuVC.loginButtonDidLogOut signsOut fetches w) := by
  cases signsOut with
  | false => exact .signOutThrew (.menu hm hb)
  | true =>
      have he : BurgerMenuVC.loginButtonDidLogOut true fetches w =
          if w.available13 then (w.loggedOut none fetches).presentAuth
          else w.loggedOut none fetches := by
        simp only [BurgerMenuVC.loginButtonDidLogOut, BurgerMenuVC.afterSignOut,
          Authservice.signOut, hc, loggedOut, Dataservice.deleteAll, if_true,
          Option.isSome_none, Bool.false_eq_true, if_false]
      rw [he]
      split
      · next h13 => exact .loggedOutToAuth (.menu hm hb) hm h13
      · next h13 => exact .loggedOut (.menu hm hb) (.inr (by simpa using h13))

theorem step_signOutPressed (hm : w.modals = []) (hb : w.menu = some .signOut)
    (hc : w.crashed = none) (signsOut fetches : Bool) :
    Step w (.signOutPressed signsOut fetches)
      (BurgerMenuVC.signOutWasPressed signsOut fetches w) := by
  by_cases hs : w.currentUser.isSome ∧ signsOut = false
  · obtain ⟨hu, rfl⟩ := hs
    have he : BurgerMenuVC.signOutWasPressed false fetches w =
        { w with accessToken := w.accessToken, crashed := some .signOutThrew } := by
      simp [BurgerMenuVC.signOutWasPressed, BurgerMenuVC.afterSignOut, Authservice.signOut, hu,
        crash]
    rw [he]
    exact .signOutThrew (.button hm hb)
  · -- nobody is signed in after the check, whichever branch it takes
    have hout : (if w.currentUser.isSome then Authservice.signOut signsOut w else w) =
        { w with accessToken := w.accessToken, currentUser := none } := by
      by_cases hu : w.currentUser.isSome
      · have ho : signsOut = true := by simpa [hu] using hs
        rw [if_pos hu, ho]
        rfl
      · have hn : w.currentUser = none := by simpa using hu
        rw [if_neg hu, ← hn]
    have he : BurgerMenuVC.signOutWasPressed signsOut fetches w =
        if w.available13 then (w.loggedOut w.accessToken fetches).presentAuth
        else w.loggedOut w.accessToken fetches := by
      simp only [BurgerMenuVC.signOutWasPressed, BurgerMenuVC.afterSignOut, hout, hc, loggedOut,
        Dataservice.deleteAll, Option.isSome_none, Bool.false_eq_true, if_false]
    rw [he]
    split
    · next h13 => exact .loggedOutToAuth (.button hm hb) hm h13
    · next h13 => exact .loggedOut (.button hm hb) (.inr (by simpa using h13))

theorem step_findAppears {fetched : Fetch} (hm : w.modals = []) (hf : fetched.Of w.store) :
    Step w (.findAppears fetched) (FindVC.viewDidAppear fetched w) := by
  unfold FindVC.viewDidAppear
  split
  · next ht => exact .findSilent hm hf ht
  · next ht => exact .findQuiet hm (by simpa using ht)

theorem step_menuAppears {fetched : Fetch} (hm : w.modals = []) :
    Step w (.menuAppears fetched) (BurgerMenuVC.viewDidAppear fetched w) := by
  unfold BurgerMenuVC.viewDidAppear
  split
  · next ht => exact .menuFacebook hm ht
  · next ht =>
      cases he : w.currentEmail with
      | some em =>
          have hr : (w.record (.entered .menuAppears w.currentUser)).currentEmail = some em := he
          simp only [hr]
          exact .menuSignOut hm (by simpa using ht) he
      | none =>
          have hr : (w.record (.entered .menuAppears w.currentUser)).currentEmail = none := he
          simp only [hr]
          exact .menuTrap hm (by simpa using ht) he

theorem step_menuLogin (hm : w.modals = []) (hb : w.menu = some .facebook) (granted : Bool) :
    Step w (.menuLogin granted) (BurgerMenuVC.loginButton granted w) := by
  unfold BurgerMenuVC.loginButton
  dsimp only
  split
  · next em he => exact .menuLogin hm hb he
  · next he => exact .menuLoginTrap hm hb he

theorem step_donePressed {vc : Nat} {rest : List Modal} (hm : w.modals = .upload vc :: rest) :
    Step w .donePressed (UploadColorAndModelVC.doneBtnPressed vc w) := by
  unfold UploadColorAndModelVC.doneBtnPressed
  dsimp only
  split
  · next em he => exact .donePressed hm he
  · next he => exact .doneTrap hm he

theorem step_relaunch : Step w .relaunch (AppDelegate.relaunch w) := by
  unfold AppDelegate.relaunch AppDelegate.didFinishLaunching
  split
  · next hu => exact .relaunchedToAuth (by simpa using hu)
  · next hu => exact .relaunched (by simpa using hu)

end Handlers

/-- **Inversion**: a step is one of the cases of `Step`, and only a relaunch
leaves a crashed process. -/
theorem step_cases {w w' : World} {ev : Event} (h : w.step ev = some w') :
    (w.crashed = none ∨ ev = .relaunch) ∧ Step w ev w' := by
  unfold step at h
  split at h
  · next hc =>
      refine ⟨hc, ?_⟩
      cases ev with
      | fbLogin granted =>
          simp only [act] at h
          split at h
          · next hm => cases h; exact .fbLogin hm
          · contradiction
      | googleSignIn profile =>
          simp only [act] at h
          split at h
          · next hm => cases h; exact step_googleSignIn hm profile
          · contradiction
      | signInWithEmail =>
          simp only [act] at h
          split at h
          · next hm => cases h; exact step_signInWithEmail hm
          · contradiction
      | editSignin email password =>
          simp only [act] at h
          split at h
          · next hm => cases h; exact .editSignin hm
          · contradiction
      | signInPressed =>
          simp only [act] at h
          split at h
          · next hm => cases h; exact .signInPressed hm
          · contradiction
      | closePressed =>
          simp only [act] at h
          split at h
          · next hm => cases h; exact step_closePressed hm
          · contradiction
      | authLogOut signsOut fetches =>
          simp only [act] at h
          split at h
          · next hm =>
              split at h
              · cases h; exact step_authLogOut hm (hc.resolve_right (by simp)) signsOut fetches
              · contradiction
          · contradiction
      | findAppears fetched =>
          simp only [act] at h
          split at h
          · next hg => cases h; exact step_findAppears hg.1 hg.2
          · contradiction
      | menuAppears fetched =>
          simp only [act] at h
          split at h
          · next hg => cases h; exact step_menuAppears hg.1
          · contradiction
      | menuLogin granted =>
          simp only [act] at h
          split at h
          · next hg => cases h; exact step_menuLogin hg.1 hg.2.1 granted
          · contradiction
      | menuLogOut signsOut fetches =>
          simp only [act] at h
          split at h
          · next hg =>
              cases h
              exact step_menuLogOut hg.1 hg.2.1 (hc.resolve_right (by simp)) signsOut fetches
          · contradiction
      | signOutPressed signsOut fetches =>
          simp only [act] at h
          split at h
          · next hg =>
              cases h
              exact step_signOutPressed hg.1 hg.2 (hc.resolve_right (by simp)) signsOut fetches
          · contradiction
      | editUpload n l c =>
          simp only [act] at h
          split at h
          · next hm => cases h; exact .editUpload hm
          · contradiction
      | donePressed =>
          simp only [act] at h
          split at h
          · next hm => cases h; exact step_donePressed hm
          · contradiction
      | deliver i o =>
          simp only [act] at h
          split at h
          · next hp =>
              split at h
              · next hu => cases h; exact .deliver hp hu
              · contradiction
          · contradiction
      | snapshot i =>
          simp only [act] at h
          split at h
          · next ho => cases h; exact .snapshot ho
          · contradiction
      | tokenExpires =>
          cases h
          exact .tokenExpires
      | relaunch =>
          cases h
          exact step_relaunch
  · contradiction

/-- Resetting `emailLogged` of an `AuthVC` leaves every e-mail and name alone. -/
theorem auths_logged (w : World) (vc emailLogged vc' : Nat) :
    (Function.update w.auths vc { w.auths vc with emailLogged := emailLogged } vc').email =
        (w.auths vc').email ∧
      (Function.update w.auths vc { w.auths vc with emailLogged := emailLogged } vc').name =
        (w.auths vc').name := by
  by_cases hv : vc' = vc
  · subst hv
    simp
  · simp [Function.update_of_ne hv]

/-- The delivery of an answer in particular. -/
theorem deliver_of_step {w w' : World} {i : Nat} {o : Outcome}
    (h : w.step (.deliver i o) = some w') :
    ∃ p, w.pending[i]? = some p ∧ w.FreshUid o p.request ∧
      w' = (w.taken i).complete p.flow o p.request := by
  obtain ⟨_, hs⟩ := step_cases h
  cases hs with
  | signOutThrew hl => cases hl
  | loggedOut hl _ => cases hl
  | loggedOutToAuth hl _ _ => cases hl
  | deliver hp hu => exact ⟨_, hp, hu, rfl⟩

/-- In a running process every request in flight can be answered. -/
theorem step_deliver {w : World} (hc : w.crashed = none) {i : Nat} {o : Outcome} {p : Pending}
    (hp : w.pending[i]? = some p) (hu : w.FreshUid o p.request) :
    w.step (.deliver i o) = some ((w.taken i).complete p.flow o p.request) := by
  rw [World.step, if_pos (.inl hc)]
  simp only [act, hp, if_pos hu]
  rfl

/-! ## observers -/

/-- The casts and the unwrap of `getNameForEmail`. -/
theorem getNameForEmail_error {em : String} {currentUser : Option User} {snapshot : Snapshot}
    {trap : Trap} (h : Dataservice.getNameForEmail em currentUser snapshot = .error trap) :
    trap = .emailCast ∨ trap = .nameCast ∨ trap = .fallbackUnwrap := by
  have hstring : ∀ {user : Record} {key t t'},
      Dataservice.stringChild user key t = .error t' → t' = t := by
    intro user key t t' hs
    unfold Dataservice.stringChild at hs
    split at hs
    · contradiction
    · exact (Except.error.inj hs).symm
  have hname : ∀ {user : Record} {t}, Dataservice.displayName currentUser user = .error t →
      t = .nameCast ∨ t = .fallbackUnwrap := by
    intro user t hd
    unfold Dataservice.displayName at hd
    split at hd
    · exact .inl (hstring hd)
    · split at hd
      · contradiction
      · exact .inr (Except.error.inj hd).symm
  induction snapshot with
  | nil => simp [Dataservice.getNameForEmail] at h
  | cons p rest ih =>
      simp only [Dataservice.getNameForEmail, bind, Except.bind] at h
      split at h
      · next t hs => exact .inl (by rw [← Except.error.inj h]; exact hstring hs)
      · split at h
        · split at h
          · next t hd => exact .inr (by rw [← Except.error.inj h]; exact hname hd)
          · split at h
            · next t hr => exact ih (by rw [hr, ← Except.error.inj h])
            · contradiction
        · exact ih h

/-- A delivery to an observer changes labels and text fields, or crashes. -/
theorem observer_deliver_eq (ob : Observer) (w : World) :
    ∃ burger uploads crashed,
      ob.deliver w = { w with burger := burger, uploads := uploads, crashed := crashed } ∧
      (crashed = w.crashed ∨ ∃ trap, crashed = some trap ∧
        (trap = .emailCast ∨ trap = .nameCast ∨ trap = .fallbackUnwrap)) := by
  unfold Observer.deliver
  split
  · next names hn =>
      clear hn
      induction names generalizing w with
      | nil => exact ⟨_, _, _, rfl, .inl rfl⟩
      | cons name names ih =>
          obtain ⟨b, u, c, h, hc⟩ := ih (Observer.handler w ob name)
          rw [List.foldl_cons, h]
          cases ob <;> exact ⟨b, u, c, rfl, hc⟩
  · next trap ht => exact ⟨_, _, _, rfl, .inr ⟨trap, rfl, getNameForEmail_error ht⟩⟩

/-! ## what closures do -/

/-- The request the completion of a sign-in issues. -/
def LoginDone.followUp (w : World) : LoginDone → Option Request
  | .social vc password => some (.createUser (w.auths vc).email password
      (some (w.auths vc).name) (.social vc password))
  | .email vc => some (.createUser (w.signins vc).emailField (w.signins vc).passwordField none
      (.email vc))
  | .socialAgain _ _ => none
  | .emailAgain _ => none
  | .silent => none

/-- The request the completion of a registration issues. -/
def RegisterDone.followUp (w : World) (success : Bool) : RegisterDone → Option Request
  | .social vc password =>
      if success then some (.signIn (w.auths vc).email password (.socialAgain vc password))
      else none
  | .email vc =>
      if success then
        some (.signIn (w.signins vc).emailField (w.signins vc).passwordField (.emailAgain vc))
      else none

/-- The e-mail the completion of a sign-in stores. -/
def LoginDone.stores (w : World) (success : Bool) : LoginDone → Option String
  | .social vc _ => if success then some (w.auths vc).email else none
  | .email vc => if success then some (w.signins vc).emailField else none
  | .socialAgain vc _ => some (w.auths vc).email
  | .emailAgain _ => none
  | .silent => none

/-- Whether it deletes the stored rows before that. -/
def LoginDone.purges (success : Bool) : LoginDone → Bool
  | .social _ _ => false
  | .email _ => success
  | .socialAgain _ _ => true
  | .emailAgain _ => false
  | .silent => false

/-- The controller over which it presents the upload screen. -/
def LoginDone.covers (w : World) : LoginDone → Option Modal
  | .socialAgain vc _ => some (.auth vc)
  | .emailAgain vc => if w.available13 then some (.signin vc) else none
  | .social _ _ => none
  | .email _ => none
  | .silent => none

/-- The upload screen is shown: its presenter is on top. -/
def LoginDone.Shows (w : World) (done : LoginDone) : Prop :=
  ∃ m rest, done.covers w = some m ∧ w.modals = m :: rest

instance (w : World) (done : LoginDone) : Decidable (done.Shows w) :=
  decidable_of_iff (done.covers w ≠ none ∧ w.modals.head? = done.covers w) <| by
    constructor
    · rintro ⟨hne, hh⟩
      obtain ⟨m, hm⟩ := Option.ne_none_iff_exists'.mp hne
      rw [hm] at hh
      obtain ⟨rest, hr⟩ := List.head?_eq_some_iff.mp hh
      exact ⟨m, rest, hm, hr⟩
    · rintro ⟨m, rest, hm, hr⟩
      simp [hm, hr]

/-- Presenting the upload screen over the controller on top. -/
theorem presentUpload_of_head {m : Modal} {rest : List Modal} {w : World}
    (h : w.modals = m :: rest) :
    UploadColorAndModelVC.presentUpload m w =
      UploadColorAndModelVC.viewDidLoad w.nextVC
        { w with
          modals := .upload w.nextVC :: w.modals
          uploads := Function.update w.uploads w.nextVC ⟨"", "", ""⟩
          nextVC := w.nextVC + 1 } := by
  have hh : w.modals.head? = some m := by rw [h]; rfl
  rw [UploadColorAndModelVC.presentUpload, if_pos hh, present, if_pos hh]

theorem presentUpload_of_ne {m : Modal} {w : World} (h : ∀ rest, w.modals ≠ m :: rest) :
    UploadColorAndModelVC.presentUpload m w = w := by
  rw [UploadColorAndModelVC.presentUpload, if_neg]
  intro hh
  obtain ⟨rest, hr⟩ := List.head?_eq_some_iff.mp hh
  exact h rest hr

theorem viewDidLoad_eq (vc : Nat) (w : World) :
    ∃ observers crashed,
      UploadColorAndModelVC.viewDidLoad vc w =
        { w with
          log := .entered .uploadLoads w.currentUser :: w.log
          observers := observers
          crashed := crashed } ∧
      ((w.currentEmail = none ∧ crashed = some .uploadUnwrap) ∨
        (w.currentEmail ≠ none ∧ crashed = w.crashed)) := by
  unfold UploadColorAndModelVC.viewDidLoad
  dsimp only
  split
  · next em he =>
      refine ⟨_, w.crashed, rfl, .inr ⟨?_, rfl⟩⟩
      exact fun hn => absurd (he.symm.trans hn) (by simp)
  · next he => exact ⟨w.observers, _, rfl, .inl ⟨he, rfl⟩⟩

/-- A closure that shows the upload screen: what is on top of its other
effects. -/
theorem presentUpload_shows {m : Modal} {rest : List Modal} {w : World}
    (h : w.modals = m :: rest) :
    ∃ observers uploads crashed,
      UploadColorAndModelVC.presentUpload m w =
        { w with
          modals := .upload w.nextVC :: w.modals
          nextVC := w.nextVC + 1
          log := .entered .uploadLoads w.currentUser :: w.log
          observers := observers
          uploads := uploads
          crashed := crashed } ∧
      ((w.currentEmail = none ∧ crashed = some .uploadUnwrap) ∨
        (w.currentEmail ≠ none ∧ crashed = w.crashed)) := by
  rw [presentUpload_of_head h]
  obtain ⟨observers, crashed, he, hc⟩ := viewDidLoad_eq w.nextVC
    { w with
      modals := .upload w.nextVC :: w.modals
      uploads := Function.update w.uploads w.nextVC ⟨"", "", ""⟩
      nextVC := w.nextVC + 1 }
  exact ⟨observers, _, crashed, he, hc⟩

theorem dismiss?_eq (m : Option Modal) (w : World) :
    w.dismiss? m = { w with modals := (w.dismiss? m).modals } := by
  cases m <;> rfl

/-- The store after the completion of a sign-in. -/
def LoginDone.storeAfter (w : World) (success : Bool) (o : Outcome) (done : LoginDone) :
    CoreData :=
  let s := if done.purges success then (Dataservice.deleteAllDataFromCoreData o.fetches w.store).1
    else w.store
  match done.stores w success with
  | some em => (Dataservice.save em o.saves s).1
  | none => s

/-- The requests of a chain, as pending requests and as entries of the record. -/
def pendingOf (flow : Flow) (r : Option Request) : List Pending := r.toList.map (Pending.mk flow)

def sentOf (flow : Flow) (r : Option Request) : List Entry := r.toList.map (Entry.sent flow)

def savedOf (flow : Flow) (em : Option String) : List Entry := em.toList.map (Entry.saved flow)

@[simp] theorem mem_pendingOf {flow : Flow} {r : Option Request} {p : Pending} :
    p ∈ pendingOf flow r ↔ ∃ q, r = some q ∧ p = ⟨flow, q⟩ := by
  cases r <;> simp [pendingOf]

@[simp] theorem mem_sentOf {flow : Flow} {r : Option Request} {e : Entry} :
    e ∈ sentOf flow r ↔ ∃ q, r = some q ∧ e = .sent flow q := by
  cases r <;> simp [sentOf]

@[simp] theorem mem_savedOf {flow : Flow} {em : Option String} {e : Entry} :
    e ∈ savedOf flow em ↔ ∃ s, em = some s ∧ e = .saved flow s := by
  cases em <;> simp [savedOf]

/-- A sign-in leaves the controllers' properties alone. -/
@[simp] theorem followUp_signedIn (flow : Flow) (a : Account) (w : World) (done : LoginDone) :
    done.followUp (w.signedIn flow a) = done.followUp w := by
  cases done <;> rfl

@[simp] theorem stores_signedIn (flow : Flow) (a : Account) (w : World) (success : Bool)
    (done : LoginDone) : done.stores (w.signedIn flow a) success = done.stores w success := by
  cases done <;> rfl

theorem userCreated_eq (flow : Flow) (name : Option String) (writeLands : Bool) (a : Account)
    (w : World) :
    w.userCreated flow name writeLands a =
      { w with
        currentUser := some a.user
        log := .signedIn flow a.user :: w.log
        users := if writeLands then
            Dataservice.createDBUser w.users a.uid (Dataservice.registrationData a.user name)
          else w.users } := by
  unfold userCreated
  cases writeLands <;> rfl

@[simp] theorem followUp_userCreated (flow : Flow) (name : Option String) (writeLands : Bool)
    (a : Account) (w : World) (db : Accounts) (done : RegisterDone) (success : Bool) :
    done.followUp ({ w with accounts := db }.userCreated flow name writeLands a) success =
      done.followUp w success := by
  rw [userCreated_eq]
  cases done <;> rfl

/-- What a completion does to the screens, and what showing one entails. -/
structure Shown where
  modals : List Modal
  nextVC : Nat
  gate : List Entry
  crashed : Option Trap
  observers : List Observer
  uploads : Nat → UploadColorAndModelVC

/-- The screens a completion leaves if it shows nothing. -/
def LoginDone.dismissed (w : World) (success : Bool) : LoginDone → List Modal
  | .social vc _ => if success then (w.dismiss (.auth vc)).modals else w.modals
  | .email vc =>
      if success then
        ((w.dismiss (.signin vc)).dismiss? (presenting (.signin vc) w.modals)).modals
      else w.modals
  | .socialAgain _ _ => w.modals
  | .emailAgain _ => w.modals
  | .silent => w.modals

theorem dismissed_suffix (w : World) (success : Bool) (done : LoginDone) :
    done.dismissed w success <:+ w.modals := by
  cases done with
  | social vc password =>
      cases success
      · exact List.suffix_refl _
      · exact dismiss_suffix _ w
  | email vc =>
      cases success
      · exact List.suffix_refl _
      · exact (dismiss?_suffix _ _).trans (dismiss_suffix _ w)
  | _ => exact List.suffix_refl _

/-- How the completion of a sign-in leaves the screens: it shows the upload
screen, or takes some screens away. -/
inductive LoginDone.Screens (w : World) (done : LoginDone) (success : Bool) (sh : Shown) : Prop
  | shows (h : done.Shows w) (hm : sh.modals = .upload w.nextVC :: w.modals)
      (hn : sh.nextVC = w.nextVC + 1) (hg : sh.gate = [.entered .uploadLoads w.currentUser])
      (hc : (w.currentEmail = none ∧ sh.crashed = some .uploadUnwrap) ∨
        (w.currentEmail ≠ none ∧ sh.crashed = w.crashed))
  | hides (h : ¬done.Shows w) (hm : sh.modals = done.dismissed w success)
      (hn : sh.nextVC = w.nextVC) (hg : sh.gate = []) (hc : sh.crashed = w.crashed)

section Screens

variable {w : World} {done : LoginDone} {success : Bool} {sh : Shown}

/-- What a completion puts on record about its screens is an entry. -/
theorem LoginDone.Screens.entered (h : done.Screens w success sh) :
    ∀ x ∈ sh.gate, ∃ gate cu, x = Entry.entered gate cu := by
  intro x hx
  cases h with
  | shows _ _ _ hg _ =>
      rw [hg, List.mem_singleton] at hx
      exact ⟨_, _, hx⟩
  | hides _ _ _ hg _ =>
      rw [hg] at hx
      exact absurd hx List.not_mem_nil

/-- The only screen it can add is an upload screen. -/
theorem LoginDone.Screens.mem_modals (h : done.Screens w success sh) {m : Modal}
    (hm : m ∈ sh.modals) : m ∈ w.modals ∨ ∃ vc, m = .upload vc := by
  cases h with
  | shows _ hm' _ _ _ =>
      rw [hm'] at hm
      exact (List.mem_cons.mp hm).symm.imp_right fun he => ⟨_, he⟩
  | hides _ hm' _ _ _ =>
      rw [hm'] at hm
      exact .inl ((dismissed_suffix w success done).subset hm)

/-- A completion that covers no screen shows none. -/
theorem LoginDone.Screens.hidden (h : done.Screens w success sh) (hc : done.covers w = none) :
    sh.modals = done.dismissed w success ∧ sh.crashed = w.crashed := by
  cases h with
  | shows hs _ _ _ _ =>
      obtain ⟨m, _, hm, _⟩ := hs
      rw [hc] at hm
      contradiction
  | hides _ hm _ _ hcr => exact ⟨hm, hcr⟩

end Screens

/-- The state after the completion of a sign-in, given what it shows. -/
def LoginDone.after (done : LoginDone) (flow : Flow) (success : Bool) (o : Outcome) (sh : Shown)
    (w : World) : World :=
  { w with
    pending := w.pending ++ pendingOf flow (done.followUp w)
    store := done.storeAfter w success o
    log := sentOf flow (done.followUp w) ++ sh.gate ++ savedOf flow (done.stores w success) ++
      w.log
    modals := sh.modals
    nextVC := sh.nextVC
    crashed := sh.crashed
    observers := sh.observers
    uploads := sh.uploads }

/-- A completion that shows nothing. -/
def World.shown (w : World) (modals : List Modal) : Shown :=
  ⟨modals, w.nextVC, [], w.crashed, w.observers, w.uploads⟩

/-- **The completion of a sign-in**: at most one follow-up, at most one stored
e-mail, and what happens to the screens. -/
theorem loginDone_eq (done : LoginDone) (flow : Flow) (success : Bool) (o : Outcome)
    (w : World) :
    ∃ sh, done.run flow success o w = done.after flow success o sh w ∧
      done.Screens w success sh := by
  cases done with
  | social vc password =>
      have hn : ¬LoginDone.Shows w (.social vc password) := by
        simp [LoginDone.Shows, LoginDone.covers]
      cases success with
      | false => exact ⟨w.shown w.modals, rfl, .hides hn rfl rfl rfl rfl⟩
      | true =>
          have hd : ((Dataservice.saveUser flow (w.auths vc).email o.saves w).dismiss
              (.auth vc)).modals = (w.dismiss (.auth vc)).modals := by
            refine dismiss_congr ?_ ?_ ?_ _ <;> rfl
          exact ⟨w.shown _, rfl, .hides hn hd rfl rfl rfl⟩
  | socialAgain vc password =>
      by_cases hs : ∃ rest, w.modals = .auth vc :: rest
      · obtain ⟨rest, hm⟩ := hs
        obtain ⟨observers, uploads, crashed, he, hc⟩ := presentUpload_shows
          (w := Dataservice.saveUser flow (w.auths vc).email o.saves
            (Dataservice.deleteAll o.fetches w)) hm
        refine ⟨⟨_, _, [.entered .uploadLoads w.currentUser], crashed, observers, uploads⟩, ?_,
          .shows ⟨_, rest, rfl, hm⟩ rfl rfl rfl hc⟩
        refine he.trans ?_
        simp [LoginDone.after, LoginDone.followUp, pendingOf, sentOf, savedOf, LoginDone.stores,
          LoginDone.storeAfter, LoginDone.purges, Dataservice.saveUser, Dataservice.deleteAll]
      · have he := presentUpload_of_ne (m := .auth vc)
          (w := Dataservice.saveUser flow (w.auths vc).email o.saves
            (Dataservice.deleteAll o.fetches w)) fun rest hm => hs ⟨rest, hm⟩
        have hn : ¬LoginDone.Shows w (.socialAgain vc password) := by
          rintro ⟨m, rest, h, hm⟩
          cases h
          exact hs ⟨rest, hm⟩
        refine ⟨w.shown w.modals, he.trans ?_, .hides hn rfl rfl rfl rfl⟩
        simp [LoginDone.after, LoginDone.followUp, pendingOf, sentOf, savedOf, LoginDone.stores,
          LoginDone.storeAfter, LoginDone.purges, Dataservice.saveUser, Dataservice.deleteAll,
          shown]
  | email vc =>
      have hn : ¬LoginDone.Shows w (.email vc) := by
        simp [LoginDone.Shows, LoginDone.covers]
      cases success with
      | false => exact ⟨w.shown w.modals, rfl, .hides hn rfl rfl rfl rfl⟩
      | true =>
          have hd : (((Dataservice.saveUser flow (w.signins vc).emailField o.saves
                (Dataservice.deleteAll o.fetches w)).dismiss (.signin vc)).dismiss?
                (presenting (.signin vc) w.modals)).modals =
              LoginDone.dismissed w true (.email vc) := by
            rw [LoginDone.dismissed, if_pos rfl]
            refine dismiss?_congr ?_ ?_ (dismiss_congr ?_ ?_ ?_ (.signin vc)) _ <;> rfl
          refine ⟨w.shown _, ?_, .hides hn hd rfl rfl rfl⟩
          rw [LoginDone.run, SigninVC.loginCompletion, if_pos rfl]
          dsimp only
          rw [dismiss?_eq]
          rfl
  | emailAgain vc =>
      by_cases hs : ∃ rest, w.available13 = true ∧ w.modals = .signin vc :: rest
      · obtain ⟨rest, h13, hm⟩ := hs
        obtain ⟨observers, uploads, crashed, he, hc⟩ := presentUpload_shows hm
        refine ⟨⟨_, _, [.entered .uploadLoads w.currentUser], crashed, observers, uploads⟩, ?_,
          .shows ⟨_, rest, if_pos h13, hm⟩ rfl rfl rfl hc⟩
        rw [LoginDone.run, SigninVC.secondLoginCompletion, if_pos h13, he]
        simp [LoginDone.after, LoginDone.followUp, pendingOf, sentOf, savedOf, LoginDone.stores,
          LoginDone.storeAfter, LoginDone.purges]
      · have he : SigninVC.secondLoginCompletion vc w = w := by
          unfold SigninVC.secondLoginCompletion
          split
          · next h13 => exact presentUpload_of_ne fun rest hm => hs ⟨rest, h13, hm⟩
          · rfl
        have hn : ¬LoginDone.Shows w (.emailAgain vc) := by
          rintro ⟨m, rest, h, hm⟩
          simp only [LoginDone.covers] at h
          split at h
          · next h13 =>
              cases h
              exact hs ⟨rest, h13, hm⟩
          · contradiction
        refine ⟨w.shown w.modals, he.trans ?_, .hides hn rfl rfl rfl rfl⟩
        simp [LoginDone.after, LoginDone.followUp, pendingOf, sentOf, savedOf, LoginDone.stores,
          LoginDone.storeAfter, LoginDone.purges, shown]
  | silent =>
      have hn : ¬LoginDone.Shows w .silent := by
        simp [LoginDone.Shows, LoginDone.covers]
      refine ⟨w.shown w.modals, ?_, .hides hn rfl rfl rfl rfl⟩
      simp [LoginDone.run, LoginDone.after, LoginDone.followUp, pendingOf, sentOf, savedOf,
        LoginDone.stores, LoginDone.storeAfter, LoginDone.purges, shown]

/-- The state after the completion of a registration. -/
def RegisterDone.after (done : RegisterDone) (flow : Flow) (success : Bool) (w : World) : World :=
  { w with
    pending := w.pending ++ pendingOf flow (done.followUp w success)
    log := sentOf flow (done.followUp w success) ++ w.log }

/-- **The completion of a registration** issues its follow-up and does nothing
else. -/
theorem registerDone_eq (done : RegisterDone) (flow : Flow) (success : Bool) (w : World) :
    done.run flow success w = done.after flow success w := by
  cases done <;> cases success <;>
    simp [RegisterDone.run, AuthVC.registerCompletion, SigninVC.registerCompletion,
      RegisterDone.after, RegisterDone.followUp, pendingOf, sentOf, Authservice.loginUser,
      Authservice.loginSocialUser, send]

/-- The screens after the handler calls of one callback of `uploadCarInfo`. -/
def uploadedModals (vc : Nat) (handled : List String) (w : World) : List Modal :=
  (handled.foldl (fun w _ => UploadColorAndModelVC.uploaded vc w) w).modals

/-- The handler of `uploadCarInfo` takes screens away and does nothing else. -/
theorem foldl_uploaded_eq (vc : Nat) (handled : List String) (w : World) :
    handled.foldl (fun w _ => UploadColorAndModelVC.uploaded vc w) w =
      { w with modals := uploadedModals vc handled w } := by
  induction handled generalizing w with
  | nil => rfl
  | cons m handled ih =>
      rw [List.foldl_cons, ih, uploadedModals, uploadedModals, List.foldl_cons]
      unfold UploadColorAndModelVC.uploaded
      dsimp only
      cases presenting (.upload vc) w.modals <;> rfl

theorem uploadedModals_suffix (vc : Nat) (handled : List String) (w : World) :
    uploadedModals vc handled w <:+ w.modals := by
  induction handled generalizing w with
  | nil => exact List.suffix_refl _
  | cons m handled ih =>
      exact (ih _).trans ((dismiss?_suffix _ _).trans (dismiss_suffix _ w))

/-! ## deliveries -/

/-- A sign-in that is answered with a success finds an account. -/
theorem signInReply_some {w : World} {o : Outcome} {email password : String} {a : Account}
    (h : w.signInReply o email password = some a) :
    a ∈ w.accounts ∧ a.email = email ∧ a.password = password := by
  unfold signInReply at h
  split at h
  · exact Accounts.signIn_some h
  · contradiction

/-- The server creates an account for a free e-mail. -/
theorem createUserReply_some {w : World} {o : Outcome} {email password : String} {a : Account}
    {db : Accounts} (h : w.createUserReply o email password = some (a, db)) :
    w.accounts.Free email ∧ a = ⟨o.uid, email, password⟩ ∧
      db.toList = a :: w.accounts.toList := by
  unfold createUserReply at h
  split at h
  · contradiction
  · exact Accounts.createUser_some h

/-- The ways a request completes, and the state that is left. -/
inductive Completes (w : World) (flow : Flow) (o : Outcome) : Request → World → Prop
  | graphFailed {vc} (hp : o.profile = none) : Completes w flow o (.graph vc) w
  | graphTrap {vc profile} (hp : o.profile = some profile)
      (hn : ∀ e n, profile ≠ ⟨some e, some n⟩) :
      Completes w flow o (.graph vc) { w with crashed := some .profileCast }
  | graphConfirmed {vc e n} (hp : o.profile = some ⟨some e, some n⟩) :
      Completes w flow o (.graph vc) (AuthVC.confirm vc flow .facebook e n w)
  | accepted {email password done a sh} (ha : w.signInReply o email password = some a)
      (hs : done.Screens (w.signedIn flow a) true sh) :
      Completes w flow o (.signIn email password done)
        (done.after flow true o sh (w.signedIn flow a))
  | refused {email password done sh} (ha : w.signInReply o email password = none)
      (hs : done.Screens w false sh) :
      Completes w flow o (.signIn email password done) (done.after flow false o sh w)
  | created {email password name done a db}
      (ha : w.createUserReply o email password = some (a, db)) (ho : o.answer = .answered) :
      Completes w flow o (.createUser email password name done)
        (done.after flow true ({ w with accounts := db }.userCreated flow name o.writeLands a))
  | createdUnheard {email password name done a db}
      (ha : w.createUserReply o email password = some (a, db)) (ho : o.answer ≠ .answered) :
      Completes w flow o (.createUser email password name done) { w with accounts := db }
  | notCreated {email password name done}
      (ha : w.createUserReply o email password = none) :
      Completes w flow o (.createUser email password name done) w
  | uploaded {vc em name plNumber color eff users}
      (he : Dataservice.uploadCarInfo em name plNumber color w.currentUser w.users.snapshot =
        .ok eff)
      (hu : users = if o.writeLands then w.users.applyWrites eff.writes else w.users) :
      Completes w flow o (.carInfo vc em name plNumber color)
        { w with
          users := users
          modals := uploadedModals vc eff.handled { w with users := users } }
  | uploadTrap {vc em name plNumber color trap}
      (he : Dataservice.uploadCarInfo em name plNumber color w.currentUser w.users.snapshot =
        .error trap) :
      Completes w flow o (.carInfo vc em name plNumber color) { w with crashed := some trap }

/-- A refused registration issues nothing. -/
theorem registerDone_refused (done : RegisterDone) (flow : Flow) (w : World) :
    done.run flow false w = w := by
  cases done <;> rfl

/-- **Deliveries**: a request completes in one of these ways. -/
theorem complete_cases (w : World) (flow : Flow) (o : Outcome) (r : Request) :
    Completes w flow o r (w.complete flow o r) := by
  cases r with
  | graph vc =>
      simp only [complete, AuthVC.graphCompletion]
      split
      · next hp => exact .graphFailed hp
      · next hp => exact .graphConfirmed hp
      · next hn hp => exact .graphTrap hp hn
  | signIn email password done =>
      simp only [complete]
      split
      · next a ha =>
          obtain ⟨sh, he, hs⟩ := loginDone_eq done flow true o (w.signedIn flow a)
          rw [he]
          exact .accepted ha hs
      · next ha =>
          obtain ⟨sh, he, hs⟩ := loginDone_eq done flow false o w
          rw [he]
          exact .refused ha hs
  | createUser email password name done =>
      simp only [complete]
      split
      · next ha =>
          split
          · next ho =>
              rw [registerDone_eq]
              exact .created ha ho
          · next ho =>
              rw [registerDone_refused]
              exact .createdUnheard ha ho
      · next ha =>
          rw [registerDone_refused]
          exact .notCreated ha
  | carInfo vc em name plNumber color =>
      simp only [complete]
      split
      · next eff he =>
          rw [foldl_uploaded_eq]
          exact .uploaded he rfl
      · next he => exact .uploadTrap he

end StreetParker
