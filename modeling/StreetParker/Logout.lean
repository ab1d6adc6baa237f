import StreetParker.History
import StreetParker.Screens
import StreetParker.Store

/-!
# StreetParker.Logout

What can end a logout.  The application never cancels a request, so a sign-in
that is in flight at a logout, or one that its completion issues, still signs
its account in.  Nothing else does but a login or registration that the user
starts afterwards.

* `Event.IsLogOut` — the three logout handlers;
* `LoggedOut` — the invariant of the time after a logout: nobody is signed in
  and every chain in flight is one of these;
* `logout_of_run` — over every run after a logout;
* `allOrNothing_iff` — when a logout ends the session and drops the rows, or
  does neither.
-/

namespace StreetParker

open World

/-! ## what may sign in after a logout -/

/-- The three logout handlers. -/
def Event.IsLogOut : Event → Prop
  | .authLogOut _ _ => True
  | .menuLogOut _ _ => True
  | .signOutPressed _ _ => True
  | _ => False

/-- A request whose chain can sign somebody in. -/
def Request.IsLogin : Request → Prop
  | .carInfo _ _ _ _ _ => False
  | .graph _ => True
  | .signIn _ _ _ => True
  | .createUser _ _ _ _ => True

/-- A chain that a login or registration of the user started. -/
def Flow.ByUser (flow : Flow) : Prop :=
  flow.origin = .facebook ∨ flow.origin = .google ∨ flow.origin = .email

/-- A chain the user started after the state `w₁`, or one with a request in
flight there. -/
def Admitted (w₁ : World) (flow : Flow) : Prop :=
  (flow.ByUser ∧ w₁.nextFlow ≤ flow.id) ∨
    ∃ p ∈ w₁.pending, p.flow = flow ∧ p.request.IsLogin

/-- Such a chain has signed somebody in since. -/
def SignedInSince (w₁ t : World) : Prop :=
  ∃ new flow user, t.log = new ++ w₁.log ∧ Entry.signedIn flow user ∈ new ∧ Admitted w₁ flow

variable {w₁ w w' : World}

theorem SignedInSince.later (h : SignedInSince w₁ w) (hl : Later w w') :
    SignedInSince w₁ w' := by
  obtain ⟨new, flow, user, he, hin, ha⟩ := h
  obtain ⟨more, hm⟩ := hl.log
  exact ⟨more ++ new, flow, user, by rw [← hm, he, List.append_assoc],
    List.mem_append_right _ hin, ha⟩

/-- A sign-in by an admitted chain, put on record now. -/
theorem signedInSince_of_log (flow : Flow) (user : User) (new : List Entry) (hl : Later w₁ w)
    (he : w'.log = new ++ w.log) (hin : .signedIn flow user ∈ new) (ha : Admitted w₁ flow) :
    SignedInSince w₁ w' := by
  obtain ⟨more, hm⟩ := hl.log
  exact ⟨new ++ more, flow, user, by rw [he, ← hm, List.append_assoc],
    List.mem_append_left _ hin, ha⟩

/-! ## the invariant -/

/-- The time after the logout that ended in `w₁`. -/
structure LoggedOut (w₁ w : World) : Prop where
  sound : Sound w
  later : Later w₁ w
  currentUser : w.currentUser = none
  pending : ∀ p ∈ w.pending, p.request.IsLogin → Admitted w₁ p.flow

namespace LoggedOut

theorem frame (h : LoggedOut w₁ w) (hs : Sound w') (hl : Later w w')
    (hu : w'.currentUser = none)
    (hp : ∀ p ∈ w'.pending, p ∈ w.pending ∨ (p.request.IsLogin → Admitted w₁ p.flow)) :
    LoggedOut w₁ w' := by
  refine ⟨hs, h.later.trans hl, hu, fun p hin hr => ?_⟩
  obtain hin | ha := hp p hin
  · exact h.pending p hin hr
  · exact ha hr

/-- A chain the user starts now is admitted. -/
theorem admitted_newFlow (h : LoggedOut w₁ w) {origin : Origin}
    (ho : (⟨w.nextFlow, origin⟩ : Flow).ByUser) : Admitted w₁ ⟨w.nextFlow, origin⟩ :=
  .inl ⟨ho, h.later.nextFlow⟩

/-- One more request in flight, of an admitted chain. -/
theorem pending_append (flow : Flow) (r : Option Request) (ha : Admitted w₁ flow) :
    ∀ p ∈ w.pending ++ pendingOf flow r,
      p ∈ w.pending ∨ (p.request.IsLogin → Admitted w₁ p.flow) := by
  intro p hp
  obtain hp | hp := List.mem_append.mp hp
  · exact .inl hp
  · obtain ⟨q, _, rfl⟩ := mem_pendingOf.mp hp
    exact .inr fun _ => ha

/-- **Deliveries**: the answer to an admitted chain ends the time after the
logout, or does not sign in. -/
theorem complete (h : LoggedOut w₁ w) (hs : Sound w') {flow : Flow} {o : Outcome} {r : Request}
    (hr : r.IsLogin → Admitted w₁ flow) (hd : Completes w flow o r w') :
    LoggedOut w₁ w' ∨ SignedInSince w₁ w' := by
  have hl : Later w w' := Later.complete hd
  cases hd with
  | graphFailed => exact .inl h
  | graphTrap => exact .inl (h.frame hs hl h.currentUser fun _ => .inl)
  | graphConfirmed hp =>
      exact .inl (h.frame hs hl h.currentUser (pending_append flow (some _) (hr trivial)))
  | @accepted email password done a sh ha hsc =>
      refine .inr (signedInSince_of_log flow a.user
        (sentOf flow (done.followUp (w.signedIn flow a)) ++ sh.gate ++
          savedOf flow (done.stores (w.signedIn flow a) true) ++ [.signedIn flow a.user])
        h.later ?_ ?_ (hr trivial))
      · exact (List.append_assoc _ [_] w.log).symm
      · exact List.mem_append_right _ (List.mem_singleton_self _)
  | @refused email password done sh ha hsc =>
      exact .inl (h.frame hs hl h.currentUser (pending_append flow _ (hr trivial)))
  | @created email password name done a db ha ho =>
      refine .inr (signedInSince_of_log flow a.user
        (sentOf flow (done.followUp w true) ++ [.signedIn flow a.user]) h.later ?_ ?_
        (hr trivial))
      · simp only [RegisterDone.after, userCreated, List.append_assoc, List.singleton_append]
        cases done <;> split <;> rfl
      · exact List.mem_append_right _ (List.mem_singleton_self _)
  | createdUnheard ha ho => exact .inl (h.frame hs hl h.currentUser fun _ => .inl)
  | notCreated ha => exact .inl h
  | uploaded he hu => exact .inl (h.frame hs hl h.currentUser fun _ => .inl)
  | uploadTrap he => exact .inl (h.frame hs hl h.currentUser fun _ => .inl)

/-- **Steps** after a logout. -/
theorem step (h : LoggedOut w₁ w) {ev : Event} (hstep : w.step ev = some w') :
    LoggedOut w₁ w' ∨ SignedInSince w₁ w' := by
  have hs' : Sound w' := h.sound.step hstep
  have hl : Later w w' := Later.step hstep
  have hout := h.currentUser
  obtain ⟨hc, hs⟩ := step_cases hstep
  have hnone : w.currentEmail = none := by rw [currentEmail, hout]; rfl
  cases hs with
  | fbLogin hm =>
      exact .inl (h.frame hs' hl hout
        (pending_append _ (some _) (h.admitted_newFlow (.inl rfl))))
  | googleConfirmed hm =>
      exact .inl (h.frame hs' hl hout
        (pending_append _ (some _) (h.admitted_newFlow (.inr (.inl rfl)))))
  | signInPressed hm =>
      exact .inl (h.frame hs' hl hout
        (pending_append _ (some _) (h.admitted_newFlow (.inr (.inr rfl)))))
  | findSilent hm hf ht =>
      -- without a session nobody is at the root with a token
      rw [h.sound.token (hc.resolve_right (by simp)) hm hout] at ht
      contradiction
  | donePressed hm he =>
      rw [hnone] at he
      contradiction
  | @deliver i o p hp hu =>
      obtain ⟨flow, r⟩ := p
      have hin : (⟨flow, r⟩ : Pending) ∈ w.pending := List.mem_of_getElem? hp
      have ht : LoggedOut w₁ (w.taken i) := by
        refine h.frame ?_ (Later.of_eq rfl rfl rfl rfl) hout fun q hq => ?_
        · exact h.sound.frame (hc.resolve_right (by simp)) rfl (fun _ => rfl) rfl (fun _ => id)
            rfl id
        · exact .inl (List.mem_of_mem_eraseIdx hq)
      exact ht.complete hs' (h.pending _ hin) (complete_cases (w.taken i) flow o r)
  | @snapshot i ob ho =>
      obtain ⟨b, u, c, he, _⟩ := observer_deliver_eq ob w
      rw [he] at hs' hl ⊢
      exact .inl (h.frame hs' hl hout fun _ => .inl)
  | relaunched hu => exact absurd hout hu
  | relaunchedToAuth hu =>
      exact .inl (h.frame hs' hl hout fun _ hp => absurd hp List.not_mem_nil)
  | loggedOut hlog => exact .inl (h.frame hs' hl rfl fun _ => .inl)
  | loggedOutToAuth hlog hm h13 => exact .inl (h.frame hs' hl rfl fun _ => .inl)
  | _ => exact .inl (h.frame hs' hl hout fun _ => .inl)

/-- A logout that does not trap begins that time. -/
theorem of_logout (h : Sound w) {ev : Event} (hev : ev.IsLogOut) (hstep : w.step ev = some w')
    (hc : w'.crashed = none) : LoggedOut w' w' := by
  refine ⟨h.step hstep, Later.refl w', ?_, fun p hp hr => .inr ⟨p, hp, rfl, hr⟩⟩
  obtain ⟨_, hs⟩ := step_cases hstep
  cases hs with
  | signOutThrew hl => contradiction
  | loggedOut hl h => rfl
  | loggedOutToAuth hl hm h13 => rfl
  | _ => exact hev.elim

/-- Every run that begins there. -/
theorem run {es : List Event} (h : LoggedOut w₁ w₁) (hr : Runs.run World.step w₁ es = some w) :
    LoggedOut w₁ w ∨ SignedInSince w₁ w := by
  refine Runs.inv_of_run' (P := fun w => LoggedOut w₁ w ∨ SignedInSince w₁ w) ?_ hr (.inl h)
  intro s e s' hP hstep
  obtain hP | hP := hP
  · exact hP.step hstep
  · exact .inr (hP.later (Later.step hstep))

end LoggedOut

/-! ## logout -/

/-- **After a logout.**  Whichever of the three handlers ran without trapping:
nobody is signed in, and somebody is at a later point of any run only if a
chain has signed in that the user started after the logout or that had a
request in flight at it; without such a request, only the former.  While
nobody is signed in neither `AuthVC` nor `SigninVC` dismisses itself. -/
theorem logout_of_run (cloud : Cloud) (available13 : Bool) (es : List Event) (w : World)
    (h : Runs.run World.step (World.fresh cloud available13) es = some w) (ev : Event)
    (hev : ev.IsLogOut) (w₁ : World) (hstep : w.step ev = some w₁) (hc : w₁.crashed = none)
    (es' : List Event) (t : World) (h' : Runs.run World.step w₁ es' = some t) :
    w₁.currentUser = none ∧
    (t.currentUser ≠ none → SignedInSince w₁ t) ∧
    ((∀ p ∈ w₁.pending, ¬p.request.IsLogin) → t.currentUser ≠ none →
      ∃ new flow user, t.log = new ++ w₁.log ∧ Entry.signedIn flow user ∈ new ∧
        flow.ByUser ∧ w₁.nextFlow ≤ flow.id) ∧
    (t.currentUser = none →
      (∀ stack, t.appear stack = stack) ∧
      ∀ vc, SigninVC.closePressed vc t = t.dismiss (.signin vc)) := by
  have hw : Sound w := sound_of_run h (sound_fresh cloud available13)
  have hout := LoggedOut.of_logout hw hev hstep hc
  have hsince : t.currentUser ≠ none → SignedInSince w₁ t :=
    fun hne => (hout.run h').resolve_left fun hl => hne hl.currentUser
  refine ⟨hout.currentUser, hsince, fun hquiet hne => ?_, fun hn => ⟨appear_of_none hn, ?_⟩⟩
  · obtain ⟨new, flow, user, he, hin, ha | ⟨p, hp, _, hr⟩⟩ := hsince hne
    · exact ⟨new, flow, user, he, hin, ha⟩
    · exact absurd hr (hquiet p hp)
  · intro vc
    simp [SigninVC.closePressed, hn]

/-- A Facebook login, a logout in the menu, and a second login. -/
theorem logout_of_run_relogin :
    ∃ w w₁ t : World, w.step (.menuLogOut true true) = some w₁ ∧
      Runs.run World.step w₁
        [.fbLogin true, .deliver 1 (.graph "a@x" "Ann"), .deliver 1 (.ok "")] = some t ∧
      SignedInSince w₁ t := by
  have hrun : ((Runs.run World.step
      (World.fresh ⟨Accounts.single ⟨"u", "a@x", "FBUser"⟩ (by decide), ∅⟩ true)
      [.fbLogin true, .deliver 0 (.graph "a@x" "Ann"), .deliver 0 (.ok ""),
        .menuAppears (.rows ["a@x"])]).bind fun w =>
      (w.step (.menuLogOut true true)).bind fun w₁ =>
        (Runs.run World.step w₁
          [.fbLogin true, .deliver 1 (.graph "a@x" "Ann"), .deliver 1 (.ok "")]).map fun t =>
          decide (w₁.crashed = none ∧ t.currentUser ≠ none)) = some true := by
    decide
  simp only [Option.bind_eq_some_iff, Option.map_eq_some_iff, decide_eq_true_eq] at hrun
  obtain ⟨w, hw, w₁, hw₁, t, ht, hc, hu⟩ := hrun
  exact ⟨w, w₁, t, hw₁, ht,
    (logout_of_run _ true _ w hw (.menuLogOut true true) trivial w₁ hw₁ hc _ t ht).2.1 hu⟩

/-- The silent sign-in of `FindVC` is in flight at a logout in the menu, and
signs its account in afterwards. -/
theorem signedIn_after_logout :
    ∃ w w₁ t, Runs.run World.step
        (World.fresh ⟨Accounts.single ⟨"u", "a@x", "FBUser"⟩ (by decide), ∅⟩ true)
        [.fbLogin true, .deliver 0 (.graph "a@x" "Ann"), .deliver 0 (.ok ""),
          .deliver 0 (.ok ""), .findAppears (.rows ["a@x"]), .menuAppears (.rows ["a@x"])] =
        some w ∧
      w.step (.menuLogOut true true) = some w₁ ∧ w₁.crashed = none ∧
      w₁.currentUser = none ∧
      Runs.run World.step w₁ [.deliver 0 (.ok "")] = some t ∧ t.currentUser ≠ none ∧
      ¬∃ new flow user, t.log = new ++ w₁.log ∧ Entry.signedIn flow user ∈ new ∧
        flow.ByUser ∧ w₁.nextFlow ≤ flow.id := by
  have hrun : ((Runs.run World.step
      (World.fresh ⟨Accounts.single ⟨"u", "a@x", "FBUser"⟩ (by decide), ∅⟩ true)
      [.fbLogin true, .deliver 0 (.graph "a@x" "Ann"), .deliver 0 (.ok ""),
        .deliver 0 (.ok ""), .findAppears (.rows ["a@x"]), .menuAppears (.rows ["a@x"])]).bind
      fun w => (w.step (.menuLogOut true true)).bind fun w₁ =>
        (Runs.run World.step w₁ [.deliver 0 (.ok "")]).map fun t =>
          decide (w₁.crashed = none ∧ w₁.currentUser = none ∧ t.currentUser ≠ none ∧
            t.log = [.signedIn ⟨1, .silent⟩ ⟨"u", some "a@x", "Firebase"⟩] ++ w₁.log)) =
      some true := by
    decide
  simp only [Option.bind_eq_some_iff, Option.map_eq_some_iff, decide_eq_true_eq] at hrun
  obtain ⟨w, hw, w₁, hw₁, t, ht, hc, hn, hu, hlog⟩ := hrun
  refine ⟨w, w₁, t, hw, hw₁, hc, hn, ht, hu, ?_⟩
  rintro ⟨new, flow, user, he, hin, hby, _⟩
  rw [hlog] at he
  rw [← List.append_cancel_right he, List.mem_singleton] at hin
  cases hin
  obtain hby | hby | hby := hby <;> contradiction

/-! ## all or nothing -/

/-- The three logout handlers. -/
inductive LogoutHandler where
  | authVC
  | signOutWasPressed
  | burgerMenuVC
deriving DecidableEq, Repr

/-- A handler, for either outcome of the sign-out and of the fetch. -/
def LogoutHandler.run : LogoutHandler → Bool → Bool → World → World
  | .authVC => AuthVC.loginButtonDidLogOut
  | .signOutWasPressed => BurgerMenuVC.signOutWasPressed
  | .burgerMenuVC => BurgerMenuVC.loginButtonDidLogOut

/-- What is asked of a handler that takes `w` to `w'`: no trap, and either the
session has ended and nothing is reported, or both are as they were. -/
structure AllOrNothing (w w' : World) : Prop where
  returns : w'.crashed = none
  outcome : (w'.currentUser = none ∧ ReportsNone w'.store) ∨
    (w'.currentUser = w.currentUser ∧ w'.store = w.store)

/-- A sign-out that throws ends the process: the `try!` never reaches the
`catch`. -/
theorem crashed_of_signOut_threw (handler : LogoutHandler) (fetches : Bool) {w : World}
    (hu : w.currentUser ≠ none) : (handler.run false fetches w).crashed = some .signOutThrew := by
  have hsome : w.currentUser.isSome := Option.isSome_iff_ne_none.mpr hu
  cases handler with
  | authVC => rfl
  | signOutWasPressed =>
      simp [LogoutHandler.run, BurgerMenuVC.signOutWasPressed, BurgerMenuVC.afterSignOut, hsome,
        Authservice.signOut, crash]
  | burgerMenuVC => rfl

/-- After a sign-out the deletion comes whatever its fetch says, and nobody looks
at what it reports. -/
theorem run_of_signedOut (handler : LogoutHandler) (fetches : Bool) {w : World}
    (hc : w.crashed = none) (hu : w.currentUser ≠ none) :
    (handler.run true fetches w).crashed = none ∧
      (handler.run true fetches w).currentUser = none ∧
      (handler.run true fetches w).store =
        (Dataservice.deleteAllDataFromCoreData fetches w.store).1 := by
  have hsome : w.currentUser.isSome := Option.isSome_iff_ne_none.mpr hu
  cases handler with
  | authVC =>
      simp [LogoutHandler.run, AuthVC.loginButtonDidLogOut, Authservice.signOut, hc,
        Dataservice.deleteAll]
  | signOutWasPressed =>
      simp only [LogoutHandler.run, BurgerMenuVC.signOutWasPressed, BurgerMenuVC.afterSignOut,
        hsome, Authservice.signOut, hc, Dataservice.deleteAll, if_true, Option.isSome_none,
        Bool.false_eq_true, if_false]
      split <;> exact ⟨rfl, rfl, rfl⟩
  | burgerMenuVC =>
      simp only [LogoutHandler.run, BurgerMenuVC.loginButtonDidLogOut, BurgerMenuVC.afterSignOut,
        Authservice.signOut, hc, Dataservice.deleteAll, if_true, Option.isSome_none,
        Bool.false_eq_true, if_false]
      split <;> exact ⟨rfl, rfl, rfl⟩

/-- **All or nothing.**  In every state with somebody signed in, each of the three
handlers does all or nothing, without a trap, exactly when the sign-out succeeds
and so does the fetch of the deletion, unless there was nothing to report. -/
theorem allOrNothing_iff (handler : LogoutHandler) (signsOut fetches : Bool) (w : World)
    (hc : w.crashed = none) (hu : w.currentUser ≠ none) :
    AllOrNothing w (handler.run signsOut fetches w) ↔
      signsOut = true ∧ (fetches = true ∨ ReportsNone w.store) := by
  cases signsOut with
  | false =>
      refine iff_of_false (fun h => ?_) (by simp)
      have hcr := h.returns
      rw [crashed_of_signOut_threw handler fetches hu] at hcr
      contradiction
  | true =>
      obtain ⟨hcr, hnone, hst⟩ := run_of_signedOut handler fetches hc hu
      -- the session is gone, so it all depends on what is left to report
      have hall : AllOrNothing w (handler.run true fetches w) ↔
          ReportsNone (Dataservice.deleteAllDataFromCoreData fetches w.store).1 := by
        rw [← hst]
        refine ⟨fun h => ?_, fun h => ⟨hcr, .inl ⟨hnone, h⟩⟩⟩
        obtain ⟨_, hn⟩ | ⟨hsame, _⟩ := h.outcome
        · exact hn
        · exact absurd (hsame.symm.trans hnone) hu
      rw [hall, and_iff_right rfl]
      cases fetches with
      | false => simp [Dataservice.deleteAllDataFromCoreData]
      | true => exact iff_of_true (reportsNone_iff.mpr w.store.fetchable_deleteFetched) (.inl rfl)

/-- Somebody who has come in through Facebook. -/
def facebookUser : Option World :=
  Runs.run World.step (World.fresh ⟨Accounts.single ⟨"u", "a@x", "FBUser"⟩ (by decide), ∅⟩ true)
    [.fbLogin true, .deliver 0 (.graph "a@x" "Ann"), .deliver 0 (.ok ""), .deliver 0 (.ok "")]

/-- What the two tests below need of that state. -/
theorem exists_facebookUser :
    ∃ w, facebookUser = some w ∧ w.crashed = none ∧ w.currentUser ≠ none ∧
      ¬ReportsNone w.store := by
  have hrun : facebookUser.map (fun w => decide (w.crashed = none ∧ w.currentUser ≠ none ∧
      w.store.fetchable ≠ [])) = some true := by
    decide
  simp only [Option.map_eq_some_iff, decide_eq_true_eq] at hrun
  obtain ⟨w, hw, hc, hu, hs⟩ := hrun
  exact ⟨w, hw, hc, hu, fun hn => hs (reportsNone_iff.mp hn)⟩

/-- Both succeed. -/
theorem allOrNothing_facebookUser :
    ∃ w, facebookUser = some w ∧ AllOrNothing w (LogoutHandler.run .burgerMenuVC true true w) := by
  obtain ⟨w, hw, hc, hu, _⟩ := exists_facebookUser
  exact ⟨w, hw, (allOrNothing_iff .burgerMenuVC true true w hc hu).mpr ⟨rfl, .inl rfl⟩⟩

/-- The fetch fails after the session has ended, and a sign-out that throws
traps, in each of the handlers. -/
theorem not_allOrNothing :
    ∃ w, facebookUser = some w ∧ w.crashed = none ∧ w.currentUser ≠ none ∧
      ¬ReportsNone w.store ∧ ∀ handler : LogoutHandler,
        ((handler.run true false w).currentUser = none ∧
          ¬ReportsNone (handler.run true false w).store ∧
          ¬AllOrNothing w (handler.run true false w)) ∧
        (handler.run false true w).crashed = some .signOutThrew := by
  obtain ⟨w, hw, hc, hu, hrows⟩ := exists_facebookUser
  refine ⟨w, hw, hc, hu, hrows, fun handler => ⟨?_, crashed_of_signOut_threw handler true hu⟩⟩
  obtain ⟨_, hnone, hst⟩ := run_of_signedOut handler false hc hu
  refine ⟨hnone, by rw [hst]; exact hrows, fun h => ?_⟩
  obtain ⟨_, hn⟩ | ⟨hsame, _⟩ := h.outcome
  · rw [hst] at hn
    exact hrows hn
  · exact hu (hsame.symm.trans hnone)

end StreetParker
