import StreetParker.CarInfo
import StreetParker.Screens

/-!
# StreetParker.Gate

Three places unwrap the e-mail of the session on entry: `viewDidAppear` of the
menu in its branch without a Facebook token, and `viewDidLoad` and
`doneBtnPressed` of the upload screen.  Two things can bring them up without a
session: a logout in the menu where no login screen is presented (before iOS
13), and the completion of a second sign-in, which presents the upload screen
without looking at its `success`.

* `Careful` — a step does neither;
* `Guarded` — the invariant: somebody is signed in whenever the root or the
  upload screen is up;
* `gatesHold_of_run` — with careful steps the three places are entered only
  with a session.
-/

namespace StreetParker

open World

/-! ## the property and the condition -/

/-- The unwrap behind each gate. -/
def Gate.trap : Gate → Trap
  | .menuAppears => .menuUnwrap
  | .uploadLoads => .uploadUnwrap
  | .donePressed => .doneUnwrap

/-- Every gate so far was entered with a session, and none of them trapped. -/
structure GatesHold (w : World) : Prop where
  entered : ∀ gate cu, Entry.entered gate cu ∈ w.log → cu ≠ none
  crashed : ∀ gate : Gate, w.crashed ≠ some gate.trap

/-- The logouts of the menu. -/
def Event.leavesMenu : Event → Bool
  | .menuLogOut _ _ => true
  | .signOutPressed _ _ => true
  | _ => false

/-- A second sign-in that shows the upload screen succeeds or finds somebody
signed in. -/
def Request.Careful (w : World) (o : Outcome) : Request → Prop
  | .signIn email password done =>
      done.Shows w → w.signInReply o email password = none → w.currentUser ≠ none
  | _ => True

/-- A menu logout presents the login screen, and no failing sign-in shows the
upload screen to nobody. -/
def Careful (w : World) (ev : Event) : Prop :=
  (ev.leavesMenu = true → w.available13 = true) ∧
    ∀ a ∈ w.answering ev, a.2.request.Careful w a.1

instance (w : World) (o : Outcome) : (r : Request) → Decidable (r.Careful w o)
  | .signIn _ _ _ => inferInstanceAs (Decidable (_ → _))
  | .graph _ | .createUser _ _ _ _ | .carInfo _ _ _ _ _ => inferInstanceAs (Decidable True)

instance (w : World) (ev : Event) : Decidable (Careful w ev) :=
  inferInstanceAs (Decidable ((ev.leavesMenu = true → w.available13 = true) ∧
    ∀ a ∈ w.answering ev, a.2.request.Careful w a.1))

/-! ## the invariant -/

structure Guarded (w : World) : Prop extends Sound w where
  root : w.modals = [] → w.currentUser ≠ none
  upload : ∀ vc, .upload vc ∈ w.modals → w.currentUser ≠ none
  gates : GatesHold w

variable {w w' : World}

theorem GatesHold.mono (h : GatesHold w)
    (hl : ∀ gate cu, .entered gate cu ∈ w'.log → .entered gate cu ∈ w.log ∨ cu ≠ none)
    (hc : ∀ gate : Gate, w'.crashed ≠ some gate.trap) : GatesHold w' := by
  refine ⟨fun gate cu he => ?_, hc⟩
  obtain he | hne := hl gate cu he
  · exact h.entered gate cu he
  · exact hne

/-- The completion of a sign-in enters at most the upload screen, and with the
session at hand. -/
theorem GatesHold.after (h : GatesHold w) {done : LoginDone} {flow : Flow} {success : Bool}
    {o : Outcome} {sh : Shown} (hsc : done.Screens w success sh)
    (hshow : done.Shows w → w.currentEmail ≠ none) :
    GatesHold (done.after flow success o sh w) := by
  -- the entries a completion adds besides those of the screens are no gates
  have hadded : ∀ gate cu, .entered gate cu ∈ (done.after flow success o sh w).log →
      .entered gate cu ∈ sh.gate ∨ .entered gate cu ∈ w.log := by
    intro gate cu he
    simpa [LoginDone.after] using he
  cases hsc with
  | shows hsh hm hn hg hcr =>
      have he := hshow hsh
      have hu : w.currentUser ≠ none := fun hnone => he (by rw [currentEmail, hnone]; rfl)
      have hcrash : sh.crashed = w.crashed := by
        obtain ⟨hnone, _⟩ | ⟨_, hcr⟩ := hcr
        · exact absurd hnone he
        · exact hcr
      refine h.mono (fun gate cu hin => ?_) fun gate hgate => h.crashed gate (hcrash ▸ hgate)
      obtain hin | hin := hadded gate cu hin
      · rw [hg, List.mem_singleton] at hin
        exact .inr (by rw [(Entry.entered.inj hin).2]; exact hu)
      · exact .inl hin
  | hides hsh hm hn hg hcr =>
      refine h.mono (fun gate cu hin => ?_) fun gate hgate => h.crashed gate (hcr ▸ hgate)
      obtain hin | hin := hadded gate cu hin
      · rw [hg] at hin
        exact absurd hin List.not_mem_nil
      · exact .inl hin

namespace Guarded

/-- With a session there is nothing to show about the screens. -/
theorem of_session (hs : Sound w') (hu : w'.currentUser ≠ none) (hg : GatesHold w') :
    Guarded w' :=
  ⟨hs, fun _ => hu, fun _ _ => hu, hg⟩

/-- A step that keeps session and screens, and whose gates hold. -/
theorem keep (h : Guarded w) (hs : Sound w') (hm : w'.modals = w.modals)
    (hu : w'.currentUser = w.currentUser) (hg : GatesHold w') : Guarded w' := by
  refine ⟨hs, fun hn => ?_, fun vc hv => ?_, hg⟩
  · rw [hu]
    exact h.root (hm ▸ hn)
  · rw [hu]
    exact h.upload vc (hm ▸ hv)

/-- A step that keeps session and screens. -/
theorem frame (h : Guarded w) (hs : Sound w') (hm : w'.modals = w.modals)
    (hu : w'.currentUser = w.currentUser)
    (hl : ∀ gate cu, .entered gate cu ∈ w'.log → .entered gate cu ∈ w.log ∨ cu ≠ none)
    (hc : ∀ gate : Gate, w'.crashed ≠ some gate.trap) : Guarded w' :=
  h.keep hs hm hu (h.gates.mono hl hc)

/-- A step that leaves an `AuthVC` alone on the screen. -/
theorem at_auth (hs : Sound w') {a : Nat} (hm : w'.modals = [.auth a]) (hg : GatesHold w') :
    Guarded w' := by
  refine ⟨hs, fun hn => ?_, fun vc hv => ?_, hg⟩
  · rw [hm] at hn
    contradiction
  · rw [hm] at hv
    simp at hv

/-- **Deliveries** keep a state guarded. -/
theorem complete (h : Guarded w) (hc : w.crashed = none) {flow : Flow} {o : Outcome}
    {r : Request} (hd : Completes w flow o r w')
    (hcare : ∀ email password done, r = .signIn email password done → done.Shows w →
      w.signInReply o email password = none → w.currentUser ≠ none) : Guarded w' := by
  have hs : Sound w' := h.toSound.complete hc hd
  have hold : ∀ gate : Gate, w.crashed ≠ some gate.trap := by
    intro gate
    rw [hc]
    exact (Option.some_ne_none _).symm
  cases hd with
  | graphFailed => exact h
  | graphTrap =>
      refine h.frame hs rfl rfl (fun _ _ => .inl) fun gate => ?_
      cases gate <;> simp [Gate.trap]
  | graphConfirmed hp =>
      refine h.frame hs rfl rfl (fun gate cu he => .inl ?_) hold
      simpa [AuthVC.confirm, Authservice.loginSocialUser, send] using he
  | @accepted email password done a sh ha hsc =>
      have hg : GatesHold (w.signedIn flow a) :=
        h.gates.mono (fun gate cu he => .inl (by simpa [signedIn] using he)) hold
      refine of_session hs (Option.some_ne_none _) (hg.after hsc fun _ => ?_)
      simp [currentEmail, signedIn, Account.user]
  | @refused email password done sh ha hsc =>
      by_cases hshow : done.Shows w
      · have hu := hcare email password done rfl hshow ha
        exact of_session hs hu (h.gates.after hsc fun _ => h.toSound.email_ne_none hu)
      · -- a refusal takes no screen away
        have hm : sh.modals = w.modals := by
          cases hsc with
          | shows hsh _ _ _ _ => exact absurd hsh hshow
          | hides _ hm _ _ _ => exact hm.trans (by cases done <;> rfl)
        exact h.keep hs hm rfl (h.gates.after hsc fun hsh => absurd hsh hshow)
  | @created email password name done a db ha ho =>
      refine of_session hs ?_ (h.gates.mono ?_ ?_)
      · simp only [RegisterDone.after, userCreated]
        split <;> exact Option.some_ne_none _
      · intro gate cu he
        simp only [RegisterDone.after, userCreated] at he
        split at he <;> exact .inl (by simpa [signedIn] using he)
      · simp only [RegisterDone.after, userCreated]
        split <;> exact hold
  | createdUnheard ha ho => exact h.frame hs rfl rfl (fun _ _ => .inl) hold
  | notCreated ha => exact h
  | @uploaded vc em name plNumber color eff users he hu =>
      obtain ⟨_, hh⟩ | ⟨u, hu', _, _⟩ := uploadCarInfo_writes he
      · refine h.frame hs ?_ rfl (fun _ _ => .inl) hold
        rw [hh]
        rfl
      · refine of_session hs ?_ (h.gates.mono (fun _ _ => .inl) hold)
        exact fun hn => Option.some_ne_none _ (hu'.symm.trans hn)
  | @uploadTrap vc em name plNumber color trap he =>
      refine h.frame hs rfl rfl (fun _ _ => .inl) fun gate hg => ?_
      rw [uploadCarInfo_eq] at he
      cases gate <;> split at he <;> simp_all [Gate.trap]

/-- **Steps** that are careful keep a state guarded. -/
theorem step (h : Guarded w) {ev : Event} (hstep : w.step ev = some w') (hcare : Careful w ev) :
    Guarded w' := by
  have hs' : Sound w' := h.toSound.step hstep
  obtain ⟨hc, hs⟩ := step_cases hstep
  have hcrash : ev ≠ .relaunch → w.crashed = none := fun hne => hc.resolve_right hne
  have hold : ev ≠ .relaunch → ∀ gate : Gate, w.crashed ≠ some gate.trap := by
    intro hne gate
    rw [hcrash hne]
    exact (Option.some_ne_none _).symm
  have hlog : ∀ {signsOut fetches token}, LogOut w ev signsOut fetches token →
      ev ≠ .relaunch := fun hl => by cases hl <;> simp
  cases hs with
  | fbLogin hm =>
      exact h.frame hs' rfl rfl (fun _ _ he => .inl (by simpa [AuthVC.loginButton, start, send]
        using he)) (hold (by simp))
  | googleDeclined hm => exact h.frame hs' rfl rfl (fun _ _ => .inl) (hold (by simp))
  | googleTrap hm =>
      refine h.frame hs' rfl rfl (fun _ _ => .inl) fun gate => ?_
      cases gate <;> simp [Gate.trap]
  | googleConfirmed hm =>
      exact h.frame hs' rfl rfl (fun _ _ he => .inl (by simpa [AuthVC.sign, AuthVC.confirm,
        Authservice.loginSocialUser, send] using he)) (hold (by simp))
  | @signinShown vc rest hm hu h13 =>
      refine ⟨hs', by simp, fun v hv => ?_, h.gates.entered, h.gates.crashed⟩
      exact h.upload v (by simpa using hv)
  | signinSkipped hm hu hs => exact of_session hs' hu ⟨h.gates.entered, h.gates.crashed⟩
  | signinMissing hm => exact h.frame hs' rfl rfl (fun _ _ => .inl) (hold (by simp))
  | editSignin hm => exact h.frame hs' rfl rfl (fun _ _ => .inl) (hold (by simp))
  | signInPressed hm =>
      exact h.frame hs' rfl rfl (fun _ _ he => .inl (by simpa [SigninVC.signInButtonWasPressed,
        start, send] using he)) (hold (by simp))
  | @closed vc rest hm hu =>
      obtain ⟨a, ha⟩ := h.stack.signin_top hm
      cases hm.symm.trans ha
      exact at_auth hs' rfl ⟨h.gates.entered, h.gates.crashed⟩
  | closedSignedIn hm hu hs => exact of_session hs' hu ⟨h.gates.entered, h.gates.crashed⟩
  | signOutThrew hl =>
      refine h.frame hs' rfl rfl (fun _ _ => .inl) fun gate => ?_
      cases gate <;> simp [Gate.trap]
  | @loggedOut _ signsOut fetches token hl hold' =>
      have hg : GatesHold (w.loggedOut token fetches) := ⟨h.gates.entered, hold (hlog hl)⟩
      cases hl with
      | @auth vc rest signsOut fetches hm =>
          exact at_auth hs' (h.stack.auth_top hm) hg
      | menu hm hb =>
          have h13 := hold'.resolve_left (· hm)
          rw [hcare.1 rfl] at h13
          contradiction
      | button hm hb =>
          have h13 := hold'.resolve_left (· hm)
          rw [hcare.1 rfl] at h13
          contradiction
  | loggedOutToAuth hl hm h13 => exact at_auth hs' rfl ⟨h.gates.entered, hold (hlog hl)⟩
  | findSilent hm hf ht =>
      exact h.frame hs' rfl rfl (fun _ _ he => .inl (by simpa [start, send] using he))
        (hold (by simp))
  | findQuiet hm ht => exact h
  | menuFacebook hm ht => exact h.frame hs' rfl rfl (fun _ _ => .inl) (hold (by simp))
  | menuSignOut hm ht he =>
      refine h.frame hs' rfl rfl (fun gate cu hin => ?_) (hold (by simp))
      obtain hin | hin := List.mem_cons.mp hin
      · exact .inr (by rw [(Entry.entered.inj hin).2]; exact h.root hm)
      · exact .inl hin
  | menuTrap hm ht he => exact absurd he (h.toSound.email_ne_none (h.root hm))
  | menuLogin hm hb he => exact h.frame hs' rfl rfl (fun _ _ => .inl) (hold (by simp))
  | menuLoginTrap hm hb he => exact absurd he (h.toSound.email_ne_none (h.root hm))
  | editUpload hm => exact h.frame hs' rfl rfl (fun _ _ => .inl) (hold (by simp))
  | @donePressed vc rest em hm he =>
      have hu : w.currentUser ≠ none := h.upload vc (by rw [hm]; exact List.mem_cons_self)
      refine h.frame hs' rfl rfl (fun gate cu hin => ?_) (hold (by simp))
      have hin' : Entry.entered gate cu = .entered .donePressed w.currentUser ∨
          Entry.entered gate cu ∈ w.log := by
        simpa [start, send, record] using hin
      obtain hin' | hin' := hin'
      · exact .inr (by rw [(Entry.entered.inj hin').2]; exact hu)
      · exact .inl hin'
  | @doneTrap vc rest hm he =>
      have hu : w.currentUser ≠ none := h.upload vc (by rw [hm]; exact List.mem_cons_self)
      exact absurd he (h.toSound.email_ne_none hu)
  | @deliver i o p hp hfresh =>
      obtain ⟨flow, r⟩ := p
      have ht : Sound (w.taken i) := h.toSound.frame (hcrash (by simp)) rfl (fun _ => rfl) rfl
        (fun _ => id) rfl id
      have hg : Guarded (w.taken i) := ⟨ht, h.root, h.upload, ⟨h.gates.entered, h.gates.crashed⟩⟩
      refine hg.complete (hcrash (by simp)) (complete_cases (w.taken i) flow o r) ?_
      intro email password done hr hshow hreply
      subst hr
      exact hcare.2 _ (answering_deliver hp) hshow hreply
  | @snapshot i ob ho =>
      obtain ⟨b, u, c, he, hcr⟩ := observer_deliver_eq ob w
      rw [he] at hs' ⊢
      refine h.frame hs' rfl rfl (fun _ _ => .inl) fun gate hg => ?_
      obtain hcr | ⟨trap, hcr, htrap⟩ := hcr
      · exact hold (by simp) gate (hcr ▸ hg)
      · rw [hcr] at hg
        cases Option.some.inj hg
        cases gate <;> simp [Gate.trap] at htrap
  | tokenExpires => exact h.frame hs' rfl rfl (fun _ _ => .inl) (hold (by simp))
  | relaunched hu =>
      exact of_session hs' hu ⟨h.gates.entered, fun _ => (Option.some_ne_none _).symm⟩
  | relaunchedToAuth hu =>
      exact at_auth hs' rfl ⟨h.gates.entered, fun _ => (Option.some_ne_none _).symm⟩

end Guarded

theorem guarded_fresh (cloud : Cloud) (available13 : Bool) :
    Guarded (World.fresh cloud available13) :=
  Guarded.at_auth (sound_fresh cloud available13) rfl
    ⟨fun _ _ he => absurd he List.not_mem_nil, fun _ => (Option.some_ne_none _).symm⟩

/-- **The gates hold** in every run whose steps are careful, on either side of
the iOS 13 checks and in any order of completions. -/
theorem gatesHold_of_run (cloud : Cloud) (available13 : Bool) (es : List Event) (t : World)
    (h : Runs.run World.step (World.fresh cloud available13) es = some t)
    (hcare : Runs.Meets World.step Careful (World.fresh cloud available13) es) : GatesHold t :=
  (Runs.inv_of_run (fun _ _ _ hg hC hstep => hg.step hstep hC) h hcare
    (guarded_fresh cloud available13)).gates

/-- A Facebook registration, its upload and the menu, before iOS 13. -/
theorem gatesHold_of_registration :
    ∃ t, Runs.run World.step (World.fresh ⟨Accounts.empty, ∅⟩ false)
        [.fbLogin true, .deliver 0 (.graph "a@x" "Ann"), .deliver 0 (.ok "u"),
          .deliver 0 (.ok "u"), .deliver 0 (.ok "u"), .donePressed, .deliver 0 (.ok "u"),
          .menuAppears (.rows ["a@x"])] = some t ∧ GatesHold t := by
  obtain ⟨t, h⟩ := Option.isSome_iff_exists.mp (by decide :
    (Runs.run World.step (World.fresh ⟨Accounts.empty, ∅⟩ false)
        [.fbLogin true, .deliver 0 (.graph "a@x" "Ann"), .deliver 0 (.ok "u"),
          .deliver 0 (.ok "u"), .deliver 0 (.ok "u"), .donePressed, .deliver 0 (.ok "u"),
          .menuAppears (.rows ["a@x"])]).isSome)
  exact ⟨t, h, gatesHold_of_run ⟨Accounts.empty, ∅⟩ false _ t h (by decide)⟩

/-- Before iOS 13 the menu can be opened again after its own logout; from iOS
13 on a logout on the login screen can come before the failure of a second
sign-in. -/
theorem not_gatesHold :
    (∃ t, Runs.run World.step
        (World.fresh ⟨Accounts.single ⟨"u", "a@x", "FBUser"⟩ (by decide), ∅⟩ false)
        [.fbLogin true, .deliver 0 (.graph "a@x" "Ann"), .deliver 0 (.ok ""),
          .menuAppears (.rows ["a@x"]), .menuLogOut true true, .menuAppears (.rows [])] =
        some t ∧ ¬GatesHold t) ∧
    ∃ t, Runs.run World.step (World.fresh ⟨Accounts.empty, ∅⟩ true)
        [.fbLogin true, .deliver 0 (.graph "a@x" "Ann"), .deliver 0 (.ok "u"),
          .deliver 0 (.ok "u"), .authLogOut true true,
          .deliver 0 ⟨.failed, none, "", true, true, true⟩] = some t ∧ ¬GatesHold t := by
  have hold : ∃ t, Runs.run World.step
      (World.fresh ⟨Accounts.single ⟨"u", "a@x", "FBUser"⟩ (by decide), ∅⟩ false)
      [.fbLogin true, .deliver 0 (.graph "a@x" "Ann"), .deliver 0 (.ok ""),
        .menuAppears (.rows ["a@x"]), .menuLogOut true true, .menuAppears (.rows [])] =
      some t ∧ t.crashed = some .menuUnwrap :=
    Option.map_eq_some_iff.mp (by decide)
  have hnew : ∃ t, Runs.run World.step (World.fresh ⟨Accounts.empty, ∅⟩ true)
      [.fbLogin true, .deliver 0 (.graph "a@x" "Ann"), .deliver 0 (.ok "u"),
        .deliver 0 (.ok "u"), .authLogOut true true,
        .deliver 0 ⟨.failed, none, "", true, true, true⟩] = some t ∧
      t.crashed = some .uploadUnwrap :=
    Option.map_eq_some_iff.mp (by decide)
  obtain ⟨t, ht, hc⟩ := hold
  obtain ⟨t', ht', hc'⟩ := hnew
  exact ⟨⟨t, ht, fun hg => hg.crashed .menuAppears hc⟩,
    t', ht', fun hg => hg.crashed .uploadLoads hc'⟩

end StreetParker
