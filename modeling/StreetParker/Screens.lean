import StreetParker.Schema

/-!
# StreetParker.Screens

What holds of the session and the screens in every run, whatever the order of
events and answers.

* `Stack` — the only stacks there are: an `AuthVC`, over it perhaps a
  `SigninVC`, over either perhaps the upload screen;
* `Sound` — the stack, the session's account, and where a Facebook token can
  be without a session;
* `sound_of_run` — every reachable state is sound.
-/

namespace StreetParker

open World

/-! ## stacks -/

/-- The stacks of the application. -/
def Stack (l : List Modal) : Prop :=
  ∃ u s a, l <:+ [.upload u, .signin s, .auth a] ∨ l <:+ [.upload u, .auth a]

theorem stack_nil : Stack [] := ⟨0, 0, 0, .inl List.nil_suffix⟩

theorem stack_auth (a : Nat) : Stack [.auth a] := ⟨0, 0, a, .inr ⟨[.upload 0], rfl⟩⟩

theorem stack_signin (s a : Nat) : Stack [.signin s, .auth a] :=
  ⟨0, s, a, .inl ⟨[.upload 0], rfl⟩⟩

theorem Stack.suffix {l l' : List Modal} (h : Stack l) (hs : l' <:+ l) : Stack l' := by
  obtain ⟨u, s, a, h | h⟩ := h
  · exact ⟨u, s, a, .inl (hs.trans h)⟩
  · exact ⟨u, s, a, .inr (hs.trans h)⟩

/-- The stacks one by one. -/
theorem stack_cases {l : List Modal} (h : Stack l) :
    l = [] ∨ (∃ a, l = [.auth a]) ∨ (∃ s a, l = [.signin s, .auth a]) ∨
      (∃ u a, l = [.upload u, .auth a]) ∨ ∃ u s a, l = [.upload u, .signin s, .auth a] := by
  obtain ⟨u, s, a, h | h⟩ := h
  · simp only [List.suffix_cons_iff, List.suffix_nil] at h
    obtain h | h | h | h := h
    · exact .inr (.inr (.inr (.inr ⟨u, s, a, h⟩)))
    · exact .inr (.inr (.inl ⟨s, a, h⟩))
    · exact .inr (.inl ⟨a, h⟩)
    · exact .inl h
  · simp only [List.suffix_cons_iff, List.suffix_nil] at h
    obtain h | h | h := h
    · exact .inr (.inr (.inr (.inl ⟨u, a, h⟩)))
    · exact .inr (.inl ⟨a, h⟩)
    · exact .inl h

/-- An `AuthVC` on top is alone. -/
theorem Stack.auth_top {l : List Modal} (h : Stack l) {vc : Nat} {rest : List Modal}
    (hl : l = .auth vc :: rest) : l = [.auth vc] := by
  obtain hs | ⟨a, hs⟩ | ⟨s, a, hs⟩ | ⟨u, a, hs⟩ | ⟨u, s, a, hs⟩ := stack_cases h <;>
    cases hs.symm.trans hl
  exact hs

/-- Below a `SigninVC` on top there is an `AuthVC`. -/
theorem Stack.signin_top {l : List Modal} (h : Stack l) {vc : Nat} {rest : List Modal}
    (hl : l = .signin vc :: rest) : ∃ a, l = [.signin vc, .auth a] := by
  obtain hs | ⟨a, hs⟩ | ⟨s, a, hs⟩ | ⟨u, a, hs⟩ | ⟨u, s, a, hs⟩ := stack_cases h <;>
    cases hs.symm.trans hl
  exact ⟨a, hs⟩

/-- The upload screen may come over either of them. -/
theorem Stack.upload {m : Modal} {rest : List Modal} (h : Stack (m :: rest))
    (hm : ∀ vc, m ≠ .upload vc) (u : Nat) : Stack (.upload u :: m :: rest) := by
  cases m with
  | upload vc => exact absurd rfl (hm vc)
  | auth a =>
      rw [h.auth_top rfl]
      exact ⟨u, 0, a, .inr (List.suffix_refl _)⟩
  | signin s =>
      obtain ⟨a, ha⟩ := h.signin_top rfl
      rw [ha]
      exact ⟨u, s, a, .inl (List.suffix_refl _)⟩

theorem not_signin_suffix_auth (s a vc : Nat) :
    ¬[Modal.signin s, .auth a] <:+ [.auth vc] := by
  intro h
  exact absurd h.length_le (by simp)

/-! ## sound states -/

/-- What holds in every reachable state. -/
structure Sound (w : World) : Prop where
  stack : Stack w.modals
  /-- the `AuthVC` below a `SigninVC` dismisses itself after a sign-in -/
  emailLogged : ∀ s a, [.signin s, .auth a] <:+ w.modals → (w.auths a).emailLogged = 1
  account : ∀ u, w.currentUser = some u → ∃ a ∈ w.accounts, a.user = u
  /-- the menu's own logout button is only offered without a Facebook token -/
  button : w.menu = some .signOut → w.modals = [] ∧ w.hasToken = false
  /-- nobody is back at the root with a token and no session -/
  token : w.crashed = none → w.modals = [] → w.currentUser = none → w.hasToken = false

/-- A session's user has an e-mail. -/
theorem Sound.email_ne_none {w : World} (h : Sound w) (hu : w.currentUser ≠ none) :
    w.currentEmail ≠ none := by
  obtain ⟨u, hu'⟩ := Option.ne_none_iff_exists'.mp hu
  obtain ⟨a, _, he⟩ := h.account u hu'
  rw [World.currentEmail, hu', ← he]
  simp [Account.user]

namespace Sound

variable {w w' : World}

/-- A step that leaves session and screens alone. -/
theorem frame (h : Sound w) (hc : w.crashed = none) (hm : w'.modals = w.modals)
    (ha : ∀ a, (w'.auths a).emailLogged = (w.auths a).emailLogged)
    (hu : w'.currentUser = w.currentUser) (hacc : ∀ a ∈ w.accounts, a ∈ w'.accounts)
    (hb : w'.menu = w.menu) (ht : w'.hasToken = true → w.hasToken = true) : Sound w' := by
  have hf : w.hasToken = false → w'.hasToken = false := by
    intro hf
    cases hw : w'.hasToken with
    | false => rfl
    | true => rw [ht hw] at hf; contradiction
  refine ⟨hm ▸ h.stack, ?_, ?_, ?_, ?_⟩
  · intro s a hs
    rw [ha]
    exact h.emailLogged s a (hm ▸ hs)
  · intro u hu'
    obtain ⟨a, hin, he⟩ := h.account u (hu ▸ hu')
    exact ⟨a, hacc a hin, he⟩
  · intro hs
    obtain ⟨hm', hf'⟩ := h.button (hb ▸ hs)
    exact ⟨hm ▸ hm', hf hf'⟩
  · intro _ hm' hu'
    exact hf (h.token hc (hm ▸ hm') (hu ▸ hu'))

/-- A screen is up, so the menu is not. -/
theorem menu_ne (h : Sound w) (hm : w.modals ≠ []) : w.menu ≠ some .signOut :=
  fun hb => hm (h.button hb).1

/-- A step on the `AuthVC` on top that leaves the session alone. -/
theorem at_auth (h : Sound w) {vc : Nat} {rest : List Modal} (hm : w.modals = .auth vc :: rest)
    (hm' : w'.modals = w.modals) (hu : w'.currentUser = w.currentUser)
    (hacc : w'.accounts = w.accounts) (hb : w'.menu = w.menu) : Sound w' := by
  have hne : w.modals ≠ [] := by rw [hm]; exact List.cons_ne_nil _ _
  have htop : w.modals = [.auth vc] := h.stack.auth_top hm
  refine ⟨hm' ▸ h.stack, ?_, ?_, ?_, ?_⟩
  · intro s a hs
    rw [hm', htop] at hs
    exact absurd hs (not_signin_suffix_auth s a vc)
  · intro u hu'
    rw [hacc]
    exact h.account u (hu ▸ hu')
  · intro hs
    exact absurd (hb ▸ hs) (h.menu_ne hne)
  · intro _ hm'' _
    exact absurd (hm' ▸ hm'') hne

/-- Screens go away while somebody is signed in. -/
theorem dismissed (h : Sound w) (hs : w'.modals <:+ w.modals)
    (ha : ∀ a, (w'.auths a).emailLogged = (w.auths a).emailLogged)
    (hu : ∃ a ∈ w'.accounts, w'.currentUser = some a.user)
    (hb : w'.menu = w.menu) (ht : w'.accessToken = w.accessToken) : Sound w' := by
  obtain ⟨a, hin, he⟩ := hu
  refine ⟨h.stack.suffix hs, ?_, ?_, ?_, ?_⟩
  · intro s a hs'
    rw [ha]
    exact h.emailLogged s a (hs'.trans hs)
  · intro u hu'
    exact ⟨a, hin, Option.some.inj (he.symm.trans hu')⟩
  · intro hs'
    obtain ⟨hm, hf⟩ := h.button (hb ▸ hs')
    rw [hm, List.suffix_nil] at hs
    refine ⟨hs, ?_⟩
    rwa [hasToken, ht]
  · intro _ _ hn
    rw [he] at hn
    contradiction

/-- The upload screen comes up. -/
theorem upload (h : Sound w) {m : Modal} {rest : List Modal} {u : Nat}
    (hm : w.modals = m :: rest) (hne : ∀ vc, m ≠ .upload vc)
    (hm' : w'.modals = .upload u :: w.modals)
    (ha : w'.auths = w.auths)
    (hu : ∀ u, w'.currentUser = some u → ∃ a ∈ w'.accounts, a.user = u)
    (hb : w'.menu = w.menu) : Sound w' := by
  have hnil : w.modals ≠ [] := by rw [hm]; exact List.cons_ne_nil _ _
  refine ⟨?_, ?_, hu, ?_, ?_⟩
  · have hs := h.stack
    rw [hm] at hs
    rw [hm', hm]
    exact hs.upload hne u
  · intro s a hs
    rw [hm', List.suffix_cons_iff] at hs
    obtain hs | hs := hs
    · simp at hs
    · rw [ha]
      exact h.emailLogged s a hs
  · intro hs
    exact absurd (hb ▸ hs) (h.menu_ne hnil)
  · intro _ hn
    rw [hm'] at hn
    contradiction

/-- The login screen comes up over the root. -/
theorem presentAuth (hu : ∀ u, w.currentUser = some u → ∃ a ∈ w.accounts, a.user = u) :
    Sound w.presentAuth := by
  refine ⟨stack_auth _, ?_, hu, ?_, ?_⟩
  · intro s a hs
    exact absurd hs (not_signin_suffix_auth s a _)
  · intro hs
    exact absurd hs (by simp [World.presentAuth])
  · intro _ hm
    exact absurd hm (List.cons_ne_nil _ _)

theorem loggedOut (h : Sound w) {ev : Event} {signsOut fetches : Bool}
    {token : Option AccessToken} (hl : LogOut w ev signsOut fetches token) :
    Sound (w.loggedOut token fetches) := by
  have ht : w.modals = [] → (w.loggedOut token fetches).hasToken = false := by
    intro hm
    cases hl with
    | auth hm' => rw [hm'] at hm; contradiction
    | menu hm' hb => rfl
    | button hm' hb => exact (h.button hb).2
  refine ⟨h.stack, h.emailLogged, ?_, ?_, fun _ hm _ => ht hm⟩
  · simp [World.loggedOut, Dataservice.deleteAll]
  · intro hs
    have hm := (h.button hs).1
    exact ⟨hm, ht hm⟩

/-- **Deliveries** keep a state sound. -/
theorem complete (h : Sound w) (hc : w.crashed = none) {flow : Flow} {o : Outcome} {r : Request}
    (hd : Completes w flow o r w') : Sound w' := by
  have hshow : ∀ {w : World} {done : LoginDone} {m : Modal}, done.covers w = some m →
      ∀ vc, m ≠ .upload vc := by
    intro w done m hm vc he
    subst he
    cases done <;> simp [LoginDone.covers] at hm
  cases hd with
  | graphFailed => exact h
  | graphTrap => exact h.frame hc rfl (fun _ => rfl) rfl (fun _ => id) rfl id
  | @graphConfirmed vc e n hp =>
      refine h.frame hc rfl (fun a => ?_) rfl (fun _ => id) rfl id
      by_cases ha : a = vc
      · subst ha
        simp [AuthVC.confirm, Authservice.loginSocialUser, send]
      · simp [AuthVC.confirm, Authservice.loginSocialUser, send, Function.update_of_ne ha]
  | @accepted email password done a sh ha hs =>
      have hin : a ∈ w.accounts := (signInReply_some ha).1
      cases hs with
      | shows hsh hm hn hg hc' =>
          obtain ⟨m, rest, hcov, hmod⟩ := hsh
          refine h.upload hmod (hshow hcov) hm rfl ?_ rfl
          intro u hu
          exact ⟨a, hin, Option.some.inj hu⟩
      | hides hsh hm hn hg hc' =>
          refine h.dismissed ?_ (fun _ => rfl) ⟨a, hin, rfl⟩ rfl rfl
          rw [LoginDone.after, hm]
          exact dismissed_suffix (w.signedIn flow a) true done
  | @refused email password done sh ha hs =>
      cases hs with
      | shows hsh hm hn hg hc' =>
          obtain ⟨m, rest, hcov, hmod⟩ := hsh
          exact h.upload hmod (hshow hcov) hm rfl h.account rfl
      | hides hsh hm hn hg hc' =>
          refine h.frame hc (hm.trans ?_) (fun _ => rfl) rfl (fun _ => id) rfl id
          cases done <;> rfl
  | @created email password name done a db ha ho =>
      have hin : a ∈ db := by
        rw [Accounts.mem_def, (createUserReply_some ha).2.2]
        exact List.mem_cons_self
      refine h.dismissed ?_ (fun _ => ?_) ⟨a, ?_, ?_⟩ ?_ ?_ <;>
        simp only [RegisterDone.after, userCreated] <;> split <;>
        first | exact List.suffix_refl _ | exact hin | rfl
  | @createdUnheard email password name done a db ha ho =>
      refine h.frame hc rfl (fun _ => rfl) rfl (fun b hb => ?_) rfl id
      rw [Accounts.mem_def, (createUserReply_some ha).2.2]
      exact List.mem_cons_of_mem _ hb
  | notCreated ha => exact h
  | @uploaded vc em name plNumber color eff users he hu =>
      obtain ⟨_, hh⟩ | ⟨u, hu', _, _⟩ := uploadCarInfo_writes he
      · refine h.frame hc ?_ (fun _ => rfl) rfl (fun _ => id) rfl id
        rw [hh]
        rfl
      · obtain ⟨a, hin, hau⟩ := h.account u hu'
        refine h.dismissed (uploadedModals_suffix _ _ _) (fun _ => rfl) ⟨a, hin, ?_⟩ rfl rfl
        rw [hau]
        exact hu'
  | uploadTrap he => exact h.frame hc rfl (fun _ => rfl) rfl (fun _ => id) rfl id

/-- **Steps** keep a state sound. -/
theorem step (h : Sound w) {ev : Event} (hstep : w.step ev = some w') : Sound w' := by
  obtain ⟨hc, hs⟩ := step_cases hstep
  have hcrash : ev ≠ .relaunch → w.crashed = none := fun hne => hc.resolve_right hne
  have hl : ∀ {signsOut fetches token}, LogOut w ev signsOut fetches token → w.crashed = none :=
    fun hl => hcrash (by cases hl <;> simp)
  cases hs with
  | fbLogin hm => exact h.at_auth hm rfl rfl rfl rfl
  | googleDeclined hm => exact h.at_auth hm rfl rfl rfl rfl
  | googleTrap hm => exact h.at_auth hm rfl rfl rfl rfl
  | googleConfirmed hm => exact h.at_auth hm rfl rfl rfl rfl
  | @signinShown vc rest hm hu h13 =>
      have htop : w.modals = [.auth vc] := h.stack.auth_top hm
      refine ⟨by simpa only [htop] using stack_signin w.nextVC vc, ?_, ?_, ?_, ?_⟩
      · intro s a hs
        simp only [htop] at hs
        have he := hs.eq_of_length rfl
        simp only [List.cons.injEq, Modal.auth.injEq] at he
        rw [he.2.1]
        simp
      · exact h.account
      · intro hb
        exact absurd hb (h.menu_ne (by rw [hm]; exact List.cons_ne_nil _ _))
      · intro _ hn
        contradiction
  | @signinSkipped vc rest modals hm hu hs =>
      have hs' : modals <:+ [.auth vc] := by
        rwa [h.stack.auth_top hm] at hs
      refine ⟨(stack_auth vc).suffix hs', ?_, h.account, ?_, fun _ _ hn => absurd hn hu⟩
      · intro s a hsa
        exact absurd (hsa.trans hs') (not_signin_suffix_auth s a vc)
      · intro hb
        exact absurd hb (h.menu_ne (by rw [hm]; exact List.cons_ne_nil _ _))
  | signinMissing hm => exact h.at_auth hm rfl rfl rfl rfl
  | editSignin hm => exact h.frame (hcrash (by simp)) rfl (fun _ => rfl) rfl (fun _ => id) rfl id
  | signInPressed hm =>
      exact h.frame (hcrash (by simp)) rfl (fun _ => rfl) rfl (fun _ => id) rfl id
  | @closed vc rest hm hu =>
      obtain ⟨a, ha⟩ := h.stack.signin_top hm
      cases hm.symm.trans ha
      refine ⟨stack_auth a, ?_, h.account, ?_, by simp⟩
      · intro s b hsb
        exact absurd hsb (not_signin_suffix_auth s b a)
      · intro hb
        exact absurd hb (h.menu_ne (by rw [hm]; exact List.cons_ne_nil _ _))
  | @closedSignedIn vc rest modals hm hu hs =>
      obtain ⟨u, hu'⟩ := Option.ne_none_iff_exists'.mp hu
      obtain ⟨a, hin, he⟩ := h.account u hu'
      exact h.dismissed hs (fun _ => rfl) ⟨a, hin, by rw [he]; exact hu'⟩ rfl rfl
  | @signOutThrew _ fetches token hlog =>
      refine h.frame (hl hlog) rfl (fun _ => rfl) rfl (fun _ => id) rfl ?_
      cases hlog with
      | auth hm => intro ht; contradiction
      | menu hm hb => intro ht; contradiction
      | button hm hb => exact id
  | loggedOut hlog => exact h.loggedOut hlog
  | loggedOutToAuth hlog hm h13 =>
      exact Sound.presentAuth (h.loggedOut hlog).account
  | findSilent hm hf ht =>
      exact h.frame (hcrash (by simp)) rfl (fun _ => rfl) rfl (fun _ => id) rfl id
  | findQuiet hm ht => exact h
  | menuFacebook hm ht =>
      exact ⟨h.stack, h.emailLogged, h.account, by simp, h.token⟩
  | menuSignOut hm ht he =>
      exact ⟨h.stack, h.emailLogged, h.account, fun _ => ⟨hm, ht⟩, h.token⟩
  | menuTrap hm ht he =>
      exact h.frame (hcrash (by simp)) rfl (fun _ => rfl) rfl (fun _ => id) rfl id
  | menuLogin hm hb he =>
      refine ⟨h.stack, h.emailLogged, h.account, fun hb' => ?_, fun _ _ hn => ?_⟩
      · rw [hb] at hb'
        contradiction
      · have hn' : w.currentUser = none := hn
        rw [currentEmail, hn'] at he
        contradiction
  | menuLoginTrap hm hb he =>
      refine ⟨h.stack, h.emailLogged, h.account, fun hb' => ?_, by simp⟩
      rw [hb] at hb'
      contradiction
  | editUpload hm => exact h.frame (hcrash (by simp)) rfl (fun _ => rfl) rfl (fun _ => id) rfl id
  | donePressed hm he =>
      exact h.frame (hcrash (by simp)) rfl (fun _ => rfl) rfl (fun _ => id) rfl id
  | doneTrap hm he =>
      exact h.frame (hcrash (by simp)) rfl (fun _ => rfl) rfl (fun _ => id) rfl id
  | @deliver i o p hp hu =>
      have ht : Sound (w.taken i) :=
        h.frame (hcrash (by simp)) rfl (fun _ => rfl) rfl (fun _ => id) rfl id
      exact ht.complete (hcrash (by simp)) (complete_cases (w.taken i) p.flow o p.request)
  | @snapshot i ob ho =>
      obtain ⟨b, u, c, he, _⟩ := observer_deliver_eq ob w
      rw [he]
      exact h.frame (hcrash (by simp)) rfl (fun _ => rfl) rfl (fun _ => id) rfl id
  | tokenExpires =>
      refine h.frame (hcrash (by simp)) rfl (fun _ => rfl) rfl (fun _ => id) rfl ?_
      intro ht
      simp only [hasToken] at ht
      cases hw : w.accessToken <;> simp [hw] at ht
  | relaunched hu =>
      exact ⟨stack_nil, fun s a hs => absurd hs.length_le (by simp [killed]), h.account,
        by simp [killed], fun _ _ hn => absurd hn hu⟩
  | relaunchedToAuth hu => exact Sound.presentAuth h.account

end Sound

theorem sound_fresh (cloud : Cloud) (available13 : Bool) :
    Sound (World.fresh cloud available13) :=
  Sound.presentAuth (by simp)

/-- **Every reachable state is sound.** -/
theorem sound_of_run {w t : World} {es : List Event} (h : Runs.run World.step w es = some t)
    (hw : Sound w) : Sound t :=
  Runs.inv_of_run' (fun _ _ _ hs hstep => hs.step hstep) h hw

end StreetParker
