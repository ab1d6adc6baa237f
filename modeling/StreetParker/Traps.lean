import StreetParker.Integrity

/-!
# StreetParker.Traps

Every crash of the application, and its cause.

* `trapOf` — the forced cast or unwrap an event fails at, read off the state
  before it: the session, the Facebook token, the records of the tree and the
  answer at hand;
* `crashed_of_step` — what a step leaves in `crashed` is exactly that;
* `crashed_of_run` — in every state of every run of a system; no event ever
  fails at a cast of `email` or `Name`, and while somebody is signed in only an
  incomplete profile and a sign-out that throws end the process.
-/

namespace StreetParker

open World Snapshot

/-! ## walking over a snapshot -/

section MapM

variable {α β ε : Type*} {f : α → Except ε β} {l : List α}

theorem exists_mapM_ok (h : ∀ a ∈ l, ∃ b, f a = .ok b) : ∃ bs, l.mapM f = .ok bs := by
  induction l with
  | nil => exact ⟨[], rfl⟩
  | cons a l ih =>
      obtain ⟨b, hb⟩ := h a List.mem_cons_self
      obtain ⟨bs, hbs⟩ := ih fun a' ha => h a' (List.mem_cons_of_mem a ha)
      exact ⟨b :: bs, by rw [List.mapM_cons, hb, hbs]; rfl⟩

/-- One failure stops the walk, and where all failures are the same it is that
one. -/
theorem mapM_eq_error {t : ε} (h : ∀ a ∈ l, (∃ b, f a = .ok b) ∨ f a = .error t)
    (ht : ∃ a ∈ l, f a = .error t) : l.mapM f = .error t := by
  induction l with
  | nil =>
      obtain ⟨a, ha, _⟩ := ht
      exact absurd ha List.not_mem_nil
  | cons a l ih =>
      rw [List.mapM_cons]
      obtain ⟨b, hb⟩ | hb := h a List.mem_cons_self
      · obtain ⟨a', ha', he⟩ := ht
        obtain rfl | hin := List.mem_cons.mp ha'
        · rw [hb] at he
          contradiction
        · rw [hb, ih (fun a'' h' => h a'' (List.mem_cons_of_mem a h')) ⟨a', hin, he⟩]
          rfl
      · rw [hb]
        rfl

end MapM

/-- The tree has a record of `em`. -/
def Listed (em : String) (snapshot : Snapshot) : Prop :=
  ∃ p ∈ snapshot, p.2["email"]? = some (.string em)

instance (em : String) (snapshot : Snapshot) : Decidable (Listed em snapshot) :=
  inferInstanceAs (Decidable (∃ p ∈ snapshot, p.2["email"]? = some (.string em)))

/-- The tree has a record of `em` without a name. -/
def Nameless (em : String) (snapshot : Snapshot) : Prop :=
  ∃ p ∈ snapshot, p.2["email"]? = some (.string em) ∧ p.2["Name"]? = none

instance (em : String) (snapshot : Snapshot) : Decidable (Nameless em snapshot) :=
  inferInstanceAs (Decidable (∃ p ∈ snapshot,
    p.2["email"]? = some (.string em) ∧ p.2["Name"]? = none))

/-- The name of a record that the readers can cast. -/
theorem WellFormed.displayName {user : Record} (h : WellFormed user)
    (currentUser : Option User) :
    (user["Name"]? = none ∧ currentUser.bind User.email = none ∧
        Dataservice.displayName currentUser user = .error .fallbackUnwrap) ∨
      (¬(user["Name"]? = none ∧ currentUser.bind User.email = none) ∧
        ∃ name, Dataservice.displayName currentUser user = .ok name) := by
  simp only [displayName_ok_iff]
  cases hn : user["Name"]? with
  | some v =>
      obtain ⟨n, rfl⟩ := h.name v hn
      exact .inr ⟨by simp, n, .inl rfl⟩
  | none =>
      cases he : currentUser.bind User.email with
      | some e => exact .inr ⟨by simp, e, .inr ⟨rfl, rfl⟩⟩
      | none =>
          refine .inl ⟨rfl, rfl, ?_⟩
          cases hd : Dataservice.displayName currentUser user with
          | ok name => simp [displayName_ok_iff, hn, he] at hd
          | error t => rw [displayName_trap h hd]

/-- `getNameForEmail` stops at its fallback or not at all. -/
theorem getNameForEmail_cases {snapshot : Snapshot} (h : ∀ p ∈ snapshot, WellFormed p.2)
    (em : String) (currentUser : Option User) :
    (currentUser.bind User.email = none ∧ Nameless em snapshot ∧
        Dataservice.getNameForEmail em currentUser snapshot = .error .fallbackUnwrap) ∨
      (¬(currentUser.bind User.email = none ∧ Nameless em snapshot) ∧
        ∃ names, Dataservice.getNameForEmail em currentUser snapshot = .ok names) := by
  have hmem : ∀ p, p ∈ snapshot.recordsOf em ↔
      p ∈ snapshot ∧ p.2["email"]? = some (.string em) := by
    simp [recordsOf]
  rw [getNameForEmail_eq em currentUser fun p hp => (h p hp).email]
  by_cases hc : currentUser.bind User.email = none ∧ Nameless em snapshot
  · obtain ⟨hu, p, hp, he, hn⟩ := hc
    refine .inl ⟨hu, ⟨p, hp, he, hn⟩,
      mapM_eq_error (fun q hq => ?_) ⟨p, (hmem p).mpr ⟨hp, he⟩, ?_⟩⟩
    · obtain ⟨_, _, hd⟩ | ⟨_, hd⟩ := (h q ((hmem q).mp hq).1).displayName currentUser
      · exact .inr hd
      · exact .inl hd
    · obtain ⟨_, _, hd⟩ | ⟨hd, _⟩ := (h p hp).displayName currentUser
      · exact hd
      · exact absurd ⟨hn, hu⟩ hd
  · refine .inr ⟨hc, exists_mapM_ok fun p hp => ?_⟩
    obtain ⟨hin, he⟩ := (hmem p).mp hp
    obtain ⟨hn, hu, _⟩ | ⟨_, hd⟩ := (h p hin).displayName currentUser
    · exact absurd ⟨hu, p, hin, he, hn⟩ hc
    · exact hd

/-- The loop of `uploadCarInfo` never gets stuck. -/
theorem scan_eq {snapshot : Snapshot} (h : ∀ p ∈ snapshot, WellFormed p.2) (em : String) :
    scan em snapshot = if Listed em snapshot then .found else .missing := by
  split
  · next hl =>
      obtain ⟨p, hp, he⟩ := hl
      exact scan_found h hp he
  · next hl =>
      cases hs : scan em snapshot with
      | missing => rfl
      | found => exact absurd (exists_of_scan_found hs) hl
      | stuck =>
          have ht : Dataservice.uploadCarInfo em "" "" "" none snapshot = .error .emailCast := by
            rw [uploadCarInfo_eq, hs]
          have hu := uploadCarInfo_trap h ht
          contradiction

/-! ## the catalogue -/

/-- `FBResult["email"] as! String` and the like: a profile without an e-mail or
without a name. -/
def profileTrap : Option Profile → Option Trap
  | none => none
  | some ⟨some _, some _⟩ => none
  | some _ => some .profileCast

/-- What the answer to a request fails at. -/
def requestTrap (w : World) (o : Outcome) : Request → Option Trap
  | .graph _ => profileTrap o.profile
  | .signIn email password done =>
      if w.signInReply o email password = none ∧ w.currentUser = none ∧ done.Shows w then
        some .uploadUnwrap
      else none
  | .createUser _ _ _ _ => none
  | .carInfo _ em _ _ _ =>
      if w.currentUser = none ∧ Listed em w.users.snapshot then some .uidUnwrap else none

/-- What an event fails at. -/
def trapOf (w : World) : Event → Option Trap
  | .googleSignIn profile => profileTrap profile
  | .authLogOut signsOut _ => if signsOut then none else some .signOutThrew
  | .menuLogOut signsOut _ => if signsOut then none else some .signOutThrew
  | .signOutPressed signsOut _ =>
      if signsOut = false ∧ w.currentUser ≠ none then some .signOutThrew else none
  | .menuAppears _ =>
      if w.hasToken = false ∧ w.currentUser = none then some .menuUnwrap else none
  | .menuLogin _ => if w.currentUser = none then some .menuLoginUnwrap else none
  | .donePressed => if w.currentUser = none then some .doneUnwrap else none
  | .deliver i o => (w.pending[i]?).bind fun p => requestTrap w o p.request
  | .snapshot i => (w.observers[i]?).bind fun ob =>
      if w.currentUser = none ∧ Nameless ob.email w.users.snapshot then some .fallbackUnwrap
      else none
  | .fbLogin _ | .signInWithEmail | .editSignin _ _ | .signInPressed | .closePressed
  | .findAppears _ | .editUpload _ _ _ | .tokenExpires | .relaunch => none

/-! ## handlers that can fail -/

section Handlers

variable {w : World}

theorem crashed_sign (vc : Nat) (profile : Option Profile) (hc : w.crashed = none) :
    (AuthVC.sign vc profile w).crashed = profileTrap profile := by
  obtain _ | ⟨_ | e, _ | n⟩ := profile
  · exact hc
  · rfl
  · rfl
  · rfl
  · exact hc

theorem crashed_authLogOut (signsOut fetches : Bool) (hc : w.crashed = none) :
    (AuthVC.loginButtonDidLogOut signsOut fetches w).crashed =
      if signsOut then none else some .signOutThrew := by
  cases signsOut <;>
    simp [AuthVC.loginButtonDidLogOut, Authservice.signOut, Dataservice.deleteAll, crash, hc]

theorem crashed_afterSignOut (fetches : Bool) :
    (BurgerMenuVC.afterSignOut fetches w).crashed = w.crashed := by
  unfold BurgerMenuVC.afterSignOut
  dsimp only
  split
  · rfl
  · split <;> rfl

theorem crashed_menuLogOut (signsOut fetches : Bool) (hc : w.crashed = none) :
    (BurgerMenuVC.loginButtonDidLogOut signsOut fetches w).crashed =
      if signsOut then none else some .signOutThrew := by
  rw [BurgerMenuVC.loginButtonDidLogOut, crashed_afterSignOut]
  cases signsOut <;> simp [Authservice.signOut, crash, hc]

theorem crashed_signOutPressed (signsOut fetches : Bool) (hc : w.crashed = none) :
    (BurgerMenuVC.signOutWasPressed signsOut fetches w).crashed =
      if signsOut = false ∧ w.currentUser ≠ none then some .signOutThrew else none := by
  rw [BurgerMenuVC.signOutWasPressed, crashed_afterSignOut]
  cases signsOut <;> cases hu : w.currentUser <;> simp [Authservice.signOut, crash, hc]

theorem Sound.currentEmail_eq_none_iff (hw : Sound w) :
    w.currentEmail = none ↔ w.currentUser = none := by
  constructor
  · intro he
    by_contra hu
    exact hw.email_ne_none hu he
  · intro hu
    rw [World.currentEmail, hu, Option.bind_none]

/-- The completion of a sign-in fails at the upload screen it shows. -/
theorem LoginDone.Screens.crashed {done : LoginDone} {success : Bool} {sh : Shown}
    (h : done.Screens w success sh) (hu : w.currentEmail = none ↔ w.currentUser = none)
    (hc : w.crashed = none) :
    sh.crashed = if w.currentUser = none ∧ done.Shows w then some .uploadUnwrap else none := by
  cases h with
  | shows hs _ _ _ hcr =>
      obtain ⟨he, hcr⟩ | ⟨he, hcr⟩ := hcr
      · rw [if_pos ⟨hu.mp he, hs⟩, hcr]
      · rw [if_neg fun hn => he (hu.mpr hn.1), hcr, hc]
  | hides hs _ _ _ hcr => rw [if_neg fun hn => hs hn.2, hcr, hc]

/-- **Deliveries**: what a request fails at when it completes. -/
theorem crashed_complete (hw : Sound w) (hs : Schema w.users) (hc : w.crashed = none)
    (flow : Flow) (o : Outcome) (r : Request) :
    (w.complete flow o r).crashed = requestTrap w o r := by
  have hwf : ∀ p ∈ w.users.snapshot, WellFormed p.2 := fun p hp =>
    hs p.1 p.2 (mem_snapshot.mp hp)
  have hd := complete_cases w flow o r
  generalize w.complete flow o r = w' at hd
  cases hd with
  | graphFailed hp => rw [requestTrap, hp, hc, profileTrap]
  | @graphTrap vc profile hp hn =>
      obtain ⟨_ | e, _ | n⟩ := profile
      · rw [requestTrap, hp, profileTrap]
        simp
      · rw [requestTrap, hp, profileTrap]
        simp
      · rw [requestTrap, hp, profileTrap]
        simp
      · exact absurd rfl (hn e n)
  | graphConfirmed hp =>
      rw [requestTrap, hp, profileTrap]
      exact hc
  | @accepted email password done a sh ha hsc =>
      rw [requestTrap, if_neg (by simp [ha])]
      have hu : (w.signedIn flow a).currentEmail = none ↔
          (w.signedIn flow a).currentUser = none := by
        simp [signedIn, currentEmail, Account.user]
      rw [LoginDone.after, hsc.crashed hu hc, if_neg]
      rintro ⟨hn, _⟩
      contradiction
  | @refused email password done sh ha hsc =>
      rw [requestTrap, LoginDone.after, hsc.crashed hw.currentEmail_eq_none_iff hc]
      simp only [ha, true_and]
  | created ha ho =>
      rw [userCreated_eq]
      exact hc
  | createdUnheard ha ho => exact hc
  | notCreated ha => exact hc
  | @uploaded vc em name plNumber color eff users he hu =>
      rw [requestTrap, if_neg]
      · exact hc
      · rintro ⟨hn, hl⟩
        rw [uploadCarInfo_eq, scan_eq hwf, if_pos hl, hn] at he
        contradiction
  | @uploadTrap vc em name plNumber color trap he =>
      obtain rfl := uploadCarInfo_trap hwf he
      rw [requestTrap, if_pos]
      rw [uploadCarInfo_eq, scan_eq hwf] at he
      by_cases hl : Listed em w.users.snapshot
      · refine ⟨?_, hl⟩
        cases hcu : w.currentUser with
        | none => rfl
        | some u =>
            rw [if_pos hl, hcu] at he
            contradiction
      · rw [if_neg hl] at he
        contradiction

theorem crashed_foldl_handler (ob : Observer) (names : List String) (w : World) :
    (names.foldl (fun w name => Observer.handler w ob name) w).crashed = w.crashed := by
  induction names generalizing w with
  | nil => rfl
  | cons name names ih =>
      rw [List.foldl_cons, ih]
      cases ob <;> rfl

/-- A delivery to an observer fails at the fallback of `getNameForEmail`. -/
theorem crashed_deliver (hw : Sound w) (hs : Schema w.users) (hc : w.crashed = none)
    (ob : Observer) :
    (ob.deliver w).crashed =
      if w.currentUser = none ∧ Nameless ob.email w.users.snapshot then some .fallbackUnwrap
      else none := by
  have hwf : ∀ p ∈ w.users.snapshot, WellFormed p.2 := fun p hp =>
    hs p.1 p.2 (mem_snapshot.mp hp)
  have hu : w.currentUser.bind User.email = none ↔ w.currentUser = none :=
    hw.currentEmail_eq_none_iff
  obtain ⟨hn, hl, he⟩ | ⟨hn, names, he⟩ := getNameForEmail_cases hwf ob.email w.currentUser
  · rw [if_pos ⟨hu.mp hn, hl⟩, Observer.deliver, he]
    rfl
  · rw [if_neg (by rwa [hu] at hn), Observer.deliver, he]
    exact (crashed_foldl_handler ob names w).trans hc

end Handlers

/-! ## steps and runs -/

theorem crashed_googleSignIn {w w' : World} {vc : Nat} {rest : List Modal}
    {profile : Option Profile} (hm : w.modals = .auth vc :: rest) (hc : w.crashed = none)
    (h : w.act (.googleSignIn profile) = some w') : w'.crashed = profileTrap profile := by
  simp only [act, hm] at h
  cases h
  exact crashed_sign vc profile hc

theorem crashed_logOut {w w' : World} {ev : Event} {signsOut fetches : Bool}
    {token : Option AccessToken} (hl : LogOut w ev signsOut fetches token) (hc : w.crashed = none)
    (h : w.act ev = some w') : w'.crashed = trapOf w ev := by
  cases hl with
  | auth hm =>
      simp only [act, hm] at h
      split at h
      · cases h
        exact crashed_authLogOut signsOut fetches hc
      · contradiction
  | menu hm hb =>
      simp only [act] at h
      split at h
      · cases h
        exact crashed_menuLogOut signsOut fetches hc
      · contradiction
  | button hm hb =>
      simp only [act] at h
      split at h
      · cases h
        exact crashed_signOutPressed signsOut fetches hc
      · contradiction

/-- **The cause of every crash**: what a step of a running process leaves in
`crashed`. -/
theorem crashed_of_step {w w' : World} {ev : Event} (hw : Sound w) (hs : Schema w.users)
    (h : w.step ev = some w') (hne : ev ≠ .relaunch) : w'.crashed = trapOf w ev := by
  obtain ⟨hrun, hst⟩ := step_cases h
  have hc : w.crashed = none := hrun.resolve_right hne
  have hact : w.act ev = some w' := by
    rwa [World.step, if_pos (.inl hc)] at h
  have hu := hw.currentEmail_eq_none_iff
  cases hst with
  | googleTrap hm => exact crashed_googleSignIn hm hc hact
  | signOutThrew hl => exact crashed_logOut hl hc hact
  | loggedOut hl hm => exact crashed_logOut hl hc hact
  | loggedOutToAuth hl hm h13 => exact crashed_logOut hl hc hact
  | menuFacebook hm ht => simp [trapOf, ht, hc]
  | menuSignOut hm ht he => simp [trapOf, ht, hc, ← hu, he]
  | menuTrap hm ht he => simp [trapOf, ht, ← hu, he]
  | menuLogin hm hb he => simp [trapOf, hc, ← hu, he]
  | menuLoginTrap hm hb he => simp [trapOf, ← hu, he]
  | donePressed hm he =>
      rw [trapOf, if_neg (by simp [← hu, he])]
      exact hc
  | doneTrap hm he => simp [trapOf, ← hu, he]
  | @deliver i o p hp hf =>
      rw [trapOf, hp]
      have ht : Sound (w.taken i) := hw.frame hc rfl (fun _ => rfl) rfl (fun _ => id) rfl id
      exact crashed_complete ht hs hc p.flow o p.request
  | @snapshot i ob ho =>
      rw [trapOf, ho]
      exact crashed_deliver hw hs hc ob
  | relaunched hu => exact absurd rfl hne
  | relaunchedToAuth hu => exact absurd rfl hne
  | _ => exact hc

/-- In a session only a profile or the sign-out itself can be the cause, and
the casts of the readers never are. -/
theorem trapOf_cases {w : World} {ev : Event} {trap : Trap} (h : trapOf w ev = some trap) :
    trap = .profileCast ∨ trap = .signOutThrew ∨
      (w.currentUser = none ∧ trap ≠ .emailCast ∧ trap ≠ .nameCast) := by
  have hprofile : ∀ {profile}, profileTrap profile = some trap → trap = .profileCast := by
    intro profile hp
    unfold profileTrap at hp
    split at hp
    · contradiction
    · contradiction
    · exact (Option.some.inj hp).symm
  have hif : ∀ {c : Prop} [Decidable c] {t : Trap}, (if c then some t else none) = some trap →
      c ∧ trap = t := by
    intro c _ t hc
    split at hc
    · next hp => exact ⟨hp, (Option.some.inj hc).symm⟩
    · contradiction
  cases ev with
  | googleSignIn profile => exact .inl (hprofile h)
  | authLogOut signsOut fetches =>
      cases signsOut with
      | true => contradiction
      | false => exact .inr (.inl (Option.some.inj h).symm)
  | menuLogOut signsOut fetches =>
      cases signsOut with
      | true => contradiction
      | false => exact .inr (.inl (Option.some.inj h).symm)
  | signOutPressed signsOut fetches => exact .inr (.inl (hif h).2)
  | menuAppears fetched =>
      obtain ⟨hc, rfl⟩ := hif h
      exact .inr (.inr ⟨hc.2, by decide, by decide⟩)
  | menuLogin granted =>
      obtain ⟨hc, rfl⟩ := hif h
      exact .inr (.inr ⟨hc, by decide, by decide⟩)
  | donePressed =>
      obtain ⟨hc, rfl⟩ := hif h
      exact .inr (.inr ⟨hc, by decide, by decide⟩)
  | deliver i o =>
      obtain ⟨p, _, hp⟩ := Option.bind_eq_some_iff.mp h
      obtain ⟨flow, r⟩ := p
      cases r with
      | graph vc => exact .inl (hprofile hp)
      | signIn email password done =>
          obtain ⟨hc, rfl⟩ := hif hp
          exact .inr (.inr ⟨hc.2.1, by decide, by decide⟩)
      | createUser email password name done => contradiction
      | carInfo vc em name plNumber color =>
          obtain ⟨hc, rfl⟩ := hif hp
          exact .inr (.inr ⟨hc.1, by decide, by decide⟩)
  | snapshot i =>
      obtain ⟨ob, _, hob⟩ := Option.bind_eq_some_iff.mp h
      obtain ⟨hc, rfl⟩ := hif hob
      exact .inr (.inr ⟨hc.1, by decide, by decide⟩)
  | _ => contradiction

theorem Filed.schema {c : Cloud} (h : Filed c) : Schema c.users := by
  intro uid user hu
  have hr := h uid user hu
  obtain ⟨a, _, he⟩ := hr.email
  exact ⟨⟨a.email, he⟩, fun v hv => (hr.strings "Name" v hv).2⟩

/-- **Every crash of every run.**  Whatever installations that start from an
empty tree have done, the next event of one of them ends its process exactly
when `trapOf` names a cause, which is then the one on record; no cause is ever
a cast of `email` or `Name`, while somebody is signed in it is a profile or a
sign-out that throws, and no other installation is affected. -/
theorem crashed_of_run {ι : Type*} [DecidableEq ι] (accounts : Accounts)
    (available13 : ι → Bool) (es : List (ι × Event)) (s : System ι)
    (h : Runs.run System.step (System.fresh accounts available13) es = some s) (i : ι)
    (ev : Event) (hne : ev ≠ .relaunch) (s' : System ι) (hstep : s.step (i, ev) = some s') :
    (s'.phones i).crashed = trapOf (s.view i) ev ∧
      (s'.phones i).crashed ≠ some .emailCast ∧ (s'.phones i).crashed ≠ some .nameCast ∧
      ((s.phones i).currentUser ≠ none → ∀ trap, (s'.phones i).crashed = some trap →
        trap = .profileCast ∨ trap = .signOutThrew) ∧
      ∀ j, j ≠ i → (s'.phones j).crashed = (s.phones j).crashed := by
  have hint := System.integral_of_run h
  have hc : (s'.phones i).crashed = trapOf (s.view i) ev :=
    crashed_of_step (hint.sound i) hint.filed.schema (System.view_of_step hstep) hne
  refine ⟨hc, ?_, ?_, ?_, fun j hj => by rw [System.phone_of_step hstep hj]⟩
  · intro he
    have hcases := trapOf_cases (hc.symm.trans he)
    simp at hcases
  · intro he
    have hcases := trapOf_cases (hc.symm.trans he)
    simp at hcases
  · intro hu trap ht
    obtain hp | hs | ⟨hn, _⟩ := trapOf_cases (hc.symm.trans ht)
    · exact .inl hp
    · exact .inr hs
    · exact absurd hn hu

/-- Registered by e-mail, with an upload whose write was lost, and signed out
from the menu: the menu's observer is still there. -/
def signedOutUnnamed : List (Unit × Event) :=
  [((), .signInWithEmail), ((), .editSignin "a@x" "secret"), ((), .signInPressed),
    ((), .deliver 0 (.ok "u")), ((), .deliver 0 (.ok "u")), ((), .deliver 0 (.ok "u")),
    ((), .editUpload "Ann" "ABC" "red"), ((), .donePressed),
    ((), .deliver 0 { Outcome.ok "u" with writeLands := false }), ((), .menuAppears (.rows [])),
    ((), .signOutPressed true true)]

theorem crashed_signedOutUnnamed :
    ∃ s s' : System Unit,
      Runs.run System.step (System.fresh Accounts.empty fun _ => true) signedOutUnnamed = some s ∧
      s.step ((), .snapshot 0) = some s' ∧
      (s'.phones ()).crashed = some .fallbackUnwrap ∧
      trapOf (s.view ()) (.snapshot 0) = some .fallbackUnwrap := by
  have hrun : ((Runs.run System.step (System.fresh Accounts.empty fun _ : Unit => true)
      signedOutUnnamed).bind fun s => (s.step ((), .snapshot 0)).map fun s' =>
        (s'.phones ()).crashed) = some (some .fallbackUnwrap) := by decide
  obtain ⟨s, hs, hmap⟩ := Option.bind_eq_some_iff.mp hrun
  obtain ⟨s', hs', hc⟩ := Option.map_eq_some_iff.mp hmap
  refine ⟨s, s', hs, hs', hc, ?_⟩
  rw [← hc]
  exact (crashed_of_run Accounts.empty (fun _ => true) signedOutUnnamed s hs () (.snapshot 0)
    (by decide) s' hs').1.symm

end StreetParker
