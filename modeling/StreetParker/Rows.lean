import StreetParker.Mirror

/-!
# StreetParker.Rows

What `fetchUserInfo` yields in one lifetime of the process.  Five of the six
completion paths leave the e-mail of the session as the one row; the second
sign-in of a registration by e-mail saves nothing.

* `Launch` — where a process begins;
* `RegistersByEmail` — the path that forgets the row;
* `Stored` — the invariant: one row, or none and a reason for it;
* `fetchUserInfo_of_run` — over every run of a process.
-/

namespace StreetParker

open World

/-! ## one lifetime of the process -/

/-- The first launch of a fresh install, or a later one of a state of a run. -/
inductive Launch : World → Prop
  | fresh (cloud : Cloud) (available13 : Bool) : Launch (World.fresh cloud available13)
  | again (w : World) (h : Reachable w) : Launch (AppDelegate.relaunch w)

/-- A registration on a `SigninVC` is answered with a new account. -/
def Request.RegistersByEmail (w : World) (o : Outcome) : Request → Prop
  | .createUser email _ _ (.email _) => o.answer = .answered ∧ w.accounts.Free email
  | _ => False

/-- A step delivers such an answer. -/
def RegistersByEmail (w : World) (ev : Event) : Prop :=
  ∃ a ∈ w.answering ev, a.2.request.RegistersByEmail w a.1

instance (w : World) (o : Outcome) : (r : Request) → Decidable (r.RegistersByEmail w o)
  | .createUser _ _ _ (.email _) => inferInstanceAs (Decidable (_ ∧ _))
  | .createUser _ _ _ (.social _ _) | .graph _ | .signIn _ _ _ | .carInfo _ _ _ _ _ =>
      inferInstanceAs (Decidable False)

instance (w : World) (ev : Event) : Decidable (RegistersByEmail w ev) :=
  inferInstanceAs (Decidable (∃ a ∈ w.answering ev, a.2.request.RegistersByEmail w a.1))

/-- An orderly step of the same process that registers nobody by e-mail. -/
def Mirrored (w : World) (ev : Event) : Prop :=
  Orderly w ev ∧ ev ≠ .relaunch ∧ ¬RegistersByEmail w ev

instance (w : World) (ev : Event) : Decidable (Mirrored w ev) :=
  inferInstanceAs (Decidable (_ ∧ _))

/-- The sign-in an entry of the record stands for. -/
def Entry.signIn? : Entry → Option (Flow × User)
  | .signedIn flow user => some (flow, user)
  | _ => none

/-- The sign-ins on record, the latest first. -/
def World.signIns (w : World) : List (Flow × User) :=
  w.log.filterMap Entry.signIn?

/-- The second sign-in of a social registration, which is still to store its
e-mail. -/
def Request.IsAgain : Request → Prop
  | .signIn _ _ (.socialAgain _ _) => True
  | _ => False

/-! ## the invariant -/

/-- What a request in flight can be: none is the second sign-in of a
registration by e-mail, and with no row there is none that a silent sign-in
could have found its e-mail in. -/
def Fit (w : World) : Request → Prop
  | .signIn email password .silent => w.store.fetchable = [] → Dead w.accounts email password
  | .signIn _ _ (.emailAgain _) => False
  | _ => True

/-- What holds in every state of a process that began in `w₀`. -/
structure Stored (w₀ w : World) : Prop extends Mirror w where
  rows_or : (∃ e, w.store.fetchable = [e]) ∨ (w.store.fetchable = [] ∧
    (w.currentUser = none ∨ w.signIns = w₀.signIns ∨ ∃ p ∈ w.pending, p.request.IsAgain))
  fit : ∀ p ∈ w.pending, Fit w p.request

variable {w₀ w w' : World}

/-- While nobody is signed in every silent sign-in in flight is dead. -/
theorem Quiet.fit {r : Request} (h : Quiet w r) (hu : w.currentUser = none) : Fit w r := by
  cases r with
  | signIn email password done =>
      cases done with
      | silent =>
          intro _
          refine h.resolve_right fun he => ?_
          rw [currentEmail, hu] at he
          contradiction
      | emailAgain vc => exact h
      | _ => trivial
  | _ => trivial

theorem Fit.mono {r : Request} (h : Fit w r) (hst : w'.store.fetchable = w.store.fetchable)
    (hacc : ∀ a ∈ w.accounts, a ∈ w'.accounts) : Fit w' r := by
  cases r with
  | signIn email password done =>
      cases done with
      | silent => exact fun hnil => Dead.mono (h (hst.symm.trans hnil)) hacc
      | emailAgain vc => exact h
      | _ => trivial
  | _ => trivial

/-- With a row there is nothing to say about silent sign-ins. -/
theorem Fit.of_row {r : Request} {e : String} (h : Fit w r) (he : w'.store.fetchable = [e]) :
    Fit w' r := by
  cases r with
  | signIn email password done =>
      cases done with
      | silent => exact fun hnil => absurd (he.symm.trans hnil) (List.cons_ne_nil _ _)
      | emailAgain vc => exact h
      | _ => trivial
  | _ => trivial

theorem stored_launch (h : Launch w₀) (hnil : w₀.store.fetchable = []) : Stored w₀ w₀ := by
  cases h with
  | fresh cloud available13 =>
      exact ⟨mirror_fresh cloud available13, .inr ⟨hnil, .inl rfl⟩,
        fun p hp => absurd hp List.not_mem_nil⟩
  | again v hv =>
      obtain ⟨cloud, available13, es, hr⟩ := hv
      have hstep : v.step .relaunch = some (AppDelegate.relaunch v) := by
        rw [World.step, if_pos (.inr rfl)]
        rfl
      have hs := (sound_of_run hr (sound_fresh cloud available13)).step hstep
      have hp : (AppDelegate.relaunch v).pending = [] := by
        unfold AppDelegate.relaunch AppDelegate.didFinishLaunching
        split <;> rfl
      refine ⟨Mirror.of_relaunch hs step_relaunch (OwnRows.of_nil hnil),
        .inr ⟨hnil, .inr (.inl rfl)⟩, ?_⟩
      rw [hp]
      exact fun p hin => absurd hin List.not_mem_nil

/-- A completion signs nobody in. -/
theorem signIns_after {done : LoginDone} {success : Bool} {sh : Shown} {flow : Flow} {o : Outcome}
    (h : done.Screens w success sh) : (done.after flow success o sh w).signIns = w.signIns := by
  have hgate : sh.gate.filterMap Entry.signIn? = [] := by
    rw [List.filterMap_eq_nil_iff]
    intro x hx
    obtain ⟨gate, cu, rfl⟩ := h.entered x hx
    rfl
  simp only [World.signIns, LoginDone.after, List.filterMap_append, hgate, List.append_nil]
  cases done.followUp w <;> cases done.stores w success <;> rfl

namespace Stored

/-- A step that leaves session and rows alone. -/
theorem frame (h : Stored w₀ w) (hm : Mirror w') (hu : w'.currentUser = w.currentUser)
    (hst : w'.store = w.store) (hacc : ∀ a ∈ w.accounts, a ∈ w'.accounts)
    (hl : w'.signIns = w.signIns) (ha : ∀ p ∈ w.pending, p.request.IsAgain → p ∈ w'.pending)
    (hp : ∀ p ∈ w'.pending, p ∈ w.pending ∨ Fit w' p.request) : Stored w₀ w' := by
  refine ⟨hm, ?_, ?_⟩
  · rw [hst, hu, hl]
    obtain hrow | ⟨hnil, hn | hs | ⟨p, hin, hr⟩⟩ := h.rows_or
    · exact .inl hrow
    · exact .inr ⟨hnil, .inl hn⟩
    · exact .inr ⟨hnil, .inr (.inl hs)⟩
    · exact .inr ⟨hnil, .inr (.inr ⟨p, ha p hin hr, hr⟩)⟩
  · intro p hin
    obtain hin | hf := hp p hin
    · exact (h.fit p hin).mono (by rw [hst]) hacc
    · exact hf

/-- The same for a step that touches no request. -/
theorem frame' (h : Stored w₀ w) (hm : Mirror w') (hu : w'.currentUser = w.currentUser)
    (hst : w'.store = w.store) (hacc : w'.accounts = w.accounts) (hl : w'.signIns = w.signIns)
    (hp : w'.pending = w.pending) : Stored w₀ w' :=
  h.frame hm hu hst (by rw [hacc]; exact fun _ => id) hl (by rw [hp]; exact fun _ hin _ => hin)
    (by rw [hp]; exact fun _ => .inl)

/-- Nobody is signed in. -/
theorem of_none (hm : Mirror w') (hu : w'.currentUser = none)
    (hp : ∀ p ∈ w'.pending, Quiet w' p.request ∨ Fit w' p.request) : Stored w₀ w' :=
  ⟨hm, .inr ⟨hm.fetchable_eq_nil hu, .inl hu⟩, fun p hin => (hp p hin).elim (·.fit hu) id⟩

/-- A login has stored its e-mail. -/
theorem of_row {e : String} (hm : Mirror w') (he : w'.store.fetchable = [e])
    (hp : ∀ p ∈ w'.pending, Fit w p.request ∨ Fit w' p.request) : Stored w₀ w' :=
  ⟨hm, .inl ⟨e, he⟩, fun p hin => (hp p hin).elim (fun hf => hf.of_row he) id⟩

/-- One more request of the chain, if it is fit. -/
theorem pending_append {flow : Flow} {r : Option Request} (hr : ∀ q, r = some q → Fit w' q)
    {l : List Pending} : ∀ p ∈ l ++ pendingOf flow r, p ∈ l ∨ Fit w' p.request := by
  intro p hp
  obtain hp | hp := List.mem_append.mp hp
  · exact .inl hp
  · obtain ⟨q, hq, rfl⟩ := mem_pendingOf.mp hp
    exact .inr (hr q hq)

/-- Another request is still in flight. -/
theorem again_taken {i : Nat} {flow : Flow} {r : Request} (hp : w.pending[i]? = some ⟨flow, r⟩)
    (hr : ¬r.IsAgain) : ∀ p ∈ w.pending, p.request.IsAgain → p ∈ w.pending.eraseIdx i := by
  intro p hin ha
  refine (eq_or_mem_taken hp hin).resolve_left fun heq => hr ?_
  rw [heq] at ha
  exact ha

/-- A step that takes a request out of those in flight, and may issue another. -/
theorem frame_taken (h : Stored w₀ w) {i : Nat} {flow : Flow} {r : Request}
    (hp : w.pending[i]? = some ⟨flow, r⟩) (hr : ¬r.IsAgain) (hm : Mirror w')
    (hu : w'.currentUser = w.currentUser) (hst : w'.store = w.store)
    (hacc : ∀ a ∈ w.accounts, a ∈ w'.accounts) (hl : w'.signIns = w.signIns)
    (r' : Option Request) (hpend : w'.pending = w.pending.eraseIdx i ++ pendingOf flow r')
    (hr' : ∀ q, r' = some q → Fit w' q) : Stored w₀ w' := by
  refine h.frame hm hu hst hacc hl (fun p hin ha => ?_) fun p hin => ?_
  · rw [hpend]
    exact List.mem_append_left _ (again_taken hp hr p hin ha)
  · rw [hpend] at hin
    exact (pending_append hr' p hin).imp_left List.mem_of_mem_eraseIdx

/-- The same for a step that issues none. -/
theorem frame_taken' (h : Stored w₀ w) {i : Nat} {flow : Flow} {r : Request}
    (hp : w.pending[i]? = some ⟨flow, r⟩) (hr : ¬r.IsAgain) (hm : Mirror w')
    (hu : w'.currentUser = w.currentUser) (hst : w'.store = w.store)
    (hacc : ∀ a ∈ w.accounts, a ∈ w'.accounts) (hl : w'.signIns = w.signIns)
    (hpend : w'.pending = w.pending.eraseIdx i) : Stored w₀ w' :=
  h.frame_taken hp hr hm hu hst hacc hl none (hpend.trans (List.append_nil _).symm) (by simp)

/-- What is left in flight is as fit as it was. -/
theorem fit_taken (h : Stored w₀ w) (i : Nat) {flow : Flow} {r : Option Request}
    (hr : ∀ q, r = some q → Fit w' q) :
    ∀ p ∈ w.pending.eraseIdx i ++ pendingOf flow r, Fit w p.request ∨ Fit w' p.request :=
  fun p hp => (pending_append hr p hp).imp_left fun hin => h.fit p (List.mem_of_mem_eraseIdx hin)

/-- The follow-up of a sign-in is a registration. -/
theorem fit_followUp {done : LoginDone} {w₁ : World} {q : Request}
    (h : done.followUp w₁ = some q) : Fit w' q := by
  cases done with
  | social vc password => cases h; trivial
  | email vc => cases h; trivial
  | _ => contradiction

/-- A sign-in is answered with a success. -/
theorem accepted (h : Stored w₀ w) {i : Nat} {o : Outcome} {flow : Flow}
    {email password : String} {done : LoginDone} {a : Account} {sh : Shown}
    (hp : w.pending[i]? = some ⟨flow, .signIn email password done⟩)
    (hm : Mirror (done.after flow true o sh ((w.taken i).signedIn flow a)))
    (ha : w.signInReply o email password = some a) :
    Stored w₀ (done.after flow true o sh ((w.taken i).signedIn flow a)) := by
  have hin : (⟨flow, .signIn email password done⟩ : Pending) ∈ w.pending :=
    List.mem_of_getElem? hp
  have hrow : ∀ {e}, (done.storeAfter ((w.taken i).signedIn flow a) true o).fetchable = [e] →
      Stored w₀ (done.after flow true o sh ((w.taken i).signedIn flow a)) :=
    fun he => of_row hm he (h.fit_taken i fun q => fit_followUp)
  cases done with
  | social vc password =>
      have hph := (h.phase _ hin).resolve_left id
      exact hrow (fetchable_storeAfter_of_nil (w := (w.taken i).signedIn flow a)
        (h.fetchable_eq_nil hph.1) true o _)
  | email vc =>
      have hph := (h.phase _ hin).resolve_left id
      exact hrow (fetchable_storeAfter_of_nil (w := (w.taken i).signedIn flow a)
        (h.fetchable_eq_nil hph.1) true o _)
  | socialAgain vc password =>
      have hph := (h.phase _ hin).resolve_left id
      exact hrow (fetchable_storeAfter_of_nil (w := (w.taken i).signedIn flow a)
        hph.2.2.2 true o _)
  | emailAgain vc => exact (h.fit _ hin).elim
  | silent =>
      -- an accepted silent sign-in found its e-mail in the one row
      obtain ⟨e, he⟩ | ⟨hnil, _⟩ := h.rows_or
      · exact hrow he
      · have hdead : Dead w.accounts email password := h.fit _ hin hnil
        simp [signInReply, hdead.signIn_eq_none] at ha

/-- A sign-in is refused. -/
theorem refused (h : Stored w₀ w) {i : Nat} {o : Outcome} {flow : Flow}
    {email password : String} {done : LoginDone} {sh : Shown}
    (hp : w.pending[i]? = some ⟨flow, .signIn email password done⟩)
    (hm : Mirror (done.after flow false o sh (w.taken i)))
    (hsc : done.Screens (w.taken i) false sh) :
    Stored w₀ (done.after flow false o sh (w.taken i)) := by
  have hin : (⟨flow, .signIn email password done⟩ : Pending) ∈ w.pending :=
    List.mem_of_getElem? hp
  have hlog : (done.after flow false o sh (w.taken i)).signIns = w.signIns := signIns_after hsc
  have hfit : ∀ q, done.followUp (w.taken i) = some q →
      Fit (done.after flow false o sh (w.taken i)) q := fun q => fit_followUp
  cases done with
  | social vc password => exact h.frame_taken hp id hm rfl rfl (fun _ => id) hlog _ rfl hfit
  | email vc => exact h.frame_taken hp id hm rfl rfl (fun _ => id) hlog _ rfl hfit
  | silent => exact h.frame_taken hp id hm rfl rfl (fun _ => id) hlog _ rfl hfit
  | socialAgain vc password =>
      have hph := (h.phase _ hin).resolve_left id
      exact of_row hm (fetchable_storeAfter_of_nil (w := w.taken i) hph.2.2.2 false o _)
        (h.fit_taken i hfit)
  | emailAgain vc => exact (h.fit _ hin).elim

/-- A social registration is answered with a new account: the second sign-in is
on its way. -/
theorem created (h : Stored w₀ w) {i vc : Nat} {o : Outcome} {flow : Flow}
    {email password password' : String} {name : Option String} {a : Account} {db : Accounts}
    (hp : w.pending[i]? = some ⟨flow, .createUser email password name (.social vc password')⟩)
    (hm : Mirror w') (hacc : ∀ a ∈ w.accounts, a ∈ w'.accounts)
    (ha : w.createUserReply o email password = some (a, db)) (hst : w'.store = w.store)
    (hpend : w'.pending = w.pending.eraseIdx i ++ pendingOf flow
      (some (.signIn (w.auths vc).email password' (.socialAgain vc password')))) :
    Stored w₀ w' := by
  have hph := (h.phase _ (List.mem_of_getElem? hp)).resolve_left fun hq =>
    hq (createUserReply_some ha).1
  have hnil : w'.store.fetchable = [] := by
    rw [hst]
    exact h.fetchable_eq_nil hph.1
  refine ⟨hm, .inr ⟨hnil, .inr (.inr
    ⟨⟨flow, .signIn (w.auths vc).email password' (.socialAgain vc password')⟩, ?_, trivial⟩)⟩,
    fun p hin => ?_⟩
  · rw [hpend]
    exact List.mem_append_right _ (List.mem_singleton_self _)
  · rw [hpend] at hin
    obtain hf | hf := h.fit_taken i (fun q hq => by cases hq; trivial) p hin
    · exact hf.mono (by rw [hst]) hacc
    · exact hf

/-- **Deliveries** in a process. -/
theorem deliver (h : Stored w₀ w) {i : Nat} {o : Outcome} {flow : Flow} {r : Request}
    (hp : w.pending[i]? = some ⟨flow, r⟩) (hm : Mirror w')
    (hd : Completes (w.taken i) flow o r w') (hno : ¬RegistersByEmail w (.deliver i o)) :
    Stored w₀ w' := by
  have hacc : ∀ a ∈ w.accounts, a ∈ w'.accounts := (Later.complete hd).accounts
  cases hd with
  | graphFailed => exact h.frame_taken' hp id hm rfl rfl hacc rfl rfl
  | graphTrap => exact h.frame_taken' hp id hm rfl rfl hacc rfl rfl
  | graphConfirmed hprof =>
      refine h.frame_taken hp id hm rfl rfl hacc rfl (some _) rfl fun q hq => ?_
      cases hq
      trivial
  | accepted ha hsc => exact h.accepted hp hm ha
  | refused ha hsc => exact h.refused hp hm hsc
  | @created email password name done a db ha ho =>
      cases done with
      | social vc password =>
          rw [userCreated_eq] at hm hacc ⊢
          exact h.created hp hm hacc ha rfl rfl
      | email vc =>
          exact absurd ⟨_, answering_deliver hp, ho, (createUserReply_some ha).1⟩ hno
  | createdUnheard ha ho => exact h.frame_taken' hp id hm rfl rfl hacc rfl rfl
  | notCreated ha => exact h.frame_taken' hp id hm rfl rfl hacc rfl rfl
  | uploaded he hu => exact h.frame_taken' hp id hm rfl rfl hacc rfl rfl
  | uploadTrap he => exact h.frame_taken' hp id hm rfl rfl hacc rfl rfl

/-- **Steps** of a process. -/
theorem step (h : Stored w₀ w) {ev : Event} (hstep : w.step ev = some w') (hC : Mirrored w ev) :
    Stored w₀ w' := by
  obtain ⟨hord, hev, hno⟩ := hC
  have hm : Mirror w' := h.toMirror.step hstep hord
  obtain ⟨_, hs⟩ := step_cases hstep
  have hpush : ∀ {flow q}, w'.currentUser = w.currentUser → w'.store = w.store →
      w'.accounts = w.accounts → w'.signIns = w.signIns →
      w'.pending = w.pending ++ pendingOf flow (some q) → Fit w' q → Stored w₀ w' := by
    intro flow q hu hst hacc hl hp hf
    refine h.frame hm hu hst (by rw [hacc]; exact fun _ => id) hl ?_ ?_
    · rw [hp]
      exact fun p hin _ => List.mem_append_left _ hin
    · rw [hp]
      refine pending_append fun q' hq => ?_
      cases hq
      exact hf
  cases hs with
  | fbLogin hm' => exact hpush rfl rfl rfl rfl rfl trivial
  | googleConfirmed hm' => exact hpush rfl rfl rfl rfl rfl trivial
  | signInPressed hm' => exact hpush rfl rfl rfl rfl rfl trivial
  | findSilent hm' hf ht =>
      refine hpush rfl rfl rfl rfl rfl fun hnil => ?_
      refine (silentEmail_or hf).elim .inl fun hin => ?_
      have hnil' : w.store.fetchable = [] := hnil
      rw [hnil'] at hin
      exact absurd hin List.not_mem_nil
  | donePressed hm' he => exact hpush rfl rfl rfl rfl rfl trivial
  | loggedOut hl h13 =>
      have hset := (Mirror.orderly_logOut hl hord).1
      exact of_none hm rfl fun p hin => .inl (Inert.quiet (hset p hin))
  | loggedOutToAuth hl hm' h13 =>
      have hset := (Mirror.orderly_logOut hl hord).1
      exact of_none hm rfl fun p hin => .inl (Inert.quiet (hset p hin))
  | @deliver i o p hp hu => exact h.deliver hp hm (complete_cases _ _ _ _) hno
  | @snapshot i ob ho =>
      obtain ⟨b, u, c, he, _⟩ := observer_deliver_eq ob w
      rw [he] at hm ⊢
      exact h.frame' hm rfl rfl rfl rfl rfl
  | relaunched hu => exact absurd rfl hev
  | relaunchedToAuth hu => exact absurd rfl hev
  | _ => exact h.frame' hm rfl rfl rfl rfl rfl

end Stored

/-- **`fetchUserInfo` mirrors the session** in every state of a process that
begins with an empty store: when a chain has signed somebody in and no second
sign-in is in flight, its handler is called once, with the e-mail of the
session; and while nobody is signed in it is not called. -/
theorem fetchUserInfo_of_run (w₀ : World) (hl : Launch w₀) (hempty : w₀.store.fetchable = [])
    (es : List Event) (t : World) (h : Runs.run World.step w₀ es = some t)
    (hC : Runs.Meets World.step Mirrored w₀ es) (emails : List String)
    (hf : (Fetch.rows emails).Of t.store) :
    (∀ u, t.currentUser = some u → t.signIns ≠ w₀.signIns →
      (∀ p ∈ t.pending, ¬p.request.IsAgain) →
      ∃ e, u.email = some e ∧ Dataservice.fetchUserInfo (.rows emails) = [e]) ∧
    (t.currentUser = none → Dataservice.fetchUserInfo (.rows emails) = []) := by
  have ht : Stored w₀ t := Runs.inv_of_run (fun _ _ _ hs hC hstep => hs.step hstep hC) h hC
    (stored_launch hl hempty)
  refine ⟨fun u hu hsince hdone => ?_, fun hn => ?_⟩
  · obtain ⟨e, he⟩ | ⟨_, hn | hs | ⟨p, hp, ha⟩⟩ := ht.rows_or
    · refine ⟨e, ?_, ?_⟩
      · have hcur := ht.rows e (by rw [he]; exact List.mem_singleton_self e)
        rwa [currentEmail, hu] at hcur
      · exact List.perm_singleton.mp (he ▸ hf)
    · rw [hu] at hn
      contradiction
    · exact absurd hs hsince
    · exact absurd ha (hdone p hp)
  · exact List.perm_nil.mp (ht.fetchable_eq_nil hn ▸ hf)

/-- Typing on while a login is on its way and closing its screen is no overlap. -/
example : Runs.Meets World.step Mirrored
    (World.fresh ⟨Accounts.single ⟨"u", "a@x", "secret"⟩ (by decide), ∅⟩ true)
    [.signInWithEmail, .editSignin "a@x" "secret", .signInPressed, .editSignin "b@x" "",
      .editSignin "a@x" "", .closePressed, .deliver 0 (.ok ""), .deliver 0 (.ok "")] := by
  decide

/-- A Facebook registration, whose second sign-in stores the e-mail. -/
theorem fetchUserInfo_of_registration :
    ∃ t, Runs.run World.step (World.fresh ⟨Accounts.empty, ∅⟩ true)
        [.fbLogin true, .deliver 0 (.graph "a@x" "Ann"), .deliver 0 (.ok "u"),
          .deliver 0 (.ok "u"), .deliver 0 (.ok "u")] = some t ∧
      Dataservice.fetchUserInfo (.rows t.store.fetchable) = ["a@x"] := by
  have hrun : ∃ t, Runs.run World.step (World.fresh ⟨Accounts.empty, ∅⟩ true)
      [.fbLogin true, .deliver 0 (.graph "a@x" "Ann"), .deliver 0 (.ok "u"),
        .deliver 0 (.ok "u"), .deliver 0 (.ok "u")] = some t ∧
      (t.currentUser = some ⟨"u", some "a@x", "Firebase"⟩ ∧ t.signIns ≠ [] ∧ t.pending = []) := by
    have hdec : (Runs.run World.step (World.fresh ⟨Accounts.empty, ∅⟩ true)
        [.fbLogin true, .deliver 0 (.graph "a@x" "Ann"), .deliver 0 (.ok "u"),
          .deliver 0 (.ok "u"), .deliver 0 (.ok "u")]).map (fun t =>
        decide (t.currentUser = some ⟨"u", some "a@x", "Firebase"⟩ ∧ t.signIns ≠ [] ∧
          t.pending = [])) = some true := by
      decide
    simpa only [Option.map_eq_some_iff, decide_eq_true_eq] using hdec
  obtain ⟨t, ht, hu, hs, hp⟩ := hrun
  obtain ⟨e, he, hfetch⟩ := (fetchUserInfo_of_run _ (.fresh ⟨Accounts.empty, ∅⟩ true) rfl _ t ht
    (by decide) _ (List.Perm.refl _)).1 _ hu hs fun p hin => absurd (hp ▸ hin) List.not_mem_nil
  cases he
  exact ⟨t, ht, hfetch⟩

/-- A registration by e-mail on a fresh install has delivered everything and
left its user signed in, and nothing is stored. -/
theorem fetchUserInfo_of_email_registration :
    ∃ t, Runs.run World.step (World.fresh ⟨Accounts.empty, ∅⟩ true)
        [.signInWithEmail, .editSignin "a@x" "secret", .signInPressed, .deliver 0 (.ok "u"),
          .deliver 0 (.ok "u"), .deliver 0 (.ok "u")] = some t ∧
      t.pending = [] ∧ t.currentUser = some ⟨"u", some "a@x", "Firebase"⟩ ∧
      t.store.fetchable = [] ∧
      ∀ emails, (Fetch.rows emails).Of t.store →
        Dataservice.fetchUserInfo (.rows emails) ≠ ["a@x"] := by
  have hdec : (Runs.run World.step (World.fresh ⟨Accounts.empty, ∅⟩ true)
      [.signInWithEmail, .editSignin "a@x" "secret", .signInPressed, .deliver 0 (.ok "u"),
        .deliver 0 (.ok "u"), .deliver 0 (.ok "u")]).map (fun t =>
      decide (t.pending = [] ∧ t.currentUser = some ⟨"u", some "a@x", "Firebase"⟩ ∧
        t.store.fetchable = [])) = some true := by
    decide
  simp only [Option.map_eq_some_iff, decide_eq_true_eq] at hdec
  obtain ⟨t, ht, hp, hu, hnil⟩ := hdec
  refine ⟨t, ht, hp, hu, hnil, fun emails hf he => ?_⟩
  have hempty : emails = [] := List.perm_nil.mp (hnil ▸ hf)
  rw [hempty] at he
  contradiction

end StreetParker
