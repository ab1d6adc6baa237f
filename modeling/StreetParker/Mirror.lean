import StreetParker.Silent

/-!
# StreetParker.Mirror

What the user can do to keep a run tidy.  A social login saves its e-mail
without deleting what is there, so the rows are right as long as every login
starts from an empty store, and that is what the logouts are for.

* `Apart` — a login or logout begins when nothing in flight can sign in any
  more, and a completion finds the e-mail its request was made with;
* `Purges` — a logout really deletes the rows, and no relaunch undoes it;
* `Mirror` — the invariant: the rows are the user's own, and at most one login
  chain is on its way, on the screen it began on or on what is left of it;
* `Mirror.tidy` — an orderly step is tidy;
* `Mirror.step` — an orderly step keeps the invariant.
-/

namespace StreetParker

open World

/-! ## requests that can change nothing -/

/-- No account will ever answer to these credentials. -/
def Dead (accounts : Accounts) (email password : String) : Prop :=
  validEmail email = false ∨ ∃ a ∈ accounts.toList, a.email = email ∧ a.password ≠ password

instance (accounts : Accounts) (email password : String) :
    Decidable (Dead accounts email password) :=
  inferInstanceAs (Decidable (_ ∨ _))

/-- What is in flight cannot sign anybody in any more. -/
def Inert (accounts : Accounts) : Request → Prop
  | .signIn email password .silent => Dead accounts email password
  | .createUser email _ _ _ => ¬accounts.Free email
  | .carInfo _ _ _ _ _ => True
  | _ => False

instance (accounts : Accounts) : (r : Request) → Decidable (Inert accounts r)
  | .signIn _ _ .silent => inferInstanceAs (Decidable (Dead _ _ _))
  | .createUser _ _ _ _ => inferInstanceAs (Decidable (¬_))
  | .carInfo _ _ _ _ _ => inferInstanceAs (Decidable True)
  | .graph _ => inferInstanceAs (Decidable False)
  | .signIn _ _ (.social _ _) => inferInstanceAs (Decidable False)
  | .signIn _ _ (.socialAgain _ _) => inferInstanceAs (Decidable False)
  | .signIn _ _ (.email _) => inferInstanceAs (Decidable False)
  | .signIn _ _ (.emailAgain _) => inferInstanceAs (Decidable False)

/-- No sign-in is on its way. -/
def Settled (w : World) : Prop := ∀ p ∈ w.pending, Inert w.accounts p.request

instance (w : World) : Decidable (Settled w) :=
  inferInstanceAs (Decidable (∀ p ∈ w.pending, Inert w.accounts p.request))

theorem Dead.mono {accounts accounts' : Accounts} {email password : String}
    (h : Dead accounts email password) (hacc : ∀ a ∈ accounts, a ∈ accounts') :
    Dead accounts' email password := by
  obtain h | ⟨a, ha, he⟩ := h
  · exact .inl h
  · exact .inr ⟨a, hacc a ha, he⟩

theorem Dead.signIn_eq_none {accounts : Accounts} {email password : String}
    (h : Dead accounts email password) : accounts.signIn email password = none := by
  obtain h | ⟨a, ha, he, hp⟩ := h
  · exact Accounts.signIn_invalid h password
  · cases hs : accounts.signIn email password with
    | none => rfl
    | some b =>
        obtain ⟨hb, hbe, hbp⟩ := Accounts.signIn_some hs
        rw [Accounts.eq_of_email ha hb (he.trans hbe.symm)] at hp
        exact absurd hbp hp

/-- A taken e-mail stays taken. -/
theorem not_free_mono {accounts accounts' : Accounts} {email : String}
    (h : ¬accounts.Free email) (hacc : ∀ a ∈ accounts, a ∈ accounts') :
    ¬accounts'.Free email := by
  intro hf
  refine h ⟨hf.1, fun hin => hf.2 ?_⟩
  obtain ⟨a, ha, he⟩ := List.mem_map.mp hin
  exact List.mem_map.mpr ⟨a, hacc a ha, he⟩

theorem not_free_of_mem {accounts : Accounts} {a : Account} (ha : a ∈ accounts) :
    ¬accounts.Free a.email := fun hf => hf.2 (List.mem_map_of_mem ha)

/-! ## orderly runs -/

/-- Where the completion of a request of a `SigninVC` goes on with the e-mail
field, it finds the e-mail of the request there. -/
def Request.FindsEmail (w : World) (o : Outcome) : Request → Prop
  | .signIn email password (.email vc) =>
      w.signInReply o email password ≠ none → (w.signins vc).emailField = email
  | .createUser email _ _ (.email vc) =>
      o.answer = .answered → w.accounts.Free email → (w.signins vc).emailField = email
  | _ => True

/-- Logins and logouts do not overlap: each begins with no sign-in on its way,
and a social login with nobody signed in.  What is typed meanwhile does not
reach a login on its way. -/
def Apart (w : World) : Event → Prop
  | .fbLogin _ => Settled w ∧ w.currentUser = none
  | .googleSignIn _ => Settled w ∧ w.currentUser = none
  | .signInWithEmail => Settled w
  | .signInPressed => Settled w
  | .authLogOut _ _ => Settled w
  | .menuLogOut _ _ => Settled w
  | .signOutPressed _ _ => Settled w
  | .deliver i o => ∀ p ∈ w.pending[i]?, p.request.FindsEmail w o
  | _ => True

/-- The deletion of a logout takes effect: its fetch succeeds or there is
nothing to delete, and the process does not end before it is saved. -/
def Purges (w : World) (ev : Event) : Prop :=
  (∀ fetches ∈ ev.deletion?, fetches = true ∨ w.store.fetchable = []) ∧
    (ev = .relaunch → ¬w.store.HasUnsavedDelete)

/-- Both. -/
def Orderly (w : World) (ev : Event) : Prop := Apart w ev ∧ Purges w ev

instance (w : World) (o : Outcome) : (r : Request) → Decidable (r.FindsEmail w o)
  | .signIn _ _ (.email _) => inferInstanceAs (Decidable (_ → _))
  | .createUser _ _ _ (.email _) => inferInstanceAs (Decidable (_ → _ → _))
  | .signIn _ _ (.social _ _) | .signIn _ _ (.socialAgain _ _) | .signIn _ _ (.emailAgain _)
  | .signIn _ _ .silent | .createUser _ _ _ (.social _ _) | .graph _ | .carInfo _ _ _ _ _ =>
      inferInstanceAs (Decidable True)

instance (w : World) : (ev : Event) → Decidable (Apart w ev)
  | .fbLogin _ | .googleSignIn _ => inferInstanceAs (Decidable (Settled w ∧ _))
  | .signInWithEmail | .signInPressed | .authLogOut _ _ | .menuLogOut _ _
  | .signOutPressed _ _ => inferInstanceAs (Decidable (Settled w))
  | .deliver i o => inferInstanceAs (Decidable (∀ p ∈ w.pending[i]?, p.request.FindsEmail w o))
  | .editSignin _ _ | .closePressed | .findAppears _ | .menuAppears _ | .menuLogin _
  | .editUpload _ _ _ | .donePressed | .snapshot _ | .tokenExpires | .relaunch =>
      inferInstanceAs (Decidable True)

instance (w : World) (ev : Event) : Decidable (Purges w ev) :=
  inferInstanceAs (Decidable (_ ∧ _))

instance (w : World) (ev : Event) : Decidable (Orderly w ev) :=
  inferInstanceAs (Decidable (_ ∧ _))

/-! ## the invariant -/

/-- A request in flight that is no part of a login on its way. -/
def Quiet (w : World) : Request → Prop
  | .signIn email password .silent =>
      Dead w.accounts email password ∨ w.currentEmail = some email
  | .createUser email _ _ _ => ¬w.accounts.Free email
  | .carInfo _ _ _ _ _ => True
  | _ => False

/-- Where a login chain stands while one of its requests is in flight.  The
`SigninVC` may have been closed meanwhile. -/
def Phase (w : World) : Request → Prop
  | .graph vc => w.currentUser = none ∧ w.modals = [.auth vc]
  | .signIn email _ (.social vc _) =>
      w.currentUser = none ∧ w.modals = [.auth vc] ∧ (w.auths vc).email = email
  | .createUser email _ _ (.social vc _) =>
      w.currentUser = none ∧ w.modals = [.auth vc] ∧ (w.auths vc).email = email
  | .signIn email _ (.socialAgain vc _) =>
      w.currentEmail = some email ∧ w.modals = [.auth vc] ∧ (w.auths vc).email = email ∧
        w.store.fetchable = []
  | .signIn _ _ (.email vc) =>
      w.currentUser = none ∧ ∃ a, w.modals = [.signin vc, .auth a] ∨ w.modals = [.auth a]
  | .createUser _ _ _ (.email vc) =>
      w.currentUser = none ∧ ∃ a, w.modals = [.signin vc, .auth a] ∨ w.modals = [.auth a]
  | .signIn email _ (.emailAgain vc) =>
      w.currentEmail = some email ∧ ∃ a, w.modals <:+ [.signin vc, .auth a]
  | .signIn _ _ .silent => False
  | .carInfo _ _ _ _ _ => False

/-- What holds in every state of an orderly run. -/
structure Mirror (w : World) : Prop extends Sound w where
  rows : OwnRows w
  phase : ∀ p ∈ w.pending, Quiet w p.request ∨ Phase w p.request
  /-- at most one login is on its way -/
  single : w.pending.Pairwise fun p q => Quiet w p.request ∨ Quiet w q.request
  /-- after a login no `SigninVC` is on top any more -/
  idle : (∀ p ∈ w.pending, Quiet w p.request) → w.currentUser ≠ none →
    ∀ vc rest, w.modals ≠ .signin vc :: rest
  signin : ∀ vc, .signin vc ∈ w.modals → w.available13 = true

/-! ## requests from one state to the next -/

variable {w w' : World}

theorem Inert.mono {accounts accounts' : Accounts} {r : Request} (h : Inert accounts r)
    (hacc : ∀ a ∈ accounts, a ∈ accounts') : Inert accounts' r := by
  cases r with
  | signIn email password done =>
      cases done with
      | silent => exact Dead.mono h hacc
      | _ => exact h
  | createUser email password name done => exact not_free_mono h hacc
  | _ => exact h

theorem Inert.quiet {r : Request} (h : Inert w.accounts r) : Quiet w r := by
  cases r with
  | signIn email password done =>
      cases done with
      | silent => exact .inl h
      | _ => exact h
  | _ => exact h

/-- What is quiet stays quiet as long as the user is the same, or when a login
begins where nobody was signed in. -/
theorem Quiet.mono {r : Request} (h : Quiet w r) (hacc : ∀ a ∈ w.accounts, a ∈ w'.accounts)
    (hu : w.currentEmail = none ∨ w'.currentEmail = w.currentEmail) : Quiet w' r := by
  cases r with
  | signIn email password done =>
      cases done with
      | silent =>
          obtain hd | he := h
          · exact .inl (hd.mono hacc)
          · obtain hn | hu := hu
            · rw [hn] at he
              contradiction
            · exact .inr (hu.trans he)
      | _ => exact h
  | createUser email password name done => exact not_free_mono h hacc
  | _ => exact h

/-- A phase depends on the session, the rows, the screens and the e-mails of the
`AuthVC`s alone. -/
theorem Phase.congr {r : Request} (h : Phase w r) (hu : w'.currentUser = w.currentUser)
    (hst : w'.store = w.store) (hm : w'.modals = w.modals)
    (ha : ∀ a, (w'.auths a).email = (w.auths a).email) : Phase w' r := by
  have he : w'.currentEmail = w.currentEmail := by rw [currentEmail, hu, currentEmail]
  cases r with
  | graph vc => simpa only [Phase, hu, hm] using h
  | signIn email password done =>
      cases done with
      | silent => exact h.elim
      | _ => simpa only [Phase, hu, he, hst, hm, ha] using h
  | createUser email password name done =>
      cases done <;> simpa only [Phase, hu, he, hst, hm, ha] using h
  | carInfo vc em name plNumber color => exact h

/-- While a login is on its way there is no upload screen. -/
theorem Phase.ne_upload {r : Request} (h : Phase w r) (vc : Nat) (rest : List Modal) :
    w.modals ≠ .upload vc :: rest := by
  intro hm
  cases r with
  | graph v => cases hm.symm.trans h.2
  | signIn email password done =>
      cases done with
      | social v password => cases hm.symm.trans h.2.1
      | socialAgain v password => cases hm.symm.trans h.2.1
      | email v =>
          obtain ⟨_, a, h | h⟩ := h <;> cases hm.symm.trans h
      | emailAgain v =>
          obtain ⟨_, a, hs⟩ := h
          rw [hm] at hs
          simp [List.suffix_cons_iff] at hs
      | silent => exact h.elim
  | createUser email password name done =>
      cases done with
      | social v password => cases hm.symm.trans h.2.1
      | email v =>
          obtain ⟨_, a, h | h⟩ := h <;> cases hm.symm.trans h
  | carInfo v em name plNumber color => exact h.elim

/-- Closing the `SigninVC` leaves a login where it is. -/
theorem Phase.closed {r : Request} (h : Phase w r) {vc : Nat} {rest : List Modal}
    (hw : w.modals = .signin vc :: rest) (hu : w'.currentUser = w.currentUser)
    (hm : w'.modals = rest ∨ w.currentUser ≠ none ∧ w'.modals <:+ w.modals) : Phase w' r := by
  have hs : w'.modals <:+ w.modals := by
    obtain hm | ⟨_, hm⟩ := hm
    · rw [hm, hw]
      exact List.suffix_cons _ _
    · exact hm
  -- a login that has signed nobody in yet goes on over the `AuthVC` below
  have hleft : ∀ {v}, (w.currentUser = none ∧
      ∃ a, w.modals = [.signin v, .auth a] ∨ w.modals = [.auth a]) →
      w'.currentUser = none ∧ ∃ a, w'.modals = [.signin v, .auth a] ∨ w'.modals = [.auth a] := by
    rintro v ⟨hn, a, hv | hv⟩
    · cases hw.symm.trans hv
      exact ⟨hu.trans hn, a, .inr (hm.resolve_right fun hne => hne.1 hn)⟩
    · cases hw.symm.trans hv
  cases r with
  | graph v => cases hw.symm.trans h.2
  | signIn email password done =>
      cases done with
      | social v password => cases hw.symm.trans h.2.1
      | socialAgain v password => cases hw.symm.trans h.2.1
      | email v => exact hleft h
      | emailAgain v =>
          obtain ⟨he, a, hv⟩ := h
          exact ⟨by rw [World.currentEmail, hu]; exact he, a, hs.trans hv⟩
      | silent => exact h.elim
  | createUser email password name done =>
      cases done with
      | social v password => cases hw.symm.trans h.2.1
      | email v => exact hleft h
  | carInfo v em name plNumber color => exact h.elim

/-- The session is the one account of its e-mail. -/
theorem Sound.currentUser_eq (h : Sound w) {a : Account} (hin : a ∈ w.accounts)
    (he : w.currentEmail = some a.email) : w.currentUser = some a.user := by
  cases hu : w.currentUser with
  | none =>
      rw [currentEmail, hu] at he
      contradiction
  | some u =>
      obtain ⟨b, hb, hbu⟩ := h.account u hu
      rw [currentEmail, hu, ← hbu] at he
      rw [← hbu, Accounts.eq_of_email hb hin (Option.some.inj he)]

/-- A sign-in on its way while somebody is signed in is the second one of a
registration. -/
theorem Phase.currentEmail {email password : String} {done : LoginDone}
    (h : Phase w (.signIn email password done)) (hu : w.currentUser ≠ none) :
    w.currentEmail = some email := by
  cases done with
  | social vc password => exact absurd h.1 hu
  | email vc => exact absurd h.1 hu
  | socialAgain vc password => exact h.1
  | emailAgain vc => exact h.1
  | silent => exact h.elim

/-- A registration is on its way while nobody is signed in. -/
theorem Phase.registering {email password : String} {name : Option String} {done : RegisterDone}
    (h : Phase w (.createUser email password name done)) : w.currentUser = none := by
  cases done <;> exact h.1

namespace Mirror

/-- The rows are those of nobody, so there are none. -/
theorem fetchable_eq_nil (h : Mirror w) (hu : w.currentUser = none) : w.store.fetchable = [] := by
  rw [List.eq_nil_iff_forall_not_mem]
  intro r hr
  have he := h.rows r hr
  rw [currentEmail, hu] at he
  contradiction

/-- Behind the upload screen no login is on its way. -/
theorem quiet_of_upload (h : Mirror w) {vc : Nat} {rest : List Modal}
    (hm : w.modals = .upload vc :: rest) : ∀ p ∈ w.pending, Quiet w p.request :=
  fun p hp => (h.phase p hp).resolve_right fun hph => hph.ne_upload vc rest hm

/-- On a `SigninVC` nobody is signed in, unless a login is on its way. -/
theorem currentUser_eq_none (h : Mirror w) (hset : Settled w) {vc : Nat} {rest : List Modal}
    (hm : w.modals = .signin vc :: rest) : w.currentUser = none := by
  by_contra hu
  exact h.idle (fun p hp => (hset p hp).quiet) hu vc rest hm

/-! ## what steps do to it -/

/-- A step that leaves session, rows and requests alone, and screens that serve
the requests as well as before. -/
theorem frame_modals (h : Mirror w) (hs : Sound w') (hu : w'.currentUser = w.currentUser)
    (hacc : w'.accounts = w.accounts) (hst : w'.store = w.store) (hp : w'.pending = w.pending)
    (hph : ∀ r, Phase w r → Phase w' r)
    (hm : ∀ vc rest, w'.modals = .signin vc :: rest → w.modals = .signin vc :: rest)
    (h13 : ∀ vc, .signin vc ∈ w'.modals → w'.available13 = true) : Mirror w' := by
  have he : w'.currentEmail = w.currentEmail := by rw [currentEmail, hu, currentEmail]
  have hq : ∀ {r}, Quiet w r → Quiet w' r :=
    fun hq => hq.mono (by rw [hacc]; exact fun _ => id) (.inr he)
  have hq' : ∀ {r}, Quiet w' r → Quiet w r :=
    fun hq => hq.mono (by rw [hacc]; exact fun _ => id) (.inr he.symm)
  refine ⟨hs, h.rows.frame hst hu, ?_, ?_, ?_, h13⟩
  · intro p hin
    rw [hp] at hin
    exact (h.phase p hin).imp hq (hph _)
  · rw [hp]
    exact h.single.imp fun hpq => hpq.imp hq hq
  · intro hall hne vc rest htop
    rw [hp] at hall
    rw [hu] at hne
    exact h.idle (fun p hin => hq' (hall p hin)) hne vc rest (hm vc rest htop)

/-- A step that leaves alone what the invariant speaks of. -/
theorem frame (h : Mirror w) (hs : Sound w') (hu : w'.currentUser = w.currentUser)
    (hacc : w'.accounts = w.accounts) (hst : w'.store = w.store) (hm : w'.modals = w.modals)
    (ha : ∀ a, (w'.auths a).email = (w.auths a).email) (hp : w'.pending = w.pending)
    (h13 : w'.available13 = w.available13) : Mirror w' :=
  h.frame_modals hs hu hacc hst hp (fun _ hph => hph.congr hu hst hm ha)
    (fun _ _ htop => hm.symm.trans htop) (by rw [hm, h13]; exact h.signin)

/-- One more request that is no part of a login. -/
theorem push (h : Mirror w) (flow : Flow) {r : Request} (hr : Quiet w r) :
    Mirror { w with pending := w.pending ++ [⟨flow, r⟩] } := by
  refine ⟨⟨h.stack, h.emailLogged, h.account, h.button, h.token⟩, h.rows, ?_, ?_, ?_, h.signin⟩
  · intro p hp
    obtain hp | hp := List.mem_append.mp hp
    · exact h.phase p hp
    · rw [List.mem_singleton.mp hp]
      exact .inl hr
  · refine List.pairwise_append.mpr ⟨h.single, List.pairwise_singleton _ _, ?_⟩
    intro p _ q hq
    rw [List.mem_singleton.mp hq]
    exact .inr hr
  · exact fun hall hne => h.idle (fun p hp => hall p (List.mem_append_left _ hp)) hne

/-- One such request less. -/
theorem taken (h : Mirror w) {i : Nat} {p : Pending} (hp : w.pending[i]? = some p)
    (hq : Quiet w p.request) : Mirror (w.taken i) := by
  refine ⟨⟨h.stack, h.emailLogged, h.account, h.button, h.token⟩, h.rows, ?_,
    h.single.sublist (List.eraseIdx_sublist _ _), ?_, h.signin⟩
  · exact fun q hin => h.phase q (List.mem_of_mem_eraseIdx hin)
  · intro hall hne
    refine h.idle (fun q hin => ?_) hne
    obtain hin | hin := eq_or_mem_taken hp hin
    · rw [hin]
      exact hq
    · exact hall q hin

/-- A state in which at most the request `r` belongs to a login. -/
theorem of_next (hs : Sound w') {rest : List Pending} (flow : Flow) (r : Option Request)
    (hp : w'.pending = rest ++ pendingOf flow r) (hrest : ∀ q ∈ rest, Quiet w' q.request)
    (hr : ∀ q, r = some q → Quiet w' q ∨ Phase w' q)
    (hrows : OwnRows w')
    (hidle : (∀ q, r = some q → Quiet w' q) → w'.currentUser ≠ none →
      ∀ vc rest, w'.modals ≠ .signin vc :: rest)
    (h13 : ∀ vc, .signin vc ∈ w'.modals → w'.available13 = true) : Mirror w' := by
  refine ⟨hs, hrows, ?_, ?_, ?_, h13⟩
  · intro p hin
    rw [hp] at hin
    obtain hin | hin := List.mem_append.mp hin
    · exact .inl (hrest p hin)
    · obtain ⟨q, hq, rfl⟩ := mem_pendingOf.mp hin
      exact hr q hq
  · rw [hp]
    refine List.pairwise_append.mpr ⟨?_, ?_, fun p hin _ _ => .inl (hrest p hin)⟩
    · exact List.pairwise_of_forall_mem_list fun p hin _ _ => .inl (hrest p hin)
    · cases r with
      | none => exact .nil
      | some q => exact List.pairwise_singleton _ _
  · intro hall hne
    refine hidle (fun q hq => ?_) hne
    rw [hp] at hall
    exact hall ⟨flow, q⟩ (List.mem_append_right _ (mem_pendingOf.mpr ⟨q, hq, rfl⟩))

end Mirror

/-! ## deliveries -/

/-- A first sign-in on an `AuthVC` takes it off the screen. -/
theorem dismissed_social {vc : Nat} (hm : w.modals = [.auth vc]) (password : String) :
    LoginDone.dismissed w true (.social vc password) = [] := by
  simp [LoginDone.dismissed, dismiss, hm, dismissFrom, appear]

/-- A first sign-in on a `SigninVC` takes both login screens off. -/
theorem dismissed_email {vc a : Nat} (hm : w.modals = [.signin vc, .auth a])
    (hu : w.currentUser ≠ none) (ha : (w.auths a).emailLogged = 1) :
    LoginDone.dismissed w true (.email vc) = [] := by
  have hs : w.currentUser.isSome = true := Option.isSome_iff_ne_none.mpr hu
  simp [LoginDone.dismissed, dismiss, dismiss?, presenting, hm, dismissFrom, appear, hs, ha]

/-- A first sign-in on a `SigninVC` that has been closed leaves the `AuthVC`. -/
theorem dismissed_closed {a : Nat} (hm : w.modals = [.auth a]) (vc : Nat) :
    LoginDone.dismissed w true (.email vc) = [.auth a] := by
  simp [LoginDone.dismissed, dismiss, dismiss?, presenting, hm]

/-- The handler of `uploadCarInfo` takes its upload screen away, and whatever
is below it. -/
theorem uploaded_modals (h : Sound w) (hu : w.currentUser ≠ none) (vc : Nat) :
    (UploadColorAndModelVC.uploaded vc w).modals = w.modals ∨
      ((UploadColorAndModelVC.uploaded vc w).modals = [] ∧
        ∃ v rest, w.modals = .upload v :: rest) := by
  have hs : w.currentUser.isSome = true := Option.isSome_iff_ne_none.mpr hu
  unfold UploadColorAndModelVC.uploaded
  obtain hm | ⟨a, hm⟩ | ⟨s, a, hm⟩ | ⟨u, a, hm⟩ | ⟨u, s, a, hm⟩ := stack_cases h.stack
  · simp [dismiss, dismiss?, presenting, hm]
  · simp [dismiss, dismiss?, presenting, hm]
  · simp [dismiss, dismiss?, presenting, hm]
  · by_cases huv : u = vc
    · subst huv
      by_cases hl : (w.auths a).emailLogged = 1
      · simp [dismiss, dismiss?, presenting, hm, dismissFrom, appear, hs, hl]
      · simp [dismiss, dismiss?, presenting, hm, dismissFrom, appear, hl]
    · simp [dismiss, dismiss?, presenting, hm, huv, Ne.symm huv]
  · have hl : (w.auths a).emailLogged = 1 :=
      h.emailLogged s a (by rw [hm]; exact List.suffix_cons _ _)
    by_cases huv : u = vc
    · subst huv
      simp [dismiss, dismiss?, presenting, hm, dismissFrom, appear, hs, hl]
    · simp [dismiss, dismiss?, presenting, hm, huv, Ne.symm huv]

namespace Mirror

/-- The second sign-in of a registration leaves the upload screen over the
login screens, whether it succeeds or not. -/
theorem of_second {email password : String} {done : LoginDone} {success : Bool} {sh : Shown}
    {flow : Flow} {o : Outcome} (hu : w.currentEmail = some email)
    (hph : Phase w (.signIn email password done))
    (h13 : ∀ vc, .signin vc ∈ w.modals → w.available13 = true)
    (hall : ∀ q ∈ w.pending, Quiet w q.request) (hsc : done.Screens w success sh)
    (hs : Sound (done.after flow success o sh w))
    (hrows : OwnRows (done.after flow success o sh w)) :
    Mirror (done.after flow success o sh w) := by
  have hne : w.currentUser ≠ none := by
    intro hn
    rw [currentEmail, hn] at hu
    contradiction
  have hq : ∀ q ∈ w.pending, Quiet (done.after flow success o sh w) q.request :=
    fun q hq => (hall q hq).mono (fun _ => id) (.inr rfl)
  cases done with
  | social vc password => exact absurd hph.1 hne
  | email vc => exact absurd hph.1 hne
  | silent => exact hph.elim
  | socialAgain vc password =>
      obtain ⟨_, hm, _⟩ := hph
      cases hsc with
      | hides h _ _ _ _ => exact absurd ⟨_, [], rfl, hm⟩ h
      | shows _ hm' _ _ _ =>
          refine of_next hs flow none rfl hq (by simp) hrows
            (fun _ _ v rest htop => ?_) fun v hv => ?_
          · cases hm'.symm.trans htop
          · rw [LoginDone.after, hm', hm] at hv
            simp at hv
  | emailAgain vc =>
      obtain ⟨_, a, hm⟩ := hph
      cases hsc with
      | hides h hm' _ _ _ =>
          have hsame : sh.modals = w.modals := hm'
          refine of_next hs flow none rfl hq (by simp) hrows (fun _ _ v rest htop => ?_)
            (by rw [LoginDone.after, hsame]; exact h13)
          -- on its own `SigninVC` the completion shows the upload screen
          have htop' : w.modals = .signin v :: rest := hsame.symm.trans htop
          have hv : v = vc := by
            rw [htop'] at hm
            simp [List.suffix_cons_iff] at hm
            exact hm.1
          subst hv
          exact h ⟨_, rest, if_pos (h13 v (by rw [htop']; exact List.mem_cons_self)), htop'⟩
      | shows _ hm' _ _ _ =>
          refine of_next hs flow none rfl hq (by simp) hrows
            (fun _ _ v rest htop => ?_) fun v hv => ?_
          · cases hm'.symm.trans htop
          · rw [LoginDone.after, hm'] at hv
            exact h13 v ((List.mem_cons.mp hv).resolve_left (by simp))

/-- The first sign-in succeeds: its e-mail is the one row, and the login
screens are gone. -/
theorem of_first {email password : String} {done : LoginDone} {sh : Shown} {flow : Flow}
    {o : Outcome} {a : Account} (hw : Sound w) (hn : w.currentUser = none)
    (hph : Phase w (.signIn email password done))
    (hall : ∀ q ∈ w.pending, Quiet w q.request) (hin : a ∈ w.accounts) (he : a.email = email)
    (hf : ∀ vc, done = .email vc → (w.signins vc).emailField = email)
    (hsc : done.Screens (w.signedIn flow a) true sh)
    (hs : Sound (done.after flow true o sh (w.signedIn flow a)))
    (hrows : OwnRows (done.after flow true o sh (w.signedIn flow a))) :
    Mirror (done.after flow true o sh (w.signedIn flow a)) := by
  have hnone : w.currentEmail = none := by rw [currentEmail, hn]; rfl
  have hq : ∀ q ∈ w.pending, Quiet (done.after flow true o sh (w.signedIn flow a)) q.request :=
    fun q hq => (hall q hq).mono (fun _ => id) (.inl hnone)
  have hfree : ¬w.accounts.Free email := he ▸ not_free_of_mem hin
  cases done with
  | social vc password =>
      obtain ⟨_, hm, hem⟩ := hph
      have hgone : sh.modals = [] := (hsc.hidden rfl).1.trans
        (dismissed_social (w := w.signedIn flow a) hm password)
      refine of_next hs flow (some _) rfl hq ?_ hrows (fun _ _ v rest htop => ?_) ?_
      · intro q hq
        cases hq
        exact .inl (by rw [← hem] at hfree; exact hfree)
      · cases hgone.symm.trans htop
      · intro v hv
        rw [LoginDone.after, hgone] at hv
        exact absurd hv List.not_mem_nil
  | email vc =>
      obtain ⟨_, b, hm⟩ := hph
      have hleft : sh.modals = [] ∨ sh.modals = [.auth b] := by
        rw [(hsc.hidden rfl).1]
        obtain hm | hm := hm
        · exact .inl (dismissed_email (w := w.signedIn flow a) hm (Option.some_ne_none _)
            (hw.emailLogged vc b (by rw [hm])))
        · exact .inr (dismissed_closed (w := w.signedIn flow a) hm vc)
      have hnot : ∀ v, .signin v ∉ sh.modals := by
        intro v hv
        obtain hl | hl := hleft <;> simp [hl] at hv
      refine of_next hs flow (some _) rfl hq ?_ hrows (fun _ _ v rest htop => ?_) ?_
      · intro q hq
        cases hq
        exact .inl (by rw [← hf vc rfl] at hfree; exact hfree)
      · have htop' : sh.modals = .signin v :: rest := htop
        exact hnot v (htop' ▸ List.mem_cons_self)
      · exact fun v hv => absurd hv (hnot v)
  | socialAgain vc password =>
      rw [hph.1] at hnone
      contradiction
  | emailAgain vc =>
      rw [hph.1] at hnone
      contradiction
  | silent => exact hph.elim

/-- The first sign-in fails: the registration is on its way. -/
theorem of_refused {email password : String} {done : LoginDone} {sh : Shown} {flow : Flow}
    {o : Outcome} (hn : w.currentUser = none) (hph : Phase w (.signIn email password done))
    (h13 : ∀ vc, .signin vc ∈ w.modals → w.available13 = true)
    (hall : ∀ q ∈ w.pending, Quiet w q.request) (hsc : done.Screens w false sh)
    (hs : Sound (done.after flow false o sh w)) (hrows : OwnRows (done.after flow false o sh w)) :
    Mirror (done.after flow false o sh w) := by
  have hnone : w.currentEmail = none := by rw [currentEmail, hn]; rfl
  have hq : ∀ q ∈ w.pending, Quiet (done.after flow false o sh w) q.request :=
    fun q hq => (hall q hq).mono (fun _ => id) (.inl hnone)
  cases done with
  | social vc password =>
      obtain ⟨_, hm, hf⟩ := hph
      have hsame : sh.modals = w.modals := (hsc.hidden rfl).1
      refine of_next hs flow (some _) rfl hq ?_ hrows
        (fun _ hne => absurd hn hne) (by rw [LoginDone.after, hsame]; exact h13)
      intro q hq
      cases hq
      exact .inr ⟨hn, hsame.trans hm, rfl⟩
  | email vc =>
      obtain ⟨_, a, hm⟩ := hph
      have hsame : sh.modals = w.modals := (hsc.hidden rfl).1
      refine of_next hs flow (some _) rfl hq ?_ hrows
        (fun _ hne => absurd hn hne) (by rw [LoginDone.after, hsame]; exact h13)
      intro q hq
      cases hq
      exact .inr ⟨hn, a, hm.imp hsame.trans hsame.trans⟩
  | socialAgain vc password =>
      rw [hph.1] at hnone
      contradiction
  | emailAgain vc =>
      rw [hph.1] at hnone
      contradiction
  | silent => exact hph.elim

/-- The registration succeeds: its second sign-in is on its way. -/
theorem of_created {email password : String} {name : Option String} {done : RegisterDone}
    {flow : Flow} (hph : Phase w (.createUser email password name done))
    (hf : ∀ vc, done = .email vc → (w.signins vc).emailField = email)
    (hnil : w.store.fetchable = []) (h13 : ∀ vc, .signin vc ∈ w.modals → w.available13 = true)
    (hu : w'.currentEmail = some email) (hw : w'.modals = w.modals ∧ w'.store = w.store ∧
      w'.auths = w.auths ∧ w'.signins = w.signins ∧ w'.available13 = w.available13)
    (hall : ∀ q ∈ w'.pending, Quiet w' q.request)
    (hs : Sound (done.after flow true w')) : Mirror (done.after flow true w') := by
  obtain ⟨hwm, hst, hau, hsi, h13'⟩ := hw
  have hrows : OwnRows (done.after flow true w') := OwnRows.of_nil (by rw [← hnil, ← hst]; rfl)
  have hq : ∀ q ∈ w'.pending, Quiet (done.after flow true w') q.request :=
    fun q hq => (hall q hq).mono (fun _ => id) (.inr rfl)
  cases done with
  | social vc password =>
      obtain ⟨_, hm, hem⟩ := hph
      refine of_next hs flow (some _) rfl hq ?_ hrows ?_
        (by rw [RegisterDone.after, hwm, h13']; exact h13)
      · intro q hq
        cases hq
        exact .inr ⟨by rw [hau, hem]; exact hu, hwm.trans hm, rfl, by rw [← hnil, ← hst]; rfl⟩
      · exact fun hall => (hall _ rfl).elim
  | email vc =>
      obtain ⟨_, a, hm⟩ := hph
      have hsuffix : w'.modals <:+ [.signin vc, .auth a] := by
        rw [hwm]
        obtain hm | hm := hm
        · rw [hm]
        · rw [hm]
          exact List.suffix_cons _ _
      refine of_next hs flow (some _) rfl hq ?_ hrows ?_
        (by rw [RegisterDone.after, hwm, h13']; exact h13)
      · intro q hq
        cases hq
        exact .inr ⟨by rw [hsi, hf vc rfl]; exact hu, a, hsuffix⟩
      · exact fun hall => (hall _ rfl).elim

/-- **A login goes on**: the answer to the one request that belongs to it. -/
theorem complete_phase (h : Mirror w) {i : Nat}
    (hall : ∀ q ∈ w.pending.eraseIdx i, Quiet w q.request) (hs : Sound w') (hrows : OwnRows w')
    {flow : Flow} {o : Outcome} {r : Request} (hph : Phase w r) (hf : r.FindsEmail w o)
    (hd : Completes (w.taken i) flow o r w') : Mirror w' := by
  have ht : Sound (w.taken i) := ⟨h.stack, h.emailLogged, h.account, h.button, h.token⟩
  have hacc : ∀ a ∈ w.accounts, a ∈ w'.accounts := (Later.complete hd).accounts
  have hquiet : w.currentUser = none ∨ w'.currentEmail = w.currentEmail →
      ∀ q ∈ w.pending.eraseIdx i, Quiet w' q.request := by
    intro hu q hq
    refine (hall q hq).mono hacc (hu.imp_left fun hn => ?_)
    rw [currentEmail, hn]
    rfl
  cases hd with
  | graphFailed =>
      obtain ⟨hn, hm⟩ := hph
      exact of_next hs flow none (List.append_nil _).symm (hquiet (.inl hn))
        (by simp) hrows (fun _ hne => absurd hn hne) h.signin
  | graphTrap =>
      obtain ⟨hn, hm⟩ := hph
      exact of_next hs flow none (List.append_nil _).symm (hquiet (.inl hn))
        (by simp) hrows (fun _ hne => absurd hn hne) h.signin
  | @graphConfirmed vc e n hp =>
      obtain ⟨hn, hm⟩ := hph
      refine of_next hs flow (some _) rfl (hquiet (.inl hn)) ?_ hrows
        (fun _ hne => absurd hn hne) h.signin
      intro q hq
      cases hq
      exact .inr ⟨hn, hm, rfl⟩
  | @accepted email password done a sh ha hsc =>
      obtain ⟨hin, hae, _⟩ := signInReply_some ha
      by_cases hn : w.currentUser = none
      · refine of_first (w := w.taken i) ht hn hph hall hin hae ?_ hsc hs hrows
        rintro vc rfl
        exact hf (Option.ne_none_iff_exists'.mpr ⟨a, ha⟩)
      · have hcur : w.currentEmail = some email := Phase.currentEmail hph hn
        have hsame : some a.user = w.currentUser :=
          (h.toSound.currentUser_eq hin (hcur.trans (congrArg some hae.symm))).symm
        have he : ((w.taken i).signedIn flow a).currentEmail = w.currentEmail :=
          congrArg (Option.bind · User.email) hsame
        exact of_second (he.trans hcur)
          (Phase.congr hph hsame rfl rfl fun _ => rfl) h.signin
          (fun q hq => (hall q hq).mono (fun _ => id) (.inr he)) hsc hs hrows
  | @refused email password done sh ha hsc =>
      by_cases hn : w.currentUser = none
      · exact of_refused hn hph h.signin hall hsc hs hrows
      · exact of_second (Phase.currentEmail hph hn) hph h.signin hall hsc hs hrows
  | @created email password name done a db ha ho =>
      obtain ⟨hfree, rfl, _⟩ := createUserReply_some ha
      rw [userCreated_eq] at hs hquiet ⊢
      refine of_created (w := w.taken i) hph ?_ (h.fetchable_eq_nil (Phase.registering hph))
        h.signin rfl ⟨rfl, rfl, rfl, rfl, rfl⟩ (hquiet (.inl (Phase.registering hph))) hs
      rintro vc rfl
      exact hf ho hfree
  | @createdUnheard email password name done a db ha ho =>
      have hn : w.currentUser = none := Phase.registering hph
      exact of_next hs flow none (List.append_nil _).symm (hquiet (.inl hn))
        (by simp) hrows (fun _ hne => absurd hn hne) h.signin
  | @notCreated email password name done ha =>
      have hn : w.currentUser = none := Phase.registering hph
      exact of_next hs flow none (List.append_nil _).symm (hquiet (.inl hn))
        (by simp) hrows (fun _ hne => absurd hn hne) h.signin
  | uploaded he hu => exact hph.elim
  | uploadTrap he => exact hph.elim

/-- **Something else is answered**: the answer to a request that belongs to no
login leaves session, rows and login screens alone. -/
theorem complete_quiet (h : Mirror w) (hs : Sound w') {flow : Flow} {o : Outcome} {r : Request}
    (hq : Quiet w r) (hd : Completes w flow o r w') : Mirror w' := by
  cases hd with
  | graphFailed => exact h
  | graphTrap => exact hq.elim
  | graphConfirmed hp => exact hq.elim
  | @accepted email password done a sh ha hsc =>
      obtain ⟨hin, hae, _⟩ := signInReply_some ha
      cases done with
      | silent =>
          have he : w.currentEmail = some a.email := by
            rw [hae]
            refine hq.resolve_left fun hdead => ?_
            unfold signInReply at ha
            split at ha
            · rw [hdead.signIn_eq_none] at ha
              contradiction
            · contradiction
          have hm : sh.modals = w.modals := (hsc.hidden rfl).1
          exact h.frame hs (h.toSound.currentUser_eq hin he).symm rfl rfl hm (fun _ => rfl)
            (List.append_nil _) rfl
      | _ => exact hq.elim
  | @refused email password done sh ha hsc =>
      cases done with
      | silent =>
          exact h.frame hs rfl rfl rfl (hsc.hidden rfl).1 (fun _ => rfl)
            (List.append_nil _) rfl
      | _ => exact hq.elim
  | created ha ho => exact absurd (createUserReply_some ha).1 hq
  | createdUnheard ha ho => exact absurd (createUserReply_some ha).1 hq
  | notCreated ha => exact h
  | @uploaded vc em name plNumber color eff users he hu =>
      obtain ⟨_, hh⟩ | ⟨u, hsome, _, hh⟩ := uploadCarInfo_writes he
      · rw [hh] at hs ⊢
        exact h.frame hs rfl rfl rfl rfl (fun _ => rfl) rfl rfl
      · rw [hh] at hs ⊢
        have hne : w.currentUser ≠ none := by simp [hsome]
        obtain hm | ⟨hm, v, rest, hup⟩ := uploaded_modals (w := { w with users := users })
          ⟨h.stack, h.emailLogged, h.account, h.button, h.token⟩ hne vc
        · exact h.frame hs rfl rfl rfl hm (fun _ => rfl) rfl rfl
        · replace hup : w.modals = .upload v :: rest := hup
          have hall := h.quiet_of_upload hup
          refine of_next hs flow none (List.append_nil _).symm
            (fun q hq => (hall q hq).mono (fun _ => id) (.inr rfl)) (by simp)
            h.rows (fun _ _ s rest htop => ?_) ?_
          · cases hm.symm.trans htop
          · intro s hin
            have hin' : Modal.signin s ∈ ([] : List Modal) := hm ▸ hin
            exact absurd hin' List.not_mem_nil
  | uploadTrap he => exact h.frame hs rfl rfl rfl rfl (fun _ => rfl) rfl rfl

/-! ## steps -/

/-- The user begins something, or ends the session, with no sign-in on its
way. -/
theorem of_settled (hset : Settled w) (hs : Sound w') (hacc : w'.accounts = w.accounts)
    (hn : w'.currentUser = none) (hnil : w'.store.fetchable = []) (flow : Flow)
    (r : Option Request) (hp : w'.pending = w.pending ++ pendingOf flow r)
    (hr : ∀ q, r = some q → Phase w' q)
    (h13 : ∀ vc, .signin vc ∈ w'.modals → w'.available13 = true) : Mirror w' := by
  refine of_next hs flow r hp (fun q hq => ?_) (fun q hq => .inr (hr q hq))
    (OwnRows.of_nil hnil) (fun _ hne => absurd hn hne) h13
  have hi : Inert w'.accounts q.request := hacc ▸ hset q hq
  exact hi.quiet

/-- The silent sign-in goes to the session's e-mail, or to one no account can
have. -/
theorem quiet_silent (h : Mirror w) {fetched : Fetch} (hf : fetched.Of w.store)
    (password : String) :
    Quiet w (.signIn ((Dataservice.fetchUserInfo fetched).getLast?.getD "") password .silent) :=
  (silentEmail_or hf).imp .inl (h.rows _)

/-- A new process finds nothing in flight, and the rows that were saved. -/
theorem of_relaunch (hs : Sound w') (h : Step w .relaunch w')
    (hrows : OwnRows w') : Mirror w' := by
  cases h with
  | relaunched hu =>
      exact of_next hs ⟨0, .silent⟩ none (List.append_nil []).symm
        (fun _ hq => absurd hq List.not_mem_nil) (by simp) hrows
        (fun _ _ _ _ htop => by cases htop) fun _ hv => absurd hv List.not_mem_nil
  | relaunchedToAuth hu =>
      refine of_next hs ⟨0, .silent⟩ none (List.append_nil []).symm
        (fun _ hq => absurd hq List.not_mem_nil) (by simp) hrows
        (fun _ hne => absurd hu hne) fun _ hv => ?_
      simp [killed, World.presentAuth] at hv
  | signOutThrew hl => cases hl
  | loggedOut hl _ => cases hl
  | loggedOutToAuth hl _ _ => cases hl

/-- The answer to a sign-in: the first one of a login finds no rows, the second
one and the silent one find the session of their own account. -/
theorem tidy_signIn (h : Mirror w) {email password : String} {done : LoginDone}
    (hr : Quiet w (.signIn email password done) ∨ Phase w (.signIn email password done))
    {o : Outcome} (hf : Request.FindsEmail w o (.signIn email password done)) :
    done.Tidy w o (w.signInReply o email password) := by
  have hemail : ∀ {a}, w.signInReply o email password = some a → a.user.email = some email :=
    fun ha => congrArg some (signInReply_some ha).2.1
  have hsame : ∀ {a}, w.signInReply o email password = some a → w.currentEmail = some email →
      some a.user = w.currentUser := by
    intro a ha hcur
    obtain ⟨hin, he, _⟩ := signInReply_some ha
    exact (h.toSound.currentUser_eq hin (by rw [hcur, he])).symm
  cases hreply : w.signInReply o email password with
  | none =>
      refine ⟨.inl rfl, fun em hem => ?_⟩
      cases done with
      | socialAgain vc password =>
          obtain ⟨hcur, _, he, _⟩ := hr.resolve_left id
          cases hem
          rw [he]
          exact hcur
      | _ => cases hem
  | some a =>
      cases done with
      | social vc password =>
          obtain ⟨hn, _, he⟩ := hr.resolve_left id
          refine ⟨.inr (.inl (h.fetchable_eq_nil hn)), fun em hem => ?_⟩
          cases hem
          rw [he]
          exact hemail hreply
      | email vc =>
          have hn : w.currentUser = none := (hr.resolve_left id).1
          have he : (w.signins vc).emailField = email :=
            hf (Option.ne_none_iff_exists'.mpr ⟨a, hreply⟩)
          refine ⟨.inr (.inl (h.fetchable_eq_nil hn)), fun em hem => ?_⟩
          cases hem
          rw [he]
          exact hemail hreply
      | socialAgain vc password =>
          obtain ⟨hcur, _, he, _⟩ := hr.resolve_left id
          refine ⟨.inl (hsame hreply hcur), fun em hem => ?_⟩
          cases hem
          rw [he]
          exact hemail hreply
      | emailAgain vc =>
          have hph := hr.resolve_left id
          exact ⟨.inl (hsame hreply hph.1), by simp [LoginDone.stores]⟩
      | silent =>
          refine ⟨.inl ?_, by simp [LoginDone.stores]⟩
          obtain hdead | hcur := hr.resolve_right id
          · unfold signInReply at hreply
            rw [hdead.signIn_eq_none, ite_self] at hreply
            contradiction
          · exact hsame hreply hcur

/-- **Orderly steps are tidy.** -/
theorem tidy (h : Mirror w) {ev : Event} (hord : Orderly w ev) : Tidy w ev := by
  refine ⟨fun a ha => ?_, hord.2.1, fun hev r hr hdel => absurd ⟨r, hr, hdel⟩ (hord.2.2 hev)⟩
  obtain ⟨o, flow, r⟩ := a
  obtain ⟨i, rfl, hp⟩ := deliver_of_answering ha
  have hf : r.FindsEmail w o := hord.1 _ hp
  have hph := h.phase _ (List.mem_of_getElem? hp)
  cases r with
  | signIn email password done => exact h.tidy_signIn hph hf
  | createUser email password name done =>
      intro _ hfree
      exact h.fetchable_eq_nil (Phase.registering (hph.resolve_left fun hq => hq hfree))
  | graph vc => trivial
  | carInfo vc em name plNumber color => trivial

/-- A logout is orderly when its deletion takes effect. -/
theorem orderly_logOut {ev : Event} {signsOut fetches : Bool} {token : Option AccessToken}
    (hl : LogOut w ev signsOut fetches token) (h : Orderly w ev) :
    Settled w ∧ (fetches = true ∨ w.store.fetchable = []) :=
  ⟨by cases hl <;> exact h.1, h.2.1 _ hl.deletion⟩

/-- **Steps** of an orderly run. -/
theorem step (h : Mirror w) {ev : Event} (hstep : w.step ev = some w') (hord : Orderly w ev) :
    Mirror w' := by
  have hs' : Sound w' := h.toSound.step hstep
  have hrows : OwnRows w' := h.rows.step hstep (h.tidy hord)
  obtain ⟨hc, hs⟩ := step_cases hstep
  cases hs with
  | @fbLogin vc rest granted hm =>
      obtain ⟨hset, hn⟩ := hord.1
      refine of_settled hset hs' rfl hn (h.fetchable_eq_nil hn) _ (some (.graph vc)) rfl ?_
        h.signin
      intro q hq
      cases hq
      exact ⟨hn, h.stack.auth_top hm⟩
  | googleDeclined hm =>
      exact h.frame hs' rfl rfl rfl rfl (fun _ => (auths_logged w _ _ _).1) rfl rfl
  | googleTrap hm =>
      exact h.frame hs' rfl rfl rfl rfl (fun _ => (auths_logged w _ _ _).1) rfl rfl
  | @googleConfirmed vc rest e n hm =>
      obtain ⟨hset, hn⟩ := hord.1
      refine of_settled hset hs' rfl hn (h.fetchable_eq_nil hn) _ (some _) rfl ?_ h.signin
      intro q hq
      cases hq
      exact ⟨hn, h.stack.auth_top hm, rfl⟩
  | @signinShown vc rest hm hu h13 =>
      exact of_settled hord.1 hs' rfl hu (h.fetchable_eq_nil hu) (w.newFlow .email)
        none (List.append_nil _).symm (by simp) fun _ _ => h13
  | @signinSkipped vc rest modals hm hu hs =>
      -- with a session the `SigninVC` goes away again, and perhaps the `AuthVC`
      rw [h.stack.auth_top hm] at hs
      have hnot : ∀ v, .signin v ∉ modals := fun v hv => by
        have hin := hs.subset hv
        simp at hin
      refine of_next hs' (w.newFlow .email) none (List.append_nil _).symm
        (fun q hq => Inert.quiet (hord.1 q hq)) (by simp) h.rows (fun _ _ v rest' htop => ?_)
        fun v hv => absurd hv (hnot v)
      have htop' : modals = .signin v :: rest' := htop
      exact hnot v (htop' ▸ List.mem_cons_self)
  | signinMissing hm =>
      exact h.frame hs' rfl rfl rfl rfl (fun _ => (auths_logged w _ _ _).1) rfl rfl
  | @signInPressed vc rest hm =>
      have hn := h.currentUser_eq_none hord.1 hm
      obtain ⟨a, ha⟩ := h.stack.signin_top hm
      refine of_settled hord.1 hs' rfl hn (h.fetchable_eq_nil hn) _ (some _) rfl ?_ h.signin
      intro q hq
      cases hq
      exact ⟨hn, a, .inl ha⟩
  | @closed vc rest hm hu =>
      obtain ⟨a, ha⟩ := h.stack.signin_top hm
      cases hm.symm.trans ha
      refine h.frame_modals hs' rfl rfl rfl rfl (fun r hph => hph.closed hm rfl (.inl rfl))
        (fun v rest' htop => by cases htop) fun v hv => ?_
      exact h.signin v (by rw [hm]; exact List.mem_cons_of_mem _ hv)
  | @closedSignedIn vc rest modals hm hu hs =>
      obtain ⟨a, ha⟩ := h.stack.signin_top hm
      refine h.frame_modals hs' rfl rfl rfl rfl (fun r hph => hph.closed hm rfl (.inr ⟨hu, hs⟩))
        (fun v rest' htop => ?_) fun v hv => h.signin v (hs.subset hv)
      have htop' : modals = .signin v :: rest' := htop
      rw [htop', ha] at hs
      obtain ⟨rfl, rfl⟩ : v = vc ∧ rest' = [.auth a] := by
        simpa [List.suffix_cons_iff] using hs
      exact ha
  | loggedOut hl h13 =>
      obtain ⟨hset, hf⟩ := orderly_logOut hl hord
      exact of_settled hset hs' rfl rfl (fetchable_loggedOut hf) (w.newFlow .email)
        none (List.append_nil _).symm (by simp) h.signin
  | loggedOutToAuth hl hm h13 =>
      obtain ⟨hset, hf⟩ := orderly_logOut hl hord
      exact of_settled hset hs' rfl rfl (fetchable_loggedOut hf) (w.newFlow .email)
        none (List.append_nil _).symm (by simp) fun _ _ => h13
  | findSilent hm hf ht =>
      exact (h.push (w.newFlow .silent) (h.quiet_silent hf "FBUser")).frame hs' rfl rfl rfl rfl
        (fun _ => rfl) rfl rfl
  | findQuiet hm ht => exact h
  | @donePressed vc rest em hm he =>
      exact (h.push (w.newFlow .upload) (r := .carInfo vc em _ _ _) trivial).frame hs' rfl rfl rfl
        rfl (fun _ => rfl) rfl rfl
  | @deliver i o p hp hu =>
      obtain ⟨flow, r⟩ := p
      have hd := complete_cases (w.taken i) flow o r
      by_cases hq : Quiet w r
      · exact (h.taken hp hq).complete_quiet hs' hq hd
      · have hph := (h.phase _ (List.mem_of_getElem? hp)).resolve_left hq
        have hall := (pairwise_taken Or.symm hp h.single).1
        exact h.complete_phase (fun q hin => (hall q hin).resolve_left hq) hs' hrows hph
          (hord.1 _ hp) hd
  | @snapshot i ob ho =>
      obtain ⟨b, u, c, he, _⟩ := observer_deliver_eq ob w
      rw [he] at hs' ⊢
      exact h.frame hs' rfl rfl rfl rfl (fun _ => rfl) rfl rfl
  | relaunched hu =>
      exact of_relaunch hs' (.relaunched hu) hrows
  | relaunchedToAuth hu =>
      exact of_relaunch hs' (.relaunchedToAuth hu) hrows
  | _ => exact h.frame hs' rfl rfl rfl rfl (fun _ => rfl) rfl rfl

end Mirror

theorem mirror_fresh (cloud : Cloud) (available13 : Bool) :
    Mirror (World.fresh cloud available13) :=
  Mirror.of_next (sound_fresh cloud available13) ⟨0, .silent⟩ none (List.append_nil []).symm
    (fun _ hq => absurd hq List.not_mem_nil) (by simp)
    (OwnRows.of_nil rfl) (fun _ hne => absurd rfl hne)
    (by simp [World.fresh, AppDelegate.didFinishLaunching, World.presentAuth])

end StreetParker
