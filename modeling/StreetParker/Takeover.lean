import StreetParker.Chains

/-!
# StreetParker.Takeover

Who gets into an account.

* `submitted_of_run` — whoever is signed in as an account has sent the e-mail
  and the password of that account from the same installation;
* `Request.Keyed` — the requests of a Facebook or Google chain all carry the
  one password of their provider;
* `takeover_of_run` — so an account that such a chain has created can be
  entered, at any later time and from any installation that shows `SigninVC`,
  by typing its e-mail and that password.
-/

namespace StreetParker

open World

/-! ## credentials -/

/-- The e-mail and the password a request presents. -/
def Request.credentials : Request → Option (String × String)
  | .signIn email password _ | .createUser email password _ _ => some (email, password)
  | .graph _ | .carInfo _ _ _ _ _ => none

/-- The credentials of the account are on record as sent. -/
def Submitted (a : Account) (log : List Entry) : Prop :=
  ∃ p ∈ sents log, p.request.credentials = some (a.email, a.password)

theorem Submitted.later {a : Account} {log log' : List Entry} (h : Submitted a log)
    (hl : log <:+ log') : Submitted a log' := by
  obtain ⟨p, hp, hc⟩ := h
  obtain ⟨new, rfl⟩ := hl
  exact ⟨p, by rw [sents_append]; exact List.mem_append_left _ hp, hc⟩

/-- What a step does to the session: nothing, or it ends, or the credentials of
a request in flight open a new one. -/
theorem session_of_step {w w' : World} {ev : Event} (h : w.step ev = some w') :
    w'.currentUser = w.currentUser ∨ w'.currentUser = none ∨
      ∃ p ∈ w.pending, ∃ a ∈ w'.accounts, w'.currentUser = some a.user ∧
        p.request.credentials = some (a.email, a.password) := by
  cases (step_cases h).2 with
  | loggedOut hl hm => exact .inr (.inl rfl)
  | loggedOutToAuth hl hm h13 => exact .inr (.inl rfl)
  | @deliver i o p hp hu =>
      obtain ⟨flow, r⟩ := p
      have hin := List.mem_of_getElem? hp
      have hc := complete_cases (w.taken i) flow o r
      dsimp only
      generalize World.complete _ flow o r = w' at hc
      cases hc with
      | @accepted email password done a sh ha hs =>
          obtain ⟨hmem, rfl, rfl⟩ := signInReply_some ha
          exact .inr (.inr ⟨_, hin, a, hmem, rfl, rfl⟩)
      | @created email password name done a db ha ho =>
          obtain ⟨_, rfl, hl⟩ := createUserReply_some ha
          rw [userCreated_eq]
          exact .inr (.inr ⟨_, hin, _, Accounts.mem_def.mpr (hl ▸ List.mem_cons_self), rfl, rfl⟩)
      | _ => exact .inl rfl
  | @snapshot i ob ho =>
      obtain ⟨b, u, c, he, _⟩ := observer_deliver_eq ob w
      exact .inl (by rw [he])
  | _ => exact .inl rfl

/-- Whoever is signed in has sent the credentials. -/
def Vouched (w : World) : Prop :=
  ∀ u, w.currentUser = some u → ∃ a ∈ w.accounts, a.user = u ∧ Submitted a w.log

theorem Vouched.step {w w' : World} {ev : Event} (h : Vouched w) (hc : Chained w)
    (hstep : w.step ev = some w') : Vouched w' := by
  have hl := Later.step hstep
  intro u hu
  obtain hs | hs | ⟨p, hp, a, ha, hs, hcred⟩ := session_of_step hstep
  · obtain ⟨a, ha, hau, hsub⟩ := h u (hs ▸ hu)
    exact ⟨a, hl.accounts a ha, hau, hsub.later hl.log⟩
  · rw [hs] at hu
    contradiction
  · have hmem := exists_of_mem_requestsOf (List.mem_of_getLast? (hc.last p hp))
    have hsub : Submitted a w.log := ⟨_, hmem, hcred⟩
    exact ⟨a, ha, Option.some.inj (hs.symm.trans hu), hsub.later hl.log⟩

theorem Vouched.grow {c c' : Cloud} {p : Phone} (h : Vouched ⟨c, p⟩)
    (hacc : ∀ a ∈ c.accounts, a ∈ c'.accounts) : Vouched ⟨c', p⟩ := by
  intro u hu
  obtain ⟨a, ha, hrest⟩ := h u hu
  exact ⟨a, hacc a ha, hrest⟩

/-! ## provider passwords -/

/-- The identity provider a chain starts at. -/
def Origin.provider : Origin → Option Provider
  | .facebook => some .facebook
  | .google => some .google
  | .email | .silent | .upload => none

/-- The requests of a chain that started at `provider`. -/
inductive Request.Keyed : Provider → Request → Prop
  | graph (vc : Nat) : Keyed .facebook (.graph vc)
  | signIn (provider : Provider) (vc : Nat) (e : String) :
      Keyed provider (.signIn e provider.password (.social vc provider.password))
  | createUser (provider : Provider) (vc : Nat) (e : String) (name : Option String) :
      Keyed provider (.createUser e provider.password name (.social vc provider.password))
  | signInAgain (provider : Provider) (vc : Nat) (e : String) :
      Keyed provider (.signIn e provider.password (.socialAgain vc provider.password))

theorem Origin.Starts.keyed {origin : Origin} {r : Request} (h : origin.Starts r)
    {provider : Provider} (hp : origin.provider = some provider) : r.Keyed provider := by
  cases h with
  | facebook vc =>
      cases hp
      exact .graph vc
  | google vc e =>
      cases hp
      exact .signIn .google vc e
  | _ => contradiction

theorem Request.Keyed.next {provider : Provider} {r q : Request} (h : r.Keyed provider)
    (hn : r.Next q) : q.Keyed provider := by
  cases h <;> cases hn <;> constructor

theorem Request.Keyed.password {provider : Provider} {r : Request} (h : r.Keyed provider)
    {e password : String} (hc : r.credentials = some (e, password)) :
    password = provider.password := by
  cases h with
  | graph vc => contradiction
  | signIn vc e' => exact (Prod.mk.inj (Option.some.inj hc)).2.symm
  | createUser vc e' name => exact (Prod.mk.inj (Option.some.inj hc)).2.symm
  | signInAgain vc e' => exact (Prod.mk.inj (Option.some.inj hc)).2.symm

/-- Whatever is in flight for a provider carries its password. -/
def Keys (pending : List Pending) : Prop :=
  ∀ p ∈ pending, ∀ provider, p.flow.origin.provider = some provider → p.request.Keyed provider

theorem Keys.step {w w' : World} {ev : Event} (h : Keys w.pending)
    (hstep : w.step ev = some w') : Keys w'.pending := by
  cases moves_of_step hstep with
  | quiet hev hp hl hf =>
      obtain hp | hp := hp
      · rwa [hp]
      · rw [hp]
        exact fun p hin => absurd hin List.not_mem_nil
  | starts origin r hev hna hk hp hl hf =>
      rw [hp]
      intro p hin provider hprov
      obtain hin | hin := List.mem_append.mp hin
      · exact h p hin provider hprov
      · obtain rfl := List.mem_singleton.mp hin
        exact hk.keyed hprov
  | answers i p r hi hk hp hl hf =>
      rw [hp]
      intro q hin provider hprov
      obtain hin | hin := List.mem_append.mp hin
      · exact h q (List.mem_of_mem_eraseIdx hin) provider hprov
      · obtain ⟨q', hq', rfl⟩ := mem_pendingOf.mp hin
        exact (h p (List.mem_of_getElem? hi) provider hprov).next (hk q' hq')

/-- A new account has the credentials of the request that asked for it. -/
theorem credentials_of_new {w w' : World} {i : Nat} {o : Outcome} {p : Pending}
    (hp : w.pending[i]? = some p) (hstep : w.step (.deliver i o) = some w') {a : Account}
    (ha : a ∈ w'.accounts) (hnew : a ∉ w.accounts) :
    p.request.credentials = some (a.email, a.password) := by
  obtain ⟨p', hp', _, rfl⟩ := deliver_of_step hstep
  obtain rfl := Option.some.inj (hp.symm.trans hp')
  obtain ⟨flow, r⟩ := p
  have hc := complete_cases (w.taken i) flow o r
  dsimp only at ha ⊢
  generalize World.complete _ flow o r = w' at hc ha
  have hreg : ∀ {email password : String} {name : Option String} {done : RegisterDone}
      {b : Account} {db : Accounts}, (w.taken i).createUserReply o email password = some (b, db) →
      a ∈ db → (Request.createUser email password name done).credentials =
        some (a.email, a.password) := by
    intro email password name done b db hb hdb
    obtain ⟨_, rfl, hl⟩ := createUserReply_some hb
    rw [Accounts.mem_def, hl] at hdb
    obtain rfl | hin := List.mem_cons.mp hdb
    · rfl
    · exact absurd hin hnew
  cases hc with
  | created hb ho =>
      rw [userCreated_eq] at ha
      exact hreg hb ha
  | createdUnheard hb ho => exact hreg hb ha
  | _ => exact absurd ha hnew

/-! ## signing in -/

/-- Typing the credentials of an account into `SigninVC`, pressing the button
and hearing the answer opens a session of the account. -/
theorem session_of_credentials {w : World} (hc : w.crashed = none) {vc : Nat} {rest : List Modal}
    (hm : w.modals = .signin vc :: rest) {a : Account} (ha : a ∈ w.accounts) :
    ∃ w', Runs.run World.step w [.editSignin a.email a.password, .signInPressed,
        .deliver w.pending.length (.ok "")] = some w' ∧ w'.currentUser = some a.user := by
  have hedit : w.step (.editSignin a.email a.password) =
      some { w with signins := Function.update w.signins vc ⟨a.email, a.password⟩ } := by
    rw [World.step, if_pos (.inl hc)]
    simp only [act, hm]
  generalize hw₁ : { w with signins := Function.update w.signins vc ⟨a.email, a.password⟩ } = w₁
    at hedit
  have hfields : w₁.signins vc = ⟨a.email, a.password⟩ := by simp [← hw₁]
  have hpress : w₁.step .signInPressed = some (SigninVC.signInButtonWasPressed vc w₁) := by
    subst hw₁
    rw [World.step, if_pos (.inl hc)]
    simp only [act, hm]
  generalize hw₂ : SigninVC.signInButtonWasPressed vc w₁ = w₂ at hpress
  have hlast : w₂.pending[w.pending.length]? =
      some ⟨w₁.newFlow .email, .signIn a.email a.password (.email vc)⟩ := by
    rw [← hw₂, SigninVC.signInButtonWasPressed, hfields, ← hw₁]
    simp [start, send]
  have hrun : w₂.crashed = none := by rw [← hw₂, ← hw₁]; exact hc
  have hdb : a ∈ w₂.accounts := by rw [← hw₂, ← hw₁]; exact ha
  have hanswer := step_deliver (o := .ok "") hrun hlast trivial
  generalize w.pending.length = n at hanswer ⊢
  refine ⟨_, by rw [Runs.run_cons_of_step hedit, Runs.run_cons_of_step hpress,
    Runs.run_cons_of_step hanswer]; rfl, ?_⟩
  have hreply : (w₂.taken n).signInReply (.ok "") a.email a.password = some a :=
    Accounts.signIn_of_mem hdb
  obtain ⟨sh, hrun, _⟩ := loginDone_eq (.email vc) (w₁.newFlow .email) true (.ok "")
    ((w₂.taken n).signedIn (w₁.newFlow .email) a)
  simp only [complete, hreply, hrun]
  rfl

/-! ## runs -/

section Systems

variable {ι : Type*} [DecidableEq ι]

/-- **Nobody gets in without the password.**  In every run of a system, whoever
is signed in on an installation as an account has sent the e-mail and the
password of that account from that installation. -/
theorem submitted_of_run (accounts : Accounts) (available13 : ι → Bool) (es : List (ι × Event))
    (t : System ι)
    (h : Runs.run System.step (System.fresh accounts available13) es = some t) (i : ι) (u : User)
    (hu : (t.phones i).currentUser = some u) :
    ∃ a ∈ t.cloud.accounts, a.user = u ∧ Submitted a (t.phones i).log := by
  have hinv : Chained (t.view i) ∧ Vouched (t.view i) := by
    refine Runs.inv_of_run' (System.view_kept (P := fun w => Chained w ∧ Vouched w) ?_ ?_ i) h
      ⟨chained_fresh ⟨accounts, ∅⟩ (available13 i), fun u hu => by contradiction⟩
    · exact fun w ev w' hw hstep => ⟨hw.1.step hstep, hw.2.step hw.1 hstep⟩
    · exact fun c c' p hacc hw => ⟨chained_grow c c' p hacc hw.1, hw.2.grow hacc⟩
  exact hinv.2 u hu

theorem submitted_registrations :
    ∃ t : System Bool,
      Runs.run System.step (System.fresh Accounts.empty fun _ => true) registrations = some t ∧
      ∃ a ∈ t.cloud.accounts, a.user = ⟨"u", some "a@x", "Firebase"⟩ ∧
        Submitted a (t.phones true).log := by
  obtain ⟨t, ht, hu⟩ := Option.map_eq_some_iff.mp (show (Runs.run System.step
    (System.fresh Accounts.empty fun _ : Bool => true) registrations).map
      (fun t => (t.phones true).currentUser) = some (some ⟨"u", some "a@x", "Firebase"⟩)
    by decide)
  exact ⟨t, ht, submitted_of_run Accounts.empty (fun _ => true) registrations t ht true _ hu⟩

/-- The steps of one installation are steps of the system. -/
theorem System.run_of_view {s : System ι} {i : ι} {es : List Event} {w : World}
    (h : Runs.run World.step (s.view i) es = some w) :
    ∃ t, Runs.run System.step s (es.map (Prod.mk i)) = some t ∧ t.view i = w := by
  induction es generalizing s with
  | nil =>
      cases h
      exact ⟨s, rfl, rfl⟩
  | cons ev es ih =>
      obtain ⟨w', hs, hr⟩ := Runs.run_cons h
      have hstep : s.step (i, ev) =
          some ⟨w'.toCloud, Function.update s.phones i w'.toPhone⟩ := by
        rw [System.step]
        exact Option.map_eq_some_iff.mpr ⟨w', hs, rfl⟩
      have hview : System.view ⟨w'.toCloud, Function.update s.phones i w'.toPhone⟩ i = w' := by
        simp [System.view]
      obtain ⟨t, ht, hw⟩ := ih (s := ⟨w'.toCloud, Function.update s.phones i w'.toPhone⟩)
        (by rwa [hview])
      exact ⟨t, by rw [List.map_cons, Runs.run_cons_of_step hstep]; exact ht, hw⟩

/-- **Takeover.**  Once a Facebook or Google chain has created an account, then
after any further run of the system any running installation that shows
`SigninVC` gets a session of the account, in three events of its own, from its
e-mail and the password all chains of the provider share. -/
theorem takeover_of_run (accounts : Accounts) (available13 : ι → Bool) (es : List (ι × Event))
    (s : System ι) (h : Runs.run System.step (System.fresh accounts available13) es = some s)
    (j : ι) (i : Nat) (o : Outcome) (p : Pending) (hp : (s.phones j).pending[i]? = some p)
    (provider : Provider) (hprov : p.flow.origin.provider = some provider) (s' : System ι)
    (hstep : s.step (j, .deliver i o) = some s') (a : Account) (ha : a ∈ s'.cloud.accounts)
    (hnew : a ∉ s.cloud.accounts) (es' : List (ι × Event)) (t : System ι)
    (ht : Runs.run System.step s' es' = some t) (k : ι) (hc : (t.phones k).crashed = none)
    (vc : Nat) (rest : List Modal) (hm : (t.phones k).modals = .signin vc :: rest) :
    ∃ t', Runs.run System.step t
        [(k, .editSignin a.email provider.password), (k, .signInPressed),
          (k, .deliver (t.phones k).pending.length (.ok ""))] = some t' ∧
      (t'.phones k).currentUser = some a.user := by
  have hkeys : Keys (s.phones j).pending :=
    Runs.inv_of_run' (System.view_kept (P := fun w => Keys w.pending) (fun _ _ _ hk => hk.step)
      (fun _ _ _ _ => id) j) h fun p hin => absurd hin List.not_mem_nil
  have hcred := credentials_of_new hp (System.view_of_step hstep) ha hnew
  have hpass : a.password = provider.password :=
    (hkeys p (List.mem_of_getElem? hp) provider hprov).password hcred
  have hat : a ∈ t.cloud.accounts := (Grows.run ht).accounts a ha
  obtain ⟨w', hw, hu⟩ := session_of_credentials (w := t.view k) hc hm hat
  obtain ⟨t', ht', hview⟩ := System.run_of_view hw
  refine ⟨t', ?_, ?_⟩
  · rw [hpass] at ht'
    exact ht'
  · rw [← hu, ← hview]
    rfl

/-- A Google sign-in of one installation creates an account; the other one
opens `SigninVC` and gets in. -/
theorem takeover_googleUser :
    ∃ t t' : System Bool,
      (t.phones false).currentUser = none ∧
      Runs.run System.step t
        [(false, .editSignin "a@x" "googleUser"), (false, .signInPressed),
          (false, .deliver 0 (.ok ""))] = some t' ∧
      (t'.phones false).currentUser = some ⟨"u", some "a@x", "Firebase"⟩ := by
  have hrun : ((Runs.run System.step (System.fresh Accounts.empty fun _ : Bool => true)
      [(true, .googleSignIn (some ⟨some "a@x", some "Ann"⟩)), (true, .deliver 0 (.ok ""))]).bind
      fun s => (s.step (true, .deliver 0 (.ok "u"))).bind fun s' =>
        (Runs.run System.step s' [(false, .signInWithEmail)]).map fun t =>
          decide ((s.phones true).pending[0]? = some ⟨⟨0, .google⟩, .createUser "a@x" "googleUser"
              (some "Ann") (.social 0 "googleUser")⟩ ∧
            s.cloud.accounts.toList = [] ∧
            s'.cloud.accounts.toList = [⟨"u", "a@x", "googleUser"⟩] ∧
            (t.phones false).crashed = none ∧ (t.phones false).modals = [.signin 1, .auth 0] ∧
            (t.phones false).pending = [] ∧ (t.phones false).currentUser = none)) =
      some true := by decide
  obtain ⟨s, hs, hrest⟩ := Option.bind_eq_some_iff.mp hrun
  obtain ⟨s', hs', hrest⟩ := Option.bind_eq_some_iff.mp hrest
  obtain ⟨t, ht, hfacts⟩ := Option.map_eq_some_iff.mp hrest
  obtain ⟨hp, hold, hnew, hc, hm, hpend, hu⟩ := of_decide_eq_true hfacts
  obtain ⟨t', ht', hu'⟩ := takeover_of_run Accounts.empty (fun _ => true) _ s hs true 0 (.ok "u")
    _ hp .google rfl s' hs' ⟨"u", "a@x", "googleUser"⟩
    (Accounts.mem_def.mpr (by rw [hnew]; exact List.mem_cons_self))
    (by rw [Accounts.mem_def, hold]; exact List.not_mem_nil) _ t ht false hc 1 _ hm
  rw [hpend] at ht'
  exact ⟨t, t', hu, ht', hu'⟩

end Systems

end StreetParker
