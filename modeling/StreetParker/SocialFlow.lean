import StreetParker.History

/-!
# StreetParker.SocialFlow

The chain that a Facebook or Google login on `AuthVC` starts, run alone: sign
in, register, sign in again, each issued by the completion before it.

* `Starts`, `Answered` — the runs of one chain whose calls are all answered;
* `Stage` — where the chain stands, and how many answers are left at most;
* `Ends` — what it leaves: the account of the e-mail is signed in if it has
  this provider's password or can be registered, and nothing has changed
  otherwise;
* `socialFlow_ends` — every such run ends, and it ends so.
-/

namespace StreetParker

open World

/-! ## runs of one chain -/

/-- The user's action that starts the chain; Google has confirmed `e` and `n`
by then. -/
inductive Starts (e n : String) : Provider → Event → Prop
  | facebook (granted : Bool) : Starts e n .facebook (.fbLogin granted)
  | google : Starts e n .google (.googleSignIn (some ⟨some e, some n⟩))

/-- A call is answered, the graph request with `e` and `n`. -/
def Request.Answered (e n : String) (o : Outcome) : Request → Prop
  | .graph _ => o.answer = .answered ∧ o.profile = some ⟨some e, some n⟩
  | _ => o.answer = .answered

theorem Request.Answered.heard {e n : String} {o : Outcome} {r : Request}
    (h : r.Answered e n o) : o.answer = .answered := by
  cases r with
  | graph vc => exact h.1
  | _ => exact h

/-- A step delivers such an answer. -/
def Answered (e n : String) (w : World) (ev : Event) : Prop :=
  ∃ a ∈ w.answering ev, a.2.request.Answered e n a.1

instance (e n : String) (o : Outcome) : (r : Request) → Decidable (r.Answered e n o)
  | .graph _ => inferInstanceAs (Decidable (_ ∧ _))
  | .signIn _ _ _ | .createUser _ _ _ _ | .carInfo _ _ _ _ _ =>
      inferInstanceAs (Decidable (_ = _))

instance (e n : String) (w : World) (ev : Event) : Decidable (Answered e n w ev) :=
  inferInstanceAs (Decidable (∃ a ∈ w.answering ev, a.2.request.Answered e n a.1))

/-- The flow of `provider` can sign `e` in: its account has the provider's
password, or it can be registered. -/
def Admits (accounts : Accounts) (provider : Provider) (e : String) : Prop :=
  accounts.Free e ∨ ∃ a ∈ accounts, a.email = e ∧ a.password = provider.password

/-- How a flow that began in `w` ends in `t`. -/
structure Ends (w : World) (provider : Provider) (e : String) (t : World) : Prop where
  /-- the one account of `e` is signed in and the others are as they were -/
  admitted : Admits w.accounts provider e →
    ∃ a, t.currentUser = some a.user ∧ (∀ b, b ∈ t.accounts ∧ b.email = e ↔ b = a) ∧
      ∀ b, b.email ≠ e → (b ∈ t.accounts ↔ b ∈ w.accounts)
  /-- or nothing has changed -/
  barred : ¬Admits w.accounts provider e →
    t.currentUser = w.currentUser ∧ t.accounts = w.accounts

variable {w t t' : World} {provider : Provider} {e n : String} {vc : Nat}

/-- The chain of `provider` on the controller `vc`, with at most so many
answers to come. -/
inductive Stage (w : World) (provider : Provider) (e : String) (vc : Nat) : Nat → World → Prop
  | confirming {s : World} (flow : Flow) (hc : s.crashed = none)
      (hp : s.pending = [⟨flow, .graph vc⟩]) (hprov : provider = .facebook)
      (hacc : s.accounts = w.accounts) (hu : s.currentUser = w.currentUser) :
      Stage w provider e vc 4 s
  | first {s : World} (flow : Flow) (hc : s.crashed = none)
      (hp : s.pending =
        [⟨flow, .signIn e provider.password (.social vc provider.password)⟩])
      (ha : (s.auths vc).email = e) (hacc : s.accounts = w.accounts)
      (hu : s.currentUser = w.currentUser) : Stage w provider e vc 3 s
  | registering {s : World} (flow : Flow) (name : Option String) (hc : s.crashed = none)
      (hp : s.pending =
        [⟨flow, .createUser e provider.password name (.social vc provider.password)⟩])
      (ha : (s.auths vc).email = e) (hacc : s.accounts = w.accounts)
      (hu : s.currentUser = w.currentUser)
      (hno : w.accounts.signIn e provider.password = none) : Stage w provider e vc 2 s
  | signedIn {s : World} {a : Account} (flow : Flow) (name : Option String) (hc : s.crashed = none)
      (hp : s.pending =
        [⟨flow, .createUser e provider.password name (.social vc provider.password)⟩])
      (hacc : s.accounts = w.accounts) (hin : a ∈ w.accounts) (he : a.email = e)
      (hpw : a.password = provider.password) (hu : s.currentUser = some a.user) :
      Stage w provider e vc 1 s
  | again {s : World} {a : Account} (flow : Flow) (hc : s.crashed = none)
      (hp : s.pending =
        [⟨flow, .signIn e provider.password (.socialAgain vc provider.password)⟩])
      (hacc : s.accounts.toList = a :: w.accounts.toList) (hfree : w.accounts.Free e)
      (he : a.email = e) (hu : s.currentUser = some a.user) : Stage w provider e vc 1 s
  | done {s : World} (hp : s.pending = []) (hends : Ends w provider e s) : Stage w provider e vc 0 s

/-! ## the ends -/

/-- The account of `e` was there and is signed in. -/
theorem ends_of_mem {a : Account} (hin : a ∈ w.accounts) (he : a.email = e)
    (hpw : a.password = provider.password) (hacc : t.accounts = w.accounts)
    (hu : t.currentUser = some a.user) : Ends w provider e t := by
  refine ⟨fun _ => ⟨a, hu, fun b => ⟨?_, ?_⟩, fun b _ => by rw [hacc]⟩,
    fun h => absurd (.inr ⟨a, hin, he, hpw⟩) h⟩
  · rintro ⟨hb, hbe⟩
    rw [hacc] at hb
    exact Accounts.eq_of_email hb hin (hbe.trans he.symm)
  · rintro rfl
    exact ⟨hacc ▸ hin, he⟩

/-- The account of `e` has been created and is signed in. -/
theorem ends_of_created {a : Account} (hacc : t.accounts.toList = a :: w.accounts.toList)
    (hfree : w.accounts.Free e) (he : a.email = e) (hu : t.currentUser = some a.user) :
    Ends w provider e t := by
  have hin : a ∈ t.accounts := by
    rw [Accounts.mem_def, hacc]
    exact List.mem_cons_self
  refine ⟨fun _ => ⟨a, hu, fun b => ⟨?_, ?_⟩, fun b hne => ?_⟩, fun h => absurd (.inl hfree) h⟩
  · rintro ⟨hb, hbe⟩
    exact Accounts.eq_of_email hb hin (hbe.trans he.symm)
  · rintro rfl
    exact ⟨hin, he⟩
  · rw [Accounts.mem_def, hacc, List.mem_cons]
    exact ⟨fun hb => hb.resolve_left fun heq => hne (heq ▸ he), .inr⟩

/-- Another password, or no e-mail Firebase would register. -/
theorem ends_barred (hfree : ¬w.accounts.Free e)
    (hno : w.accounts.signIn e provider.password = none) (hacc : t.accounts = w.accounts)
    (hu : t.currentUser = w.currentUser) : Ends w provider e t := by
  refine ⟨fun hadm => ?_, fun _ => ⟨hu, hacc⟩⟩
  obtain hf | ⟨a, hin, rfl, hp⟩ := hadm
  · exact absurd hf hfree
  · rw [← hp, Accounts.signIn_of_mem hin] at hno
    contradiction

/-! ## one answer -/

namespace Stage

section Answer

variable {i : Nat} {flow : Flow} {o : Outcome} (hrest : t.pending.eraseIdx i = [])
  (ho : o.answer = .answered)

include hrest in
/-- The answer to the graph request. -/
theorem of_confirming {n : String} (hc : t.crashed = none) (hprov : provider = .facebook)
    (hacc : t.accounts = w.accounts) (hu : t.currentUser = w.currentUser)
    (hprof : o.profile = some ⟨some e, some n⟩)
    (hd : Completes (t.taken i) flow o (.graph vc) t') :
    ∃ k' < 4, Stage w provider e vc k' t' := by
  subst hprov
  cases hd with
  | graphFailed hprof' => cases hprof'.symm.trans hprof
  | graphTrap hprof' hn => exact absurd (Option.some.inj (hprof'.symm.trans hprof)) (hn e n)
  | graphConfirmed hprof' =>
      cases hprof'.symm.trans hprof
      refine ⟨3, by decide, .first flow hc ?_ ?_ hacc hu⟩
      · simp [AuthVC.confirm, Authservice.loginSocialUser, send, taken, hrest]
      · simp [AuthVC.confirm, Authservice.loginSocialUser, send]

include hrest ho in
/-- The answer to the first sign-in. -/
theorem of_first (hc : t.crashed = none) (ha : (t.auths vc).email = e)
    (hacc : t.accounts = w.accounts) (hu : t.currentUser = w.currentUser)
    (hd : Completes (t.taken i) flow o
      (.signIn e provider.password (.social vc provider.password)) t') :
    ∃ k' < 3, Stage w provider e vc k' t' := by
  cases hd with
  | @accepted _ _ _ a sh hr hsc =>
      obtain ⟨hin, he, hpw⟩ := signInReply_some hr
      have hcr : sh.crashed = none := (hsc.hidden rfl).2.trans hc
      refine ⟨1, by decide, .signedIn flow (some (t.auths vc).name) hcr ?_ hacc
        (hacc ▸ hin) he hpw rfl⟩
      rw [LoginDone.after, ← ha]
      exact congrArg (· ++ _) hrest
  | @refused _ _ _ sh hr hsc =>
      have hcr : sh.crashed = none := (hsc.hidden rfl).2.trans hc
      have hno : w.accounts.signIn e provider.password = none := by
        rw [signInReply, if_pos ho] at hr
        exact hacc ▸ hr
      refine ⟨2, by decide, .registering flow (some (t.auths vc).name) hcr ?_ ha hacc hu hno⟩
      rw [LoginDone.after, ← ha]
      exact congrArg (· ++ _) hrest

include hrest ho in
/-- The answer to the registration of somebody whom the sign-in refused. -/
theorem of_registering {name : Option String} (hc : t.crashed = none)
    (ha : (t.auths vc).email = e) (hacc : t.accounts = w.accounts)
    (hu : t.currentUser = w.currentUser) (hno : w.accounts.signIn e provider.password = none)
    (hfresh : o.uid ∉ t.accounts.toList.map Account.uid)
    (hd : Completes (t.taken i) flow o
      (.createUser e provider.password name (.social vc provider.password)) t') :
    ∃ k' < 2, Stage w provider e vc k' t' := by
  cases hd with
  | @created _ _ _ _ a db hr _ =>
      obtain ⟨hfree, rfl, hdb⟩ := createUserReply_some hr
      rw [userCreated_eq]
      refine ⟨1, by decide, .again flow hc ?_ ?_ ?_ rfl rfl⟩
      · rw [RegisterDone.after, ← ha]
        exact congrArg (· ++ _) hrest
      · rw [← hacc]
        exact hdb
      · rw [← hacc]
        exact hfree
  | createdUnheard hr ho' => exact absurd ho ho'
  | notCreated hr =>
      refine ⟨0, by decide, .done hrest (ends_barred ?_ hno hacc hu)⟩
      intro hfree
      rw [← hacc] at hfree
      rw [createUserReply, if_neg (by simp [ho]), Accounts.createUser,
        dif_pos ⟨hfree, hfresh⟩] at hr
      contradiction

include hrest ho in
/-- The answer to the registration of somebody who is signed in. -/
theorem of_signedIn {a : Account} {name : Option String} (hacc : t.accounts = w.accounts)
    (hin : a ∈ w.accounts) (he : a.email = e) (hpw : a.password = provider.password)
    (hu : t.currentUser = some a.user)
    (hd : Completes (t.taken i) flow o
      (.createUser e provider.password name (.social vc provider.password)) t') :
    ∃ k' < 1, Stage w provider e vc k' t' := by
  cases hd with
  | created hr _ =>
      have hfree : t.accounts.Free e := (createUserReply_some hr).1
      rw [hacc] at hfree
      exact absurd (he ▸ List.mem_map_of_mem hin) hfree.2
  | createdUnheard hr ho' => exact absurd ho ho'
  | notCreated hr => exact ⟨0, by decide, .done hrest (ends_of_mem hin he hpw hacc hu)⟩

include hrest in
/-- The answer to the second sign-in. -/
theorem of_again {a : Account} (hacc : t.accounts.toList = a :: w.accounts.toList)
    (hfree : w.accounts.Free e) (he : a.email = e) (hu : t.currentUser = some a.user)
    (hd : Completes (t.taken i) flow o
      (.signIn e provider.password (.socialAgain vc provider.password)) t') :
    ∃ k' < 1, Stage w provider e vc k' t' := by
  cases hd with
  | @accepted _ _ _ b sh hr hsc =>
      obtain ⟨hb, hbe, _⟩ := signInReply_some hr
      have ha : a ∈ t.accounts := by
        rw [Accounts.mem_def, hacc]
        exact List.mem_cons_self
      have hab : b = a := Accounts.eq_of_email hb ha (hbe.trans he.symm)
      refine ⟨0, by decide, .done ?_ (ends_of_created hacc hfree he ?_)⟩
      · exact (List.append_nil _).trans hrest
      · rw [← hab]
        rfl
  | @refused _ _ _ sh hr hsc =>
      refine ⟨0, by decide, .done ?_ (ends_of_created hacc hfree he hu)⟩
      exact (List.append_nil _).trans hrest

end Answer

/-- **One answer** brings the chain closer to its end. -/
theorem step {k : Nat} (h : Stage w provider e vc k t) {ev : Event}
    (hstep : t.step ev = some t') (hans : Answered e n t ev) :
    ∃ k' < k, Stage w provider e vc k' t' := by
  obtain ⟨⟨o, flow, r⟩, hev, hans⟩ := hans
  obtain ⟨i, rfl, hin⟩ := deliver_of_answering hev
  obtain ⟨q, hq, hfresh, rfl⟩ := deliver_of_step hstep
  cases hq.symm.trans hin
  have ho : o.answer = .answered := hans.heard
  have hd : Completes (t.taken i) flow o r ((t.taken i).complete flow o r) :=
    complete_cases (t.taken i) flow o r
  dsimp only at hd hfresh ⊢
  generalize (t.taken i).complete flow o r = t' at hd
  cases h with
  | confirming _ hc hp hprov hacc hu =>
      obtain ⟨he, hrest⟩ := eq_of_singleton hp hin
      cases he
      exact of_confirming hrest hc hprov hacc hu hans.2 hd
  | first _ hc hp ha hacc hu =>
      obtain ⟨he, hrest⟩ := eq_of_singleton hp hin
      cases he
      exact of_first hrest ho hc ha hacc hu hd
  | registering _ name hc hp ha hacc hu hno =>
      obtain ⟨he, hrest⟩ := eq_of_singleton hp hin
      cases he
      exact of_registering hrest ho hc ha hacc hu hno hfresh hd
  | signedIn _ name hc hp hacc hin' he hpw hu =>
      obtain ⟨heq, hrest⟩ := eq_of_singleton hp hin
      cases heq
      exact of_signedIn hrest ho hacc hin' he hpw hu hd
  | again _ hc hp hacc hfree he hu =>
      obtain ⟨heq, hrest⟩ := eq_of_singleton hp hin
      cases heq
      exact of_again hrest hacc hfree he hu hd
  | done hp hends =>
      rw [hp] at hin
      contradiction

/-- Every answer brings the end closer. -/
theorem run {k : Nat} (h : Stage w provider e vc k t) {es : List Event}
    (hrun : Runs.run World.step t es = some t') (hans : Runs.Meets World.step (Answered e n) t es) :
    ∃ k', k' + es.length ≤ k ∧ Stage w provider e vc k' t' := by
  induction es generalizing t k with
  | nil =>
      cases hrun
      exact ⟨k, le_refl _, h⟩
  | cons ev es ih =>
      obtain ⟨s, hs, hr⟩ := Runs.run_cons hrun
      obtain ⟨j, hj, hstage⟩ := h.step hs hans.1
      obtain ⟨k', hk', hstage'⟩ := ih hstage hr (hans.tail hs)
      exact ⟨k', by rw [List.length_cons]; omega, hstage'⟩

/-- The end is the only stage without a request in flight. -/
theorem ends {k : Nat} (h : Stage w provider e vc k t) (hp : t.pending = []) :
    Ends w provider e t := by
  cases h with
  | done _ hends => exact hends
  | confirming _ _ hp' => cases hp.symm.trans hp'
  | first _ _ hp' => cases hp.symm.trans hp'
  | registering _ _ _ hp' => cases hp.symm.trans hp'
  | signedIn _ _ _ hp' => cases hp.symm.trans hp'
  | again _ _ hp' => cases hp.symm.trans hp'

/-- Before the end there is one request in flight, and no trap. -/
theorem pending {k : Nat} (h : Stage w provider e vc k t) (hp : t.pending ≠ []) :
    t.crashed = none ∧ ∃ p, t.pending = [p] := by
  cases h with
  | done hp' _ => exact absurd hp' hp
  | confirming _ hc hp' => exact ⟨hc, _, hp'⟩
  | first _ hc hp' => exact ⟨hc, _, hp'⟩
  | registering _ _ hc hp' => exact ⟨hc, _, hp'⟩
  | signedIn _ _ hc hp' => exact ⟨hc, _, hp'⟩
  | again _ hc hp' => exact ⟨hc, _, hp'⟩

/-- There is always a uid that no account has. -/
theorem exists_uid (accounts : Accounts) : ∃ uid, uid ∉ accounts.toList.map Account.uid := by
  have hinj : Function.Injective fun k : Nat => String.ofList (List.replicate k 'u') := by
    intro i j hij
    simpa using congrArg String.length hij
  have : Infinite String := Infinite.of_injective _ hinj
  obtain ⟨uid, hu⟩ := Infinite.exists_notMem_finset (accounts.toList.map Account.uid).toFinset
  exact ⟨uid, fun hin => hu (List.mem_toFinset.mpr hin)⟩

/-- The request in flight can be answered. -/
theorem progress {k : Nat} (h : Stage w provider e vc k t) (n : String) (hp : t.pending ≠ []) :
    ∃ o, Answered e n t (.deliver 0 o) ∧ t.step (.deliver 0 o) ≠ none := by
  obtain ⟨hc, p, hp'⟩ := h.pending hp
  obtain ⟨uid, hu⟩ := exists_uid t.accounts
  have hin : t.pending[0]? = some p := by rw [hp']; rfl
  refine ⟨⟨.answered, some ⟨some e, some n⟩, uid, true, true, true⟩,
    ⟨_, answering_deliver hin, ?_⟩, ?_⟩
  · cases p.request with
    | graph vc => exact ⟨rfl, rfl⟩
    | _ => exact rfl
  have hfresh : t.FreshUid ⟨.answered, some ⟨some e, some n⟩, uid, true, true, true⟩ p.request := by
    unfold FreshUid
    split
    · exact hu
    · trivial
  rw [step_deliver hc hin hfresh]
  exact Option.some_ne_none _

/-- The user's action starts the chain. -/
theorem of_starts {ev : Event} {rest : List Modal} (hm : w.modals = .auth vc :: rest)
    (hp : w.pending = []) (hc : w.crashed = none) (hev : Starts e n provider ev) :
    ∃ w₁ k, w.step ev = some w₁ ∧ k ≤ 4 ∧ Stage w provider e vc k w₁ := by
  cases hev with
  | facebook granted =>
      refine ⟨AuthVC.loginButton vc granted w, 4, ?_, le_refl _,
        .confirming (w.newFlow .facebook) hc ?_ rfl rfl rfl⟩
      · rw [World.step, if_pos (.inl hc)]
        simp only [act, hm]
      · simp [AuthVC.loginButton, World.start, send, hp, newFlow]
  | google =>
      refine ⟨AuthVC.sign vc (some ⟨some e, some n⟩) w, 3, ?_, by decide,
        .first (w.newFlow .google) hc ?_ ?_ rfl rfl⟩
      · rw [World.step, if_pos (.inl hc)]
        simp only [act, hm]
      · simp [AuthVC.sign, AuthVC.confirm, Authservice.loginSocialUser, send, hp, newFlow]
      · simp [AuthVC.sign, AuthVC.confirm, Authservice.loginSocialUser, send]

end Stage

/-! ## the whole chain -/

/-- **The social login-or-register flow.**  Whatever the accounts, a chain that
runs alone on the `AuthVC` on top takes at most four answers, can always take
the next one, and ends with the one account of the confirmed e-mail signed in
and every other account as it was, if that account has the provider's password
or can be registered; otherwise with session and accounts as they were. -/
theorem socialFlow_ends (w : World) (vc : Nat) (rest : List Modal)
    (hm : w.modals = .auth vc :: rest) (hp : w.pending = []) (hc : w.crashed = none)
    (provider : Provider) (e n : String) (ev : Event) (hev : Starts e n provider ev) :
    ∃ w₁, w.step ev = some w₁ ∧
      ∀ es t, Runs.run World.step w₁ es = some t → Runs.Meets World.step (Answered e n) w₁ es →
        es.length ≤ 4 ∧ (t.pending = [] → Ends w provider e t) ∧
        (t.pending ≠ [] → ∃ o, Answered e n t (.deliver 0 o) ∧ t.step (.deliver 0 o) ≠ none) := by
  obtain ⟨w₁, k, hstep, hk, hstage⟩ := Stage.of_starts hm hp hc hev
  refine ⟨w₁, hstep, fun es t hrun hans => ?_⟩
  obtain ⟨k', hk', ht⟩ := hstage.run hrun hans
  exact ⟨by omega, ht.ends, ht.progress n⟩

/-- A Facebook login of somebody new. -/
theorem socialFlow_ends_registered :
    ∃ t, Runs.run World.step (World.fresh ⟨Accounts.empty, ∅⟩ true)
        [.fbLogin true, .deliver 0 (.graph "a@x" "Ann"), .deliver 0 (.ok "u"),
          .deliver 0 (.ok "u"), .deliver 0 (.ok "u")] = some t ∧
      ∃ a, t.currentUser = some a.user ∧ a.email = "a@x" ∧ a ∈ t.accounts := by
  obtain ⟨w₁, hstep, hall⟩ := socialFlow_ends (World.fresh ⟨Accounts.empty, ∅⟩ true) 0 [] rfl rfl
    rfl .facebook "a@x" "Ann" (.fbLogin true) (.facebook true)
  have hdec : ((World.fresh ⟨Accounts.empty, ∅⟩ true).step (.fbLogin true)).bind (fun w₁ =>
      (Runs.run World.step w₁ [.deliver 0 (.graph "a@x" "Ann"), .deliver 0 (.ok "u"),
        .deliver 0 (.ok "u"), .deliver 0 (.ok "u")]).map fun t =>
      decide (t.pending = [] ∧ Runs.Meets World.step (Answered "a@x" "Ann") w₁
        [.deliver 0 (.graph "a@x" "Ann"), .deliver 0 (.ok "u"), .deliver 0 (.ok "u"),
          .deliver 0 (.ok "u")])) = some true := by
    decide
  simp only [hstep, Option.bind_some, Option.map_eq_some_iff, decide_eq_true_eq] at hdec
  obtain ⟨t, ht, hp, hans⟩ := hdec
  obtain ⟨a, hu, ha, _⟩ := ((hall _ t ht hans).2.1 hp).admitted (.inl (by decide))
  obtain ⟨hin, he⟩ := (ha a).mpr rfl
  exact ⟨t, by rw [Runs.run_cons_of_step hstep]; exact ht, a, hu, he, hin⟩

/-- Somebody who came in through Google confirms the same e-mail through
Facebook: every call is answered, and nobody is signed in. -/
theorem socialFlow_bars_other_provider :
    ∃ t, Runs.run World.step
        (World.fresh ⟨Accounts.single ⟨"u", "a@x", "googleUser"⟩ (by decide), ∅⟩ true)
        [.fbLogin true, .deliver 0 (.graph "a@x" "Ann"), .deliver 0 (.ok "v"),
          .deliver 0 (.ok "v")] = some t ∧
      t.pending = [] ∧ t.accounts.toList = [⟨"u", "a@x", "googleUser"⟩] ∧
      ¬∃ a ∈ t.accounts, a.email = "a@x" ∧ t.currentUser = some a.user := by
  have hdec : (Runs.run World.step
      (World.fresh ⟨Accounts.single ⟨"u", "a@x", "googleUser"⟩ (by decide), ∅⟩ true)
      [.fbLogin true, .deliver 0 (.graph "a@x" "Ann"), .deliver 0 (.ok "v"),
        .deliver 0 (.ok "v")]).map (fun t =>
      decide (t.pending = [] ∧ t.accounts.toList = [⟨"u", "a@x", "googleUser"⟩] ∧
        t.currentUser = none)) = some true := by
    decide
  simp only [Option.map_eq_some_iff, decide_eq_true_eq] at hdec
  obtain ⟨t, ht, hp, hacc, hu⟩ := hdec
  refine ⟨t, ht, hp, hacc, ?_⟩
  rintro ⟨a, _, _, hsome⟩
  rw [hu] at hsome
  contradiction

end StreetParker
