import StreetParker.History

/-!
# StreetParker.Press

One press of Sign in on `SigninVC`: sign in, register, sign in again.  Each
completion reads the two text fields again, and the user may go on typing.

* `Acted` — what a press with `e` and `p` may change;
* `answersOf` — the answers of a run, and what the two fields hold when each
  of them arrives;
* `Untouched` — where an answer is followed up with the fields, they hold what
  the press found;
* `Press` — where the chain stands; `Strayed` — it has acted on something else,
  for good;
* `acted_iff` — the press acts on its own credentials exactly when its fields
  are untouched.
-/

namespace StreetParker

open World

/-! ## what a press may change -/

/-- Every e-mail stored since `w` is `e`. -/
def Saves (w : World) (e : String) (t : World) : Prop :=
  ∃ new, t.log = new ++ w.log ∧ ∀ flow em, Entry.saved flow em ∈ new → em = e

/-- What a press with `e` and `p` in the state `w` may have changed by the
state `t`. -/
structure Acted (w : World) (e p : String) (t : World) : Prop where
  /-- no account but one for `e` and `p`, and only if there was none for `e` -/
  accounts : ∀ a ∈ t.accounts, a ∉ w.accounts →
    a.email = e ∧ a.password = p ∧ e ∉ w.accounts.toList.map Account.email
  /-- the tree only at the uid of that account -/
  users : ∀ v : Uid, t.users[v]? ≠ w.users[v]? → ∃ a ∈ t.accounts, a ∉ w.accounts ∧ a.uid = v
  /-- the session only to the account of `e` -/
  currentUser : t.currentUser = w.currentUser ∨
    ∃ a ∈ t.accounts, a.email = e ∧ t.currentUser = some a.user
  saved : Saves w e t

/-- While the chain runs the user edits text fields, and the server answers. -/
def Event.OfPress : Event → Prop
  | .editSignin _ _ => True
  | .deliver _ _ => True
  | _ => False

instance : (ev : Event) → Decidable ev.OfPress
  | .editSignin _ _ | .deliver _ _ => inferInstanceAs (Decidable True)
  | .fbLogin _ | .googleSignIn _ | .signInWithEmail | .signInPressed | .closePressed
  | .authLogOut _ _ | .findAppears _ | .menuAppears _ | .menuLogin _ | .menuLogOut _ _
  | .signOutPressed _ _ | .editUpload _ _ _ | .donePressed | .snapshot _ | .tokenExpires
  | .relaunch => inferInstanceAs (Decidable False)

/-! ## what the fields hold -/

/-- The answers of a run in their order, each with what the two fields of the
`SigninVC` hold when it arrives. -/
def answersOf (vc : Nat) : World → List Event → List (SigninVC × Outcome)
  | _, [] => []
  | t, ev :: es =>
      let rest := match t.step ev with
        | some t' => answersOf vc t' es
        | none => []
      match ev with
      | .deliver _ o => (t.signins vc, o) :: rest
      | _ => rest

/-- The answer to the second sign-in, made when the fields held `fields`: if
the server accepts them, their e-mail is `e`, or they are those of whoever was
signed in at the press. -/
def UntouchedAgain (w : World) (e : String) (db : Accounts) (fields : SigninVC) :
    List (SigninVC × Outcome) → Prop
  | [] => True
  | (_, o) :: _ =>
      ∀ b ∈ { w with accounts := db }.signInReply o fields.emailField fields.passwordField,
        fields.emailField = e ∨ w.currentUser = some b.user

/-- The answer to the registration, made when the fields held `fields`: if the
server creates an account, they were those of the press. -/
def UntouchedRegister (w : World) (e p : String) (fields : SigninVC) :
    List (SigninVC × Outcome) → Prop
  | [] => True
  | (again, o) :: as =>
      ∀ c ∈ w.createUserReply o fields.emailField fields.passwordField,
        fields = ⟨e, p⟩ ∧ UntouchedAgain w e c.2 again as

/-- The answer to the first sign-in, made with `e` and `p`: if the server
accepts them, the e-mail field still holds `e` when it arrives. -/
def Untouched (w : World) (e p : String) : List (SigninVC × Outcome) → Prop
  | [] => True
  | (fields, o) :: as =>
      (w.signInReply o e p ≠ none → fields.emailField = e) ∧ UntouchedRegister w e p fields as

instance (w : World) (e : String) (db : Accounts) (fields : SigninVC) :
    (as : List (SigninVC × Outcome)) → Decidable (UntouchedAgain w e db fields as)
  | [] => inferInstanceAs (Decidable True)
  | (_, _) :: _ => inferInstanceAs (Decidable (∀ b ∈ _, _ ∨ _))

instance (w : World) (e p : String) (fields : SigninVC) :
    (as : List (SigninVC × Outcome)) → Decidable (UntouchedRegister w e p fields as)
  | [] => inferInstanceAs (Decidable True)
  | (again, _) :: as =>
      inferInstanceAs (Decidable (∀ c : Account × Accounts, c ∈ _ → _ ∧
        UntouchedAgain w e c.2 again as))

instance (w : World) (e p : String) :
    (as : List (SigninVC × Outcome)) → Decidable (Untouched w e p as)
  | [] => inferInstanceAs (Decidable True)
  | (fields, _) :: as => inferInstanceAs (Decidable ((_ → _) ∧ UntouchedRegister w e p fields as))

/-! ## where the chain stands -/

variable {w t t' : World} {e p : String} {vc : Nat} {K : List (SigninVC × Outcome) → Prop}

/-- The request the chain waits for, if any, and the condition on the answers
that are to come.  Nothing has been created before the registration is
answered. -/
inductive Awaits (w : World) (e p : String) (vc : Nat) (t : World) :
    (List (SigninVC × Outcome) → Prop) → Prop
  | signIn (flow : Flow) (hp : t.pending = [⟨flow, .signIn e p (.email vc)⟩])
      (ha : t.accounts = w.accounts) (hu : t.users = w.users) :
      Awaits w e p vc t (Untouched w e p)
  | createUser (flow : Flow) (fields : SigninVC)
      (hp : t.pending =
        [⟨flow, .createUser fields.emailField fields.passwordField none (.email vc)⟩])
      (ha : t.accounts = w.accounts) (hu : t.users = w.users) :
      Awaits w e p vc t (UntouchedRegister w e p fields)
  | signInAgain (flow : Flow) (fields : SigninVC)
      (hp : t.pending =
        [⟨flow, .signIn fields.emailField fields.passwordField (.emailAgain vc)⟩]) :
      Awaits w e p vc t (UntouchedAgain w e t.accounts fields)
  | nothing (K : List (SigninVC × Outcome) → Prop) (hp : t.pending = []) (hK : K []) :
      Awaits w e p vc t K

/-- The chain has acted on its own credentials so far, and goes on doing so if
`K` holds of the answers to come. -/
structure Press (w : World) (e p : String) (vc : Nat) (K : List (SigninVC × Outcome) → Prop)
    (t : World) : Prop where
  awaits : Awaits w e p vc t K
  acted : Acted w e p t

/-- The chain has acted on something else, and cannot take it back. -/
inductive Strayed (w : World) (e p : String) (t : World) : Prop
  | created (a : Account) (hin : a ∈ t.accounts) (hnew : a ∉ w.accounts)
      (hne : ¬(a.email = e ∧ a.password = p))
  | stored (new : List Entry) (flow : Flow) (em : String) (hl : t.log = new ++ w.log)
      (hin : Entry.saved flow em ∈ new) (hne : em ≠ e)
  | signedIn (b : Account) (hp : t.pending = []) (hu : t.currentUser = some b.user)
      (hne : b.email ≠ e) (hw : w.currentUser ≠ some b.user)

/-! ## stored e-mails -/

theorem Saves.refl (w : World) (e : String) : Saves w e w :=
  ⟨[], rfl, fun _ _ h => absurd h List.not_mem_nil⟩

/-- More entries, none of which stores anything but `e`. -/
theorem Saves.append (h : Saves w e t) {more : List Entry} (hl : t'.log = more ++ t.log)
    (hm : ∀ flow em, Entry.saved flow em ∈ more → em = e) : Saves w e t' := by
  obtain ⟨new, hn, hall⟩ := h
  refine ⟨more ++ new, by rw [hl, hn, List.append_assoc], fun flow em hin => ?_⟩
  obtain hin | hin := List.mem_append.mp hin
  · exact hm flow em hin
  · exact hall flow em hin

theorem Saves.of_eq (h : Saves w e t) (hl : t'.log = t.log) : Saves w e t' := by
  obtain ⟨new, hn, hall⟩ := h
  exact ⟨new, hl.trans hn, hall⟩

theorem Saves.signedIn (h : Saves w e t) (flow : Flow) (a : Account) :
    Saves w e (t.signedIn flow a) := by
  have hl : (t.signedIn flow a).log = [.signedIn flow a.user] ++ t.log := rfl
  exact h.append hl (by simp)

theorem Acted.of_eq (h : Acted w e p t) (ha : t'.accounts = t.accounts) (hu : t'.users = t.users)
    (hc : t'.currentUser = t.currentUser) (hl : t'.log = t.log) : Acted w e p t' := by
  refine ⟨by rw [ha]; exact h.accounts, by rw [ha, hu]; exact h.users, ?_, h.saved.of_eq hl⟩
  rw [ha, hc]
  exact h.currentUser

/-- Nothing but the session and the record has changed since the press. -/
theorem Acted.of_same (ha : t.accounts = w.accounts) (hu : t.users = w.users)
    (hc : t.currentUser = w.currentUser ∨
      ∃ a ∈ t.accounts, a.email = e ∧ t.currentUser = some a.user)
    (hs : Saves w e t) : Acted w e p t := by
  refine ⟨fun a hin hnew => ?_, fun v hv => ?_, hc, hs⟩
  · rw [ha] at hin
    exact absurd hin hnew
  · rw [hu] at hv
    exact absurd rfl hv

/-! ## straying is for good -/

/-- Another e-mail is stored. -/
theorem Strayed.of_saved (h : Saves w e t) {more : List Entry} (hl : t'.log = more ++ t.log)
    (flow : Flow) (em : String) (hin : Entry.saved flow em ∈ more) (hne : em ≠ e) :
    Strayed w e p t' := by
  obtain ⟨new, hn, _⟩ := h
  exact .stored (more ++ new) flow em (by rw [hl, hn, List.append_assoc])
    (List.mem_append_left _ hin) hne

theorem Strayed.not_acted (h : Strayed w e p t) : ¬Acted w e p t := by
  intro ha
  cases h with
  | created a hin hnew hne =>
      obtain ⟨he, hp, _⟩ := ha.accounts a hin hnew
      exact hne ⟨he, hp⟩
  | stored new flow em hl hin hne =>
      obtain ⟨new', hl', hall⟩ := ha.saved
      rw [List.append_cancel_right (hl.symm.trans hl')] at hin
      exact hne (hall flow em hin)
  | signedIn b hp hu hne hw =>
      obtain hc | ⟨a, _, hae, hc⟩ := ha.currentUser
      · exact hw (hc.symm.trans hu)
      · have hab : a.user = b.user := Option.some.inj (hc.symm.trans hu)
        have heq : some a.email = some b.email := congrArg User.email hab
        exact hne ((Option.some.inj heq).symm.trans hae)

theorem Strayed.step (h : Strayed w e p t) {ev : Event} (hev : ev.OfPress)
    (hstep : t.step ev = some t') : Strayed w e p t' := by
  have hl : Later t t' := Later.step hstep
  cases h with
  | created a hin hnew hne => exact .created a (hl.accounts a hin) hnew hne
  | stored new flow em hlog hin hne =>
      obtain ⟨more, hm⟩ := hl.log
      refine .stored (more ++ new) flow em ?_ (List.mem_append_right _ hin) hne
      rw [← hm, hlog, List.append_assoc]
  | signedIn b hp hu hne hw =>
      obtain ⟨_, hs⟩ := step_cases hstep
      cases hs with
      | editSignin hm => exact .signedIn b hp hu hne hw
      | deliver hin _ =>
          rw [hp] at hin
          contradiction
      | signOutThrew hlog => cases hlog <;> exact hev.elim
      | loggedOut hlog _ => cases hlog <;> exact hev.elim
      | loggedOutToAuth hlog _ _ => cases hlog <;> exact hev.elim
      | _ => exact hev.elim

/-! ## one step -/

/-- The e-mail a completion stores is the one it finds. -/
theorem stores_of_saved {done : LoginDone} {success : Bool} {sh : Shown} {flow flow' : Flow}
    {em : String} (hsc : done.Screens t success sh)
    (hin : Entry.saved flow' em ∈ sentOf flow (done.followUp t) ++ sh.gate ++
      savedOf flow (done.stores t success)) : done.stores t success = some em := by
  obtain hin | hin := List.mem_append.mp hin
  · obtain hin | hin := List.mem_append.mp hin
    · obtain ⟨_, _, he⟩ := mem_sentOf.mp hin
      contradiction
    · obtain ⟨_, _, he⟩ := hsc.entered _ hin
      contradiction
  · obtain ⟨em', hs, he⟩ := mem_savedOf.mp hin
    cases he
    exact hs

/-- An account the server creates is new. -/
theorem mem_of_created {o : Outcome} {email password : String} {a : Account} {db : Accounts}
    (ha : t.accounts = w.accounts) (hr : t.createUserReply o email password = some (a, db)) :
    a ∈ db ∧ a ∉ w.accounts := by
  obtain ⟨hfree, rfl, hdb⟩ := createUserReply_some hr
  refine ⟨by rw [Accounts.mem_def, hdb]; exact List.mem_cons_self, fun hin => ?_⟩
  rw [← ha] at hin
  exact hfree.2 (List.mem_map_of_mem hin)

/-- The only new account is the one created. -/
theorem eq_of_new {o : Outcome} {email password : String} {a b : Account} {db : Accounts}
    (ha : t.accounts = w.accounts) (hr : t.createUserReply o email password = some (a, db))
    (hin : b ∈ db) (hnew : b ∉ w.accounts) : b = a := by
  obtain ⟨_, _, hdb⟩ := createUserReply_some hr
  rw [Accounts.mem_def, hdb, List.mem_cons] at hin
  exact hin.resolve_right fun hin => hnew (ha ▸ hin)

/-- An answer `o` that finds `fields` in the fields leads to `t'`: the chain goes
on with what is left of the condition, or it strays, and no answer to come can
make the condition true. -/
def Leads (w : World) (e p : String) (vc : Nat) (K : List (SigninVC × Outcome) → Prop)
    (fields : SigninVC) (o : Outcome) (t' : World) : Prop :=
  (∃ K', Press w e p vc K' t' ∧ ∀ as, K ((fields, o) :: as) ↔ K' as) ∨
    (Strayed w e p t' ∧ ∀ as, ¬K ((fields, o) :: as))

theorem signInReply_congr (ha : t.accounts = w.accounts) (o : Outcome) (email password : String) :
    t.signInReply o email password = w.signInReply o email password := by
  rw [signInReply, signInReply, ha]

theorem createUserReply_congr (ha : t.accounts = w.accounts) (o : Outcome)
    (email password : String) :
    t.createUserReply o email password = w.createUserReply o email password := by
  rw [createUserReply, createUserReply, ha]

/-- A registration that the server accepts. -/
theorem untouchedRegister_created {o : Outcome} {fields again : SigninVC} {c : Account × Accounts}
    (hr : w.createUserReply o fields.emailField fields.passwordField = some c)
    {as : List (SigninVC × Outcome)} : UntouchedRegister w e p fields ((again, o) :: as) ↔
      fields = ⟨e, p⟩ ∧ UntouchedAgain w e c.2 again as := by
  simp [UntouchedRegister, hr]

/-- An account for anything else is there for good. -/
theorem Strayed.of_created {o : Outcome} {fields : SigninVC} {a : Account} {db : Accounts}
    (ha : t.accounts = w.accounts)
    (hr : t.createUserReply o fields.emailField fields.passwordField = some (a, db))
    (hf : fields ≠ ⟨e, p⟩) (hacc : t'.accounts = db) : Strayed w e p t' := by
  obtain ⟨hin, hnew⟩ := mem_of_created ha hr
  refine .created a (hacc ▸ hin) hnew fun he => hf ?_
  rw [(createUserReply_some hr).2.1] at he
  exact congrArg₂ SigninVC.mk he.1 he.2

/-- The accounts after a registration for `e` and `p` that the server accepts. -/
theorem accounts_created {o : Outcome} {fields : SigninVC} {a : Account} {db : Accounts}
    (ha : t.accounts = w.accounts)
    (hr : t.createUserReply o fields.emailField fields.passwordField = some (a, db))
    (hf : fields = ⟨e, p⟩) : ∀ b ∈ db, b ∉ w.accounts →
      b.email = e ∧ b.password = p ∧ e ∉ w.accounts.toList.map Account.email := by
  intro b hin hnew
  subst hf
  obtain ⟨hfree, heq, _⟩ := createUserReply_some hr
  rw [eq_of_new ha hr hin hnew, heq]
  refine ⟨rfl, rfl, ?_⟩
  rw [← ha]
  exact hfree.2

/-- No condition is left when no answer is to come. -/
theorem Awaits.nil (h : Awaits w e p vc t K) : K [] := by
  cases h with
  | signIn => trivial
  | createUser => trivial
  | signInAgain => trivial
  | nothing _ _ hK => exact hK

namespace Press

/-- The answer to the first sign-in. -/
theorem complete_signIn (h : Press w e p vc K t) {i : Nat} {flow : Flow} {o : Outcome}
    (hrest : t.pending.eraseIdx i = []) (ha : t.accounts = w.accounts) (hu : t.users = w.users)
    (hd : Completes (t.taken i) flow o (.signIn e p (.email vc)) t') :
    Leads w e p vc (Untouched w e p) (t.signins vc) o t' := by
  cases hd with
  | @accepted _ _ _ a sh hr hsc =>
      obtain ⟨hin, hae, _⟩ := signInReply_some hr
      have hreply : w.signInReply o e p = some a := (signInReply_congr ha o e p).symm.trans hr
      by_cases he : (t.signins vc).emailField = e
      · refine .inl ⟨UntouchedRegister w e p (t.signins vc),
          ⟨.createUser flow _ (congrArg (· ++ _) hrest) ha hu, ?_⟩,
          fun as => by simp [Untouched, he]⟩
        refine Acted.of_same ha hu (.inr ⟨a, hin, hae, rfl⟩) ?_
        refine (h.acted.saved.signedIn flow a).append rfl fun flow' em hs => ?_
        rw [← he]
        exact (Option.some.inj (stores_of_saved hsc hs)).symm
      · refine .inr ⟨?_, fun as => by simp [Untouched, hreply, he]⟩
        refine Strayed.of_saved (h.acted.saved.signedIn flow a) rfl flow
          (t.signins vc).emailField ?_ he
        exact List.mem_append_right _ (List.mem_singleton_self _)
  | @refused _ _ _ sh hr hsc =>
      have hreply : w.signInReply o e p = none := (signInReply_congr ha o e p).symm.trans hr
      refine .inl ⟨UntouchedRegister w e p (t.signins vc),
        ⟨.createUser flow _ (congrArg (· ++ _) hrest) ha hu, ?_⟩,
        fun as => by simp [Untouched, hreply]⟩
      refine Acted.of_same ha hu h.acted.currentUser
        (h.acted.saved.append rfl fun flow' em hs => ?_)
      exact absurd (stores_of_saved hsc hs) (by simp [LoginDone.stores])

/-- The answer to the registration. -/
theorem complete_createUser (h : Press w e p vc K t) {i : Nat} {flow : Flow} {o : Outcome}
    {fields : SigninVC} (hrest : t.pending.eraseIdx i = [])
    (ha : t.accounts = w.accounts) (hu : t.users = w.users)
    (hd : Completes (t.taken i) flow o
      (.createUser fields.emailField fields.passwordField none (.email vc)) t') :
    Leads w e p vc (UntouchedRegister w e p fields) (t.signins vc) o t' := by
  cases hd with
  | @created _ _ _ _ a db hr ho =>
      have hreply := (createUserReply_congr ha o _ _).symm.trans hr
      rw [userCreated_eq]
      by_cases hf : fields = ⟨e, p⟩
      · obtain ⟨hin, hnew⟩ := mem_of_created ha hr
        refine .inl ⟨UntouchedAgain w e db (t.signins vc),
          ⟨.signInAgain flow _ (congrArg (· ++ _) hrest), accounts_created ha hr hf, ?_,
            .inr ⟨a, hin, ?_, rfl⟩, ?_⟩,
          fun _ => (untouchedRegister_created hreply).trans (and_iff_right hf)⟩
        · intro v hv
          refine ⟨a, hin, hnew, ?_⟩
          by_contra hne
          refine hv ?_
          simp only [RegisterDone.after, taken]
          split
          · rw [Dataservice.createDBUser, UsersTree.updateChildValues,
              Merge.getElem?_mergeAt_of_ne hne, hu]
          · rw [hu]
        · rw [(createUserReply_some hr).2.1, hf]
        · refine (h.acted.saved.signedIn flow a).append rfl fun flow' em hs => ?_
          obtain ⟨_, _, he⟩ := mem_sentOf.mp hs
          contradiction
      · exact .inr ⟨Strayed.of_created ha hr hf rfl,
          fun _ hk => hf ((untouchedRegister_created hreply).mp hk).1⟩
  | @createdUnheard _ _ _ _ a db hr ho =>
      have hreply := (createUserReply_congr ha o _ _).symm.trans hr
      by_cases hf : fields = ⟨e, p⟩
      · refine .inl ⟨UntouchedAgain w e db (t.signins vc),
          ⟨.nothing _ hrest trivial, accounts_created ha hr hf,
            fun v hv => absurd (by rw [← hu]; rfl) hv, ?_, h.acted.saved.of_eq rfl⟩,
          fun _ => (untouchedRegister_created hreply).trans (and_iff_right hf)⟩
        obtain hc | ⟨b, hb, hbe, hc⟩ := h.acted.currentUser
        · exact .inl hc
        · refine .inr ⟨b, ?_, hbe, hc⟩
          rw [Accounts.mem_def, (createUserReply_some hr).2.2]
          exact List.mem_cons_of_mem _ hb
      · exact .inr ⟨Strayed.of_created ha hr hf rfl,
          fun _ hk => hf ((untouchedRegister_created hreply).mp hk).1⟩
  | notCreated hr =>
      have hreply := (createUserReply_congr ha o _ _).symm.trans hr
      exact .inl ⟨fun _ => True, ⟨.nothing _ hrest trivial, h.acted.of_eq rfl rfl rfl rfl⟩,
        fun as => by simp [UntouchedRegister, hreply]⟩

/-- The answer to the second sign-in. -/
theorem complete_signInAgain (h : Press w e p vc K t) {i : Nat} {flow : Flow} {o : Outcome}
    {fields : SigninVC} (hrest : t.pending.eraseIdx i = [])
    (hd : Completes (t.taken i) flow o
      (.signIn fields.emailField fields.passwordField (.emailAgain vc)) t') :
    Leads w e p vc (UntouchedAgain w e t.accounts fields) (t.signins vc) o t' := by
  have hpend : t.pending.eraseIdx i ++ pendingOf flow none = [] := by
    rw [hrest]
    rfl
  cases hd with
  | @accepted _ _ _ b sh hr hsc =>
      have hreply : { w with accounts := t.accounts }.signInReply o fields.emailField
          fields.passwordField = some b := hr
      obtain ⟨hin, hbe, _⟩ := signInReply_some hr
      by_cases hk : fields.emailField = e ∨ w.currentUser = some b.user
      · refine .inl ⟨fun _ => True, ⟨.nothing _ hpend trivial, h.acted.accounts, h.acted.users, ?_,
          ?_⟩, fun as => by simp [UntouchedAgain, hreply, hk]⟩
        · obtain he | hw := hk
          · exact .inr ⟨b, hin, hbe.trans he, rfl⟩
          · exact .inl hw.symm
        · refine (h.acted.saved.signedIn flow b).append rfl fun flow' em hs => ?_
          exact absurd (stores_of_saved hsc hs) (by simp [LoginDone.stores])
      · obtain ⟨hne, hw⟩ := not_or.mp hk
        exact .inr ⟨.signedIn b hpend rfl (fun he => hne (hbe.symm.trans he)) hw,
          fun as => by simp [UntouchedAgain, hreply, hne, hw]⟩
  | @refused _ _ _ sh hr hsc =>
      have hreply : { w with accounts := t.accounts }.signInReply o fields.emailField
          fields.passwordField = none := hr
      refine .inl ⟨fun _ => True, ⟨.nothing _ hpend trivial, h.acted.accounts, h.acted.users,
        h.acted.currentUser, ?_⟩, fun as => by simp [UntouchedAgain, hreply]⟩
      refine h.acted.saved.append rfl fun flow' em hs => ?_
      exact absurd (stores_of_saved hsc hs) (by simp [LoginDone.stores])

/-- An edit leaves the chain where it stands. -/
theorem edit (h : Press w e p vc K t) {email password : String}
    (hstep : t.step (.editSignin email password) = some t') : Press w e p vc K t' := by
  obtain ⟨_, hs⟩ := step_cases hstep
  cases hs with
  | editSignin hm =>
      refine ⟨?_, h.acted.of_eq rfl rfl rfl rfl⟩
      cases h.awaits with
      | signIn flow hp ha hu => exact .signIn flow hp ha hu
      | createUser flow fields hp ha hu => exact .createUser flow fields hp ha hu
      | signInAgain flow fields hp => exact .signInAgain flow fields hp
      | nothing _ hp hK => exact .nothing _ hp hK
  | signOutThrew hlog => cases hlog
  | loggedOut hlog _ => cases hlog
  | loggedOutToAuth hlog _ _ => cases hlog

/-- **One answer**. -/
theorem deliver (h : Press w e p vc K t) {i : Nat} {o : Outcome}
    (hstep : t.step (.deliver i o) = some t') : Leads w e p vc K (t.signins vc) o t' := by
  obtain ⟨_, hs⟩ := step_cases hstep
  cases hs with
  | @deliver _ _ q hin _ =>
      obtain ⟨flow, r⟩ := q
      have hd : Completes (t.taken i) flow o r ((t.taken i).complete flow o r) :=
        complete_cases (t.taken i) flow o r
      dsimp only
      generalize (t.taken i).complete flow o r = t' at hd
      cases h.awaits with
      | signIn flow hp ha hu =>
          obtain ⟨he, hrest⟩ := eq_of_singleton hp hin
          cases he
          exact h.complete_signIn hrest ha hu hd
      | createUser flow fields hp ha hu =>
          obtain ⟨he, hrest⟩ := eq_of_singleton hp hin
          cases he
          exact h.complete_createUser hrest ha hu hd
      | signInAgain flow fields hp =>
          obtain ⟨he, hrest⟩ := eq_of_singleton hp hin
          cases he
          exact h.complete_signInAgain hrest hd
      | nothing _ hp _ =>
          rw [hp] at hin
          contradiction
  | signOutThrew hlog => cases hlog
  | loggedOut hlog _ => cases hlog
  | loggedOutToAuth hlog _ _ => cases hlog

/-- **A run of answers and edits**: it has acted on its own credentials if the
condition holds of its answers, and else it has strayed. -/
theorem run (h : Press w e p vc K t) {es : List Event} (hes : ∀ ev ∈ es, ev.OfPress)
    (hrun : Runs.run World.step t es = some t') :
    (K (answersOf vc t es) ∧ Acted w e p t') ∨ (¬K (answersOf vc t es) ∧ Strayed w e p t') := by
  induction es generalizing t K with
  | nil =>
      cases hrun
      exact .inl ⟨h.awaits.nil, h.acted⟩
  | cons ev es ih =>
      obtain ⟨t₁, hs, hrun'⟩ := Runs.run_cons hrun
      obtain ⟨hev, hes'⟩ := List.forall_mem_cons.mp hes
      cases ev with
      | editSignin email password =>
          have hanswers : answersOf vc t (.editSignin email password :: es) =
              answersOf vc t₁ es := by
            simp only [answersOf, hs]
          rw [hanswers]
          exact ih (h.edit hs) hes' hrun'
      | deliver i o =>
          have hanswers : answersOf vc t (.deliver i o :: es) =
              (t.signins vc, o) :: answersOf vc t₁ es := by
            simp only [answersOf, hs]
          rw [hanswers]
          obtain ⟨K', h', hK⟩ | ⟨hbad, hK⟩ := h.deliver hs
          · rw [hK]
            exact ih h' hes' hrun'
          · refine .inr ⟨hK _, ?_⟩
            exact Runs.inv_of_run (fun s ev s' hB hev hs => hB.step hev hs) hrun'
              (Runs.meets_of_forall hes' t₁) hbad
      | _ => exact hev.elim

end Press

/-! ## one press -/

/-- The press itself. -/
theorem press_of_pressed {rest : List Modal} (hm : w.modals = .signin vc :: rest)
    (hp : w.pending = []) (hf : w.signins vc = ⟨e, p⟩) {w₁ : World}
    (hpress : w.step .signInPressed = some w₁) :
    Press w e p vc (Untouched w e p) w₁ := by
  obtain ⟨_, hs⟩ := step_cases hpress
  cases hs with
  | @signInPressed vc' rest' hm' =>
      cases hm.symm.trans hm'
      have hstart : SigninVC.signInButtonWasPressed vc w =
          w.start .email (.signIn e p (.email vc)) := by
        rw [SigninVC.signInButtonWasPressed, hf]
      rw [hstart]
      refine ⟨.signIn (w.newFlow .email) ?_ rfl rfl, Acted.of_same rfl rfl (.inl rfl) ?_⟩
      · exact congrArg (· ++ _) hp
      · have hl : (w.start .email (.signIn e p (.email vc))).log =
            [.sent (w.newFlow .email) (.signIn e p (.email vc))] ++ w.log := rfl
        exact (Saves.refl w e).append hl (by simp)
  | signOutThrew hlog => cases hlog
  | loggedOut hlog _ => cases hlog
  | loggedOutToAuth hlog _ _ => cases hlog

/-- **One press of Sign in.**  Whatever the accounts, the tree and the session,
however the server calls end and whatever is typed meanwhile: the press has
acted on the credentials it found and on nothing else exactly when the fields
were untouched at the answers. -/
theorem acted_iff (w : World) (vc : Nat) (rest : List Modal) (hm : w.modals = .signin vc :: rest)
    (hp : w.pending = []) (e p : String) (hf : w.signins vc = ⟨e, p⟩) (w₁ : World)
    (hpress : w.step .signInPressed = some w₁) (es : List Event)
    (hes : ∀ ev ∈ es, ev.OfPress) (t : World) (hrun : Runs.run World.step w₁ es = some t) :
    Acted w e p t ↔ Untouched w e p (answersOf vc w₁ es) := by
  obtain ⟨hkept, hacted⟩ | ⟨hkept, hstrayed⟩ := (press_of_pressed hm hp hf hpress).run hes hrun
  · exact iff_of_true hacted hkept
  · exact iff_of_false hstrayed.not_acted hkept

/-- `SigninVC` with `a@x` and `secret` typed in, and nobody registered. -/
def signinFilled : Option World :=
  Runs.run World.step (World.fresh ⟨Accounts.empty, ∅⟩ true)
    [.signInWithEmail, .editSignin "a@x" "secret"]

/-- A registration with the fields left alone. -/
theorem acted_untouched :
    ∃ w w₁ t, signinFilled = some w ∧ w.step .signInPressed = some w₁ ∧
      Runs.run World.step w₁ [.deliver 0 (.ok ""), .deliver 0 (.ok "u"), .deliver 0 (.ok "")] =
        some t ∧
      Acted w "a@x" "secret" t := by
  have hdec : (signinFilled.bind fun w => (w.step .signInPressed).bind fun w₁ =>
      (Runs.run World.step w₁ [.deliver 0 (.ok ""), .deliver 0 (.ok "u"),
        .deliver 0 (.ok "")]).map fun _ =>
      decide (w.modals = [.signin 1, .auth 0] ∧ w.pending = [] ∧
        w.signins 1 = ⟨"a@x", "secret"⟩ ∧
        Untouched w "a@x" "secret" (answersOf 1 w₁
          [.deliver 0 (.ok ""), .deliver 0 (.ok "u"), .deliver 0 (.ok "")]))) = some true := by
    decide
  simp only [Option.bind_eq_some_iff, Option.map_eq_some_iff, decide_eq_true_eq] at hdec
  obtain ⟨w, hw, w₁, hw₁, t, ht, hm, hp, hf, hkept⟩ := hdec
  exact ⟨w, w₁, t, hw, hw₁, ht,
    (acted_iff w 1 [.auth 0] hm hp "a@x" "secret" hf w₁ hw₁ _ (by decide) t ht).mpr hkept⟩

/-- The fields are edited before the first answer: the account that is created
and signed in is another one. -/
theorem not_acted :
    ∃ w w₁ t, signinFilled = some w ∧ w.step .signInPressed = some w₁ ∧
      Runs.run World.step w₁
        [.editSignin "b@x" "another", .deliver 0 (.ok ""), .deliver 0 (.ok "u")] = some t ∧
      w.accounts.toList = [] ∧ t.accounts.toList = [⟨"u", "b@x", "another"⟩] ∧
      ¬Acted w "a@x" "secret" t := by
  have hdec : (signinFilled.bind fun w => (w.step .signInPressed).bind fun w₁ =>
      (Runs.run World.step w₁ [.editSignin "b@x" "another", .deliver 0 (.ok ""),
        .deliver 0 (.ok "u")]).map fun t =>
      decide (w.accounts.toList = [] ∧ t.accounts.toList = [⟨"u", "b@x", "another"⟩])) =
        some true := by
    decide
  simp only [Option.bind_eq_some_iff, Option.map_eq_some_iff, decide_eq_true_eq] at hdec
  obtain ⟨w, hw, w₁, hw₁, t, ht, hwacc, htacc⟩ := hdec
  refine ⟨w, w₁, t, hw, hw₁, ht, hwacc, htacc, fun h => ?_⟩
  have hin : (⟨"u", "b@x", "another"⟩ : Account) ∈ t.accounts := by
    rw [Accounts.mem_def, htacc]
    exact List.mem_singleton_self _
  have hnew : (⟨"u", "b@x", "another"⟩ : Account) ∉ w.accounts := by
    rw [Accounts.mem_def, hwacc]
    exact List.not_mem_nil
  exact absurd (h.accounts _ hin hnew).1 (by decide)

end StreetParker
