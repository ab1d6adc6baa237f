import StreetParker.History
import StreetParker.Screens

/-!
# StreetParker.Silent

The silent sign-in of `FindVC` takes the last row of the local store, in
whatever order the rows are fetched, and the one password of every Facebook
account.  It stays with the user as long as every row is the user's own.

* `Tidy` — a step that leaves no row of somebody else behind;
* `OwnRows` — the invariant: every row is the e-mail of the session;
* `silent_of_run` — the silent sign-in never switches the user.
-/

namespace StreetParker

open World

/-! ## tidy steps -/

/-- The session after an answer. -/
def World.userAfter (w : World) : Option Account → Option User
  | some a => some a.user
  | none => w.currentUser

/-- The completion of a sign-in keeps the user, or finds no rows, or deletes
them; and the e-mail it stores is that of the session it leaves. -/
def LoginDone.Tidy (w : World) (o : Outcome) (reply : Option Account) (done : LoginDone) : Prop :=
  (w.userAfter reply = w.currentUser ∨ w.store.fetchable = [] ∨
    (done.purges reply.isSome = true ∧ o.fetches = true)) ∧
  ∀ em ∈ done.stores w reply.isSome, (w.userAfter reply).bind User.email = some em

/-- An answer leaves no row of somebody else behind. -/
def Request.Tidy (w : World) (o : Outcome) : Request → Prop
  | .signIn email password done => done.Tidy w o (w.signInReply o email password)
  | .createUser email _ _ _ =>
      o.answer = .answered → w.accounts.Free email → w.store.fetchable = []
  | _ => True

/-- A step leaves no row of somebody else behind: an answer stores the e-mail of
the session only, and somebody else who is signed in finds no rows; a logout
really deletes them; no relaunch brings deleted rows of somebody else back. -/
def Tidy (w : World) (ev : Event) : Prop :=
  (∀ a ∈ w.answering ev, a.2.request.Tidy w a.1) ∧
  (∀ fetches ∈ ev.deletion?, fetches = true ∨ w.store.fetchable = []) ∧
  (ev = .relaunch → ∀ r ∈ w.store.stored, r.deleted = true → w.currentEmail = some r.userEmail)

instance (w : World) (o : Outcome) (reply : Option Account) (done : LoginDone) :
    Decidable (done.Tidy w o reply) :=
  inferInstanceAs (Decidable (_ ∧ _))

instance (w : World) (o : Outcome) : (r : Request) → Decidable (r.Tidy w o)
  | .signIn _ _ _ => inferInstanceAs (Decidable (LoginDone.Tidy _ _ _ _))
  | .createUser _ _ _ _ => inferInstanceAs (Decidable (_ → _))
  | .graph _ | .carInfo _ _ _ _ _ => inferInstanceAs (Decidable True)

instance (w : World) (ev : Event) : Decidable (Tidy w ev) :=
  inferInstanceAs (Decidable (_ ∧ _ ∧ _))

/-! ## rows -/

variable {w w' : World}

/-- The rows after the completion of a sign-in. -/
theorem fetchable_storeAfter (w : World) (success : Bool) (o : Outcome) (done : LoginDone) :
    (done.storeAfter w success o).fetchable =
      (if done.purges success = true ∧ o.fetches = true then [] else w.store.fetchable) ++
        (done.stores w success).toList := by
  have hdel : (if done.purges success then
      (Dataservice.deleteAllDataFromCoreData o.fetches w.store).1 else w.store).fetchable =
      if done.purges success = true ∧ o.fetches = true then [] else w.store.fetchable := by
    cases done.purges success <;> cases o.fetches <;> simp [Dataservice.deleteAllDataFromCoreData]
  unfold LoginDone.storeAfter
  cases done.stores w success with
  | none => simpa using hdel
  | some em => simp [hdel]

/-- In an empty store a completion leaves the row it saves. -/
theorem fetchable_storeAfter_of_nil (h : w.store.fetchable = []) (success : Bool) (o : Outcome)
    (done : LoginDone) :
    (done.storeAfter w success o).fetchable = (done.stores w success).toList := by
  rw [fetchable_storeAfter, h, ite_self, List.nil_append]

/-- The deletion of a logout, when it takes effect. -/
theorem fetchable_loggedOut {token : Option AccessToken} {fetches : Bool}
    (h : fetches = true ∨ w.store.fetchable = []) :
    (w.loggedOut token fetches).store.fetchable = [] := by
  simp only [World.loggedOut, Dataservice.deleteAll, Dataservice.deleteAllDataFromCoreData]
  split
  · exact CoreData.fetchable_deleteFetched _
  · next hf => exact h.resolve_left hf

/-- The e-mail of the silent sign-in is in a row, or no account can have it. -/
theorem silentEmail_or {s : CoreData} {fetched : Fetch} (hf : fetched.Of s) :
    validEmail ((Dataservice.fetchUserInfo fetched).getLast?.getD "") = false ∨
      (Dataservice.fetchUserInfo fetched).getLast?.getD "" ∈ s.fetchable := by
  cases fetched with
  | threw => exact .inl (by decide)
  | rows emails =>
      rw [Dataservice.fetchUserInfo]
      cases hl : emails.getLast? with
      | none => exact .inl rfl
      | some e => exact .inr (hf.mem_iff.mp (List.mem_of_getLast? hl))

/-- Every row is the e-mail of the session; without one there are none. -/
def OwnRows (w : World) : Prop := ∀ r ∈ w.store.fetchable, w.currentEmail = some r

namespace OwnRows

theorem of_nil (h : w.store.fetchable = []) : OwnRows w := by
  intro r hr
  rw [h] at hr
  exact absurd hr List.not_mem_nil

theorem frame (h : OwnRows w) (hst : w'.store = w.store) (hu : w'.currentUser = w.currentUser) :
    OwnRows w' := by
  intro r hr
  rw [hst] at hr
  rw [currentEmail, hu]
  exact h r hr

/-- The completion of a sign-in, in the session `w₁` it finds. -/
theorem after (h : OwnRows w) {w₁ : World} {done : LoginDone} (reply : Option Account)
    {flow : Flow} {o : Outcome} {sh : Shown} (ht : done.Tidy w o reply)
    (hst : w₁.store = w.store) (hu : w₁.currentUser = w.userAfter reply)
    (hem : done.stores w₁ reply.isSome = done.stores w reply.isSome) :
    OwnRows (done.after flow reply.isSome o sh w₁) := by
  intro r hr
  have hcur : (done.after flow reply.isSome o sh w₁).currentEmail =
      (w.userAfter reply).bind User.email := by
    rw [← hu]
    rfl
  rw [hcur]
  rw [LoginDone.after, fetchable_storeAfter, hst, hem] at hr
  obtain hr | hr := List.mem_append.mp hr
  · -- a row that was there: the user is the same
    split at hr
    · exact absurd hr List.not_mem_nil
    · next hdel =>
        obtain hsame | hnil | hp := ht.1
        · rw [hsame]
          exact h r hr
        · rw [hnil] at hr
          exact absurd hr List.not_mem_nil
        · exact absurd hp hdel
  · exact ht.2 r (Option.mem_toList.mp hr)

/-- **Deliveries** of tidy answers. -/
theorem deliver (h : OwnRows w) {i : Nat} {o : Outcome} {flow : Flow} {r : Request}
    (hp : w.pending[i]? = some ⟨flow, r⟩) (ht : Tidy w (.deliver i o))
    (hd : Completes (w.taken i) flow o r w') : OwnRows w' := by
  replace ht : r.Tidy w o := ht.1 _ (answering_deliver hp)
  cases hd with
  | @accepted email password done a sh ha hs =>
      have ha' : w.signInReply o email password = some a := ha
      rw [Request.Tidy, ha'] at ht
      exact h.after (some a) ht rfl rfl (stores_signedIn _ _ _ _ _)
  | @refused email password done sh ha hs =>
      have ha' : w.signInReply o email password = none := ha
      rw [Request.Tidy, ha'] at ht
      exact h.after none ht rfl rfl rfl
  | @created email password name done a db ha ho =>
      rw [userCreated_eq]
      exact of_nil (ht ho (createUserReply_some ha).1)
  | _ => exact h.frame rfl rfl

/-- **Steps** that are tidy. -/
theorem step (h : OwnRows w) {ev : Event} (hstep : w.step ev = some w') (ht : Tidy w ev) :
    OwnRows w' := by
  have hpurge : ∀ {signsOut fetches token}, LogOut w ev signsOut fetches token →
      fetches = true ∨ w.store.fetchable = [] := fun hl => ht.2.1 _ hl.deletion
  have hkept : ev = .relaunch → ∀ r ∈ w.store.discard.fetchable, w.currentEmail = some r := by
    rintro rfl r hr
    rw [CoreData.fetchable_discard, CoreData.persisted, List.mem_map] at hr
    obtain ⟨row, hrow, rfl⟩ := hr
    cases hdel : row.deleted with
    | true => exact ht.2.2 rfl row hrow hdel
    | false =>
        refine h _ (List.mem_append_left _ (List.mem_map_of_mem ?_))
        exact List.mem_filter.mpr ⟨hrow, by simp [hdel]⟩
  obtain ⟨_, hs⟩ := step_cases hstep
  cases hs with
  | loggedOut hl h13 => exact of_nil (fetchable_loggedOut (hpurge hl))
  | loggedOutToAuth hl hm h13 => exact of_nil (fetchable_loggedOut (hpurge hl))
  | @deliver i o p hp hu => exact h.deliver hp ht (complete_cases _ _ _ _)
  | @snapshot i ob ho =>
      obtain ⟨b, u, c, he, _⟩ := observer_deliver_eq ob w
      rw [he]
      exact h.frame rfl rfl
  | relaunched hu => exact hkept rfl
  | relaunchedToAuth hu => exact hkept rfl
  | _ => exact h.frame rfl rfl

end OwnRows

/-- **The rows are the user's own** in every state of a tidy run. -/
theorem ownRows_of_run {w t : World} {es : List Event} (h : Runs.run World.step w es = some t)
    (ht : Runs.Meets World.step Tidy w es) (hw : OwnRows w) : OwnRows t :=
  Runs.inv_of_run (fun _ _ _ hr hC hstep => hr.step hstep hC) h ht hw

/-! ## the silent sign-in -/

/-- **The silent sign-in never switches the user.**  In a tidy run, whatever
order the rows are fetched in and whenever the answer comes, the account that
answers to the stored e-mail and the one Facebook password is the session's. -/
theorem silent_of_run (cloud : Cloud) (available13 : Bool) (es : List Event) (w : World)
    (h : Runs.run World.step (World.fresh cloud available13) es = some w)
    (htidy : Runs.Meets World.step Tidy (World.fresh cloud available13) es) (u : User)
    (hu : w.currentUser = some u) (ht : w.hasToken = true) (fetched : Fetch) (w₁ : World)
    (hstep : w.step (.findAppears fetched) = some w₁) :
    ∃ em, w₁.pending = w.pending ++ [⟨w.newFlow .silent, .signIn em "FBUser" .silent⟩] ∧
      ∀ es' t, Runs.run World.step w₁ es' = some t →
        ∀ o a, t.signInReply o em "FBUser" = some a → a.user = u := by
  have hw : Sound w := sound_of_run h (sound_fresh cloud available13)
  have hrows : OwnRows w := ownRows_of_run h htidy (OwnRows.of_nil rfl)
  obtain ⟨_, hs⟩ := step_cases hstep
  cases hs with
  | findQuiet hm ht' =>
      rw [ht] at ht'
      contradiction
  | signOutThrew hl => cases hl
  | loggedOut hl _ => cases hl
  | loggedOutToAuth hl _ _ => cases hl
  | findSilent hm hf _ =>
      refine ⟨_, rfl, fun es' t hrun o a ha => ?_⟩
      have hacc : ∀ b ∈ w.accounts, b ∈ t.accounts := (Later.run hrun).accounts
      obtain ⟨hin, he, _⟩ := signInReply_some ha
      obtain hinvalid | hrow := silentEmail_or hf
      · rw [← he, t.accounts.valid a hin] at hinvalid
        contradiction
      · obtain ⟨b, hb, hbu⟩ := hw.account u hu
        have hcur := hrows _ hrow
        rw [currentEmail, hu, ← hbu, ← he] at hcur
        rw [← hbu, Accounts.eq_of_email (hacc b hb) hin (Option.some.inj hcur)]

/-- A Facebook login, a relaunch, and the silent sign-in. -/
theorem silent_of_run_relaunch :
    ∃ w w₁ : World, ∃ a, w.step (.findAppears (.rows ["a@x"])) = some w₁ ∧
      w₁.signInReply (.ok "") "a@x" "FBUser" = some a ∧
      a.user = ⟨"u", some "a@x", "Firebase"⟩ := by
  have hrun : ((Runs.run World.step
      (World.fresh ⟨Accounts.single ⟨"u", "a@x", "FBUser"⟩ (by decide), ∅⟩ true)
      [.fbLogin true, .deliver 0 (.graph "a@x" "Ann"), .deliver 0 (.ok ""),
        .deliver 0 (.ok ""), .relaunch]).bind fun w =>
      (w.step (.findAppears (.rows ["a@x"]))).map fun w₁ =>
        decide (w.currentUser = some ⟨"u", some "a@x", "Firebase"⟩ ∧ w.hasToken = true ∧
          w.pending = [] ∧
          w₁.pending = [⟨w.newFlow .silent, .signIn "a@x" "FBUser" .silent⟩] ∧
          (w₁.signInReply (.ok "") "a@x" "FBUser").isSome)) = some true := by
    decide
  simp only [Option.bind_eq_some_iff, Option.map_eq_some_iff, decide_eq_true_eq] at hrun
  obtain ⟨w, hw, w₁, hw₁, hu, ht, hp, hp₁, hr⟩ := hrun
  obtain ⟨a, ha⟩ := Option.isSome_iff_exists.mp hr
  obtain ⟨em, hem, hall⟩ := silent_of_run _ true _ w hw (by decide) _ hu ht _ w₁ hw₁
  rw [hp, hp₁] at hem
  simp only [List.nil_append, List.cons.injEq, Pending.mk.injEq, Request.signIn.injEq, true_and,
    and_true] at hem
  subst hem
  exact ⟨w, w₁, a, hw₁, ha, hall [] w₁ rfl (.ok "") a ha⟩

/-- Two accounts that came in through Facebook. -/
def twoFacebookUsers : Accounts where
  toList := [⟨"a", "a@x", "FBUser"⟩, ⟨"b", "b@x", "FBUser"⟩]
  emails_nodup := by decide
  uids_nodup := by decide
  valid := by decide

/-- A kill after a logout brings the deleted row back, and a Google login that
is begun before the Facebook one is answered changes the e-mail the latter
stores.  Either way the silent sign-in goes to the other user. -/
theorem silent_switches :
    (∃ w t, Runs.run World.step (World.fresh ⟨twoFacebookUsers, ∅⟩ true)
        [.fbLogin true, .deliver 0 (.graph "a@x" "Ann"), .deliver 0 (.ok ""),
          .deliver 0 (.ok ""), .menuAppears (.rows ["a@x"]), .menuLogOut true true, .relaunch,
          .fbLogin true, .deliver 0 (.graph "b@x" "Bob"), .deliver 0 (.ok ""),
          .deliver 0 (.ok "")] = some w ∧
      w.hasToken = true ∧ w.currentUser = some ⟨"b", some "b@x", "Firebase"⟩ ∧
      Runs.run World.step w [.findAppears (.rows ["b@x", "a@x"]), .deliver 0 (.ok "")] = some t ∧
      t.currentUser = some ⟨"a", some "a@x", "Firebase"⟩) ∧
    ∃ w t, Runs.run World.step (World.fresh ⟨twoFacebookUsers, ∅⟩ true)
        [.fbLogin true, .deliver 0 (.graph "a@x" "Ann"),
          .googleSignIn (some ⟨some "b@x", some "Bob"⟩), .deliver 0 (.ok "")] = some w ∧
      w.hasToken = true ∧ w.currentUser = some ⟨"a", some "a@x", "Firebase"⟩ ∧
      Runs.run World.step w [.findAppears (.rows ["b@x"]), .deliver 2 (.ok "")] = some t ∧
      t.currentUser = some ⟨"b", some "b@x", "Firebase"⟩ := by
  have hkill : ((Runs.run World.step (World.fresh ⟨twoFacebookUsers, ∅⟩ true)
        [.fbLogin true, .deliver 0 (.graph "a@x" "Ann"), .deliver 0 (.ok ""),
          .deliver 0 (.ok ""), .menuAppears (.rows ["a@x"]), .menuLogOut true true, .relaunch,
          .fbLogin true, .deliver 0 (.graph "b@x" "Bob"), .deliver 0 (.ok ""),
          .deliver 0 (.ok "")]).bind fun w =>
      (Runs.run World.step w
        [.findAppears (.rows ["b@x", "a@x"]), .deliver 0 (.ok "")]).map fun t =>
          decide (w.hasToken = true ∧ w.currentUser = some ⟨"b", some "b@x", "Firebase"⟩ ∧
            t.currentUser = some ⟨"a", some "a@x", "Firebase"⟩)) = some true := by
    decide
  have hoverlap : ((Runs.run World.step (World.fresh ⟨twoFacebookUsers, ∅⟩ true)
        [.fbLogin true, .deliver 0 (.graph "a@x" "Ann"),
          .googleSignIn (some ⟨some "b@x", some "Bob"⟩), .deliver 0 (.ok "")]).bind fun w =>
      (Runs.run World.step w [.findAppears (.rows ["b@x"]), .deliver 2 (.ok "")]).map fun t =>
          decide (w.hasToken = true ∧ w.currentUser = some ⟨"a", some "a@x", "Firebase"⟩ ∧
            t.currentUser = some ⟨"b", some "b@x", "Firebase"⟩)) = some true := by
    decide
  simp only [Option.bind_eq_some_iff, Option.map_eq_some_iff, decide_eq_true_eq] at hkill hoverlap
  obtain ⟨w, hw, t, ht, htok, hu, hu'⟩ := hkill
  obtain ⟨v, hv, s, hs, hvtok, hvu, hvu'⟩ := hoverlap
  exact ⟨⟨w, t, hw, htok, hu, ht, hu'⟩, v, s, hv, hvtok, hvu, hs, hvu'⟩

end StreetParker
