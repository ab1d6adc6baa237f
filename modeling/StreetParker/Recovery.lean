import StreetParker.CarInfo
import StreetParker.History

/-!
# StreetParker.Recovery

What becomes of the record of an account.  It is written once, when the phone
hears that the account was created, and nobody waits for that write; no login
flow writes it again.

* `Recorded` — the account's record is in the tree, with its e-mail;
* `Unrecorded` — no record of the e-mail is in the tree;
* `record_of_run` — a record that has landed stays, and one that is missing is
  never made up for.
-/

namespace StreetParker

open World Merge

/-! ## the record of an account -/

/-- The account's record is in the tree below its uid, with its e-mail. -/
structure Recorded (a : Account) (w : World) : Prop where
  schema : Schema w.users
  account : a ∈ w.accounts
  record : ∃ user : Record, w.users[a.uid]? = some user ∧
    user["email"]? = some (.string a.email)

/-- The account exists and no record has its e-mail. -/
structure Unrecorded (a : Account) (w : World) : Prop where
  account : a ∈ w.accounts
  missing : ∀ (uid : Uid) (user : Record), w.users[uid]? = some user →
    user["email"]? ≠ some (.string a.email)

/-- Car data that is delivered in a session of the account is its own. -/
def Request.OwnUpload (a : Account) (w : World) : Request → Prop
  | .carInfo _ em _ _ _ => w.currentUser.map User.uid = some a.uid → em = a.email
  | _ => True

/-- In a session of the account only its own car data is delivered. -/
def OwnUpload (a : Account) (w : World) (ev : Event) : Prop :=
  ∀ p ∈ w.answering ev, p.2.request.OwnUpload a w

instance (a : Account) (w : World) : (r : Request) → Decidable (r.OwnUpload a w)
  | .carInfo _ _ _ _ _ => inferInstanceAs (Decidable (_ → _))
  | .graph _ | .signIn _ _ _ | .createUser _ _ _ _ => inferInstanceAs (Decidable True)

instance (a : Account) (w : World) (ev : Event) : Decidable (OwnUpload a w ev) :=
  inferInstanceAs (Decidable (∀ p ∈ w.answering ev, p.2.request.OwnUpload a w))

variable {a : Account} {w w' : World}

/-- A write that names an e-mail leaves that e-mail in its record. -/
theorem email_updateChildValues {users : UsersTree} {uid : Uid} {d : UserData} {e : String}
    (hd : lastWrite d "email" = some (some (.string e))) :
    ∃ user : Record, (users.updateChildValues uid d)[uid]? = some user ∧
      user["email"]? = some (.string e) :=
  ⟨_, getElem?_mergeAt_self _ _ _, by rw [getElem?_merge, hd, Option.getD_some]⟩

/-! ## a record that has landed -/

theorem Recorded.step (h : Recorded a w) {ev : Event} (hstep : w.step ev = some w')
    (hown : OwnUpload a w ev) : Recorded a w' := by
  refine ⟨schema_step hstep h.schema, (Later.step hstep).accounts a h.account, ?_⟩
  obtain ⟨user, hu, he⟩ := h.record
  obtain hs | ⟨b, name, _, hb, hs⟩ | ⟨i, o, flow, vc, em, name, pl, c, u, eff, rfl, hp, hsome,
    _, _, hs⟩ := writes_of_step (step_cases hstep).2
  · rw [hs]
    exact ⟨user, hu, he⟩
  · -- the new account has a uid of its own
    have hne : b.uid ≠ a.uid := fun heq => hb (heq ▸ List.mem_map_of_mem h.account)
    rw [hs, UsersTree.updateChildValues, getElem?_mergeAt_of_ne hne]
    exact ⟨user, hu, he⟩
  · rw [hs]
    by_cases hne : u.uid = a.uid
    · have hem : em = a.email := by
        exact hown _ (answering_deliver hp) (by rw [hsome, Option.map_some, hne])
      rw [hne, ← hem]
      exact email_updateChildValues (lastWrite_carData_email em name pl c _)
    · rw [UsersTree.updateChildValues, getElem?_mergeAt_of_ne hne]
      exact ⟨user, hu, he⟩

/-- With the record in the tree `uploadCarInfo` finds its match, in any
session, and calls its handler once. -/
theorem Recorded.uploadCarInfo (h : Recorded a w) (name plNumber color : String) (u : User) :
    ∃ writes, Dataservice.uploadCarInfo a.email name plNumber color (some u) w.users.snapshot =
      .ok ⟨writes, [a.email ++ " Updated to Firebase: uploadCarInfo"]⟩ := by
  obtain ⟨user, hu, he⟩ := h.record
  have hscan : scan a.email w.users.snapshot = .found :=
    scan_found (p := (a.uid, user)) (fun p hp => h.schema p.1 p.2 (mem_snapshot.mp hp))
      (mem_snapshot.mpr hu) he
  rw [uploadCarInfo_eq, hscan]
  exact ⟨_, rfl⟩

/-! ## a record that is missing -/

/-- Nobody else can register the e-mail, and a callback only writes the e-mail
of a record it has found. -/
theorem Unrecorded.step (h : Unrecorded a w) {ev : Event} (hstep : w.step ev = some w') :
    Unrecorded a w' := by
  refine ⟨(Later.step hstep).accounts a h.account, ?_⟩
  have hwrite : ∀ {uid : Uid} {d : UserData} {e : String},
      lastWrite d "email" = some (some (.string e)) → e ≠ a.email →
      w'.users = w.users.updateChildValues uid d →
      ∀ (v : Uid) (user : Record), w'.users[v]? = some user →
        user["email"]? ≠ some (.string a.email) := by
    intro uid d e hd hne hs v user hv he
    rw [hs, UsersTree.updateChildValues, getElem?_mergeAt] at hv
    split at hv
    · cases hv
      rw [getElem?_merge, hd, Option.getD_some] at he
      exact hne (by simpa using he)
    · exact h.missing v user hv he
  obtain hs | ⟨b, name, hfree, _, hs⟩ | ⟨i, o, flow, vc, em, name, pl, c, u, eff, rfl, hp, hsome,
    hup, hh, hs⟩ := writes_of_step (step_cases hstep).2
  · rw [hs]
    exact h.missing
  · refine hwrite (lastWrite_registrationData_email rfl name) (fun heq => ?_) hs
    exact hfree.2 (heq ▸ List.mem_map_of_mem h.account)
  · refine hwrite (lastWrite_carData_email em name pl c _) (fun heq => ?_) hs
    -- a callback that writes has found a record of its e-mail
    rw [uploadCarInfo_eq] at hup
    cases hscan : scan em w.users.snapshot with
    | stuck => simp [hscan] at hup
    | missing =>
        rw [hscan] at hup
        cases hup
        exact hh rfl
    | found =>
        obtain ⟨⟨v, user⟩, hin, he⟩ := exists_of_scan_found hscan
        exact h.missing v user (mem_snapshot.mp hin) (by rw [← heq]; exact he)

/-! ## registration -/

/-- A registration the server accepts: the account is there, and if the phone
hears of it and its write lands, so is the record. -/
theorem created_of_step {i : Nat} {o : Outcome} {flow : Flow} {email password : String}
    {name : Option String} {done : RegisterDone} {db : Accounts}
    (hp : w.pending[i]? = some ⟨flow, .createUser email password name done⟩)
    (ha : w.createUserReply o email password = some (a, db))
    (hstep : w.step (.deliver i o) = some w') :
    a ∈ w'.accounts ∧ (o.answer = .answered → o.writeLands = true →
      w'.users = w.users.updateChildValues a.uid (Dataservice.registrationData a.user name)) := by
  have hin : a ∈ db := by
    rw [Accounts.mem_def, (createUserReply_some ha).2.2]
    exact List.mem_cons_self
  obtain ⟨p, hp', _, rfl⟩ := deliver_of_step hstep
  cases hp.symm.trans hp'
  have hd := complete_cases (w.taken i) flow o (.createUser email password name done)
  generalize World.complete _ flow o _ = w' at hd
  cases hd with
  | created ha' ho =>
      cases ha.symm.trans ha'
      rw [userCreated_eq]
      refine ⟨hin, fun _ hw => ?_⟩
      rw [RegisterDone.after, if_pos hw]
      rfl
  | createdUnheard ha' ho =>
      cases ha.symm.trans ha'
      exact ⟨hin, fun ho' => absurd ho' ho⟩
  | notCreated ha' => cases ha.symm.trans ha'

/-- **The record of a registration.**  Take any registration that the server
accepts, and any run after it, with kills, rejected writes and logins.  If the
phone heard of it and the write of the record landed, and only the account's
own car data is delivered in its sessions, then its record is in the tree and
`uploadCarInfo` finds it and calls its handler once, whoever is signed in.  If
no record of the e-mail was there after the registration, none is there later:
no login makes up for it. -/
theorem record_of_run (cloud : Cloud) (hschema : Schema cloud.users) (available13 : Bool)
    (es : List Event) (w : World)
    (h : Runs.run World.step (World.fresh cloud available13) es = some w) (i : Nat) (o : Outcome)
    (flow : Flow) (email password : String) (name : Option String) (done : RegisterDone)
    (hp : w.pending[i]? = some ⟨flow, .createUser email password name done⟩) (a : Account)
    (db : Accounts) (ha : w.createUserReply o email password = some (a, db)) (w₁ : World)
    (hstep : w.step (.deliver i o) = some w₁) (es' : List Event) (t : World)
    (h' : Runs.run World.step w₁ es' = some t) :
    (o.answer = .answered → o.writeLands = true → Runs.Meets World.step (OwnUpload a) w₁ es' →
      (∃ user : Record, t.users[a.uid]? = some user ∧ user["email"]? = some (.string email)) ∧
      ∀ name plNumber color u, t.currentUser = some u →
        ∃ writes, Dataservice.uploadCarInfo email name plNumber color t.currentUser
            t.users.snapshot =
          .ok ⟨writes, [email ++ " Updated to Firebase: uploadCarInfo"]⟩) ∧
    ((∀ (uid : Uid) (user : Record), w₁.users[uid]? = some user →
        user["email"]? ≠ some (.string email)) →
      ∀ (uid : Uid) (user : Record), t.users[uid]? = some user →
        user["email"]? ≠ some (.string email)) := by
  have hw : Schema w.users :=
    Runs.inv_of_run' (P := fun w => Schema w.users) (fun _ _ _ hs hstep => schema_step hstep hs) h
      (by simpa [World.fresh, AppDelegate.didFinishLaunching, World.presentAuth] using hschema)
  obtain ⟨hin, hrec⟩ := created_of_step hp ha hstep
  have he : a.email = email := by rw [(createUserReply_some ha).2.1]
  subst he
  refine ⟨fun ho hl hown => ?_, fun hno => ?_⟩
  · have h₁ : Recorded a w₁ := by
      refine ⟨schema_step hstep hw, hin, ?_⟩
      rw [hrec ho hl]
      exact email_updateChildValues (lastWrite_registrationData_email rfl name)
    have ht : Recorded a t :=
      Runs.inv_of_run (fun _ _ _ hr hC hstep => hr.step hstep hC) h' hown h₁
    refine ⟨ht.record, fun name plNumber color u hu => ?_⟩
    rw [hu]
    exact ht.uploadCarInfo name plNumber color u
  · have ht : Unrecorded a t :=
      Runs.inv_of_run' (fun _ _ _ hr hstep => hr.step hstep) h' ⟨hin, hno⟩
    exact ht.missing

/-- A Facebook registration that is killed before its second sign-in, and a
login after it. -/
theorem record_of_run_killed :
    ∃ t : World, (∃ user : Record, t.users["u"]? = some user ∧
        user["email"]? = some (.string "a@x")) ∧
      t.currentUser = some ⟨"u", some "a@x", "Firebase"⟩ := by
  have hrun : ((Runs.run World.step (World.fresh ⟨Accounts.empty, ∅⟩ true)
      [.fbLogin true, .deliver 0 (.graph "a@x" "Ann"), .deliver 0 (.ok "")]).bind fun w =>
      (w.step (.deliver 0 (.ok "u"))).bind fun w₁ =>
        (Runs.run World.step w₁
          [.relaunch, .menuAppears (.rows []), .menuLogOut true true, .fbLogin true,
            .deliver 0 (.graph "a@x" "Ann"), .deliver 0 (.ok "")]).map fun t =>
          decide (w.pending = [⟨⟨0, .facebook⟩, .createUser "a@x" "FBUser" (some "Ann")
              (.social 0 "FBUser")⟩] ∧
            (w.createUserReply (.ok "u") "a@x" "FBUser").map Prod.fst =
              some ⟨"u", "a@x", "FBUser"⟩ ∧
            t.currentUser = some ⟨"u", some "a@x", "Firebase"⟩ ∧
            Runs.Meets World.step (OwnUpload ⟨"u", "a@x", "FBUser"⟩) w₁
              [.relaunch, .menuAppears (.rows []), .menuLogOut true true, .fbLogin true,
                .deliver 0 (.graph "a@x" "Ann"), .deliver 0 (.ok "")])) = some true := by
    decide
  simp only [Option.bind_eq_some_iff, Option.map_eq_some_iff, decide_eq_true_eq] at hrun
  obtain ⟨w, hw, w₁, hw₁, t, ht, hp, ⟨⟨a, db⟩, ha, rfl⟩, hu, hown⟩ := hrun
  exact ⟨t, ((record_of_run ⟨Accounts.empty, ∅⟩ schema_empty true _ w hw 0 (.ok "u") _ "a@x"
    "FBUser" _ _ (by rw [hp]; rfl) _ db ha w₁ hw₁ _ t ht).1 rfl rfl hown).1, hu⟩

/-- The write of the record is rejected.  Every later login finds the account
and no record, and `uploadCarInfo` does not call its handler. -/
theorem not_recorded_after_login :
    ∃ t, Runs.run World.step (World.fresh ⟨Accounts.empty, ∅⟩ true)
        [.fbLogin true, .deliver 0 (.graph "a@x" "Ann"), .deliver 0 (.ok ""),
          .deliver 0 ⟨.answered, none, "u", false, true, true⟩, .relaunch,
          .menuAppears (.rows []), .menuLogOut true true, .fbLogin true,
          .deliver 0 (.graph "a@x" "Ann"), .deliver 0 (.ok ""), .deliver 0 (.ok "")] = some t ∧
      t.pending = [] ∧ t.currentUser = some ⟨"u", some "a@x", "Firebase"⟩ ∧
      (∀ (uid : Uid) (user : Record), t.users[uid]? ≠ some user) ∧
      ∀ name plNumber color, ∃ eff, Dataservice.uploadCarInfo "a@x" name plNumber color
        t.currentUser t.users.snapshot = .ok eff ∧ eff.handled = [] := by
  have hdec : (Runs.run World.step (World.fresh ⟨Accounts.empty, ∅⟩ true)
      [.fbLogin true, .deliver 0 (.graph "a@x" "Ann"), .deliver 0 (.ok ""),
        .deliver 0 ⟨.answered, none, "u", false, true, true⟩, .relaunch,
        .menuAppears (.rows []), .menuLogOut true true, .fbLogin true,
        .deliver 0 (.graph "a@x" "Ann"), .deliver 0 (.ok ""), .deliver 0 (.ok "")]).map (fun t =>
      decide (t.pending = [] ∧ t.currentUser = some ⟨"u", some "a@x", "Firebase"⟩ ∧
        t.users.snapshot = [])) = some true := by
    decide
  simp only [Option.map_eq_some_iff, decide_eq_true_eq] at hdec
  obtain ⟨t, ht, hp, hu, hs⟩ := hdec
  refine ⟨t, ht, hp, hu, fun uid user hin => ?_, fun name plNumber color => ?_⟩
  · have hmem := mem_snapshot.mpr hin
    rw [hs] at hmem
    exact List.not_mem_nil hmem
  · rw [hs]
    exact ⟨_, rfl, rfl⟩

end StreetParker
