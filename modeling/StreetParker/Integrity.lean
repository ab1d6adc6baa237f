import StreetParker.Observers
import StreetParker.Recovery
import StreetParker.Screens

/-!
# StreetParker.Integrity

How the `users` tree and the account database fit together when any number of
installations write to them, whatever their steps and their order.

* `Filed` — every record is filed below the uid of an account, names the
  e-mail of one, and holds the five known keys only, all of them strings; car
  data is in it as a whole or not at all;
* `filed_of_run` — this holds in every tree of every run, and a new account
  never finds a record below its uid;
* `Grows`, `grows_of_run` — no account, no record and no key of a record is
  ever lost;
* `ownEmails_of_run` — as long as car data is delivered in sessions of the
  account that sent it, every record carries its own account's e-mail, so no
  two records share one.
-/

namespace StreetParker

open World Merge

/-! ## dictionaries -/

/-- A dictionary that writes strings below the keys of a record and deletes
nothing. -/
def Textual (d : UserData) : Prop := ∀ kv ∈ d, kv.1 ∈ carKeys ∧ ∃ s, kv.2 = some (.string s)

theorem textual_registrationData (a : Account) (name : Option String) :
    Textual (Dataservice.registrationData a.user name) := by
  cases name <;> simp [Textual, Dataservice.registrationData, Account.user, carKeys]

theorem textual_carData (em name plNumber color : String) (u : User) :
    Textual (Dataservice.carData em name plNumber color (some u)) := by
  simp [Textual, Dataservice.carData, carKeys]

/-- What the last write of such a dictionary to a key is. -/
theorem Textual.lastWrite {d : UserData} (h : Textual d) {key : String} {v : Option Value}
    (hv : lastWrite d key = some v) : key ∈ carKeys ∧ ∃ s, v = some (.string s) :=
  h _ (mem_of_lastWrite hv)

/-- A merge of such a dictionary keeps every key. -/
theorem Textual.isSome_merge {d : UserData} (h : Textual d) {r : Record} {key : String}
    (hr : r[key]?.isSome) : (merge r d)[key]?.isSome := by
  rw [getElem?_merge]
  cases hl : Merge.lastWrite d key with
  | none => exact hr
  | some v =>
      obtain ⟨_, s, rfl⟩ := h.lastWrite hl
      rfl

/-! ## records -/

/-- A record of the tree, filed below `uid`. -/
structure RecordOf (accounts : Accounts) (uid : Uid) (user : Record) : Prop where
  account : ∃ a ∈ accounts, a.uid = uid
  email : ∃ a ∈ accounts, user["email"]? = some (.string a.email)
  provider : user["provider"]? = some (.string "Firebase")
  strings : ∀ key v, user[key]? = some v → key ∈ carKeys ∧ ∃ s, v = .string s
  /-- plate and color come together, and with everything else -/
  car : user["License Plate"]?.isSome ∨ user["Car Color"]?.isSome →
    ∀ key ∈ carKeys, user[key]?.isSome

/-- The tree and the account database fit together. -/
def Filed (c : Cloud) : Prop :=
  ∀ (uid : Uid) (user : Record), c.users[uid]? = some user → RecordOf c.accounts uid user

theorem RecordOf.mono {accounts accounts' : Accounts} {uid : Uid} {user : Record}
    (h : RecordOf accounts uid user) (hacc : ∀ a ∈ accounts, a ∈ accounts') :
    RecordOf accounts' uid user := by
  obtain ⟨a, ha, hu⟩ := h.account
  obtain ⟨b, hb, he⟩ := h.email
  exact ⟨⟨a, hacc a ha, hu⟩, ⟨b, hacc b hb, he⟩, h.provider, h.strings, h.car⟩

/-- Below the uid of an account that is not there yet, nothing is filed. -/
theorem Filed.none_of_fresh {c : Cloud} (h : Filed c) {uid : Uid}
    (hu : uid ∉ c.accounts.toList.map Account.uid) : c.users[uid]? = none := by
  cases hc : c.users[uid]? with
  | none => rfl
  | some user =>
      obtain ⟨a, ha, rfl⟩ := (h uid user hc).account
      exact absurd (List.mem_map_of_mem ha) hu

/-- The strings of a merged record. -/
theorem Textual.strings_merge {d : UserData} (hd : Textual d) {r : Record}
    (hr : ∀ key v, r[key]? = some v → key ∈ carKeys ∧ ∃ s, v = .string s) (key : String)
    (v : Value) (hv : (merge r d)[key]? = some v) : key ∈ carKeys ∧ ∃ s, v = .string s := by
  rw [getElem?_merge] at hv
  cases hl : Merge.lastWrite d key with
  | none => exact hr key v (by simpa [hl] using hv)
  | some x =>
      obtain ⟨hk, s, rfl⟩ := hd.lastWrite hl
      exact ⟨hk, s, by simpa [hl] using hv.symm⟩

/-- The record of a registration. -/
theorem recordOf_registrationData {accounts : Accounts} {a : Account} (ha : a ∈ accounts)
    (name : Option String) :
    RecordOf accounts a.uid (merge ∅ (Dataservice.registrationData a.user name)) := by
  have hno : ∀ key, key = "License Plate" ∨ key = "Car Color" →
      (merge (∅ : Record) (Dataservice.registrationData a.user name))[key]? = none := by
    rintro key (rfl | rfl) <;> rw [getElem?_merge] <;> cases name <;>
      simp [Dataservice.registrationData, lastWrite]
  refine ⟨⟨a, ha, rfl⟩, ⟨a, ha, ?_⟩, ?_, ?_, ?_⟩
  · rw [getElem?_merge, lastWrite_registrationData_email rfl, Option.getD_some]
  · rw [getElem?_merge]
    cases name <;> simp [Dataservice.registrationData, lastWrite, Account.user]
  · exact (textual_registrationData a name).strings_merge (by simp)
  · rw [hno _ (.inl rfl), hno _ (.inr rfl)]
    simp

/-- The record of an upload, over whatever was there. -/
theorem recordOf_carData {accounts : Accounts} {a b : Account} (ha : a ∈ accounts)
    (hb : b ∈ accounts) {r : Record}
    (hr : ∀ key v, r[key]? = some v → key ∈ carKeys ∧ ∃ s, v = .string s)
    (name plNumber color : String) :
    RecordOf accounts a.uid
      (merge r (Dataservice.carData b.email name plNumber color (some a.user))) := by
  refine ⟨⟨a, ha, rfl⟩, ⟨b, hb, ?_⟩, ?_, (textual_carData _ _ _ _ _).strings_merge hr, ?_⟩
  · rw [getElem?_merge, lastWrite_carData_email, Option.getD_some]
  · rw [getElem?_merge]
    simp [Dataservice.carData, lastWrite, Account.user]
  · intro _ key hk
    rw [getElem?_merge]
    simp only [carKeys, List.mem_cons, List.not_mem_nil, or_false] at hk
    rcases hk with rfl | rfl | rfl | rfl | rfl <;> simp [Dataservice.carData, lastWrite]

/-! ## steps -/

/-- The writers of the tree, with the accounts they write for. -/
inductive Writes (w w' : World) (ev : Event) : Prop
  | nothing (he : w'.users = w.users)
  | registers (a : Account) (name : Option String) (ha : a ∈ w'.accounts)
      (hu : a.uid ∉ w.accounts.toList.map Account.uid)
      (he : w'.users =
        w.users.updateChildValues a.uid (Dataservice.registrationData a.user name))
  | uploads (a : Account) (o : Outcome) (flow : Flow) (vc : Nat)
      (em name plNumber color : String) (ha : a ∈ w.accounts) (hu : w.currentUser = some a.user)
      (hp : w.answering ev = some (o, ⟨flow, .carInfo vc em name plNumber color⟩))
      (hf : ∃ p ∈ w.users.snapshot, p.2["email"]? = some (.string em))
      (he : w'.users = w.users.updateChildValues a.uid
        (Dataservice.carData em name plNumber color (some a.user)))

/-- What one callback of `uploadCarInfo` writes: nothing, or the car data of
`em`, which has a record, below the uid of the session. -/
theorem uploadCarInfo_ok {em name plNumber color : String} {currentUser : Option User}
    {snapshot : Snapshot} {eff : Dataservice.Effects}
    (h : Dataservice.uploadCarInfo em name plNumber color currentUser snapshot = .ok eff) :
    eff.writes = [] ∨ ∃ u, currentUser = some u ∧
      (∃ p ∈ snapshot, p.2["email"]? = some (.string em)) ∧
      eff.writes = [(u.uid, Dataservice.carData em name plNumber color (some u))] := by
  rw [uploadCarInfo_eq] at h
  cases hsc : scan em snapshot with
  | stuck =>
      simp only [hsc] at h
      contradiction
  | missing =>
      simp only [hsc] at h
      cases h
      exact .inl rfl
  | found =>
      cases currentUser with
      | none =>
          simp only [hsc] at h
          contradiction
      | some u =>
          simp only [hsc] at h
          cases h
          exact .inr ⟨u, rfl, exists_of_scan_found hsc, rfl⟩

theorem writes_cases {w w' : World} {ev : Event} (hw : Sound w) (h : w.step ev = some w') :
    Writes w w' ev := by
  cases (step_cases h).2 with
  | @deliver i o p hp hf =>
      obtain ⟨flow, r⟩ := p
      have hc := complete_cases (w.taken i) flow o r
      dsimp only
      generalize World.complete _ flow o r = w' at hc
      cases hc with
      | @created email password name done a db hd ho =>
          obtain ⟨_, rfl, hl⟩ := createUserReply_some hd
          rw [userCreated_eq]
          cases hlands : o.writeLands with
          | false => exact .nothing (by simp [RegisterDone.after, World.taken])
          | true =>
              refine .registers ⟨o.uid, email, password⟩ name ?_ hf ?_
              · exact Accounts.mem_def.mpr (hl ▸ List.mem_cons_self)
              · simp [RegisterDone.after, World.taken, Dataservice.createDBUser]
      | @uploaded vc em name plNumber color eff users hd hus =>
          subst hus
          obtain hnil | ⟨u, hu, hfound, hone⟩ := uploadCarInfo_ok hd
          · exact .nothing (by simp [hnil, UsersTree.applyWrites, World.taken])
          · obtain ⟨a, ha, rfl⟩ := hw.account u hu
            cases hlands : o.writeLands with
            | false => exact .nothing (by simp [World.taken])
            | true =>
                refine .uploads a o flow vc em name plNumber color ha hu (answering_deliver hp)
                  hfound ?_
                simp [hone, UsersTree.applyWrites, World.taken, Account.user]
      | _ => exact .nothing rfl
  | @snapshot i ob ho =>
      obtain ⟨b, u, c, h, _⟩ := observer_deliver_eq ob w
      exact .nothing (by rw [h])
  | _ => exact .nothing rfl

/-- **Steps** keep the tree and the accounts together. -/
theorem Filed.step {w w' : World} {ev : Event} (h : Filed w.toCloud) (hw : Sound w)
    (hstep : w.step ev = some w') : Filed w'.toCloud := by
  have hacc := (Later.step hstep).accounts
  intro uid user huser
  cases writes_cases hw hstep with
  | nothing he => exact (h uid user (he ▸ huser)).mono hacc
  | registers a name ha hu he =>
      rw [he, UsersTree.updateChildValues, getElem?_mergeAt, h.none_of_fresh hu] at huser
      split at huser
      · next heq =>
          cases huser
          subst heq
          exact recordOf_registrationData ha name
      · exact (h uid user huser).mono hacc
  | uploads a o flow vc em name pl c ha hu hp hf he =>
      obtain ⟨⟨v, r⟩, hmem, hem⟩ := hf
      obtain ⟨b, hb, hbe⟩ := (h v r (mem_snapshot.mp hmem)).email
      obtain rfl : b.email = em := by
        have hval := hbe.symm.trans hem
        simpa using hval
      rw [he, UsersTree.updateChildValues, getElem?_mergeAt] at huser
      split at huser
      · next heq =>
          cases huser
          subst heq
          refine recordOf_carData (hacc a ha) (hacc b hb) ?_ name pl c
          intro key v hv
          cases hr : w.users[a.uid]? with
          | none => simp [hr] at hv
          | some r => exact (h _ r hr).strings key v (by simpa [hr] using hv)
      · exact (h uid user huser).mono hacc

/-! ## what is never lost -/

/-- A later state of the servers: the accounts, the records and the keys of
the records are still there. -/
structure Grows (c c' : Cloud) : Prop where
  accounts : ∀ a ∈ c.accounts, a ∈ c'.accounts
  users : ∀ (uid : Uid) (user : Record), c.users[uid]? = some user →
    ∃ user' : Record, c'.users[uid]? = some user' ∧
      ∀ key : String, user[key]?.isSome → user'[key]?.isSome

namespace Grows

variable {c c' c'' : Cloud}

theorem refl (c : Cloud) : Grows c c :=
  ⟨fun _ => id, fun _ user h => ⟨user, h, fun _ => id⟩⟩

theorem trans (h : Grows c c') (h' : Grows c' c'') : Grows c c'' := by
  refine ⟨fun a ha => h'.accounts a (h.accounts a ha), fun uid user hu => ?_⟩
  obtain ⟨user', hu', hk⟩ := h.users uid user hu
  obtain ⟨user'', hu'', hk'⟩ := h'.users uid user' hu'
  exact ⟨user'', hu'', fun key hs => hk' key (hk key hs)⟩

/-- A merge of a dictionary that deletes nothing. -/
theorem updateChildValues {d : UserData} (hd : Textual d) {uid : Uid}
    (hacc : ∀ a ∈ c.accounts, a ∈ c'.accounts) (he : c'.users = c.users.updateChildValues uid d) :
    Grows c c' := by
  refine ⟨hacc, fun v user hv => ?_⟩
  rw [he, UsersTree.updateChildValues, getElem?_mergeAt]
  split
  · next heq =>
      subst heq
      rw [hv, Option.getD_some]
      exact ⟨_, rfl, fun key hs => hd.isSome_merge hs⟩
  · exact ⟨user, hv, fun _ => id⟩

theorem step {w w' : World} {ev : Event} (hstep : w.step ev = some w') :
    Grows w.toCloud w'.toCloud := by
  have hacc := (Later.step hstep).accounts
  obtain he | ⟨a, name, _, _, he⟩ | ⟨_, _, _, _, em, name, pl, c, u, _, _, _, hu, _, _, he⟩ :=
    writes_of_step (step_cases hstep).2
  · exact ⟨hacc, fun uid user h => ⟨user, he ▸ h, fun _ => id⟩⟩
  · exact updateChildValues (textual_registrationData a name) hacc he
  · rw [hu] at he
    exact updateChildValues (textual_carData em name pl c u) hacc he

end Grows

/-! ## e-mails of one's own -/

/-- Every record carries the e-mail of the account it is filed below. -/
def OwnEmails (c : Cloud) : Prop :=
  ∀ (uid : Uid) (user : Record), c.users[uid]? = some user →
    ∃ a ∈ c.accounts, a.uid = uid ∧ user["email"]? = some (.string a.email)

/-- Car data is delivered in a session of the account it was sent for. -/
def OwnUploads (w : World) (ev : Event) : Prop :=
  ∀ a ∈ w.accounts.toList, OwnUpload a w ev

instance (w : World) (ev : Event) : Decidable (OwnUploads w ev) :=
  inferInstanceAs (Decidable (∀ a ∈ w.accounts.toList, OwnUpload a w ev))

theorem OwnEmails.updateChildValues {c c' : Cloud} (h : OwnEmails c) {a : Account} {d : UserData}
    (hacc : ∀ a ∈ c.accounts, a ∈ c'.accounts) (ha : a ∈ c'.accounts)
    (hd : lastWrite d "email" = some (some (.string a.email)))
    (he : c'.users = c.users.updateChildValues a.uid d) : OwnEmails c' := by
  intro uid user hu
  rw [he, UsersTree.updateChildValues, getElem?_mergeAt] at hu
  split at hu
  · next heq =>
      cases hu
      exact ⟨a, ha, heq, by rw [getElem?_merge, hd, Option.getD_some]⟩
  · obtain ⟨b, hb, hrest⟩ := h uid user hu
    exact ⟨b, hacc b hb, hrest⟩

theorem OwnEmails.step {w w' : World} {ev : Event} (h : OwnEmails w.toCloud) (hw : Sound w)
    (hown : OwnUploads w ev) (hstep : w.step ev = some w') : OwnEmails w'.toCloud := by
  have hacc := (Later.step hstep).accounts
  cases writes_cases hw hstep with
  | nothing he =>
      intro uid user hu
      obtain ⟨a, ha, hrest⟩ := h uid user (he ▸ hu)
      exact ⟨a, hacc a ha, hrest⟩
  | registers a name ha _ he =>
      exact h.updateChildValues hacc ha (lastWrite_registrationData_email rfl name) he
  | uploads a o flow vc em name pl c ha hu hp _ he =>
      have hem : em = a.email := hown a ha _ hp (by rw [hu]; rfl)
      refine h.updateChildValues hacc (hacc a ha) ?_ he
      rw [lastWrite_carData_email, hem]

/-- Records with e-mails of their own are told apart by them. -/
theorem OwnEmails.distinct {c : Cloud} (h : OwnEmails c) : c.users.snapshot.DistinctEmails := by
  have hkeys : c.users.snapshot.Pairwise fun p q => p.1 ≠ q.1 :=
    Std.ExtTreeMap.distinct_keys_toList.imp fun hne heq => hne (by simp [heq])
  refine (List.pairwise_iff_forall_sublist.mpr fun {p q} hsub hem => ?_)
  have hne := List.pairwise_iff_forall_sublist.mp hkeys hsub
  obtain ⟨a, ha, hau, hae⟩ := h p.1 p.2 (mem_snapshot.mp (hsub.subset (by simp)))
  obtain ⟨b, hb, hbu, hbe⟩ := h q.1 q.2 (mem_snapshot.mp (hsub.subset (by simp)))
  have hval : a.email = b.email := by
    have he := (hae.symm.trans hem).trans hbe
    simpa using he
  exact hne (by rw [← hau, ← hbu, Accounts.eq_of_email ha hb hval])

/-! ## runs of a system -/

/-- The value a record below `uid` holds. -/
def fieldOf (uid : Uid) (key : String) (t : System Bool) : Option Value :=
  t.cloud.users[uid]?.bind fun user : Record => user[key]?

theorem run_registerAndUpload :
    ∃ t : System Bool,
      Runs.run System.step (System.fresh Accounts.empty fun _ => true) registerAndUpload =
        some t ∧ fieldOf "u" "Car Color" t = some (.string "red") :=
  Option.map_eq_some_iff.mp (show (Runs.run System.step
    (System.fresh Accounts.empty fun _ : Bool => true) registerAndUpload).map
      (fieldOf "u" "Car Color") = some (some (.string "red")) by decide)

section Systems

variable {ι : Type*} [DecidableEq ι]

/-- **Rule for one installation**: a property that its own steps keep and that
is not disturbed by the accounts others create, whatever happens to the tree,
is kept by every step of the system. -/
theorem System.view_kept {P : World → Prop}
    (hstep : ∀ w ev w', P w → World.step w ev = some w' → P w')
    (hgrow : ∀ (c c' : Cloud) (p : Phone), (∀ a ∈ c.accounts, a ∈ c'.accounts) → P ⟨c, p⟩ →
      P ⟨c', p⟩) (i : ι) (s : System ι) (e : ι × Event) (s' : System ι) (h : P (s.view i))
    (hs : s.step e = some s') : P (s'.view i) := by
  obtain ⟨j, ev⟩ := e
  have hview := System.view_of_step hs
  by_cases hij : i = j
  · subst hij
    exact hstep _ ev _ h hview
  · rw [System.view, System.phone_of_step hs hij]
    exact hgrow _ _ _ (Later.step hview).accounts h

/-- The accounts that other installations create leave a state sound. -/
theorem Sound.of_accounts {c c' : Cloud} {p : Phone} (h : Sound ⟨c, p⟩)
    (hacc : ∀ a ∈ c.accounts, a ∈ c'.accounts) : Sound ⟨c', p⟩ := by
  refine ⟨h.stack, h.emailLogged, fun u hu => ?_, h.button, h.token⟩
  obtain ⟨a, ha, he⟩ := h.account u hu
  exact ⟨a, hacc a ha, he⟩

/-- What holds of the servers and of every installation. -/
structure System.Integral (s : System ι) : Prop where
  sound : ∀ i, Sound (s.view i)
  filed : Filed s.cloud

theorem System.Integral.step {s s' : System ι} {e : ι × Event} (h : s.Integral)
    (hstep : s.step e = some s') : s'.Integral := by
  refine ⟨fun i => ?_, h.filed.step (h.sound e.1) (System.view_of_step hstep)⟩
  exact System.view_kept (fun _ _ _ hs => hs.step) (fun _ _ _ hacc hs => hs.of_accounts hacc) i s e
    s' (h.sound i) hstep

omit [DecidableEq ι] in
theorem System.integral_fresh (accounts : Accounts) (available13 : ι → Bool) :
    (System.fresh accounts available13).Integral :=
  ⟨fun i => sound_fresh ⟨accounts, ∅⟩ (available13 i), fun uid user h => by simp [fresh] at h⟩

theorem System.integral_of_run {accounts : Accounts} {available13 : ι → Bool}
    {es : List (ι × Event)} {t : System ι}
    (h : Runs.run System.step (System.fresh accounts available13) es = some t) : t.Integral :=
  Runs.inv_of_run' (fun _ _ _ hs hstep => hs.step hstep) h
    (System.integral_fresh accounts available13)

/-- **Integrity.**  However installations that start from an empty tree
interleave their steps, every record is filed below the uid of an account and
names the e-mail of one, its keys are known and hold strings, plate and color
come with everything else, and every session is a session of an account. -/
theorem filed_of_run (accounts : Accounts) (available13 : ι → Bool) (es : List (ι × Event))
    (t : System ι)
    (h : Runs.run System.step (System.fresh accounts available13) es = some t) :
    Filed t.cloud ∧
      ∀ i u, (t.phones i).currentUser = some u → ∃ a ∈ t.cloud.accounts, a.user = u := by
  have hint := System.integral_of_run h
  exact ⟨hint.filed, fun i u hu => (hint.sound i).account u hu⟩

theorem filed_registerAndUpload :
    ∃ t : System Bool,
      Runs.run System.step (System.fresh Accounts.empty fun _ => true) registerAndUpload =
        some t ∧ fieldOf "u" "Car Color" t = some (.string "red") ∧ Filed t.cloud := by
  obtain ⟨t, h, hc⟩ := run_registerAndUpload
  exact ⟨t, h, hc, (filed_of_run Accounts.empty (fun _ => true) _ t h).1⟩

theorem Grows.run {s t : System ι} {es : List (ι × Event)}
    (h : Runs.run System.step s es = some t) : Grows s.cloud t.cloud :=
  Runs.rel_of_run (R := fun s t : System ι => Grows s.cloud t.cloud) (fun s => Grows.refl s.cloud)
    (fun _ _ _ => Grows.trans) (fun _ _ _ hstep => Grows.step (System.view_of_step hstep)) h

/-- **Nothing is ever lost.**  Whatever state a system is in, after any run of
its installations every account, every record and every key of a record is
still there. -/
theorem grows_of_run (s t : System ι) (es : List (ι × Event))
    (h : Runs.run System.step s es = some t) : Grows s.cloud t.cloud :=
  Grows.run h

/-- The record of the registration survives the upload. -/
theorem grows_registerAndUpload :
    ∃ s t : System Bool,
      fieldOf "u" "email" s = some (.string "a@x") ∧
      Runs.run System.step s [(true, .editUpload "Ann" "ABC" "red"), (true, .donePressed),
        (false, .deliver 0 (.ok "v")), (true, .deliver 0 (.ok "u"))] = some t ∧
      Grows s.cloud t.cloud := by
  obtain ⟨t, h, _⟩ := run_registerAndUpload
  obtain ⟨s, hs, ht⟩ := Runs.exists_of_run_append h
  refine ⟨s, t, ?_, ht, grows_of_run s t _ ht⟩
  have he : (Runs.run System.step (System.fresh Accounts.empty fun _ : Bool => true)
      registrations).map (fieldOf "u" "email") = some (some (.string "a@x")) := by decide
  rw [hs] at he
  exact Option.some.inj he

/-- **E-mails of one's own.**  In every run whose callbacks of `uploadCarInfo`
are delivered in sessions of the account the data was sent for, every record
carries the e-mail of the account it is filed below; no two records share an
e-mail, so a reader that looks for an account's e-mail finds that account's
record and no other. -/
theorem ownEmails_of_run (accounts : Accounts) (available13 : ι → Bool) (es : List (ι × Event))
    (t : System ι)
    (h : Runs.run System.step (System.fresh accounts available13) es = some t)
    (hown : Runs.Meets System.step (fun s e => OwnUploads (s.view e.1) e.2)
      (System.fresh accounts available13) es) :
    OwnEmails t.cloud ∧ t.cloud.users.snapshot.DistinctEmails ∧
      ∀ a ∈ t.cloud.accounts, ∀ user : Record, t.cloud.users[a.uid]? = some user →
        t.cloud.users.snapshot.recordsOf a.email = [(a.uid, user)] := by
  have hinv : t.Integral ∧ OwnEmails t.cloud := by
    refine Runs.inv_of_run (P := fun s : System ι => s.Integral ∧ OwnEmails s.cloud) ?_ h hown
      ⟨System.integral_fresh accounts available13, fun uid user hu => by
        simp [System.fresh] at hu⟩
    rintro s ⟨j, ev⟩ s' ⟨hs, ho⟩ hC hstep
    exact ⟨hs.step hstep, ho.step (hs.sound j) hC (System.view_of_step hstep)⟩
  refine ⟨hinv.2, hinv.2.distinct, fun a ha user hu => ?_⟩
  obtain ⟨b, hb, hbu, hbe⟩ := hinv.2 a.uid user hu
  obtain rfl : b = a := Accounts.eq_of_uid hb ha hbu
  exact hinv.2.distinct.recordsOf_eq (p := (b.uid, user)) (mem_snapshot.mpr hu) hbe

theorem ownEmails_registerAndUpload :
    ∃ t : System Bool,
      Runs.run System.step (System.fresh Accounts.empty fun _ => true) registerAndUpload =
        some t ∧ fieldOf "u" "Car Color" t = some (.string "red") ∧ OwnEmails t.cloud := by
  obtain ⟨t, h, hc⟩ := run_registerAndUpload
  have hown : Runs.Meets System.step (fun s e => OwnUploads (s.view e.1) e.2)
      (System.fresh Accounts.empty fun _ : Bool => true) registerAndUpload := by decide
  exact ⟨t, h, hc, (ownEmails_of_run Accounts.empty (fun _ => true) _ t h hown).1⟩

end Systems

end StreetParker
