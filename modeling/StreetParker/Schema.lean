import StreetParker.Steps

/-!
# StreetParker.Schema

The readers of the `users` tree force-cast the `email` and `Name` of every
record they walk over.  This module proves that they may: in every tree that
any number of installations can produce together, every record has a string
e-mail and its name, if there is one, is a string.

* `WritesSchema` — what a dictionary must bring along to keep the schema; both
  dictionaries of the application do;
* `users_of_step` — a step leaves the tree alone or merges such a dictionary;
* `System` — installations that share the servers and interleave their steps;
* `schema_of_run` — the schema in every tree of every run of a system.
-/

namespace StreetParker

open World Merge

/-! ## records and dictionaries -/

/-- A record the readers can cast. -/
structure WellFormed (user : Record) : Prop where
  email : ∃ s, user["email"]? = some (.string s)
  name : ∀ v, user["Name"]? = some v → ∃ s, v = .string s

/-- Every record of the tree is well-formed. -/
def Schema (users : UsersTree) : Prop :=
  ∀ (uid : Uid) (user : Record), users[uid]? = some user → WellFormed user

/-- A dictionary that writes a string e-mail and no name but a string. -/
structure WritesSchema (d : UserData) : Prop where
  email : ∃ s, lastWrite d "email" = some (some (.string s))
  name : ∀ v, lastWrite d "Name" = some (some v) → ∃ s, v = .string s

theorem schema_empty : Schema ∅ := by
  intro uid user h
  simp at h

/-- Merging such a dictionary into a record that is missing or well-formed. -/
theorem WritesSchema.merge {d : UserData} (hd : WritesSchema d) {r : Option Record}
    (hr : ∀ user, r = some user → WellFormed user) : WellFormed (merge (r.getD ∅) d) := by
  refine ⟨?_, ?_⟩
  · obtain ⟨s, hs⟩ := hd.email
    exact ⟨s, by rw [getElem?_merge, hs, Option.getD_some]⟩
  · intro v hv
    rw [getElem?_merge] at hv
    cases hl : lastWrite d "Name" with
    | some w =>
        rw [hl, Option.getD_some] at hv
        exact hd.name v (by rw [hl, hv])
    | none =>
        rw [hl, Option.getD_none] at hv
        cases r with
        | none => simp at hv
        | some user => exact (hr user rfl).name v hv

theorem Schema.updateChildValues {users : UsersTree} (h : Schema users) {d : UserData}
    (hd : WritesSchema d) (uid : Uid) : Schema (users.updateChildValues uid d) := by
  intro v user hv
  rw [UsersTree.updateChildValues, getElem?_mergeAt] at hv
  split at hv
  · cases hv
    exact hd.merge fun user hu => h uid user hu
  · exact h v user hv

/-- Registration writes the e-mail of the created account. -/
theorem lastWrite_registrationData_email {user : User} {e : String} (he : user.email = some e)
    (name : Option String) :
    lastWrite (Dataservice.registrationData user name) "email" = some (some (.string e)) := by
  cases name <;> simp [Dataservice.registrationData, lastWrite, he]

/-- A created account has an e-mail. -/
theorem writesSchema_registrationData {user : User} {e : String} (he : user.email = some e)
    (name : Option String) : WritesSchema (Dataservice.registrationData user name) := by
  refine ⟨⟨e, lastWrite_registrationData_email he name⟩, fun v hv => ?_⟩
  cases name with
  | none => simp [Dataservice.registrationData, lastWrite] at hv
  | some n =>
      simp only [Dataservice.registrationData, lastWrite, List.cons_append, List.nil_append,
        List.foldl_cons, List.foldl_nil, if_true, Option.some.injEq] at hv
      exact ⟨n, hv.symm⟩

/-- Upload writes: whatever session the callback finds, the e-mail and the
name are strings of the call. -/
theorem writesSchema_carData (em name plNumber color : String) (currentUser : Option User) :
    WritesSchema (Dataservice.carData em name plNumber color currentUser) := by
  refine ⟨⟨em, by simp [Dataservice.carData, lastWrite]⟩, ?_⟩
  intro v hv
  simp [Dataservice.carData, lastWrite] at hv
  exact ⟨name, hv.symm⟩

/-! ## the readers -/

theorem stringChild_email {user : Record} (h : WellFormed user) :
    ∃ s, Dataservice.stringChild user "email" .emailCast = .ok s ∧
      user["email"]? = some (.string s) := by
  obtain ⟨s, hs⟩ := h.email
  exact ⟨s, by simp only [Dataservice.stringChild, hs], hs⟩

/-- A well-formed snapshot never stops `printAllEmails`. -/
theorem printAllEmails_ok {snapshot : Snapshot} (h : ∀ p ∈ snapshot, WellFormed p.2)
    (emailArray : List String) :
    ∃ emails, Dataservice.printAllEmails emailArray snapshot = .ok emails := by
  induction snapshot generalizing emailArray with
  | nil => exact ⟨emailArray, rfl⟩
  | cons p rest ih =>
      obtain ⟨s, hs, _⟩ := stringChild_email (h p List.mem_cons_self)
      obtain ⟨emails, he⟩ := ih (fun q hq => h q (List.mem_cons_of_mem p hq)) (emailArray ++ [s])
      refine ⟨emails, ?_⟩
      rw [Dataservice.printAllEmails, hs]
      exact he

/-- The name of a well-formed record is found unless the fallback is needed and
nobody is signed in. -/
theorem displayName_trap {user : Record} (h : WellFormed user) {currentUser : Option User}
    {trap : Trap} (ht : Dataservice.displayName currentUser user = .error trap) :
    trap = .fallbackUnwrap := by
  unfold Dataservice.displayName at ht
  split at ht
  · next hname =>
      have hsome : user["Name"]?.isSome := by
        rwa [Std.ExtTreeMap.isSome_getElem?_eq_contains]
      obtain ⟨v, hv⟩ := Option.isSome_iff_exists.mp hsome
      obtain ⟨n, rfl⟩ := h.name v hv
      simp [Dataservice.stringChild, hv] at ht
  · split at ht
    · contradiction
    · cases ht
      rfl

/-- On a well-formed snapshot `getNameForEmail` can only stop at its fallback,
the unwrap of the session's e-mail. -/
theorem getNameForEmail_trap {snapshot : Snapshot} (h : ∀ p ∈ snapshot, WellFormed p.2)
    {em : String} {currentUser : Option User} {trap : Trap}
    (ht : Dataservice.getNameForEmail em currentUser snapshot = .error trap) :
    trap = .fallbackUnwrap := by
  induction snapshot with
  | nil => simp [Dataservice.getNameForEmail] at ht
  | cons p rest ih =>
      obtain ⟨uid, user⟩ := p
      have hp := h (uid, user) List.mem_cons_self
      have ih := ih fun q hq => h q (List.mem_cons_of_mem _ hq)
      obtain ⟨s, hs, _⟩ := stringChild_email hp
      simp only [Dataservice.getNameForEmail, hs, bind, Except.bind] at ht
      split at ht
      · cases hn : Dataservice.displayName currentUser user with
        | error t =>
            simp only [hn, Except.error.injEq] at ht
            rw [← ht]
            exact displayName_trap hp hn
        | ok name =>
            cases hr : Dataservice.getNameForEmail em currentUser rest with
            | error t =>
                simp only [hn, hr, Except.error.injEq] at ht
                exact ih (by rw [hr, ht])
            | ok names => simp [hn, hr, pure, Except.pure] at ht
      · exact ih ht

/-- On a well-formed snapshot `uploadCarInfo` can only stop at `uid!`. -/
theorem uploadCarInfo_trap {snapshot : Snapshot} (h : ∀ p ∈ snapshot, WellFormed p.2)
    {em name plNumber color : String} {currentUser : Option User} {trap : Trap}
    (ht : Dataservice.uploadCarInfo em name plNumber color currentUser snapshot = .error trap) :
    trap = .uidUnwrap := by
  induction snapshot with
  | nil => simp [Dataservice.uploadCarInfo] at ht
  | cons p rest ih =>
      obtain ⟨uid, user⟩ := p
      obtain ⟨s, hs, _⟩ := stringChild_email (h (uid, user) List.mem_cons_self)
      simp only [Dataservice.uploadCarInfo, hs, bind, Except.bind] at ht
      split at ht
      · cases currentUser with
        | none =>
            cases ht
            rfl
        | some u => contradiction
      · exact ih (fun q hq => h q (List.mem_cons_of_mem _ hq)) ht

/-- What `uploadCarInfo` writes, if it writes: the car data, below the uid of
the session. -/
theorem uploadCarInfo_writes {snapshot : Snapshot} {em name plNumber color : String}
    {currentUser : Option User} {eff : Dataservice.Effects}
    (h : Dataservice.uploadCarInfo em name plNumber color currentUser snapshot = .ok eff) :
    (eff.writes = [] ∧ eff.handled = []) ∨ ∃ u, currentUser = some u ∧
      eff.writes = [(u.uid, Dataservice.carData em name plNumber color currentUser)] ∧
      eff.handled = [em ++ " Updated to Firebase: uploadCarInfo"] := by
  induction snapshot with
  | nil =>
      cases h
      exact .inl ⟨rfl, rfl⟩
  | cons p rest ih =>
      obtain ⟨uid, user⟩ := p
      cases hs : Dataservice.stringChild user "email" .emailCast with
      | error t => simp [Dataservice.uploadCarInfo, hs, bind, Except.bind] at h
      | ok s =>
          simp only [Dataservice.uploadCarInfo, hs, bind, Except.bind] at h
          split at h
          · cases currentUser with
            | none => contradiction
            | some u =>
                cases h
                exact .inr ⟨u, rfl, rfl, rfl⟩
          · exact ih h

/-! ## steps -/

/-- **The writers**: a step leaves the tree alone, or writes the record of a
new account, or the car data of a callback below the uid of the session. -/
theorem writes_of_step {w w' : World} {ev : Event} (h : Step w ev w') :
    w'.users = w.users ∨
      (∃ (a : Account) (name : Option String), w.accounts.Free a.email ∧
        a.uid ∉ w.accounts.toList.map Account.uid ∧
        w'.users = w.users.updateChildValues a.uid (Dataservice.registrationData a.user name)) ∨
      ∃ i o flow vc em name plNumber color u eff, ev = .deliver i o ∧
        w.pending[i]? = some ⟨flow, .carInfo vc em name plNumber color⟩ ∧
        w.currentUser = some u ∧
        Dataservice.uploadCarInfo em name plNumber color w.currentUser w.users.snapshot =
          .ok eff ∧ eff.handled ≠ [] ∧
        w'.users = w.users.updateChildValues u.uid
          (Dataservice.carData em name plNumber color w.currentUser) := by
  cases h with
  | @deliver i o p hp hu =>
      obtain ⟨flow, r⟩ := p
      have hc := complete_cases (w.taken i) flow o r
      dsimp only
      generalize World.complete _ flow o r = w' at hc
      cases hc with
      | @created email password name done a db ha ho =>
          obtain ⟨hfree, rfl, _⟩ := createUserReply_some ha
          rw [userCreated_eq]
          by_cases hw : o.writeLands
          · refine .inr (.inl ⟨⟨o.uid, email, password⟩, name, hfree, hu, ?_⟩)
            rw [RegisterDone.after, if_pos hw]
            rfl
          · exact .inl (by simp [RegisterDone.after, hw, World.taken])
      | @uploaded vc em name plNumber color eff users he husers =>
          subst husers
          by_cases hw : o.writeLands
          · obtain ⟨hw', _⟩ | ⟨u, hsome, hw', hh⟩ := uploadCarInfo_writes he
            · exact .inl (by simp [hw, hw', UsersTree.applyWrites, World.taken])
            · refine .inr (.inr ⟨i, o, flow, vc, em, name, plNumber, color, u, eff, rfl, hp, hsome,
                he, by simp [hh], ?_⟩)
              simp [hw, hw', UsersTree.applyWrites, World.taken]
          · exact .inl (by simp [hw, World.taken])
      | _ => exact .inl rfl
  | @snapshot i ob ho =>
      obtain ⟨b, u, c, h, _⟩ := observer_deliver_eq ob w
      exact .inl (by rw [h])
  | _ => exact .inl rfl

/-- Either way the dictionary keeps the schema. -/
theorem users_of_step {w w' : World} {ev : Event} (h : Step w ev w') :
    w'.users = w.users ∨
      ∃ uid d, WritesSchema d ∧ w'.users = w.users.updateChildValues uid d := by
  obtain he | ⟨a, name, _, _, he⟩ | ⟨_, _, _, _, em, name, pl, c, u, _, _, _, _, _, _, he⟩ :=
    writes_of_step h
  · exact .inl he
  · exact .inr ⟨a.uid, _, writesSchema_registrationData rfl name, he⟩
  · exact .inr ⟨u.uid, _, writesSchema_carData em name pl c w.currentUser, he⟩

theorem schema_step {w w' : World} {ev : Event} (h : w.step ev = some w')
    (hs : Schema w.users) : Schema w'.users := by
  obtain he | ⟨uid, d, hd, he⟩ := users_of_step (step_cases h).2
  · rwa [he]
  · rw [he]
    exact hs.updateChildValues hd uid

/-! ## systems of installations -/

/-- Any number of installations over the same servers. -/
structure System (ι : Type*) where
  cloud : Cloud
  phones : ι → Phone

namespace System

variable {ι : Type*} [DecidableEq ι]

/-- One step of one installation. -/
def step (s : System ι) (e : ι × Event) : Option (System ι) :=
  (World.step ⟨s.cloud, s.phones e.1⟩ e.2).map fun w =>
    ⟨w.toCloud, Function.update s.phones e.1 w.toPhone⟩

/-- Fresh installs over an account database and an empty tree. -/
def fresh (accounts : Accounts) (available13 : ι → Bool) : System ι :=
  ⟨⟨accounts, ∅⟩, fun i => (World.fresh ⟨accounts, ∅⟩ (available13 i)).toPhone⟩

/-- One installation with the servers. -/
def view (s : System ι) (i : ι) : World := ⟨s.cloud, s.phones i⟩

/-- A step is one step of the installation that takes it. -/
theorem view_of_step {s s' : System ι} {i : ι} {ev : Event} (h : s.step (i, ev) = some s') :
    (s.view i).step ev = some (s'.view i) := by
  obtain ⟨w, hw, rfl⟩ := Option.map_eq_some_iff.mp h
  rw [view, hw, view]
  simp only [Function.update_self]

/-- The others only see the servers change. -/
theorem phone_of_step {s s' : System ι} {i j : ι} {ev : Event} (h : s.step (j, ev) = some s')
    (hij : i ≠ j) : s'.phones i = s.phones i := by
  obtain ⟨w, _, rfl⟩ := Option.map_eq_some_iff.mp h
  exact Function.update_of_ne hij _ _

theorem schema_step {s s' : System ι} {e : ι × Event} (h : s.step e = some s')
    (hs : Schema s.cloud.users) : Schema s'.cloud.users := by
  obtain ⟨w, hw, rfl⟩ := Option.map_eq_some_iff.mp h
  exact StreetParker.schema_step hw hs

end System

/-- **Schema invariant.**  In every tree that installations starting from an
empty tree produce, whatever their steps and their order, every record is
well-formed; hence no delivery of its snapshot fails at a cast of `email` or
`Name` in any of the three readers. -/
theorem schema_of_run {ι : Type*} [DecidableEq ι] (accounts : Accounts)
    (available13 : ι → Bool) (es : List (ι × Event)) (t : System ι)
    (h : Runs.run System.step (System.fresh accounts available13) es = some t) :
    Schema t.cloud.users ∧
    (∀ emailArray,
      ∃ emails, Dataservice.printAllEmails emailArray t.cloud.users.snapshot = .ok emails) ∧
    (∀ em currentUser trap,
      Dataservice.getNameForEmail em currentUser t.cloud.users.snapshot = .error trap →
        trap ≠ .emailCast ∧ trap ≠ .nameCast) ∧
    (∀ em name plNumber color currentUser trap,
      Dataservice.uploadCarInfo em name plNumber color currentUser t.cloud.users.snapshot =
        .error trap → trap ≠ .emailCast ∧ trap ≠ .nameCast) := by
  have hs : Schema t.cloud.users :=
    Runs.inv_of_run' (P := fun s => Schema s.cloud.users)
      (fun s e s' hP hstep => System.schema_step hstep hP) h schema_empty
  have hwf : ∀ p ∈ t.cloud.users.snapshot, WellFormed p.2 :=
    fun p hp => hs p.1 p.2 (mem_snapshot.mp hp)
  refine ⟨hs, fun emailArray => printAllEmails_ok hwf emailArray, ?_, ?_⟩
  · intro em currentUser trap ht
    rw [getNameForEmail_trap hwf ht]
    decide
  · intro em name plNumber color currentUser trap ht
    rw [uploadCarInfo_trap hwf ht]
    decide

/-- One installation registers by e-mail while another signs in with Google. -/
def registrations : List (Bool × Event) :=
  [(true, .signInWithEmail), (true, .editSignin "a@x" "secret"), (true, .signInPressed),
    (false, .googleSignIn (some ⟨some "b@x", some "Bob"⟩)),
    (true, .deliver 0 (.ok "u")), (true, .deliver 0 (.ok "u")), (false, .deliver 0 (.ok "v")),
    (true, .deliver 0 (.ok "u"))]

/-- Then the first uploads its car data, and the second is registered. -/
def registerAndUpload : List (Bool × Event) :=
  registrations ++
    [(true, .editUpload "Ann" "ABC" "red"), (true, .donePressed),
      (false, .deliver 0 (.ok "v")), (true, .deliver 0 (.ok "u"))]

theorem schema_of_run_two :
    ∃ t : System Bool,
      Runs.run System.step (System.fresh Accounts.empty fun _ => true) registerAndUpload =
        some t ∧ Schema t.cloud.users := by
  obtain ⟨t, h⟩ := Option.isSome_iff_exists.mp (by decide :
    (Runs.run System.step (System.fresh Accounts.empty fun _ : Bool => true)
      registerAndUpload).isSome)
  exact ⟨t, h, (schema_of_run Accounts.empty (fun _ => true) _ t h).1⟩

end StreetParker
