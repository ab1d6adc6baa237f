import StreetParker.Labels
import StreetParker.Observers

/-!
# StreetParker.Menu

What the menu shows.  With a Facebook token the label is set when the menu
appears, from the name an earlier delivery has left; without one an observer
sets it, for as long as the process lives and whoever is signed in.

* `told_menuLabel`, `told_of_noRecord` — what an observer of the label writes;
* `nameLbl_or_comes`, `nameLbl_of_comes` — the label is right, or an observer of
  the signed-in user is still to come: over a step, and over a run;
* `nameLbl_of_run` — when the menu shows the user who has opened it.
-/

namespace StreetParker

open World Snapshot

/-! ## what the observers of the label write -/

/-- `u`'s record, if there is one, has the e-mail `e`, and no other has. -/
def OnlyRecord (u : User) (e : String) (users : UsersTree) : Prop :=
  ∀ (uid : Uid) (user : Record), users[uid]? = some user →
    (user["email"]? = some (.string e) ↔ uid = u.uid)

/-- No record has the e-mail `em`. -/
def NoRecord (em : String) (users : UsersTree) : Prop :=
  ∀ (uid : Uid) (user : Record), users[uid]? = some user → user["email"]? ≠ some (.string em)

theorem Schema.stringEmails {users : UsersTree} (h : Schema users) :
    StringEmails users.snapshot :=
  fun p hp => (h p.1 p.2 (mem_snapshot.mp hp)).email

/-- A record that the readers can cast has a name to show. -/
theorem WellFormed.exists_isNameFor {user : Record} (h : WellFormed user) (e : String) :
    ∃ x, IsNameFor e user x := by
  unfold IsNameFor
  cases hn : user["Name"]? with
  | none => exact ⟨e, rfl⟩
  | some v => exact h.name v hn

/-- Where it is at hand, that name is the one displayed. -/
theorem IsNameFor.displayName {e x : String} {user : Record} (h : IsNameFor e user x)
    {currentUser : Option User} (hat : (∃ n, user["Name"]? = some (.string n)) ∨
      (user["Name"]? = none ∧ currentUser.bind User.email = some e)) :
    Dataservice.displayName currentUser user = .ok x := by
  rw [displayName_ok_iff]
  unfold IsNameFor at h
  obtain ⟨n, hn⟩ | ⟨hn, he⟩ := hat
  · rw [hn] at h
    exact .inl (hn.trans (congrArg some h))
  · rw [hn] at h
    exact .inr ⟨hn, by rw [he, h]⟩

theorem mapM_eq_replicate {α : Type*} {f : α → Except Trap String} {l : List α} {x : String}
    (h : ∀ a ∈ l, f a = .ok x) : l.mapM f = .ok (List.replicate l.length x) := by
  induction l with
  | nil => rfl
  | cons a l ih =>
      rw [List.mapM_cons, h a List.mem_cons_self, ih fun b hb => h b (List.mem_cons_of_mem a hb)]
      rfl

section Told

variable {w : World} {u : User} {e : String} {user : Record}

/-- The observer of `u`'s e-mail writes the name of `u`'s record, if it is at
hand. -/
theorem told_menuLabel (hs : Schema w.users) (hone : OnlyRecord u e w.users)
    (hat : NameAtHand e w.currentUser w.users.snapshot) (huser : w.users[u.uid]? = some user) :
    (Observer.menuLabel e).told w ≠ [] ∧
      ∀ name ∈ (Observer.menuLabel e).told w, IsNameFor e user name := by
  obtain ⟨x, hx⟩ := (hs u.uid user huser).exists_isNameFor e
  have heu := (hone u.uid user huser).mpr rfl
  have hin : (u.uid, user) ∈ w.users.snapshot.recordsOf e :=
    List.mem_filter.mpr ⟨mem_snapshot.mpr huser, by simpa using heu⟩
  have hall : ∀ p ∈ w.users.snapshot.recordsOf e,
      Dataservice.displayName w.currentUser p.2 = .ok x := by
    rintro ⟨uid, user'⟩ hp
    obtain ⟨hmem, hpe⟩ := List.mem_filter.mp hp
    have huid : uid = u.uid :=
      (hone uid user' (mem_snapshot.mp hmem)).mp (by simpa using hpe)
    have hsame : user' = user := by
      have h' := mem_snapshot.mp hmem
      rw [huid, huser] at h'
      exact (Option.some.inj h').symm
    rw [hsame]
    exact hx.displayName (hat (u.uid, user) (mem_snapshot.mpr huser) heu)
  have htold : (Observer.menuLabel e).told w =
      List.replicate (w.users.snapshot.recordsOf e).length x := by
    rw [Observer.told, Observer.email, getNameForEmail_eq e w.currentUser hs.stringEmails,
      mapM_eq_replicate hall]
    rfl
  rw [htold]
  refine ⟨fun hnil => ?_, fun name hn => by rwa [List.eq_of_mem_replicate hn]⟩
  have hlen := List.length_pos_of_mem hin
  rw [List.replicate_eq_nil_iff] at hnil
  omega

/-- An observer of an e-mail without a record writes nothing. -/
theorem told_of_noRecord (hs : Schema w.users) {em : String} (hno : NoRecord em w.users) :
    (Observer.menuLabel em).told w = [] := by
  have hnil : w.users.snapshot.recordsOf em = [] := by
    refine List.filter_eq_nil_iff.mpr fun p hp => ?_
    simpa using hno p.1 p.2 (mem_snapshot.mp hp)
  rw [Observer.told, Observer.email, getNameForEmail_eq em w.currentUser hs.stringEmails, hnil]
  rfl

end Told

/-! ## the label over a run -/

/-- An observer keeps its place when others join. -/
theorem getElem?_of_joined {α : Type*} {l l' : List α} {k : Nat} {a : α} (h : l <+: l')
    (hk : l[k]? = some a) : l'[k]? = some a := by
  obtain ⟨hlt, he⟩ := List.getElem?_eq_some_iff.mp hk
  rw [List.prefix_iff_getElem?.mp h k hlt, he]

section Run

variable {ι : Type*} [DecidableEq ι] {i : ι} {u : User} {e : String} {user : Record}
  {observers : List Observer}

/-- The process of `i` lives on, and the tree stays the latest one. -/
structure Latest (i : ι) (users : UsersTree) (s : System ι) (ev : ι × Event) : Prop where
  lives : ev ≠ (i, .relaunch)
  users : s.cloud.users = users

/-- An observer of the label that sees a snapshot is one of `e`, and has the name
at hand, or it has no record to look at. -/
def Delivers (i : ι) (e : String) (s : System ι) (ev : ι × Event) : Prop :=
  ∀ k em, ev = (i, .snapshot k) → (s.phones i).observers[k]? = some (.menuLabel em) →
    (em = e ∧ NameAtHand e (s.phones i).currentUser s.cloud.users.snapshot) ∨
      NoRecord em s.cloud.users

/-- One of the `observers` of `i` that writes the label for `e` sees a snapshot. -/
def Comes (i : ι) (e : String) (observers : List Observer) (es : List (ι × Event)) : Prop :=
  ∃ k : Nat, observers[k]? = some (.menuLabel e) ∧ (i, .snapshot k) ∈ es

/-- Whenever the menu of `i` appears with a token, the name it shows is right, or
an observer comes later. -/
def NameComes (i : ι) (e : String) (user : Record) (observers : List Observer) (s : System ι)
    (es : List (ι × Event)) : Prop :=
  ∀ before fetched later m, es = before ++ (i, .menuAppears fetched) :: later →
    Runs.run System.step s before = some m → (m.view i).hasToken = true →
      IsNameFor e user (m.phones i).burger.name ∨ Comes i e observers later

/-- What is left of it after a part of the run. -/
theorem NameComes.drop {s m : System ι} {es es' : List (ι × Event)}
    (h : NameComes i e user observers s (es ++ es')) (hrun : Runs.run System.step s es = some m) :
    NameComes i e user observers m es' := by
  intro before fetched later m' he hr ht
  refine h (es ++ before) fetched later m' ?_ (Runs.run_append hrun hr) ht
  rw [he, List.append_assoc]

theorem NameComes.tail {s m : System ι} {ev : ι × Event} {es : List (ι × Event)}
    (h : NameComes i e user observers s (ev :: es)) (hstep : s.step ev = some m) :
    NameComes i e user observers m es := by
  have h' : NameComes i e user observers s ([ev] ++ es) := h
  exact h'.drop (Runs.run_cons_of_step hstep [])

/-- What an observer of the label writes is the name in `user`, and an observer of
`e` writes it. -/
def WritesName (i : ι) (e : String) (user : Record) (s : System ι) (ev : ι × Event) : Prop :=
  ∀ k em, ev = (i, .snapshot k) → (s.phones i).observers[k]? = some (.menuLabel em) →
    (∀ name ∈ (Observer.menuLabel em).told (s.view i), IsNameFor e user name) ∧
      (em = e → (Observer.menuLabel em).told (s.view i) ≠ [])

omit [DecidableEq ι] in
theorem Delivers.writesName {s : System ι} {ev : ι × Event} (h : Delivers i e s ev)
    (hs : Schema s.cloud.users) (hone : OnlyRecord u e s.cloud.users)
    (huser : s.cloud.users[u.uid]? = some user) : WritesName i e user s ev := by
  intro k em hev hk
  obtain ⟨rfl, hat⟩ | hno := h k em hev hk
  · obtain ⟨hne, hall⟩ := told_menuLabel (w := s.view i) hs hone hat huser
    exact ⟨hall, fun _ => hne⟩
  · rw [told_of_noRecord (w := s.view i) hs hno]
    refine ⟨fun name hn => absurd hn List.not_mem_nil, fun he => ?_⟩
    subst he
    exact absurd ((hone u.uid user huser).mpr rfl) (hno u.uid user huser)

/-- The observers of `i` over one step of a living process. -/
theorem observers_of_lives {s t : System ι} {ev : ι × Event} (hstep : s.step ev = some t)
    (hlives : ev ≠ (i, .relaunch)) : (s.phones i).observers <+: (t.phones i).observers := by
  obtain ⟨j, ev⟩ := ev
  by_cases hj : j = i
  · subst hj
    exact observers_of_step (System.view_of_step hstep) fun he => hlives (by rw [he])
  · rw [System.phone_of_step hstep (Ne.symm hj)]

theorem observers_of_run {s t : System ι} {es : List (ι × Event)}
    (hrun : Runs.run System.step s es = some t) (hlives : ∀ ev ∈ es, ev ≠ (i, .relaunch)) :
    (s.phones i).observers <+: (t.phones i).observers := by
  refine Runs.inv_of_run (C := fun _ ev => ev ≠ (i, .relaunch))
    (P := fun m : System ι => (s.phones i).observers <+: (m.phones i).observers) ?_ hrun
    (Runs.meets_of_forall hlives s) (List.prefix_refl _)
  exact fun m ev m' hP hev hstep => hP.trans (observers_of_lives hstep hev)

/-- The label of `i` over one step. -/
theorem nameLbl_of_lives {s t : System ι} {ev : ι × Event} (hstep : s.step ev = some t)
    (hlives : ev ≠ (i, .relaunch)) :
    (t.phones i).burger.nameLbl =
      (if ev.1 = i then relabel (s.view i) ev.2 else []).getLast?.getD
        (s.phones i).burger.nameLbl := by
  obtain ⟨j, ev⟩ := ev
  by_cases hj : j = i
  · subst hj
    rw [if_pos rfl]
    exact nameLbl_of_step (System.view_of_step hstep) fun he => hlives (by rw [he])
  · rw [System.phone_of_step hstep (Ne.symm hj), if_neg hj]
    rfl

/-- Every name a step writes into the label is right, or an observer comes. -/
theorem isNameFor_of_mem_relabel {s : System ι} {ev : Event} {es : List (ι × Event)}
    (hwrites : WritesName i e user s (i, ev))
    (hcomes : NameComes i e user observers s ((i, ev) :: es)) :
    ∀ name ∈ relabel (s.view i) ev, IsNameFor e user name ∨ Comes i e observers es := by
  intro name hn
  cases ev with
  | snapshot k =>
      simp only [relabel] at hn
      split at hn
      · next em hk => exact .inl ((hwrites k em rfl hk).1 name hn)
      · exact absurd hn List.not_mem_nil
  | menuAppears fetched =>
      simp only [relabel] at hn
      split at hn
      · next ht =>
          rw [List.mem_singleton.mp hn]
          exact hcomes [] fetched es s rfl rfl ht
      · exact absurd hn List.not_mem_nil
  | _ => exact absurd hn List.not_mem_nil

/-- **One step**: if the label is right, or an observer is still to come, so it is
afterwards. -/
theorem nameLbl_or_comes {s t : System ι} {ev : ι × Event} {es : List (ι × Event)}
    (hstep : s.step ev = some t) (hlives : ev ≠ (i, .relaunch))
    (hwrites : WritesName i e user s ev) (hobs : (s.phones i).observers <+: observers)
    (hcomes : NameComes i e user observers s (ev :: es))
    (h : IsNameFor e user (s.phones i).burger.nameLbl ∨ Comes i e observers (ev :: es)) :
    IsNameFor e user (t.phones i).burger.nameLbl ∨ Comes i e observers es := by
  have hlbl := nameLbl_of_lives hstep hlives
  obtain hright | ⟨k, hk, hin⟩ := h
  · by_cases hi : ev.1 = i
    · obtain ⟨j, ev⟩ := ev
      cases hi
      rw [if_pos rfl] at hlbl
      cases hl : (relabel (s.view j) ev).getLast? with
      | none =>
          rw [hlbl, hl]
          exact .inl hright
      | some name =>
          rw [hlbl, hl]
          exact isNameFor_of_mem_relabel hwrites hcomes name (List.mem_of_getLast? hl)
    · rw [hlbl, if_neg hi]
      exact .inl hright
  · obtain rfl | hin := List.mem_cons.mp hin
    · -- the observer sees the snapshot now
      obtain ⟨ob, ho⟩ := observer_of_step (System.view_of_step hstep)
      have hob : ob = .menuLabel e := Option.some.inj ((getElem?_of_joined hobs ho).symm.trans hk)
      subst hob
      obtain ⟨hall, hne⟩ := hwrites k e rfl ho
      have hrelabel : relabel (s.view i) (.snapshot k) =
          (Observer.menuLabel e).told (s.view i) := by
        rw [relabel, ho]
      refine .inl ?_
      rw [hlbl, if_pos rfl, hrelabel, List.getLast?_eq_some_getLast (hne rfl)]
      exact hall _ (List.getLast_mem (hne rfl))
    · exact .inr ⟨k, hk, hin⟩

/-- **A run**: the label is right once every observer there is has come. -/
theorem nameLbl_of_comes {s t : System ι} {es : List (ι × Event)}
    (hrun : Runs.run System.step s es = some t) (hlives : ∀ ev ∈ es, ev ≠ (i, .relaunch))
    (hwrites : Runs.Meets System.step (WritesName i e user) s es)
    (hcomes : NameComes i e user (t.phones i).observers s es)
    (h : IsNameFor e user (s.phones i).burger.nameLbl ∨ Comes i e (t.phones i).observers es) :
    IsNameFor e user (t.phones i).burger.nameLbl := by
  induction es generalizing s with
  | nil =>
      cases hrun
      obtain h | ⟨_, _, hin⟩ := h
      · exact h
      · exact absurd hin List.not_mem_nil
  | cons ev es ih =>
      obtain ⟨s', hstep, hr⟩ := Runs.run_cons hrun
      obtain ⟨hev, hes⟩ := List.forall_mem_cons.mp hlives
      have hobs := observers_of_run hrun hlives
      exact ih hr hes (hwrites.tail hstep) (hcomes.tail hstep)
        (nameLbl_or_comes hstep hev hwrites.1 hobs hcomes h)

/-- Where no observer of the label is left, none has written. -/
theorem writesName_of_no_label {s t : System ι} {es : List (ι × Event)}
    (hrun : Runs.run System.step s es = some t) (hlives : ∀ ev ∈ es, ev ≠ (i, .relaunch))
    (hno : ∀ em, Observer.menuLabel em ∉ (t.phones i).observers) :
    Runs.Meets System.step (WritesName i e user) s es := by
  induction es generalizing s with
  | nil => trivial
  | cons ev es ih =>
      obtain ⟨s', hstep, hr⟩ := Runs.run_cons hrun
      have hobs := observers_of_run hrun hlives
      refine ⟨fun k em _ hk => ?_, ?_⟩
      · exact absurd (hobs.subset (List.mem_of_getElem? hk)) (hno em)
      · rw [hstep]
        exact ih hr (List.forall_mem_cons.mp hlives).2

end Run

/-! ## the opening -/

/-- Without a token an observer of the signed-in user joins. -/
theorem observers_of_no_token {w : World} (ht : w.hasToken = false) {e : String}
    (he : w.currentEmail = some e) (fetched : Fetch) :
    (BurgerMenuVC.viewDidAppear fetched w).observers = w.observers ++ [.menuLabel e] := by
  have hr : (w.record (.entered .menuAppears w.currentUser)).currentEmail = some e := he
  rw [BurgerMenuVC.viewDidAppear, if_neg (by simp [ht])]
  simp only [hr]
  rfl

/-- **What the menu shows.**  Any number of installations and any run; on the
installation `i` the menu has appeared with `u` signed in, and the process has
lived on, whoever has logged out and in and opened the menu since; every observer
then sees the latest snapshot, in any order and among any other steps.  The label
is the name in `u`'s record, or `u`'s e-mail if the record has none, provided that

* `u`'s e-mail is the e-mail of `u`'s record and of no other;
* no observer of another e-mail with a record writes the label any more, and those
  of `u` have the name at hand;
* whenever the menu appears with a token the name is there already, or an observer
  of `u` that writes the label comes later;
* there is such an observer (the menu has appeared without a token), or nobody has
  one. -/
theorem nameLbl_of_run {ι : Type*} [DecidableEq ι] (accounts : Accounts) (available13 : ι → Bool)
    (es₀ : List (ι × Event)) (s₀ : System ι)
    (h₀ : Runs.run System.step (System.fresh accounts available13) es₀ = some s₀) (i : ι)
    (u : User) (e : String) (hu : (s₀.phones i).currentUser = some u) (he : u.email = some e)
    (fetched : Fetch) (s₁ : System ι) (hopen : s₀.step (i, .menuAppears fetched) = some s₁)
    (es : List (ι × Event)) (hes : ∀ ev ∈ es, ev ≠ (i, .relaunch)) (s₂ : System ι)
    (hrun : Runs.run System.step s₁ es = some s₂) (post : List (ι × Event)) (t : System ι)
    (hpost : Runs.run System.step s₂ post = some t)
    (hlatest : Runs.Meets System.step (Latest i t.cloud.users) s₂ post)
    (hseen : ∀ k < (t.phones i).observers.length, (i, .snapshot k) ∈ post)
    (user : Record) (huser : t.cloud.users[u.uid]? = some user)
    (hone : OnlyRecord u e t.cloud.users)
    (hdelivers : Runs.Meets System.step (Delivers i e) s₂ post)
    (hcomes : NameComes i e user (t.phones i).observers s₀
      ((i, .menuAppears fetched) :: (es ++ post)))
    (hown : .menuLabel e ∈ (t.phones i).observers ∨
      ∀ em, .menuLabel em ∉ (t.phones i).observers) :
    IsNameFor e user (t.phones i).burger.nameLbl := by
  have hlives : ∀ ev ∈ post, ev ≠ (i, .relaunch) :=
    Runs.forall_of_meets (fun _ _ h => h.lives) hpost hlatest
  have hcomes₁ : NameComes i e user (t.phones i).observers s₁ (es ++ post) := hcomes.tail hopen
  obtain hin | hno := hown
  · -- the readers can cast every record of the latest tree
    have hs : Schema t.cloud.users := by
      have hall := Runs.run_append h₀
        ((Runs.run_cons_of_step hopen _).trans (Runs.run_append hrun hpost))
      exact Runs.inv_of_run' (P := fun s : System ι => Schema s.cloud.users)
        (fun s e s' hP hstep => System.schema_step hstep hP) hall schema_empty
    have hwrites : Runs.Meets System.step (WritesName i e user) s₂ post := by
      refine (hlatest.and hdelivers).mono fun s ev h => ?_
      have husers := h.1.users
      rw [← husers] at hs hone huser
      exact h.2.writesName hs hone huser
    obtain ⟨k, hk⟩ := List.mem_iff_getElem?.mp hin
    obtain ⟨hlt, _⟩ := List.getElem?_eq_some_iff.mp hk
    exact nameLbl_of_comes hpost hlives hwrites (hcomes₁.drop hrun)
      (.inr ⟨k, hk, hseen k hlt⟩)
  · -- only appearances with a token write the label, this one first
    have hall := Runs.run_append hrun hpost
    have hlives₁ : ∀ ev ∈ es ++ post, ev ≠ (i, .relaunch) := by
      intro ev hin
      obtain hin | hin := List.mem_append.mp hin
      · exact hes ev hin
      · exact hlives ev hin
    have hobs := observers_of_run hall hlives₁
    have hview : s₁.view i = BurgerMenuVC.viewDidAppear fetched (s₀.view i) :=
      viewDidAppear_of_step (System.view_of_step hopen)
    have hemail : (s₀.view i).currentEmail = some e := by
      rw [currentEmail, show (s₀.view i).currentUser = some u from hu]
      exact he
    refine nameLbl_of_comes hall hlives₁ (writesName_of_no_label hall hlives₁ hno) hcomes₁ (.inl ?_)
    cases ht : (s₀.view i).hasToken with
    | false =>
        have hjoin := congrArg (fun w : World => w.observers) hview
        rw [observers_of_no_token ht hemail] at hjoin
        refine absurd (hobs.subset ?_) (hno e)
        rw [show (s₁.phones i).observers = _ from hjoin]
        exact List.mem_append_right _ (List.mem_singleton_self _)
    | true =>
        have hlbl : (s₁.phones i).burger.nameLbl = (s₀.phones i).burger.name := by
          have h := congrArg (fun w : World => w.burger.nameLbl) hview
          rw [nameLbl_of_token ht] at h
          exact h
        obtain hname | ⟨k, hk, _⟩ := hcomes [] fetched (es ++ post) s₀ rfl rfl ht
        · rw [hlbl]
          exact hname
        · exact absurd (List.mem_of_getElem? hk) (hno e)

/-! ## runs of one installation -/

/-- The snapshots of the observers `ks`, in this order. -/
def snapshots {ι : Type*} (i : ι) (ks : List Nat) : List (ι × Event) :=
  ks.map fun k => (i, .snapshot k)

/-- The tree, and the session and the observers of `i`, are as before. -/
structure SameReaders {ι : Type*} (i : ι) (s t : System ι) : Prop where
  users : t.cloud.users = s.cloud.users
  currentUser : (t.phones i).currentUser = (s.phones i).currentUser
  observers : (t.phones i).observers = (s.phones i).observers

/-- A delivery changes none of them. -/
theorem sameReaders_of_snapshot {ι : Type*} [DecidableEq ι] {i : ι} {k : Nat} {s t : System ι}
    (h : s.step (i, .snapshot k) = some t) : SameReaders i s t := by
  obtain ⟨_, hstep⟩ := step_cases (System.view_of_step h)
  generalize hw : t.view i = w' at hstep
  cases hstep with
  | @snapshot k ob ho =>
      obtain ⟨b, up, c, he, _⟩ := observer_deliver_eq ob (s.view i)
      rw [he] at hw
      exact ⟨congrArg (fun w : World => w.users) hw, congrArg (fun w : World => w.currentUser) hw,
        congrArg (fun w : World => w.observers) hw⟩
  | signOutThrew hl => cases hl
  | loggedOut hl _ => cases hl
  | loggedOutToAuth hl _ _ => cases hl

/-- Nor do several. -/
theorem sameReaders_of_snapshots {ι : Type*} [DecidableEq ι] {i : ι} {ks : List Nat}
    {s t : System ι} (hrun : Runs.run System.step s (snapshots i ks) = some t) :
    SameReaders i s t ∧
      Runs.Meets System.step (fun m _ => SameReaders i s m) s (snapshots i ks) := by
  induction ks generalizing s with
  | nil =>
      cases hrun
      exact ⟨⟨rfl, rfl, rfl⟩, trivial⟩
  | cons k ks ih =>
      obtain ⟨s', hs, hr⟩ := Runs.run_cons hrun
      have h := sameReaders_of_snapshot hs
      have htrans : ∀ {m : System ι}, SameReaders i s' m → SameReaders i s m := fun hm =>
        ⟨hm.users.trans h.users, hm.currentUser.trans h.currentUser,
          hm.observers.trans h.observers⟩
      obtain ⟨hend, hmeets⟩ := ih hr
      refine ⟨htrans hend, ⟨rfl, rfl, rfl⟩, ?_⟩
      rw [hs]
      exact hmeets.mono fun m _ hm => htrans hm

/-- A registration by e-mail, up to the map. -/
def registersByEmail (email password name : String) (uid : Uid) : List (Unit × Event) :=
  [((), .signInWithEmail), ((), .editSignin email password), ((), .signInPressed),
    ((), .deliver 0 (.ok "")), ((), .deliver 0 (.ok uid)), ((), .deliver 0 (.ok "")),
    ((), .editUpload name "A 1" "red"), ((), .donePressed), ((), .deliver 0 (.ok ""))]

/-- A registration through Facebook, up to the map. -/
def registersByFacebook (email name : String) (uid : Uid) : List (Unit × Event) :=
  [((), .fbLogin true), ((), .deliver 0 (.graph email name)), ((), .deliver 0 (.ok "")),
    ((), .deliver 0 (.ok uid)), ((), .deliver 0 (.ok "")),
    ((), .editUpload name "A 1" "red"), ((), .donePressed), ((), .deliver 0 (.ok ""))]

/-- Somebody who has registered by e-mail opens the menu. -/
theorem nameLbl_of_registersByEmail :
    ∃ s₀ s₁ t : System Unit,
      Runs.run System.step (System.fresh .empty fun _ => true)
        (registersByEmail "a@x" "secret" "Ann" "u") = some s₀ ∧
      s₀.step ((), .menuAppears (.rows [])) = some s₁ ∧
      Runs.run System.step s₁ (snapshots () [1, 0]) = some t ∧
      ∀ user, t.cloud.users["u"]? = some user →
        IsNameFor "a@x" user (t.phones ()).burger.nameLbl := by
  have hdec : ((Runs.run System.step (System.fresh .empty fun _ => true)
      (registersByEmail "a@x" "secret" "Ann" "u")).bind fun s₀ =>
      (s₀.step ((), .menuAppears (.rows []))).bind fun s₁ =>
      (Runs.run System.step s₁ (snapshots () [1, 0])).map fun t =>
        decide ((s₀.phones ()).currentUser = some ⟨"u", some "a@x", "Firebase"⟩ ∧
          (t.phones ()).observers = [.uploadName "a@x" 2, .menuLabel "a@x"] ∧
          t.cloud.users.snapshot.map (fun p => (p.1, p.2["email"]?, p.2["Name"]?)) =
            [("u", some (.string "a@x"), some (.string "Ann"))])) = some true := by
    decide
  simp only [Option.bind_eq_some_iff, Option.map_eq_some_iff, decide_eq_true_eq] at hdec
  obtain ⟨s₀, h₀, s₁, h₁, t, ht, hu, hobs, hrecord⟩ := hdec
  refine ⟨s₀, s₁, t, h₀, h₁, ht, fun user huser => ?_⟩
  obtain ⟨hsame, hmeets⟩ := sameReaders_of_snapshots ht
  have hone : ∀ p ∈ t.cloud.users.snapshot,
      p.1 = "u" ∧ p.2["email"]? = some (.string "a@x") ∧ p.2["Name"]? = some (.string "Ann") := by
    intro p hp
    have hin := List.mem_map_of_mem
      (f := fun p : Uid × Record => (p.1, p.2["email"]?, p.2["Name"]?)) hp
    rw [hrecord, List.mem_singleton] at hin
    simpa using hin
  have hlabel : ∀ {m : System Unit}, SameReaders () s₁ m →
      (m.phones ()).observers = [.uploadName "a@x" 2, .menuLabel "a@x"] := fun hm => by
    rw [hm.observers, ← hsame.observers, hobs]
  refine nameLbl_of_run .empty (fun _ => true) _ s₀ h₀ () ⟨"u", some "a@x", "Firebase"⟩ "a@x" hu rfl
    (.rows []) s₁ h₁ [] (by simp) s₁ rfl (snapshots () [1, 0]) t ht ?_ ?_ user huser ?_ ?_ ?_ ?_
  · have hlives : ∀ ev ∈ snapshots () [1, 0], ev ≠ ((), .relaunch) := by simp [snapshots]
    refine ((Runs.meets_of_forall hlives s₁).and hmeets).mono fun m ev h => ?_
    exact ⟨h.1, h.2.users.trans hsame.users.symm⟩
  · rw [hobs]
    decide
  · intro uid user' huser'
    obtain ⟨huid, hemail, _⟩ := hone (uid, user') (mem_snapshot.mpr huser')
    exact iff_of_true hemail huid
  · refine hmeets.mono fun m ev hm k em _ hk => ?_
    have hin := List.mem_of_getElem? hk
    rw [hlabel hm] at hin
    simp only [List.mem_cons, List.not_mem_nil, or_false, reduceCtorEq, false_or] at hin
    cases hin
    refine .inl ⟨rfl, fun p hp _ => .inl ⟨"Ann", (hone p ?_).2.2⟩⟩
    rwa [hm.users, ← hsame.users] at hp
  · -- the menu appears once, and its observer comes
    intro before fetched later m hsplit _ _
    cases before with
    | nil =>
        obtain ⟨_, rfl⟩ := List.cons.inj hsplit
        exact .inr ⟨1, by rw [hobs]; rfl, by decide⟩
    | cons ev before =>
        have hin : (((), .menuAppears fetched) : Unit × Event) ∈ snapshots () [1, 0] := by
          rw [show snapshots () [1, 0] = _ from (List.cons.inj hsplit).2]
          simp
        exact absurd hin (by simp [snapshots])
  · rw [hobs]
    exact .inl (by decide)

/-- The menu of somebody who has registered through Facebook stays blank after
every observer has seen the tree; and after two users with e-mails it shows the
first of them to the second, if the first one's observer comes last. -/
theorem not_nameLbl :
    (∃ s₀ s₁ t : System Unit,
      Runs.run System.step (System.fresh .empty fun _ => true)
        (registersByFacebook "a@x" "Ann" "u") = some s₀ ∧
      s₀.step ((), .menuAppears (.rows ["a@x"])) = some s₁ ∧
      Runs.run System.step s₁ (snapshots () [0, 1]) = some t ∧
      (t.phones ()).observers.length = 2 ∧
      (t.phones ()).currentUser = some ⟨"u", some "a@x", "Firebase"⟩ ∧
      ∃ user, t.cloud.users["u"]? = some user ∧
        ¬IsNameFor "a@x" user (t.phones ()).burger.nameLbl) ∧
    ∃ s₀ s₁ t : System Unit,
      Runs.run System.step (System.fresh .empty fun _ => true)
        (registersByEmail "a@x" "secret" "Ann" "u" ++
          [((), .menuAppears (.rows [])), ((), .signOutPressed true true)] ++
          registersByEmail "b@x" "hidden" "Bob" "v") = some s₀ ∧
      s₀.step ((), .menuAppears (.rows [])) = some s₁ ∧
      Runs.run System.step s₁ (snapshots () [0, 2, 3, 1]) = some t ∧
      (t.phones ()).observers.length = 4 ∧
      (t.phones ()).currentUser = some ⟨"v", some "b@x", "Firebase"⟩ ∧
      ∃ user, t.cloud.users["v"]? = some user ∧
        ¬IsNameFor "b@x" user (t.phones ()).burger.nameLbl := by
  have hwrong : ∀ {users : UsersTree} {uid : Uid} {e n lbl : String},
      (users[uid]?.bind fun user => user["Name"]?) = some (.string n) → n ≠ lbl →
        ∃ user, users[uid]? = some user ∧ ¬IsNameFor e user lbl := by
    intro users uid e n lbl hn hne
    obtain ⟨user, hu, hname⟩ := Option.bind_eq_some_iff.mp hn
    refine ⟨user, hu, fun h => hne ?_⟩
    rw [IsNameFor, hname] at h
    exact Value.string.inj h
  have hfacebook : ((Runs.run System.step (System.fresh .empty fun _ => true)
      (registersByFacebook "a@x" "Ann" "u")).bind fun s₀ =>
      (s₀.step ((), .menuAppears (.rows ["a@x"]))).bind fun s₁ =>
      (Runs.run System.step s₁ (snapshots () [0, 1])).map fun t =>
        decide ((t.phones ()).observers.length = 2 ∧
          (t.phones ()).currentUser = some ⟨"u", some "a@x", "Firebase"⟩ ∧
          (t.cloud.users["u"]?.bind fun user => user["Name"]?) = some (.string "Ann") ∧
          (t.phones ()).burger.nameLbl = "")) = some true := by
    decide
  have hemail : ((Runs.run System.step (System.fresh .empty fun _ => true)
      (registersByEmail "a@x" "secret" "Ann" "u" ++
        [((), .menuAppears (.rows [])), ((), .signOutPressed true true)] ++
        registersByEmail "b@x" "hidden" "Bob" "v")).bind fun s₀ =>
      (s₀.step ((), .menuAppears (.rows []))).bind fun s₁ =>
      (Runs.run System.step s₁ (snapshots () [0, 2, 3, 1])).map fun t =>
        decide ((t.phones ()).observers.length = 4 ∧
          (t.phones ()).currentUser = some ⟨"v", some "b@x", "Firebase"⟩ ∧
          (t.cloud.users["v"]?.bind fun user => user["Name"]?) = some (.string "Bob") ∧
          (t.phones ()).burger.nameLbl = "Ann")) = some true := by
    decide
  simp only [Option.bind_eq_some_iff, Option.map_eq_some_iff, decide_eq_true_eq] at hfacebook hemail
  constructor
  · obtain ⟨s₀, h₀, s₁, h₁, t, ht, hlen, hu, hn, hlbl⟩ := hfacebook
    refine ⟨s₀, s₁, t, h₀, h₁, ht, hlen, hu, ?_⟩
    rw [hlbl]
    exact hwrong (Option.bind_eq_some_iff.mpr hn) (by decide)
  · obtain ⟨s₀, h₀, s₁, h₁, t, ht, hlen, hu, hn, hlbl⟩ := hemail
    refine ⟨s₀, s₁, t, h₀, h₁, ht, hlen, hu, ?_⟩
    rw [hlbl]
    exact hwrong (Option.bind_eq_some_iff.mpr hn) (by decide)

end StreetParker
