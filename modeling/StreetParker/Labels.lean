import StreetParker.History

/-!
# StreetParker.Labels

Who writes the label of the menu and the name field of the upload screen.  Both
are written by the permanent observers of `getNameForEmail`, at every delivery
of a snapshot; apart from that the label is set when the menu appears, and the
field when the user types.

* `Observer.told` — the names a delivery calls the handler with;
* `nameTxt_of_step`, `nameLbl_of_step` — what one step leaves in the field and in
  the label;
* `observers_of_step` — while the process lives, observers only join.
-/

namespace StreetParker

open World

/-! ## deliveries -/

namespace Observer

/-- The names a delivery calls the handler with; a trap is none. -/
def told (ob : Observer) (w : World) : List String :=
  ((Dataservice.getNameForEmail ob.email w.currentUser w.users.snapshot).toOption).getD []

/-- A delivery runs the handler on these names, or crashes. -/
theorem deliver_eq (ob : Observer) (w : World) :
    ob.deliver w = (ob.told w).foldl (fun w name => handler w ob name) w ∨
      ob.told w = [] ∧ ∃ trap, ob.deliver w = w.crash trap := by
  unfold deliver told
  cases Dataservice.getNameForEmail ob.email w.currentUser w.users.snapshot with
  | ok names => exact .inl rfl
  | error trap => exact .inr ⟨rfl, trap, rfl⟩

/-- What a field holds after a delivery, if the handler sets it to the name. -/
theorem deliver_field {ob : Observer} (field : World → String)
    (hset : ∀ w name, field (handler w ob name) = name)
    (hcrash : ∀ w trap, field (w.crash trap) = field w) (w : World) :
    field (ob.deliver w) = (ob.told w).getLast?.getD (field w) := by
  have hfold : ∀ (names : List String) (w : World),
      field (names.foldl (fun w name => handler w ob name) w) = names.getLast?.getD (field w) := by
    intro names
    induction names with
    | nil => exact fun w => rfl
    | cons name names ih =>
        intro w
        rw [List.foldl_cons, ih, List.getLast?_cons, hset]
        rfl
  obtain he | ⟨hnone, trap, he⟩ := deliver_eq ob w
  · rw [he, hfold]
  · rw [he, hnone, hcrash]
    rfl

/-- What a field holds after a delivery, if the handler leaves it alone. -/
theorem deliver_other {α : Type*} {ob : Observer} (field : World → α)
    (hkeep : ∀ w name, field (handler w ob name) = field w)
    (hcrash : ∀ w trap, field (w.crash trap) = field w) (w : World) :
    field (ob.deliver w) = field w := by
  have hfold : ∀ (names : List String) (w : World),
      field (names.foldl (fun w name => handler w ob name) w) = field w := by
    intro names
    induction names with
    | nil => exact fun w => rfl
    | cons name names ih =>
        intro w
        rw [List.foldl_cons, ih, hkeep]
  obtain he | ⟨_, trap, he⟩ := deliver_eq ob w
  · rw [he, hfold]
  · rw [he, hcrash]

end Observer

/-- The names a step writes into the name field of the upload screen `vc`. -/
def prefill (vc : Nat) (w : World) : Event → List String
  | .snapshot k => match w.observers[k]? with
    | some (.uploadName em vc') => if vc' = vc then (Observer.uploadName em vc').told w else []
    | _ => []
  | _ => []

/-- The names a step writes into the label of the menu. -/
def relabel (w : World) : Event → List String
  | .snapshot k => match w.observers[k]? with
    | some (.menuLabel em) => (Observer.menuLabel em).told w
    | _ => []
  | .menuAppears _ => if w.hasToken then [w.burger.name] else []
  | _ => []

/-! ## answers -/

/-- The menu and the fields of the upload screens there are stay as they are, and
observers only join. -/
structure Keeps (w w' : World) : Prop where
  burger : w'.burger = w.burger
  uploads : ∀ vc < w.nextVC, w'.uploads vc = w.uploads vc
  observers : w.observers <+: w'.observers

variable {w w' : World}

theorem Keeps.of_eq (hb : w'.burger = w.burger) (hu : w'.uploads = w.uploads)
    (ho : w'.observers = w.observers) : Keeps w w' :=
  ⟨hb, fun vc _ => by rw [hu], by rw [ho]⟩

/-- A new upload screen has a field and an observer of its own. -/
theorem keeps_presentUpload (m : Modal) (w : World) :
    Keeps w (UploadColorAndModelVC.presentUpload m w) := by
  unfold UploadColorAndModelVC.presentUpload UploadColorAndModelVC.viewDidLoad
  dsimp only
  split
  · have hne : ∀ vc < w.nextVC, vc ≠ w.nextVC := fun vc h => h.ne
    split
    · exact ⟨rfl, fun vc h => Function.update_of_ne (hne vc h) _ _, List.prefix_append _ _⟩
    · exact ⟨rfl, fun vc h => Function.update_of_ne (hne vc h) _ _, List.prefix_refl _⟩
  · exact .of_eq rfl rfl rfl

theorem keeps_run (done : LoginDone) (flow : Flow) (success : Bool) (o : Outcome) (w : World) :
    Keeps w (done.run flow success o w) := by
  cases done with
  | social vc password => cases success <;> exact .of_eq rfl rfl rfl
  | socialAgain vc password =>
      have h := keeps_presentUpload (.auth vc) (Dataservice.saveUser flow (w.auths vc).email o.saves
        (Dataservice.deleteAll o.fetches w))
      exact ⟨h.burger, h.uploads, h.observers⟩
  | email vc =>
      cases success with
      | false => exact .of_eq rfl rfl rfl
      | true =>
          rw [LoginDone.run, SigninVC.loginCompletion, if_pos rfl]
          dsimp only
          rw [dismiss?_eq]
          exact .of_eq rfl rfl rfl
  | emailAgain vc =>
      rw [LoginDone.run, SigninVC.secondLoginCompletion]
      split
      · exact keeps_presentUpload (.signin vc) w
      · exact .of_eq rfl rfl rfl
  | silent => exact .of_eq rfl rfl rfl

theorem keeps_complete (flow : Flow) (o : Outcome) (r : Request) (w : World) :
    Keeps w (w.complete flow o r) := by
  cases r with
  | signIn email password done =>
      simp only [complete]
      split
      · next a ha =>
          have h := keeps_run done flow true o (w.signedIn flow a)
          exact ⟨h.burger, h.uploads, h.observers⟩
      · exact keeps_run done flow false o w
  | createUser email password name done =>
      simp only [complete]
      split
      · split
        · rw [registerDone_eq, userCreated_eq]
          exact .of_eq rfl rfl rfl
        · rw [registerDone_refused]
          exact .of_eq rfl rfl rfl
      · rw [registerDone_refused]
        exact .of_eq rfl rfl rfl
  | graph vc =>
      simp only [complete, AuthVC.graphCompletion]
      split <;> exact .of_eq rfl rfl rfl
  | carInfo vc em name plNumber color =>
      simp only [complete]
      split
      · rw [foldl_uploaded_eq]
        exact .of_eq rfl rfl rfl
      · exact .of_eq rfl rfl rfl

/-! ## steps -/

/-- **The name field** of an upload screen after one step: the user has typed
elsewhere, so it holds the last name delivered to the screen's observer, if
any. -/
theorem nameTxt_of_step {ev : Event} {vc : Nat} (hstep : w.step ev = some w')
    (hvc : vc < w.nextVC) (hedit : ∀ n l c rest, ev = .editUpload n l c →
      w.modals = .upload vc :: rest → n = (w.uploads vc).nameTxt) :
    (w'.uploads vc).nameTxt = (prefill vc w ev).getLast?.getD (w.uploads vc).nameTxt := by
  obtain ⟨_, hs⟩ := step_cases hstep
  cases hs with
  | @editUpload vc' rest n l c hm =>
      dsimp only
      by_cases hv : vc = vc'
      · subst hv
        rw [Function.update_self]
        exact hedit n l c rest rfl hm
      · rw [Function.update_of_ne hv]
        rfl
  | @snapshot k ob ho =>
      simp only [prefill, ho]
      cases ob with
      | uploadName em vc' =>
          dsimp only
          by_cases hv : vc' = vc
          · subst hv
            rw [if_pos rfl]
            exact Observer.deliver_field (fun w => (w.uploads vc').nameTxt)
              (fun w name => by simp [Observer.handler]) (fun _ _ => rfl) w
          · rw [if_neg hv]
            refine Observer.deliver_other (fun w => (w.uploads vc).nameTxt)
              (fun w name => ?_) (fun _ _ => rfl) w
            simp [Observer.handler, Function.update_of_ne (Ne.symm hv)]
      | menuName em =>
          exact Observer.deliver_other (fun w => (w.uploads vc).nameTxt)
            (fun _ _ => rfl) (fun _ _ => rfl) w
      | menuLabel em =>
          exact Observer.deliver_other (fun w => (w.uploads vc).nameTxt)
            (fun _ _ => rfl) (fun _ _ => rfl) w
  | @deliver i o p hp hu =>
      exact congrArg _ ((keeps_complete p.flow o p.request (w.taken i)).uploads vc hvc)
  | signOutThrew hl => cases hl <;> rfl
  | loggedOut hl _ => cases hl <;> rfl
  | loggedOutToAuth hl _ _ => cases hl <;> rfl
  | _ => rfl

theorem viewDidAppear_of_step {fetched : Fetch} (h : w.step (.menuAppears fetched) = some w') :
    w' = BurgerMenuVC.viewDidAppear fetched w := by
  simp only [World.step, act] at h
  split at h
  · split at h
    · exact (Option.some.inj h).symm
    · contradiction
  · contradiction

/-- With a token the label is what an earlier delivery has left in `name`. -/
theorem nameLbl_of_token (ht : w.hasToken = true) (fetched : Fetch) :
    (BurgerMenuVC.viewDidAppear fetched w).burger.nameLbl = w.burger.name := by
  rw [BurgerMenuVC.viewDidAppear, if_pos ht]

/-- **The label** of the menu after one step: the last name delivered to an
observer that writes the label, if any, and what `name` holds when the menu
appears with a token. -/
theorem nameLbl_of_step {ev : Event} (hstep : w.step ev = some w') (hr : ev ≠ .relaunch) :
    w'.burger.nameLbl = (relabel w ev).getLast?.getD w.burger.nameLbl := by
  obtain ⟨_, hs⟩ := step_cases hstep
  cases hs with
  | @snapshot k ob ho =>
      simp only [relabel, ho]
      cases ob with
      | menuLabel em =>
          exact Observer.deliver_field (fun w => w.burger.nameLbl)
            (fun _ _ => rfl) (fun _ _ => rfl) w
      | menuName em =>
          exact Observer.deliver_other (fun w => w.burger.nameLbl)
            (fun _ _ => rfl) (fun _ _ => rfl) w
      | uploadName em vc =>
          exact Observer.deliver_other (fun w => w.burger.nameLbl)
            (fun _ _ => rfl) (fun _ _ => rfl) w
  | @deliver i o p hp hu =>
      exact congrArg BurgerMenuVC.nameLbl
        (keeps_complete p.flow o p.request (w.taken i)).burger
  | signOutThrew hl => cases hl <;> rfl
  | loggedOut hl _ => cases hl <;> rfl
  | loggedOutToAuth hl _ _ => cases hl <;> rfl
  | menuFacebook _ ht =>
      rw [viewDidAppear_of_step hstep, nameLbl_of_token ht, relabel, if_pos ht]
      rfl
  | menuSignOut _ ht _ => simp [relabel, ht]
  | menuTrap _ ht _ => simp [relabel, ht]
  | relaunched hu => exact absurd rfl hr
  | relaunchedToAuth hu => exact absurd rfl hr
  | _ => rfl

/-- Only an observer there is sees a snapshot. -/
theorem observer_of_step {k : Nat} (hstep : w.step (.snapshot k) = some w') :
    ∃ ob, w.observers[k]? = some ob := by
  obtain ⟨_, hs⟩ := step_cases hstep
  cases hs with
  | snapshot ho => exact ⟨_, ho⟩
  | signOutThrew hl => cases hl
  | loggedOut hl _ => cases hl
  | loggedOutToAuth hl _ _ => cases hl

/-- **Observers** stay registered while the process lives. -/
theorem observers_of_step {ev : Event} (hstep : w.step ev = some w') (hr : ev ≠ .relaunch) :
    w.observers <+: w'.observers := by
  obtain ⟨_, hs⟩ := step_cases hstep
  cases hs with
  | menuFacebook _ _ => exact List.prefix_append _ _
  | menuSignOut _ _ _ => exact List.prefix_append _ _
  | @snapshot k ob ho =>
      obtain ⟨b, u, c, he, _⟩ := observer_deliver_eq ob w
      rw [he]
  | @deliver i o p hp hu => exact (keeps_complete p.flow o p.request (w.taken i)).observers
  | relaunched hu => exact absurd rfl hr
  | relaunchedToAuth hu => exact absurd rfl hr
  | _ => exact List.prefix_refl _

end StreetParker
