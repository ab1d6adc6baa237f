import StreetParker.Integrity

/-!
# StreetParker.Chains

A login, a registration or an upload is a chain of requests, each issued by the
completion of the one before.  Any number of chains run at the same time and
their answers come in any order; this module proves what that does not disturb.

* `Origin.script` — the requests a chain may consist of, in order;
* `Moves`, `moves_of_step` — a step leaves the requests alone, starts a chain,
  or answers one request and issues at most the next of its chain;
* `script_of_run` — in every run every chain has sent a first part of its
  script, with at most one request in flight, the last one;
* `answers_of_run` — the answers a run can hear are bounded by the chains it
  starts, and in a running process none of them is blocked.
-/

namespace StreetParker

open World

/-! ## scripts -/

/-- Lists in which an entry determines the next. -/
theorem prefix_concat_of_next {α : Type*} {next : α → Option α} {script l : List α}
    (hs : ∀ i, script[i + 1]? = script[i]?.bind next) (hl : l <+: script) {k k' : α}
    (hk : l.getLast? = some k) (hn : next k = some k') : l ++ [k'] <+: script := by
  obtain ⟨rest, rfl⟩ := hl
  obtain ⟨init, rfl⟩ := List.getLast?_eq_some_iff.mp hk
  have hlast : (init ++ [k] ++ rest)[init.length]? = some k := by simp
  have hrest : (init ++ [k] ++ rest)[init.length + 1]? = rest.head? := by
    rw [List.getElem?_append_right (by simp), List.head?_eq_getElem?]
    simp
  rw [hs, hlast, Option.bind_some, hn] at hrest
  obtain ⟨rest', rfl⟩ := List.head?_eq_some_iff.mp hrest.symm
  exact ⟨rest', by simp⟩

/-- What a request asks for, and at which place of its chain. -/
inductive Kind where
  | graph
  | signIn
  | createUser
  | signInAgain
  | silentSignIn
  | carInfo
deriving DecidableEq, Repr

/-- The request a completion may issue. -/
def Kind.next : Kind → Option Kind
  | .graph => some .signIn
  | .signIn => some .createUser
  | .createUser => some .signInAgain
  | .signInAgain | .silentSignIn | .carInfo => none

/-- How many requests of its chain are answered from here on, at most. -/
def Kind.rank : Kind → ℕ
  | .graph => 4
  | .signIn => 3
  | .createUser => 2
  | .signInAgain | .silentSignIn | .carInfo => 1

theorem rank_of_next {k k' : Kind} (h : k.next = some k') : k'.rank + 1 = k.rank := by
  cases k <;> cases h <;> rfl

def LoginDone.kind : LoginDone → Kind
  | .social _ _ | .email _ => .signIn
  | .socialAgain _ _ | .emailAgain _ => .signInAgain
  | .silent => .silentSignIn

def Request.kind : Request → Kind
  | .graph _ => .graph
  | .signIn _ _ done => done.kind
  | .createUser _ _ _ _ => .createUser
  | .carInfo _ _ _ _ _ => .carInfo

/-- The requests of a chain, in order. -/
def Origin.script : Origin → List Kind
  | .facebook => [.graph, .signIn, .createUser, .signInAgain]
  | .google | .email => [.signIn, .createUser, .signInAgain]
  | .silent => [.silentSignIn]
  | .upload => [.carInfo]

theorem Origin.script_next (origin : Origin) (i : ℕ) :
    origin.script[i + 1]? = origin.script[i]?.bind Kind.next := by
  cases origin <;> rcases i with _ | _ | _ | _ | i <;> rfl

theorem Origin.rank_le {origin : Origin} {k : Kind} (h : origin.script.head? = some k) :
    k.rank ≤ 4 := by
  cases k <;> decide

/-- The first request of a chain. -/
inductive Origin.Starts : Origin → Request → Prop
  | facebook (vc : Nat) : Starts .facebook (.graph vc)
  | google (vc : Nat) (e : String) : Starts .google
      (.signIn e Provider.google.password (.social vc Provider.google.password))
  | email (vc : Nat) (e password : String) : Starts .email (.signIn e password (.email vc))
  | silent (e : String) : Starts .silent (.signIn e "FBUser" .silent)
  | upload (vc : Nat) (em name plNumber color : String) :
      Starts .upload (.carInfo vc em name plNumber color)

/-- The request that the answer to another issues; the e-mails are read from
the controller when it does, and so are the passwords of `SigninVC`. -/
inductive Request.Next : Request → Request → Prop
  | confirmed (vc : Nat) (e : String) : Next (.graph vc)
      (.signIn e Provider.facebook.password (.social vc Provider.facebook.password))
  | socialRegister (vc : Nat) (e e' n p password : String) :
      Next (.signIn e p (.social vc password))
        (.createUser e' password (some n) (.social vc password))
  | emailRegister (vc : Nat) (e e' p p' : String) :
      Next (.signIn e p (.email vc)) (.createUser e' p' none (.email vc))
  | socialAgain (vc : Nat) (e e' p password : String) (name : Option String) :
      Next (.createUser e p name (.social vc password))
        (.signIn e' password (.socialAgain vc password))
  | emailAgain (vc : Nat) (e e' p p' : String) (name : Option String) :
      Next (.createUser e p name (.email vc)) (.signIn e' p' (.emailAgain vc))

theorem Origin.Starts.kind {origin : Origin} {r : Request} (h : origin.Starts r) :
    origin.script.head? = some r.kind := by
  cases h <;> rfl

theorem Request.Next.kind {r q : Request} (h : r.Next q) : r.kind.next = some q.kind := by
  cases h <;> rfl

/-! ## the requests of a run -/

/-- The requests on record, oldest first. -/
def sents (log : List Entry) : List Pending :=
  log.reverse.filterMap fun
    | .sent flow r => some ⟨flow, r⟩
    | _ => none

theorem sents_append (new log : List Entry) : sents (new ++ log) = sents log ++ sents new := by
  simp [sents]

theorem sents_cons (e : Entry) (log : List Entry) : sents (e :: log) = sents log ++ sents [e] :=
  sents_append [e] log

@[simp] theorem sents_sent (flow : Flow) (r : Request) : sents [.sent flow r] = [⟨flow, r⟩] := rfl

@[simp] theorem sents_confirmed (flow : Flow) (vc : Nat) (provider : Provider) (e n : String) :
    sents [.confirmed flow vc provider e n] = [] := rfl

@[simp] theorem sents_signedIn (flow : Flow) (user : User) : sents [.signedIn flow user] = [] :=
  rfl

@[simp] theorem sents_entered (gate : Gate) (currentUser : Option User) :
    sents [.entered gate currentUser] = [] := rfl

@[simp] theorem sents_sentOf (flow : Flow) (r : Option Request) :
    sents (sentOf flow r) = pendingOf flow r := by
  cases r <;> rfl

@[simp] theorem sents_savedOf (flow : Flow) (em : Option String) :
    sents (savedOf flow em) = [] := by
  cases em <;> rfl

theorem LoginDone.Screens.sents_gate {w : World} {done : LoginDone} {success : Bool} {sh : Shown}
    (h : done.Screens w success sh) : sents sh.gate = [] := by
  cases h with
  | shows _ _ _ hg _ => rw [hg]; rfl
  | hides _ _ _ hg _ => rw [hg]; rfl

/-- The events that start a chain. -/
def Event.starts : Event → Bool
  | .fbLogin _ | .googleSignIn _ | .signInPressed | .findAppears _ | .donePressed => true
  | _ => false

/-- The answers. -/
def Event.answers : Event → Bool
  | .deliver _ _ => true
  | _ => false

/-- What a step does to the requests. -/
inductive Moves (w : World) (ev : Event) (w' : World) : Prop
  | quiet (hev : ev.answers = false) (hp : w'.pending = w.pending ∨ w'.pending = [])
      (hl : sents w'.log = sents w.log) (hf : w'.nextFlow = w.nextFlow)
  | starts (origin : Origin) (r : Request) (hev : ev.starts = true) (hna : ev.answers = false)
      (hk : origin.Starts r)
      (hp : w'.pending = w.pending ++ [⟨w.newFlow origin, r⟩])
      (hl : sents w'.log = sents w.log ++ [⟨w.newFlow origin, r⟩])
      (hf : w'.nextFlow = w.nextFlow + 1)
  | answers (i : ℕ) (p : Pending) (r : Option Request) (hi : w.pending[i]? = some p)
      (hk : ∀ q ∈ r, p.request.Next q)
      (hp : w'.pending = w.pending.eraseIdx i ++ pendingOf p.flow r)
      (hl : sents w'.log = sents w.log ++ pendingOf p.flow r) (hf : w'.nextFlow = w.nextFlow)

theorem next_followUp_login {w : World} {email password : String} {done : LoginDone} {q : Request}
    (h : q ∈ done.followUp w) : (Request.signIn email password done).Next q := by
  cases done <;> cases h <;> constructor

theorem next_followUp_register {w : World} {success : Bool} {email password : String}
    {name : Option String} {done : RegisterDone} {q : Request} (h : q ∈ done.followUp w success) :
    (Request.createUser email password name done).Next q := by
  cases done <;> cases success <;> cases h <;> constructor

/-- The answer to a request issues the next one of its chain, or none. -/
theorem exists_next {w w' : World} {flow : Flow} {o : Outcome} {r : Request}
    (h : Completes w flow o r w') :
    ∃ next : Option Request, (∀ q ∈ next, r.Next q) ∧
      w'.pending = w.pending ++ pendingOf flow next ∧
      sents w'.log = sents w.log ++ pendingOf flow next ∧ w'.nextFlow = w.nextFlow := by
  have hnone : ∀ w' : World, w'.pending = w.pending → w'.log = w.log →
      w'.nextFlow = w.nextFlow → ∃ next : Option Request, (∀ q ∈ next, r.Next q) ∧
        w'.pending = w.pending ++ pendingOf flow next ∧
        sents w'.log = sents w.log ++ pendingOf flow next ∧ w'.nextFlow = w.nextFlow := by
    intro w' hp hl hf
    exact ⟨none, by simp, by simp [pendingOf, hp], by simp [pendingOf, hl], hf⟩
  cases h with
  | graphFailed hp => exact hnone w rfl rfl rfl
  | graphTrap hp hn => exact hnone _ rfl rfl rfl
  | @graphConfirmed vc e n hp =>
      refine ⟨some _, ?_, rfl, ?_, rfl⟩
      · rintro q ⟨⟩
        exact .confirmed _ _
      · simp only [AuthVC.confirm, Authservice.loginSocialUser, send]
        rw [sents_cons, sents_cons]
        simp [pendingOf]
  | @accepted email password done a sh ha hs =>
      refine ⟨done.followUp w, fun q => next_followUp_login, ?_, ?_, rfl⟩
      · rw [LoginDone.after, followUp_signedIn]
        rfl
      · have hlog : (w.signedIn flow a).log = .signedIn flow a.user :: w.log := rfl
        simp only [LoginDone.after, followUp_signedIn, sents_append, sents_savedOf,
          hs.sents_gate, sents_sentOf, List.nil_append]
        rw [hlog, sents_cons]
        simp
  | @refused email password done sh ha hs =>
      refine ⟨done.followUp w, fun q => next_followUp_login, rfl, ?_, rfl⟩
      simp only [LoginDone.after, sents_append, sents_savedOf, hs.sents_gate, sents_sentOf,
        List.nil_append]
  | @created email password name done a db ha ho =>
      rw [userCreated_eq]
      refine ⟨done.followUp w true, fun q => next_followUp_register, ?_, ?_, rfl⟩
      · cases done <;> rfl
      · simp only [RegisterDone.after, sents_append, sents_sentOf]
        rw [sents_cons]
        cases done <;> simp [RegisterDone.followUp]
  | createdUnheard ha ho => exact hnone _ rfl rfl rfl
  | notCreated ha => exact hnone w rfl rfl rfl
  | uploaded he hu => exact hnone _ rfl rfl rfl
  | uploadTrap he => exact hnone _ rfl rfl rfl

/-- **Inversion**, for requests. -/
theorem moves_of_step {w w' : World} {ev : Event} (h : w.step ev = some w') : Moves w ev w' := by
  have hlog : ∀ {signsOut fetches token}, LogOut w ev signsOut fetches token →
      ev.answers = false := by
    intro signsOut fetches token hl
    cases hl <;> rfl
  cases (step_cases h).2 with
  | fbLogin hm => exact .starts .facebook _ rfl rfl (.facebook _) rfl (sents_cons _ _) rfl
  | googleConfirmed hm =>
      refine .starts .google _ rfl rfl (.google _ _) rfl ?_ rfl
      simp only [AuthVC.sign, AuthVC.confirm, Authservice.loginSocialUser, send]
      rw [sents_cons, sents_cons]
      simp [newFlow]
  | signInPressed hm => exact .starts .email _ rfl rfl (.email _ _ _) rfl (sents_cons _ _) rfl
  | findSilent hm hf ht => exact .starts .silent _ rfl rfl (.silent _) rfl (sents_cons _ _) rfl
  | donePressed hm he =>
      refine .starts .upload _ rfl rfl (.upload _ _ _ _ _) rfl ?_ rfl
      simp only [start, send, record]
      rw [sents_cons, sents_cons]
      simp [newFlow]
  | menuSignOut hm ht he =>
      refine .quiet rfl (.inl rfl) ?_ rfl
      rw [sents_cons]
      simp
  | menuTrap hm ht he =>
      refine .quiet rfl (.inl rfl) ?_ rfl
      rw [sents_cons]
      simp
  | doneTrap hm he =>
      refine .quiet rfl (.inl rfl) ?_ rfl
      rw [sents_cons]
      simp
  | signOutThrew hl => exact .quiet (hlog hl) (.inl rfl) rfl rfl
  | loggedOut hl hm => exact .quiet (hlog hl) (.inl rfl) rfl rfl
  | loggedOutToAuth hl hm h13 => exact .quiet (hlog hl) (.inl rfl) rfl rfl
  | @deliver i o p hp hu =>
      obtain ⟨next, hk, hpend, hl, hf⟩ :=
        exists_next (complete_cases (w.taken i) p.flow o p.request)
      exact .answers i p next hp hk hpend hl hf
  | @snapshot i ob ho =>
      obtain ⟨b, u, c, he, _⟩ := observer_deliver_eq ob w
      rw [he]
      exact .quiet rfl (.inl rfl) rfl rfl
  | relaunched hu => exact .quiet rfl (.inr rfl) rfl rfl
  | relaunchedToAuth hu => exact .quiet rfl (.inr rfl) rfl rfl
  | _ => exact .quiet rfl (.inl rfl) rfl rfl

/-! ## one chain among others -/

/-- The requests of one chain. -/
def requestsOf (flow : Flow) (l : List Pending) : List Request :=
  (l.filter (·.flow = flow)).map Pending.request

theorem requestsOf_append_self (flow : Flow) (l : List Pending) (r : Request) :
    requestsOf flow (l ++ [⟨flow, r⟩]) = requestsOf flow l ++ [r] := by
  simp [requestsOf]

theorem requestsOf_append_of_ne {flow flow' : Flow} (h : flow' ≠ flow) (l : List Pending)
    (r : Request) : requestsOf flow (l ++ [⟨flow', r⟩]) = requestsOf flow l := by
  simp [requestsOf, h]

theorem requestsOf_eq_nil {flow : Flow} {l : List Pending} (h : ∀ p ∈ l, p.flow ≠ flow) :
    requestsOf flow l = [] := by
  rw [requestsOf, List.map_eq_nil_iff, List.filter_eq_nil_iff]
  intro p hp
  simpa using h p hp

theorem exists_of_mem_requestsOf {flow : Flow} {l : List Pending} {r : Request}
    (h : r ∈ requestsOf flow l) : ⟨flow, r⟩ ∈ l := by
  obtain ⟨p, hp, rfl⟩ := List.mem_map.mp h
  obtain ⟨hin, hf⟩ := List.mem_filter.mp hp
  rwa [← of_decide_eq_true hf]

/-- Every chain keeps to its script, with at most one request in flight: the
last one it has sent. -/
structure Chained (w : World) : Prop where
  numbered : ∀ p ∈ sents w.log, p.flow.id < w.nextFlow
  script : ∀ flow, (requestsOf flow (sents w.log)).map Request.kind <+: flow.origin.script
  single : (w.pending.map Pending.flow).Nodup
  last : ∀ p ∈ w.pending, (requestsOf p.flow (sents w.log)).getLast? = some p.request

namespace Chained

variable {w w' : World}

/-- A chain that is not there yet has sent nothing and has nothing in flight. -/
theorem requestsOf_newFlow (h : Chained w) (origin : Origin) :
    requestsOf (w.newFlow origin) (sents w.log) = [] := by
  refine requestsOf_eq_nil fun p hp hf => ?_
  have hlt := h.numbered p hp
  rw [hf] at hlt
  exact absurd hlt (Nat.lt_irrefl _)

theorem newFlow_not_mem (h : Chained w) (origin : Origin) :
    w.newFlow origin ∉ w.pending.map Pending.flow := by
  intro hin
  obtain ⟨p, hp, hf⟩ := List.mem_map.mp hin
  have hlast := h.last p hp
  rw [hf, h.requestsOf_newFlow origin] at hlast
  contradiction

/-- A chain sends one more request, which is the next of its script, while
nothing of it is in flight. -/
theorem send (h : Chained w) {l : List Pending} {flow : Flow} {r : Request}
    (hsub : l.Sublist w.pending) (hfree : flow ∉ l.map Pending.flow)
    (hp : w'.pending = l ++ [⟨flow, r⟩]) (hl : sents w'.log = sents w.log ++ [⟨flow, r⟩])
    (hs : (requestsOf flow (sents w.log) ++ [r]).map Request.kind <+: flow.origin.script)
    (hn : w.nextFlow ≤ w'.nextFlow) (hid : flow.id < w'.nextFlow) : Chained w' := by
  refine ⟨?_, ?_, ?_, ?_⟩
  · intro p hp
    rw [hl, List.mem_append, List.mem_singleton] at hp
    obtain hin | rfl := hp
    · exact (h.numbered p hin).trans_le hn
    · exact hid
  · intro flow'
    rw [hl]
    by_cases hf : flow = flow'
    · subst hf
      rwa [requestsOf_append_self]
    · rw [requestsOf_append_of_ne hf]
      exact h.script flow'
  · rw [hp, List.map_append]
    exact List.nodup_append.mpr ⟨(hsub.map _).nodup h.single, by simp, by
      rintro f hf _ hm rfl
      simp only [List.map_cons, List.map_nil, List.mem_singleton] at hm
      exact hfree (hm ▸ hf)⟩
  · intro p hin
    rw [hp, List.mem_append, List.mem_singleton] at hin
    obtain hin | rfl := hin
    · have hne : flow ≠ p.flow := fun he => hfree (he ▸ List.mem_map_of_mem hin)
      rw [hl, requestsOf_append_of_ne hne]
      exact h.last p (hsub.subset hin)
    · rw [hl, requestsOf_append_self, List.getLast?_append]
      rfl

/-- **Steps** keep the chains to their scripts. -/
theorem step (h : Chained w) {ev : Event} (hstep : w.step ev = some w') : Chained w' := by
  cases moves_of_step hstep with
  | quiet hev hp hl hf =>
      obtain hp | hp := hp
      · exact ⟨by rw [hl, hf]; exact h.numbered, by rw [hl]; exact h.script,
          by rw [hp]; exact h.single, by rw [hl, hp]; exact h.last⟩
      · exact ⟨by rw [hl, hf]; exact h.numbered, by rw [hl]; exact h.script,
          by simp [hp], by simp [hp]⟩
  | starts origin r hev hna hk hp hl hf =>
      refine h.send (List.Sublist.refl _) (h.newFlow_not_mem origin) hp hl ?_ (by omega) ?_
      · rw [h.requestsOf_newFlow origin]
        obtain ⟨rest, hr⟩ := List.head?_eq_some_iff.mp hk.kind
        exact ⟨rest, hr.symm⟩
      · rw [hf]
        exact Nat.lt_succ_self _
  | answers i p r hi hk hp hl hf =>
      have hperm := perm_taken hi
      have hin : p ∈ w.pending := hperm.mem_iff.mp List.mem_cons_self
      have hsub := List.eraseIdx_sublist w.pending i
      cases r with
      | none =>
          simp only [pendingOf, Option.toList_none, List.map_nil, List.append_nil] at hp hl
          exact ⟨by rw [hl, hf]; exact h.numbered, by rw [hl]; exact h.script,
            by rw [hp]; exact (hsub.map _).nodup h.single,
            by rw [hl, hp]; exact fun q hq => h.last q (hsub.subset hq)⟩
      | some q =>
          have hnd := (hperm.map Pending.flow).nodup_iff.mpr h.single
          refine h.send hsub (List.nodup_cons.mp hnd).1 hp hl ?_ hf.ge ?_
          · rw [List.map_append]
            refine prefix_concat_of_next p.flow.origin.script_next (h.script p.flow) ?_
              (hk q rfl).kind
            rw [List.getLast?_map, h.last p hin]
            rfl
          · rw [hf]
            have hmem := List.mem_of_getLast? (h.last p hin)
            exact h.numbered _ (exists_of_mem_requestsOf hmem)

end Chained

theorem chained_fresh (cloud : Cloud) (available13 : Bool) :
    Chained (World.fresh cloud available13) := by
  refine ⟨?_, ?_, ?_, ?_⟩ <;>
    simp [World.fresh, AppDelegate.didFinishLaunching, World.presentAuth, sents, requestsOf]

/-- The chains of an installation have nothing to do with the servers' state. -/
theorem chained_grow (c c' : Cloud) (p : Phone) (_ : ∀ a ∈ c.accounts, a ∈ c'.accounts)
    (h : Chained ⟨c, p⟩) : Chained ⟨c', p⟩ :=
  ⟨h.numbered, h.script, h.single, h.last⟩

/-- **Every chain keeps to its script.**  However the installations of a system
interleave their steps and whatever order the answers come in, the requests a
chain has sent are a first part of the script of what started it, at most one
of them is in flight, and it is the last. -/
theorem script_of_run {ι : Type*} [DecidableEq ι] (accounts : Accounts) (available13 : ι → Bool)
    (es : List (ι × Event)) (t : System ι)
    (h : Runs.run System.step (System.fresh accounts available13) es = some t) (i : ι)
    (flow : Flow) :
    (requestsOf flow (sents (t.phones i).log)).map Request.kind <+: flow.origin.script ∧
      (requestsOf flow (t.phones i).pending).length ≤ 1 ∧
      ∀ r ∈ requestsOf flow (t.phones i).pending,
        (requestsOf flow (sents (t.phones i).log)).getLast? = some r := by
  have hc : Chained (t.view i) :=
    Runs.inv_of_run' (System.view_kept (fun _ _ _ hs => hs.step) chained_grow i) h
      (chained_fresh ⟨accounts, ∅⟩ (available13 i))
  refine ⟨hc.script flow, ?_, ?_⟩
  · rw [requestsOf, List.length_map, ← List.countP_eq_length_filter]
    have hcount := List.nodup_iff_count_le_one.mp hc.single flow
    simp only [List.count, List.countP_map, Function.comp_def, beq_eq_decide] at hcount
    exact hcount
  · intro r hr
    exact hc.last _ (exists_of_mem_requestsOf hr)

/-- Sign in is pressed twice, and the answers to the two chains alternate. -/
def pressedTwice : List Event :=
  [.signInWithEmail, .editSignin "a@x" "secret", .signInPressed, .signInPressed,
    .deliver 1 (.ok "u"), .deliver 0 (.ok "u"), .deliver 0 (.ok "u"), .deliver 0 (.ok "v")]

/-- The first registration is refused, the second is signing in. -/
theorem script_pressedTwice :
    ∃ t : System Unit,
      Runs.run System.step (System.fresh Accounts.empty fun _ => true)
        (pressedTwice.map (Prod.mk ())) = some t ∧
      (requestsOf ⟨0, .email⟩ (sents (t.phones ()).log)).map Request.kind =
        [.signIn, .createUser] ∧
      (requestsOf ⟨1, .email⟩ (t.phones ()).pending).map Request.kind = [.signInAgain] ∧
      (requestsOf ⟨1, .email⟩ (sents (t.phones ()).log)).map Request.kind <+:
        Origin.email.script := by
  have hrun : (Runs.run System.step (System.fresh Accounts.empty fun _ : Unit => true)
      (pressedTwice.map (Prod.mk ()))).map (fun t =>
        ((requestsOf ⟨0, .email⟩ (sents (t.phones ()).log)).map Request.kind,
          (requestsOf ⟨1, .email⟩ (t.phones ()).pending).map Request.kind)) =
      some ([.signIn, .createUser], [.signInAgain]) := by decide
  obtain ⟨t, ht, hpair⟩ := Option.map_eq_some_iff.mp hrun
  obtain ⟨hsent, hpending⟩ := Prod.mk.inj hpair
  exact ⟨t, ht, hsent, hpending,
    (script_of_run Accounts.empty (fun _ => true) _ t ht () ⟨1, .email⟩).1⟩

/-! ## answers run out -/

/-- The answers the requests in flight can lead to, at most. -/
def remaining (pending : List Pending) : ℕ := (pending.map fun p => p.request.kind.rank).sum

theorem remaining_append (l l' : List Pending) :
    remaining (l ++ l') = remaining l + remaining l' := by
  simp [remaining]

/-- What is left after an answer, and what the answer took. -/
theorem remaining_taken {l : List Pending} {i : ℕ} {p : Pending} (hi : l[i]? = some p) :
    remaining l = p.request.kind.rank + remaining (l.eraseIdx i) :=
  ((perm_taken hi).map fun p : Pending => p.request.kind.rank).sum_eq.symm

/-- An answer takes from it, a new chain adds to it. -/
theorem remaining_step {w w' : World} {ev : Event} (h : w.step ev = some w') :
    remaining w'.pending + (if ev.answers then 1 else 0) ≤
      remaining w.pending + if ev.starts then 4 else 0 := by
  cases moves_of_step h with
  | quiet hev hp hl hf =>
      have hle : remaining w'.pending ≤ remaining w.pending := by
        obtain hp | hp := hp
        · rw [hp]
        · simp [hp, remaining]
      rw [hev, if_neg Bool.false_ne_true, Nat.add_zero]
      exact hle.trans (Nat.le_add_right _ _)
  | starts origin r hev hna hk hp hl hf =>
      have hone : remaining [⟨w.newFlow origin, r⟩] = r.kind.rank := by simp [remaining]
      rw [hev, hna, hp, remaining_append, hone, if_neg Bool.false_ne_true, if_pos rfl]
      exact Nat.add_le_add_left (Origin.rank_le hk.kind) _
  | answers i p r hi hk hp hl hf =>
      have hpaid : remaining (pendingOf p.flow r) + 1 ≤ p.request.kind.rank := by
        cases r with
        | none =>
            simp only [pendingOf, remaining, Option.toList_none, List.map_nil, List.sum_nil]
            cases p.request.kind <;> decide
        | some q =>
            have hone : remaining (pendingOf p.flow (some q)) = q.kind.rank := by
              simp [remaining, pendingOf]
            rw [hone, rank_of_next (hk q rfl).kind]
      rw [hp, remaining_append, remaining_taken hi]
      split <;> omega

/-- **Answers run out.**  From any state, whatever the user does and in whatever
order answers come, the answers a run hears are at most those the requests in
flight can lead to and four for every chain it starts; and as long as the
process runs, each request in flight can be answered. -/
theorem answers_of_run (w t : World) (es : List Event) (h : Runs.run World.step w es = some t) :
    es.countP Event.answers + remaining t.pending ≤
        remaining w.pending + 4 * es.countP Event.starts ∧
      (t.crashed = none → ∀ i < t.pending.length, ∃ o, (t.step (.deliver i o)).isSome) := by
  refine ⟨Runs.countP_le_of_run (m := fun w => remaining w.pending)
    (fun _ _ _ => remaining_step) h, fun hc i hi => ?_⟩
  obtain ⟨uid, hu⟩ := Infinite.exists_notMem_finset (t.accounts.toList.map Account.uid).toFinset
  refine ⟨.ok uid, ?_⟩
  have hfresh : t.FreshUid (.ok uid) t.pending[i].request := by
    unfold FreshUid
    split
    · simpa [Outcome.ok] using hu
    · trivial
  rw [step_deliver hc (List.getElem?_eq_getElem hi) hfresh]
  rfl

/-- Four answers to two chains, and one more to come. -/
theorem answers_pressedTwice :
    ∃ t, Runs.run World.step (World.fresh ⟨Accounts.empty, ∅⟩ true) pressedTwice = some t ∧
      remaining t.pending = 1 ∧
      pressedTwice.countP Event.answers + remaining t.pending ≤
        4 * pressedTwice.countP Event.starts := by
  have hrun : (Runs.run World.step (World.fresh ⟨Accounts.empty, ∅⟩ true) pressedTwice).map
      (fun t => remaining t.pending) = some 1 := by decide
  obtain ⟨t, ht, hone⟩ := Option.map_eq_some_iff.mp hrun
  refine ⟨t, ht, hone, (answers_of_run _ t pressedTwice ht).1.trans_eq ?_⟩
  rw [show remaining (World.fresh ⟨Accounts.empty, ∅⟩ true).pending = 0 from rfl, Nat.zero_add]

end StreetParker
