import StreetParker.History
import StreetParker.Screens

/-!
# StreetParker.Credentials

Whose credentials a social sign-in uses.  The provider's password is captured
by the closures of a chain; the e-mail and the name are properties of the
controller, which every confirmation overwrites and every completion reads
again.

* `confirmationOf`, `lastConfirmation` — what a chain's provider has
  confirmed, and what was last confirmed on a controller;
* `Undisturbed` — a completion that reads the properties finds its own chain's
  confirmation there;
* `OwnCalls` — every sign-in, registration and stored e-mail of a social chain
  is its own;
* `ownCalls_of_run` — so it is in every run of undisturbed steps.
-/

namespace StreetParker

open World

/-! ## confirmations -/

/-- The e-mail and name a chain's provider has confirmed. -/
def confirmationOf (flow : Flow) (log : List Entry) : Option (String × String) :=
  log.findSome? fun e => match e with
    | .confirmed flow' _ _ e n => if flow' = flow then some (e, n) else none
    | _ => none

/-- What was last confirmed on the controller `vc`. -/
def lastConfirmation (vc : Nat) (log : List Entry) : Option (String × String) :=
  log.findSome? fun e => match e with
    | .confirmed _ vc' _ e n => if vc' = vc then some (e, n) else none
    | _ => none

/-- A record without confirmations. -/
def NoConfirmation (log : List Entry) : Prop :=
  ∀ flow vc provider e n, Entry.confirmed flow vc provider e n ∉ log

theorem lastConfirmation_append {new : List Entry} (h : NoConfirmation new) (vc : Nat)
    (log : List Entry) : lastConfirmation vc (new ++ log) = lastConfirmation vc log := by
  rw [lastConfirmation, List.findSome?_append]
  have hn : new.findSome? (fun e => match e with
      | .confirmed _ vc' _ e n => if vc' = vc then some (e, n) else none
      | _ => none) = none := by
    rw [List.findSome?_eq_none_iff]
    intro e he
    cases e with
    | confirmed flow vc provider e n => exact absurd he (h flow vc provider e n)
    | _ => rfl
  rw [hn]
  rfl

theorem exists_of_lastConfirmation {vc : Nat} {log : List Entry} {e n : String}
    (h : lastConfirmation vc log = some (e, n)) :
    ∃ flow provider, Entry.confirmed flow vc provider e n ∈ log := by
  obtain ⟨entry, hin, he⟩ := List.exists_of_findSome?_eq_some h
  cases entry with
  | confirmed flow vc' provider e' n' =>
      simp only at he
      split at he
      · next hvc =>
          cases he
          exact ⟨flow, provider, hvc ▸ hin⟩
      · contradiction
  | _ => contradiction

/-- A chain that has been confirmed once has that confirmation. -/
theorem confirmationOf_eq {flow : Flow} {log : List Entry} {e n : String}
    (hin : ∃ vc provider, Entry.confirmed flow vc provider e n ∈ log)
    (hu : ∀ vc provider e' n', Entry.confirmed flow vc provider e' n' ∈ log →
      e' = e ∧ n' = n) : confirmationOf flow log = some (e, n) := by
  obtain ⟨vc, provider, hin⟩ := hin
  cases hc : confirmationOf flow log with
  | none =>
      have hnone := List.findSome?_eq_none_iff.mp hc _ hin
      simp at hnone
  | some p =>
      obtain ⟨entry, hin', he⟩ := List.exists_of_findSome?_eq_some hc
      cases entry with
      | confirmed flow' vc' provider' e' n' =>
          simp only at he
          split at he
          · next hf =>
              cases he
              obtain ⟨he', hn'⟩ := hu vc' provider' e' n' (hf ▸ hin')
              rw [he', hn']
          · contradiction
      | _ => contradiction

/-! ## the property and the condition -/

/-- A Facebook or Google sign-in. -/
def Flow.Social (flow : Flow) : Prop := flow.origin = .facebook ∨ flow.origin = .google

/-- Every call a social chain has made is with what its provider confirmed, and
with that provider's password; what it stored, it has signed in. -/
structure OwnCalls (log : List Entry) : Prop where
  unique : ∀ flow vc provider e n vc' provider' e' n',
    Entry.confirmed flow vc provider e n ∈ log →
    Entry.confirmed flow vc' provider' e' n' ∈ log →
    vc = vc' ∧ provider = provider' ∧ e = e' ∧ n = n'
  signIn : ∀ flow e password done, flow.Social →
    Entry.sent flow (.signIn e password done) ∈ log →
    ∃ vc provider n, Entry.confirmed flow vc provider e n ∈ log ∧ password = provider.password
  createUser : ∀ flow e password name done, flow.Social →
    Entry.sent flow (.createUser e password name done) ∈ log →
    ∃ vc provider n, Entry.confirmed flow vc provider e n ∈ log ∧
      password = provider.password ∧ name = some n
  saved : ∀ flow e, flow.Social → Entry.saved flow e ∈ log →
    (∃ vc provider n, Entry.confirmed flow vc provider e n ∈ log) ∧
    ∃ user, Entry.signedIn flow user ∈ log ∧ user.email = some e

/-- A completion that reads the controller's e-mail (and, after the first
sign-in, its name) finds there what its own provider has confirmed. -/
def ReadsOwn (w : World) (o : Outcome) (flow : Flow) (r : Request) : Prop :=
  match r with
  | .signIn _ _ (.social vc _) => lastConfirmation vc w.log = confirmationOf flow w.log
  | .signIn _ _ (.socialAgain vc _) =>
      (lastConfirmation vc w.log).map Prod.fst = (confirmationOf flow w.log).map Prod.fst
  | .createUser email password _ (.social vc _) =>
      o.answer = .answered → (w.createUserReply o email password).isSome →
        (lastConfirmation vc w.log).map Prod.fst = (confirmationOf flow w.log).map Prod.fst
  | _ => True

/-- No other chain's confirmation has come between. -/
def Undisturbed (w : World) (ev : Event) : Prop :=
  ∀ a ∈ w.answering ev, ReadsOwn w a.1 a.2.flow a.2.request

instance (w : World) (o : Outcome) (flow : Flow) : (r : Request) →
    Decidable (ReadsOwn w o flow r)
  | .signIn _ _ (.social _ _) | .signIn _ _ (.socialAgain _ _) =>
      inferInstanceAs (Decidable (_ = _))
  | .createUser _ _ _ (.social _ _) => inferInstanceAs (Decidable (_ → _))
  | .signIn _ _ (.email _) | .signIn _ _ (.emailAgain _) | .signIn _ _ .silent
  | .createUser _ _ _ (.email _) => inferInstanceAs (Decidable True)
  | .graph _ | .carInfo _ _ _ _ _ => inferInstanceAs (Decidable True)

instance (w : World) (ev : Event) : Decidable (Undisturbed w ev) :=
  inferInstanceAs (Decidable (∀ a ∈ w.answering ev, ReadsOwn w a.1 a.2.flow a.2.request))

/-! ## the invariant -/

/-- What stands behind a request in flight: a chain that still waits for its
provider has confirmed nothing, and the later requests of a social chain are
with its own credentials. -/
def Backed (log : List Entry) (p : Pending) : Prop :=
  match p.request with
  | .graph _ => ∀ vc provider e n, Entry.confirmed p.flow vc provider e n ∉ log
  | .signIn e _ (.social vc password) =>
      ∃ provider n, Entry.confirmed p.flow vc provider e n ∈ log ∧ password = provider.password
  | .signIn e _ (.socialAgain vc password) =>
      (∃ provider n, Entry.confirmed p.flow vc provider e n ∈ log ∧
        password = provider.password) ∧
      ∃ user, Entry.signedIn p.flow user ∈ log ∧ user.email = some e
  | .createUser e _ _ (.social vc password) =>
      ∃ provider n, Entry.confirmed p.flow vc provider e n ∈ log ∧ password = provider.password
  | _ => ¬p.flow.Social

theorem Backed.append {log : List Entry} {p : Pending} (h : Backed log p) {new : List Entry}
    (hn : ∀ vc provider e n, Entry.confirmed p.flow vc provider e n ∉ new) :
    Backed (new ++ log) p := by
  obtain ⟨flow, r⟩ := p
  have hin : ∀ {e : Entry}, e ∈ log → e ∈ new ++ log := fun he => List.mem_append_right new he
  cases r with
  | graph vc =>
      intro vc' provider e n hc
      exact (List.mem_append.mp hc).elim (hn _ _ _ _) (h vc' provider e n)
  | signIn e password done =>
      cases done with
      | social vc pw =>
          obtain ⟨provider, n, hc, hp⟩ := h
          exact ⟨provider, n, hin hc, hp⟩
      | socialAgain vc pw =>
          obtain ⟨⟨provider, n, hc, hp⟩, user, hu, he⟩ := h
          exact ⟨⟨provider, n, hin hc, hp⟩, user, hin hu, he⟩
      | email vc => exact h
      | emailAgain vc => exact h
      | silent => exact h
  | createUser e password name done =>
      cases done with
      | social vc pw =>
          obtain ⟨provider, n, hc, hp⟩ := h
          exact ⟨provider, n, hin hc, hp⟩
      | email vc => exact h
  | carInfo vc em name plNumber color => exact h

/-- New entries that are no confirmations, each call among them backed. -/
theorem OwnCalls.append {log new : List Entry} (h : OwnCalls log) (hn : NoConfirmation new)
    (hs : ∀ flow e password done, flow.Social → .sent flow (.signIn e password done) ∈ new →
      ∃ vc provider n, Entry.confirmed flow vc provider e n ∈ log ∧
        password = provider.password)
    (hc : ∀ flow e password name done, flow.Social →
      .sent flow (.createUser e password name done) ∈ new →
      ∃ vc provider n, Entry.confirmed flow vc provider e n ∈ log ∧
        password = provider.password ∧ name = some n)
    (hv : ∀ flow e, flow.Social → .saved flow e ∈ new →
      (∃ vc provider n, Entry.confirmed flow vc provider e n ∈ log) ∧
      ∃ user, Entry.signedIn flow user ∈ new ++ log ∧ user.email = some e) :
    OwnCalls (new ++ log) := by
  have hin : ∀ {e : Entry}, e ∈ log → e ∈ new ++ log := fun he => List.mem_append_right new he
  have hold : ∀ {flow vc provider e n}, Entry.confirmed flow vc provider e n ∈ new ++ log →
      Entry.confirmed flow vc provider e n ∈ log :=
    fun he => (List.mem_append.mp he).resolve_left (hn _ _ _ _ _)
  refine ⟨fun _ _ _ _ _ _ _ _ _ h1 h2 => h.unique _ _ _ _ _ _ _ _ _ (hold h1) (hold h2),
    fun flow e password done hf he => ?_, fun flow e password name done hf he => ?_,
    fun flow e hf he => ?_⟩
  · obtain he | he := List.mem_append.mp he
    · obtain ⟨vc, provider, n, h1, h2⟩ := hs flow e password done hf he
      exact ⟨vc, provider, n, hin h1, h2⟩
    · obtain ⟨vc, provider, n, h1, h2⟩ := h.signIn flow e password done hf he
      exact ⟨vc, provider, n, hin h1, h2⟩
  · obtain he | he := List.mem_append.mp he
    · obtain ⟨vc, provider, n, h1, h2⟩ := hc flow e password name done hf he
      exact ⟨vc, provider, n, hin h1, h2⟩
    · obtain ⟨vc, provider, n, h1, h2⟩ := h.createUser flow e password name done hf he
      exact ⟨vc, provider, n, hin h1, h2⟩
  · obtain he | he := List.mem_append.mp he
    · obtain ⟨⟨vc, provider, n, h1⟩, h2⟩ := hv flow e hf he
      exact ⟨⟨vc, provider, n, hin h1⟩, h2⟩
    · obtain ⟨⟨vc, provider, n, h1⟩, user, h2, h3⟩ := h.saved flow e hf he
      exact ⟨⟨vc, provider, n, hin h1⟩, user, hin h2, h3⟩

structure Traced (w : World) : Prop where
  calls : OwnCalls w.log
  backed : ∀ p ∈ w.pending, Backed w.log p
  flows : w.pending.Pairwise fun p q => p.flow ≠ q.flow
  flowIds : ∀ p ∈ w.pending, p.flow.id < w.nextFlow
  logIds : ∀ flow vc provider e n, Entry.confirmed flow vc provider e n ∈ w.log →
    flow.id < w.nextFlow ∧ vc < w.nextVC
  graphVCs : ∀ flow vc, ⟨flow, .graph vc⟩ ∈ w.pending → vc < w.nextVC
  authVCs : ∀ vc, .auth vc ∈ w.modals → vc < w.nextVC
  fields : ∀ vc e n, lastConfirmation vc w.log = some (e, n) →
    (w.auths vc).email = e ∧ (w.auths vc).name = n

namespace Traced

variable {w w' : World}

/-- **Growth**: entries that confirm nothing, and at most one more request in
flight. -/
theorem grow (h : Traced w) {l : List Pending} (flow : Flow) (r : Option Request)
    {new : List Entry} (hsub : l.Sublist w.pending) (hp : w'.pending = l ++ pendingOf flow r)
    (hl : w'.log = new ++ w.log) (hn : NoConfirmation new) (hcalls : OwnCalls (new ++ w.log))
    (hr : ∀ q, r = some q → (∀ p ∈ l, p.flow ≠ flow) ∧ flow.id < w'.nextFlow ∧
      Backed (new ++ w.log) ⟨flow, q⟩ ∧ ∀ vc, q = .graph vc → vc < w'.nextVC)
    (hf : w.nextFlow ≤ w'.nextFlow) (hv : w.nextVC ≤ w'.nextVC)
    (hm : ∀ vc, .auth vc ∈ w'.modals → vc < w'.nextVC)
    (ha : ∀ vc < w.nextVC, (w'.auths vc).email = (w.auths vc).email ∧
      (w'.auths vc).name = (w.auths vc).name) : Traced w' := by
  have hmem : ∀ {p}, p ∈ w'.pending → p ∈ w.pending ∨ ∃ q, r = some q ∧ p = ⟨flow, q⟩ := by
    intro p hin
    rw [hp] at hin
    exact (List.mem_append.mp hin).imp (hsub.subset ·) mem_pendingOf.mp
  refine ⟨hl ▸ hcalls, fun p hin => ?_, ?_, fun p hin => ?_, ?_, fun f vc hin => ?_, hm, ?_⟩
  · rw [hl]
    obtain hin | ⟨q, hq, rfl⟩ := hmem hin
    · exact (h.backed p hin).append (hn p.flow)
    · exact (hr q hq).2.2.1
  · rw [hp, List.pairwise_append]
    refine ⟨h.flows.sublist hsub, ?_, fun p hin q hq => ?_⟩
    · cases r <;> simp [pendingOf]
    · obtain ⟨q', hq', rfl⟩ := mem_pendingOf.mp hq
      exact (hr q' hq').1 p hin
  · obtain hin | ⟨q, hq, rfl⟩ := hmem hin
    · exact (h.flowIds p hin).trans_le hf
    · exact (hr q hq).2.1
  · intro f vc provider e n hin
    rw [hl] at hin
    obtain ⟨h1, h2⟩ := h.logIds f vc provider e n
      ((List.mem_append.mp hin).resolve_left (hn _ _ _ _ _))
    exact ⟨h1.trans_le hf, h2.trans_le hv⟩
  · obtain hin | ⟨q, hq, he⟩ := hmem hin
    · exact (h.graphVCs f vc hin).trans_le hv
    · cases he
      exact (hr _ hq).2.2.2 vc rfl
  · intro vc e n hlast
    rw [hl, lastConfirmation_append hn] at hlast
    obtain ⟨f, provider, hin⟩ := exists_of_lastConfirmation hlast
    obtain ⟨he, hn'⟩ := ha vc (h.logIds f vc provider e n hin).2
    rw [he, hn']
    exact h.fields vc e n hlast

/-- A step that makes no call. -/
theorem frame (h : Traced w) (hsub : w'.pending.Sublist w.pending) (hl : w'.log = w.log)
    (hf : w.nextFlow ≤ w'.nextFlow) (hv : w.nextVC ≤ w'.nextVC)
    (hm : ∀ vc, .auth vc ∈ w'.modals → vc < w'.nextVC)
    (ha : ∀ vc < w.nextVC, (w'.auths vc).email = (w.auths vc).email ∧
      (w'.auths vc).name = (w.auths vc).name) : Traced w' :=
  h.grow ⟨0, .silent⟩ none hsub (List.append_nil _).symm (hl.trans (List.nil_append _).symm)
    (fun _ _ _ _ _ => List.not_mem_nil) h.calls (by simp) hf hv hm ha

/-- Presenting `AuthVC` makes no call. -/
theorem presentAuth (h : Traced w) : Traced w.presentAuth := by
  refine h.frame (List.Sublist.refl _) rfl (le_refl _) (Nat.le_succ _) ?_ ?_
  · intro vc hin
    cases List.mem_singleton.mp hin
    exact Nat.lt_succ_self _
  · intro vc hvc
    simp [World.presentAuth, Function.update_of_ne (Nat.ne_of_lt hvc)]

/-- A chain's own confirmation, when it is the last on its controller, is what
the controller's properties are. -/
theorem fields_own (h : Traced w) {flow : Flow} {vc : Nat} {provider : Provider}
    {e n : String} (hc : Entry.confirmed flow vc provider e n ∈ w.log) :
    (lastConfirmation vc w.log = confirmationOf flow w.log →
      (w.auths vc).email = e ∧ (w.auths vc).name = n) ∧
    ((lastConfirmation vc w.log).map Prod.fst = (confirmationOf flow w.log).map Prod.fst →
      (w.auths vc).email = e) := by
  have hown : confirmationOf flow w.log = some (e, n) := by
    refine confirmationOf_eq ⟨vc, provider, hc⟩ fun vc' provider' e' n' hc' => ?_
    obtain ⟨_, _, he, hn⟩ := h.calls.unique _ _ _ _ _ _ _ _ _ hc hc'
    exact ⟨he.symm, hn.symm⟩
  rw [hown]
  refine ⟨fun hl => h.fields vc e n hl, fun hl => ?_⟩
  obtain ⟨⟨e', n'⟩, hl', he⟩ := Option.map_eq_some_iff.mp hl
  rw [(h.fields vc e' n' hl').1]
  exact he

/-- The state between a confirmation and the first call. -/
theorem confirmed (h : Traced w) {flow : Flow} {vc : Nat} (provider : Provider) (e n : String)
    {nextFlow : Nat} (hfresh : ∀ p ∈ w.pending, p.flow ≠ flow) (hid : flow.id < nextFlow)
    (hf : w.nextFlow ≤ nextFlow) (hvc : vc < w.nextVC)
    (hno : ∀ vc provider e n, Entry.confirmed flow vc provider e n ∉ w.log) :
    Traced { w with
      auths := Function.update w.auths vc { w.auths vc with email := e, name := n }
      log := .confirmed flow vc provider e n :: w.log
      nextFlow := nextFlow } := by
  have hin : ∀ {x : Entry}, x ∈ w.log → x ∈ Entry.confirmed flow vc provider e n :: w.log :=
    fun hx => List.mem_cons_of_mem _ hx
  refine ⟨⟨?_, ?_, ?_, ?_⟩, fun p hp => ?_, h.flows, ?_, ?_, h.graphVCs, h.authVCs, ?_⟩
  · intro f vc₁ p₁ e₁ n₁ vc₂ p₂ e₂ n₂ h1 h2
    obtain h1 | h1 := List.mem_cons.mp h1 <;> obtain h2 | h2 := List.mem_cons.mp h2
    · cases h1
      cases h2
      exact ⟨rfl, rfl, rfl, rfl⟩
    · cases h1
      exact absurd h2 (hno _ _ _ _)
    · cases h2
      exact absurd h1 (hno _ _ _ _)
    · exact h.calls.unique _ _ _ _ _ _ _ _ _ h1 h2
  · intro f e' pw done hs hx
    obtain ⟨vc', p', n', hc, hp⟩ := h.calls.signIn f e' pw done hs (by simpa using hx)
    exact ⟨vc', p', n', hin hc, hp⟩
  · intro f e' pw name done hs hx
    obtain ⟨vc', p', n', hc, hp⟩ := h.calls.createUser f e' pw name done hs (by simpa using hx)
    exact ⟨vc', p', n', hin hc, hp⟩
  · intro f e' hs hx
    obtain ⟨⟨vc', p', n', hc⟩, user, hu, he⟩ := h.calls.saved f e' hs (by simpa using hx)
    exact ⟨⟨vc', p', n', hin hc⟩, user, hin hu, he⟩
  · have hnew : ∀ vc' p' e' n', Entry.confirmed p.flow vc' p' e' n' ∉
        [Entry.confirmed flow vc provider e n] := by
      intro vc' p' e' n' hx
      cases List.mem_singleton.mp hx
      exact hfresh p hp rfl
    exact (h.backed p hp).append hnew
  · exact fun p hp => (h.flowIds p hp).trans_le hf
  · intro f vc' p' e' n' hx
    obtain hx | hx := List.mem_cons.mp hx
    · cases hx
      exact ⟨hid, hvc⟩
    · obtain ⟨h1, h2⟩ := h.logIds f vc' p' e' n' hx
      exact ⟨h1.trans_le hf, h2⟩
  · intro vc' e' n' hlast
    by_cases hv : vc = vc'
    · subst hv
      simp only [lastConfirmation, List.findSome?_cons, if_true, Option.some.injEq,
        Prod.mk.injEq] at hlast
      simp only [Function.update_self]
      exact hlast
    · simp only [lastConfirmation, List.findSome?_cons, if_neg hv] at hlast
      simp only [Function.update_of_ne (Ne.symm hv)]
      exact h.fields vc' e' n' hlast

/-- **A confirmation** begins a chain's calls. -/
theorem confirm (h : Traced w) {flow : Flow} {vc : Nat} {provider : Provider} {e n : String}
    {nextFlow : Nat} (hfresh : ∀ p ∈ w.pending, p.flow ≠ flow) (hid : flow.id < nextFlow)
    (hf : w.nextFlow ≤ nextFlow) (hvc : vc < w.nextVC)
    (hno : ∀ vc provider e n, Entry.confirmed flow vc provider e n ∉ w.log) :
    Traced { AuthVC.confirm vc flow provider e n w with nextFlow := nextFlow } := by
  have hc := h.confirmed provider e n hfresh hid hf hvc hno
  have hin : Entry.confirmed flow vc provider e n ∈
      Entry.confirmed flow vc provider e n :: w.log := List.mem_cons_self
  have hcall : ({ AuthVC.confirm vc flow provider e n w with nextFlow := nextFlow }).log =
      [.sent flow (.signIn e provider.password (.social vc provider.password))] ++
        .confirmed flow vc provider e n :: w.log := by
    simp [AuthVC.confirm, Authservice.loginSocialUser, send]
  refine hc.grow flow (some (.signIn e provider.password (.social vc provider.password)))
    (List.Sublist.refl _) ?_ hcall ?_ ?_ ?_ (le_refl _) (le_refl _) h.authVCs ?_
  · simp [AuthVC.confirm, Authservice.loginSocialUser, send, pendingOf]
  · intro _ _ _ _ _ hx
    cases List.mem_singleton.mp hx
  · refine hc.calls.append ?_ ?_ ?_ ?_
    · intro _ _ _ _ _ hx
      cases List.mem_singleton.mp hx
    · intro f e' pw done _ hx
      cases List.mem_singleton.mp hx
      exact ⟨vc, provider, n, hin, rfl⟩
    · intro _ _ _ _ _ _ hx
      cases List.mem_singleton.mp hx
    · intro _ _ _ hx
      cases List.mem_singleton.mp hx
  · intro q hq
    cases hq
    exact ⟨hfresh, hid, ⟨provider, n, List.mem_cons_of_mem _ hin, rfl⟩, by simp⟩
  · intro _ _
    exact ⟨rfl, rfl⟩

/-- **The completion of a sign-in** keeps to its chain's credentials; `ins` is
the sign-in itself, if it succeeded. -/
theorem afterLogin (h : Traced w) {flow : Flow} {o : Outcome} {email password : String}
    {done : LoginDone} (success : Bool) (ins : List Entry) {gate : List Entry}
    (hb : Backed w.log ⟨flow, .signIn email password done⟩)
    (hr : ReadsOwn w o flow (.signIn email password done))
    (hins : ∀ x ∈ ins, ∃ user, x = .signedIn flow user)
    (hgate : ∀ x ∈ gate, ∃ g cu, x = .entered g cu)
    (hsuccess : success = true → ∃ user, .signedIn flow user ∈ ins ∧ user.email = some email) :
    NoConfirmation (sentOf flow (done.followUp w) ++ gate ++
      savedOf flow (done.stores w success) ++ ins) ∧
    OwnCalls (sentOf flow (done.followUp w) ++ gate ++ savedOf flow (done.stores w success) ++
      ins ++ w.log) := by
  have hmem : ∀ {x}, x ∈ sentOf flow (done.followUp w) ++ gate ++
      savedOf flow (done.stores w success) ++ ins →
      (∃ q, done.followUp w = some q ∧ x = .sent flow q) ∨ (∃ g cu, x = .entered g cu) ∨
        (∃ s, done.stores w success = some s ∧ x = .saved flow s) ∨
        ∃ user, x = .signedIn flow user := by
    intro x hx
    simp only [List.mem_append, mem_sentOf, mem_savedOf] at hx
    obtain ((hx | hx) | hx) | hx := hx
    · exact .inl hx
    · exact .inr (.inl (hgate x hx))
    · exact .inr (.inr (.inl hx))
    · exact .inr (.inr (.inr (hins x hx)))
  have hno : NoConfirmation (sentOf flow (done.followUp w) ++ gate ++
      savedOf flow (done.stores w success) ++ ins) := by
    intro f vc provider e n hx
    obtain ⟨q, _, he⟩ | ⟨g, cu, he⟩ | ⟨t, _, he⟩ | ⟨user, he⟩ := hmem hx <;> cases he
  refine ⟨hno, h.calls.append hno ?_ ?_ ?_⟩
  · -- a sign-in is never followed by a sign-in
    intro f e' pw d hs hx
    obtain ⟨q, hq, he⟩ | ⟨g, cu, he⟩ | ⟨t, _, he⟩ | ⟨user, he⟩ := hmem hx <;> cases he
    cases done <;> cases hq
  · intro f e' pw name d hs hx
    obtain ⟨q, hq, he⟩ | ⟨g, cu, he⟩ | ⟨t, _, he⟩ | ⟨user, he⟩ := hmem hx <;> cases he
    cases done with
    | social vc pw₀ =>
        cases hq
        obtain ⟨provider, n, hc, hp⟩ := hb
        obtain ⟨he, hn⟩ := (h.fields_own hc).1 hr
        exact ⟨vc, provider, n, he ▸ hc, hp, by rw [hn]⟩
    | email vc => exact absurd hs hb
    | _ => cases hq
  · intro f e' hs hx
    obtain ⟨q, hq, he⟩ | ⟨g, cu, he⟩ | ⟨t, ht, he⟩ | ⟨user, he⟩ := hmem hx <;> cases he
    cases done with
    | social vc pw₀ =>
        simp only [LoginDone.stores] at ht
        split at ht
        · next hsucc =>
            cases ht
            obtain ⟨provider, n, hc, _⟩ := hb
            obtain ⟨he, _⟩ := (h.fields_own hc).1 hr
            obtain ⟨user, hu, hue⟩ := hsuccess hsucc
            rw [he]
            exact ⟨⟨vc, provider, n, hc⟩, user,
              List.mem_append_left _ (List.mem_append_right _ hu), hue⟩
        · contradiction
    | socialAgain vc pw₀ =>
        cases ht
        obtain ⟨⟨provider, n, hc, _⟩, user, hu, hue⟩ := hb
        have he := (h.fields_own hc).2 hr
        rw [he]
        exact ⟨⟨vc, provider, n, hc⟩, user, List.mem_append_right _ hu, hue⟩
    | email vc => exact absurd hs hb
    | _ => cases ht

/-- What the follow-up of a sign-in stands on. -/
theorem backed_followUp (h : Traced w) {flow : Flow} {o : Outcome} {email password : String}
    {done : LoginDone} (hb : Backed w.log ⟨flow, .signIn email password done⟩)
    (hr : ReadsOwn w o flow (.signIn email password done)) {q : Request}
    (hq : done.followUp w = some q) : Backed w.log ⟨flow, q⟩ ∧ ∀ vc, q ≠ .graph vc := by
  cases done with
  | social vc pw₀ =>
      cases hq
      obtain ⟨provider, n, hc, hp⟩ := hb
      obtain ⟨he, _⟩ := (h.fields_own hc).1 hr
      exact ⟨⟨provider, n, he ▸ hc, hp⟩, by simp⟩
  | email vc =>
      cases hq
      exact ⟨hb, by simp⟩
  | _ => cases hq

/-- A delivery brings no `AuthVC` up. -/
theorem auth_mem_of_complete {flow : Flow} {o : Outcome} {r : Request}
    (hd : Completes w flow o r w') {vc : Nat} (h : .auth vc ∈ w'.modals) :
    .auth vc ∈ w.modals := by
  cases hd with
  | accepted ha hs => exact (hs.mem_modals h).resolve_right (by simp)
  | refused ha hs => exact (hs.mem_modals h).resolve_right (by simp)
  | created ha ho =>
      rw [RegisterDone.after, userCreated_eq] at h
      exact h
  | uploaded he hu => exact ((uploadedModals_suffix _ _ _).subset h :)
  | _ => exact h

/-- **A heard registration**: the session is the new account's, and a social
chain issues its second sign-in. -/
theorem created (h : Traced w) {flow : Flow} {o : Outcome} {email password : String}
    {name : Option String} {done : RegisterDone} {a : Account} {db : Accounts}
    (hfresh : ∀ p ∈ w.pending, p.flow ≠ flow) (hid : flow.id < w.nextFlow)
    (hb : Backed w.log ⟨flow, .createUser email password name done⟩)
    (hr : ReadsOwn w o flow (.createUser email password name done))
    (ha : w.createUserReply o email password = some (a, db)) (ho : o.answer = .answered) :
    Traced (done.after flow true
      ({ w with accounts := db }.userCreated flow name o.writeLands a)) := by
  have hemail : a.user.email = some email := by
    rw [(createUserReply_some ha).2.1]
    rfl
  have hown : ∀ {vc pw}, done = .social vc pw → (w.auths vc).email = email ∧
      ∃ provider n, Entry.confirmed flow vc provider email n ∈ w.log ∧
        pw = provider.password := by
    intro vc pw he
    subst he
    obtain ⟨provider, n, hc, hp⟩ := hb
    exact ⟨(h.fields_own hc).2 (hr ho (by rw [ha]; rfl)), provider, n, hc, hp⟩
  rw [RegisterDone.after, followUp_userCreated, userCreated_eq]
  -- the record grows by the follow-up, if there is one, and the sign-in
  have hmem : ∀ {x}, x ∈ sentOf flow (done.followUp w true) ++ [Entry.signedIn flow a.user] →
      (∃ q, done.followUp w true = some q ∧ x = .sent flow q) ∨ x = .signedIn flow a.user := by
    intro x hx
    simpa using hx
  have hno : NoConfirmation
      (sentOf flow (done.followUp w true) ++ [Entry.signedIn flow a.user]) := by
    intro _ _ _ _ _ hx
    obtain ⟨q, _, he⟩ | he := hmem hx <;> cases he
  refine h.grow flow (done.followUp w true) (List.Sublist.refl _) rfl
    (List.append_assoc _ [_] w.log).symm hno ?_ (fun q hq => ?_) (le_refl _) (le_refl _)
    h.authVCs (fun _ _ => ⟨rfl, rfl⟩)
  · refine h.calls.append hno ?_ ?_ ?_
    · intro f e' pw d hs hx
      obtain ⟨q, hq, he⟩ | he := hmem hx <;> cases he
      cases done with
      | social vc pw₀ =>
          obtain ⟨he, provider, n, hc, hp⟩ := hown rfl
          cases hq
          exact ⟨vc, provider, n, he ▸ hc, hp⟩
      | email vc => exact absurd hs hb
    · intro f e' pw n d hs hx
      obtain ⟨q, hq, he⟩ | he := hmem hx <;> cases he
      cases done <;> cases hq
    · intro f e' hs hx
      obtain ⟨q, hq, he⟩ | he := hmem hx <;> cases he
  · refine ⟨hfresh, hid, ?_, ?_⟩
    · cases done with
      | social vc pw₀ =>
          obtain ⟨he, provider, n, hc, hp⟩ := hown rfl
          cases hq
          refine ⟨⟨provider, n, List.mem_append_right _ (he ▸ hc), hp⟩, a.user, ?_,
            by rw [he]; exact hemail⟩
          exact List.mem_append_left _ (List.mem_append_right _ (List.mem_singleton_self _))
      | email vc =>
          cases hq
          exact hb
    · intro vc he
      cases done <;> cases hq <;> cases he

/-- **Deliveries** of undisturbed answers. -/
theorem complete (h : Traced w) {flow : Flow} {o : Outcome} {r : Request}
    (hfresh : ∀ p ∈ w.pending, p.flow ≠ flow) (hid : flow.id < w.nextFlow)
    (hb : Backed w.log ⟨flow, r⟩) (hg : ∀ vc, r = .graph vc → vc < w.nextVC)
    (hr : ReadsOwn w o flow r) (hd : Completes w flow o r w') : Traced w' := by
  have hl : Later w w' := Later.complete hd
  have hm : ∀ vc, .auth vc ∈ w'.modals → vc < w'.nextVC :=
    fun vc hin => (h.authVCs vc (auth_mem_of_complete hd hin)).trans_le hl.nextVC
  cases hd with
  | graphFailed => exact h
  | graphTrap =>
      exact h.frame (List.Sublist.refl _) rfl (le_refl _) (le_refl _) hm fun _ _ => ⟨rfl, rfl⟩
  | graphConfirmed hp => exact h.confirm hfresh hid (le_refl _) (hg _ rfl) hb
  | @accepted email password done a sh ha hs =>
      have hemail : a.email = email := (signInReply_some ha).2.1
      obtain ⟨hno, hcalls⟩ := h.afterLogin true [.signedIn flow a.user] hb hr
        (fun x hx => ⟨_, List.mem_singleton.mp hx⟩) hs.entered
        (fun _ => ⟨a.user, List.mem_singleton_self _, by rw [← hemail]; rfl⟩)
      have hlog : (done.after flow true o sh (w.signedIn flow a)).log =
          (sentOf flow (done.followUp w) ++ sh.gate ++ savedOf flow (done.stores w true) ++
            [.signedIn flow a.user]) ++ w.log := by
        rw [LoginDone.after, followUp_signedIn, stores_signedIn]
        exact (List.append_assoc _ [_] w.log).symm
      refine h.grow flow (done.followUp w) (List.Sublist.refl _) ?_ hlog hno
        hcalls (fun q hq => ?_) (le_refl _) hl.nextVC hm (fun _ _ => ⟨rfl, rfl⟩)
      · rw [LoginDone.after, followUp_signedIn]
        rfl
      · obtain ⟨hbq, hnq⟩ := h.backed_followUp hb hr hq
        exact ⟨hfresh, hid, hbq.append (hno flow), fun vc he => absurd he (hnq vc)⟩
  | @refused email password done sh ha hs =>
      obtain ⟨hno, hcalls⟩ := h.afterLogin false [] hb hr
        (fun x hx => absurd hx List.not_mem_nil) hs.entered (by simp)
      rw [List.append_nil] at hno hcalls
      refine h.grow flow (done.followUp w) (List.Sublist.refl _) rfl rfl hno
        hcalls (fun q hq => ?_) (le_refl _) hl.nextVC hm (fun _ _ => ⟨rfl, rfl⟩)
      obtain ⟨hbq, hnq⟩ := h.backed_followUp hb hr hq
      exact ⟨hfresh, hid, hbq.append (hno flow), fun vc he => absurd he (hnq vc)⟩
  | created ha ho => exact h.created hfresh hid hb hr ha ho
  | createdUnheard ha ho =>
      exact h.frame (List.Sublist.refl _) rfl (le_refl _) (le_refl _) hm fun _ _ => ⟨rfl, rfl⟩
  | notCreated ha => exact h
  | uploaded he hu =>
      exact h.frame (List.Sublist.refl _) rfl (le_refl _) (le_refl _) hm fun _ _ => ⟨rfl, rfl⟩
  | uploadTrap he =>
      exact h.frame (List.Sublist.refl _) rfl (le_refl _) (le_refl _) hm fun _ _ => ⟨rfl, rfl⟩

/-- Entering a gate calls nobody. -/
theorem entered (h : Traced w) {gate : Gate} {cu : Option User}
    (hsub : w'.pending.Sublist w.pending) (hl : w'.log = .entered gate cu :: w.log)
    (hf : w.nextFlow ≤ w'.nextFlow) (hv : w.nextVC ≤ w'.nextVC)
    (hm : ∀ vc, .auth vc ∈ w'.modals → vc < w'.nextVC)
    (ha : ∀ vc < w.nextVC, (w'.auths vc).email = (w.auths vc).email ∧
      (w'.auths vc).name = (w.auths vc).name) : Traced w' := by
  have hno : NoConfirmation [Entry.entered gate cu] := by
    intro _ _ _ _ _ hx
    cases List.mem_singleton.mp hx
  refine h.grow ⟨0, .silent⟩ none hsub (List.append_nil _).symm hl hno ?_
    (by simp) hf hv hm ha
  refine h.calls.append hno ?_ ?_ ?_
  · intro _ _ _ _ _ hx
    cases List.mem_singleton.mp hx
  · intro _ _ _ _ _ _ hx
    cases List.mem_singleton.mp hx
  · intro _ _ _ hx
    cases List.mem_singleton.mp hx

/-- A chain that has not been started yet. -/
theorem newFlow_fresh (h : Traced w) (origin : Origin) :
    (∀ p ∈ w.pending, p.flow ≠ ⟨w.nextFlow, origin⟩) ∧
      ∀ vc provider e n, Entry.confirmed ⟨w.nextFlow, origin⟩ vc provider e n ∉ w.log := by
  refine ⟨fun p hp he => ?_, fun vc provider e n hx => ?_⟩
  · have hlt := h.flowIds p hp
    rw [he] at hlt
    exact lt_irrefl _ hlt
  · exact lt_irrefl _ (h.logIds _ _ _ _ _ hx).1

/-- **A new chain**: one that waits for its provider, or one that is none of
Facebook's or Google's. -/
theorem started (h : Traced w) {origin : Origin} {r : Request}
    (hp : w'.pending = w.pending ++ [⟨⟨w.nextFlow, origin⟩, r⟩])
    (hl : w'.log = .sent ⟨w.nextFlow, origin⟩ r :: w.log)
    (hr : (∃ vc, r = .graph vc ∧ vc < w.nextVC) ∨ ∀ log, Backed log ⟨⟨w.nextFlow, origin⟩, r⟩)
    (hs : (⟨w.nextFlow, origin⟩ : Flow).Social → ∃ vc, r = .graph vc)
    (hf : w'.nextFlow = w.nextFlow + 1) (hv : w'.nextVC = w.nextVC)
    (hm : w'.modals = w.modals)
    (ha : ∀ vc, (w'.auths vc).email = (w.auths vc).email ∧
      (w'.auths vc).name = (w.auths vc).name) : Traced w' := by
  obtain ⟨hfresh, hno⟩ := h.newFlow_fresh origin
  have hnc : NoConfirmation [Entry.sent ⟨w.nextFlow, origin⟩ r] := by
    intro _ _ _ _ _ hx
    cases List.mem_singleton.mp hx
  refine h.grow ⟨w.nextFlow, origin⟩ (some r) (List.Sublist.refl _) hp hl hnc ?_
    (fun q hq => ?_) (hf ▸ Nat.le_succ _) hv.ge (fun vc hin => ?_) (fun vc _ => ha vc)
  · refine h.calls.append hnc ?_ ?_ ?_
    · intro _ _ _ _ hsoc hx
      cases List.mem_singleton.mp hx
      obtain ⟨vc, he⟩ := hs hsoc
      cases he
    · intro _ _ _ _ _ hsoc hx
      cases List.mem_singleton.mp hx
      obtain ⟨vc, he⟩ := hs hsoc
      cases he
    · intro _ _ _ hx
      cases List.mem_singleton.mp hx
  · cases hq
    refine ⟨hfresh, hf ▸ Nat.lt_succ_self _, ?_, fun vc he => ?_⟩
    · obtain ⟨vc, he, _⟩ | hb := hr
      · subst he
        intro vc' provider e n hx
        exact (List.mem_append.mp hx).elim (hnc _ _ _ _ _) (hno vc' provider e n)
      · exact hb _
    · obtain ⟨vc', he', hlt⟩ | hb := hr
      · rw [he] at he'
        cases he'
        rwa [hv]
      · -- without a confirmation behind it a graph request would not be backed by every record
        subst he
        exact absurd (List.mem_singleton_self _)
          (hb [.confirmed ⟨w.nextFlow, origin⟩ 0 .google "" ""] 0 .google "" "")
  · rw [hv]
    exact h.authVCs vc (hm ▸ hin)

/-- **Steps** that are undisturbed keep a state traced. -/
theorem step (h : Traced w) {ev : Event} (hstep : w.step ev = some w')
    (hC : Undisturbed w ev) : Traced w' := by
  obtain ⟨_, hs⟩ := step_cases hstep
  have hsame : ∀ vc < w.nextVC, (w.auths vc).email = (w.auths vc).email ∧
      (w.auths vc).name = (w.auths vc).name := fun _ _ => ⟨rfl, rfl⟩
  cases hs with
  | @fbLogin vc rest granted hm =>
      refine h.started rfl rfl (.inl ⟨vc, rfl, ?_⟩) (fun _ => ⟨vc, rfl⟩) rfl rfl rfl
        (fun _ => auths_logged w _ _ _)
      exact h.authVCs vc (by rw [hm]; exact List.mem_cons_self)
  | googleDeclined hm =>
      exact h.frame (List.Sublist.refl _) rfl (le_refl _) (le_refl _) h.authVCs
        fun _ _ => auths_logged w _ _ _
  | googleTrap hm =>
      exact h.frame (List.Sublist.refl _) rfl (le_refl _) (le_refl _) h.authVCs
        fun _ _ => auths_logged w _ _ _
  | @googleConfirmed vc rest e n hm =>
      have h₀ : Traced { w with
          auths := Function.update w.auths vc { w.auths vc with emailLogged := 0 } } :=
        h.frame (List.Sublist.refl _) rfl (le_refl _) (le_refl _) h.authVCs
          fun _ _ => auths_logged w _ _ _
      obtain ⟨hfresh, hno⟩ := h.newFlow_fresh .google
      exact h₀.confirm hfresh (Nat.lt_succ_self _) (Nat.le_succ _)
        (h.authVCs vc (by rw [hm]; exact List.mem_cons_self)) hno
  | signinShown hm hu h13 =>
      refine h.frame (List.Sublist.refl _) rfl (le_refl _) (Nat.le_succ _) ?_
        fun _ _ => auths_logged w _ _ _
      intro vc hin
      exact (h.authVCs vc (by simpa using hin)).trans (Nat.lt_succ_self _)
  | signinSkipped hm hu hs =>
      refine h.frame (List.Sublist.refl _) rfl (le_refl _) (Nat.le_succ _) ?_
        fun _ _ => auths_logged w _ _ _
      intro vc hin
      exact (h.authVCs vc (hs.subset hin)).trans (Nat.lt_succ_self _)
  | signinMissing hm =>
      exact h.frame (List.Sublist.refl _) rfl (le_refl _) (le_refl _) h.authVCs
        fun _ _ => auths_logged w _ _ _
  | signInPressed hm =>
      refine h.started rfl rfl (.inr fun log => ?_) ?_ rfl rfl rfl fun _ => ⟨rfl, rfl⟩
      · simp [Backed, Flow.Social]
      · simp [Flow.Social]
  | closed hm hu =>
      refine h.frame (List.Sublist.refl _) rfl (le_refl _) (le_refl _) ?_ hsame
      exact fun vc hin => h.authVCs vc (by rw [hm]; exact List.mem_cons_of_mem _ hin)
  | closedSignedIn hm hu hs =>
      exact h.frame (List.Sublist.refl _) rfl (le_refl _) (le_refl _)
        (fun vc hin => h.authVCs vc (hs.subset hin)) hsame
  | @loggedOutToAuth _ signsOut fetches token hl hm h13 =>
      have h₀ : Traced (w.loggedOut token fetches) :=
        h.frame (List.Sublist.refl _) rfl (le_refl _) (le_refl _) h.authVCs hsame
      exact h₀.presentAuth
  | findSilent hm hf ht =>
      refine h.started rfl rfl (.inr fun log => ?_) ?_ rfl rfl rfl fun _ => ⟨rfl, rfl⟩
      · simp [Backed, Flow.Social]
      · simp [Flow.Social]
  | menuSignOut hm ht he =>
      exact h.entered (List.Sublist.refl _) rfl (le_refl _) (le_refl _) h.authVCs hsame
  | menuTrap hm ht he =>
      exact h.entered (List.Sublist.refl _) rfl (le_refl _) (le_refl _) h.authVCs hsame
  | donePressed hm he =>
      have h₀ : Traced (w.record (.entered .donePressed w.currentUser)) :=
        h.entered (List.Sublist.refl _) rfl (le_refl _) (le_refl _) h.authVCs hsame
      refine h₀.started rfl rfl (.inr fun log => ?_) ?_ rfl rfl rfl fun _ => ⟨rfl, rfl⟩
      · simp [Backed, Flow.Social]
      · simp [Flow.Social]
  | doneTrap hm he =>
      exact h.entered (List.Sublist.refl _) rfl (le_refl _) (le_refl _) h.authVCs hsame
  | @deliver i o p hp hu =>
      obtain ⟨flow, r⟩ := p
      have hin : (⟨flow, r⟩ : Pending) ∈ w.pending := List.mem_of_getElem? hp
      have h₀ : Traced (w.taken i) :=
        h.frame (List.eraseIdx_sublist _ _) rfl (le_refl _) (le_refl _) h.authVCs hsame
      obtain ⟨hfresh, _⟩ := pairwise_taken (fun hne => Ne.symm hne) hp h.flows
      refine h₀.complete (fun q hq => (hfresh q hq).symm) (h.flowIds _ hin) (h.backed _ hin) ?_ ?_
        (complete_cases (w.taken i) flow o r)
      · intro vc he
        subst he
        exact h.graphVCs flow vc hin
      · exact hC _ (answering_deliver hp)
  | @snapshot i ob ho =>
      obtain ⟨b, u, c, he, _⟩ := observer_deliver_eq ob w
      rw [he]
      exact h.frame (List.Sublist.refl _) rfl (le_refl _) (le_refl _) h.authVCs hsame
  | relaunched hu =>
      exact h.frame (List.nil_sublist _) rfl (le_refl _) (le_refl _)
        (fun _ hin => absurd hin List.not_mem_nil) hsame
  | relaunchedToAuth hu =>
      have h₀ : Traced w.killed :=
        h.frame (List.nil_sublist _) rfl (le_refl _) (le_refl _)
          (fun _ hin => absurd hin List.not_mem_nil) hsame
      exact h₀.presentAuth
  | _ => exact h.frame (List.Sublist.refl _) rfl (le_refl _) (le_refl _) h.authVCs hsame

end Traced

theorem traced_fresh (cloud : Cloud) (available13 : Bool) :
    Traced (World.fresh cloud available13) := by
  have hlog : (World.fresh cloud available13).log = [] := rfl
  have hpend : (World.fresh cloud available13).pending = [] := rfl
  refine ⟨⟨?_, ?_, ?_, ?_⟩, ?_, ?_, ?_, ?_, ?_, ?_, ?_⟩
  · intro _ _ _ _ _ _ _ _ _ hx
    exact absurd hx List.not_mem_nil
  · intro _ _ _ _ _ hx
    exact absurd hx List.not_mem_nil
  · intro _ _ _ _ _ _ hx
    exact absurd hx List.not_mem_nil
  · intro _ _ _ hx
    exact absurd hx List.not_mem_nil
  · intro p hp
    exact absurd hp List.not_mem_nil
  · exact List.Pairwise.nil
  · intro p hp
    exact absurd hp List.not_mem_nil
  · intro _ _ _ _ _ hx
    exact absurd hx List.not_mem_nil
  · intro _ _ hp
    exact absurd hp List.not_mem_nil
  · intro vc hin
    cases List.mem_singleton.mp hin
    exact Nat.lt_succ_self _
  · intro vc e n hl
    cases hl

/-! ## runs -/

/-- **Every chain acts on its own credentials** in every run in which no other
chain's confirmation comes between a chain's confirmation and a completion
that reads it. -/
theorem ownCalls_of_run (cloud : Cloud) (available13 : Bool) (es : List Event) (t : World)
    (h : Runs.run World.step (World.fresh cloud available13) es = some t)
    (hC : Runs.Meets World.step Undisturbed (World.fresh cloud available13) es) :
    OwnCalls t.log :=
  (Runs.inv_of_run (fun _ _ _ ht hC hstep => ht.step hstep hC) h hC
    (traced_fresh cloud available13)).calls

/-- A Facebook registration, and after a logout a Google one on the next
`AuthVC`. -/
theorem ownCalls_of_two_registrations :
    ∃ t, Runs.run World.step (World.fresh ⟨Accounts.empty, ∅⟩ true)
        [.fbLogin true, .deliver 0 (.graph "a@x" "Ann"), .deliver 0 (.ok "u"),
          .deliver 0 (.ok "u"), .deliver 0 (.ok "u"), .donePressed, .deliver 0 (.ok "u"),
          .menuAppears (.rows ["a@x"]), .menuLogOut true true,
          .googleSignIn (some ⟨some "b@x", some "Bob"⟩), .deliver 0 (.ok "v"),
          .deliver 0 (.ok "v"), .deliver 0 (.ok "v")] = some t ∧ OwnCalls t.log := by
  obtain ⟨t, h⟩ := Option.isSome_iff_exists.mp (by decide :
    (Runs.run World.step (World.fresh ⟨Accounts.empty, ∅⟩ true)
        [.fbLogin true, .deliver 0 (.graph "a@x" "Ann"), .deliver 0 (.ok "u"),
          .deliver 0 (.ok "u"), .deliver 0 (.ok "u"), .donePressed, .deliver 0 (.ok "u"),
          .menuAppears (.rows ["a@x"]), .menuLogOut true true,
          .googleSignIn (some ⟨some "b@x", some "Bob"⟩), .deliver 0 (.ok "v"),
          .deliver 0 (.ok "v"), .deliver 0 (.ok "v")]).isSome)
  exact ⟨t, h, ownCalls_of_run ⟨Accounts.empty, ∅⟩ true _ t h (by decide)⟩

/-- Google confirms on the same controller while the first sign-in of a Facebook
chain is in flight: the Facebook chain creates the account of the Google user
with Facebook's password. -/
theorem not_ownCalls :
    ∃ t, Runs.run World.step (World.fresh ⟨Accounts.empty, ∅⟩ true)
        [.fbLogin true, .deliver 0 (.graph "a@x" "Ann"),
          .googleSignIn (some ⟨some "b@x", some "Bob"⟩), .deliver 0 (.ok "u"),
          .deliver 1 (.ok "u")] = some t ∧
      (⟨"u", "b@x", "FBUser"⟩ : Account) ∈ t.accounts.toList ∧ ¬OwnCalls t.log := by
  have hrun : ∃ t, Runs.run World.step (World.fresh ⟨Accounts.empty, ∅⟩ true)
      [.fbLogin true, .deliver 0 (.graph "a@x" "Ann"),
        .googleSignIn (some ⟨some "b@x", some "Bob"⟩), .deliver 0 (.ok "u"),
        .deliver 1 (.ok "u")] = some t ∧
      decide ((⟨"u", "b@x", "FBUser"⟩ : Account) ∈ t.accounts.toList ∧
        Entry.sent ⟨0, .facebook⟩ (.createUser "b@x" "FBUser" (some "Bob") (.social 0 "FBUser")) ∈
          t.log ∧
        confirmationOf ⟨0, .facebook⟩ t.log = some ("a@x", "Ann")) = true :=
    Option.map_eq_some_iff.mp (by decide)
  obtain ⟨t, ht, hdec⟩ := hrun
  obtain ⟨hacc, hsent, hconf⟩ := of_decide_eq_true hdec
  refine ⟨t, ht, hacc, fun hown => ?_⟩
  obtain ⟨vc, provider, n, hc, _⟩ := hown.createUser _ _ _ _ _ (.inl rfl) hsent
  have hother : confirmationOf ⟨0, .facebook⟩ t.log = some ("b@x", n) := by
    refine confirmationOf_eq ⟨vc, provider, hc⟩ fun vc' provider' e' n' hc' => ?_
    obtain ⟨_, _, he, hn⟩ := hown.unique _ _ _ _ _ _ _ _ _ hc hc'
    exact ⟨he.symm, hn.symm⟩
  rw [hconf] at hother
  exact absurd hother (by simp)

end StreetParker
