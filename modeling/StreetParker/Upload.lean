import StreetParker.Labels
import StreetParker.Schema

/-!
# StreetParker.Upload

What becomes of the name a user types on the upload screen, while other
installations write to the tree.

* `prefills` — the names delivered to the screen's observer over a run;
* `nameTxt_of_run` — the field holds the last of them, or what was typed;
* `nameSent_iff` — when Done sends what was typed.
-/

namespace StreetParker

open World

/-! ## upload screens have numbers of their own -/

/-- The upload screens on the stack have been numbered. -/
def Numbered (w : World) : Prop := ∀ vc, Modal.upload vc ∈ w.modals → vc < w.nextVC

/-- A step that takes screens away, or adds others. -/
theorem Numbered.of_subset {w w' : World} (h : Numbered w) (hn : w.nextVC ≤ w'.nextVC)
    (hm : ∀ vc, Modal.upload vc ∈ w'.modals → .upload vc ∈ w.modals) : Numbered w' :=
  fun vc hin => (h vc (hm vc hin)).trans_le hn

theorem LoginDone.Screens.numbered {w w' : World} {done : LoginDone} {success : Bool} {sh : Shown}
    (hsc : done.Screens w success sh) (h : Numbered w) (hm : w'.modals = sh.modals)
    (hn : w'.nextVC = sh.nextVC) : Numbered w' := by
  cases hsc with
  | shows _ hm' hn' _ _ =>
      intro vc hin
      rw [hm, hm'] at hin
      rw [hn, hn']
      obtain he | hin := List.mem_cons.mp hin
      · cases he
        exact Nat.lt_succ_self _
      · exact (h vc hin).trans (Nat.lt_succ_self _)
  | hides _ hm' hn' _ _ =>
      refine h.of_subset (by rw [hn, hn']) fun vc hin => ?_
      rw [hm, hm'] at hin
      exact (dismissed_suffix w success done).subset hin

theorem Numbered.step {w w' : World} {ev : Event} (h : Numbered w)
    (hstep : w.step ev = some w') : Numbered w' := by
  obtain ⟨_, hs⟩ := step_cases hstep
  have hcons : ∀ {m : Modal} {rest}, (∀ vc, m ≠ .upload vc) →
      ∀ vc, Modal.upload vc ∈ m :: rest → .upload vc ∈ rest := by
    intro m rest hm vc hin
    exact (List.mem_cons.mp hin).resolve_left fun he => hm vc he.symm
  cases hs with
  | signinShown hm hu h13 => exact h.of_subset (Nat.le_succ _) (hcons (by simp))
  | signinSkipped hm hu hs => exact h.of_subset (Nat.le_succ _) fun vc => (hs.subset ·)
  | closed hm hu =>
      exact h.of_subset (le_refl _) fun vc hin => by rw [hm]; exact List.mem_cons_of_mem _ hin
  | closedSignedIn hm hu hs => exact h.of_subset (le_refl _) fun vc => (hs.subset ·)
  | loggedOutToAuth hl hm h13 =>
      exact h.of_subset (Nat.le_succ _) fun vc hin => absurd (hcons (by simp) vc hin) (by simp)
  | @snapshot k ob ho =>
      obtain ⟨b, u, c, he, _⟩ := observer_deliver_eq ob w
      rw [he]
      exact h
  | @deliver i o p hp hu =>
      obtain ⟨flow, r⟩ := p
      have ht : Numbered (w.taken i) := h
      have hd : Completes (w.taken i) flow o r ((w.taken i).complete flow o r) :=
        complete_cases (w.taken i) flow o r
      dsimp only
      generalize (w.taken i).complete flow o r = w' at hd
      cases hd with
      | @accepted email password done a sh ha hsc =>
          exact hsc.numbered (w := (w.taken i).signedIn flow a) ht rfl rfl
      | refused ha hsc => exact hsc.numbered ht rfl rfl
      | created ha ho =>
          rw [userCreated_eq]
          exact ht
      | @uploaded vc em name plNumber color eff users he hu =>
          have hs := uploadedModals_suffix vc eff.handled { w.taken i with users := users }
          exact ht.of_subset (le_refl _) fun vc => (hs.subset ·)
      | _ => exact ht
  | relaunched hu => exact h.of_subset (le_refl _) fun vc hin => absurd hin List.not_mem_nil
  | relaunchedToAuth hu =>
      exact h.of_subset (Nat.le_succ _) fun vc hin => absurd (hcons (by simp) vc hin) (by simp)
  | _ => exact h

/-- In every run of a system. -/
theorem numbered_of_run {ι : Type*} [DecidableEq ι] {accounts : Accounts} {available13 : ι → Bool}
    {es : List (ι × Event)} {s : System ι}
    (h : Runs.run System.step (System.fresh accounts available13) es = some s) (i : ι) :
    Numbered (s.view i) := by
  refine Runs.inv_of_run' (P := fun s : System ι => Numbered (s.view i)) ?_ h ?_
  · rintro s ⟨j, ev⟩ s' hn hstep
    by_cases hij : i = j
    · subst hij
      exact hn.step (System.view_of_step hstep)
    · rw [Numbered, System.view, System.phone_of_step hstep hij]
      exact hn
  · intro vc hin
    simp [System.view, System.fresh, World.fresh, AppDelegate.didFinishLaunching,
      World.presentAuth] at hin

/-! ## the name field over a run -/

section Run

variable {ι : Type*} [DecidableEq ι] {i : ι} {vc : Nat}

/-- The names that a run delivers to the observer of the upload screen `vc` of
the installation `i`. -/
def prefills (i : ι) (vc : Nat) : System ι → List (ι × Event) → List String
  | _, [] => []
  | s, (j, ev) :: es =>
      (if j = i then prefill vc (s.view i) ev else []) ++
        match s.step (j, ev) with
        | some s' => prefills i vc s' es
        | none => []

/-- The user does not edit the name: an edit on that screen leaves it as it is. -/
def KeepsName (i : ι) (vc : Nat) (s : System ι) (e : ι × Event) : Prop :=
  ∀ n l c rest, e = (i, .editUpload n l c) → (s.phones i).modals = .upload vc :: rest →
    n = ((s.phones i).uploads vc).nameTxt

/-- **The name field** over a run: the last name delivered, or what was there. -/
theorem nameTxt_of_run {s t : System ι} {es : List (ι × Event)}
    (hrun : Runs.run System.step s es = some t) (hvc : vc < (s.phones i).nextVC)
    (hkeep : Runs.Meets System.step (KeepsName i vc) s es) :
    ((t.phones i).uploads vc).nameTxt =
      (prefills i vc s es).getLast?.getD ((s.phones i).uploads vc).nameTxt := by
  induction es generalizing s with
  | nil =>
      cases hrun
      rfl
  | cons e es ih =>
      obtain ⟨j, ev⟩ := e
      obtain ⟨s', hs, hr⟩ := Runs.run_cons hrun
      have hstep : (s'.phones i).nextVC ≥ (s.phones i).nextVC ∧
          ((s'.phones i).uploads vc).nameTxt =
            (if j = i then prefill vc (s.view i) ev else []).getLast?.getD
              ((s.phones i).uploads vc).nameTxt := by
        by_cases hj : j = i
        · subst hj
          have hview := System.view_of_step hs
          rw [if_pos rfl]
          refine ⟨(Later.step hview).nextVC, nameTxt_of_step hview hvc fun n l c rest he hm => ?_⟩
          exact hkeep.1 n l c rest (by rw [he]) hm
        · rw [System.phone_of_step hs (Ne.symm hj), if_neg hj]
          exact ⟨le_refl _, rfl⟩
      rw [ih hr (hvc.trans_le hstep.1) (hkeep.tail hs), hstep.2, prefills, hs,
        List.getLast?_append]
      cases (prefills i vc s' es).getLast? <;> rfl

end Run

/-! ## Done -/

/-- What an edit leaves in the field. -/
theorem nameTxt_of_edit {w w' : World} {n l c : String} {vc : Nat} {rest : List Modal}
    (hstep : w.step (.editUpload n l c) = some w') (hm : w.modals = .upload vc :: rest) :
    (w'.uploads vc).nameTxt = n := by
  obtain ⟨_, hs⟩ := step_cases hstep
  cases hs with
  | editUpload hm' =>
      cases hm.symm.trans hm'
      simp
  | signOutThrew hl => cases hl
  | loggedOut hl _ => cases hl
  | loggedOutToAuth hl _ _ => cases hl

/-- What Done sends is in the field. -/
theorem nameTxt_of_done {w w' : World} {vc : Nat} {rest : List Modal} {flow : Flow}
    {em name plNumber color : String} (hstep : w.step .donePressed = some w')
    (hm : w.modals = .upload vc :: rest)
    (hsent : w'.pending = w.pending ++ [⟨flow, .carInfo vc em name plNumber color⟩]) :
    name = (w.uploads vc).nameTxt := by
  obtain ⟨_, hs⟩ := step_cases hstep
  cases hs with
  | donePressed hm' he =>
      cases hm.symm.trans hm'
      have hlast := List.append_cancel_left hsent
      cases hlast
      rfl
  | doneTrap hm' he => simp at hsent
  | signOutThrew hl => cases hl
  | loggedOut hl _ => cases hl
  | loggedOutToAuth hl _ _ => cases hl

/-- **What Done sends.**  Any number of installations, any run, the user types a
name on the upload screen and edits it no more; whatever the installations do
until Done is pressed on the screen, the name it sends is the one typed exactly
when no name has been delivered to the screen's observer meanwhile, or the last
one was that name. -/
theorem nameSent_iff {ι : Type*} [DecidableEq ι] (accounts : Accounts) (available13 : ι → Bool)
    (es₀ : List (ι × Event)) (s₀ : System ι)
    (h₀ : Runs.run System.step (System.fresh accounts available13) es₀ = some s₀) (i : ι)
    (vc : Nat) (rest : List Modal) (hm : (s₀.phones i).modals = .upload vc :: rest)
    (n l c : String) (s₁ : System ι) (hedit : s₀.step (i, .editUpload n l c) = some s₁)
    (es : List (ι × Event)) (s₂ : System ι) (hrun : Runs.run System.step s₁ es = some s₂)
    (hkeep : Runs.Meets System.step (KeepsName i vc) s₁ es) (rest₂ : List Modal)
    (hm₂ : (s₂.phones i).modals = .upload vc :: rest₂) (t : System ι)
    (hdone : s₂.step (i, .donePressed) = some t) (flow : Flow)
    (em name plNumber color : String)
    (hsent : (t.phones i).pending =
      (s₂.phones i).pending ++ [⟨flow, .carInfo vc em name plNumber color⟩]) :
    name = n ↔ ∀ m ∈ (prefills i vc s₁ es).getLast?, m = n := by
  have hvc : vc < (s₀.phones i).nextVC := by
    refine numbered_of_run h₀ i vc ?_
    rw [System.view, hm]
    exact List.mem_cons_self
  have hview := System.view_of_step hedit
  have htyped : ((s₁.phones i).uploads vc).nameTxt = n := nameTxt_of_edit hview hm
  have hvc₁ : vc < (s₁.phones i).nextVC := hvc.trans_le (Later.step hview).nextVC
  have hname : name = ((s₂.phones i).uploads vc).nameTxt :=
    nameTxt_of_done (System.view_of_step hdone) hm₂ hsent
  rw [hname, nameTxt_of_run hrun hvc₁ hkeep, htyped]
  cases (prefills i vc s₁ es).getLast? <;> simp

/-- A Facebook registration has reached the upload screen, and a name is typed. -/
def typed : List (Bool × Event) :=
  [(true, .fbLogin true), (true, .deliver 0 (.graph "a@x" "Ann")), (true, .deliver 0 (.ok "")),
    (true, .deliver 0 (.ok "u")), (true, .deliver 0 (.ok ""))]

/-- Somebody else registers through Google. -/
def otherRegisters : List (Bool × Event) :=
  [(false, .googleSignIn (some ⟨some "b@x", some "Bob"⟩)), (false, .deliver 0 (.ok "")),
    (false, .deliver 0 (.ok "v"))]

/-- No snapshot has arrived by the time Done is pressed. -/
theorem nameSent_before_snapshot :
    ∃ s₀ s₁ s₂ t : System Bool,
      Runs.run System.step (System.fresh .empty fun _ => true) typed = some s₀ ∧
      s₀.step (true, .editUpload "Zoe" "A 1" "red") = some s₁ ∧
      Runs.run System.step s₁ otherRegisters = some s₂ ∧
      s₂.step (true, .donePressed) = some t ∧
      ∃ name, (t.phones true).pending =
        (s₂.phones true).pending ++ [⟨⟨1, .upload⟩, .carInfo 1 "a@x" name "A 1" "red"⟩] ∧
        name = "Zoe" := by
  have hdec : ((Runs.run System.step (System.fresh .empty fun _ => true) typed).bind fun s₀ =>
      (s₀.step (true, .editUpload "Zoe" "A 1" "red")).bind fun s₁ =>
      (Runs.run System.step s₁ otherRegisters).bind fun s₂ =>
      (s₂.step (true, .donePressed)).map fun t =>
        decide ((s₀.phones true).modals = [.upload 1, .auth 0] ∧
          (s₂.phones true).modals = [.upload 1, .auth 0] ∧
          prefills true 1 s₁ otherRegisters = [] ∧
          (t.phones true).pending = (s₂.phones true).pending ++
            [⟨⟨1, .upload⟩, .carInfo 1 "a@x" "Zoe" "A 1" "red"⟩])) = some true := by
    decide
  simp only [Option.bind_eq_some_iff, Option.map_eq_some_iff, decide_eq_true_eq] at hdec
  obtain ⟨s₀, h₀, s₁, h₁, s₂, h₂, t, ht, hm, hm₂, hpre, hsent⟩ := hdec
  have hkeep : Runs.Meets System.step (KeepsName true 1) s₁ otherRegisters := by
    have hother : ∀ e ∈ otherRegisters, e.1 = false := by decide
    refine (Runs.meets_of_forall hother s₁).mono fun s e he n l c rest heq _ => ?_
    rw [heq] at he
    contradiction
  refine ⟨s₀, s₁, s₂, t, h₀, h₁, h₂, ht, "Zoe", hsent, ?_⟩
  refine (nameSent_iff .empty (fun _ => true) typed s₀ h₀ true 1 [.auth 0] hm "Zoe" "A 1" "red" s₁
    h₁ otherRegisters s₂ h₂ hkeep [.auth 0] hm₂ t ht _ "a@x" "Zoe" "A 1" "red" hsent).mpr ?_
  rw [hpre]
  simp

/-- The snapshot of somebody else's registration arrives between the last
keystroke and Done: the name of the registration is sent, not the one typed. -/
theorem not_nameSent :
    ∃ s₀ s₁ s₂ s₃ t : System Bool,
      Runs.run System.step (System.fresh .empty fun _ => true) typed = some s₀ ∧
      s₀.step (true, .editUpload "Zoe" "A 1" "red") = some s₁ ∧
      Runs.run System.step s₁ otherRegisters = some s₂ ∧
      s₁.cloud.users["v"]? = none ∧ s₂.cloud.users["v"]?.isSome ∧
      s₂.step (true, .snapshot 0) = some s₃ ∧
      s₃.step (true, .donePressed) = some t ∧
      ∃ name, (t.phones true).pending =
        (s₃.phones true).pending ++ [⟨⟨1, .upload⟩, .carInfo 1 "a@x" name "A 1" "red"⟩] ∧
        name ≠ "Zoe" := by
  have hdec : ((Runs.run System.step (System.fresh .empty fun _ => true) typed).bind fun s₀ =>
      (s₀.step (true, .editUpload "Zoe" "A 1" "red")).bind fun s₁ =>
      (Runs.run System.step s₁ otherRegisters).bind fun s₂ =>
      (s₂.step (true, .snapshot 0)).bind fun s₃ =>
      (s₃.step (true, .donePressed)).map fun t =>
        decide (s₁.cloud.users["v"]?.isNone ∧ s₂.cloud.users["v"]?.isSome ∧
          (t.phones true).pending = (s₃.phones true).pending ++
            [⟨⟨1, .upload⟩, .carInfo 1 "a@x" "Ann" "A 1" "red"⟩])) = some true := by
    decide
  simp only [Option.bind_eq_some_iff, Option.map_eq_some_iff, decide_eq_true_eq] at hdec
  obtain ⟨s₀, h₀, s₁, h₁, s₂, h₂, s₃, h₃, t, ht, hbefore, hafter, hsent⟩ := hdec
  exact ⟨s₀, s₁, s₂, s₃, t, h₀, h₁, h₂, Option.isNone_iff_eq_none.mp hbefore, hafter, h₃, ht,
    "Ann", hsent, by decide⟩

end StreetParker
