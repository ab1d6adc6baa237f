import StreetParker.Steps

/-!
# StreetParker.History

What only grows in a run: the record, the accounts, and the numbers of chains
and controllers.
-/

namespace StreetParker

open World

/-- A later state of the same installation. -/
structure Later (w w' : World) : Prop where
  log : w.log <:+ w'.log
  accounts : ∀ a ∈ w.accounts, a ∈ w'.accounts
  nextFlow : w.nextFlow ≤ w'.nextFlow
  nextVC : w.nextVC ≤ w'.nextVC

namespace Later

variable {w w' w'' : World}

theorem refl (w : World) : Later w w :=
  ⟨List.suffix_refl _, fun _ => id, le_refl _, le_refl _⟩

theorem trans (h : Later w w') (h' : Later w' w'') : Later w w'' :=
  ⟨h.log.trans h'.log, fun a ha => h'.accounts a (h.accounts a ha),
    h.nextFlow.trans h'.nextFlow, h.nextVC.trans h'.nextVC⟩

theorem of_eq (hl : w'.log = w.log) (ha : w'.accounts = w.accounts)
    (hf : w'.nextFlow = w.nextFlow) (hv : w'.nextVC = w.nextVC) : Later w w' :=
  ⟨hl ▸ List.suffix_refl _, ha ▸ fun _ => id, hf.ge, hv.ge⟩

theorem complete {flow : Flow} {o : Outcome} {r : Request} (h : Completes w flow o r w') :
    Later w w' := by
  have hgrow : ∀ {o email password a db}, w.createUserReply o email password = some (a, db) →
      ∀ b ∈ w.accounts, b ∈ db := by
    intro o email password a db h b hb
    rw [Accounts.mem_def, (createUserReply_some h).2.2]
    exact List.mem_cons_of_mem _ hb
  cases h with
  | graphFailed => exact refl w
  | graphTrap => exact of_eq rfl rfl rfl rfl
  | graphConfirmed hp =>
      exact ⟨(List.suffix_cons _ _).trans (List.suffix_cons _ _), fun _ => id, le_refl _,
        le_refl _⟩
  | @accepted email password done a sh ha hs =>
      refine ⟨(List.suffix_cons _ _).trans (List.suffix_append _ _), fun _ => id, le_refl _, ?_⟩
      cases hs with
      | shows _ _ hn _ _ => exact (Nat.le_succ _).trans hn.ge
      | hides _ _ hn _ _ => exact hn.ge
  | @refused email password done sh ha hs =>
      refine ⟨List.suffix_append _ _, fun _ => id, le_refl _, ?_⟩
      cases hs with
      | shows _ _ hn _ _ => exact (Nat.le_succ _).trans hn.ge
      | hides _ _ hn _ _ => exact hn.ge
  | created ha ho =>
      refine ⟨?_, fun b hb => ?_, ?_, ?_⟩ <;> simp only [RegisterDone.after, userCreated] <;>
        split
      · exact (List.suffix_cons _ _).trans (List.suffix_append _ _)
      · exact (List.suffix_cons _ _).trans (List.suffix_append _ _)
      · exact hgrow ha b hb
      · exact hgrow ha b hb
      all_goals exact le_refl _
  | createdUnheard ha ho => exact ⟨List.suffix_refl _, hgrow ha, le_refl _, le_refl _⟩
  | notCreated ha => exact refl w
  | uploaded he hu => exact of_eq rfl rfl rfl rfl
  | uploadTrap he => exact of_eq rfl rfl rfl rfl

theorem step {ev : Event} (hstep : w.step ev = some w') : Later w w' := by
  obtain ⟨_, hs⟩ := step_cases hstep
  cases hs with
  | fbLogin hm => exact ⟨List.suffix_cons _ _, fun _ => id, Nat.le_succ _, le_refl _⟩
  | googleConfirmed hm =>
      exact ⟨(List.suffix_cons _ _).trans (List.suffix_cons _ _), fun _ => id, Nat.le_succ _,
        le_refl _⟩
  | signinShown hm hu h13 => exact ⟨List.suffix_refl _, fun _ => id, le_refl _, Nat.le_succ _⟩
  | signinSkipped hm hu hs => exact ⟨List.suffix_refl _, fun _ => id, le_refl _, Nat.le_succ _⟩
  | signInPressed hm => exact ⟨List.suffix_cons _ _, fun _ => id, Nat.le_succ _, le_refl _⟩
  | loggedOutToAuth hl hm h13 =>
      exact ⟨List.suffix_refl _, fun _ => id, le_refl _, Nat.le_succ _⟩
  | findSilent hm hf ht => exact ⟨List.suffix_cons _ _, fun _ => id, Nat.le_succ _, le_refl _⟩
  | menuSignOut hm ht he => exact ⟨List.suffix_cons _ _, fun _ => id, le_refl _, le_refl _⟩
  | menuTrap hm ht he => exact ⟨List.suffix_cons _ _, fun _ => id, le_refl _, le_refl _⟩
  | donePressed hm he =>
      exact ⟨(List.suffix_cons _ _).trans (List.suffix_cons _ _), fun _ => id, Nat.le_succ _,
        le_refl _⟩
  | doneTrap hm he => exact ⟨List.suffix_cons _ _, fun _ => id, le_refl _, le_refl _⟩
  | @deliver i o p hp hu =>
      exact (of_eq rfl rfl rfl rfl : Later w (w.taken i)).trans
        (complete (complete_cases (w.taken i) p.flow o p.request))
  | @snapshot i ob ho =>
      obtain ⟨b, u, c, he, _⟩ := observer_deliver_eq ob w
      rw [he]
      exact of_eq rfl rfl rfl rfl
  | relaunchedToAuth hu => exact ⟨List.suffix_refl _, fun _ => id, le_refl _, Nat.le_succ _⟩
  | _ => exact of_eq rfl rfl rfl rfl

/-- The two ends of a run. -/
theorem run {es : List Event} (h : Runs.run World.step w es = some w') : Later w w' :=
  Runs.rel_of_run refl (fun _ _ _ => trans) (fun _ _ _ => step) h

end Later

/-! ## one request out of those in flight -/

section Taken

variable {α : Type*} {l : List α} {i : Nat} {p : α}

theorem perm_taken (hp : l[i]? = some p) : (p :: l.eraseIdx i).Perm l := by
  obtain ⟨hi, he⟩ := List.getElem?_eq_some_iff.mp hp
  rw [← he]
  exact List.getElem_cons_eraseIdx_perm hi

/-- A member is the one taken out or stays. -/
theorem eq_or_mem_taken (hp : l[i]? = some p) {q : α} (hq : q ∈ l) : q = p ∨ q ∈ l.eraseIdx i :=
  List.mem_cons.mp ((perm_taken hp).mem_iff.mpr hq)

/-- The only one in flight is the one taken out. -/
theorem eq_of_singleton {q : α} (hl : l = [q]) (hp : l[i]? = some p) :
    p = q ∧ l.eraseIdx i = [] := by
  subst hl
  cases i with
  | zero => exact ⟨(Option.some.inj hp).symm, rfl⟩
  | succ i => contradiction

/-- What relates any two members relates the one taken out to those that
stay. -/
theorem pairwise_taken {R : α → α → Prop} (hsymm : ∀ {x y}, R x y → R y x)
    (hp : l[i]? = some p) (h : l.Pairwise R) :
    (∀ q ∈ l.eraseIdx i, R p q) ∧ (l.eraseIdx i).Pairwise R :=
  List.pairwise_cons.mp (h.perm (perm_taken hp).symm hsymm)

end Taken

end StreetParker
