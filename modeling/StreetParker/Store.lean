import StreetParker.Steps

/-!
# StreetParker.Store

The local store over whole sequences of calls, with the unsaved changes of the
context followed across the end of the process.

* `StoreCall`, `after` — the calls that reach the store, and the state they
  leave; `store_of_run` says that the application makes no others;
* `purged_iff` — how long a purge lasts;
* `trace_save_iff` — when a failed save leaves no trace;
* `replaced_of_purge_save` — purge and save leave one row, whatever came before.
-/

namespace StreetParker

open World

/-! ## the delegate -/

namespace AppDelegate

/-- `applicationDidEnterBackground`, which only prints. -/
def applicationDidEnterBackground (s : CoreData) : CoreData := s

/-- `applicationWillTerminate`, which is empty. -/
def applicationWillTerminate (s : CoreData) : CoreData := s

end AppDelegate

/-! ## calls -/

/-- What happens to the store; the flags say how Core Data takes it.  A
relaunch is the end of the process and the next launch. -/
inductive StoreCall where
  | save (em : String) (saves : Bool)
  | deleteAll (fetches : Bool)
  | fetchUserInfo (fetches : Bool)
  | background
  | relaunch
deriving DecidableEq, Repr

namespace StoreCall

/-- The state a call leaves. -/
def next (s : CoreData) : StoreCall → CoreData
  | .save em saves => (Dataservice.save em saves s).1
  | .deleteAll fetches => (Dataservice.deleteAllDataFromCoreData fetches s).1
  | .fetchUserInfo _ => s
  | .background => AppDelegate.applicationDidEnterBackground s
  | .relaunch => (AppDelegate.applicationWillTerminate s).discard

/-- The state after a sequence of calls. -/
def after (s : CoreData) (calls : List StoreCall) : CoreData := calls.foldl next s

/-- A call that neither saves nor deletes. -/
def Idle : StoreCall → Prop
  | .save _ _ => False
  | .deleteAll _ => False
  | .fetchUserInfo _ => True
  | .background => True
  | .relaunch => True

instance : (c : StoreCall) → Decidable c.Idle
  | .save _ _ | .deleteAll _ => inferInstanceAs (Decidable False)
  | .fetchUserInfo _ | .background | .relaunch => inferInstanceAs (Decidable True)

@[simp] theorem after_nil (s : CoreData) : after s [] = s := rfl

@[simp] theorem after_cons (s : CoreData) (c : StoreCall) (calls : List StoreCall) :
    after s (c :: calls) = after (next s c) calls := rfl

@[simp] theorem after_append (s : CoreData) (calls calls' : List StoreCall) :
    after s (calls ++ calls') = after (after s calls) calls' :=
  List.foldl_append

end StoreCall

open StoreCall

/-! ## the calls of the application -/

/-- The calls of the completion of a sign-in. -/
theorem storeAfter_eq (w : World) (success : Bool) (o : Outcome) (done : LoginDone) :
    ∃ calls, done.storeAfter w success o = after w.store calls := by
  refine ⟨(if done.purges success then [.deleteAll o.fetches] else []) ++
    (done.stores w success).toList.map fun em => .save em o.saves, ?_⟩
  unfold LoginDone.storeAfter
  cases done.purges success <;> cases done.stores w success <;> rfl

/-- What one event does to the store it does through these calls. -/
theorem store_of_step {w w' : World} {ev : Event} (h : w.step ev = some w') :
    ∃ calls, w'.store = after w.store calls := by
  have hlogout : ∀ (token : Option AccessToken) (fetches : Bool),
      (w.loggedOut token fetches).store = after w.store [.deleteAll fetches] :=
    fun _ _ => rfl
  obtain ⟨_, hs⟩ := step_cases h
  cases hs with
  | loggedOut hl h => exact ⟨_, hlogout _ _⟩
  | loggedOutToAuth hl hm h13 => exact ⟨_, hlogout _ _⟩
  | relaunched hu => exact ⟨[.relaunch], rfl⟩
  | relaunchedToAuth hu => exact ⟨[.relaunch], rfl⟩
  | @snapshot i ob ho =>
      obtain ⟨b, u, c, he, _⟩ := observer_deliver_eq ob w
      exact ⟨[], by rw [he]; rfl⟩
  | @deliver i o p hp hu =>
      obtain ⟨flow, r⟩ := p
      have hd : Completes (w.taken i) flow o r ((w.taken i).complete flow o r) :=
        complete_cases (w.taken i) flow o r
      dsimp only
      generalize (w.taken i).complete flow o r = w' at hd
      cases hd with
      | accepted ha hsc => exact storeAfter_eq _ _ _ _
      | refused ha hsc => exact storeAfter_eq _ _ _ _
      | created ha ho =>
          refine ⟨[], ?_⟩
          rw [userCreated_eq]
          rfl
      | _ => exact ⟨[], rfl⟩
  | _ => exact ⟨[], rfl⟩

/-- **Every reachable store** is the outcome of such calls on an empty one. -/
theorem store_of_run {cloud : Cloud} {available13 : Bool} {es : List Event} {w : World}
    (h : Runs.run World.step (World.fresh cloud available13) es = some w) :
    ∃ calls, w.store = after CoreData.empty calls := by
  refine Runs.inv_of_run' (P := fun w => ∃ calls, w.store = after CoreData.empty calls) ?_ h
    ⟨[], rfl⟩
  rintro s e s' ⟨calls, hs⟩ hstep
  obtain ⟨calls', hs'⟩ := store_of_step hstep
  exact ⟨calls ++ calls', by rw [hs', hs, after_append]⟩

/-! ## what a purge leaves -/

/-- No fetch that succeeds reports an e-mail. -/
def ReportsNone (s : CoreData) : Prop :=
  ∀ emails, (Fetch.rows emails).Of s → Dataservice.fetchUserInfo (.rows emails) = []

theorem reportsNone_iff {s : CoreData} : ReportsNone s ↔ s.fetchable = [] := by
  constructor
  · intro h
    exact h s.fetchable (List.Perm.refl _)
  · intro h emails hp
    exact List.Perm.eq_nil (h ▸ hp)

/-- At every point of the calls, nothing is reported. -/
def Purged (s : CoreData) (calls : List StoreCall) : Prop :=
  ∀ past, past <+: calls → ReportsNone (after s past)

/-- Idle calls change nothing before the process ends, and then bring back what
is persistent. -/
theorem after_idle {calls : List StoreCall} (h : ∀ c ∈ calls, c.Idle) (s : CoreData) :
    after s calls = if .relaunch ∈ calls then s.discard else s := by
  have hdiscard : ∀ s : CoreData, s.discard.discard = s.discard := by
    intro s
    simp [CoreData.discard]
  induction calls generalizing s with
  | nil => rfl
  | cons c rest ih =>
      have hrest := fun c hc => h c (List.mem_cons_of_mem _ hc)
      have hc := h c List.mem_cons_self
      rw [after_cons, ih hrest]
      cases c with
      | save em saves => exact hc.elim
      | deleteAll fetches => exact hc.elim
      | relaunch =>
          simp only [next, AppDelegate.applicationWillTerminate, List.mem_cons, true_or, if_true,
            hdiscard, ite_self]
      | _ => simp [next, AppDelegate.applicationDidEnterBackground]

/-- A deletion that has not been saved stays out of the persistent store. -/
@[simp] theorem persisted_deleteFetched (s : CoreData) :
    s.deleteFetched.persisted = s.persisted := by
  simp [CoreData.deleteFetched, CoreData.persisted, Function.comp_def]

/-- **How long a purge lasts.**  For every store and context and every sequence
of fetches and relaunches after a purge that reported success, nothing is
reported at any point exactly when no row was persistent, or the process does
not end. -/
theorem purged_iff (s : CoreData) (fetches : Bool)
    (h : (Dataservice.deleteAllDataFromCoreData fetches s).2 = true) (calls : List StoreCall)
    (hidle : ∀ c ∈ calls, c.Idle) :
    Purged (Dataservice.deleteAllDataFromCoreData fetches s).1 calls ↔
      s.persisted = [] ∨ .relaunch ∉ calls := by
  cases fetches with
  | false => contradiction
  | true =>
      have hpast : ∀ past, past <+: calls → (ReportsNone (after s.deleteFetched past) ↔
          s.persisted = [] ∨ .relaunch ∉ past) := by
        intro past hp
        rw [reportsNone_iff, after_idle fun c hc => hidle c (hp.subset hc)]
        split
        · next hin => simp [CoreData.fetchable_discard, hin]
        · next hout => simp [hout]
      constructor
      · intro hall
        exact (hpast calls (List.prefix_refl _)).mp (hall calls (List.prefix_refl _))
      · intro hor past hp
        refine (hpast past hp).mpr (hor.imp_right fun hout hin => hout (hp.subset hin))

/-- A purge and a fetch in the same process. -/
theorem purged_of_no_relaunch :
    Purged (Dataservice.deleteAllDataFromCoreData true ⟨[⟨"a@x", false⟩], []⟩).1
      [.fetchUserInfo true, .background, .fetchUserInfo true] :=
  (purged_iff ⟨[⟨"a@x", false⟩], []⟩ true rfl _ (by decide)).mpr (.inr (by decide))

/-- One stored row, purged: the next process reports it again. -/
theorem not_purged :
    (Dataservice.deleteAllDataFromCoreData true ⟨[⟨"a@x", false⟩], []⟩).2 = true ∧
      ¬Purged (Dataservice.deleteAllDataFromCoreData true ⟨[⟨"a@x", false⟩], []⟩).1
        [.background, .relaunch, .fetchUserInfo true] := by
  refine ⟨rfl, fun h => ?_⟩
  have hrows := h [.background, .relaunch] (by decide) ["a@x"] (List.Perm.refl _)
  contradiction

/-! ## what a failed save leaves -/

/-- The rows a call returns, if it is a fetch that succeeds. -/
def returned (s : CoreData) : StoreCall → Option (Multiset String)
  | .fetchUserInfo fetches => if fetches then some s.fetchable else none
  | .save _ _ => none
  | .deleteAll _ => none
  | .background => none
  | .relaunch => none

/-- What can be seen of the store at a call: the rows it returns, and the
persistent rows after it. -/
def observe (s : CoreData) (c : StoreCall) : Option (Multiset String) × Multiset String :=
  (returned s c, (next s c).persisted)

/-- What can be seen over a sequence of calls. -/
def trace (s : CoreData) : List StoreCall → List (Option (Multiset String) × Multiset String)
  | [] => []
  | c :: rest => observe s c :: trace (next s c) rest

/-- A successful deletion or the end of the process comes before any successful
fetch or save. -/
def Cleared : List StoreCall → Prop
  | [] => True
  | .deleteAll true :: _ => True
  | .relaunch :: _ => True
  | .fetchUserInfo true :: _ => False
  | .save _ true :: _ => False
  | .deleteAll false :: rest => Cleared rest
  | .fetchUserInfo false :: rest => Cleared rest
  | .save _ false :: rest => Cleared rest
  | .background :: rest => Cleared rest

/-- The context `t` holds one more unsaved row than `s`. -/
structure Extra (em : String) (s t : CoreData) : Prop where
  stored : t.stored = s.stored
  inserted : t.inserted.Perm (em :: s.inserted)

/-- What a failed save leaves behind. -/
theorem extra_save (em : String) (s : CoreData) : Extra em s (Dataservice.save em false s).1 :=
  ⟨rfl, List.perm_append_singleton _ _⟩

namespace Extra

variable {em : String} {s t : CoreData}

theorem persisted (h : Extra em s t) : t.persisted = s.persisted := by
  rw [CoreData.persisted, CoreData.persisted, h.stored]

/-- A fetch sees the extra row. -/
theorem fetchable (h : Extra em s t) : t.fetchable.Perm (em :: s.fetchable) := by
  rw [CoreData.fetchable, CoreData.fetchable, h.stored]
  exact (h.inserted.append_left _).trans List.perm_middle

/-- A fetch tells the two apart. -/
theorem fetchable_ne (h : Extra em s t) :
    (t.fetchable : Multiset String) ≠ (s.fetchable : Multiset String) := by
  intro he
  have hlen := (h.fetchable.symm.trans (Multiset.coe_eq_coe.mp he)).length_eq
  simp at hlen

/-- A save that succeeds commits the extra row. -/
theorem persisted_save_ne (h : Extra em s t) (em' : String) :
    ((Dataservice.save em' true t).1.persisted : Multiset String) ≠
      ((Dataservice.save em' true s).1.persisted : Multiset String) := by
  have hsave : ∀ s : CoreData,
      (Dataservice.save em' true s).1.persisted = s.fetchable ++ [em'] := by
    intro s
    rw [← CoreData.fetchable_discard, ← CoreData.fetchable_save em' true s]
    simp [Dataservice.save, CoreData.commit, CoreData.discard, CoreData.fetchable,
      Function.comp_def]
  rw [hsave, hsave]
  intro he
  have hlen := (Multiset.coe_eq_coe.mp he).length_eq
  rw [List.length_append, List.length_append, h.fetchable.length_eq] at hlen
  simp at hlen

/-- One more unsaved row on both sides. -/
theorem save_false (h : Extra em s t) (em' : String) :
    Extra em (Dataservice.save em' false s).1 (Dataservice.save em' false t).1 :=
  ⟨h.stored, h.inserted.append_right [em']⟩

/-- What drops the unsaved rows drops the difference. -/
theorem deleteFetched (h : Extra em s t) : t.deleteFetched = s.deleteFetched := by
  rw [CoreData.deleteFetched, CoreData.deleteFetched, h.stored]

theorem discard (h : Extra em s t) : t.discard = s.discard := by
  rw [CoreData.discard, CoreData.discard, h.stored]

/-- A call that returns no rows and leaves both contexts as far apart. -/
theorem observe_eq {c : StoreCall} (h : Extra em (next s c) (next t c))
    (hc : returned t c = returned s c) : observe t c = observe s c := by
  rw [observe, observe, hc, h.persisted]

/-- **Two runs**, one with the extra row: they look alike exactly when the row
is dropped before it can be seen. -/
theorem trace_eq_iff (h : Extra em s t) (calls : List StoreCall) :
    trace t calls = trace s calls ↔ Cleared calls := by
  induction calls generalizing s t with
  | nil => exact iff_of_true rfl trivial
  | cons c rest ih =>
      rw [trace, trace, List.cons.injEq]
      cases c with
      | save em' saves =>
          cases saves with
          | true =>
              refine iff_of_false (fun he => ?_) id
              exact h.persisted_save_ne em' (congrArg Prod.snd he.1)
          | false =>
              have hnext := h.save_false em'
              exact (and_iff_right (observe_eq (c := .save em' false) hnext rfl)).trans (ih hnext)
      | deleteAll fetches =>
          cases fetches with
          | true =>
              have hnext : next t (.deleteAll true) = next s (.deleteAll true) := h.deleteFetched
              refine iff_of_true ⟨?_, by rw [hnext]⟩ trivial
              rw [observe, observe, hnext]
              rfl
          | false =>
              exact (and_iff_right (observe_eq (c := .deleteAll false) h rfl)).trans (ih h)
      | fetchUserInfo fetches =>
          cases fetches with
          | true =>
              refine iff_of_false (fun he => ?_) id
              exact h.fetchable_ne (Option.some.inj (congrArg Prod.fst he.1))
          | false =>
              exact (and_iff_right (observe_eq (c := .fetchUserInfo false) h rfl)).trans (ih h)
      | background => exact (and_iff_right (observe_eq (c := .background) h rfl)).trans (ih h)
      | relaunch =>
          have hnext : next t .relaunch = next s .relaunch := h.discard
          refine iff_of_true ⟨?_, by rw [hnext]⟩ trivial
          rw [observe, observe, hnext]
          rfl

end Extra

/-- **What a failed save leaves.**  For every store and context and every
sequence of calls after a save that reported failure, everything that can be
seen is as if the save had never been called exactly when a successful deletion
or a relaunch comes before any successful fetch or save. -/
theorem trace_save_iff (em : String) (saves : Bool) (s : CoreData)
    (h : (Dataservice.save em saves s).2 = false) (calls : List StoreCall) :
    trace (Dataservice.save em saves s).1 calls = trace s calls ↔ Cleared calls := by
  cases saves with
  | true => contradiction
  | false => exact (extra_save em s).trace_eq_iff calls

/-- A deletion that succeeds comes first. -/
theorem trace_save_deleteAll :
    trace (Dataservice.save "a@x" false .empty).1 [.deleteAll true, .save "b@x" true] =
      trace .empty [.deleteAll true, .save "b@x" true] :=
  (trace_save_iff "a@x" false .empty rfl _).mpr trivial

/-- The next fetch reports the e-mail of the failed save, and the save of another
e-mail commits it. -/
theorem not_trace_save :
    (Dataservice.save "a@x" false .empty).2 = false ∧
      trace (Dataservice.save "a@x" false .empty).1 [.fetchUserInfo true] ≠
        trace .empty [.fetchUserInfo true] ∧
      trace (Dataservice.save "a@x" false .empty).1 [.save "b@x" true] ≠
        trace .empty [.save "b@x" true] := by
  decide

/-! ## purge and save -/

/-- The store holds one row, nothing is pending, and a fetch that succeeds
reports it. -/
structure Holds (em : String) (s : CoreData) : Prop where
  stored : s.stored = [⟨em, false⟩]
  inserted : s.inserted = []
  fetched : ∀ emails, (Fetch.rows emails).Of s → Dataservice.fetchUserInfo (.rows emails) = [em]

theorem holds_iff {em : String} {s : CoreData} : Holds em s ↔ s = ⟨[⟨em, false⟩], []⟩ := by
  constructor
  · rintro ⟨hs, hi, _⟩
    cases s
    cases hs
    cases hi
    rfl
  · rintro rfl
    exact ⟨rfl, rfl, fun emails hp => List.perm_singleton.mp hp⟩

/-- Whatever was stored or pending, only the new row is left. -/
theorem save_deleteFetched (em : String) (s : CoreData) :
    (Dataservice.save em true s.deleteFetched).1 = ⟨[⟨em, false⟩], []⟩ := by
  simp [Dataservice.save, CoreData.deleteFetched, CoreData.commit, CoreData.fetchable]

theorem Holds.relaunches {em : String} {s : CoreData} (h : Holds em s) (n : Nat) :
    Holds em (after s (List.replicate n .relaunch)) := by
  induction n with
  | zero => exact h
  | succ n ih =>
      rw [List.replicate_succ', after_append, holds_iff.mp ih, holds_iff]
      rfl

/-- **Purge and save.**  After every sequence of calls on every store, a purge
that reports success followed by a save that reports success leaves one row,
and it stays through any number of relaunches. -/
theorem replaced_of_purge_save (s : CoreData) (calls : List StoreCall) (fetches saves : Bool)
    (em : String) (purged : CoreData)
    (hp : Dataservice.deleteAllDataFromCoreData fetches (after s calls) = (purged, true))
    (t : CoreData) (hs : Dataservice.save em saves purged = (t, true)) (n : Nat) :
    Holds em (after t (List.replicate n .relaunch)) := by
  cases fetches with
  | false => cases congrArg Prod.snd hp
  | true =>
      cases saves with
      | false => cases congrArg Prod.snd hs
      | true =>
          have ht : t = ⟨[⟨em, false⟩], []⟩ := by
            rw [← save_deleteFetched em (after s calls)]
            have hpurged : (after s calls).deleteFetched = purged := congrArg Prod.fst hp
            rw [hpurged]
            exact (congrArg Prod.fst hs).symm
          exact (holds_iff.mpr ht).relaunches n

/-- A failed save and a deletion that was never saved, repaired. -/
theorem replaced_of_purge_save_failed :
    Holds "b@x" (after ⟨[⟨"b@x", false⟩], []⟩ (List.replicate 2 .relaunch)) :=
  replaced_of_purge_save ⟨[⟨"z@x", false⟩], []⟩ [.deleteAll true, .save "a@x" false] true true
    "b@x" ⟨[⟨"z@x", true⟩], []⟩ rfl ⟨[⟨"b@x", false⟩], []⟩ rfl 2

end StreetParker
