import StreetParker.CarInfo

/-!
# StreetParker.Observers

What the permanent observers tell their handlers over a whole sequence of
snapshots.  `printAllEmails` carries one array from snapshot to snapshot, and
`getNameForEmail` falls back on the session of the moment, which changes between
the snapshots.

* `printAllEmailsCalls`, `getNameForEmailCalls` — the handler calls of one
  registration;
* `printsSnapshot_iff` — when the `k`th call is the `k`th snapshot's e-mails;
* `reportsRequested_iff` — when every delivery reports the requested record.
-/

namespace StreetParker

/-! ## snapshots -/

namespace Snapshot

/-- Every record has a string e-mail. -/
def StringEmails (snapshot : Snapshot) : Prop :=
  ∀ p ∈ snapshot, ∃ e, p.2["email"]? = some (.string e)

/-- No two records share an e-mail. -/
def DistinctEmails (snapshot : Snapshot) : Prop :=
  snapshot.Pairwise fun p q => p.2["email"]? ≠ q.2["email"]?

/-- The e-mails of a snapshot, in order. -/
def emails (snapshot : Snapshot) : List String :=
  snapshot.filterMap fun p : Uid × Record => match p.2["email"]? with
    | some (.string e) => some e
    | _ => none

/-- The records of `em`. -/
def recordsOf (em : String) (snapshot : Snapshot) : Snapshot :=
  snapshot.filter fun p => p.2["email"]? = some (.string em)

theorem StringEmails.tail {p : Uid × Record} {rest : Snapshot} (h : StringEmails (p :: rest)) :
    StringEmails rest :=
  fun q hq => h q (List.mem_cons_of_mem p hq)

/-- The cast of the first record's e-mail succeeds. -/
theorem StringEmails.head {uid : Uid} {user : Record} {rest : Snapshot}
    (h : StringEmails ((uid, user) :: rest)) :
    ∃ e, user["email"]? = some (.string e) ∧
      Dataservice.stringChild user "email" .emailCast = .ok e := by
  obtain ⟨e, he⟩ := h (uid, user) List.mem_cons_self
  exact ⟨e, he, by simp only [Dataservice.stringChild, he]⟩

@[simp] theorem emails_nil : emails [] = [] := rfl

theorem emails_cons {uid : Uid} {user : Record} {e : String}
    (he : user["email"]? = some (.string e)) (rest : Snapshot) :
    emails ((uid, user) :: rest) = e :: emails rest := by
  simp [emails, he]

/-- Only the empty snapshot has no e-mails. -/
theorem StringEmails.emails_eq_nil_iff {snapshot : Snapshot} (h : snapshot.StringEmails) :
    snapshot.emails = [] ↔ snapshot = [] := by
  cases snapshot with
  | nil => simp
  | cons p rest =>
      obtain ⟨uid, user⟩ := p
      obtain ⟨e, he, _⟩ := h.head
      simp [emails_cons he]

/-- Where e-mails are distinct, `em` has at most one record. -/
theorem DistinctEmails.recordsOf_eq {em : String} {snapshot : Snapshot}
    (h : snapshot.DistinctEmails) {p : Uid × Record} (hp : p ∈ snapshot)
    (he : p.2["email"]? = some (.string em)) : snapshot.recordsOf em = [p] := by
  induction snapshot with
  | nil => exact absurd hp List.not_mem_nil
  | cons q rest ih =>
      obtain ⟨hq, hrest⟩ := List.pairwise_cons.mp h
      cases List.mem_cons.mp hp with
      | inl heq =>
          subst heq
          have hnone : rest.filter (fun p => p.2["email"]? = some (.string em)) = [] := by
            refine List.filter_eq_nil_iff.mpr fun r hr => ?_
            simpa using fun hre => hq r hr (he.trans hre.symm)
          rw [recordsOf, List.filter_cons_of_pos (by simpa using he), hnone]
      | inr hin =>
          have hne : ¬q.2["email"]? = some (.string em) := fun hqe =>
            hq p hin (hqe.trans he.symm)
          rw [recordsOf, List.filter_cons_of_neg (by simpa using hne)]
          exact ih hrest hin

end Snapshot

open Snapshot

/-! ## `printAllEmails` -/

/-- The handler calls of one `printAllEmails`, over a sequence of snapshots; the
array is the closure's. -/
def Dataservice.printAllEmailsCalls (emailArray : List String) :
    List Snapshot → Except Trap (List (List String))
  | [] => .ok []
  | snapshot :: rest => do
      let emailArray ← printAllEmails emailArray snapshot
      let calls ← printAllEmailsCalls emailArray rest
      return emailArray :: calls

/-- One delivery appends the snapshot's e-mails. -/
theorem printAllEmails_eq {snapshot : Snapshot} (h : snapshot.StringEmails)
    (emailArray : List String) :
    Dataservice.printAllEmails emailArray snapshot = .ok (emailArray ++ snapshot.emails) := by
  induction snapshot generalizing emailArray with
  | nil => simp [Dataservice.printAllEmails]
  | cons p rest ih =>
      obtain ⟨uid, user⟩ := p
      obtain ⟨e, he, hcast⟩ := h.head
      rw [Dataservice.printAllEmails, hcast, emails_cons he]
      exact (ih h.tail _).trans (by simp)

/-- **Every delivery**: the `k`th call receives everything up to the `k`th
snapshot. -/
theorem printAllEmailsCalls_eq {snapshots : List Snapshot}
    (h : ∀ snapshot ∈ snapshots, snapshot.StringEmails) (emailArray : List String) :
    ∃ calls, Dataservice.printAllEmailsCalls emailArray snapshots = .ok calls ∧
      ∀ k : Nat, calls[k]? = snapshots[k]?.map fun snapshot =>
        emailArray ++ (snapshots.take k).flatMap emails ++ snapshot.emails := by
  induction snapshots generalizing emailArray with
  | nil => exact ⟨[], rfl, fun k => rfl⟩
  | cons snapshot rest ih =>
      have hfirst := printAllEmails_eq (h snapshot List.mem_cons_self) emailArray
      obtain ⟨calls, hcalls, hall⟩ := ih (fun r hr => h r (List.mem_cons_of_mem _ hr))
        (emailArray ++ snapshot.emails)
      refine ⟨(emailArray ++ snapshot.emails) :: calls, ?_, fun k => ?_⟩
      · rw [Dataservice.printAllEmailsCalls, hfirst]
        simp only [bind, Except.bind, hcalls]
        rfl
      · cases k with
        | zero => simp
        | succ k =>
            rw [List.getElem?_cons_succ, hall k]
            simp

/-- What is asked of the `k`th call. -/
def PrintsSnapshot (snapshots : List Snapshot) (k : Nat) : Prop :=
  ∃ calls, Dataservice.printAllEmailsCalls [] snapshots = .ok calls ∧
    calls[k]? = snapshots[k]?.map emails

/-- **What the handler of `printAllEmails` receives.**  For every sequence of
snapshots, the `k`th call is the `k`th snapshot's e-mails exactly when the
snapshots before it are empty. -/
theorem printsSnapshot_iff (snapshots : List Snapshot)
    (h : ∀ snapshot ∈ snapshots, snapshot.StringEmails) (k : Nat) (hk : k < snapshots.length) :
    PrintsSnapshot snapshots k ↔ ∀ snapshot ∈ snapshots.take k, snapshot = [] := by
  obtain ⟨calls, hcalls, hall⟩ := printAllEmailsCalls_eq h []
  have hiff : PrintsSnapshot snapshots k ↔ (snapshots.take k).flatMap emails = [] := by
    have hkth := hall k
    rw [List.getElem?_eq_getElem hk, Option.map_some, List.nil_append] at hkth
    simp only [PrintsSnapshot, hcalls, Except.ok.injEq, exists_eq_left', hkth,
      List.getElem?_eq_getElem hk, Option.map_some, Option.some.injEq, List.append_left_eq_self]
  rw [hiff, List.flatMap_eq_nil_iff]
  exact forall₂_congr fun snapshot hs =>
    (h snapshot (List.mem_of_mem_take hs)).emails_eq_nil_iff

/-- The second call follows an empty snapshot. -/
theorem printsSnapshot_of_empty :
    PrintsSnapshot [[], [("u", (∅ : Record).insert "email" (.string "a@x"))]] 1 :=
  (printsSnapshot_iff _ (by simp [StringEmails]) 1 (by decide)).mpr (by simp)

/-- The second of two equal snapshots: the handler gets the e-mail twice. -/
theorem not_printsSnapshot :
    let snapshot : Snapshot := [("u", (∅ : Record).insert "email" (.string "a@x"))]
    ¬PrintsSnapshot [snapshot, snapshot] 1 := by
  intro snapshot
  have hcalls : (Dataservice.printAllEmailsCalls [] [snapshot, snapshot]).toOption =
      some [["a@x"], ["a@x", "a@x"]] := by decide
  rintro ⟨calls, hc, hkth⟩
  rw [hc] at hcalls
  cases hcalls
  exact absurd hkth (by decide)

/-! ## `getNameForEmail` -/

/-- What the observer of `getNameForEmail` lives through: a snapshot, or a
change of the session. -/
inductive Delivery where
  | snapshot (snapshot : Snapshot)
  | session (change : SessionChange)

/-- The snapshots of such a history, each with the session at its delivery. -/
def delivered (currentUser : Option User) : List Delivery → List (Option User × Snapshot)
  | [] => []
  | .snapshot snapshot :: rest => (currentUser, snapshot) :: delivered currentUser rest
  | .session change :: rest => delivered (sessionAfter currentUser [change]) rest

/-- The handler calls of one `getNameForEmail`, snapshot by snapshot. -/
def Dataservice.getNameForEmailCalls (em : String) (currentUser : Option User) :
    List Delivery → Except Trap (List (List String))
  | [] => .ok []
  | .snapshot snapshot :: rest => do
      let names ← getNameForEmail em currentUser snapshot
      let calls ← getNameForEmailCalls em currentUser rest
      return names :: calls
  | .session change :: rest => getNameForEmailCalls em (sessionAfter currentUser [change]) rest

/-- The name asked for: the record's `Name` if it has one, else `em`. -/
def IsNameFor (em : String) (user : Record) (name : String) : Prop :=
  match user["Name"]? with
  | some v => v = .string name
  | none => name = em

/-- What is asked of the handler calls of one snapshot. -/
structure Reports (em : String) (snapshot : Snapshot) (names : List String) : Prop where
  named : ∀ p ∈ snapshot, p.2["email"]? = some (.string em) →
    ∃ name, names = [name] ∧ IsNameFor em p.2 name
  silent : (∀ p ∈ snapshot, p.2["email"]? ≠ some (.string em)) → names = []

/-- The record of `em`, if there is one, has a string as its `Name`, or none
while `em` itself is signed in. -/
def NameAtHand (em : String) (currentUser : Option User) (snapshot : Snapshot) : Prop :=
  ∀ p ∈ snapshot, p.2["email"]? = some (.string em) →
    (∃ n, p.2["Name"]? = some (.string n)) ∨
      (p.2["Name"]? = none ∧ currentUser.bind User.email = some em)

/-- The loop asks for the name of every record of `em`. -/
theorem getNameForEmail_eq (em : String) (currentUser : Option User) {snapshot : Snapshot}
    (h : snapshot.StringEmails) :
    Dataservice.getNameForEmail em currentUser snapshot =
      (snapshot.recordsOf em).mapM fun p => Dataservice.displayName currentUser p.2 := by
  induction snapshot with
  | nil => rfl
  | cons p rest ih =>
      obtain ⟨uid, user⟩ := p
      obtain ⟨e, he, hcast⟩ := h.head
      rw [Dataservice.getNameForEmail, hcast]
      simp only [bind, Except.bind]
      by_cases hem : em = e
      · subst hem
        rw [if_pos rfl, recordsOf, List.filter_cons_of_pos (by simpa using he), List.mapM_cons,
          ih h.tail]
        rfl
      · have hne : ¬user["email"]? = some (.string em) := by
          rw [he]
          simpa using Ne.symm hem
        rw [if_neg hem, recordsOf, List.filter_cons_of_neg (by simpa using hne)]
        exact ih h.tail

theorem displayName_ok_iff {currentUser : Option User} {user : Record} {name : String} :
    Dataservice.displayName currentUser user = .ok name ↔
      user["Name"]? = some (.string name) ∨
        (user["Name"]? = none ∧ currentUser.bind User.email = some name) := by
  unfold Dataservice.displayName Dataservice.stringChild
  rw [← Std.ExtTreeMap.isSome_getElem?_eq_contains]
  cases user["Name"]? with
  | none => cases currentUser.bind User.email <;> simp
  | some v => cases v <;> simp

/-- One record of `em`: the delivery reports it exactly when it is settled. -/
theorem displayName_isNameFor_iff {em : String} {currentUser : Option User} {user : Record} :
    (∃ name, Dataservice.displayName currentUser user = .ok name ∧ IsNameFor em user name) ↔
      (∃ n, user["Name"]? = some (.string n)) ∨
        (user["Name"]? = none ∧ currentUser.bind User.email = some em) := by
  simp only [displayName_ok_iff, IsNameFor]
  cases user["Name"]? with
  | none => simp
  | some v => simp

/-- **One delivery** reports the requested record, without a trap, exactly when
its name is at hand. -/
theorem getNameForEmail_reports_iff (em : String) (currentUser : Option User)
    {snapshot : Snapshot} (h : snapshot.StringEmails) (hd : snapshot.DistinctEmails) :
    (∃ names, Dataservice.getNameForEmail em currentUser snapshot = .ok names ∧
      Reports em snapshot names) ↔ NameAtHand em currentUser snapshot := by
  rw [getNameForEmail_eq em currentUser h]
  by_cases hp : ∃ p ∈ snapshot, p.2["email"]? = some (.string em)
  · obtain ⟨p, hin, he⟩ := hp
    have huniq : ∀ q ∈ snapshot, q.2["email"]? = some (.string em) → q = p := by
      intro q hq hqe
      have hqs := (hd.recordsOf_eq hq hqe).symm.trans (hd.recordsOf_eq hin he)
      exact List.cons.inj hqs |>.1
    rw [hd.recordsOf_eq hin he]
    constructor
    · rintro ⟨names, hn, hr⟩ q hq hqe
      obtain rfl := huniq q hq hqe
      obtain ⟨name, rfl, hname⟩ := hr.named q hq hqe
      refine displayName_isNameFor_iff.mp ⟨name, ?_, hname⟩
      cases hdn : Dataservice.displayName currentUser q.2 with
      | error t => simp [hdn, bind, Except.bind] at hn
      | ok n => simpa [hdn, bind, Except.bind, pure, Except.pure] using hn
    · intro hs
      obtain ⟨name, hdn, hname⟩ := displayName_isNameFor_iff.mpr (hs p hin he)
      refine ⟨[name], by simp [hdn, bind, Except.bind, pure, Except.pure], ?_, ?_⟩
      · intro q hq hqe
        obtain rfl := huniq q hq hqe
        exact ⟨name, rfl, hname⟩
      · intro hnone
        exact absurd he (hnone p hin)
  · have hnone : ∀ p ∈ snapshot, p.2["email"]? ≠ some (.string em) :=
      fun p hin he => hp ⟨p, hin, he⟩
    have hempty : snapshot.recordsOf em = [] :=
      List.filter_eq_nil_iff.mpr fun p hin => by simpa using hnone p hin
    rw [hempty]
    refine iff_of_true ⟨[], rfl, ?_, fun _ => rfl⟩ ?_
    · intro p hin he
      exact absurd he (hnone p hin)
    · intro p hin he
      exact absurd he (hnone p hin)

/-- What is asked of a registration over a whole history: no trap, and the
record of `em` reported at every snapshot. -/
def ReportsRequested (em : String) (currentUser : Option User) (history : List Delivery) : Prop :=
  ∃ calls, Dataservice.getNameForEmailCalls em currentUser history = .ok calls ∧
    List.Forall₂ (fun p names => Reports em p.2 names) (delivered currentUser history) calls

/-- **What `getNameForEmail` reports.**  For every history of snapshots, sign-ins
and sign-outs, every delivery reports the requested record and none traps
exactly when at each of them that record has a name, or has none while `em`
itself is signed in, or is not there. -/
theorem reportsRequested_iff (em : String) (currentUser : Option User) (history : List Delivery)
    (h : ∀ p ∈ delivered currentUser history, p.2.StringEmails ∧ p.2.DistinctEmails) :
    ReportsRequested em currentUser history ↔
      ∀ p ∈ delivered currentUser history, NameAtHand em p.1 p.2 := by
  unfold ReportsRequested
  induction history generalizing currentUser with
  | nil => exact iff_of_true ⟨[], rfl, .nil⟩ (by simp [delivered])
  | cons d rest ih =>
      cases d with
      | session change => exact ih _ h
      | snapshot snapshot =>
          simp only [delivered, List.forall_mem_cons] at h ⊢
          rw [← ih currentUser h.2, ← getNameForEmail_reports_iff em currentUser h.1.1 h.1.2]
          constructor
          · rintro ⟨calls, hcalls, hall⟩
            rw [Dataservice.getNameForEmailCalls] at hcalls
            cases hn : Dataservice.getNameForEmail em currentUser snapshot with
            | error t => simp [hn, bind, Except.bind] at hcalls
            | ok names =>
                cases hr : Dataservice.getNameForEmailCalls em currentUser rest with
                | error t => simp [hn, hr, bind, Except.bind] at hcalls
                | ok calls' =>
                    simp only [hn, hr, bind, Except.bind, pure, Except.pure,
                      Except.ok.injEq] at hcalls
                    subst hcalls
                    obtain ⟨hfirst, hrest⟩ := List.forall₂_cons.mp hall
                    exact ⟨⟨names, rfl, hfirst⟩, calls', rfl, hrest⟩
          · rintro ⟨⟨names, hn, hfirst⟩, calls, hr, hrest⟩
            refine ⟨names :: calls, ?_, .cons hfirst hrest⟩
            rw [Dataservice.getNameForEmailCalls]
            simp only [hn, hr, bind, Except.bind]
            rfl

/-- A record with a name, seen in another session and in none. -/
theorem reportsRequested_of_named :
    ReportsRequested "a@x" (some ⟨"u", some "a@x", "Firebase"⟩)
      [.session (.signIn ⟨"v", some "b@x", "Firebase"⟩),
        .snapshot
          [("u", ((∅ : Record).insert "email" (.string "a@x")).insert "Name" (.string "Ann"))],
        .session .signOut,
        .snapshot
          [("u", ((∅ : Record).insert "email" (.string "a@x")).insert "Name"
            (.string "Ann"))]] := by
  refine (reportsRequested_iff _ _ _ ?_).mpr ?_
  · simp [delivered, StringEmails, DistinctEmails, Std.ExtTreeMap.getElem_insert]
  · simp [delivered, NameAtHand]

/-- A record without a name, as a registration by e-mail leaves it: in the
session of somebody else their e-mail is reported, and in no session the
delivery traps. -/
theorem not_reportsRequested :
    let a : User := ⟨"u", some "a@x", "Firebase"⟩
    let b : User := ⟨"v", some "b@x", "Firebase"⟩
    let snapshot := (Dataservice.createDBUser ∅ "u" (Dataservice.registrationData a none)).snapshot
    ¬ReportsRequested "a@x" (some a) [.session .signOut, .session (.signIn b), .snapshot snapshot] ∧
      ¬ReportsRequested "a@x" (some a) [.session .signOut, .snapshot snapshot] := by
  intro a b snapshot
  have hother : (Dataservice.getNameForEmailCalls "a@x" (some a)
      [.session .signOut, .session (.signIn b), .snapshot snapshot]).toOption =
        some [["b@x"]] := by
    decide
  have hnobody : (Dataservice.getNameForEmailCalls "a@x" (some a)
      [.session .signOut, .snapshot snapshot]).toOption = none := by
    decide
  constructor
  · rintro ⟨calls, hc, hall⟩
    rw [hc] at hother
    cases hother
    obtain ⟨hr, _⟩ := List.forall₂_cons.mp hall
    have hone : snapshot.map (fun p => (p.2["email"]?, p.2["Name"]?)) =
        [(some (.string "a@x"), none)] := by
      decide
    obtain ⟨p, hp, hpn⟩ := List.map_eq_singleton_iff.mp hone
    obtain ⟨he, hn⟩ := Prod.mk.inj hpn
    obtain ⟨name, hname, hfor⟩ := hr.named p (by rw [hp]; exact List.mem_singleton_self p) he
    cases hname
    rw [IsNameFor, hn] at hfor
    exact absurd hfor (by decide)
  · rintro ⟨calls, hc, _⟩
    rw [hc] at hnobody
    contradiction

end StreetParker
