import StreetParker.Interleaving
import StreetParker.CarInfo

/-!
# StreetParker.Clients

Clients that stay signed in, each to its own account, and share the `users`
tree.  A client registers and then uploads car data; an upload is two steps,
the arrival of the snapshot and the callback, and between them the other
clients may do anything.

`Clients.act` is the concrete operation, with the snapshot held in between;
`Clients.absAct` is its purpose, a merge into the client's own record.  The
concrete schedule refines the abstract one (`exec_refines`), and what the
abstract one leaves at a client's record depends on that client alone
(`view_exec`).
-/

namespace StreetParker

open Merge Interleaving

/-! ## programs -/

/-- The arguments of one `uploadCarInfo` call. -/
structure CarInfo where
  name : String
  plNumber : String
  color : String
deriving DecidableEq, Repr

/-- A client: its account, the names it registers with (`none` for
`registerUser`), and its uploads. -/
structure Client where
  user : User
  email : String
  registrations : List (Option String)
  uploads : List CarInfo
  hasEmail : user.email = some email

/-- The atomic operations of a client. -/
inductive ClientOp where
  | register (name : Option String)
  | read (car : CarInfo)
  | write (car : CarInfo)
deriving DecidableEq, Repr

/-- The uploads of a client, each a snapshot and then its callback. -/
def uploadOps (uploads : List CarInfo) : List ClientOp :=
  uploads.flatMap fun car => [.read car, .write car]

/-- A client's program. -/
def Client.program (c : Client) : List ClientOp :=
  c.registrations.map .register ++ uploadOps c.uploads

/-- What a client tells its handler after an upload. -/
def Client.message (c : Client) : String := c.email ++ " Updated to Firebase: uploadCarInfo"

/-- What an operation writes below the client's uid. -/
def Client.writesOf (c : Client) : ClientOp → UserData
  | .register name => Dataservice.registrationData c.user name
  | .read _ => []
  | .write car => Dataservice.carData c.email car.name car.plNumber car.color (some c.user)

/-- Everything a client writes, in order. -/
def Client.allWrites (c : Client) : UserData := c.program.flatMap c.writesOf

namespace Clients

variable {ι : Type*} [DecidableEq ι]

/-! ## concrete operations -/

/-- The tree, the snapshot each client holds, its handler calls, and whether its
process has trapped. -/
structure Shared (ι : Type*) where
  users : UsersTree
  snapshot : ι → Option Snapshot
  handled : ι → List String
  trapped : ι → Bool

/-- Nobody has done anything yet. -/
def Shared.init (users : UsersTree) : Shared ι :=
  ⟨users, fun _ => none, fun _ => [], fun _ => false⟩

/-- One operation of client `i`, by the code of `createDBUser` and the callback
of `uploadCarInfo`. -/
def act (clients : ι → Client) (i : ι) (op : ClientOp) (s : Shared ι) : Shared ι :=
  let c := clients i
  match op with
  | .register name =>
      { s with users := Dataservice.createDBUser s.users c.user.uid
                 (Dataservice.registrationData c.user name) }
  | .read _ => { s with snapshot := Function.update s.snapshot i (some s.users.snapshot) }
  | .write car =>
      match s.snapshot i with
      | none => s
      | some snapshot =>
          match Dataservice.uploadCarInfo c.email car.name car.plNumber car.color (some c.user)
              snapshot with
          | .ok eff => { s with
              users := s.users.applyWrites eff.writes
              handled := Function.update s.handled i (s.handled i ++ eff.handled) }
          | .error _ => { s with trapped := Function.update s.trapped i true }

/-! ## abstract operations -/

/-- What the clients are for: records, and answers to uploads. -/
structure Served (ι : Type*) where
  users : UsersTree
  handled : ι → List String
  trapped : ι → Bool

def Shared.served (s : Shared ι) : Served ι := ⟨s.users, s.handled, s.trapped⟩

/-- An operation merges its data into the client's record, and an upload
answers once; reading changes nothing. -/
def absAct (clients : ι → Client) (i : ι) (op : ClientOp) (s : Served ι) : Served ι :=
  let c := clients i
  match op with
  | .read _ => s
  | .register _ => { s with users := s.users.updateChildValues c.user.uid (c.writesOf op) }
  | .write _ =>
      { s with
        users := s.users.updateChildValues c.user.uid (c.writesOf op)
        handled := Function.update s.handled i (s.handled i ++ [c.message]) }

/-! ## the refinement -/

/-- The client's own record is there, with its own e-mail. -/
def HasRecord (c : Client) (users : UsersTree) : Prop :=
  ∃ user : Record, users[c.user.uid]? = some user ∧ user["email"]? = some (.string c.email)

/-- A snapshot on which the client's loop succeeds. -/
def Good (c : Client) (snapshot : Snapshot) : Prop :=
  (∀ p ∈ snapshot, WellFormed p.2) ∧ ∃ p ∈ snapshot, p.2["email"]? = some (.string c.email)

/-- A client registers before it uploads: in its program, or in the past. -/
def Registers (c : Client) (users : UsersTree) : Prop :=
  c.registrations ≠ [] ∨ c.uploads = [] ∨ HasRecord c users

/-- Where a client stands: still registering, between uploads, between a
snapshot and its callback, or done. -/
inductive Ready (c : Client) (users : UsersTree) : Option Snapshot → List ClientOp → Prop
  | registering {held name names uploads} :
      Ready c users held ((name :: names).map .register ++ uploadOps uploads)
  | registered {held uploads} (h : HasRecord c users) : Ready c users held (uploadOps uploads)
  | reading {snapshot car uploads} (h : HasRecord c users) (hg : Good c snapshot) :
      Ready c users (some snapshot) (.write car :: uploadOps uploads)
  | done {held} : Ready c users held []

/-- The invariant of a schedule: the tree keeps its schema and every client is
ready for what it still has to do. -/
structure Inv (clients : ι → Client) (l : List (ι × ClientOp)) (s : Shared ι) : Prop where
  schema : Schema s.users
  ready : ∀ i, Ready (clients i) s.users (s.snapshot i) (ofClient i l)

theorem HasRecord.good {c : Client} {users : UsersTree} (hs : Schema users)
    (h : HasRecord c users) : Good c users.snapshot := by
  obtain ⟨user, hu, he⟩ := h
  exact ⟨fun p hp => hs p.1 p.2 (mem_snapshot.mp hp),
    (c.user.uid, user), mem_snapshot.mpr hu, he⟩

/-- Both kinds of write leave the client's e-mail in its record. -/
theorem hasRecord_updateChildValues {c : Client} (users : UsersTree) {d : UserData}
    (hd : lastWrite d "email" = some (some (.string c.email))) :
    HasRecord c (users.updateChildValues c.user.uid d) := by
  refine ⟨_, by rw [UsersTree.updateChildValues, getElem?_mergeAt_self], ?_⟩
  rw [getElem?_merge, hd, Option.getD_some]

/-- A write below another uid leaves it alone. -/
theorem HasRecord.of_ne {c : Client} {users : UsersTree} (h : HasRecord c users) {uid : Uid}
    (hne : uid ≠ c.user.uid) (d : UserData) : HasRecord c (users.updateChildValues uid d) := by
  obtain ⟨user, hu, he⟩ := h
  exact ⟨user, by rw [UsersTree.updateChildValues, getElem?_mergeAt_of_ne hne, hu], he⟩

theorem Ready.mono {c : Client} {users users' : UsersTree} {held : Option Snapshot}
    {ops : List ClientOp} (h : Ready c users held ops)
    (hu : HasRecord c users → HasRecord c users') : Ready c users' held ops := by
  cases h with
  | registering => exact .registering
  | registered hr => exact .registered (hu hr)
  | reading hr hg => exact .reading (hu hr) hg
  | done => exact .done

/-- The callback on a good snapshot writes the car data below the client's uid
and answers once. -/
theorem uploadCarInfo_of_good {c : Client} {snapshot : Snapshot} (hg : Good c snapshot)
    (car : CarInfo) :
    Dataservice.uploadCarInfo c.email car.name car.plNumber car.color (some c.user) snapshot =
      .ok ⟨[(c.user.uid, c.writesOf (.write car))], [c.message]⟩ := by
  obtain ⟨hwf, p, hp, he⟩ := hg
  rw [uploadCarInfo_eq, scan_found hwf hp he]
  rfl

/-- What is left for a client whose next operation is `op`. -/
theorem Ready.next {c : Client} {users : UsersTree} {held : Option Snapshot} {op : ClientOp}
    {ops : List ClientOp} (h : Ready c users held (op :: ops)) :
    (∃ (name : Option String) (names : List (Option String)) (uploads : List CarInfo),
      op = .register name ∧ ops = names.map .register ++ uploadOps uploads) ∨
    (∃ car uploads, op = .read car ∧ ops = .write car :: uploadOps uploads ∧
      HasRecord c users) ∨
    (∃ snapshot car uploads, op = .write car ∧ ops = uploadOps uploads ∧
      held = some snapshot ∧ Good c snapshot) := by
  generalize hl : op :: ops = l at h
  cases h with
  | @registering _ name names uploads =>
      simp only [List.map_cons, List.cons_append, List.cons.injEq] at hl
      exact .inl ⟨name, names, uploads, hl.1, hl.2⟩
  | @registered _ uploads hr =>
      cases uploads with
      | nil => contradiction
      | cons car uploads =>
          simp only [uploadOps, List.flatMap_cons, List.cons_append, List.nil_append,
            List.cons.injEq] at hl
          exact .inr (.inl ⟨car, uploads, hl.1, hl.2, hr⟩)
  | @reading snapshot car uploads hr hg =>
      simp only [List.cons.injEq] at hl
      exact .inr (.inr ⟨snapshot, car, uploads, hl.1, hl.2, rfl, hg⟩)
  | done => contradiction

/-- Who registers before it uploads is ready for its program. -/
theorem Registers.ready {c : Client} {users : UsersTree} (h : Registers c users)
    (held : Option Snapshot) : Ready c users held c.program := by
  rw [Client.program]
  cases hr : c.registrations with
  | cons name names => exact .registering
  | nil =>
      obtain hne | hu | hrec := h
      · exact absurd hr hne
      · rw [hu]
        exact .done
      · exact .registered hrec

/-- After its last registration a client has a record. -/
theorem Ready.of_map_register {c : Client} {users : UsersTree} (held : Option Snapshot)
    (names : List (Option String)) (uploads : List CarInfo) (h : HasRecord c users) :
    Ready c users held (names.map .register ++ uploadOps uploads) := by
  cases names with
  | nil => exact .registered h
  | cons name names => exact .registering

section Refinement

variable {clients : ι → Client} (huid : Function.Injective fun i => (clients i).user.uid)

include huid

/-- An own write keeps every client ready. -/
theorem inv_write {i : ι} {op : ClientOp} {l : List (ι × ClientOp)} {s : Shared ι} {d : UserData}
    (h : Inv clients ((i, op) :: l) s) (hw : WritesSchema d)
    {s' : Shared ι} (hu : s'.users = s.users.updateChildValues (clients i).user.uid d)
    (hsnap : s'.snapshot = s.snapshot)
    (hi : Ready (clients i) s'.users (s.snapshot i) (ofClient i l)) : Inv clients l s' := by
  refine ⟨by rw [hu]; exact h.schema.updateChildValues hw _, fun j => ?_⟩
  rw [hsnap]
  by_cases hj : i = j
  · subst hj
    exact hi
  · have hready := h.ready j
    rw [ofClient_cons_of_ne hj] at hready
    refine hready.mono fun hr => ?_
    rw [hu]
    exact hr.of_ne (fun he => hj (huid he)) d

/-- One concrete operation does what its abstract counterpart does. -/
theorem act_refines (i : ι) (op : ClientOp) (l : List (ι × ClientOp)) (s : Shared ι)
    (h : Inv clients ((i, op) :: l) s) :
    (act clients i op s).served = absAct clients i op s.served ∧
      Inv clients l (act clients i op s) := by
  have hready := h.ready i
  rw [ofClient_cons_self] at hready
  obtain ⟨name, names, uploads, rfl, hl⟩ | ⟨car, uploads, rfl, hl, hr⟩ |
    ⟨snapshot, car, uploads, rfl, hl, hheld, hg⟩ := hready.next
  · refine ⟨rfl, inv_write huid h (writesSchema_registrationData (clients i).hasEmail name)
      rfl rfl ?_⟩
    rw [hl]
    have hdata := lastWrite_registrationData_email (clients i).hasEmail name
    exact Ready.of_map_register _ _ _ (hasRecord_updateChildValues s.users hdata)
  · refine ⟨rfl, h.schema, fun j => ?_⟩
    by_cases hj : i = j
    · subst hj
      rw [hl]
      simp only [act, Function.update_self]
      exact .reading hr (hr.good h.schema)
    · have hready := h.ready j
      rw [ofClient_cons_of_ne hj] at hready
      simpa only [act, Function.update_of_ne (Ne.symm hj)] using hready
  · have hup := uploadCarInfo_of_good hg car
    have hact : act clients i (.write car) s =
        { s with
          users := s.users.updateChildValues (clients i).user.uid
            ((clients i).writesOf (.write car))
          handled := Function.update s.handled i (s.handled i ++ [(clients i).message]) } := by
      simp only [act, hheld, hup]
      rfl
    rw [hact]
    refine ⟨rfl, inv_write huid h (writesSchema_carData _ _ _ _ _) rfl rfl ?_⟩
    rw [hl]
    exact .registered
      (hasRecord_updateChildValues s.users (lastWrite_carData_email _ _ _ _ _))

end Refinement

/-! ## what a client's record ends up as -/

/-- The client's operations on its own record. -/
def ownRecord (c : Client) (op : ClientOp) (r : Option Record) : Option Record :=
  match op with
  | .read _ => r
  | _ => some (merge (r.getD ∅) (c.writesOf op))

theorem view_users {clients : ι → Client}
    (huid : Function.Injective fun i => (clients i).user.uid) (i : ι)
    (l : List (ι × ClientOp)) (s : Served ι) :
    (exec (absAct clients) l s).users[(clients i).user.uid]? =
      (ofClient i l).foldl (fun r op => ownRecord (clients i) op r)
        s.users[(clients i).user.uid]? := by
  refine view_exec (V := fun s : Served ι => s.users[(clients i).user.uid]?)
    (F := ownRecord (clients i)) ?_ ?_ l s
  · intro op s
    cases op with
    | read car => rfl
    | register name => exact getElem?_mergeAt_self _ _ _
    | write car => exact getElem?_mergeAt_self _ _ _
  · intro j op s hj
    have hne : (clients j).user.uid ≠ (clients i).user.uid := fun he => hj (huid he)
    cases op with
    | read car => rfl
    | register name => exact getElem?_mergeAt_of_ne hne _ _
    | write car => exact getElem?_mergeAt_of_ne hne _ _

/-- Records of nobody in the system stay as they are. -/
theorem view_others (clients : ι → Client) {uid : Uid}
    (hu : ∀ i, (clients i).user.uid ≠ uid) (l : List (ι × ClientOp)) (s : Served ι) :
    (exec (absAct clients) l s).users[uid]? = s.users[uid]? := by
  induction l generalizing s with
  | nil => rfl
  | cons p l ih =>
      obtain ⟨i, op⟩ := p
      rw [exec_cons, ih]
      cases op with
      | read car => rfl
      | register name => exact getElem?_mergeAt_of_ne (hu i) _ _
      | write car => exact getElem?_mergeAt_of_ne (hu i) _ _

/-- What an operation adds to the handler calls. -/
def answered (c : Client) (op : ClientOp) (r : List String) : List String :=
  match op with
  | .write _ => r ++ [c.message]
  | _ => r

theorem view_handled (clients : ι → Client) (i : ι) (l : List (ι × ClientOp)) (s : Served ι) :
    (exec (absAct clients) l s).handled i =
      (ofClient i l).foldl (fun r op => answered (clients i) op r) (s.handled i) := by
  refine view_exec (V := fun s : Served ι => s.handled i) (F := answered (clients i)) ?_ ?_ l s
  · intro op s
    cases op with
    | write car => exact Function.update_self _ _ _
    | _ => rfl
  · intro j op s hj
    cases op with
    | write car => exact Function.update_of_ne (Ne.symm hj) _ _
    | _ => rfl

theorem view_trapped (clients : ι → Client) (l : List (ι × ClientOp)) (s : Served ι) :
    (exec (absAct clients) l s).trapped = s.trapped := by
  induction l generalizing s with
  | nil => rfl
  | cons p l ih =>
      obtain ⟨i, op⟩ := p
      rw [exec_cons, ih]
      cases op <;> rfl

/-- The record is the merge of everything the client wrote. -/
theorem foldl_ownRecord (c : Client) (ops : List ClientOp) (r : Option Record) :
    (ops.foldl (fun r op => ownRecord c op r) r).getD ∅ =
      merge (r.getD ∅) (ops.flatMap c.writesOf) := by
  induction ops generalizing r with
  | nil => rfl
  | cons op ops ih =>
      rw [List.foldl_cons, ih, List.flatMap_cons, merge_append]
      cases op <;> rfl

theorem foldl_answered_register (c : Client) (names : List (Option String)) (r : List String) :
    (names.map ClientOp.register).foldl (fun r op => answered c op r) r = r := by
  induction names generalizing r with
  | nil => rfl
  | cons name names ih => exact ih r

theorem foldl_answered_upload (c : Client) (uploads : List CarInfo) (r : List String) :
    (uploadOps uploads).foldl (fun r op => answered c op r) r =
      r ++ uploads.map fun _ => c.message := by
  induction uploads generalizing r with
  | nil => simp [uploadOps]
  | cons car uploads ih =>
      have hcons : uploadOps (car :: uploads) = .read car :: .write car :: uploadOps uploads :=
        rfl
      rw [hcons, List.foldl_cons, List.foldl_cons, ih]
      simp [answered]

/-- One answer for each upload. -/
theorem foldl_answered_program (c : Client) :
    c.program.foldl (fun r op => answered c op r) [] = c.uploads.map fun _ => c.message := by
  rw [Client.program, List.foldl_append, foldl_answered_register, foldl_answered_upload,
    List.nil_append]

/-! ## serialisability -/

/-- Every interleaving ends in the merge of each client's own writes. -/
theorem exec_act {clients : ι → Client}
    (huid : Function.Injective fun i => (clients i).user.uid) {users : UsersTree}
    (hs : Schema users) (hreg : ∀ i, Registers (clients i) users) {l : List (ι × ClientOp)}
    (hl : Interleaves (fun i => (clients i).program) l) :
    (exec (act clients) l (Shared.init users)).served =
      exec (absAct clients) l (Shared.init users).served := by
  refine (exec_refines (I := Inv clients) (act_refines huid) ⟨hs, fun i => ?_⟩).1
  rw [hl i]
  exact (hreg i).ready _

/-- A client's record holds what the client wrote there last. -/
theorem getElem?_exec_act {clients : ι → Client}
    (huid : Function.Injective fun i => (clients i).user.uid) {users : UsersTree}
    (hs : Schema users) (hreg : ∀ i, Registers (clients i) users) {l : List (ι × ClientOp)}
    (hl : Interleaves (fun i => (clients i).program) l) (i : ι) (key : String) :
    ((exec (act clients) l (Shared.init users)).users[(clients i).user.uid]?.getD ∅)[key]? =
      (lastWrite (clients i).allWrites key).getD
        (users[(clients i).user.uid]?.getD ∅)[key]? := by
  have husers : (exec (act clients) l (Shared.init users)).users =
      (exec (absAct clients) l (Shared.init users).served).users :=
    congrArg Served.users (exec_act huid hs hreg hl)
  rw [husers, view_users huid, hl i, foldl_ownRecord, getElem?_merge]
  rfl

/-- **Car data**: once a client is done its record holds the data of its last
upload, whatever the others did in between. -/
theorem carData_exec_act {clients : ι → Client}
    (huid : Function.Injective fun i => (clients i).user.uid) {users : UsersTree}
    (hs : Schema users) (hreg : ∀ i, Registers (clients i) users) {l : List (ι × ClientOp)}
    (hl : Interleaves (fun i => (clients i).program) l) {i : ι} {uploads : List CarInfo}
    {car : CarInfo} (hlast : (clients i).uploads = uploads ++ [car]) :
    ∀ kv ∈ [("email", (clients i).email), ("provider", (clients i).user.providerID),
        ("Name", car.name), ("License Plate", car.plNumber), ("Car Color", car.color)],
      ((exec (act clients) l (Shared.init users)).users[(clients i).user.uid]?.getD ∅)[kv.1]? =
        some (.string kv.2) := by
  have hwrites : ∃ d, (clients i).allWrites = d ++ Dataservice.carData (clients i).email car.name
      car.plNumber car.color (some (clients i).user) := by
    rw [Client.allWrites, Client.program, hlast, uploadOps, List.flatMap_append,
      List.flatMap_append, List.flatMap_append, ← List.append_assoc]
    exact ⟨_, rfl⟩
  obtain ⟨d, hd⟩ := hwrites
  intro kv hkv
  rw [getElem?_exec_act huid hs hreg hl, hd, lastWrite_append]
  simp only [List.mem_cons, List.not_mem_nil, or_false] at hkv
  rcases hkv with rfl | rfl | rfl | rfl | rfl <;> simp [Dataservice.carData, lastWrite]

/-- **Serialisability.**  Clients with distinct uids, over a tree that the
readers can read, each of which registers before it uploads: every
interleaving of their programs ends in the same tree as running them one after
another in any order; every client's record then holds, under every key, the
last value the client wrote there (or what the key held before, if the client
never wrote it); no client traps; and every upload has called its handler
exactly once. -/
theorem serialisable (clients : ι → Client)
    (huid : Function.Injective fun i => (clients i).user.uid) (users : UsersTree)
    (hs : Schema users) (hreg : ∀ i, Registers (clients i) users) (l : List (ι × ClientOp))
    (hl : Interleaves (fun i => (clients i).program) l) (order : List ι) (hnd : order.Nodup)
    (hall : ∀ i, (clients i).program ≠ [] → i ∈ order) :
    (exec (act clients) l (Shared.init users)).users =
      (exec (act clients) (serial (fun i => (clients i).program) order)
        (Shared.init users)).users ∧
    ∀ i,
      (∀ key, ((exec (act clients) l (Shared.init users)).users[(clients i).user.uid]?.getD
          ∅)[key]? =
        (lastWrite (clients i).allWrites key).getD
          (users[(clients i).user.uid]?.getD ∅)[key]?) ∧
      (exec (act clients) l (Shared.init users)).trapped i = false ∧
      (exec (act clients) l (Shared.init users)).handled i =
        (clients i).uploads.map fun _ => (clients i).message := by
  have hser : Interleaves (fun i => (clients i).program)
      (serial (fun i => (clients i).program) order) :=
    interleaves_serial _ hnd hall
  have hexec := exec_act huid hs hreg hl
  have husers : (exec (act clients) l (Shared.init users)).users =
      (exec (absAct clients) l (Shared.init users).served).users := congrArg Served.users hexec
  refine ⟨?_, fun i => ⟨fun key => ?_, ?_, ?_⟩⟩
  · rw [husers, show (exec (act clients) (serial _ order) (Shared.init users)).users = _ from
      congrArg Served.users (exec_act huid hs hreg hser)]
    refine Std.ExtTreeMap.ext_getElem? fun uid => ?_
    by_cases hu : ∃ i, (clients i).user.uid = uid
    · obtain ⟨i, rfl⟩ := hu
      rw [view_users huid, view_users huid, hl i, hser i]
    · have hne : ∀ i, (clients i).user.uid ≠ uid := fun i he => hu ⟨i, he⟩
      rw [view_others clients hne, view_others clients hne]
  · exact getElem?_exec_act huid hs hreg hl i key
  · have ht := congrArg Served.trapped hexec
    rw [view_trapped] at ht
    exact congrFun ht i
  · have hh := congrFun (congrArg Served.handled hexec) i
    rw [view_handled, hl i] at hh
    exact hh.trans (foldl_answered_program (clients i))

/-- Two clients: one registers by e-mail and uploads, the other only registers. -/
def pair : Bool → Client
  | true => ⟨⟨"u", some "a@x", "Firebase"⟩, "a@x", [none], [⟨"Ann", "A 1", "red"⟩], rfl⟩
  | false => ⟨⟨"v", some "b@x", "Firebase"⟩, "b@x", [some "Bob"], [], rfl⟩

/-- The registration of the one falls between the snapshot and the callback of
the other. -/
theorem serialisable_pair :
    (exec (act pair)
      [(true, .register none), (true, .read ⟨"Ann", "A 1", "red"⟩),
        (false, .register (some "Bob")), (true, .write ⟨"Ann", "A 1", "red"⟩)]
      (Shared.init ∅)).users =
    (exec (act pair) (serial (fun i => (pair i).program) [false, true])
      (Shared.init ∅)).users :=
  (serialisable pair (by decide) ∅ schema_empty
    (fun i => by cases i <;> exact .inl (by decide)) _ (fun i => by cases i <;> rfl)
    [false, true] (by decide) (fun i _ => by cases i <;> decide)).1

end Clients

end StreetParker
