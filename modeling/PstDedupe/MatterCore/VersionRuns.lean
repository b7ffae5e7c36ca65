import PstDedupe.Foundations.GuardedRuns
import PstDedupe.MatterCore.ReviewCalls

/-!
# Optimistic versions over interleaved clients

A client reads the version of an item and makes a call with it; the call reads and resolves its
targets, and commits later in a transaction.
-/

namespace MatterCore

open Rust Foundations List Option Function

def ReviewDb.versionOf (db : ReviewDb) (itemId : String) : Option Int :=
  (rowAt Item.id db.items itemId).map Item.reviewVersion

/-- The versions of the targets grow by one, the others stay. -/
def Raised (targets : List String) (db db' : ReviewDb) : Prop :=
  ∀ k, db'.versionOf k = (db.versionOf k).map (· + if k ∈ targets then 1 else 0)

section Transactions

variable {db db' : ReviewDb} {matter itemId : String} {c : CodesApply}

theorem versionOf_updateItem {set : Item → Item}
    (hset : ∀ item, (set item).id = item.id ∧ (set item).reviewVersion = item.reviewVersion) (k : String) :
    (db.onMatter fun m => m.updateItem matter itemId set).versionOf k = db.versionOf k := by
  show (rowAt Item.id (db.items.map _) k).map Item.reviewVersion = _
  rw [rowAt_map fun item => by split; exact (hset item).1; rfl]
  unfold ReviewDb.versionOf
  cases rowAt Item.id db.items k with
  | none => rfl
  | some item =>
    show some (Item.reviewVersion (if _ then _ else _)) = some item.reviewVersion
    split
    · rw [(hset item).2]
    · rfl

theorem versionOf_congr (h : db'.toMatterDb = db.toMatterDb) (k : String) :
    db'.versionOf k = db.versionOf k := by
  unfold ReviewDb.versionOf
  rw [h]

theorem versionOf_setItemWithholdCache {withhold : Bool} (k : String) :
    (db.setItemWithholdCache matter itemId withhold).versionOf k = db.versionOf k :=
  versionOf_updateItem (by exact fun _ => ⟨rfl, rfl⟩) k

theorem raised_prepare {g : Guarding} (hdistinct : g.targets.Nodup) {versions : List Int}
    (h : g.prepare db = .ok (versions, db')) : Raised g.targets db db' := by
  obtain ⟨locks, rfl⟩ := (ReviewHandle.Guards.prepare_eq_ok hdistinct h).written
  intro k
  show (rowAt Item.id (db.toMatterDb.raiseVersions g.targets).items k).map Item.reviewVersion = _
  rw [version_raiseVersions]
  unfold ReviewDb.versionOf
  rw [Option.map_map]
  rfl

theorem Raised.of_same {targets : List String} {db₁ : ReviewDb} (h : Raised targets db db₁)
    (hsame : ∀ k, db'.versionOf k = db₁.versionOf k) : Raised targets db db' :=
  fun k => (hsame k).trans (h k)

theorem versionOf_insertPrivilege {claim : ItemPrivilege} (h : db.insertPrivilege claim = .ok db')
    (k : String) :
    db'.versionOf k = db.versionOf k := by
  unfold ReviewDb.insertPrivilege at h
  split at h
  · cases h
  · cases h
    rfl

theorem versionOf_ensurePrivilege {changes changes' : PrivilegeChanges}
    (h : c.ensurePrivilege matter itemId changes db = .ok (changes', db')) (k : String) :
    db'.versionOf k = db.versionOf k := by
  unfold CodesApply.ensurePrivilege at h
  split at h
  · split at h
    · rename_i hok
      cases h
      unfold ReviewDb.ensureItemPrivilegeConn at hok
      split at hok
      · split at hok <;> cases hok <;> exact versionOf_setItemWithholdCache k
      · split at hok
        · rename_i hinsert
          cases hok
          exact (versionOf_setItemWithholdCache k).trans (versionOf_insertPrivilege hinsert k)
        · cases hok
    · cases h
  · cases h
    rfl

theorem versionOf_clearPrivilege {changes : PrivilegeChanges} (k : String) :
    (c.clearPrivilege matter itemId changes db).2.versionOf k = db.versionOf k := by
  unfold CodesApply.clearPrivilege ReviewDb.softClearItemPrivilegeConn
  split
  · simp only
    split
    · exact versionOf_setItemWithholdCache k
    · split
      · exact versionOf_setItemWithholdCache k
      · exact versionOf_setItemWithholdCache k
  · rfl

theorem versionOf_applyAll {targets : List String} {changes changes' : PrivilegeChanges}
    (h : c.applyAll matter targets changes db = .ok (changes', db')) (k : String) :
    db'.versionOf k = db.versionOf k := by
  induction targets generalizing changes db with
  | nil =>
    cases h
    rfl
  | cons itemId rest ih =>
    obtain ⟨⟨changes₁, db₁⟩, hensure, h⟩ := bind_eq_ok.mp h
    obtain ⟨codes, happlied⟩ := c.applyTo_eq matter db itemId
    have hrest : c.applyAll matter rest (c.clearPrivilege matter itemId changes₁ db₁).1
        (c.clearPrivilege matter itemId changes₁ db₁).2 = .ok (changes', db') := h
    rw [ih hrest, versionOf_clearPrivilege, versionOf_ensurePrivilege hensure, happlied]
    rfl

theorem raised_txn {p : PendingReview} (hdistinct : p.guarding.targets.Nodup)
    (h : p.txn matter db = .ok db') : Raised p.guarding.targets db db' := by
  cases p with
  | codes c =>
    obtain ⟨r, hr, rfl⟩ := map_eq_ok.mp h
    obtain ⟨⟨versions, db₁⟩, hprepare, hr⟩ := bind_eq_ok.mp hr
    obtain ⟨⟨changes, db₂⟩, happly, hr⟩ := bind_eq_ok.mp hr
    cases hr
    have haudit : ∀ (db : ReviewDb) (action : String) (ids : List String),
        (db.auditPrivilegeBatch c.actor action ids c.now).toMatterDb = db.toMatterDb := by
      intro db action ids
      unfold ReviewDb.auditPrivilegeBatch
      split <;> rfl
    refine (raised_prepare hdistinct hprepare).of_same fun k => ?_
    rw [versionOf_congr ((haudit _ _ _).trans (haudit _ _ _))]
    exact versionOf_applyAll happly k
  | noteUpdate u =>
    obtain ⟨⟨versions, db₁⟩, hprepare, h⟩ := bind_eq_ok.mp h
    cases h
    exact (raised_prepare hdistinct hprepare).of_same fun k => rfl
  | noteCreate c =>
    obtain ⟨⟨versions, db₁⟩, hprepare, h⟩ := bind_eq_ok.mp h
    obtain ⟨_, h⟩ := check_eq_ok.mp h
    cases h
    refine (raised_prepare hdistinct hprepare).of_same fun k => ?_
    exact versionOf_updateItem (by exact fun _ => ⟨rfl, rfl⟩) k
  | noteDelete d =>
    obtain ⟨⟨versions, db₁⟩, hprepare, h⟩ := bind_eq_ok.mp h
    cases h
    refine (raised_prepare hdistinct hprepare).of_same fun k => ?_
    exact versionOf_updateItem (by exact fun _ => ⟨rfl, rfl⟩) k
  | privilege u =>
    obtain ⟨⟨versions, db₁⟩, hprepare, h⟩ := bind_eq_ok.mp h
    obtain ⟨db₂, hwrite, h⟩ := ite_bind_eq_ok.mp h
    cases h
    refine (raised_prepare hdistinct hprepare).of_same fun k => ?_
    have hclaims : db₂.versionOf k = db₁.versionOf k := by
      split at hwrite
      · cases hwrite
        rfl
      · exact versionOf_insertPrivilege hwrite k
    exact (versionOf_setItemWithholdCache k).trans hclaims

theorem version_of_txn {p : PendingReview} {version : Int} (hdistinct : p.guarding.targets.Nodup)
    (hexpected : p.guarding.expectedVersion = some version) (h : p.txn matter db = .ok db') :
    ∀ t ∈ p.guarding.targets, db.versionOf t = some version := by
  intro t ht
  obtain ⟨result, hprepare⟩ := PendingReview.prepare_of_txn h
  obtain ⟨item, hitem, hversion⟩ := (ReviewHandle.Guards.prepare_eq_ok hdistinct hprepare).found t ht
  unfold ReviewDb.versionOf
  rw [hitem, map_some, hversion version hexpected]

end Transactions

structure Client where
  itemId : String
  version : Int
  seen : ReviewDb
  since : Nat
  pending : Option PendingReview := none

structure VersionState where
  db : ReviewDb
  /-- The targets of the calls that were accepted, the first one first. -/
  accepted : List (List String) := []
  clients : String → Option Client := fun _ => none

inductive VersionAction where
  /-- `get_review_version`. -/
  | read (client itemId : String)
  | call (client : String) (call : ReviewCall) (now : String)
  | commit (client : String)

namespace VersionState

def setClient (s : VersionState) (client : String) (c : Client) : VersionState :=
  { s with clients := update s.clients client (some c) }

def step (h : ReviewHandle) (s : VersionState) : VersionAction → VersionState
  | .read client itemId =>
    match s.db.getReviewVersion itemId with
    | .ok version => s.setClient client ⟨itemId, version, s.db, s.accepted.length, none⟩
    | .error _ => s
  | .call client call now =>
    match s.clients client with
    | some c =>
      if call.expectedVersion = some c.version then
        match call.read h s.db now with
        | .ok p => s.setClient client { c with pending := some p }
        | .error _ => s
      else s
    | none => s
  | .commit client =>
    match s.clients client with
    | some c =>
      match c.pending with
      | some p =>
        match p.txn h.matterId s.db with
        | .ok db => { s with db := db, accepted := s.accepted ++ [p.guarding.targets] }.setClient client
            { c with pending := none }
        | .error _ => s.setClient client { c with pending := none }
      | none => s
    | none => s

end VersionState

/-- Since the client read, versions have grown by the calls accepted in between. -/
def Client.Lagging (c : Client) (s : VersionState) : Prop :=
  c.since ≤ s.accepted.length
    ∧ ∀ k, s.db.versionOf k = (c.seen.versionOf k).map (· + ((s.accepted.drop c.since).countP (k ∈ ·) : Int))

structure Client.Versioned (c : Client) : Prop where
  read : c.seen.versionOf c.itemId = some c.version
  expected : ∀ p ∈ c.pending, p.guarding.expectedVersion = some c.version ∧ p.guarding.targets.Nodup

def VersionState.Counted (s : VersionState) : Prop :=
  ∀ client, ∀ c ∈ s.clients client, c.Lagging s ∧ c.Versioned

theorem versionOf_of_getReviewVersion {db : ReviewDb} {itemId : String} {version : Int}
    (h : db.getReviewVersion itemId = .ok version) : db.versionOf itemId = some version := by
  unfold ReviewDb.getReviewVersion at h
  unfold ReviewDb.versionOf
  split at h
  · rename_i item hitem
    cases h
    rw [hitem]
    rfl
  · cases h

namespace VersionState

variable {h : ReviewHandle} {s : VersionState}

theorem clients_setClient (client other : String) (c : Client) :
    (s.setClient client c).clients other = if other = client then some c else s.clients other :=
  update_apply s.clients client (some c) other

theorem counted_setClient {client : String} {c : Client} (hs : s.Counted)
    (hc : c.Lagging s ∧ c.Versioned) : (s.setClient client c).Counted := by
  intro other d hd
  have hclient := (clients_setClient client other c).symm.trans hd
  split at hclient
  · cases hclient
    exact hc
  · exact hs other d hclient

theorem lagging_read {itemId : String} {version : Int} :
    Client.Lagging ⟨itemId, version, s.db, s.accepted.length, none⟩ s := by
  refine ⟨Nat.le_refl _, fun k => ?_⟩
  simp

theorem lagging_commit {c : Client} {targets : List String} {db' : ReviewDb} (hc : c.Lagging s)
    (hraised : Raised targets s.db db') {clients : String → Option Client} :
    c.Lagging { db := db', accepted := s.accepted ++ [targets], clients := clients } := by
  obtain ⟨hsince, hversions⟩ := hc
  refine ⟨?_, fun k => ?_⟩
  · show c.since ≤ (s.accepted ++ [targets]).length
    rw [length_append]
    omega
  · show db'.versionOf k = _
    rw [hraised k, hversions k, Option.map_map, drop_append_of_le_length hsince, countP_append]
    refine congrArg (fun f => Option.map f (c.seen.versionOf k)) (funext fun v => ?_)
    by_cases hk : k ∈ targets
    · simp [hk]
      omega
    · simp [hk]

theorem counted_step (hs : s.Counted) (a : VersionAction) : (s.step h a).Counted := by
  cases a with
  | read client itemId =>
    cases hread : s.db.getReviewVersion itemId with
    | error e =>
      simp only [step, hread]
      exact hs
    | ok version =>
      simp only [step, hread]
      exact counted_setClient hs ⟨lagging_read, versionOf_of_getReviewVersion hread, by rintro p ⟨⟩⟩
  | call client call now =>
    cases hclient : s.clients client with
    | none =>
      simp only [step, hclient]
      exact hs
    | some c =>
      simp only [step, hclient]
      obtain ⟨hlag, hversioned⟩ := hs client c hclient
      by_cases hpassed : call.expectedVersion = some c.version
      · rw [if_pos hpassed]
        cases hread : call.read h s.db now with
        | error e => exact hs
        | ok p =>
          have hresolved := ReviewCall.resolved_of_read hread
          refine counted_setClient hs ⟨hlag, hversioned.read, fun q hq => ?_⟩
          cases hq
          exact ⟨hresolved.expected.trans hpassed, hresolved.distinct⟩
      · rw [if_neg hpassed]
        exact hs
  | commit client =>
    cases hclient : s.clients client with
    | none =>
      simp only [step, hclient]
      exact hs
    | some c =>
      obtain ⟨hlag, hversioned⟩ := hs client c hclient
      cases hpending : c.pending with
      | none =>
        simp only [step, hclient, hpending]
        exact hs
      | some p =>
        cases htxn : p.txn h.matterId s.db with
        | error e =>
          simp only [step, hclient, hpending, htxn]
          exact counted_setClient hs ⟨hlag, hversioned.read, by rintro q ⟨⟩⟩
        | ok db' =>
          simp only [step, hclient, hpending, htxn]
          have hraised := raised_txn (hversioned.expected p hpending).2 htxn
          refine counted_setClient (fun other d hd => ?_) ⟨lagging_commit hlag hraised,
            hversioned.read, by rintro q ⟨⟩⟩
          exact ⟨lagging_commit (hs other d hd).1 hraised, (hs other d hd).2⟩

structure CommitSound (s : VersionState) (c : Client) (p : PendingReview) (db' : ReviewDb) : Prop where
  current : ∀ t ∈ p.guarding.targets, s.db.versionOf t = some c.version
  /-- A target that had it when the client read has been left alone since. -/
  undisturbed : ∀ t ∈ p.guarding.targets, c.seen.versionOf t = some c.version →
    ∀ targets ∈ s.accepted.drop c.since, t ∉ targets
  read : c.seen.versionOf c.itemId = some c.version
  raised : Raised p.guarding.targets s.db db'

/-- A client changes the database by commits that are sound only. -/
structure ClientSafe (h : ReviewHandle) (s : VersionState) (client : String) : Prop where
  call : ∀ call now, (s.step h (.call client call now)).db = s.db
  commit : ∀ c p, s.clients client = some c → c.pending = some p → match p.txn h.matterId s.db with
    | .ok db' => (s.step h (.commit client)).db = db' ∧ CommitSound s c p db'
    | .error _ => (s.step h (.commit client)).db = s.db

theorem clientSafe (hs : s.Counted) (client : String) : s.ClientSafe h client where
  call call now := by
    simp only [step]
    split
    · split
      · split <;> rfl
      · rfl
    · rfl
  commit c p hclient hpending := by
    obtain ⟨hlag, hversioned⟩ := hs client c hclient
    obtain ⟨hexpected, hdistinct⟩ := hversioned.expected p hpending
    cases htxn : p.txn h.matterId s.db with
    | error e =>
      simp only [step, hclient, hpending, htxn]
      rfl
    | ok db' =>
      have hcurrent := version_of_txn hdistinct hexpected htxn
      simp only [step, hclient, hpending, htxn]
      refine ⟨rfl, hcurrent, fun t ht hseen => ?_, hversioned.read, raised_txn hdistinct htxn⟩
      -- its version has not moved, so no call on it was accepted
      have hnow := hlag.2 t
      rw [hcurrent t ht, hseen, map_some] at hnow
      have hnone : (s.accepted.drop c.since).countP (t ∈ ·) = 0 := by
        have hsum := Option.some.inj hnow
        omega
      intro targets hmem htarget
      exact List.countP_eq_zero.mp hnone targets hmem (decide_eq_true htarget)

/-- **Optimistic versions.** Over all runs of clients, a call that is accepted has found its version
on every target, has met no other accepted call on a target that had this version when its client
read, and raises each target by one; a call that is not accepted changes nothing. -/
theorem versions_lose_no_update (h : ReviewHandle) (db : ReviewDb) (actions : List VersionAction) :
    Along (step h) (fun s => ∀ client, s.ClientSafe h client) { db := db } actions := by
  have hstart : VersionState.Counted { db := db } := by rintro client c ⟨⟩
  have hall : Along (step h) VersionState.Counted { db := db } actions :=
    Along.of_step (I := VersionState.Counted) (fun _ a hs => counted_step hs a) hstart actions
  exact hall.mono fun _ hs client => clientSafe hs client

def twoDocuments : ReviewDb where
  items := [{ id := "d1", matterId := "m1", reviewVersion := 1 }, { id := "d2", matterId := "m1" }]
  codeDefinitions := [{
    id := "c1", matterId := "m1", key := "hot", label := "Hot", groupKey := "issues", cardinality := .multi }]

def overtaken : List VersionAction :=
  [.read "ann" "d1",
    .read "ben" "d2",
    .call "ben" (.applyCodes {
      itemIds := ["d2"], addCodeIds := ["c1"], removeCodeIds := [], expectedVersion := some 0 }) "2026-01-05T09:00:00+00:00",
    .commit "ben",
    .call "ann" (.applyCodes {
      itemIds := ["d1", "d2"], addCodeIds := [], removeCodeIds := ["c1"], expectedVersion := some 1 })
      "2026-01-05T09:01:00+00:00"]

def overtakes (h : ReviewHandle) (s : VersionState) (client : String) : Bool :=
  match s.clients client with
  | none => false
  | some c =>
    match c.pending with
    | none => false
    | some p =>
      match p.txn h.matterId s.db with
      | .error _ => false
      | .ok _ => p.guarding.targets.any fun t => (s.accepted.drop c.since).any (t ∈ ·)

/-- Ann's call is accepted, although Ben's was accepted on one of its targets after her read. -/
theorem versions_overtaken :
    overtakes ⟨"m1", false⟩ (overtaken.foldl (step ⟨"m1", false⟩) { db := twoDocuments }) "ann" = true := by
  decide +kernel

end VersionState

end MatterCore
