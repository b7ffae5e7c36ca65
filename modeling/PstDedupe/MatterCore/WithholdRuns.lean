import PstDedupe.MatterCore.ReviewCalls
import PstDedupe.MatterCore.Withhold

/-!
# Holds over interleaved clients

A client makes calls on claims one after the other.
-/

namespace MatterCore

open Rust Foundations List Option Function Prod

section Transactions

variable {db db' : ReviewDb} {matter itemId actor now : String}

theorem ReviewDb.sameHolds_appendAudit (action entity : String) :
    SameHolds db (db.appendAudit actor action entity now) :=
  ⟨rfl, rfl⟩

theorem ReviewDb.sameHolds_audited {m : MatterDb} {action entity : String}
    (h : m.items.map cacheOf = db.items.map cacheOf) : SameHolds db (db.audited m actor action entity now) :=
  ⟨rfl, h⟩

theorem ReviewDb.sameHolds_auditPrivilegeBatch (action : String) (itemIds : List String) :
    SameHolds db (db.auditPrivilegeBatch actor action itemIds now) := by
  unfold ReviewDb.auditPrivilegeBatch
  split
  · exact SameHolds.refl db
  · exact sameHolds_appendAudit _ _

theorem holdsCached_ensureTxn (hc : db.HoldsCached matter)
    (h : ensureItemPrivilegeTxn matter itemId actor now db = .ok db') :
    db'.HoldsCached matter := by
  obtain ⟨⟨changed, db₁⟩, hensure, h⟩ := bind_eq_ok.mp h
  have hensured := hc.ensure hensure
  cases h
  split
  · exact (ReviewDb.sameHolds_appendAudit _ _).holdsCached hensured
  · exact hensured

theorem holdsCached_clearTxn (hc : db.HoldsCached matter) :
    (clearItemPrivilegeTxn matter itemId actor now db).HoldsCached matter := by
  unfold clearItemPrivilegeTxn
  have hcleared : (db.softClearItemPrivilegeConn matter itemId actor now).2.HoldsCached matter := hc.softClear
  dsimp only
  split
  · exact (ReviewDb.sameHolds_appendAudit _ _).holdsCached hcleared
  · exact hcleared

def PrivilegeUpsert.Sound (u : PrivilegeUpsert) : Prop := u.status = .cleared → u.withhold ≠ 1

theorem sound_of_read {h : ReviewHandle} {input : UpsertItemPrivilegeInput} {u : PrivilegeUpsert}
    (hread : readUpsertItemPrivilege h db input now = .ok u) : u.Sound := by
  obtain ⟨_, -, hread⟩ := bind_eq_ok.mp hread
  obtain ⟨basis, -, hread⟩ := bind_eq_ok.mp hread
  obtain ⟨status, -, hread⟩ := bind_eq_ok.mp hread
  obtain ⟨resolved, -, hread⟩ := bind_eq_ok.mp hread
  cases hread
  intro hcleared
  have hstatus : status = .cleared := hcleared
  show (if status = .cleared then (0 : Int) else _) ≠ 1
  rw [if_pos hstatus]
  decide

theorem holdsCached_upsertTxn {u : PrivilegeUpsert} (hu : u.Sound) (hc : db.HoldsCached matter)
    (h : u.txn matter db = .ok db') :
    db'.HoldsCached matter := by
  obtain ⟨⟨versions, db₁⟩, hprepare, h⟩ := bind_eq_ok.mp h
  have hc₁ := (ReviewDb.sameHolds_prepare hprepare).holdsCached hc
  dsimp only at h
  split at h
  next hsome =>
    cases h
    have hwritten : ((db₁.updatePrivilege matter u.itemId
        (u.write (u.asserted (db₁.loadPrivilege matter u.itemId)))).setItemWithholdCache
        matter u.itemId (u.withhold = 1)).HoldsCached matter :=
      hc₁.update u.withhold u.status (fun _ => ⟨rfl, rfl⟩) (fun _ => ⟨rfl, rfl⟩) hu hsome
    exact (ReviewDb.sameHolds_appendAudit _ _).holdsCached hwritten
  next hnone =>
    obtain ⟨db₂, hinsert, h⟩ := bind_eq_ok.mp h
    cases h
    have hnone' : db₁.loadPrivilege matter u.itemId = none := by simpa using hnone
    have hwritten : (db₂.setItemWithholdCache matter u.itemId (u.withhold = 1)).HoldsCached matter :=
      ReviewDb.HoldsCached.insert hc₁
        (u.row matter (u.asserted (db₁.loadPrivilege matter u.itemId))) rfl hnone' hu hinsert
    exact (ReviewDb.sameHolds_appendAudit _ _).holdsCached hwritten

theorem holdsCached_applyAll {c : CodesApply} {targets : List String}
    {changes changes' : PrivilegeChanges} (hc : db.HoldsCached matter)
    (h : c.applyAll matter targets changes db = .ok (changes', db')) : db'.HoldsCached matter := by
  induction targets generalizing db changes with
  | nil =>
    cases h
    exact hc
  | cons itemId rest ih =>
    unfold CodesApply.applyAll at h
    obtain ⟨⟨changes₁, db₁⟩, hensure, h⟩ := bind_eq_ok.mp h
    -- codes are another table
    have hcodes : (c.applyTo matter db itemId).HoldsCached matter := by
      obtain ⟨codes, hcodes⟩ := CodesApply.applyTo_eq c matter db itemId
      rw [hcodes]
      have hsame : ReviewDb.SameHolds db { db with itemCodes := codes } := ⟨rfl, rfl⟩
      exact hsame.holdsCached hc
    have hensured : db₁.HoldsCached matter := by
      unfold CodesApply.ensurePrivilege at hensure
      split at hensure
      · split at hensure
        next hconn =>
          cases hensure
          exact hcodes.ensure hconn
        next => cases hensure
      · cases hensure
        exact hcodes
    have hcleared : (c.clearPrivilege matter itemId changes₁ db₁).2.HoldsCached matter := by
      unfold CodesApply.clearPrivilege
      split
      · exact hensured.softClear
      · exact hensured
    exact ih hcleared h

theorem holdsCached_codesTxn {c : CodesApply} {r : ApplyCodesResult} (hc : db.HoldsCached matter)
    (h : c.txn matter db = .ok (r, db')) : db'.HoldsCached matter := by
  obtain ⟨⟨versions, db₁⟩, hprepare, h⟩ := bind_eq_ok.mp h
  obtain ⟨⟨changes, db₂⟩, happly, h⟩ := bind_eq_ok.mp h
  have hc₂ := holdsCached_applyAll ((ReviewDb.sameHolds_prepare hprepare).holdsCached hc) happly
  cases h
  exact (((ReviewDb.sameHolds_appendAudit _ _).trans (ReviewDb.sameHolds_auditPrivilegeBatch _ _)).trans
    (ReviewDb.sameHolds_auditPrivilegeBatch _ _)).holdsCached hc₂

theorem holdsCached_insertRedaction {row : ItemRedaction} (hc : db.HoldsCached matter)
    (h : db.insertRedaction matter row actor now = .ok db') : db'.HoldsCached matter := by
  obtain ⟨m, hm, h⟩ := bind_eq_ok.mp h
  unfold createRedactionTxn at hm
  split at hm
  · cases hm
  · cases hm
    cases h
    -- the item gets a count, and its artifact goes
    refine (ReviewDb.sameHolds_audited ?_).holdsCached hc
    show List.map ReviewDb.cacheOf (List.map _ db.items) = List.map ReviewDb.cacheOf db.items
    rw [List.map_map]
    refine map_congr_left fun item _ => ?_
    dsimp only [comp_apply]
    split <;> rfl

end Transactions

/-- A call on claims. The ids are what `new_id` draws. -/
inductive HoldCall where
  | ensure (itemId actor : String)
  | upsert (input : UpsertItemPrivilegeInput)
  | clear (itemId actor : String)
  | codes (input : ApplyCodesInput)
  | redact (input : CreateRedactionInput) (newId : String)

inductive PendingHold where
  | ensure (itemId actor : String)
  | upsert (u : PrivilegeUpsert)
  | clear (itemId actor : String)
  | codes (c : CodesApply)
  | redaction (row : ItemRedaction) (itemId actor : String)
  | hook (itemId actor : String)
  /-- The hook has read the claim and calls `upsert_item_privilege`. -/
  | hookUpsert (input : UpsertItemPrivilegeInput)

def HoldCall.read (h : ReviewHandle) (db : ReviewDb) (now : String) : HoldCall → Except CallError PendingHold
  | .ensure itemId actor => do
    db.ensureItemInMatter h.matterId itemId
    return .ensure itemId (normalizeActor actor)
  | .upsert input => (readUpsertItemPrivilege h db input now).map .upsert
  | .clear itemId actor => do
    db.ensureItemInMatter h.matterId itemId
    return .clear itemId (normalizeActor actor)
  | .codes input => (readApplyCodes h db input now).map .codes
  | .redact input newId => do
    let row ← createRedactionRow h.matterId db.toMatterDb input newId now
    return .redaction row input.itemId (normalizeActor input.actor)

def PendingHold.next (h : ReviewHandle) (db : ReviewDb) (now : String) :
    PendingHold → ReviewDb × Option PendingHold
  | .ensure itemId actor => (committed db (ensureItemPrivilegeTxn h.matterId itemId actor now db), none)
  | .upsert u => (committed db (u.txn h.matterId db), none)
  | .clear itemId actor => (clearItemPrivilegeTxn h.matterId itemId actor now db, none)
  | .codes c => (committed db ((c.txn h.matterId db).map snd), none)
  | .redaction row itemId actor =>
    match db.insertRedaction h.matterId row actor now with
    | .ok db => (db, if row.reason = .privilege then some (.hook itemId actor) else none)
    | .error _ => (db, none)
  | .hook itemId actor =>
    match db.getItemPrivilege h.matterId itemId with
    | .ok existing =>
      (db, if ∃ claim ∈ existing, claim.Partial then none
        else some (.hookUpsert (partialRedactionInput itemId actor existing)))
    | .error _ => (db, none)
  | .hookUpsert input =>
    match readUpsertItemPrivilege h db input now with
    | .ok u => (db, some (.upsert u))
    | .error _ => (db, none)

structure HoldState where
  db : ReviewDb
  clients : String → Option PendingHold := fun _ => none

inductive HoldAction where
  | begin (client : String) (strictActor : Bool) (call : HoldCall) (now : String)
  | go (client : String) (strictActor : Bool) (now : String)
  | quit (client : String)

namespace HoldState

variable {db : ReviewDb}

def step (matter : String) (s : HoldState) : HoldAction → HoldState
  | .begin client strictActor call now =>
    match s.clients client with
    | some _ => s
    | none => { s with clients := Function.update s.clients client (call.read ⟨matter, strictActor⟩ s.db now).toOption }
  | .go client strictActor now =>
    match s.clients client with
    | some p =>
      let next := p.next ⟨matter, strictActor⟩ s.db now
      ⟨next.1, Function.update s.clients client next.2⟩
    | none => s
  | .quit client => { s with clients := Function.update s.clients client none }

def SoundCalls (s : HoldState) : Prop := ∀ client u, s.clients client = some (.upsert u) → u.Sound

structure Cached (matter : String) (s : HoldState) : Prop where
  holds : s.db.HoldsCached matter
  sound : s.SoundCalls

variable {matter : String} {s : HoldState}

theorem SoundCalls.update (h : s.SoundCalls) {client : String} {p : Option PendingHold}
    (hp : ∀ u, p = some (.upsert u) → u.Sound) : SoundCalls ⟨db, Function.update s.clients client p⟩ := by
  intro other u hu
  have hu : Function.update s.clients client p other = some (.upsert u) := hu
  by_cases heq : other = client
  · rw [heq, update_self] at hu
    exact hp u hu
  · rw [update_of_ne heq] at hu
    exact h other u hu

theorem sound_read {h : ReviewHandle} {now : String} {call : HoldCall} {u : PrivilegeUpsert}
    (hread : (call.read h db now).toOption = some (.upsert u)) : u.Sound := by
  cases hp : call.read h db now with
  | error e =>
    rw [hp] at hread
    cases hread
  | ok p =>
    rw [hp] at hread
    obtain rfl : p = .upsert u := Option.some.inj hread
    cases call with
    | ensure itemId actor =>
      obtain ⟨_, -, hp⟩ := bind_eq_ok.mp hp
      cases hp
    | upsert input =>
      obtain ⟨u', hu', heq⟩ := map_eq_ok.mp hp
      cases heq
      exact sound_of_read hu'
    | clear itemId actor =>
      obtain ⟨_, -, hp⟩ := bind_eq_ok.mp hp
      cases hp
    | codes input =>
      obtain ⟨c, -, heq⟩ := map_eq_ok.mp hp
      cases heq
    | redact input newId =>
      obtain ⟨row, -, hp⟩ := bind_eq_ok.mp hp
      cases hp

theorem holdsCached_committed {r : Except CallError ReviewDb} (hc : db.HoldsCached matter)
    (h : ∀ db', r = .ok db' → db'.HoldsCached matter) : (committed db r).HoldsCached matter := by
  cases r with
  | ok db' => exact h db' rfl
  | error e => exact hc

theorem holdsCached_next {h : ReviewHandle} {now : String} {p : PendingHold}
    (hc : db.HoldsCached h.matterId) (hp : ∀ u, p = .upsert u → u.Sound) :
    (p.next h db now).1.HoldsCached h.matterId ∧ ∀ u, (p.next h db now).2 = some (.upsert u) → u.Sound := by
  have hdone : ∀ u, (none : Option PendingHold) = some (.upsert u) → u.Sound :=
    fun _ h => absurd h.symm (some_ne_none _)
  cases p with
  | ensure itemId actor =>
    refine ⟨?_, hdone⟩
    show (committed db (ensureItemPrivilegeTxn h.matterId itemId actor now db)).HoldsCached h.matterId
    exact holdsCached_committed hc fun _ h => holdsCached_ensureTxn hc h
  | upsert u =>
    refine ⟨?_, hdone⟩
    show (committed db (u.txn h.matterId db)).HoldsCached h.matterId
    exact holdsCached_committed hc fun _ h => holdsCached_upsertTxn (hp u rfl) hc h
  | clear itemId actor =>
    refine ⟨?_, hdone⟩
    show (clearItemPrivilegeTxn h.matterId itemId actor now db).HoldsCached h.matterId
    exact holdsCached_clearTxn hc
  | codes c =>
    refine ⟨?_, hdone⟩
    show (committed db ((c.txn h.matterId db).map snd)).HoldsCached h.matterId
    refine holdsCached_committed hc fun db' hdb' => ?_
    obtain ⟨⟨r, db₁⟩, htxn, rfl⟩ := map_eq_ok.mp hdb'
    exact holdsCached_codesTxn hc htxn
  | redaction row itemId actor =>
    unfold PendingHold.next
    dsimp only
    split
    next db₁ hinsert =>
      refine ⟨holdsCached_insertRedaction hc hinsert, fun u hu => ?_⟩
      dsimp only at hu
      split at hu <;> cases hu
    next => exact ⟨hc, hdone⟩
  | hook itemId actor =>
    unfold PendingHold.next
    dsimp only
    split
    next existing hread =>
      refine ⟨hc, fun u hu => ?_⟩
      dsimp only at hu
      split at hu <;> cases hu
    next => exact ⟨hc, hdone⟩
  | hookUpsert input =>
    unfold PendingHold.next
    dsimp only
    split
    next u hread =>
      refine ⟨hc, fun u' hu' => ?_⟩
      cases hu'
      exact sound_of_read hread
    next => exact ⟨hc, hdone⟩

theorem cached_step (hs : s.Cached matter) (a : HoldAction) : (s.step matter a).Cached matter := by
  obtain ⟨hholds, hsound⟩ := hs
  cases a with
  | «begin» client strictActor call now =>
    unfold step
    dsimp only
    split
    · exact ⟨hholds, hsound⟩
    · exact ⟨hholds, hsound.update fun u => sound_read⟩
  | go client strictActor now =>
    unfold step
    dsimp only
    split
    next p hp =>
      have hkept : (p.next ⟨matter, strictActor⟩ s.db now).1.HoldsCached matter
          ∧ ∀ u, (p.next ⟨matter, strictActor⟩ s.db now).2 = some (.upsert u) → u.Sound :=
        holdsCached_next hholds fun u hu => hsound client u (hp.trans (congrArg some hu))
      exact ⟨hkept.1, hsound.update hkept.2⟩
    next => exact ⟨hholds, hsound⟩
  | quit client => exact ⟨hholds, hsound.update fun _ h => absurd h.symm (some_ne_none _)⟩

end HoldState

/-- **The cache and the gate agree with the claims** in every state that clients reach from a matter
without claims, whatever they call and however their calls interleave. -/
theorem holds_cached (matter : String) (db : ReviewDb) (hclaims : db.itemPrivilege = [])
    (hcaches : ∀ item ∈ db.items, item.privilegeWithhold = 0) (actions : List HoldAction) :
    Along (HoldState.step matter) (fun s =>
      (∀ item ∈ s.db.items, item.matterId = matter → (item.privilegeWithhold = 1 ↔ s.db.Held matter item.id)) ∧
        ∀ itemId withheld, s.db.itemIsWithheld matter itemId = .ok withheld → (withheld = true ↔ s.db.Held matter itemId))
      { db := db } actions := by
  have hstart : HoldState.Cached matter { db := db } := by
    refine ⟨⟨fun item hitem _ => ?_, ?_, ?_⟩, fun _ _ h => absurd h.symm (some_ne_none _)⟩
    · have hno : ¬ db.Held matter item.id := by
        rintro ⟨claim, hclaim, -⟩
        rw [hclaims] at hclaim
        cases hclaim
      rw [hcaches item hitem]
      exact iff_of_false (by decide) hno
    · rw [hclaims]
      exact fun _ h => absurd h not_mem_nil
    · rw [hclaims]
      exact nodup_nil
  have hrun : Along (HoldState.step matter) (HoldState.Cached matter) { db := db } actions := by
    refine Along.of_step (fun _ a hs => ?_) ?_ actions
    · exact HoldState.cached_step hs a
    · exact hstart
  exact hrun.mono fun s hs => ⟨hs.holds.cache, fun _ _ => ReviewDb.itemIsWithheld_eq_ok⟩

def claimBesideRedaction : List HoldAction :=
  [.begin "a" false (.redact redactAdvice "rdx1") "2026-01-05T09:00:00+00:00",
    .begin "b" false (.upsert ⟨"d1", "work_product", "Drafts", "asserted", true, true, "u2",
      some 0⟩) "2026-01-05T09:00:00+00:00",
    .go "a" false "2026-01-05T09:00:01+00:00", .go "b" false "2026-01-05T09:00:02+00:00", .go "a" false "2026-01-05T09:00:03+00:00"]

theorem holds_cached_beside_redaction :
    let s := claimBesideRedaction.foldl (HoldState.step "m1") { db := sharedDocument }
    s.db.Held "m1" "d1" ∧ ∀ item ∈ s.db.items, item.matterId = "m1" →
      (item.privilegeWithhold = 1 ↔ s.db.Held "m1" item.id) := by
  have hheld : (claimBesideRedaction.foldl (HoldState.step "m1") { db := sharedDocument }).db.Held
    "m1" "d1" := by
    decide +kernel
  have hrun := holds_cached "m1" sharedDocument rfl (by decide) claimBesideRedaction
  exact ⟨hheld, hrun.last.1⟩

end MatterCore
