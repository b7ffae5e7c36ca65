import PstDedupe.Foundations.GuardedRuns
import PstDedupe.MatterCore.CodingSpecs

/-!
# Single-choice coding over runs

The choice of a group stays single, and an application leaves what it was asked for, exactly as long
as no multi code meets a single one of its group in a call or on a target, and no definition moves
to where its items already hold a rival.
-/

namespace MatterCore

open Rust Foundations List

variable {db : ReviewDb} {matter : String} {input : CodeDefInput}

/-! ## Runs -/

inductive CodingCall where
  | define (input : CodeDefInput) (newId now : String)
  | apply (input : ApplyCodesInput) (now : String)

structure Coded where
  targets : List String
  adds : List String
  removes : List String

structure CodingHistory where
  db : ReviewDb
  /-- The application that was accepted last, if the last call was one. -/
  last : Option Coded := none

/-- No item holds a single code beside another one of its group. -/
def SingleChoice (db : ReviewDb) : Prop :=
  ∀ itemId, ∀ c ∈ db.codeDefinitions, ∀ d ∈ db.codeDefinitions, c.id ∈ db.holds itemId →
    d.id ∈ db.holds itemId →
    c.groupKey = d.groupKey → c.cardinality = .single → c.id = d.id

/-- The targets hold what was added and nothing that was removed. -/
def Coded.Done (coded : Coded) (db : ReviewDb) : Prop :=
  ∀ itemId ∈ coded.targets, (∀ codeId ∈ coded.adds, codeId ∉ coded.removes →
    codeId ∈ db.holds itemId) ∧ ∀ codeId ∈ coded.removes, codeId ∉ db.holds itemId

namespace CodingHistory

def step (h : ReviewHandle) (s : CodingHistory) : CodingCall → CodingHistory
  | .define input newId now =>
    match upsertCodeDefinition h s.db input newId now with
    | .ok (_, db) => ⟨db, none⟩
    | .error _ => ⟨s.db, none⟩
  | .apply input now =>
    match applyCodes h s.db input now with
    | .ok (r, db) => ⟨db, some ⟨r.targetItemIds, input.addCodeIds, input.removeCodeIds⟩⟩
    | .error _ => ⟨s.db, none⟩

/-- The choice is single, and the last application did what it was asked for. -/
structure Coherent (s : CodingHistory) : Prop where
  single : SingleChoice s.db
  done : ∀ coded ∈ s.last, coded.Done s.db

end CodingHistory

/-- Codes on items are defined in this matter. -/
structure ReviewDb.CodesRecorded (matter : String) (db : ReviewDb) : Prop where
  keyed : (db.codeDefinitions.map CodeDef.id).Nodup
  known : ∀ itemId, ∀ codeId ∈ db.holds itemId, ∃ code ∈ db.codeDefinitions, code.id = codeId ∧
    code.matterId = matter
  claims : ∀ claim ∈ db.itemPrivilege, claim.matterId = matter

/-- No multi code that the call adds, and does not remove again, meets a single code of its group:
not one that the call adds too, unless that one comes first and is removed again, and not one that a
target holds, unless that one is removed or displaced by another. -/
structure CodesApply.NoClash (c : CodesApply) (db : ReviewDb) : Prop where
  added : ∀ a ∈ c.addDefs, ∀ s ∈ c.addDefs, a.id ∉ c.removeDefs.map CodeDef.id → s.cardinality = .single →
    s.groupKey = a.groupKey → s.id ≠ a.id → s.id ∈ c.removeDefs.map CodeDef.id ∧ compareCodes s a = .lt
  held : ∀ itemId ∈ c.targets, ∀ a ∈ c.addDefs, a.id ∉ c.removeDefs.map CodeDef.id → a.cardinality = .multi →
    ∀ d ∈ db.codeDefinitions, d.cardinality = .single → d.groupKey = a.groupKey →
      d.id ∈ db.holds itemId → d.id ∈ c.removeDefs.map CodeDef.id
        ∨ ∃ s ∈ c.addDefs, s.cardinality = .single ∧ s.groupKey = d.groupKey ∧ s.id ≠ d.id

/-- Where an item holds the code, no single choice is broken in this group. -/
def NoRival (db : ReviewDb) (codeId groupKey : String) (cardinality : Cardinality) : Prop :=
  ∀ itemId, ∀ d ∈ db.codeDefinitions, codeId ∈ db.holds itemId → d.id ∈ db.holds itemId →
    d.groupKey = groupKey →
    cardinality = .single ∨ d.cardinality = .single → d.id = codeId

/-- The input passes its checks and names a definition of the matter. -/
structure CodeDefInput.Updates (input : CodeDefInput) (matter : String) (db : ReviewDb) (codeId : String)
    (cardinality : Cardinality) : Prop where
  named : input.id = some codeId
  label : trim input.label ≠ ""
  group : trim input.groupKey ≠ ""
  parsed : parseCardinality input.cardinality = .ok cardinality
  existing : ∃ code, rowAt CodeDef.id db.codeDefinitions codeId = some code ∧ code.matterId = matter

/-- The call is turned away by its checks or its guards, or keeps the choice single. -/
def CodingCall.Keeps (h : ReviewHandle) (db : ReviewDb) : CodingCall → Prop
  | .define input _ _ => ∀ id cardinality, input.Updates h.matterId db id cardinality →
      NoRival db id (trim input.groupKey) cardinality
  | .apply input now => ∀ c, readApplyCodes h db input now = .ok c →
      (c.guards.prepare db c.targets c.actor c.expectedVersion c.now).isOk → c.NoClash db

section Application

variable {c : CodesApply} {db db' : ReviewDb} {matter : String} {adds removes : List String}

theorem clears_iff (hrecorded : db.CodesRecorded matter) {a d : CodeDef}
    (hd : d ∈ db.codeDefinitions) (hmatter : d.matterId = matter) :
    db.Clears matter a d.id ↔ a.cardinality = .single ∧ d.groupKey = a.groupKey ∧ d.id ≠ a.id := by
  constructor
  · rintro ⟨hsingle, other, hother, hid, _, hgroup, hne⟩
    rw [inj_on_of_nodup_map hrecorded.keyed hother hd hid] at hgroup hne
    exact ⟨hsingle, hgroup, hne⟩
  · rintro ⟨hsingle, hgroup, hne⟩
    exact ⟨hsingle, d, hd, rfl, hmatter, hgroup, hne⟩

theorem CodesApply.Checked.mem_chosen (hchecked : c.Checked matter db adds removes)
    (hrecorded : db.CodesRecorded matter) {held : Set String} {x : String} :
    x ∈ c.chosen (db.Clears matter) held ↔ ((x ∈ held ∧ ∀ a ∈ c.addDefs, ¬ db.Clears matter a x)
          ∨ ∃ a ∈ c.addDefs, a.id = x ∧ ∀ b ∈ c.addDefs, db.Clears matter b x → (compareCodes b a).isLE)
        ∧ x ∉ c.removeDefs.map CodeDef.id := by
  have hplace : ∀ a ∈ c.addDefs, ∀ b ∈ c.addDefs, a.id = b.id → a = b := fun a ha b hb hid =>
    inj_on_of_nodup_map hrecorded.keyed (hchecked.addDefs.mem a ha).1 (hchecked.addDefs.mem b hb).1 hid
  have hanti : ∀ a b : CodeDef, (compareCodes a b).isLE → (compareCodes b a).isLE → a.id = b.id :=
    fun a b hab hba => id_eq_of_compareCodes (Std.OrientedCmp.isLE_antisymm hab hba)
  have hself : ∀ a : CodeDef, ¬ db.Clears matter a a.id := by
    rintro a ⟨_, other, _, hid, _, _, hne⟩
    exact hne hid
  show x ∈ c.addDefs.foldl _ held ∧ (∀ code ∈ c.removeDefs, x ≠ code.id) ↔ _
  rw [mem_foldl_put_sorted hchecked.sorted hanti hplace hself, mem_map, not_exists]
  simp only [not_and]
  exact and_congr Iff.rfl (forall₂_congr fun code _ => ne_comm)

variable (hchecked : c.Checked matter db adds removes) (hrecorded : db.CodesRecorded matter)
  (hholds : ∀ other, db'.holds other
    = if other ∈ c.targets then c.chosen (db.Clears matter) (db.holds other) else db.holds other)

include hchecked hrecorded hholds

theorem done_of_noClash (hclash : c.NoClash db) : Coded.Done ⟨c.targets, adds, removes⟩ db' := by
  intro itemId htarget
  rw [hholds, if_pos htarget]
  refine ⟨fun codeId hadd hkept => ?_, fun codeId hremove hheld => ?_⟩
  · obtain ⟨a, ha, rfl⟩ := List.mem_map.mp ((hchecked.addDefs.ids codeId).mp hadd)
    have hkept' : a.id ∉ c.removeDefs.map CodeDef.id := fun h => hkept ((hchecked.removeDefs.ids a.id).mpr h)
    refine (hchecked.mem_chosen hrecorded).mpr ⟨.inr ⟨a, ha, rfl, fun s hs hclears => ?_⟩, hkept'⟩
    obtain ⟨ha', hmatter⟩ := hchecked.addDefs.mem a ha
    obtain ⟨hsingle, hgroup, hne⟩ := (clears_iff hrecorded ha' hmatter).mp hclears
    -- what displaces it comes before it
    have hbefore := (hclash.added a ha s hs hkept' hsingle hgroup.symm hne.symm).2
    rw [hbefore]
    rfl
  · exact ((hchecked.mem_chosen hrecorded).mp hheld).2 ((hchecked.removeDefs.ids codeId).mp hremove)

variable (hdefs : db'.codeDefinitions = db.codeDefinitions)

include hdefs

theorem single_of_noClash (hsingle : SingleChoice db) (hclash : c.NoClash db) : SingleChoice db' := by
  intro itemId s hs d hd hheldS hheldD hgroup hsingleS
  rw [hdefs] at hs hd
  rw [hholds] at hheldS hheldD
  by_cases htarget : itemId ∈ c.targets
  · rw [if_pos htarget] at hheldS hheldD
    obtain ⟨hwayS, hkeptS⟩ := (hchecked.mem_chosen hrecorded).mp hheldS
    obtain ⟨hwayD, hkeptD⟩ := (hchecked.mem_chosen hrecorded).mp hheldD
    have hmatter : ∀ code ∈ db.codeDefinitions, code.id ∈ db.holds itemId → code.matterId = matter := by
      intro code hcode hheld
      obtain ⟨known, hknown, hid, hmatter⟩ := hrecorded.known itemId code.id hheld
      rw [← inj_on_of_nodup_map hrecorded.keyed hknown hcode hid]
      exact hmatter
    by_contra hne
    rcases hwayS with ⟨hwasS, hstayS⟩ | ⟨s', hs', hid, _⟩
    · rcases hwayD with ⟨hwasD, _⟩ | ⟨d', hd', hid, _⟩
      · -- both were there
        exact hne (hsingle itemId s hs d hd hwasS hwasD hgroup hsingleS)
      · -- the other is new, and leaves the single one in place: it is a multi code
        obtain rfl : d' = d := inj_on_of_nodup_map hrecorded.keyed (hchecked.addDefs.mem d' hd').1 hd hid
        cases hcard : d'.cardinality with
        | single =>
          exact hstayS d' hd' ((clears_iff hrecorded hs (hmatter s hs hwasS)).mpr ⟨hcard, hgroup, hne⟩)
        | multi =>
          rcases hclash.held itemId htarget d' hd' hkeptD hcard s hs hsingleS hgroup hwasS with
            hremoved | hdisplaced
          · exact hkeptS hremoved
          · obtain ⟨b, hb, hsingleB, hgroupB, hneB⟩ := hdisplaced
            exact hstayS b hb ((clears_iff hrecorded hs (hmatter s hs hwasS)).mpr ⟨hsingleB,
              hgroupB.symm, hneB.symm⟩)
    · obtain rfl : s' = s := inj_on_of_nodup_map hrecorded.keyed (hchecked.addDefs.mem s' hs').1 hs hid
      rcases hwayD with ⟨hwasD, hstayD⟩ | ⟨d', hd', hid, _⟩
      · -- a new single code displaces it
        exact hstayD s' hs' ((clears_iff hrecorded hd (hmatter d hd hwasD)).mpr ⟨hsingleS,
          hgroup.symm, fun h => hne h.symm⟩)
      · -- both are new
        obtain rfl : d' = d := inj_on_of_nodup_map hrecorded.keyed (hchecked.addDefs.mem d' hd').1 hd hid
        exact hkeptS (hclash.added d' hd' s' hs' hkeptD hsingleS hgroup hne).1
  · rw [if_neg htarget] at hheldS hheldD
    exact hsingle itemId s hs d hd hheldS hheldD hgroup hsingleS

theorem noClash_of_coherent (hsingle : SingleChoice db')
    (hdone : Coded.Done ⟨c.targets, adds, removes⟩ db') : c.NoClash db := by
  -- what is added and not removed is held
  have hheld : ∀ a ∈ c.addDefs, a.id ∉ c.removeDefs.map CodeDef.id → ∀ itemId ∈ c.targets,
      a.id ∈ db'.holds itemId := by
    intro a ha hkept itemId htarget
    refine (hdone itemId htarget).1 a.id ((hchecked.addDefs.ids a.id).mpr (mem_map_of_mem ha)) ?_
    exact fun hremove => hkept ((hchecked.removeDefs.ids a.id).mp hremove)
  have hdef : ∀ a ∈ c.addDefs, a ∈ db'.codeDefinitions := fun a ha => hdefs ▸ (hchecked.addDefs.mem a ha).1
  constructor
  case added =>
    intro a ha s hs hkept hsingleS hgroup hne
    obtain ⟨itemId, htarget⟩ := exists_mem_of_ne_nil _ hchecked.targets.2
    refine ⟨?_, ?_⟩
    · by_contra hkeptS
      exact hne (hsingle itemId s (hdef s hs) a (hdef a ha) (hheld s hs hkeptS itemId htarget)
        (hheld a ha hkept itemId htarget) hgroup hsingleS)
    · have hclears : db.Clears matter s a.id :=
        (clears_iff hrecorded (hchecked.addDefs.mem a ha).1 (hchecked.addDefs.mem a ha).2).mpr
          ⟨hsingleS, hgroup.symm, hne.symm⟩
      have hmem := hheld a ha hkept itemId htarget
      rw [hholds, if_pos htarget] at hmem
      rcases ((hchecked.mem_chosen hrecorded).mp hmem).1 with ⟨_, hstay⟩ | ⟨a', ha', hid, hbefore⟩
      · exact absurd hclears (hstay s hs)
      · obtain rfl : a' = a := inj_on_of_nodup_map hrecorded.keyed (hchecked.addDefs.mem a' ha').1
          (hchecked.addDefs.mem a ha).1 hid
        rcases Ordering.isLE_iff_eq_lt_or_eq_eq.mp (hbefore s hs hclears) with hlt | heq
        · exact hlt
        · exact absurd (id_eq_of_compareCodes heq) hne
  case held =>
    intro itemId htarget a ha hkept hmulti d hd hsingleD hgroup hwas
    by_contra hstays
    rw [not_or] at hstays
    obtain ⟨known, hknown, hid, hmatter⟩ := hrecorded.known itemId d.id hwas
    obtain rfl : known = d := inj_on_of_nodup_map hrecorded.keyed hknown hd hid
    have hmemD : known.id ∈ db'.holds itemId := by
      rw [hholds, if_pos htarget]
      refine (hchecked.mem_chosen hrecorded).mpr ⟨.inl ⟨hwas, fun s hs hclears => ?_⟩, hstays.1⟩
      obtain ⟨hsingleS, hgroupS, hneS⟩ := (clears_iff hrecorded hd hmatter).mp hclears
      exact hstays.2 ⟨s, hs, hsingleS, hgroupS.symm, hneS.symm⟩
    have hsame := hsingle itemId known (hdefs ▸ hd) a (hdef a ha) hmemD
      (hheld a ha hkept itemId htarget) hgroup hsingleD
    rw [inj_on_of_nodup_map hrecorded.keyed hd (hchecked.addDefs.mem a ha).1 hsame, hmulti] at hsingleD
    cases hsingleD

end Application

theorem ReviewDb.ensureItemPrivilegeConn_isOk (itemId actor now : String)
    (hclaims : ∀ claim ∈ db.itemPrivilege, claim.matterId = matter) :
    ∃ changed db', db.ensureItemPrivilegeConn matter itemId actor now = .ok (changed, db')
      ∧ ∀ claim ∈ db'.itemPrivilege, claim.matterId = matter := by
  unfold ensureItemPrivilegeConn
  cases hload : db.loadPrivilege matter itemId with
  | some claim =>
    simp only
    split
    · exact ⟨_, _, rfl, hclaims⟩
    · refine ⟨_, _, rfl, fun claim hclaim => ?_⟩
      obtain ⟨old, hold, rfl⟩ := List.mem_map.mp hclaim
      split <;> exact hclaims old hold
  | none =>
    have hfresh : itemId ∉ db.itemPrivilege.map ItemPrivilege.itemId := by
      intro hmem
      obtain ⟨claim, hclaim, hitem⟩ := List.mem_map.mp hmem
      exact absurd (decide_eq_true ⟨hitem, hclaims claim hclaim⟩) (List.find?_eq_none.mp hload claim hclaim)
    unfold insertPrivilege
    simp only [hfresh, if_false]
    refine ⟨_, _, rfl, fun claim hclaim => ?_⟩
    rcases List.mem_append.mp hclaim with hold | hnew
    · exact hclaims claim hold
    · rw [List.mem_singleton.mp hnew]

theorem CodesApply.claims_clearPrivilege {c : CodesApply} {matter itemId : String}
    {changes : PrivilegeChanges} (hclaims : ∀ claim ∈ db.itemPrivilege, claim.matterId = matter) :
    ∀ claim ∈ (c.clearPrivilege matter itemId changes db).2.itemPrivilege, claim.matterId = matter := by
  unfold clearPrivilege ReviewDb.softClearItemPrivilegeConn
  split
  · simp only
    split
    · exact hclaims
    · split
      · exact hclaims
      · intro claim hclaim
        obtain ⟨old, hold, rfl⟩ := List.mem_map.mp hclaim
        split <;> exact hclaims old hold
  · exact hclaims

theorem CodesApply.applyAll_isOk (c : CodesApply) (targets : List String)
    (changes : PrivilegeChanges) (hclaims : ∀ claim ∈ db.itemPrivilege, claim.matterId = matter) :
    ∃ changes' db', c.applyAll matter targets changes db = .ok (changes', db')
      ∧ ∀ claim ∈ db'.itemPrivilege, claim.matterId = matter := by
  induction targets generalizing changes db with
  | nil => exact ⟨changes, db, rfl, hclaims⟩
  | cons itemId rest ih =>
    have happlied : (c.applyTo matter db itemId).itemPrivilege = db.itemPrivilege := itemPrivilege_applyTo
    have hclaims₁ : ∀ claim ∈ (c.applyTo matter db itemId).itemPrivilege, claim.matterId = matter := by
      rw [happlied]
      exact hclaims
    have hensure : ∃ changes₁ db₁,
        c.ensurePrivilege matter itemId changes (c.applyTo matter db itemId) = .ok (changes₁, db₁)
        ∧ ∀ claim ∈ db₁.itemPrivilege, claim.matterId = matter := by
      unfold ensurePrivilege
      split
      · obtain ⟨changed, db₁, hok, hclaims₂⟩ :=
          ReviewDb.ensureItemPrivilegeConn_isOk itemId c.actor c.now hclaims₁
        rw [hok]
        exact ⟨_, db₁, rfl, hclaims₂⟩
      · exact ⟨changes, _, rfl, hclaims₁⟩
    obtain ⟨changes₁, db₁, hok, hclaims₂⟩ := hensure
    unfold applyAll
    rw [hok]
    exact ih _ (claims_clearPrivilege hclaims₂)

theorem CodesApply.txn_isOk {c : CodesApply} (hnodup : c.targets.Nodup)
    (hclaims : ∀ claim ∈ db.itemPrivilege, claim.matterId = matter)
    (hprepare : (c.guards.prepare db c.targets c.actor c.expectedVersion c.now).isOk) :
    ∃ r db', c.txn matter db = .ok (r, db') ∧ ∀ claim ∈ db'.itemPrivilege, claim.matterId = matter := by
  cases hok : c.guards.prepare db c.targets c.actor c.expectedVersion c.now with
  | error e =>
    rw [hok] at hprepare
    cases hprepare
  | ok result =>
    obtain ⟨versions, db₁⟩ := result
    obtain ⟨locks, rfl⟩ := (ReviewHandle.Guards.prepare_eq_ok hnodup hok).written
    have hclaims₁ : ∀ claim ∈ (db.guarded c.targets locks).itemPrivilege, claim.matterId = matter := hclaims
    obtain ⟨changes, db₂, happly, hclaims₂⟩ := c.applyAll_isOk c.targets {} hclaims₁
    have haudit : ∀ (db : ReviewDb) (action : String) (ids : List String),
        (db.auditPrivilegeBatch c.actor action ids c.now).itemPrivilege = db.itemPrivilege := by
      intro db action ids
      unfold ReviewDb.auditPrivilegeBatch
      split <;> rfl
    refine ⟨_, _, bind_eq_ok.mpr ⟨_, hok, bind_eq_ok.mpr ⟨_, happly, rfl⟩⟩, fun claim hclaim => ?_⟩
    rw [haudit, haudit] at hclaim
    exact hclaims₂ claim hclaim

/-! ## One call -/

namespace CodingHistory

variable {h : ReviewHandle} {s : CodingHistory}

theorem coherent_failed (hcoherent : s.Coherent) : Coherent ⟨s.db, none⟩ where
  single := hcoherent.single
  done := nofun

theorem step_apply_failed {input : ApplyCodesInput} {now : String} {e : CallError}
    (hfail : applyCodes h s.db input now = .error e) : s.step h (.apply input now) = ⟨s.db, none⟩ := by
  simp only [step, hfail]

theorem step_apply_ok {input : ApplyCodesInput} {now : String} {c : CodesApply}
    {r : ApplyCodesResult} {db' : ReviewDb} (hread : readApplyCodes h s.db input now = .ok c)
    (htxn : c.txn h.matterId s.db = .ok (r, db')) :
    s.step h (.apply input now) = ⟨db', some ⟨c.targets, input.addCodeIds, input.removeCodeIds⟩⟩ := by
  have hall : applyCodes h s.db input now = .ok (r, db') := bind_eq_ok.mpr ⟨c, hread, htxn⟩
  simp only [step, hall]
  rw [(c.holds_txn (checked_of_read hread).targets.1 htxn).1]

theorem step_apply (hrecorded : s.db.CodesRecorded h.matterId) (input : ApplyCodesInput)
    (now : String) : (s.step h (.apply input now)).db.CodesRecorded h.matterId
      ∧ (s.Coherent →
        ((s.step h (.apply input now)).Coherent ↔ (CodingCall.apply input now).Keeps h s.db)) := by
  cases hread : readApplyCodes h s.db input now with
  | error e =>
    have hfail : applyCodes h s.db input now = .error e := by
      unfold applyCodes
      rw [hread]
      rfl
    rw [step_apply_failed hfail]
    refine ⟨hrecorded, fun hcoherent => iff_of_true (coherent_failed hcoherent) fun c hc => ?_⟩
    rw [hread] at hc
    cases hc
  | ok c =>
    have hchecked := checked_of_read hread
    by_cases hprepare : (c.guards.prepare s.db c.targets c.actor c.expectedVersion c.now).isOk
    · obtain ⟨r, db', htxn, hclaims⟩ := c.txn_isOk hchecked.targets.1 hrecorded.claims hprepare
      obtain ⟨_, hdefs, hholds⟩ := c.holds_txn hchecked.targets.1 htxn
      rw [step_apply_ok hread htxn]
      refine ⟨?recorded, fun hcoherent => ⟨?coherent, ?keeps⟩⟩
      case recorded =>
        refine ⟨by rw [hdefs]; exact hrecorded.keyed, fun itemId codeId hheld => ?_, hclaims⟩
        rw [hdefs]
        rw [hholds] at hheld
        split at hheld
        · -- what a target holds it held or was given
          rcases ((hchecked.mem_chosen hrecorded).mp hheld).1 with ⟨hwas, _⟩ | ⟨a, ha, hid, _⟩
          · exact hrecorded.known itemId codeId hwas
          · exact ⟨a, (hchecked.addDefs.mem a ha).1, hid, (hchecked.addDefs.mem a ha).2⟩
        · exact hrecorded.known itemId codeId hheld
      case coherent =>
        intro hafter c' hc' _
        rw [hread] at hc'
        cases hc'
        exact noClash_of_coherent hchecked hrecorded hholds hdefs hafter.single (hafter.done _ rfl)
      case keeps =>
        intro hkeeps
        have hclash := hkeeps c hread hprepare
        refine ⟨single_of_noClash hchecked hrecorded hholds hdefs hcoherent.single hclash,
          fun coded hcoded => ?_⟩
        cases hcoded
        exact done_of_noClash hchecked hrecorded hholds hclash
    · have hfail : ∃ e, applyCodes h s.db input now = .error e := by
        unfold applyCodes CodesApply.txn
        rw [hread]
        cases hguard : c.guards.prepare s.db c.targets c.actor c.expectedVersion c.now with
        | error e => exact ⟨e, by simp only [bind, Except.bind, hguard]⟩
        | ok result =>
          rw [hguard] at hprepare
          exact absurd rfl hprepare
      obtain ⟨e, hfail⟩ := hfail
      rw [step_apply_failed hfail]
      refine ⟨hrecorded, fun hcoherent => iff_of_true (coherent_failed hcoherent) fun c' hc' hok => ?_⟩
      rw [hread] at hc'
      cases hc'
      exact absurd hok hprepare

end CodingHistory

def CodeDefInput.updated (input : CodeDefInput) (db : ReviewDb) (codeId : String)
    (cardinality : Cardinality) : ReviewDb :=
  { db with codeDefinitions := db.codeDefinitions.map fun code =>
      if code.id = codeId then input.write cardinality code else code }

theorem upsertCodeDefinition_of_updates {h : ReviewHandle} {codeId newId now : String}
    {cardinality : Cardinality} (hupdates : input.Updates h.matterId db codeId cardinality) :
    upsertCodeDefinition h db input newId now = .ok (codeId, input.updated db codeId cardinality) := by
  obtain ⟨code, hrow, hmatter⟩ := hupdates.existing
  unfold upsertCodeDefinition
  refine check_eq_ok.mpr ⟨hupdates.label,
    check_eq_ok.mpr ⟨hupdates.group, bind_eq_ok.mpr ⟨cardinality, hupdates.parsed, ?_⟩⟩⟩
  rw [hupdates.named]
  refine bind_eq_ok.mpr ⟨code, ?_, check_eq_ok.mpr ⟨not_not.mpr hmatter, rfl⟩⟩
  unfold ReviewDb.getCodeDefinition
  rw [hrow]

theorem upsertCodeDefinition_eq_ok {h : ReviewHandle} {db db' : ReviewDb}
    {codeId newId now : String} (hok : upsertCodeDefinition h db input newId now = .ok (codeId, db')) :
    (∃ cardinality, input.Updates h.matterId db codeId cardinality)
      ∨ input.id = none ∧ ∃ code, code.id ∉ db.codeDefinitions.map CodeDef.id
        ∧ db' = { db with codeDefinitions := db.codeDefinitions ++ [code] } := by
  unfold upsertCodeDefinition at hok
  obtain ⟨hlabel, hok⟩ := check_eq_ok.mp hok
  obtain ⟨hgroup, hok⟩ := check_eq_ok.mp hok
  obtain ⟨cardinality, hparsed, hok⟩ := bind_eq_ok.mp hok
  cases hid : input.id with
  | some id =>
    rw [hid] at hok
    obtain ⟨existing, hexisting, hok⟩ := bind_eq_ok.mp hok
    obtain ⟨hmatter, hok⟩ := check_eq_ok.mp hok
    cases hok
    unfold ReviewDb.getCodeDefinition at hexisting
    split at hexisting
    · rename_i hrow
      cases hexisting
      exact .inl ⟨cardinality, hid, hlabel, hgroup, hparsed, existing, hrow, not_not.mp hmatter⟩
    · cases hexisting
  | none =>
    rw [hid] at hok
    obtain ⟨_, hok⟩ := check_eq_ok.mp hok
    obtain ⟨_, hok⟩ := check_eq_ok.mp hok
    obtain ⟨hfresh, hok⟩ := check_eq_ok.mp hok
    cases hok
    exact .inr ⟨rfl, _, hfresh, rfl⟩

theorem singleChoice_updated (hsingle : SingleChoice db) {codeId : String}
    {cardinality : Cardinality} (hupdates : input.Updates matter db codeId cardinality) :
    SingleChoice (input.updated db codeId cardinality)
      ↔ NoRival db codeId (trim input.groupKey) cardinality := by
  obtain ⟨code, hrow, _⟩ := hupdates.existing
  have hkept : ∀ d ∈ db.codeDefinitions, d.id ≠ codeId →
      d ∈ (input.updated db codeId cardinality).codeDefinitions :=
    fun d hd hne => List.mem_map.mpr ⟨d, hd, if_neg hne⟩
  have hnew : input.write cardinality code ∈ (input.updated db codeId cardinality).codeDefinitions :=
    List.mem_map.mpr ⟨code, mem_of_rowAt hrow, if_pos (key_of_rowAt hrow)⟩
  have hid : code.id = codeId := key_of_rowAt hrow
  have hnewId : (input.write cardinality code).id = codeId := hid
  constructor
  · intro hafter itemId d hd hheld hheldD hgroup hone
    by_contra hne
    rcases hone with hnewSingle | hsingleD
    · exact hne (hnewId.symm.trans
        (hafter itemId _ hnew d (hkept d hd hne) (hnewId.symm ▸ hheld) hheldD hgroup.symm
        hnewSingle)).symm
    · exact hne ((hafter itemId d (hkept d hd hne) _ hnew hheldD (hnewId.symm ▸ hheld) hgroup
        hsingleD).trans hnewId)
  · intro hrival itemId a ha d hd hheldA hheldD hgroup hsingleA
    obtain ⟨oldA, hA, rfl⟩ := List.mem_map.mp ha
    obtain ⟨oldD, hD, rfl⟩ := List.mem_map.mp hd
    by_cases hidA : oldA.id = codeId
    · rw [if_pos hidA] at hheldA hgroup hsingleA ⊢
      by_cases hidD : oldD.id = codeId
      · rw [if_pos hidD]
        exact hidA.trans hidD.symm
      · rw [if_neg hidD] at hheldD hgroup ⊢
        have hheld : codeId ∈ db.holds itemId := hidA ▸ hheldA
        exact absurd (hrival itemId oldD hD hheld hheldD hgroup.symm (.inl hsingleA)) hidD
    · rw [if_neg hidA] at hheldA hgroup hsingleA ⊢
      by_cases hidD : oldD.id = codeId
      · rw [if_pos hidD] at hheldD hgroup ⊢
        have hheld : codeId ∈ db.holds itemId := hidD ▸ hheldD
        exact absurd (hrival itemId oldA hA hheld hheldA hgroup (.inr hsingleA)) hidA
      · rw [if_neg hidD] at hheldD hgroup ⊢
        exact hsingle itemId oldA hA oldD hD hheldA hheldD hgroup hsingleA

namespace CodingHistory

variable {h : ReviewHandle} {s : CodingHistory}

theorem step_define (hrecorded : s.db.CodesRecorded h.matterId) (input : CodeDefInput)
    (newId now : String) : (s.step h (.define input newId now)).db.CodesRecorded h.matterId
      ∧ (s.Coherent → ((s.step h (.define input newId now)).Coherent
        ↔ (CodingCall.define input newId now).Keeps h s.db)) := by
  cases hcall : upsertCodeDefinition h s.db input newId now with
  | error e =>
    simp only [step, hcall]
    refine ⟨hrecorded, fun hcoherent => iff_of_true (coherent_failed hcoherent)
      fun codeId cardinality hupdates => ?_⟩
    rw [upsertCodeDefinition_of_updates hupdates] at hcall
    cases hcall
  | ok result =>
    obtain ⟨codeId, db'⟩ := result
    simp only [step, hcall]
    rcases upsertCodeDefinition_eq_ok hcall with ⟨cardinality, hupdates⟩ | ⟨hnone, code, hfresh, rfl⟩
    · have hdb : input.updated s.db codeId cardinality = db' := by
        rw [upsertCodeDefinition_of_updates hupdates] at hcall
        cases hcall
        rfl
      subst hdb
      have hkeys : ∀ c : CodeDef, (if c.id = codeId then input.write cardinality c else c).id = c.id := by
        intro c
        split <;> rfl
      refine ⟨⟨?keyed, ?known, hrecorded.claims⟩, fun hcoherent => ⟨?_, ?_⟩⟩
      case keyed =>
        unfold CodeDefInput.updated
        rw [map_key_map hkeys]
        exact hrecorded.keyed
      case known =>
        intro itemId id hheld
        obtain ⟨c, hc, hid, hmatter⟩ := hrecorded.known itemId id hheld
        refine ⟨_, mem_map_of_mem hc, (hkeys c).trans hid, ?_⟩
        split <;> exact hmatter
      · intro hafter id card hother
        -- an input names one definition and one cardinality
        obtain rfl : codeId = id := Option.some.inj (hupdates.named.symm.trans hother.named)
        obtain rfl : cardinality = card := Except.ok.inj (hupdates.parsed.symm.trans hother.parsed)
        exact (singleChoice_updated hcoherent.single hupdates).mp hafter.single
      · intro hkeeps
        exact ⟨(singleChoice_updated hcoherent.single hupdates).mpr
          (hkeeps codeId cardinality hupdates), nofun⟩
    · have hnew : ∀ itemId, code.id ∉ s.db.holds itemId := by
        intro itemId hheld
        obtain ⟨c, hc, hid, _⟩ := hrecorded.known itemId code.id hheld
        exact hfresh (List.mem_map.mpr ⟨c, hc, hid⟩)
      refine ⟨⟨?keyed, ?known, hrecorded.claims⟩, fun hcoherent => iff_of_true ⟨?single, nofun⟩ ?keeps⟩
      case keyed =>
        rw [map_append]
        exact hrecorded.keyed.append (nodup_singleton _) (List.disjoint_singleton.mpr hfresh)
      case known =>
        intro itemId id hheld
        obtain ⟨c, hc, hid, hmatter⟩ := hrecorded.known itemId id hheld
        exact ⟨c, mem_append_left _ hc, hid, hmatter⟩
      case single =>
        -- nothing holds the new code
        intro itemId a ha d hd hheldA hheldD
        rcases List.mem_append.mp ha with ha | ha
        · rcases List.mem_append.mp hd with hd | hd
          · exact hcoherent.single itemId a ha d hd hheldA hheldD
          · rw [List.mem_singleton.mp hd] at hheldD
            exact absurd hheldD (hnew itemId)
        · rw [List.mem_singleton.mp ha] at hheldA
          exact absurd hheldA (hnew itemId)
      case keeps =>
        intro id cardinality hupdates
        have hnamed := hupdates.named
        rw [hnone] at hnamed
        cases hnamed

/-! ## Runs of calls -/

theorem codesRecorded_step (hrecorded : s.db.CodesRecorded h.matterId) (call : CodingCall) :
    (s.step h call).db.CodesRecorded h.matterId := by
  cases call with
  | define input newId now => exact (step_define hrecorded input newId now).1
  | apply input now => exact (step_apply hrecorded input now).1

theorem coherent_step_iff (hrecorded : s.db.CodesRecorded h.matterId) (hcoherent : s.Coherent)
    (call : CodingCall) :
    (s.step h call).Coherent ↔ call.Keeps h s.db := by
  cases call with
  | define input newId now => exact (step_define hrecorded input newId now).2 hcoherent
  | apply input now => exact (step_apply hrecorded input now).2 hcoherent

/-- **Single choice.** Over any calls, the choice of every group stays single and every application
does what it was asked for iff no call lets a multi code meet a single one of its group. -/
theorem singleChoice_iff_guarded (h : ReviewHandle) (s : CodingHistory)
    (hrecorded : s.db.CodesRecorded h.matterId) (hcoherent : s.Coherent) (calls : List CodingCall) :
    Along (step h) Coherent s calls ↔ Guarded (step h) (fun s call => call.Keeps h s.db) s calls :=
  along_iff_guarded (J := fun s : CodingHistory => s.db.CodesRecorded h.matterId)
    (fun _ call hrecorded => codesRecorded_step hrecorded call)
    (fun _ call hrecorded hcoherent => coherent_step_iff hrecorded hcoherent call) hrecorded hcoherent calls

def uncoded : CodingHistory := { db := { items := [{ id := "d1", matterId := "m1" }] } }

def responsive : CodeDefInput :=
  { key := some "responsive", label := "Responsive", groupKey := "responsiveness", cardinality := "single" }

def responsiveInPart : CodeDefInput :=
  { key := some "responsive_in_part", label := "Responsive in part", groupKey := "responsiveness",
    cardinality := "multi" }

def codeDocument (codeId : String) : CodingCall :=
  .apply { itemIds := ["d1"], addCodeIds := [codeId], removeCodeIds := [] } "2026-01-05T09:00:00+00:00"

/-- A second single code of the group. -/
def notResponsive : CodeDefInput :=
  { key := some "not_responsive", label := "Not responsive", groupKey := "responsiveness",
    cardinality := "single" }

theorem keeps_codeDocument {h : ReviewHandle} {db : ReviewDb} {id : String}
    (hadds : (readApplyCodes h db { itemIds := ["d1"], addCodeIds := [id], removeCodeIds := [] }
      "2026-01-05T09:00:00+00:00").map (fun c => c.addDefs.map fun code => (code.id, code.cardinality))
        = .ok [(id, .single)]) : (codeDocument id).Keeps h db := by
  intro c hread _
  rw [hread] at hadds
  have hone : c.addDefs.map (fun code => (code.id, code.cardinality)) = [(id, .single)] := Except.ok.inj hadds
  have hall : ∀ a ∈ c.addDefs, a.id = id ∧ a.cardinality = .single := by
    intro a ha
    have hmem : (a.id, a.cardinality) ∈ [(id, Cardinality.single)] :=
      hone ▸ mem_map_of_mem (f := fun code : CodeDef => (code.id, code.cardinality)) ha
    exact Prod.mk.inj (List.mem_singleton.mp hmem)
  refine ⟨fun a ha s hs _ _ _ hne => ?_, fun _ _ a ha _ hmulti => ?_⟩
  · exact absurd ((hall s hs).1.trans (hall a ha).1.symm) hne
  · rw [(hall a ha).2] at hmulti
    cases hmulti

def recodings : List CodingCall := [.define responsive "c1" "2026-01-05T08:00:00+00:00",
  .define notResponsive "c2" "2026-01-05T08:01:00+00:00", codeDocument "c1", codeDocument "c2"]

/-- The second code displaces the first. -/
theorem singleChoice_iff_guarded_responsive : Along (step ⟨"m1", false⟩) Coherent uncoded recodings ∧
    (recodings.foldl (step ⟨"m1", false⟩) uncoded).db.itemCodes.map (fun row => (row.itemId, row.codeId))
      = [("d1", "c2")] := by
  have hrecorded : uncoded.db.CodesRecorded "m1" := by
    refine ⟨nodup_nil, fun itemId codeId hheld => ?_, fun claim hclaim => absurd hclaim not_mem_nil⟩
    obtain ⟨row, hrow, _⟩ := hheld
    cases hrow
  have hcoherent : uncoded.Coherent := ⟨fun _ _ hc => (not_mem_nil hc).elim, nofun⟩
  refine ⟨(singleChoice_iff_guarded ⟨"m1", false⟩ uncoded hrecorded hcoherent _).mpr
    ⟨fun _ _ hupdates => ?_, fun _ _ hupdates => ?_, keeps_codeDocument ?_, keeps_codeDocument ?_, trivial⟩, ?_⟩
  · cases hupdates.named
  · cases hupdates.named
  · decide +kernel
  · decide +kernel
  · decide +kernel

theorem singleChoice_broken_by_multi : ¬ SingleChoice ([.define responsive "c1" "2026-01-05T08:00:00+00:00",
    .define responsiveInPart "c2" "2026-01-05T08:01:00+00:00", codeDocument "c1", codeDocument "c2"].foldl
      (step ⟨"m1", false⟩) uncoded).db := by
  generalize hlast : ([.define responsive "c1" "2026-01-05T08:00:00+00:00",
    .define responsiveInPart "c2" "2026-01-05T08:01:00+00:00", codeDocument "c1", codeDocument "c2"].foldl
      (step ⟨"m1", false⟩) uncoded).db = db
  intro hsingle
  have hdefs : db.codeDefinitions = [
      { id := "c1", matterId := "m1", key := "responsive", label := "Responsive", groupKey := "responsiveness"
        cardinality := .single, createdAt := "2026-01-05T08:00:00+00:00" },
      { id := "c2", matterId := "m1", key := "responsive_in_part", label := "Responsive in part"
        groupKey := "responsiveness", cardinality := .multi, createdAt := "2026-01-05T08:01:00+00:00" }] := by
    rw [← hlast]
    decide +kernel
  have hheld : db.itemCodes.map (fun row => (row.itemId, row.codeId)) = [("d1", "c1"), ("d1", "c2")] := by
    rw [← hlast]
    decide +kernel
  have hholds : ∀ codeId, ("d1", codeId) ∈ db.itemCodes.map (fun row => (row.itemId, row.codeId)) →
      codeId ∈ db.holds "d1" := by
    intro codeId hmem
    obtain ⟨row, hrow, heq⟩ := List.mem_map.mp hmem
    exact ⟨row, hrow, (Prod.mk.inj heq).1, (Prod.mk.inj heq).2⟩
  rw [hheld] at hholds
  unfold SingleChoice at hsingle
  rw [hdefs] at hsingle
  have hsame := hsingle "d1" _ mem_cons_self _ (mem_cons_of_mem _ mem_cons_self)
    (hholds "c1" mem_cons_self) (hholds "c2" (mem_cons_of_mem _ mem_cons_self)) rfl rfl
  exact absurd hsame (by decide)

end CodingHistory

end MatterCore
