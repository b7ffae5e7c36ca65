import PstDedupe.DedupEngine.SettledGroups
import PstDedupe.DedupEngine.GroupOutcome

/-!
# Do higher identity levels only subdivide?

A strong level replaces the Tier-2 key by a finer one. The keys subdivide; the groups need not.
-/

namespace DedupEngine

open List

open Rust (Bytes32 RandomState)
open Foundations (ScanPartition)

/-- The same options at identity level `Off`. -/
def GroupingContext.atV1 (ctx : GroupingContext) : GroupingContext := { ctx with identity := .off }

/-- Messages with one strong hash have one v1 hash. -/
def StrongRefinesV1 (ctx : GroupingContext) (items : List RecoverableScanItem) : Prop :=
  ∀ a ∈ items, ∀ b ∈ items,
    a.tier2BindHash ctx.identity = b.tier2BindHash ctx.identity → a.contentHash = b.contentHash

/-- Every group of the first list lies in one group of the second. -/
def Subdivides (fine coarse : List (List Nat)) : Prop := ∀ g ∈ fine, ∃ g' ∈ coarse, g ⊆ g'

variable [Rust.Target]

/-- What message `f` takes along when it leads its strong key and not its v1 key, in terms of what
it finds later: blocked joins let it take the messages without Message-ID that have its strong hash;
allowed joins let it take the messages with its own Message-ID that content would put elsewhere. -/
def TakesNothing (ctx : GroupingContext) (items : List RecoverableScanItem) (f : Nat) : Prop :=
  (ctx.blockCrossMid = true → ∀ x < items.length, Candidate ctx items x →
    (itemAt items x).mid = none → tier2KeyAt ctx items x ≠ tier2KeyAt ctx items f) ∧
  (ctx.blockCrossMid = false → ∀ i < items.length, f < i → MidLink ctx (itemAt items f) (itemAt items i) →
      Bindable ctx items i ∧ tier2KeyAt ctx.atV1 items i = tier2KeyAt ctx.atV1 items f)

variable {ctx : GroupingContext} {items : List RecoverableScanItem} {i j a b f r : Nat}

omit [Rust.Target] in
@[simp] theorem blockCrossMid_atV1 : ctx.atV1.blockCrossMid = ctx.blockCrossMid := rfl

@[simp] theorem midLink_atV1 {x y : RecoverableScanItem} : MidLink ctx.atV1 x y ↔ MidLink ctx x y := Iff.rfl

omit [Rust.Target] in
theorem lt_length_of_mid (h : (itemAt items i).mid ≠ none) : i < items.length := by
  by_contra hlt
  apply h
  unfold itemAt
  rw [getD_eq_getElem?_getD, getElem?_eq_none (by omega)]
  rfl

omit [Rust.Target] in
theorem itemAt_mem (h : i < items.length) : itemAt items i ∈ items := by
  rw [itemAt_eq (getElem?_eq_getElem h)]
  exact getElem_mem h

theorem tier2KeyAt_atV1 (hp : StrongRefinesV1 ctx items) (hi : i < items.length)
    (hj : j < items.length) (h : tier2KeyAt ctx items i = tier2KeyAt ctx items j) :
    tier2KeyAt ctx.atV1 items i = tier2KeyAt ctx.atV1 items j := by
  obtain ⟨hscope, hhash⟩ := hashKey_inj h
  have hv1 := hp _ (itemAt_mem hi) _ (itemAt_mem hj) hhash
  have hscopes := scopePrefix_eq_iff.mpr hscope
  show Rust.bytes (scopePrefix ctx _) ++ (itemAt items i).contentHash.1
    = Rust.bytes (scopePrefix ctx _) ++ (itemAt items j).contentHash.1
  rw [hscopes, hv1]

omit [Rust.Target] in
theorem MidCandidate.lt_length [Rust.Target] (h : MidCandidate ctx items i) : i < items.length :=
  lt_length_of_mid h.2

theorem fresh_atV1 (hp : StrongRefinesV1 ctx items) (h : Fresh ctx items i) : Fresh ctx.atV1 items i := by
  induction i using Nat.strongRecOn with
  | _ i ih =>
    rw [fresh_iff]
    intro r hr hhold hlink
    rw [midLink_atV1] at hlink
    have hfr : Fresh ctx items r := by
      rw [fresh_iff]
      intro q hq hqhold hqlink
      exact fresh_iff.mp h q (by omega) hqhold (hqlink.trans hlink)
    obtain ⟨hcand, hblock, hlead⟩ := not_holder hfr fun hh => fresh_iff.mp h r hr hh hlink
    obtain ⟨l, hle, hl, hkey⟩ := exists_leader hcand
    have hlt : l < r := Nat.lt_of_le_of_ne hle (by rintro rfl; exact hlead hl)
    have hfl := ih l (by omega) hl.1.1.1
    rcases hhold.2 ⟨⟨hhold.1, hcand.1.2⟩, hcand.2⟩ with hb | hleadr
    · rw [blockCrossMid_atV1, hblock] at hb; cases hb
    · exact hleadr.2 l hlt ⟨⟨hfl, hl.1.1.2⟩, hl.1.2⟩
        (tier2KeyAt_atV1 hp hl.1.lt_length hcand.lt_length hkey)

theorem candidate_atV1 (hp : StrongRefinesV1 ctx items) (h : Candidate ctx items i) :
    Candidate ctx.atV1 items i :=
  ⟨fresh_atV1 hp h.1, h.2⟩

theorem midCandidate_atV1 (hp : StrongRefinesV1 ctx items) (h : MidCandidate ctx items i) :
    MidCandidate ctx.atV1 items i :=
  ⟨candidate_atV1 hp h.1, h.2⟩

theorem fresh_atV1_of_takesNothing (hblock : ctx.blockCrossMid = false)
    (htakes : TakesNothing ctx items f) (hf : MidCandidate ctx.atV1 items f)
    (hi : i < items.length) (hlink : MidLink ctx (itemAt items f) (itemAt items i))
    (hlead : ¬ Leader ctx.atV1 items f) : Fresh ctx.atV1 items i := by
  rw [fresh_iff]
  intro r hr hhold hrlink
  rw [midLink_atV1] at hrlink
  have hfr := hlink.trans hrlink.symm
  rcases Nat.lt_trichotomy r f with hrf | rfl | hrf
  · exact fresh_iff.mp hf.1.1 r hrf hhold hfr.symm
  · rcases hhold.2 hf with hb | hl
    · rw [blockCrossMid_atV1, hblock] at hb; cases hb
    · exact hlead hl
  · obtain ⟨hbind, hkey⟩ := htakes.2 hblock r (by omega) hrf hfr
    rcases hhold.2 ⟨⟨hhold.1, hbind⟩, hrlink.mid_ne_none⟩ with hb | hl
    · rw [blockCrossMid_atV1, hblock] at hb; cases hb
    · exact hl.2 f hrf hf hkey.symm

theorem core_together_atV1 (hp : StrongRefinesV1 ctx items)
    (h : ∀ f, Leader ctx items f → ¬ Leader ctx.atV1 items f → TakesNothing ctx items f)
    (hai : a < items.length) (hbi : b < items.length) (ha : Core ctx items a) (hb : Core ctx items b)
    (hkey : tier2KeyAt ctx items a = tier2KeyAt ctx items b) : Together ctx.atV1 items a b := by
  have hkey' := tier2KeyAt_atV1 hp hai hbi hkey
  have hca := candidate_atV1 hp ha.1
  have hcb := candidate_atV1 hp hb.1
  cases hblock : ctx.blockCrossMid with
  | false =>
    have hcore : ∀ {c}, Candidate ctx.atV1 items c → Core ctx.atV1 items c := fun hc =>
      ⟨hc, Or.inl hblock⟩
    exact (hcore hca).together (hcore hcb) hkey'
  | true =>
    have hcases : ∀ {c d}, c < items.length → d < items.length → Core ctx items c →
        Core ctx items d → tier2KeyAt ctx items c = tier2KeyAt ctx items d → Core ctx.atV1 items c ∨
          c = d := by
      intro c d hci hdi hc hd hcd
      have hcc := candidate_atV1 hp hc.1
      rcases hc.2 with hb | hm | hlc
      · rw [hblock] at hb; cases hb
      · exact Or.inl ⟨hcc, Or.inr (Or.inl hm)⟩
      · by_cases hlc' : Leader ctx.atV1 items c
        · exact Or.inl hlc'.core
        · -- a leader of the strong key alone has no company but itself
          rcases hd.2 with hb | hm | hld
          · rw [hblock] at hb; cases hb
          · exact absurd hcd.symm ((h c hlc hlc').1 hblock d hdi hd.1 hm)
          · exact Or.inr (hlc.unique hld hcd)
    rcases hcases hai hbi ha hb hkey with hca' | rfl
    · rcases hcases hbi hai hb ha hkey.symm with hcb' | rfl
      · exact hca'.together hcb' hkey'
      · exact .refl _
    · exact .refl _

theorem anchor_together_atV1 (hp : StrongRefinesV1 ctx items)
    (h : ∀ f, Leader ctx items f → ¬ Leader ctx.atV1 items f → TakesNothing ctx items f)
    (hi : i < items.length) (ha : Anchor ctx items i a) : Together ctx.atV1 items i a := by
  have hfa := fresh_atV1 hp ha.1
  rcases ha.2 with rfl | ⟨hlt, hhold, hlink⟩
  · exact .refl _
  · by_cases hhold' : Holder ctx.atV1 items a
    · exact Anchor.together ⟨hfa, Or.inr ⟨hlt, hhold', hlink⟩⟩
    · -- the v1 run absorbed the anchor: the item goes to the same group by content
      obtain ⟨hcand, hblock, hlead⟩ := not_holder hfa hhold'
      rw [blockCrossMid_atV1] at hblock
      have hleada : Leader ctx items a := by
        rcases hhold.2 ⟨⟨ha.1, hcand.1.2⟩, hcand.2⟩ with hb | hl
        · rw [hblock] at hb; cases hb
        · exact hl
      have htakes := h a hleada hlead
      obtain ⟨hbind, hkey⟩ := htakes.2 hblock i hi hlt hlink
      have hfi := fresh_atV1_of_takesNothing hblock htakes hcand hi hlink hlead
      have hcorei : Core ctx.atV1 items i := ⟨⟨hfi, hbind⟩, Or.inl hblock⟩
      have hcorea : Core ctx.atV1 items a := ⟨hcand.1, Or.inl hblock⟩
      exact hcorei.together hcorea hkey

theorem together_atV1 (hp : StrongRefinesV1 ctx items)
    (h : ∀ f, Leader ctx items f → ¬ Leader ctx.atV1 items f → TakesNothing ctx items f)
    (hi : i < items.length) (hj : j < items.length) (hij : Together ctx items i j) :
    Together ctx.atV1 items i j := by
  obtain ⟨a, b, ha, hb, hab⟩ := hij
  have hia := anchor_together_atV1 hp h hi ha
  have hjb := anchor_together_atV1 hp h hj hb
  rcases hab with rfl | ⟨hca, hcb, hkey⟩
  · exact hia.trans hjb.symm
  · have hmid := core_together_atV1 hp h (Nat.lt_of_le_of_lt ha.le hi) (Nat.lt_of_le_of_lt hb.le hj)
      hca hcb hkey
    exact (hia.trans hmid).trans hjb.symm

theorem takesNothing_of_together (hp : StrongRefinesV1 ctx items)
    (h : ∀ i j, i < items.length → j < items.length → Together ctx items i j → Together ctx.atV1 items i j)
    (hf : Leader ctx items f) (hf' : ¬ Leader ctx.atV1 items f) : TakesNothing ctx items f := by
  have hflt := hf.1.lt_length
  have hcand := midCandidate_atV1 hp hf.1
  constructor
  · intro hblock x hx hcx hmx hkey
    have hcorex : Core ctx items x := ⟨hcx, Or.inr (Or.inl hmx)⟩
    obtain ⟨a, b, ha, hb, hab⟩ := h x f hx hflt (hcorex.together hf.core hkey)
    obtain rfl := ha.of_fresh (fresh_atV1 hp hcx.1)
    obtain rfl := hb.of_fresh hcand.1.1
    rcases hab with rfl | ⟨_, hcoref, _⟩
    · exact hf.1.2 hmx
    · -- in the v1 run the message is not core
      rcases hcoref.2 with hb | hm | hl
      · rw [blockCrossMid_atV1, hblock] at hb; cases hb
      · exact hf.1.2 hm
      · exact hf' hl
  · intro hblock i hi hlt hlink
    have hnot : ¬ Holder ctx.atV1 items f := by
      intro hhold
      rcases hhold.2 hcand with hb | hl
      · rw [blockCrossMid_atV1, hblock] at hb; cases hb
      · exact hf' hl
    have hanchor : Anchor ctx items i f := ⟨hf.1.1.1, Or.inr ⟨hlt, hf.holder, hlink⟩⟩
    obtain ⟨b, f', hb, hf'', hab⟩ := h i f hi hflt hanchor.together
    obtain rfl := hf''.of_fresh hcand.1.1
    have hcases : b = i ∨ (b < i ∧ Holder ctx.atV1 items b ∧
        MidLink ctx (itemAt items b) (itemAt items i)) := hb.2
    rcases hab with rfl | ⟨hcoreb, _, hkey⟩
    · rcases hcases with rfl | ⟨_, hhold, _⟩
      · exact absurd hlt (Nat.lt_irrefl _)
      · exact absurd hhold hnot
    · rcases hcases with rfl | ⟨_, hhold, hblink⟩
      · exact ⟨hcoreb.1.2, hkey⟩
      · -- no other holder of the Message-ID has the v1 key of the absorbed message
        exfalso
        have hbf := hblink.trans hlink.symm
        rcases Nat.lt_trichotomy b f' with hlt' | rfl | hlt'
        · exact fresh_iff.mp hcand.1.1 b hlt' hhold hbf
        · exact hnot hhold
        · rcases hhold.2 ⟨hcoreb.1, hbf.mid_ne_none⟩ with hb | hl
          · rw [blockCrossMid_atV1, hblock] at hb; cases hb
          · exact hl.2 f' hlt' hcand hkey.symm

variable [RandomState]

theorem groups_of_backfill_off (hback : ctx.tier1Backfill = false) :
    (groupCandidatesWithStats ctx items).groups = (groupLoop ctx items).buckets := by
  rcases outcome_cases ctx items with ⟨hg, _⟩ | ⟨hon, _⟩
  · exact hg
  · rw [hback] at hon; cases hon

/-- **When a strong level subdivides the v1 groups**: iff no message that is the first with a
Message-ID under its strong hash, but not under its v1 hash, takes anything along. -/
theorem subdivides_iff_takesNothing (hverify : ctx.tier1Verify = .off)
    (hback : ctx.tier1Backfill = false) (hp : StrongRefinesV1 ctx items) :
    Subdivides (groupCandidatesWithStats ctx items).groups
        (groupCandidatesWithStats ctx.atV1 items).groups ↔
      ∀ f, Leader ctx items f → ¬ Leader ctx.atV1 items f → TakesNothing ctx items f := by
  have hfine := (shape_groupLoop ctx items).partition
  have hcoarse := (shape_groupLoop ctx.atV1 items).partition
  have hshare : ∀ {ctx : GroupingContext} {i j : Nat}, (∃ g ∈ (groupLoop ctx items).buckets,
      i ∈ g ∧ j ∈ g) → i < items.length ∧ j < items.length := by
    rintro ctx i j ⟨g, hg, hi, hj⟩
    have hpart := (shape_groupLoop ctx items).partition
    exact ⟨hpart.lt_of_mem hg hi, hpart.lt_of_mem hg hj⟩
  unfold Subdivides
  rw [groups_of_backfill_off hback, groups_of_backfill_off (show ctx.atV1.tier1Backfill = false from hback),
    hfine.subdivides_iff hcoarse]
  constructor
  · intro h f
    apply takesNothing_of_together hp
    intro i j hi hj hij
    apply (@classes_groupLoop _ ctx.atV1 _ hverify _ _ hi hj).mp
    exact h i j ((classes_groupLoop hverify hi hj).mpr hij)
  · intro h i j hij
    obtain ⟨hi, hj⟩ := hshare hij
    apply (@classes_groupLoop _ ctx.atV1 _ hverify _ _ hi hj).mpr
    exact together_atV1 hp h hi hj ((classes_groupLoop hverify hi hj).mp hij)

def hashedItem (mid : Option String) (hash strong : UInt8) : RecoverableScanItem :=
  { sampleItem "mail.pst" mid hash with strongContentHash := some (Bytes32.fill strong) }

omit [Rust.Target] [RandomState] in
theorem subdivides_iff_takesNothing_split :
    let ctx : GroupingContext := { identity := .body }
    let items := [hashedItem none 1 1, hashedItem (some "m") 1 2, hashedItem none 1 1]
    Subdivides (@groupCandidatesWithStats .unix .inOrder ctx items).groups
        (@groupCandidatesWithStats .unix .inOrder ctx.atV1 items).groups ∧
      ∀ f, @Leader .unix ctx items f → ¬ @Leader .unix ctx.atV1 items f → @TakesNothing .unix ctx items f := by
  intro ctx items
  have hp : StrongRefinesV1 ctx items := by
    unfold StrongRefinesV1
    decide +kernel
  have hfine : (@groupCandidatesWithStats .unix .inOrder ctx items).groups = [[0, 2], [1]] := by decide +kernel
  have hcoarse : (@groupCandidatesWithStats .unix .inOrder ctx.atV1 items).groups
      = [[0, 1, 2]] := by decide +kernel
  have hdivides : Subdivides (@groupCandidatesWithStats .unix .inOrder ctx items).groups
      (@groupCandidatesWithStats .unix .inOrder ctx.atV1 items).groups := by
    rw [hfine, hcoarse]
    unfold Subdivides
    decide
  exact ⟨hdivides, (@subdivides_iff_takesNothing .unix ctx items .inOrder rfl rfl hp).mp hdivides⟩

omit [Rust.Target] [RandomState] in
/-- One v1 hash three times: no Message-ID, `m1`, `m2`. The v1 run gives the first one's slot to
`m1`, and `m2` stays alone. The strong hash of the first is that of `m2`: the strong run puts those
two together, which the v1 run kept apart. -/
theorem strong_level_regroups :
    let ctx : GroupingContext := { identity := .body }
    let items := [hashedItem none 1 1, hashedItem (some "m1") 1 2, hashedItem (some "m2") 1 1]
    ctx.identity.isStrong = true ∧ ctx.tier1Verify = .off ∧ ctx.tier1Backfill = false ∧
      StrongRefinesV1 ctx items ∧ (@groupCandidatesWithStats .unix .inOrder ctx items).groups = [[0, 2], [1]] ∧
      (@groupCandidatesWithStats .unix .inOrder ctx.atV1 items).groups = [[0, 1], [2]] ∧
      ¬ Subdivides (@groupCandidatesWithStats .unix .inOrder ctx items).groups
          (@groupCandidatesWithStats .unix .inOrder ctx.atV1 items).groups := by
  intro ctx items
  have hfine : (@groupCandidatesWithStats .unix .inOrder ctx items).groups = [[0, 2], [1]] := by
    decide +kernel
  have hcoarse : (@groupCandidatesWithStats .unix .inOrder ctx.atV1 items).groups
      = [[0, 1], [2]] := by
    decide +kernel
  refine ⟨rfl, rfl, rfl, ?_, hfine, hcoarse, ?_⟩
  · unfold StrongRefinesV1
    decide +kernel
  · rw [hfine, hcoarse]
    unfold Subdivides
    decide +kernel

end DedupEngine
