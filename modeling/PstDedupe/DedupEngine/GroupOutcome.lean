import PstDedupe.DedupEngine.BackfillRebuild

/-!
# What `groupCandidatesWithStats` returns

The loop's invariants carried through the backfill pass.
-/

namespace DedupEngine

open List Option

open Rust (Bytes32 HashMap RandomState)
open Foundations (ScanPartition UnionFind)

variable [Rust.Target] [RandomState] {ctx : GroupingContext} {items : List RecoverableScanItem} {i j : Nat}

omit [Rust.Target] [RandomState] in
theorem GroupingState.map_members_boundGroups (st : GroupingState) :
    st.boundGroups.map BoundGroup.members = st.buckets := by
  unfold GroupingState.boundGroups GroupingState.buckets
  rw [List.map_map]
  rfl

abbrev loopGroups (ctx : GroupingContext) (items : List RecoverableScanItem) : List BoundGroup :=
  (groupLoop ctx items).boundGroups

abbrev loopForest (ctx : GroupingContext) (items : List RecoverableScanItem) : UnionFind Nat :=
  backfillForest ctx items (loopGroups ctx items)

omit [RandomState] in
theorem getElem?_loopGroups (ctx : GroupingContext) (items : List RecoverableScanItem) (x : Nat) :
    (loopGroups ctx items)[x]? = ((groupLoop ctx items).groups[x]?).map fun g => ⟨g.members, g.boundMid⟩ :=
  getElem?_map ..

omit [RandomState] in
theorem loopGroups_partition (ctx : GroupingContext) (items : List RecoverableScanItem) :
    ScanPartition ((loopGroups ctx items).map BoundGroup.members) items.length := by
  rw [GroupingState.map_members_boundGroups]
  exact (shape_groupLoop ctx items).partition

omit [RandomState] in
theorem loopGroups_nonempty (ctx : GroupingContext) (items : List RecoverableScanItem) :
    ∀ g ∈ loopGroups ctx items, g.members ≠ [] := fun _ hg =>
  (loopGroups_partition ctx items).nonempty _ (List.mem_map_of_mem hg)

theorem outcome_cases (ctx : GroupingContext) (items : List RecoverableScanItem) :
    ((groupCandidatesWithStats ctx items).groups = (groupLoop ctx items).buckets ∧
        (groupCandidatesWithStats ctx items).boundBy = (groupLoop ctx items).boundBy ∧
        (ctx.tier1Backfill = false ∨ items = [] ∨ (loopForest ctx items).links = 0)) ∨
      (ctx.tier1Backfill = true ∧ (groupCandidatesWithStats ctx items).groups =
          (rebuildGroups (loopGroups ctx items) (loopForest ctx items).root).map
            BoundGroup.members ∧ (groupCandidatesWithStats ctx items).boundBy =
          reclassify ctx items (rebuildGroups (loopGroups ctx items) (loopForest ctx items).root)
            (groupLoop ctx items).boundBy) := by
  simp only [groupCandidatesWithStats, applyTier1BackfillPass]
  split
  · rename_i hempty
    refine Or.inl ⟨GroupingState.map_members_boundGroups _, rfl, Or.inr (Or.inl ?_)⟩
    rw [Bool.or_eq_true, List.isEmpty_iff, List.isEmpty_iff] at hempty
    rcases hempty with hnil | hnil
    · -- no group means no item
      have hcover := (loopGroups_partition ctx items).cover.length_eq
      rw [show loopGroups ctx items = [] from hnil] at hcover
      simpa using hcover.symm
    · exact hnil
  · split
    · rename_i hskip
      rw [Bool.or_eq_true, Bool.not_eq_true', beq_iff_eq] at hskip
      refine Or.inl ⟨GroupingState.map_members_boundGroups _, rfl, ?_⟩
      exact hskip.imp_right Or.inr
    · rename_i hrun
      rw [Bool.or_eq_true, not_or, Bool.not_eq_true', Bool.not_eq_false] at hrun
      exact Or.inr ⟨hrun.1, rfl, rfl⟩

theorem groupCandidates_partition (ctx : GroupingContext) (items : List RecoverableScanItem) :
    ScanPartition (groupCandidatesWithStats ctx items).groups items.length := by
  rcases outcome_cases ctx items with ⟨hg, _, _⟩ | ⟨_, hg, _⟩
  · rw [hg]
    exact (shape_groupLoop ctx items).partition
  · rw [hg]
    exact rebuildGroups_partition _ (loopGroups_partition ctx items)

theorem groupCandidates_seedTags (ctx : GroupingContext) (items : List RecoverableScanItem) :
    (groupCandidatesWithStats ctx items).boundBy.length = items.length ∧
      SeedTags (groupCandidatesWithStats ctx items).boundBy
        (groupCandidatesWithStats ctx items).groups := by
  have hshape := shape_groupLoop ctx items
  rcases outcome_cases ctx items with ⟨hg, hb, _⟩ | ⟨_, hg, hb⟩
  · rw [hg, hb]
    exact ⟨hshape.boundByLength, hshape.seedTags⟩
  · rw [hg, hb]
    exact reclassify_seedTags ctx items (rebuildGroups_partition _ (loopGroups_partition ctx items))
      hshape.boundByLength

/-- What may put two items into one group: a bind link, or the backfill pass on one v1 hash of one
partition. -/
def GroupLink (ctx : GroupingContext) (a b : RecoverableScanItem) : Prop :=
  BindLink ctx a b ∨ (ctx.tier1Backfill = true ∧ a.backfillKey ctx = b.backfillKey ctx)

omit [RandomState] in
theorem loopGroups_linked {g : BoundGroup} (hg : g ∈ loopGroups ctx items) {g' : List Nat}
    (hsub : g.members ⊆ g') (hi : i ∈ g.members) (hj : j ∈ g.members) :
    Relation.EqvGen (LinkedIn items g' (GroupLink ctx)) i j := by
  obtain ⟨g₀, hg₀, rfl⟩ := List.mem_map.mp hg
  have hlinked := (grounded_groupLoop ctx items).linked g₀ hg₀ i hi j hj
  refine Relation.EqvGen.eqvGen_le (fun x y hxy => .rel _ _ ?_) i j hlinked
  obtain ⟨hx, hy, a, b, ha, hb, hab⟩ := hxy
  exact ⟨hsub hx, hsub hy, a, b, ha, hb, Or.inl hab⟩

theorem rebuilt_linked (hon : ctx.tier1Backfill = true) {b : BoundGroup}
    (hb : b ∈ rebuildGroups (loopGroups ctx items) (loopForest ctx items).root)
    (hi : i ∈ b.members) (hj : j ∈ b.members) :
    Relation.EqvGen (LinkedIn items b.members (GroupLink ctx)) i j := by
  have hne := loopGroups_nonempty ctx items
  have hpart := rebuildGroups_partition (loopForest ctx items).root
    (loopGroups_partition ctx items)
  have hsame : ∀ c d, (loopForest ctx items).Same c d ↔
      Relation.EqvGen (Mergeable ctx items (loopGroups ctx items)) c d :=
    same_backfillForest (loopGroups_partition ctx items)
  obtain ⟨x, y, hix, hjy, hroot⟩ := mem_rebuildGroups hne hb hi hj
  have hinto : ∀ c k, Holds (loopGroups ctx items) c k →
      (loopForest ctx items).root c = (loopForest ctx items).root x → k ∈ b.members := by
    intro c k hk hc
    obtain ⟨b', hb', hkb', hib'⟩ := exists_mem_rebuildGroups hne hk hix hc
    have heq := hpart.eq_of_mem (List.mem_map_of_mem hb') (List.mem_map_of_mem hb) hib' hi
    rwa [← heq]
  have hchain := Foundations.eqvGen_restrict
    (fun c d hcd => (hsame c d).mpr (.rel _ _ hcd)) ((hsame x y).mp hroot) rfl
  refine Foundations.eqvGen_members (fun c k => Holds (loopGroups ctx items) c k ∧
    (loopForest ctx items).root c = (loopForest ctx items).root x) ?_ ?_ hchain ⟨hix, rfl⟩
    ⟨hjy, hroot.symm⟩
  · rintro c k l ⟨⟨g, hg, hk⟩, hc⟩ ⟨⟨g', hg', hl⟩, _⟩
    obtain rfl : g = g' := Option.some.inj (hg.symm.trans hg')
    exact loopGroups_linked (mem_of_getElem? hg) (fun m hm => hinto c m ⟨g, hg, hm⟩ hc) hk hl
  · rintro c d ⟨⟨⟨k, l, hk, hl, p, q, hp, hq, hpq⟩, _⟩, hc, hd⟩
    exact ⟨k, l, ⟨hk, hc⟩, ⟨hl, hd⟩,
      .rel _ _ ⟨hinto c k hk hc, hinto d l hl hd, p, q, hp, hq, Or.inr ⟨hon, hpq⟩⟩⟩

theorem groupCandidates_linked {g : List Nat} (hg : g ∈ (groupCandidatesWithStats ctx items).groups)
    (hi : i ∈ g) (hj : j ∈ g) : Relation.EqvGen (LinkedIn items g (GroupLink ctx)) i j := by
  rcases outcome_cases ctx items with ⟨hgroups, _, _⟩ | ⟨hon, hgroups, _⟩
  · rw [hgroups, ← GroupingState.map_members_boundGroups] at hg
    obtain ⟨b, hb, rfl⟩ := List.mem_map.mp hg
    exact loopGroups_linked hb (Subset.refl _) hi hj
  · rw [hgroups] at hg
    obtain ⟨b, hb, rfl⟩ := List.mem_map.mp hg
    exact rebuilt_linked hon hb hi hj

/-! ## Partition, order, custody and provenance

Under `perSource` a group should stay in one custodial partition. Tier-2 and backfill keys always
tell partitions apart; a Tier-1 key does so only while no path key holds the NUL that ends its
prefix. -/

def Tier1KeysCustodial (ctx : GroupingContext) (items : List RecoverableScanItem) : Prop :=
  ctx.scope = .perSource → ∀ a ∈ items, ∀ b ∈ items, ∀ key,
    a.tier1Key ctx = some key → b.tier1Key ctx = some key → a.pathKey = b.pathKey

omit [RandomState] in
theorem tier1KeysCustodial_of_noNul (h : ∀ a ∈ items, '\x00' ∉ a.pathKey.toList) :
    Tier1KeysCustodial ctx items := by
  intro hscope a ha b hb key hka hkb
  unfold RecoverableScanItem.tier1Key at hka hkb
  obtain ⟨m, _, hm⟩ := Option.map_eq_some_iff.mp hka
  obtain ⟨m', _, hm'⟩ := Option.map_eq_some_iff.mp hkb
  have hkeys := (midKey_inj_of_noNul (h a ha) (h b hb) (hm.trans hm'.symm)).1
  simpa only [scopeKey, hscope] using hkeys

omit [RandomState] in
theorem pathKey_eq_of_groupLink (hscope : ctx.scope = .perSource)
    (hkeys : Tier1KeysCustodial ctx items) (h : OnItems items (GroupLink ctx) i j) :
    (items[i]?).map RecoverableScanItem.pathKey = (items[j]?).map RecoverableScanItem.pathKey := by
  obtain ⟨a, b, ha, hb, hab⟩ := h
  rw [ha, hb, map_some, map_some]
  congr 1
  rcases hab with (⟨key, hka, hkb⟩ | ⟨_, _, _, hkey⟩) | ⟨_, hkey⟩
  · exact hkeys hscope a (mem_of_getElem? ha) b (mem_of_getElem? hb) key hka hkb
  · simpa only [scopeKey, hscope] using (hashKey_inj hkey).1
  · have hpart := congrArg Prod.fst hkey
    simpa only [RecoverableScanItem.backfillKey, scopeKey, hscope] using hpart

/-- **The returned groups**: every item in exactly one of them, members in scan order, one path key
a group under per-source scope (where no Tier-1 key crosses custodians), and the tag `Seed` on first
members alone, backfill merge or not. -/
theorem groups_partition_items (ctx : GroupingContext) (items : List RecoverableScanItem) :
    let out := groupCandidatesWithStats ctx items
    out.groups.flatten.Perm (range items.length) ∧ (∀ g ∈ out.groups, g.Pairwise (· < ·)) ∧
      (ctx.scope = .perSource → Tier1KeysCustodial ctx items → ∀ g ∈ out.groups, ∀ i ∈ g, ∀ j ∈ g,
        OnItems items (fun a b => a.pathKey = b.pathKey) i j) ∧
      ∀ g ∈ out.groups, ∀ i ∈ g, ∃ bb, out.boundBy[i]? = some bb ∧ (g.head? = some i → bb = .seed) ∧
        (g.head? ≠ some i → bb = .messageId ∨ bb = .contentHash ∨ bb = .strongContentHash) := by
  intro out
  have hpart : ScanPartition out.groups items.length := groupCandidates_partition ctx items
  obtain ⟨hlen, htags⟩ := groupCandidates_seedTags ctx items
  refine ⟨hpart.cover, hpart.ordered, ?_, ?_⟩
  · intro hscope hkeys g hg i hi j hj
    have hchain := groupCandidates_linked hg hi hj
    have heq := Foundations.eqvGen_value
      (fun _ _ hl => pathKey_eq_of_groupLink hscope hkeys hl.2.2) hchain
    have hget : ∀ k ∈ g, ∃ a, items[k]? = some a := fun k hk =>
      ⟨_, getElem?_eq_getElem (hpart.lt_of_mem hg hk)⟩
    obtain ⟨a, ha⟩ := hget i hi
    obtain ⟨b, hb⟩ := hget j hj
    rw [ha, hb, map_some, map_some, Option.some.injEq] at heq
    exact ⟨a, b, ha, hb, heq⟩
  · intro g hg i hi
    have hlt : i < out.boundBy.length := by rw [hlen]; exact hpart.lt_of_mem hg hi
    have hbb : out.boundBy[i]? = some out.boundBy[i] := getElem?_eq_getElem hlt
    refine ⟨_, hbb, ?_, ?_⟩
    · intro hhead
      exact Option.some.inj (hbb.symm.trans ((htags g hg i hi).mpr hhead))
    · intro hhead
      have hne : out.boundBy[i] ≠ .seed := fun hs =>
        hhead ((htags g hg i hi).mp (by rw [hbb, hs]))
      cases hcase : out.boundBy[i] with
      | seed => exact absurd hcase hne
      | messageId => exact Or.inl rfl
      | contentHash => exact Or.inr (Or.inl rfl)
      | strongContentHash => exact Or.inr (Or.inr rfl)

def sampleItem (path : String) (mid : Option String) (hash : UInt8) : RecoverableScanItem where
  locus := { sourcePath := path, sourcePst := "mail.pst", folderPath := "Inbox", nid := 1 }
  messageIdNorm := mid
  contentHash := Bytes32.fill hash
  hasBodyPreview := true

omit [Rust.Target] [RandomState] in
theorem groups_partition_items_two_sources :
    let ctx : GroupingContext := { scope := .perSource }
    let items := [sampleItem "/a/mail.pst" (some "m") 1, sampleItem "/b/mail.pst" (some "m") 1]
    let out := @groupCandidatesWithStats .unix .inOrder ctx items
    out.groups.flatten.Perm (range items.length) ∧ (∀ g ∈ out.groups, g.Pairwise (· < ·)) ∧
    (∀ g ∈ out.groups, ∀ i ∈ g, ∀ j ∈ g, OnItems items
      (fun a b => @RecoverableScanItem.pathKey .unix a = @RecoverableScanItem.pathKey .unix b) i j) ∧
    ∀ g ∈ out.groups, ∀ i ∈ g, ∃ bb, out.boundBy[i]? = some bb ∧ (g.head? = some i → bb = .seed) ∧
      (g.head? ≠ some i → bb = .messageId ∨ bb = .contentHash ∨ bb = .strongContentHash) := by
  intro ctx items out
  have hkeys : @Tier1KeysCustodial .unix ctx items := by
    apply @tier1KeysCustodial_of_noNul .unix
    decide +kernel
  have h := @groups_partition_items .unix .inOrder ctx items
  exact ⟨h.1, h.2.1, h.2.2.1 rfl hkeys, h.2.2.2⟩

omit [Rust.Target] [RandomState] in
/-- A NUL in a source path lets two custodians build one Tier-1 key, and their messages share a
group. -/
theorem perSource_group_of_two_paths :
    let ctx : GroupingContext := { scope := .perSource }
    let items := [sampleItem "a" (some "b\x00c") 1, sampleItem "a\x00b" (some "c") 2]
    (@groupCandidatesWithStats .unix .inOrder ctx items).groups = [[0, 1]] ∧ ¬ OnItems items
        (fun a b => @RecoverableScanItem.pathKey .unix a = @RecoverableScanItem.pathKey .unix b)
        0 1 := by
  refine ⟨by decide +kernel, ?_⟩
  rintro ⟨a, b, ha, hb, hab⟩
  cases ha
  cases hb
  exact absurd hab (by decide +kernel)

/-! ## What holds an ineligible item in its group

Eligibility guards the content lookup of one item. It does not reach the other members: an
ineligible item that joins by Message-ID shares a group with everything content brought there. -/

omit [RandomState] in
theorem midLink_or_backfill_of_groupLink {a b : RecoverableScanItem} (h : GroupLink ctx a b)
    (hout : ctx.tier2Enabled = false ∨ a.eligible ctx = false ∨ b.eligible ctx = false) :
    MidLink ctx a b ∨ (ctx.tier1Backfill = true ∧ a.backfillKey ctx = b.backfillKey ctx) := by
  rcases h with (hmid | ⟨hon, hela, helb, _⟩) | hback
  · exact Or.inl hmid
  · -- a content link needs Tier 2 and both items eligible
    rcases hout with h | h | h
    · rw [hon] at h; cases h
    · rw [hela] at h; cases h
    · rw [helb] at h; cases h
  · exact Or.inr hback

/-- **How an item that Tier 2 may not bind stays in company.** Any two members of a group are
connected inside it by Message-ID links, content links between two eligible items, and backfill
links. Without Tier 2 and backfill only Message-ID links remain; without backfill, an item outside
Tier 2 has a Message-ID in common with another member. -/
theorem ineligible_shares_group_by_links :
    ∀ g ∈ (groupCandidatesWithStats ctx items).groups, ∀ i ∈ g, ∀ j ∈ g,
      Relation.EqvGen (LinkedIn items g (GroupLink ctx)) i j ∧
      (ctx.tier1Backfill = false → ctx.tier2Enabled = false →
        Relation.EqvGen (LinkedIn items g (MidLink ctx)) i j) ∧
      (ctx.tier1Backfill = false → i ≠ j → ∀ a, items[i]? = some a →
        ctx.tier2Enabled = false ∨ a.eligible ctx = false →
        ∃ k, k ≠ i ∧ LinkedIn items g (MidLink ctx) i k) := by
  intro g hg i hi j hj
  have hchain := groupCandidates_linked hg hi hj
  refine ⟨hchain, ?_, ?_⟩
  · intro hback hoff
    refine Relation.EqvGen.eqvGen_le (fun x y hxy => .rel _ _ ?_) i j hchain
    obtain ⟨hx, hy, a, b, ha, hb, hab⟩ := hxy
    rcases midLink_or_backfill_of_groupLink hab (Or.inl hoff) with hmid | ⟨hon, _⟩
    · exact ⟨hx, hy, a, b, ha, hb, hmid⟩
    · rw [hback] at hon; cases hon
  · intro hback hne a ha hout
    obtain ⟨⟨k, hk, hlink⟩, _⟩ := Foundations.eqvGen_exists_link hchain hne
    refine ⟨k, hk, ?_⟩
    rcases hlink with ⟨_, hkg, x, y, hx, hy, hxy⟩ | ⟨hkg, _, x, y, hx, hy, hxy⟩
    · obtain rfl : a = x := Option.some.inj (ha.symm.trans hx)
      rcases midLink_or_backfill_of_groupLink hxy (hout.imp_right Or.inl) with hmid | ⟨hon, _⟩
      · exact ⟨hi, hkg, a, y, hx, hy, hmid⟩
      · rw [hback] at hon; cases hon
    · obtain rfl : a = y := Option.some.inj (ha.symm.trans hy)
      rcases midLink_or_backfill_of_groupLink hxy (hout.imp_right Or.inr) with ⟨key, hkx, hka⟩ | ⟨hon, _⟩
      · exact ⟨hi, hkg, a, x, hy, hx, key, hka, hkx⟩
      · rw [hback] at hon; cases hon

omit [Rust.Target] [RandomState] in
theorem ineligible_shares_group_by_links_degenerate :
    let ctx : GroupingContext := {}
    let blank := { sampleItem "mail.pst" (some "m") 2 with hasBodyPreview := false }
    let items := [sampleItem "mail.pst" none 1, sampleItem "mail.pst" (some "m") 1, blank]
    @RecoverableScanItem.eligible .unix ctx blank = false ∧
      ∃ k, k ≠ 2 ∧ LinkedIn items [0, 1, 2] (@MidLink .unix ctx) 2 k := by
  intro ctx blank items
  have hgroups : (@groupCandidatesWithStats .unix .inOrder ctx items).groups = [[0, 1, 2]] := by
    decide +kernel
  have hblank : @RecoverableScanItem.eligible .unix ctx blank = false := by decide +kernel
  have h := @ineligible_shares_group_by_links .unix .inOrder ctx items [0, 1, 2]
    (by rw [hgroups]; exact List.mem_singleton.mpr rfl) 2 (by decide) 0 (by decide)
  exact ⟨hblank, h.2.2 rfl (by decide) blank rfl (Or.inr hblank)⟩

def SameMid (a b : RecoverableScanItem) : Prop := ∃ m, a.mid = some m ∧ b.mid = some m

omit [Rust.Target] [RandomState] in
/-- A message without Message-ID seeds a group, a second one adopts it by content, and a degenerate
third joins by the second one's Message-ID: it shares a group with the first, which no chain of
Message-IDs reaches. -/
theorem ineligible_shares_group_without_mid :
    let ctx : GroupingContext := {}
    let seed := sampleItem "mail.pst" none 1
    let joiner := sampleItem "mail.pst" (some "m") 1
    let blank := { sampleItem "mail.pst" (some "m") 2 with hasBodyPreview := false }
    let items := [seed, joiner, blank]
    @RecoverableScanItem.eligible .unix ctx blank = false ∧
      (@groupCandidatesWithStats .unix .inOrder ctx items).groups = [[0, 1, 2]] ∧
      ¬ Relation.EqvGen (OnItems items SameMid) 2 0 := by
  refine ⟨by decide +kernel, by decide +kernel, ?_⟩
  intro hchain
  have heq := Foundations.eqvGen_value
    (v := fun i => ([sampleItem "mail.pst" none 1, sampleItem "mail.pst" (some "m") 1,
      { sampleItem "mail.pst" (some "m") 2 with hasBodyPreview := false }][i]?).bind
        RecoverableScanItem.mid)
    (fun i j hij => by
      obtain ⟨a, b, ha, hb, m, hma, hmb⟩ := hij
      simp only [ha, hb, bind_some, hma, hmb]) hchain
  exact absurd heq (by decide +kernel)

end DedupEngine
