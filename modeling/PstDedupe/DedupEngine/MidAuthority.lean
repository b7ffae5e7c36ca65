import PstDedupe.DedupEngine.GroupOutcome

/-!
# Message-ID authority over whole groups

With `blockCrossMid` on, no group should hold two different Message-IDs.
-/

namespace DedupEngine

open List

open Rust (Bytes32 HashMap RandomState)
open Foundations (ScanPartition UnionFind enumFold)

variable [Rust.Target] [RandomState] {ctx : GroupingContext} {items : List RecoverableScanItem}
  {groups : List BoundGroup} {a b : Nat} {m : String}

omit [RandomState] in
theorem holds_unique {i x y : Nat} (hx : Holds (loopGroups ctx items) x i)
    (hy : Holds (loopGroups ctx items) y i) : x = y := by
  obtain ⟨g, hg, hi⟩ := hx
  obtain ⟨g', hg', hi'⟩ := hy
  exact (loopGroups_partition ctx items).place_eq_of_mem
    (show ((loopGroups ctx items).map BoundGroup.members)[x]? = some g.members by simp [hg])
    (show ((loopGroups ctx items).map BoundGroup.members)[y]? = some g'.members by simp [hg'])
    hi hi'

theorem sharesGroup_iff {i j x y : Nat} (hi : Holds (loopGroups ctx items) x i)
    (hj : Holds (loopGroups ctx items) y j) :
    (∃ g ∈ (groupCandidatesWithStats ctx items).groups, i ∈ g ∧ j ∈ g) ↔ x = y ∨ (ctx.tier1Backfill = true ∧
        Relation.EqvGen (Mergeable ctx items (loopGroups ctx items)) x y) := by
  have hpart := loopGroups_partition ctx items
  have hne := loopGroups_nonempty ctx items
  have hsame : (loopForest ctx items).Same x y ↔
      Relation.EqvGen (Mergeable ctx items (loopGroups ctx items)) x y :=
    same_backfillForest hpart x y
  rcases outcome_cases ctx items with ⟨hgroups, _, hwhy⟩ | ⟨hon, hgroups, _⟩
  · rw [hgroups, ← GroupingState.map_members_boundGroups]
    constructor
    · rintro ⟨ms, hms, him, hjm⟩
      obtain ⟨g, hg, rfl⟩ := List.mem_map.mp hms
      obtain ⟨z, hz⟩ := List.mem_iff_getElem?.mp hg
      exact Or.inl ((holds_unique hi ⟨g, hz, him⟩).trans (holds_unique hj ⟨g, hz, hjm⟩).symm)
    · intro h
      have hxy : x = y := by
        rcases h with rfl | ⟨hon, hchain⟩
        · rfl
        · rcases hwhy with hoff | rfl | hlinks
          · rw [hon] at hoff; cases hoff
          · obtain ⟨g, hg, hig⟩ := hi
            exact absurd (hpart.lt_of_mem (mem_map_of_mem (mem_of_getElem? hg)) hig)
              (Nat.not_lt_zero i)
          · -- a forest without links has only singleton classes
            have hroot := UnionFind.root_of_links_eq_zero (wf_backfillForest ctx items _) hlinks
            have hsame' : (loopForest ctx items).root x = (loopForest ctx items).root y :=
              hsame.mpr hchain
            rwa [hroot, hroot] at hsame'
      subst hxy
      obtain ⟨g, hg, hig⟩ := hi
      obtain ⟨g', hg', hjg⟩ := hj
      obtain rfl : g = g' := Option.some.inj (hg.symm.trans hg')
      exact ⟨g.members, mem_map_of_mem (mem_of_getElem? hg), hig, hjg⟩
  · rw [hgroups]
    constructor
    · rintro ⟨ms, hms, him, hjm⟩
      obtain ⟨b, hb, rfl⟩ := List.mem_map.mp hms
      obtain ⟨x', y', hx', hy', hroot⟩ := mem_rebuildGroups hne hb him hjm
      obtain rfl := holds_unique hi hx'
      obtain rfl := holds_unique hj hy'
      exact Or.inr ⟨hon, hsame.mp hroot⟩
    · intro h
      have hroot : (loopForest ctx items).root x = (loopForest ctx items).root y := by
        rcases h with rfl | ⟨_, hchain⟩
        · rfl
        · exact hsame.mpr hchain
      obtain ⟨b, hb, hib, hjb⟩ := exists_mem_rebuildGroups hne hi hj hroot
      exact ⟨b.members, mem_map_of_mem hb, hib, hjb⟩

/-- The state before item `n`. -/
def groupPrefix (ctx : GroupingContext) (items : List RecoverableScanItem) (n : Nat) : GroupingState :=
  enumFold (groupItem ctx) (.init items.length) (items.take n)

def Authority (items : List RecoverableScanItem) (st : GroupingState) : Prop :=
  ∀ g ∈ st.groups, ∀ j ∈ g.members, ∀ a, items[j]? = some a → a.mid = none ∨ a.mid = g.boundMid

/-- Every Tier-1 hit of the run is on a group bound to the item's own Message-ID. -/
def Tier1Aligned (ctx : GroupingContext) (items : List RecoverableScanItem) : Prop :=
  ∀ n item, items[n]? = some item → ∀ gid, tier1Find ctx (groupPrefix ctx items n) item = some gid →
    ((groupPrefix ctx items n).group gid).boundMid = item.mid

/-- With backfill on, a group bound to nothing is mergeable only with groups bound alike. -/
def BackfillAligned (ctx : GroupingContext) (items : List RecoverableScanItem) : Prop :=
  ctx.tier1Backfill = true → ∀ a b c, boundMidAt (loopGroups ctx items) a = none →
    Mergeable ctx items (loopGroups ctx items) a b → Mergeable ctx items (loopGroups ctx items) a c →
    boundMidAt (loopGroups ctx items) b = boundMidAt (loopGroups ctx items) c

omit [RandomState] in
theorem groupPrefix_length (ctx : GroupingContext) (items : List RecoverableScanItem) :
    groupPrefix ctx items items.length = groupLoop ctx items := by
  unfold groupPrefix groupLoop
  rw [take_length]

omit [RandomState] in
theorem groupPrefix_succ {n : Nat} {item : RecoverableScanItem} (hn : items[n]? = some item) :
    groupPrefix ctx items (n + 1) = groupItem ctx (groupPrefix ctx items n) n item :=
  Foundations.enumFold_take_succ _ _ hn

omit [RandomState] in
theorem grounded_groupPrefix {n : Nat} (hn : n ≤ items.length) :
    Grounded ctx items (groupPrefix ctx items n) :=
  Foundations.enumFold_take_induction (P := fun _ st => Grounded ctx items st)
    (grounded_init _)
    (fun k x hx h => by
      rw [Foundations.enumFold_take_succ _ _ hx]
      exact h.step hx) n hn

omit [RandomState] in
theorem Authority.step {n : Nat} {item : RecoverableScanItem} {st : GroupingState}
    (h : Authority items st) (hg : Grounded ctx items st) (hblock : ctx.blockCrossMid = true)
    (hn : items[n]? = some item)
    (haligned : ∀ gid, tier1Find ctx st item = some gid → (st.group gid).boundMid = item.mid) :
    Authority items (groupItem ctx st n item) := by
  intro g hgm j hj a ha
  have hitem : j = n → a = item := by
    rintro rfl
    exact Option.some.inj (ha.symm.trans hn)
  rcases mem_groups_groupItem hgm with hold | ⟨gid, g₀, hl, hg₀, rfl⟩ | ⟨gid, g₀, hl, hg₀, rfl⟩ |
    ⟨_, rfl⟩
  · exact h g hold j hj a ha
  · -- a Message-ID join: the bound Message-ID is the item's
    have hbound : g₀.boundMid = item.mid := by
      rw [← group_eq hg₀]
      exact haligned gid (lookup_tier1 hl)
    show a.mid = none ∨ a.mid = g₀.boundMid.or none
    rw [Option.or_none]
    rcases List.mem_append.mp hj with hj | hj
    · exact h g₀ (mem_of_getElem? hg₀) j hj a ha
    · rw [hitem (List.mem_singleton.mp hj), hbound]
      exact Or.inr rfl
  · -- a content join
    show a.mid = none ∨ a.mid = g₀.boundMid.or item.mid
    have hcompat := (lookup_tier2 hl).2.2
    rw [group_eq hg₀, midJoinCompatible_fst, hblock, RecoverableScanItem.midPresent_mid] at hcompat
    have hpresent : midPresent g₀.boundMid = g₀.boundMid := by
      cases hb : g₀.boundMid with
      | none => rfl
      | some m =>
        obtain ⟨k, _, b, _, hbm⟩ := hg.boundMid g₀ (mem_of_getElem? hg₀) m hb
        rw [← hbm, RecoverableScanItem.midPresent_mid]
    rw [hpresent] at hcompat
    rcases List.mem_append.mp hj with hj | hj
    · rcases h g₀ (mem_of_getElem? hg₀) j hj a ha with hnone | hsome
      · exact Or.inl hnone
      · cases hb : g₀.boundMid with
        | none => exact Or.inl (hsome.trans hb)
        | some m =>
          rw [hb] at hsome
          exact Or.inr (by rw [hsome]; rfl)
    · rw [hitem (List.mem_singleton.mp hj)]
      rcases hcompat with hb | hm | heq | hoff
      · rw [hb]
        exact Or.inr rfl
      · exact Or.inl hm
      · rw [heq]
        exact Or.inr (by cases item.mid <;> rfl)
      · cases hoff
  · simp only [seedGroup, mem_singleton] at hj
    rw [hitem hj]
    exact Or.inr rfl

omit [RandomState] in
theorem authority_groupLoop (hblock : ctx.blockCrossMid = true) (h : Tier1Aligned ctx items) :
    Authority items (groupLoop ctx items) := by
  rw [← groupPrefix_length]
  refine Foundations.enumFold_take_induction (P := fun _ st => Authority items st)
    (by intro g hg; cases hg) ?_ items.length le_rfl
  intro n item hn hauth
  rw [Foundations.enumFold_take_succ _ _ hn]
  have hlt : n ≤ items.length := Nat.le_of_lt (List.getElem?_eq_some_iff.mp hn).1
  exact hauth.step (grounded_groupPrefix hlt) hblock hn (h n item hn)

omit [RandomState] in
theorem Mergeable.symm (h : Mergeable ctx items groups a b) : Mergeable ctx items groups b a := by
  obtain ⟨⟨i, j, hi, hj, x, y, hx, hy, hxy⟩, hjoin⟩ := h
  exact ⟨⟨j, i, hj, hi, y, x, hy, hx, hxy.symm⟩, backfillJoins_symm hjoin⟩

/-- The Message-ID a group stands for in a merge: its own, or for an unbound group that of the bound
groups it can be merged with. -/
def Labelled (ctx : GroupingContext) (items : List RecoverableScanItem) (groups : List BoundGroup)
    (a : Nat) (m : String) : Prop :=
  boundMidAt groups a = some m ∨
    (boundMidAt groups a = none ∧ ∃ b, Mergeable ctx items groups a b ∧ boundMidAt groups b = some m)

omit [RandomState] in
theorem labelled_of_mergeable
    (haligned : ∀ a b c, boundMidAt groups a = none → Mergeable ctx items groups a b →
      Mergeable ctx items groups a c → boundMidAt groups b = boundMidAt groups c)
    (h : Mergeable ctx items groups a b)
    (hm : Labelled ctx items groups a m) : Labelled ctx items groups b m := by
  obtain ⟨hsome, hcompat⟩ := backfillJoins_iff.mp h.2
  rcases hm with ham | ⟨hnone, c, hc, hcm⟩
  · cases hb : boundMidAt groups b with
    | none => exact Or.inr ⟨hb, a, h.symm, ham⟩
    | some m' =>
      rcases hcompat with h' | h' | h'
      · rw [ham] at h'; cases h'
      · rw [hb] at h'; cases h'
      · exact Or.inl (h'.symm.trans ham)
  · -- the neighbour of an unbound group is bound, and to what the others are bound to
    exact Or.inl ((haligned a b c hnone h hc).trans hcm)

omit [RandomState] in
theorem boundMidAt_eq_of_chain
    (haligned : ∀ a b c, boundMidAt groups a = none → Mergeable ctx items groups a b →
      Mergeable ctx items groups a c → boundMidAt groups b = boundMidAt groups c)
    (h : Relation.EqvGen (Mergeable ctx items groups) a b) {m m' : String}
    (ha : boundMidAt groups a = some m) (hb : boundMidAt groups b = some m') : m = m' := by
  have hlabels := Foundations.eqvGen_value (v := Labelled ctx items groups)
    (fun c d hcd => by
      funext l
      exact propext ⟨labelled_of_mergeable haligned hcd, labelled_of_mergeable haligned hcd.symm⟩) h
  have hbm : Labelled ctx items groups b m := by
    rw [← hlabels]
    exact Or.inl ha
  rcases hbm with h' | ⟨h', _⟩
  · exact Option.some.inj (h'.symm.trans hb)
  · rw [hb] at h'; cases h'

/-- No group holds two different Message-IDs. -/
def OneMid (items : List RecoverableScanItem) (groups : List (List Nat)) : Prop :=
  ∀ g ∈ groups, ∀ i ∈ g, ∀ j ∈ g, ∀ a b, items[i]? = some a → items[j]? = some b →
    ∀ m m', a.mid = some m → b.mid = some m' → m = m'

omit [RandomState] in
theorem groups_mono_prefix {n k : Nat} (hk : n + k ≤ items.length) {gid : Nat} {g : Group}
    (hg : (groupPrefix ctx items n).groups[gid]? = some g) :
    ∃ g', (groupPrefix ctx items (n + k)).groups[gid]? = some g' ∧ g.members ⊆ g'.members := by
  induction k with
  | zero => exact ⟨g, hg, Subset.refl _⟩
  | succ k ih =>
    obtain ⟨g₁, hg₁, hsub⟩ := ih (by omega)
    have hn : items[n + k]? = some items[n + k] := getElem?_eq_getElem (by omega)
    rw [← Nat.add_assoc, groupPrefix_succ hn]
    obtain ⟨g₂, hg₂, hsub₂, _⟩ := groups_mono hg₁
    exact ⟨g₂, hg₂, fun x hx => hsub₂ (hsub hx)⟩

omit [RandomState] in
theorem exists_member_of_boundMidAt {x : Nat} (h : boundMidAt (loopGroups ctx items) x = some m) :
    ∃ j a, Holds (loopGroups ctx items) x j ∧ items[j]? = some a ∧ a.mid = some m := by
  unfold boundMidAt at h
  obtain ⟨hbind, _⟩ := ne_empty_of_midPresent h
  obtain ⟨b, hb, hbm⟩ := Option.bind_eq_some_iff.mp hbind
  rw [getElem?_loopGroups] at hb
  obtain ⟨g, hg, rfl⟩ := Option.map_eq_some_iff.mp hb
  obtain ⟨j, hj, a, ha, ham⟩ :=
    (grounded_groupLoop ctx items).boundMid g (mem_of_getElem? hg) m hbm
  exact ⟨j, a, ⟨_, by rw [getElem?_loopGroups, hg]; rfl, hj⟩, ha, ham⟩

omit [RandomState] in
theorem boundMidAt_of_member (hauth : Authority items (groupLoop ctx items)) {x j : Nat}
    (hx : Holds (loopGroups ctx items) x j) {a : RecoverableScanItem} (ha : items[j]? = some a)
    (hm : a.mid = some m) : boundMidAt (loopGroups ctx items) x = some m := by
  obtain ⟨b, hb, hj⟩ := hx
  have hb' := hb
  rw [getElem?_loopGroups] at hb'
  obtain ⟨g, hg, rfl⟩ := Option.map_eq_some_iff.mp hb'
  unfold boundMidAt
  rw [hb, Option.bind_some]
  rcases hauth g (mem_of_getElem? hg) j hj a ha with h | h
  · rw [hm] at h; cases h
  · show midPresent g.boundMid = some m
    rw [← h, RecoverableScanItem.midPresent_mid, hm]

omit [RandomState] in
theorem exists_holds (ctx : GroupingContext) {i : Nat} (hi : i < items.length) : ∃ x,
    Holds (loopGroups ctx items) x i := by
  obtain ⟨ms, hms, hmem⟩ := (loopGroups_partition ctx items).exists_mem hi
  obtain ⟨g, hg, rfl⟩ := List.mem_map.mp hms
  obtain ⟨x, hx⟩ := List.mem_iff_getElem?.mp hg
  exact ⟨x, g, hx, hmem⟩

theorem tier1Aligned_of_oneMid (hone : OneMid items (groupCandidatesWithStats ctx items).groups) :
    Tier1Aligned ctx items := by
  intro n item hn gid hfind
  have hlt : n < items.length := (List.getElem?_eq_some_iff.mp hn).1
  obtain ⟨key, hkey, hget, _⟩ := tier1Find_eq_some hfind
  obtain ⟨g, hg, j, hj, a, ha, hak, hbound⟩ :=
    (grounded_groupPrefix (Nat.le_of_lt hlt)).midEntry key gid hget
  -- the group after item `n` joined it, and that group at the end of the loop
  have hjoined : (groupPrefix ctx items (n + 1)).groups[gid]? = some (g.absorb n none) := by
    rw [groupPrefix_succ hn, groups_tier1 (lookup_of_tier1Find hfind), getElem?_modify, hg]
    simp
  obtain ⟨g', hg', hsub⟩ := groups_mono_prefix (k := items.length - (n + 1)) (by omega) hjoined
  rw [show n + 1 + (items.length - (n + 1)) = items.length by omega, groupPrefix_length] at hg'
  have hholds : ∀ k ∈ (g.absorb n none).members, Holds (loopGroups ctx items) gid k :=
    fun k hk => ⟨_, by rw [getElem?_loopGroups, hg']; rfl, hsub hk⟩
  obtain ⟨gs, hgs, hjs, hns⟩ := (sharesGroup_iff (hholds j (mem_append_left _ hj))
    (hholds n (mem_append_right _ (List.mem_singleton.mpr rfl)))).mpr (Or.inl rfl)
  obtain ⟨m, hm⟩ := RecoverableScanItem.mid_of_tier1Key hak
  obtain ⟨m', hm'⟩ := RecoverableScanItem.mid_of_tier1Key hkey
  rw [group_eq hg, hbound, hm, hm', hone gs hgs j hjs n hns a item ha hn m m' hm hm']

theorem backfillAligned_of_oneMid (hone : OneMid items (groupCandidatesWithStats ctx items).groups) :
    BackfillAligned ctx items := by
  intro hon a b c hnone hab hac
  obtain ⟨hsomeb, _⟩ := backfillJoins_iff.mp hab.2
  obtain ⟨hsomec, _⟩ := backfillJoins_iff.mp hac.2
  obtain ⟨m, hm⟩ := Option.ne_none_iff_exists'.mp (hsomeb.resolve_left (fun h => h hnone))
  obtain ⟨m', hm'⟩ := Option.ne_none_iff_exists'.mp (hsomec.resolve_left (fun h => h hnone))
  obtain ⟨i, x, hi, hx, hxm⟩ := exists_member_of_boundMidAt hm
  obtain ⟨j, y, hj, hy, hym⟩ := exists_member_of_boundMidAt hm'
  have hchain : Relation.EqvGen (Mergeable ctx items (loopGroups ctx items)) b c :=
    .trans _ _ _ (.symm _ _ (.rel _ _ hab)) (.rel _ _ hac)
  obtain ⟨g, hg, hig, hjg⟩ := (sharesGroup_iff hi hj).mpr (Or.inr ⟨hon, hchain⟩)
  rw [hm, hm', hone g hg i hig j hjg x y hx hy m m' hxm hym]

theorem oneMid_of_aligned (hblock : ctx.blockCrossMid = true) (htier1 : Tier1Aligned ctx items)
    (hback : BackfillAligned ctx items) : OneMid items (groupCandidatesWithStats ctx items).groups := by
  intro g hg i hi j hj a b ha hb m m' hm hm'
  have hauth := authority_groupLoop hblock htier1
  have hlt : ∀ {k : Nat} {z : RecoverableScanItem}, items[k]? = some z → k < items.length :=
    fun h => (List.getElem?_eq_some_iff.mp h).1
  obtain ⟨x, hx⟩ := exists_holds ctx (hlt ha)
  obtain ⟨y, hy⟩ := exists_holds ctx (hlt hb)
  have hbx := boundMidAt_of_member hauth hx ha hm
  have hby := boundMidAt_of_member hauth hy hb hm'
  rcases (sharesGroup_iff hx hy).mp ⟨g, hg, hi, hj⟩ with rfl | ⟨hon, hchain⟩
  · exact Option.some.inj (hbx.symm.trans hby)
  · exact boundMidAt_eq_of_chain (hback hon) hchain hbx hby

/-- **When every group keeps to one Message-ID.** Under cross-MID blocking this is so iff Tier 1
only ever hits groups bound to the item's Message-ID and backfill meets no unbound group between two
groups bound differently. -/
theorem oneMid_iff (hblock : ctx.blockCrossMid = true) :
    OneMid items (groupCandidatesWithStats ctx items).groups ↔
      Tier1Aligned ctx items ∧ BackfillAligned ctx items := by
  constructor
  · intro hone
    exact ⟨tier1Aligned_of_oneMid hone, backfillAligned_of_oneMid hone⟩
  · rintro ⟨htier1, hback⟩
    exact oneMid_of_aligned hblock htier1 hback

omit [Rust.Target] [RandomState] in
/-- The message without a Message-ID joins `m1`, and `m2` stays alone. -/
theorem oneMid_iff_default :
    let ctx : GroupingContext := {}
    let items := [sampleItem "mail.pst" (some "m1") 1, sampleItem "mail.pst" none 1,
      sampleItem "mail.pst" (some "m2") 1]
    OneMid items (@groupCandidatesWithStats .unix .inOrder ctx items).groups ∧
      @Tier1Aligned .unix ctx items ∧ @BackfillAligned .unix ctx items := by
  intro ctx items
  have hgroups : (@groupCandidatesWithStats .unix .inOrder ctx items).groups
      = [[0, 1], [2]] := by decide +kernel
  have hmids : ∀ g ∈ [[0, 1], [2]], ∀ i ∈ g, ∀ j ∈ g, ∀ m ∈ items[i]?.bind RecoverableScanItem.mid,
      ∀ m' ∈ items[j]?.bind RecoverableScanItem.mid, m = m' := by decide +kernel
  have hone : OneMid items (@groupCandidatesWithStats .unix .inOrder ctx items).groups := by
    rw [hgroups]
    intro g hg i hi j hj a b ha hb m m' hm hm'
    exact hmids g hg i hi j hj m (by rw [ha]; exact hm) m' (by rw [hb]; exact hm')
  exact ⟨hone, (@oneMid_iff .unix .inOrder _ _ (by decide)).mp hone⟩

omit [Rust.Target] [RandomState] in
/-- One content hash three times: `m1`, a message with a truncated body and no Message-ID, `m2`. The
loop keeps the three apart; the backfill pass finds the middle one compatible with either neighbour
and returns them as one group. -/
theorem backfill_groups_two_mids :
    let ctx : GroupingContext := { tier1Backfill := true }
    let truncated : RecoverableIntegrity := .withDegraded [.bodyTruncated] false
    let items := [sampleItem "mail.pst" (some "m1") 1,
      { sampleItem "mail.pst" none 1 with integrity := truncated },
      sampleItem "mail.pst" (some "m2") 1]
    ctx.blockCrossMid = true ∧ (@groupCandidatesWithStats .unix .inOrder ctx items).groups =
      [[0, 1, 2]] ∧ ¬ OneMid items (@groupCandidatesWithStats .unix .inOrder ctx items).groups := by
  intro ctx truncated items
  have hgroups : (@groupCandidatesWithStats .unix .inOrder ctx items).groups = [[0, 1, 2]] := by
    decide +kernel
  refine ⟨by decide, hgroups, ?_⟩
  intro hone
  rw [hgroups] at hone
  have := hone [0, 1, 2] (by decide) 0 (by decide) 2 (by decide) _ _ rfl rfl "m1" "m2" rfl rfl
  exact absurd this (by decide)

end DedupEngine
