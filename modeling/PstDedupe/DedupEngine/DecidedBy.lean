import PstDedupe.DedupEngine.KeepSetRuns

/-!
# When `decided_by` is honest

A unique row reports the rung on which its key differs from its best rival's.
-/

namespace DedupEngine

open List

open Rust (RandomState)
open Foundations (ladderCmp decidingRung betterRung bestBy chosen)

variable {σ : Type}

section Keys

variable {a b c : RankKey}

theorem RankKey.eq_of_cmp_eq (hflag : a.folderClassFirst = b.folderClassFirst)
    (h : a.cmp b = .eq) : a = b := by
  unfold RankKey.cmp at h
  cases a
  cases b
  simp only at hflag
  subst hflag
  simp only [Ordering.then_eq_eq, compare_eq_iff_eq] at h
  split at h <;> simp_all

theorem RankKey.cmp_eq_of_flag (first : Bool) (policy : KeepPolicy)
    (h : a.folderClassFirst = first) : a.cmp b = ladderCmp (rankRungs first policy) a b := by
  rw [cmp_eq_ladderCmp a b policy, h]

end Keys

namespace ResolvedKeepSet

variable [Rust.Target] {r : ResolvedKeepSet} {g : List Nat} {i : Nat}

structure IsBestRival (r : ResolvedKeepSet) (g : List Nat) (i : Nat) (rival : RankKey) : Prop where
  mem : ∃ j ∈ g, j ≠ i ∧ rival = r.key j
  best : ∀ j ∈ g, j ≠ i → (rival.cmp (r.key j)).isLE

/-- The row of item `i` reports the first rung on which it is strictly better than its best
rival. -/
def HonestRow (r : ResolvedKeepSet) (g : List Nat) (i : Nat) : Prop :=
  ∃ rival, IsBestRival r g i rival ∧ betterRung (rankRungs r.rankCtx.folderClassFirst r.policy) (r.key i) rival
      = some (r.decidedByFor i)

omit [Rust.Target] in
theorem groupContaining_eq (hwf : r.WellFormed) (hg : g ∈ r.groups) (hi : i ∈ g) :
    r.groupContaining i = g := by
  unfold groupContaining
  cases hfind : r.groups.find? fun g => g.contains i with
  | none =>
    have hnot := List.find?_eq_none.mp hfind g hg
    simp [hi] at hnot
  | some g' =>
    have hmem := mem_of_find?_eq_some hfind
    have hi' := find?_some hfind
    exact hwf.partition.eq_of_mem hmem hg (by simpa using hi') hi

theorem mem_rivalKeys {k : RankKey} : k ∈ (g.filter (· != i)).map r.key ↔ ∃ j ∈ g, j ≠ i ∧ k = r.key j := by
  rw [mem_map]
  constructor
  · rintro ⟨j, hj, rfl⟩
    rw [mem_filter, bne_iff_ne] at hj
    exact ⟨j, hj.1, hj.2, rfl⟩
  · rintro ⟨j, hj, hji, rfl⟩
    exact ⟨j, List.mem_filter.mpr ⟨hj, bne_iff_ne.mpr hji⟩, rfl⟩

theorem bestRival_spec (hgroup : r.groupContaining i = g) (hother : ∃ j ∈ g, j ≠ i) :
    ∃ rival, r.bestRival i = some rival ∧ IsBestRival r g i rival := by
  have hflag : ∀ k ∈ (g.filter (· != i)).map r.key, k.folderClassFirst = r.rankCtx.folderClassFirst := by
    intro k hk
    obtain ⟨j, _, _, rfl⟩ := mem_rivalKeys.mp hk
    rfl
  have hne : (g.filter (· != i)).map r.key ≠ [] := by
    obtain ⟨j, hj, hji⟩ := hother
    exact ne_nil_of_mem (mem_rivalKeys.mpr ⟨j, hj, hji, rfl⟩)
  have htrans := Foundations.transCmp_ladderCmp
    (transCmp_rankRungs r.rankCtx.folderClassFirst r.policy)
  obtain ⟨rival, hmem, hbest, hle⟩ := @Foundations.bestBy_spec _ _ htrans _ hne
  refine ⟨rival, ?_, mem_rivalKeys.mp hmem, ?_⟩
  · unfold bestRival
    rw [hgroup, ← hbest]
    apply Foundations.bestBy_congr
    intro a ha b _
    exact RankKey.cmp_eq_of_flag _ _ (hflag a ha)
  · intro j hj hji
    rw [RankKey.cmp_eq_of_flag _ r.policy (hflag rival hmem)]
    exact hle _ (mem_rivalKeys.mpr ⟨j, hj, hji, rfl⟩)

theorem IsBestRival.unique {k k' : RankKey} (h : IsBestRival r g i k) (h' : IsBestRival r g i k') :
    k = k' := by
  obtain ⟨j, hj, hji, rfl⟩ := h.mem
  obtain ⟨j', hj', hji', rfl⟩ := h'.mem
  have hle := h.best j' hj' hji'
  have hge := h'.best j hj hji
  rw [RankKey.cmp_eq_of_flag r.rankCtx.folderClassFirst r.policy rfl] at hle hge
  have htrans := Foundations.transCmp_ladderCmp
    (transCmp_rankRungs r.rankCtx.folderClassFirst r.policy)
  have heq : (r.key j).cmp (r.key j') = .eq := by
    rw [RankKey.cmp_eq_of_flag r.rankCtx.folderClassFirst r.policy rfl]
    exact Std.OrientedCmp.isLE_antisymm hle hge
  exact RankKey.eq_of_cmp_eq rfl heq

theorem honestRow_iff (hgroup : r.groupContaining i = g) (hother : ∃ j ∈ g, j ≠ i)
    (hlength : 1 < g.length) (hrole : (r.verdict i).role = .unique)
    (hreason : (r.verdict i).promoteReason = none) :
    HonestRow r g i ↔ ∀ j ∈ g, j ≠ i → (r.key i).cmp (r.key j) = .lt := by
  obtain ⟨rival, hbest, hrival⟩ := bestRival_spec hgroup hother
  have hdecided : r.decidedByFor i = decidedByRung (r.key i) rival r.policy := by
    unfold decidedByFor
    simp only [hrole, hreason, hgroup, hbest, if_true, if_neg (Nat.ne_of_gt hlength)]
  have hcmp : ∀ j, (r.key i).cmp (r.key j) = ladderCmp _ (r.key i) (r.key j) := fun j =>
    RankKey.cmp_eq_of_flag r.rankCtx.folderClassFirst r.policy rfl
  have hnames := rankRungs_names_nodup r.rankCtx.folderClassFirst r.policy
  have hlt := Foundations.ladderCmp_eq_lt_iff (a := r.key i) (b := rival) hnames
  constructor
  · rintro ⟨rival', hrival', hbetter⟩
    rw [hrival'.unique hrival, hdecided, decidedByRung_eq] at hbetter
    obtain ⟨name, hname⟩ := Foundations.decidingRung_of_betterRung hbetter
    rw [show decidingRung (rankRungs (r.key i).folderClassFirst r.policy) (r.key i) rival = some name
      from hname] at hbetter
    have hfirst := hlt.mpr ⟨name, hname, hbetter⟩
    intro j hj hji
    have hle := hrival.best j hj hji
    obtain ⟨j', _, _, rfl⟩ := hrival.mem
    rw [RankKey.cmp_eq_of_flag r.rankCtx.folderClassFirst r.policy rfl] at hle
    have htrans := Foundations.transCmp_ladderCmp
      (transCmp_rankRungs r.rankCtx.folderClassFirst r.policy)
    rw [hcmp j]
    exact Std.TransCmp.lt_of_lt_of_isLE hfirst hle
  · intro hall
    obtain ⟨j, hj, hji, hkey⟩ := hrival.mem
    rw [hkey, ← hcmp j, ← hkey] at hlt
    obtain ⟨name, hname, hbetter⟩ := hlt.mp (hkey ▸ hall j hj hji)
    refine ⟨rival, hrival, ?_⟩
    rw [hbetter, hdecided, decidedByRung_eq]
    rw [show decidingRung (rankRungs (r.key i).folderClassFirst r.policy) (r.key i) rival = some name
      from hname]
    rfl

end ResolvedKeepSet

section Run

variable [Rust.Target] {c : Client σ} {opts : MaterializeFinalizeOpts} {r : ResolvedKeepSet}
  {s : Session σ} {g : List Nat} {i : Nat}

omit [Rust.Target] in
theorem exists_other (hnodup : g.Nodup) (hlength : 1 < g.length) (i : Nat) : ∃ j ∈ g, j ≠ i := by
  match g, hnodup, hlength with
  | a :: b :: rest, hnodup, _ =>
    have hab : a ≠ b := by
      rintro rfl
      exact (List.nodup_cons.mp hnodup).1 (mem_cons_self ..)
    by_cases hai : a = i
    · exact ⟨b, by simp, fun hbi => hab (hai.trans hbi.symm)⟩
    · exact ⟨a, by simp, hai⟩

omit [Rust.Target] in
theorem RunInv.only_asked (h : RunInv c opts r r.groups.length s)
    (hg : g ∈ r.groups) (hi : i ∈ g) (hrole : (s.resolved.verdict i).role = .unique)
    (hreason : (s.resolved.verdict i).promoteReason = none) : ∃ msg, answersIn s.asked g = [(i, .ok msg)] := by
  obtain ⟨k, hk⟩ := List.mem_iff_getElem?.mp hg
  have hsettled := h.settled k (List.getElem?_eq_some_iff.mp hk).1 g hk
  cases hchoice : chosen (completeAnswer opts.promoteOnAttachFail r.items) (answersIn s.asked g) with
  | none =>
    rw [((hsettled.chosen_none hchoice).2 i hi).1] at hrole
    cases hrole
  | some p =>
    obtain ⟨_, promoted, reason, hverdict, honly⟩ := hsettled.chosen_some p.1 p.2 hchoice
    rw [hverdict i hi] at hrole hreason
    obtain ⟨hwinner, hfailed⟩ := role_finalVerdict.mp hrole
    have hnone : reason = none := by
      unfold finalVerdict at hreason
      simpa [hwinner, hwinner ▸ hfailed] using hreason
    exact ⟨p.2, by rw [hwinner, honly hnone]⟩

/-- **When `decided_by` is honest.** In every run that returns, the row of a unique member that was
not promoted is honest iff its key, with the soft fidelity of its own answer merged in, still comes
strictly before the key of every other member of its group. -/
theorem decidedBy_honest_iff_strictly_first [RandomState] (hr : r.Reached) {env : σ} {count : Nat}
    (hrun : finalizeWithMaterializeOpts c opts env r = (s, .ok count))
    (hg : g ∈ s.resolved.groups) (hi : i ∈ g) (hlength : 1 < g.length)
    (hrole : (s.resolved.verdict i).role = .unique)
    (hreason : (s.resolved.verdict i).promoteReason = none) : ∃ msg, (i, .ok msg) ∈ s.asked ∧
      (s.resolved.HonestRow g i ↔ ∀ j ∈ g, j ≠ i →
        (rankKey (mergeSoftFidelity (r.item i) msg) r.rankCtx).cmp (r.key j) = .lt) := by
  have hwf := hr.wellFormed
  have hwf' : s.resolved.WellFormed := by
    have hshape := sameShape_finalize c opts env r
    rw [hrun] at hshape
    exact hwf.of_sameShape hshape
  have hinv := runInv_finalize hwf hrun
  have hgroup := ResolvedKeepSet.groupContaining_eq hwf' hg hi
  have hnodup : g.Nodup := (hwf'.partition.ordered g hg).imp fun h => Nat.ne_of_lt h
  have hother := exists_other hnodup hlength i
  rw [hinv.groups_eq] at hg
  obtain ⟨msg, honly⟩ := hinv.only_asked hg hi hrole hreason
  have hasked : (i, .ok msg) ∈ s.asked := by
    have hmem : (i, .ok msg) ∈ answersIn s.asked g := by
      rw [honly]
      exact List.mem_singleton.mpr rfl
    exact (mem_answersIn.mp hmem).1
  -- the key of the winner is the merged one, the keys of the others are those before the run
  have hself : s.resolved.key i = rankKey (mergeSoftFidelity (r.item i) msg) r.rankCtx := by
    show rankKey (itemAt s.resolved.items i) s.resolved.rankCtx = _
    rw [hinv.item_ok i msg hasked, hinv.rankCtx_eq]
    rfl
  have hrest : ∀ j ∈ g, j ≠ i → s.resolved.key j = r.key j := by
    intro j hj hji
    show rankKey (itemAt s.resolved.items j) s.resolved.rankCtx = _
    rw [hinv.item_else j, hinv.rankCtx_eq]
    · rfl
    · intro answer hmem
      have hmem := mem_answersIn.mpr ⟨hmem, hj⟩
      rw [honly, mem_singleton] at hmem
      exact hji (Prod.mk.inj hmem).1
  refine ⟨msg, hasked, ?_⟩
  rw [ResolvedKeepSet.honestRow_iff hgroup hother hlength hrole hreason, hself]
  constructor
  · intro h j hj hji
    rw [← hrest j hj hji]
    exact h j hj hji
  · intro h j hj hji
    rw [hrest j hj hji]
    exact h j hj hji

def loads (bodyUnavailable : Bool) : Client Unit where
  materialize _ locus := ((), .ok { locus := locus, bodyUnavailable := bodyUnavailable })
  onWinner _ _ := ((), .ok ())

def twoCopies : List RecoverableScanItem :=
  [sampleItem "/a/mail.pst" (some "m") 1, sampleItem "/b/mail.pst" (some "m") 1]

omit [Rust.Target] in
theorem decidedBy_honest_iff_strictly_first_path_order :
    let r := @resolveGroupsWithGrouping .unix .inOrder twoCopies .parentsOnly {} {}
    let run := @finalizeWithMaterializeOpts Unit .unix (loads false) {} () r
    @ResolvedKeepSet.HonestRow .unix run.1.resolved [0, 1] 0 := by
  intro r run
  have hreached : @ResolvedKeepSet.Reached .unix .inOrder r :=
    @ResolvedKeepSet.Reached.resolve .unix .inOrder twoCopies .parentsOnly {} {}
  have hok : run.2 = .ok 1 := by decide +kernel
  have hrun : run = (run.1, .ok 1) := by rw [← hok, Prod.mk.eta]
  obtain ⟨msg, hasked, hiff⟩ := @decidedBy_honest_iff_strictly_first Unit .unix (loads false) {} r
    run.1 [0, 1] 0 .inOrder hreached () 1 hrun (by decide +kernel) (by decide) (by decide)
    (by decide +kernel) (by decide +kernel)
  apply hiff.mpr
  intro j hj hne
  have hj : j = 1 := by
    simp at hj
    omega
  subst hj
  have hlog : run.1.asked = [(0, .ok { locus := (itemAt twoCopies 0).locus })] := by decide +kernel
  rw [hlog, mem_singleton] at hasked
  cases hasked
  decide +kernel

omit [Rust.Target] in
/-- The first copy wins by path, its body turns out unreadable, and the row says it won by fidelity,
the rung on which it is now worse than its rival. -/
theorem decidedBy_unreadable_body :
    let r := @resolveGroupsWithGrouping .unix .inOrder twoCopies .parentsOnly {} {}
    let run := @finalizeWithMaterializeOpts Unit .unix (loads true) {} () r
    let final := run.1.resolved
    run.2 = .ok 1 ∧ final.groups = [[0, 1]] ∧
      (final.verdict 0).role = .unique ∧ (final.verdict 0).promoteReason = none ∧
      @ResolvedKeepSet.decidedByFor .unix final 0 = "fidelity" ∧
      (@ResolvedKeepSet.key .unix final 1).fidelity < (@ResolvedKeepSet.key .unix final 0).fidelity ∧
      ¬ @ResolvedKeepSet.HonestRow .unix final [0, 1] 0 := by
  intro r run final
  refine ⟨by decide +kernel, by decide +kernel, by decide +kernel, by decide +kernel,
    by decide +kernel, by decide +kernel, ?_⟩
  rintro ⟨rival, hbest, hbetter⟩
  obtain ⟨j, hj, hne, rfl⟩ := @ResolvedKeepSet.IsBestRival.mem .unix _ _ _ _ hbest
  have hj : j = 1 := by
    simp at hj
    omega
  subst hj
  exact absurd hbetter (by decide +kernel)

end Run

end DedupEngine

/-!
# The tiers of duplicates

The tier of a duplicate is the bind provenance of its item, recorded when the groups were built: the
first member of a group is its seed and has none.
-/

namespace DedupEngine

open Rust (RandomState)
open List
open Foundations (failures chosen)

variable {σ : Type}

/-- Every duplicate has a tier, and the counters of the tiers sum up to the duplicates. -/
structure TiersAccounted [Rust.Target] (r : ResolvedKeepSet) : Prop where
  row : ∀ row ∈ r.toDecisions, row.role = .dupOf → TierToken row.tier
  stats : r.toKeepSet.stats.duplicates = r.toKeepSet.stats.tier1Dups + r.toKeepSet.stats.tier2Dups

/-- In every group that has a winner, the seed is the winner or failed hard. -/
def SeedsStand (promote : Bool) (items : List RecoverableScanItem) (groups : List (List Nat))
    (asked : List (Nat × Answer)) : Prop :=
  ∀ g ∈ groups, ∀ seed, g.head? = some seed → ∀ winner answer,
    chosen (completeAnswer promote items) (answersIn asked g) = some (winner, answer) →
      seed = winner ∨ ∃ e, (seed, .error e) ∈ asked

theorem tierToken_tierOfBound {boundBy : List BoundBy} {i : Nat} (hi : i < boundBy.length) :
    TierToken (tierOfBound boundBy i) ↔ boundBy[i]? ≠ some .seed := by
  unfold tierOfBound
  rw [getElem?_eq_getElem hi]
  cases boundBy[i] <;> simp [TierToken, BoundBy.tierCsv]

section Rows

variable [Rust.Target] {r : ResolvedKeepSet}

theorem forall_dup_row_iff :
    (∀ row ∈ r.toDecisions, row.role = .dupOf → TierToken row.tier) ↔
      ∀ i < r.items.length, (r.verdict i).role = .dupOf → TierToken (r.verdict i).tierOf := by
  unfold ResolvedKeepSet.toDecisions
  rw [forall_mem_map]
  constructor
  · intro h i hi
    exact h i (List.mem_range.mpr hi)
  · intro h i hi
    exact h i (List.mem_range.mp hi)

omit [Rust.Target] in
theorem duplicates_eq_of_tiers
    (h : ∀ i < r.items.length, (r.verdict i).role = .dupOf → TierToken (r.verdict i).tierOf) :
    r.keepSetStats.duplicates = r.keepSetStats.tier1Dups + r.keepSetStats.tier2Dups := by
  have hdups := count_keepSetStats r KeepSetStats.duplicates
    (fun i => decide ((r.verdict i).role = .dupOf))
    (fun t g => (tallyGroup_counts t g).2.2.1)
    (fun t i => by simpa only [decide_eq_true_eq] using (tallyItem_counts t i).2.2.1) fun _ _ => rfl
  have htiers := count_keepSetStats r (fun t => t.tier1Dups + t.tier2Dups)
    (fun i => decide ((r.verdict i).role = .dupOf ∧ TierToken (r.verdict i).tierOf))
    (fun t g => (tallyGroup_counts t g).2.2.2.2)
    (fun t i => by simpa only [decide_eq_true_eq] using (tallyItem_counts t i).2.2.2.2) fun _ _ => rfl
  have hsame : (range r.items.length).countP (fun i => decide ((r.verdict i).role = .dupOf)) =
      (range r.items.length).countP
        fun i => decide ((r.verdict i).role = .dupOf ∧ TierToken (r.verdict i).tierOf) := by
    apply countP_congr
    intro i hi
    simpa using h i (List.mem_range.mp hi)
  rw [hdups, hsame]
  exact htiers.symm

end Rows

section Run

variable [Rust.Target] {c : Client σ} {opts : MaterializeFinalizeOpts} {r : ResolvedKeepSet}
  {s : Session σ} {g : List Nat} {i : Nat}

omit [Rust.Target] in
theorem RunInv.dupOf_iff (h : RunInv c opts r r.groups.length s) (hg : g ∈ r.groups) (hi : i ∈ g) :
    ((s.resolved.verdict i).role = .dupOf ↔
      (∃ winner answer, chosen (completeAnswer opts.promoteOnAttachFail r.items)
        (answersIn s.asked g) = some (winner, answer) ∧ i ≠ winner) ∧ ¬ ∃ e, (i, .error e) ∈ s.asked) ∧
    ((s.resolved.verdict i).role = .dupOf → (s.resolved.verdict i).tierOf = tierOfBound r.boundBy i) := by
  obtain ⟨k, hk⟩ := List.mem_iff_getElem?.mp hg
  have hsettled := h.settled k (List.getElem?_eq_some_iff.mp hk).1 g hk
  cases hchoice : chosen (completeAnswer opts.promoteOnAttachFail r.items) (answersIn s.asked g) with
  | none =>
    rw [((hsettled.chosen_none hchoice).2 i hi).1]
    simp
  | some p =>
    obtain ⟨winner, answer⟩ := p
    obtain ⟨_, promoted, reason, hverdict, _⟩ := hsettled.chosen_some winner answer hchoice
    have hfailed : i ∈ failures (answersIn s.asked g) ↔ ∃ e, (i, .error e) ∈ s.asked := by
      rw [Foundations.mem_failures]
      simp only [mem_answersIn, hi, and_true]
    rw [hverdict i hi, ← hfailed, role_finalVerdict_dupOf]
    refine ⟨by simp, fun hdup => tierOf_finalVerdict hdup.1 hdup.2⟩

/-- **When the tiers account for the duplicates.** In every run that returns, every duplicate has a
tier and the tier counters sum up to the duplicates iff no group lets another member take the place
of its seed, the first in scan order, unless the seed failed hard. -/
theorem tiersAccounted_iff_seedsStand [RandomState] {items : List RecoverableScanItem}
    {familyPolicy : FamilyPolicy} {rankCtx : RankContext} {groupingCtx : GroupingContext} {env : σ}
    {count : Nat}
    (hrun : finalizeWithMaterializeOpts c opts env
      (resolveGroupsWithGrouping items familyPolicy rankCtx groupingCtx) = (s, .ok count)) :
    TiersAccounted s.resolved ↔
      SeedsStand opts.promoteOnAttachFail items (groupCandidatesWithStats groupingCtx items).groups
        s.asked := by
  have hwf := wellFormed_resolve items familyPolicy rankCtx groupingCtx
  have hinv := runInv_finalize hwf hrun
  obtain ⟨hlength, htags⟩ := groupCandidates_seedTags groupingCtx items
  have hpart := groupCandidates_partition groupingCtx items
  -- the tier column of a duplicate, in terms of the seeds
  have htier : ∀ g ∈ (groupCandidatesWithStats groupingCtx items).groups, ∀ i ∈ g,
      (s.resolved.verdict i).role = .dupOf → (TierToken (s.resolved.verdict i).tierOf ↔ g.head? ≠ some i) := by
    intro g hg i hi hdup
    have hlt : i < (groupCandidatesWithStats groupingCtx items).boundBy.length := by
      rw [hlength]
      exact hpart.lt_of_mem hg hi
    rw [(hinv.dupOf_iff hg hi).2 hdup]
    refine (tierToken_tierOfBound hlt).trans (not_congr ?_)
    exact htags g hg i hi
  constructor
  · intro haccounted g hg seed hseed winner answer hchoice
    have hi : seed ∈ g := mem_of_mem_head? hseed
    by_contra hnot
    push Not at hnot
    have hdup : (s.resolved.verdict seed).role = .dupOf :=
      (hinv.dupOf_iff hg hi).1.mpr ⟨⟨winner, answer, hchoice, hnot.1⟩, by simpa using hnot.2⟩
    have hrow := forall_dup_row_iff.mp haccounted.row seed
      (by rw [hinv.items_length]; exact hpart.lt_of_mem hg hi) hdup
    exact (htier g hg seed hi hdup).mp hrow hseed
  · intro hstand
    have hrows : ∀ i < s.resolved.items.length, (s.resolved.verdict i).role = .dupOf →
        TierToken (s.resolved.verdict i).tierOf := by
      intro i hlt hdup
      rw [hinv.items_length] at hlt
      obtain ⟨g, hg, hi⟩ := hpart.exists_mem hlt
      rw [htier g hg i hi hdup]
      intro hseed
      obtain ⟨⟨winner, answer, hchoice, hne⟩, hfailed⟩ := (hinv.dupOf_iff hg hi).1.mp hdup
      rcases hstand g hg i hseed winner answer hchoice with heq | herr
      · exact hne heq
      · exact hfailed herr
    exact ⟨forall_dup_row_iff.mpr hrows, duplicates_eq_of_tiers hrows⟩

omit [Rust.Target] in
theorem tiersAccounted_iff_seedsStand_two_copies :
    let r := @resolveGroupsWithGrouping .unix .inOrder twoCopies .parentsOnly {} {}
    let run := @finalizeWithMaterializeOpts Unit .unix (loads false) {} () r
    @TiersAccounted .unix run.1.resolved := by
  intro r run
  have hok : run.2 = .ok 1 := by decide +kernel
  have hrun : run = (run.1, .ok 1) := by rw [← hok, Prod.mk.eta]
  apply (@tiersAccounted_iff_seedsStand Unit .unix (loads false) {} run.1 .inOrder twoCopies
    .parentsOnly {} {} () 1 hrun).mpr
  have hgroups : (@groupCandidatesWithStats .unix .inOrder {} twoCopies).groups = [[0, 1]] := by
    decide +kernel
  have hchosen : (chosen (completeAnswer false twoCopies) (answersIn run.1.asked [0, 1])).map
      Prod.fst = some 0 := by
    decide +kernel
  intro g hg seed hseed winner answer hchoice
  rw [hgroups, mem_singleton] at hg
  subst hg
  rw [show chosen (completeAnswer false twoCopies) _ = _ from hchoice] at hchosen
  cases hseed
  cases hchosen
  exact Or.inl rfl

omit [Rust.Target] in
/-- The first copy is degraded: it seeds the group, the second copy wins, and the row of the first
is a duplicate without a tier that neither tier counter takes. -/
theorem tiersAccounted_degraded_seed :
    let degraded := { sampleItem "/a/mail.pst" (some "m") 1 with
      integrity := .withDegraded [.bodyTruncated] false }
    let items := [degraded, sampleItem "/b/mail.pst" (some "m") 1]
    let r := @resolveGroupsWithGrouping .unix .inOrder items .parentsOnly {} {}
    let run := @finalizeWithMaterializeOpts Unit .unix (loads false) {} () r
    run.2 = .ok 1 ∧ (run.1.resolved.verdict 0).role = .dupOf ∧
      (run.1.resolved.verdict 0).tierOf = none ∧ ¬ @TiersAccounted .unix run.1.resolved := by
  intro degraded items r run
  refine ⟨by decide +kernel, by decide +kernel, by decide +kernel, ?_⟩
  intro haccounted
  have hstats := @TiersAccounted.stats .unix _ haccounted
  exact absurd hstats (by decide +kernel)

end Run

end DedupEngine
