import PstDedupe.DedupEngine.FinalizeRun

/-!
# Keep-sets over whole runs

`resolveGroupsWithGrouping` builds vectors that fit together, and a finalize run keeps them so, also
one that the winner callback ended.
-/

namespace DedupEngine

open List Prod

open Rust (RandomState)
open Foundations (setAll failures chosen)

variable {σ : Type}

structure SameShape (r r' : ResolvedKeepSet) : Prop where
  groups_eq : r'.groups = r.groups
  items_length : r'.items.length = r.items.length
  verdicts_length : r'.verdicts.length = r.verdicts.length
  groupDropped_length : r'.groupDropped.length = r.groupDropped.length

theorem SameShape.trans {r r' r'' : ResolvedKeepSet} (h : SameShape r r') (h' : SameShape r' r'') :
    SameShape r r'' where
  groups_eq := h'.groups_eq.trans h.groups_eq
  items_length := h'.items_length.trans h.items_length
  verdicts_length := h'.verdicts_length.trans h.verdicts_length
  groupDropped_length := h'.groupDropped_length.trans h.groupDropped_length

theorem ResolvedKeepSet.WellFormed.of_sameShape {r r' : ResolvedKeepSet} (hwf : r.WellFormed)
    (h : SameShape r r') : r'.WellFormed where
  partition := by
    rw [h.groups_eq, h.items_length]
    exact hwf.partition
  verdicts_length := by rw [h.verdicts_length, h.items_length, hwf.verdicts_length]
  groupDropped_length := by rw [h.groupDropped_length, h.groups_eq, hwf.groupDropped_length]

theorem length_items_walkPeers (c : Client σ) (promote : Bool) (total : Nat) (peers : List Nat) :
    ∀ (attempt : Nat) (w : Walk σ),
      (walkPeers c promote total attempt peers w).items.length = w.items.length := by
  induction peers with
  | nil => exact fun _ _ => rfl
  | cons idx rest ih =>
    intro attempt w
    unfold walkPeers
    simp only
    split
    · split
      · rw [ih, length_set]
      · split
        · split <;> exact length_set
        · exact length_set
    · rw [ih]

theorem items_fallback (w : Walk σ) : w.fallback.items = w.items := by
  unfold Walk.fallback
  split <;> rfl

section Runs

variable [Rust.Target]

theorem sameShape_finalizeGroup (c : Client σ) (opts : MaterializeFinalizeOpts) (s : Session σ)
    (gIdx : Nat) (group : List Nat) : SameShape s.resolved (finalizeGroup c opts s gIdx group).1.resolved := by
  have hitems : (groupWalk c opts s group).items.length = s.resolved.items.length := by
    unfold groupWalk
    rw [items_fallback, length_items_walkPeers]
  unfold finalizeGroup
  split
  · exact ⟨rfl, rfl, rfl, rfl⟩
  · simp only
    split
    · split
      · exact ⟨rfl, hitems, rfl, rfl⟩
      · split
        · exact ⟨rfl, hitems, rfl, rfl⟩
        · exact ⟨rfl, hitems, Foundations.length_setAll .., length_set⟩
    · exact ⟨rfl, hitems, Foundations.length_setAll .., length_set⟩

theorem sameShape_finalizeGroups (c : Client σ) (opts : MaterializeFinalizeOpts)
    (groups : List (List Nat)) : ∀ (gIdx : Nat) (s : Session σ),
      SameShape s.resolved (finalizeGroups c opts gIdx groups s).1.resolved := by
  induction groups with
  | nil => exact fun _ _ => ⟨rfl, rfl, rfl, rfl⟩
  | cons group groups ih =>
    intro gIdx s
    have hstep := sameShape_finalizeGroup c opts s gIdx group
    unfold finalizeGroups
    split
    · rename_i s' hrun
      rw [hrun] at hstep
      exact hstep.trans (ih (gIdx + 1) s')
    · rename_i s' e hrun
      rw [hrun] at hstep
      exact hstep

theorem sameShape_finalize (c : Client σ) (opts : MaterializeFinalizeOpts) (env : σ)
    (r : ResolvedKeepSet) : SameShape r (finalizeWithMaterializeOpts c opts env r).1.resolved := by
  have hstart : SameShape r (Session.start env r).resolved := ⟨rfl, rfl, rfl, rfl⟩
  have hrun := hstart.trans (sameShape_finalizeGroups c opts r.groups 0 (.start env r))
  unfold finalizeWithMaterializeOpts
  split
  · rename_i s hs
    rw [hs] at hrun
    exact hrun
  · rename_i s e hs
    rw [hs] at hrun
    exact hrun

variable [RandomState]

theorem length_verdicts_resolve (items : List RecoverableScanItem) (familyPolicy : FamilyPolicy)
    (rankCtx : RankContext) (groupingCtx : GroupingContext) :
    (resolveGroupsWithGrouping items familyPolicy rankCtx groupingCtx).verdicts.length
      = items.length := by
  have hfold : ∀ (step : List Verdict → List Nat × Option Nat → List Verdict)
      (pairs : List (List Nat × Option Nat))
      (verdicts : List Verdict), (∀ vs p, (step vs p).length = vs.length) →
      (pairs.foldl step verdicts).length = verdicts.length := by
    intro step pairs verdicts hstep
    induction pairs generalizing verdicts with
    | nil => rfl
    | cons p pairs ih => rw [foldl_cons, ih, hstep]
  refine (hfold _ _ _ fun vs p => ?_).trans length_replicate
  split
  · exact Foundations.length_setAll ..
  · rfl

theorem wellFormed_resolve (items : List RecoverableScanItem) (familyPolicy : FamilyPolicy)
    (rankCtx : RankContext) (groupingCtx : GroupingContext) :
    (resolveGroupsWithGrouping items familyPolicy rankCtx groupingCtx).WellFormed where
  partition := groupCandidates_partition groupingCtx items
  verdicts_length := length_verdicts_resolve ..
  groupDropped_length := length_replicate

/-- The keep-sets there are: what groups resolve to, and what a finalize run makes of one, whatever
its callbacks answer and however it ends. -/
inductive ResolvedKeepSet.Reached : ResolvedKeepSet → Prop
  | resolve (items : List RecoverableScanItem) (familyPolicy : FamilyPolicy) (rankCtx : RankContext)
      (groupingCtx : GroupingContext) :
      Reached (resolveGroupsWithGrouping items familyPolicy rankCtx groupingCtx)
  | finalize {r : ResolvedKeepSet} {σ : Type} (c : Client σ) (opts : MaterializeFinalizeOpts)
      (env : σ) (h : Reached r) : Reached (finalizeWithMaterializeOpts c opts env r).1.resolved

theorem ResolvedKeepSet.Reached.wellFormed {r : ResolvedKeepSet} (h : r.Reached) : r.WellFormed := by
  induction h with
  | resolve items familyPolicy rankCtx groupingCtx => exact wellFormed_resolve ..
  | finalize c opts env _ ih => exact ih.of_sameShape (sameShape_finalize c opts env _)

end Runs

/-- A group without a winner: every member was asked and failed hard, and the group is dropped. -/
structure GroupLost (s : Session σ) (gIdx : Nat) (group : List Nat) : Prop where
  failed : ∀ i ∈ group, ∃ e, (i, .error e) ∈ s.asked
  role : ∀ i ∈ group, (s.resolved.verdict i).role = .materializeFailed
  dropped : s.resolved.groupDropped[gIdx]? = some true

/-- The group has this one winner, and those whose loading failed are marked as such. -/
structure GroupWon (s : Session σ) (gIdx : Nat) (group : List Nat) (winner : Nat) : Prop where
  mem : winner ∈ group
  unique : ∀ i ∈ group, (s.resolved.verdict i).role = .unique ↔ i = winner
  winnerOf : ∀ i ∈ group, (s.resolved.verdict i).role = .dupOf → (s.resolved.verdict i).winnerOf = some winner
  failed : ∀ i ∈ group, (s.resolved.verdict i).role = .materializeFailed ↔ ∃ e, (i, .error e) ∈ s.asked
  dropped : s.resolved.groupDropped[gIdx]? = some false

section Verdicts

variable {boundBy : List BoundBy} {failed : List Nat} {winner i : Nat} {promoted : Bool}
  {reason : Option PromoteReason}

theorem winnerOf_finalVerdict :
    (finalVerdict boundBy failed winner promoted reason i).winnerOf = some winner := by
  unfold finalVerdict
  split
  · rfl
  · split <;> rfl

theorem role_finalVerdict_failed :
    (finalVerdict boundBy failed winner promoted reason i).role = .materializeFailed ↔ i ∈ failed := by
  unfold finalVerdict
  split
  · rename_i h
    simpa using h
  · rename_i h
    split <;> simpa using h

theorem role_finalVerdict_dupOf :
    (finalVerdict boundBy failed winner promoted reason i).role = .dupOf ↔ i ≠ winner ∧ i ∉ failed := by
  unfold finalVerdict
  split
  · rename_i h
    simpa using fun _ => h
  · rename_i h
    split
    · rename_i hw
      simp [hw]
    · rename_i hw
      simpa [hw] using h

theorem tierOf_finalVerdict (hwinner : i ≠ winner) (hfailed : i ∉ failed) :
    (finalVerdict boundBy failed winner promoted reason i).tierOf = tierOfBound boundBy i := by
  unfold finalVerdict
  rw [if_neg (by simpa using hfailed), if_neg hwinner]

end Verdicts

theorem mem_answersIn {asked : List (Nat × Answer)} {group : List Nat} {i : Nat} {a : Answer} :
    (i, a) ∈ answersIn asked group ↔ (i, a) ∈ asked ∧ i ∈ group := by
  simp [answersIn]

theorem nodup_answersIn {asked : List (Nat × Answer)} (h : (asked.map fst).Nodup)
    (group : List Nat) : ((answersIn asked group).map fst).Nodup :=
  h.sublist (List.filter_sublist.map _)

def TierToken (tier : Option String) : Prop :=
  tier = some "message_id" ∨ tier = some "content_hash" ∨ tier = some "content_hash_strong"

instance (tier : Option String) : Decidable (TierToken tier) :=
  inferInstanceAs (Decidable (_ ∨ _))

section Conservation

variable [Rust.Target] {c : Client σ} {opts : MaterializeFinalizeOpts} {r₀ r : ResolvedKeepSet}
  {s : Session σ}

omit [Rust.Target] in
theorem GroupSettled.lost_or_won {gIdx : Nat} {group : List Nat}
    (h : GroupSettled opts r₀ s gIdx group) (hnodup : (s.asked.map fst).Nodup) :
    GroupLost s gIdx group ∨ ∃ winner, GroupWon s gIdx group winner := by
  cases hchoice : chosen (completeAnswer opts.promoteOnAttachFail r₀.items)
      (answersIn s.asked group) with
  | none =>
    obtain ⟨hdropped, hall⟩ := h.chosen_none hchoice
    refine Or.inl ⟨?_, ?_, hdropped⟩
    · intro i hi
      obtain ⟨e, he⟩ := (hall i hi).2
      exact ⟨e, (mem_answersIn.mp he).1⟩
    · intro i hi
      rw [(hall i hi).1]
  | some p =>
    obtain ⟨winner, answer⟩ := p
    obtain ⟨hdropped, promoted, reason, hverdict, _⟩ := h.chosen_some winner answer hchoice
    have hok := Foundations.mem_of_chosen hchoice
    have hfailed : ∀ i ∈ group, i ∈ failures (answersIn s.asked group) ↔ ∃ e, (i, .error e) ∈ s.asked := by
      intro i hi
      rw [Foundations.mem_failures]
      simp only [mem_answersIn, hi, and_true]
    have hwinner : winner ∉ failures (answersIn s.asked group) := by
      intro hmem
      obtain ⟨e, he⟩ := Foundations.mem_failures.mp hmem
      exact Foundations.not_ok_of_error (nodup_answersIn hnodup group) he hok
    refine Or.inr ⟨winner, (mem_answersIn.mp hok).2, ?_, ?_, ?_, hdropped⟩
    · intro i hi
      rw [hverdict i hi, role_finalVerdict]
      constructor
      · exact fun h => h.1
      · rintro rfl
        exact ⟨rfl, hwinner⟩
    · intro i hi _
      rw [hverdict i hi, winnerOf_finalVerdict]
    · intro i hi
      rw [hverdict i hi, role_finalVerdict_failed, hfailed i hi]

omit [Rust.Target] in
theorem tallyGroup_counts (stats : KeepSetStats) (group : List Nat) : let t := r.tallyGroup stats group
    t.recoverable = stats.recoverable ∧ t.unique = stats.unique ∧
      t.duplicates = stats.duplicates ∧ t.materializeFailed = stats.materializeFailed ∧
      t.tier1Dups + t.tier2Dups = stats.tier1Dups + stats.tier2Dups := by
  unfold ResolvedKeepSet.tallyGroup
  simp only
  repeat' split
  all_goals exact ⟨rfl, rfl, rfl, rfl, rfl⟩

omit [Rust.Target] in
theorem tallyItem_counts (stats : KeepSetStats) (i : Nat) : let t := r.tallyItem stats i
    let v := r.verdict i
    t.recoverable = stats.recoverable ∧ t.unique = stats.unique + (if v.role = .unique then 1 else 0) ∧
      t.duplicates = stats.duplicates + (if v.role = .dupOf then 1 else 0) ∧
      t.materializeFailed = stats.materializeFailed + (if v.role = .materializeFailed then 1 else 0) ∧
      t.tier1Dups + t.tier2Dups = stats.tier1Dups + stats.tier2Dups +
        (if v.role = .dupOf ∧ TierToken v.tierOf then 1 else 0) := by
  unfold ResolvedKeepSet.tallyItem TierToken
  cases hrole : (r.verdict i).role with
  | unique =>
    simp only [hrole, reduceCtorEq, if_true, if_false, false_and, Nat.add_zero]
    -- degraded, promoted, promotion reason, recoverable items: none of them is a role counter
    repeat' split
    all_goals exact ⟨rfl, rfl, rfl, rfl, rfl⟩
  | dupOf =>
    simp only [hrole]
    split
    · rename_i h
      simp [h]
      omega
    · rename_i h
      split
      · rename_i h'
        simp [h, h']
        omega
      · rename_i h'
        simp [h, h']
  | materializeFailed => simp [hrole]

omit [Rust.Target] in
theorem count_keepSetStats (r : ResolvedKeepSet) (count : KeepSetStats → Nat) (p : Nat → Bool)
    (hgroup : ∀ t g, count (r.tallyGroup t g) = count t)
    (hitem : ∀ t i, count (r.tallyItem t i) = count t + if p i then 1 else 0)
    (hstats : ∀ t grouping, count { t with grouping := grouping } = count t) : count r.keepSetStats = count {
        recoverable := r.items.length
        groups := r.groups.length
        groupsDroppedMaterialize := r.groupDropped.count true } + (range r.items.length).countP p := by
  have hgroups : ∀ t, count (r.groups.foldl r.tallyGroup t) = count t := by
    intro t
    rw [Foundations.foldl_counter r.tallyGroup count (fun _ => false) (by simp [hgroup])]
    simp
  unfold ResolvedKeepSet.keepSetStats
  rw [hstats, Foundations.foldl_counter r.tallyItem count p hitem, hgroups]

omit [Rust.Target] in
theorem roles_sum_keepSetStats (r : ResolvedKeepSet) :
    r.keepSetStats.unique + r.keepSetStats.duplicates + r.keepSetStats.materializeFailed
      = r.keepSetStats.recoverable := by
  have hrecoverable : r.keepSetStats.recoverable = r.items.length := by
    rw [count_keepSetStats r KeepSetStats.recoverable (fun _ => false)
      (fun t g => (tallyGroup_counts t g).1) (fun t i => (tallyItem_counts t i).1) fun _ _ => rfl]
    simp
  have hroles := count_keepSetStats r (fun t => t.unique + t.duplicates + t.materializeFailed)
    (fun _ => true) ?_ ?_ fun _ _ => rfl
  · rw [countP_true, length_range] at hroles
    rw [hrecoverable]
    exact hroles.trans (Nat.zero_add _)
  · intro t g
    obtain ⟨_, hu, hd, hf, _⟩ := tallyGroup_counts (r := r) t g
    simp only [hu, hd, hf]
  · intro t i
    obtain ⟨_, hu, hd, hf, _⟩ := tallyItem_counts (r := r) t i
    simp only [hu, hd, hf, if_true]
    cases (r.verdict i).role <;> simp <;> omega

/-- What is materialized is the message that was asked for. -/
def Client.Faithful (c : Client σ) : Prop :=
  ∀ env locus env' msg, c.materialize env locus = (env', .ok msg) → msg.locus = locus

/-- The client takes every winner. -/
def Client.Accepts (c : Client σ) : Prop := ∀ env msg, ∃ env', c.onWinner env msg = (env', .ok ())

omit [Rust.Target] in
theorem RunInv.winners (hwf : r₀.WellFormed) (h : RunInv c opts r₀ r₀.groups.length s) :
    ∃ winners : List Nat, winners.Nodup ∧ (∀ i, i ∈ winners ↔
        i < s.resolved.items.length ∧ (s.resolved.verdict i).role = .unique) ∧
      s.delivered.length = winners.length ∧ (c.Faithful →
        s.delivered.map CanonicalMessage.locus = winners.map fun i => (s.resolved.item i).locus) := by
  obtain ⟨answers, hdelivered, hnodup, hasked, hunique⟩ := h.delivered
  refine ⟨answers.map fst, hnodup, ?_, by rw [hdelivered, length_map, length_map], ?_⟩
  · intro i
    rw [hunique i, h.items_length]
    constructor
    · rintro ⟨⟨k, _, g, hg, hi⟩, hrole⟩
      exact ⟨hwf.group_lt hg hi, hrole⟩
    · rintro ⟨hlt, hrole⟩
      obtain ⟨g, hg, hi⟩ := hwf.partition.exists_mem hlt
      obtain ⟨k, hk⟩ := List.mem_iff_getElem?.mp hg
      exact ⟨⟨k, (List.getElem?_eq_some_iff.mp hk).1, g, hk, hi⟩, hrole⟩
  · intro hfaithful
    rw [hdelivered, List.map_map, List.map_map]
    apply map_congr_left
    rintro ⟨w, answer⟩ hmem
    have hok := hasked w answer hmem
    obtain ⟨env, env', hask⟩ := h.asked_answer w _ hok
    show answer.locus = (itemAt s.resolved.items w).locus
    rw [h.item_ok w answer hok, mergeSoftFidelity_locus, hfaithful _ _ _ _ hask]

/-- **Conservation.** Whatever the materializer answers, a run whose winner callback never errors
returns and leaves every group lost or won, has called the callback once for each unique member with
its locus, and has every item counted under one role. -/
theorem finalize_conserves [RandomState] (hr : r.Reached) (c : Client σ) (hc : c.Accepts)
    (opts : MaterializeFinalizeOpts) (env : σ) :
    ∃ s count, finalizeWithMaterializeOpts c opts env r = (s, .ok count) ∧
      (∀ gIdx g, s.resolved.groups[gIdx]? = some g → g ≠ [] →
        GroupLost s gIdx g ∨ ∃ winner, GroupWon s gIdx g winner) ∧ (∃ winners : List Nat, winners.Nodup ∧
        (∀ i, i ∈ winners ↔ i < s.resolved.items.length ∧ (s.resolved.verdict i).role = .unique) ∧
        s.delivered.length = winners.length ∧ (c.Faithful → s.delivered.map CanonicalMessage.locus =
          winners.map fun i => (s.resolved.item i).locus)) ∧ let stats := s.resolved.toKeepSet.stats
      stats.unique + stats.duplicates + stats.materializeFailed = stats.recoverable := by
  have hwf := hr.wellFormed
  obtain ⟨s, count, hrun⟩ := finalize_returns c opts env hwf hc
  have hinv := runInv_finalize hwf hrun
  refine ⟨s, count, hrun, ?_, hinv.winners hwf, roles_sum_keepSetStats s.resolved⟩
  intro gIdx g hg _
  rw [hinv.groups_eq] at hg
  have hsettled := hinv.settled gIdx (List.getElem?_eq_some_iff.mp hg).1 g hg
  exact hsettled.lost_or_won hinv.asked_nodup

def failsFirst : Client Nat where
  materialize calls locus :=
    (calls + 1, if calls = 0 then .error (.hard "unreadable") else .ok { locus := locus })
  onWinner calls _ := (calls, .ok ())

omit [Rust.Target] in
theorem finalize_conserves_failsFirst :
    let items := [sampleItem "/a/mail.pst" (some "m") 1, sampleItem "/b/mail.pst" (some "m") 1]
    let r := @resolveGroupsWithGrouping .unix .inOrder items .parentsOnly {} {}
    ∃ s count, @finalizeWithMaterializeOpts Nat .unix failsFirst {} 0 r = (s, .ok count) ∧
      GroupWon s 0 [0, 1] 1 := by
  intro items r
  have hreached : @ResolvedKeepSet.Reached .unix .inOrder r :=
    @ResolvedKeepSet.Reached.resolve .unix .inOrder items .parentsOnly {} {}
  obtain ⟨s, count, hrun, hgroups, _⟩ := @finalize_conserves Nat .unix r .inOrder hreached failsFirst
    (fun calls _ => ⟨calls, rfl⟩) {} 0
  refine ⟨s, count, hrun, ?_⟩
  have hs : s = (@finalizeWithMaterializeOpts Nat .unix failsFirst {} 0 r).1 := by rw [hrun]
  have hgroup : s.resolved.groups[0]? = some [0, 1] := by
    rw [hs]
    decide +kernel
  have hrole : (s.resolved.verdict 1).role = .unique := by
    rw [hs]
    decide +kernel
  rcases hgroups 0 [0, 1] hgroup (by decide) with hlost | ⟨winner, hwon⟩
  · rw [hlost.role 1 (by decide)] at hrole
    cases hrole
  · have hwinner : 1 = winner := (hwon.unique 1 (by decide)).mp hrole
    subst hwinner
    exact hwon

end Conservation

end DedupEngine
