import PstDedupe.DedupEngine.FinalizeWalk
import PstDedupe.DedupEngine.GroupOutcome

/-!
# What a finalize run leaves

The run over all groups, read off the answers it recorded.
-/

namespace DedupEngine

open List Prod

open Rust (RandomState)
open Foundations (ScanPartition setAll usable failures chosen)

variable {σ : Type}

structure ResolvedKeepSet.WellFormed (r : ResolvedKeepSet) : Prop where
  partition : ScanPartition r.groups r.items.length
  verdicts_length : r.verdicts.length = r.items.length
  groupDropped_length : r.groupDropped.length = r.groups.length

def answersIn (asked : List (Nat × Answer)) (group : List Nat) : List (Nat × Answer) :=
  asked.filter fun p => group.contains p.1

structure GroupSettled (opts : MaterializeFinalizeOpts) (r₀ : ResolvedKeepSet) (s : Session σ)
    (gIdx : Nat) (group : List Nat) : Prop where
  /-- With a choice its peer is the unique member, the failed ones are marked and the others are its
  duplicates; a winner without a promotion reason was the only member asked. -/
  chosen_some : ∀ winner answer,
    chosen (completeAnswer opts.promoteOnAttachFail r₀.items) (answersIn s.asked group)
      = some (winner, answer) → s.resolved.groupDropped[gIdx]? = some false ∧ ∃ promoted reason,
      (∀ i ∈ group, s.resolved.verdict i =
        finalVerdict r₀.boundBy (failures (answersIn s.asked group)) winner promoted reason i) ∧
      (reason = none → answersIn s.asked group = [(winner, .ok answer)])
  /-- Without a choice every member failed and the group is dropped. -/
  chosen_none :
    chosen (completeAnswer opts.promoteOnAttachFail r₀.items) (answersIn s.asked group) = none →
    s.resolved.groupDropped[gIdx]? = some true ∧
      ∀ i ∈ group, s.resolved.verdict i = { role := .materializeFailed } ∧
        ∃ e, (i, .error e) ∈ answersIn s.asked group

structure RunInv (c : Client σ) (opts : MaterializeFinalizeOpts) (r₀ : ResolvedKeepSet) (k : Nat)
    (s : Session σ) : Prop where
  groups_eq : s.resolved.groups = r₀.groups
  boundBy_eq : s.resolved.boundBy = r₀.boundBy
  rankCtx_eq : s.resolved.rankCtx = r₀.rankCtx
  policy_eq : s.resolved.policy = r₀.policy
  items_length : s.resolved.items.length = r₀.items.length
  verdicts_length : s.resolved.verdicts.length = r₀.items.length
  groupDropped_length : s.resolved.groupDropped.length = r₀.groups.length
  asked_nodup : (s.asked.map fst).Nodup
  asked_done : ∀ i a, (i, a) ∈ s.asked → ∃ j < k, ∃ g, r₀.groups[j]? = some g ∧ i ∈ g
  asked_answer : ∀ i a, (i, a) ∈ s.asked → ∃ env env', c.materialize env (itemAt r₀.items i).locus = (env', a)
  item_ok : ∀ i answer, (i, .ok answer) ∈ s.asked →
    itemAt s.resolved.items i = mergeSoftFidelity (itemAt r₀.items i) answer
  item_else : ∀ i, (∀ answer, (i, .ok answer) ∉ s.asked) → itemAt s.resolved.items i = itemAt r₀.items i
  settled : ∀ j < k, ∀ g, r₀.groups[j]? = some g → GroupSettled opts r₀ s j g
  delivered : ∃ winners : List (Nat × CanonicalMessage),
    s.delivered = winners.map (fun p => keptMessage r₀.items p.1 p.2) ∧ (winners.map fst).Nodup ∧
      (∀ w answer, (w, answer) ∈ winners → (w, .ok answer) ∈ s.asked) ∧ ∀ i, i ∈ winners.map fst ↔
        (∃ j < k, ∃ g, r₀.groups[j]? = some g ∧ i ∈ g) ∧ (s.resolved.verdict i).role = .unique

section Step

variable [Rust.Target] {c : Client σ} {opts : MaterializeFinalizeOpts} {s s' : Session σ}
  {gIdx : Nat} {group : List Nat}

/-- What the bookkeeping of one group changes, given the choice its answers lead to. -/
structure GroupStep (c : Client σ) (opts : MaterializeFinalizeOpts) (s : Session σ) (gIdx : Nat)
    (group : List Nat) (s' : Session σ) : Prop where
  asked_eq : s'.asked = s.asked ++ (groupRun c opts s group).2
  items_eq : s'.resolved.items = applyAnswers s.resolved.items (groupRun c opts s group).2
  groups_eq : s'.resolved.groups = s.resolved.groups
  boundBy_eq : s'.resolved.boundBy = s.resolved.boundBy
  rankCtx_eq : s'.resolved.rankCtx = s.resolved.rankCtx
  policy_eq : s'.resolved.policy = s.resolved.policy
  chosen_some : ∀ winner answer,
    chosen (completeAnswer opts.promoteOnAttachFail s.resolved.items) (groupRun c opts s group).2
      = some (winner, answer) → s'.delivered = s.delivered ++ [keptMessage s.resolved.items winner answer] ∧
      s'.resolved.groupDropped = s.resolved.groupDropped.set gIdx false ∧ ∃ promoted reason,
        s'.resolved.verdicts = setAll group (finalVerdict s.resolved.boundBy
          (failures (groupRun c opts s group).2) winner promoted reason) s.resolved.verdicts ∧
        (reason = none → (groupRun c opts s group).2 = [(winner, .ok answer)])
  chosen_none :
    chosen (completeAnswer opts.promoteOnAttachFail s.resolved.items) (groupRun c opts s group).2
      = none → s'.delivered = s.delivered ∧ s'.resolved.groupDropped = s.resolved.groupDropped.set gIdx true ∧
      s'.resolved.verdicts = setAll group (fun _ => { role := .materializeFailed }) s.resolved.verdicts

theorem groupStep_of_ok (hne : group ≠ []) (hnodup : group.Nodup)
    (h : finalizeGroup c opts s gIdx group = (s', .ok ())) : GroupStep c opts s gIdx group s' := by
  obtain ⟨_, hwalk⟩ := groupWalk_spec c opts s hnodup
  have hwinner := hwalk.winner_of_nil rfl
  have hmessage := hwalk.message_of_nil rfl
  have hempty : group.isEmpty = false := by simpa using hne
  unfold finalizeGroup at h
  simp only [hempty, Bool.false_eq_true, if_false] at h
  cases hchoice : chosen (completeAnswer opts.promoteOnAttachFail s.resolved.items)
      (groupRun c opts s group).2 with
  | none =>
    rw [hchoice] at hwinner
    rw [show (groupWalk c opts s group).finalWinner = none from hwinner] at h
    cases h
    refine ⟨hwalk.asked_eq, hwalk.items_eq, rfl, rfl, rfl, rfl, ?_, fun _ => ⟨rfl, rfl, rfl⟩⟩
    intro winner answer hsome
    rw [hchoice] at hsome
    cases hsome
  | some p =>
    obtain ⟨winner, answer⟩ := p
    rw [hchoice] at hwinner hmessage
    rw [show (groupWalk c opts s group).finalWinner = some winner from hwinner,
      show (groupWalk c opts s group).acceptedMsg
        = some (keptMessage s.resolved.items winner answer) from hmessage] at h
    simp only at h
    split at h
    · cases h
    · cases h
      refine ⟨hwalk.asked_eq, hwalk.items_eq, rfl, rfl, rfl, rfl, ?_, ?_⟩
      · intro winner' answer' hsome
        rw [hchoice] at hsome
        cases hsome
        refine ⟨rfl, rfl, (groupWalk c opts s group).promoted,
          (groupWalk c opts s group).promoteReason, ?_, ?_⟩
        · show setAll group (finalVerdict _ (groupWalk c opts s group).failed _ _ _) _ = _
          rw [hwalk.failed_eq]
          rfl
        · exact hwalk.log_of_reason_none rfl hchoice
      · intro hnone
        rw [hchoice] at hnone
        cases hnone

end Step

/-! ## The frame of a step -/

section Frame

variable {opts : MaterializeFinalizeOpts} {r₀ : ResolvedKeepSet} {s s' : Session σ}
  {gIdx : Nat} {group : List Nat} {log asked : List (Nat × Answer)} {i : Nat}

theorem verdict_of_setAll {r r' : ResolvedKeepSet} {f : Nat → Verdict}
    (h : r'.verdicts = setAll group f r.verdicts) (hi : i ∈ group) (hlt : i < r.verdicts.length) :
    r'.verdict i = f i := by
  unfold ResolvedKeepSet.verdict
  rw [h, getD_eq_getElem?_getD, Foundations.getElem?_setAll, if_pos ⟨hi, hlt⟩]
  rfl

theorem verdict_of_setAll_ne {r r' : ResolvedKeepSet} {f : Nat → Verdict}
    (h : r'.verdicts = setAll group f r.verdicts) (hi : i ∉ group) : r'.verdict i = r.verdict i := by
  unfold ResolvedKeepSet.verdict
  rw [h, getD_eq_getElem?_getD, Foundations.getElem?_setAll, if_neg fun h' => hi h'.1,
    getD_eq_getElem?_getD]

theorem role_finalVerdict {boundBy : List BoundBy} {failed : List Nat} {winner : Nat}
    {promoted : Bool} {reason : Option PromoteReason} :
    (finalVerdict boundBy failed winner promoted reason i).role = .unique ↔ i = winner ∧ i ∉ failed := by
  unfold finalVerdict
  by_cases hf : i ∈ failed
  · simp [hf]
  · by_cases hw : i = winner
    · subst hw; simp [hf]
    · simp [hf, hw]

theorem completeAnswer_congr {promote : Bool} {items items' : List RecoverableScanItem}
    (h : itemAt items i = itemAt items' i) (answer : CanonicalMessage) :
    completeAnswer promote items i answer = completeAnswer promote items' i answer := by
  unfold completeAnswer keptMessage
  rw [h]

theorem answersIn_append (asked log : List (Nat × Answer)) (group : List Nat) :
    answersIn (asked ++ log) group = answersIn asked group ++ answersIn log group :=
  filter_append ..

theorem answersIn_eq_nil (h : ∀ i a, (i, a) ∈ log → i ∉ group) : answersIn log group = [] := by
  unfold answersIn
  rw [filter_eq_nil_iff]
  rintro ⟨i, a⟩ hmem
  simpa using h i a hmem

theorem answersIn_eq_self (h : ∀ i a, (i, a) ∈ log → i ∈ group) : answersIn log group = log := by
  unfold answersIn
  rw [filter_eq_self]
  rintro ⟨i, a⟩ hmem
  simpa using h i a hmem

theorem GroupSettled.frame (h : GroupSettled opts r₀ s gIdx group)
    (hasked : answersIn s'.asked group = answersIn s.asked group)
    (hdropped : s'.resolved.groupDropped[gIdx]? = s.resolved.groupDropped[gIdx]?)
    (hverdict : ∀ i ∈ group, s'.resolved.verdict i = s.resolved.verdict i) :
    GroupSettled opts r₀ s' gIdx group := by
  constructor
  · intro winner answer hchoice
    rw [hasked] at hchoice ⊢
    obtain ⟨hd, promoted, reason, hv, hr⟩ := h.chosen_some winner answer hchoice
    exact ⟨hdropped.trans hd, promoted, reason, fun i hi => (hverdict i hi).trans (hv i hi), hr⟩
  · intro hchoice
    rw [hasked] at hchoice ⊢
    obtain ⟨hd, hv⟩ := h.chosen_none hchoice
    exact ⟨hdropped.trans hd, fun i hi => ⟨(hverdict i hi).trans (hv i hi).1, (hv i hi).2⟩⟩

end Frame

/-! ## The run -/

section Run

variable [Rust.Target] {c : Client σ} {opts : MaterializeFinalizeOpts} {r₀ : ResolvedKeepSet}
  {s s' : Session σ} {k : Nat} {group : List Nat} {i : Nat}

omit [Rust.Target] in
theorem ResolvedKeepSet.WellFormed.group_lt (hwf : r₀.WellFormed) (hg : r₀.groups[k]? = some group)
    (hi : i ∈ group) : i < r₀.items.length :=
  hwf.partition.lt_of_mem (mem_of_getElem? hg) hi

omit [Rust.Target] in
theorem ResolvedKeepSet.WellFormed.group_nodup (hwf : r₀.WellFormed)
    (hg : r₀.groups[k]? = some group) : group.Nodup :=
  (hwf.partition.ordered group (mem_of_getElem? hg)).imp fun h => Nat.ne_of_lt h

namespace RunInv

omit [Rust.Target] in
theorem not_asked (hwf : r₀.WellFormed) (h : RunInv c opts r₀ k s)
    (hg : r₀.groups[k]? = some group) (hi : i ∈ group) (a : Answer) : (i, a) ∉ s.asked := by
  intro hmem
  obtain ⟨j, hj, g, hgj, hig⟩ := h.asked_done i a hmem
  have := hwf.partition.place_eq_of_mem hgj hg hig hi
  omega

omit [Rust.Target] in
theorem itemAt_eq (hwf : r₀.WellFormed) (h : RunInv c opts r₀ k s)
    (hg : r₀.groups[k]? = some group) (hi : i ∈ group) : itemAt s.resolved.items i = itemAt r₀.items i :=
  h.item_else i fun answer => h.not_asked hwf hg hi (.ok answer)

theorem chosen_eq (hwf : r₀.WellFormed) (h : RunInv c opts r₀ k s)
    (hg : r₀.groups[k]? = some group) :
    chosen (completeAnswer opts.promoteOnAttachFail s.resolved.items) (groupRun c opts s group).2 =
      chosen (completeAnswer opts.promoteOnAttachFail r₀.items) (groupRun c opts s group).2 := by
  apply Foundations.chosen_congr
  intro i answer hmem
  exact completeAnswer_congr (h.itemAt_eq hwf hg (mem_group_of_asked hmem)) answer

theorem answersIn_self (hwf : r₀.WellFormed) (h : RunInv c opts r₀ k s)
    (hg : r₀.groups[k]? = some group) (hstep : GroupStep c opts s k group s') :
    answersIn s'.asked group = (groupRun c opts s group).2 := by
  rw [hstep.asked_eq, answersIn_append, answersIn_eq_nil fun i a hmem hi => h.not_asked hwf hg hi a hmem,
    answersIn_eq_self fun i a hmem => mem_group_of_asked hmem, nil_append]

theorem answersIn_other (hwf : r₀.WellFormed) (hg : r₀.groups[k]? = some group)
    (hstep : GroupStep c opts s k group s') {j : Nat} {g : List Nat} (hj : j < k)
    (hgj : r₀.groups[j]? = some g) : answersIn s'.asked g = answersIn s.asked g := by
  have hdisjoint : ∀ i a, (i, a) ∈ (groupRun c opts s group).2 → i ∉ g := by
    intro i a hmem hig
    have := hwf.partition.place_eq_of_mem hgj hg hig (mem_group_of_asked hmem)
    omega
  rw [hstep.asked_eq, answersIn_append, answersIn_eq_nil hdisjoint, append_nil]

theorem settled_self (hwf : r₀.WellFormed) (h : RunInv c opts r₀ k s)
    (hg : r₀.groups[k]? = some group) (hstep : GroupStep c opts s k group s') :
    GroupSettled opts r₀ s' k group := by
  have hanswers := h.answersIn_self hwf hg hstep
  have hlt : k < s.resolved.groupDropped.length := by
    rw [h.groupDropped_length]
    exact (List.getElem?_eq_some_iff.mp hg).1
  have hverdict : ∀ {f}, s'.resolved.verdicts = setAll group f s.resolved.verdicts →
      ∀ i ∈ group, s'.resolved.verdict i = f i := by
    intro f hf i hi
    apply verdict_of_setAll hf hi
    rw [h.verdicts_length]
    exact hwf.group_lt hg hi
  constructor
  · intro winner answer hchoice
    rw [hanswers] at hchoice ⊢
    obtain ⟨_, hdropped, promoted, reason, hv, hr⟩ :=
      hstep.chosen_some winner answer ((h.chosen_eq hwf hg).trans hchoice)
    rw [h.boundBy_eq] at hv
    exact ⟨by rw [hdropped, getElem?_set_self hlt], promoted, reason, hverdict hv, hr⟩
  · intro hchoice
    rw [hanswers] at hchoice ⊢
    have hchoice' := (h.chosen_eq hwf hg).trans hchoice
    obtain ⟨_, hdropped, hv⟩ := hstep.chosen_none hchoice'
    refine ⟨by rw [hdropped, getElem?_set_self hlt], fun i hi => ⟨hverdict hv i hi, ?_⟩⟩
    exact error_of_groupRun hchoice' hi

theorem items_step (hwf : r₀.WellFormed) (h : RunInv c opts r₀ k s)
    (hg : r₀.groups[k]? = some group) (hstep : GroupStep c opts s k group s') :
    (∀ i answer, (i, .ok answer) ∈ s'.asked →
      itemAt s'.resolved.items i = mergeSoftFidelity (itemAt r₀.items i) answer) ∧
    ∀ i, (∀ answer, (i, .ok answer) ∉ s'.asked) → itemAt s'.resolved.items i = itemAt r₀.items i := by
  rw [hstep.items_eq, hstep.asked_eq]
  constructor
  · intro i answer hmem
    rcases List.mem_append.mp hmem with hold | hnew
    · have hnot : ∀ answer', (i, .ok answer') ∉ (groupRun c opts s group).2 := fun answer' hmem =>
        h.not_asked hwf hg (mem_group_of_asked hmem) _ hold
      rw [itemAt_applyAnswers_of_not_ok hnot, h.item_ok i answer hold]
    · have hi := mem_group_of_asked hnew
      have hlt : i < s.resolved.items.length := by
        rw [h.items_length]
        exact hwf.group_lt hg hi
      rw [itemAt_applyAnswers_of_ok (groupRun_nodup (hwf.group_nodup hg)) hlt hnew, h.itemAt_eq hwf hg hi]
  · intro i hnone
    rw [itemAt_applyAnswers_of_not_ok fun answer hmem =>
      hnone answer (mem_append_right _ hmem)]
    exact h.item_else i fun answer hmem => hnone answer (mem_append_left _ hmem)

theorem verdict_other (hstep : GroupStep c opts s k group s') (hi : i ∉ group) :
    s'.resolved.verdict i = s.resolved.verdict i := by
  cases hchoice : chosen (completeAnswer opts.promoteOnAttachFail s.resolved.items)
      (groupRun c opts s group).2 with
  | none => exact verdict_of_setAll_ne (hstep.chosen_none hchoice).2.2 hi
  | some p =>
    obtain ⟨_, _, promoted, reason, hv, _⟩ := hstep.chosen_some p.1 p.2 hchoice
    exact verdict_of_setAll_ne hv hi

theorem delivered_step (hwf : r₀.WellFormed) (h : RunInv c opts r₀ k s)
    (hg : r₀.groups[k]? = some group) (hstep : GroupStep c opts s k group s') :
    ∃ winners : List (Nat × CanonicalMessage),
      s'.delivered = winners.map (fun p => keptMessage r₀.items p.1 p.2) ∧ (winners.map fst).Nodup ∧
        (∀ w answer, (w, answer) ∈ winners → (w, .ok answer) ∈ s'.asked) ∧ ∀ i, i ∈ winners.map fst ↔
          (∃ j < k + 1, ∃ g, r₀.groups[j]? = some g ∧ i ∈ g) ∧ (s'.resolved.verdict i).role = .unique := by
  obtain ⟨winners, hdelivered, hnodup, hasked, hunique⟩ := h.delivered
  have hsettled := h.settled_self hwf hg hstep
  have hanswers := h.answersIn_self hwf hg hstep
  have hold : ∀ i, i ∉ group →
      ((∃ j < k + 1, ∃ g, r₀.groups[j]? = some g ∧ i ∈ g) ∧ (s'.resolved.verdict i).role = .unique ↔
        i ∈ winners.map fst) := by
    intro i hi
    rw [verdict_other hstep hi, hunique i]
    constructor
    · rintro ⟨⟨j, hj, g, hgj, hig⟩, hrole⟩
      refine ⟨⟨j, ?_, g, hgj, hig⟩, hrole⟩
      rcases Nat.lt_succ_iff_lt_or_eq.mp hj with hlt | rfl
      · exact hlt
      · obtain rfl := Option.some.inj (hg.symm.trans hgj)
        exact absurd hig hi
    · rintro ⟨⟨j, hj, g, hgj, hig⟩, hrole⟩
      exact ⟨⟨j, by omega, g, hgj, hig⟩, hrole⟩
  have hnew : ∀ i ∈ group, i ∉ winners.map fst := by
    intro i hi hmem
    obtain ⟨⟨j, hj, g, hgj, hig⟩, _⟩ := (hunique i).mp hmem
    have := hwf.partition.place_eq_of_mem hgj hg hig hi
    omega
  cases hchoice : chosen (completeAnswer opts.promoteOnAttachFail s.resolved.items)
      (groupRun c opts s group).2 with
  | none =>
    refine ⟨winners, by rw [(hstep.chosen_none hchoice).1, hdelivered], hnodup, ?_, ?_⟩
    · intro w answer hmem
      rw [hstep.asked_eq]
      exact mem_append_left _ (hasked w answer hmem)
    · intro i
      by_cases hi : i ∈ group
      · have hv := (hsettled.chosen_none (by rw [hanswers, ← h.chosen_eq hwf hg]; exact hchoice)).2 i hi
        rw [hv.1]
        simp [hnew i hi]
      · exact (hold i hi).symm
  | some p =>
    obtain ⟨w, answer⟩ := p
    have hwmem := Foundations.mem_of_chosen hchoice
    have hwg : w ∈ group := mem_group_of_asked hwmem
    obtain ⟨_, promoted, reason, hv, _⟩ := hsettled.chosen_some w answer
      (by rw [hanswers, ← h.chosen_eq hwf hg]; exact hchoice)
    rw [hanswers] at hv
    refine ⟨winners ++ [(w, answer)], ?_, ?_, ?_, ?_⟩
    · rw [(hstep.chosen_some w answer hchoice).1, hdelivered, map_append, map_singleton]
      unfold keptMessage
      rw [h.itemAt_eq hwf hg hwg]
    · rw [map_append, nodup_append]
      refine ⟨hnodup, by simp, ?_⟩
      rintro i hi j hj rfl
      simp only [map_singleton, mem_singleton] at hj
      exact hnew i (hj ▸ hwg) hi
    · intro w' answer' hmem
      rw [hstep.asked_eq]
      rcases List.mem_append.mp hmem with hmem | hmem
      · exact mem_append_left _ (hasked w' answer' hmem)
      · cases List.mem_singleton.mp hmem
        exact mem_append_right _ hwmem
    · intro i
      rw [map_append, mem_append, map_singleton, mem_singleton]
      by_cases hi : i ∈ group
      · rw [hv i hi, role_finalVerdict]
        have hfailed : w ∉ failures (groupRun c opts s group).2 := by
          intro hf
          obtain ⟨e, he⟩ := Foundations.mem_failures.mp hf
          exact Foundations.not_ok_of_error (groupRun_nodup (hwf.group_nodup hg)) he hwmem
        constructor
        · rintro (hmem | rfl)
          · exact absurd hmem (hnew i hi)
          · exact ⟨⟨k, by omega, group, hg, hi⟩, rfl, hfailed⟩
        · rintro ⟨_, rfl, _⟩
          exact Or.inr rfl
      · rw [hold i hi]
        constructor
        · rintro (hmem | rfl)
          · exact hmem
          · exact absurd hwg hi
        · exact Or.inl

theorem step (hwf : r₀.WellFormed) (h : RunInv c opts r₀ k s)
    (hg : r₀.groups[k]? = some group) (hstep : GroupStep c opts s k group s') :
    RunInv c opts r₀ (k + 1) s' := by
  have hdropped : ∃ b, s'.resolved.groupDropped = s.resolved.groupDropped.set k b := by
    cases hchoice : chosen (completeAnswer opts.promoteOnAttachFail s.resolved.items)
        (groupRun c opts s group).2 with
    | none => exact ⟨true, (hstep.chosen_none hchoice).2.1⟩
    | some p => exact ⟨false, (hstep.chosen_some p.1 p.2 hchoice).2.1⟩
  have hlength : s'.resolved.verdicts.length = s.resolved.verdicts.length := by
    cases hchoice : chosen (completeAnswer opts.promoteOnAttachFail s.resolved.items)
        (groupRun c opts s group).2 with
    | none => rw [(hstep.chosen_none hchoice).2.2, Foundations.length_setAll]
    | some p =>
      obtain ⟨_, _, promoted, reason, hv, _⟩ := hstep.chosen_some p.1 p.2 hchoice
      rw [hv, Foundations.length_setAll]
  obtain ⟨b, hdropped⟩ := hdropped
  obtain ⟨hok, helse⟩ := h.items_step hwf hg hstep
  refine
    { groups_eq := hstep.groups_eq.trans h.groups_eq
      boundBy_eq := hstep.boundBy_eq.trans h.boundBy_eq
      rankCtx_eq := hstep.rankCtx_eq.trans h.rankCtx_eq
      policy_eq := hstep.policy_eq.trans h.policy_eq
      items_length := by rw [hstep.items_eq, length_applyAnswers, h.items_length]
      verdicts_length := hlength.trans h.verdicts_length
      groupDropped_length := by rw [hdropped, length_set, h.groupDropped_length]
      asked_nodup := ?_
      asked_done := ?_
      asked_answer := ?_
      item_ok := hok
      item_else := helse
      settled := ?_
      delivered := h.delivered_step hwf hg hstep }
  · rw [hstep.asked_eq, map_append, nodup_append]
    refine ⟨h.asked_nodup, groupRun_nodup (hwf.group_nodup hg), ?_⟩
    rintro i hi j hj rfl
    obtain ⟨⟨_, a⟩, hold, rfl⟩ := List.mem_map.mp hi
    obtain ⟨⟨_, a'⟩, hnew, heq⟩ := List.mem_map.mp hj
    simp only at heq
    subst heq
    exact h.not_asked hwf hg (mem_group_of_asked hnew) a hold
  · intro i a hmem
    rw [hstep.asked_eq] at hmem
    rcases List.mem_append.mp hmem with hold | hnew
    · obtain ⟨j, hj, g, hgj, hig⟩ := h.asked_done i a hold
      exact ⟨j, by omega, g, hgj, hig⟩
    · exact ⟨k, by omega, group, hg, mem_group_of_asked hnew⟩
  · intro i a hmem
    rw [hstep.asked_eq] at hmem
    rcases List.mem_append.mp hmem with hold | hnew
    · exact h.asked_answer i a hold
    · rw [← h.itemAt_eq hwf hg (mem_group_of_asked hnew)]
      have hask : ∃ env env', askPeer c s.resolved.items env i = (env', a) :=
        Foundations.exists_ask_of_asked hnew
      exact hask
  · intro j hj g hgj
    rcases Nat.lt_succ_iff_lt_or_eq.mp hj with hlt | rfl
    · apply (h.settled j hlt g hgj).frame (answersIn_other hwf hg hstep hlt hgj)
      · rw [hdropped, getElem?_set_ne (by omega)]
      · intro i hi
        apply verdict_other hstep
        intro hig
        have := hwf.partition.place_eq_of_mem hgj hg hi hig
        omega
    · obtain rfl := Option.some.inj (hg.symm.trans hgj)
      exact h.settled_self hwf hg hstep

omit [Rust.Target] in
theorem start (hwf : r₀.WellFormed) (env : σ) : RunInv c opts r₀ 0 (.start env r₀) where
  groups_eq := rfl
  boundBy_eq := rfl
  rankCtx_eq := rfl
  policy_eq := rfl
  items_length := rfl
  verdicts_length := hwf.verdicts_length
  groupDropped_length := hwf.groupDropped_length
  asked_nodup := nodup_nil
  asked_done := by
    intro i a h
    cases h
  asked_answer := by
    intro i a h
    cases h
  item_ok := by
    intro i answer h
    cases h
  item_else := fun i _ => rfl
  settled := fun j hj => absurd hj (Nat.not_lt_zero j)
  delivered := by
    refine ⟨[], rfl, nodup_nil, ?_, ?_⟩
    · intro w answer h
      cases h
    · intro i
      simp

end RunInv

theorem runInv_finalizeGroups (hwf : r₀.WellFormed) : ∀ (groups : List (List Nat)) (k : Nat)
    (s s' : Session σ), r₀.groups.drop k = groups → RunInv c opts r₀ k s →
      finalizeGroups c opts k groups s = (s', .ok ()) → RunInv c opts r₀ (k + groups.length) s' := by
  intro groups
  induction groups with
  | nil =>
    intro k s s' _ h hrun
    cases hrun
    exact h
  | cons group groups ih =>
    intro k s s' hdrop h hrun
    have hg : r₀.groups[k]? = some group := by
      rw [← head?_drop, hdrop]
      rfl
    have hrest : r₀.groups.drop (k + 1) = groups := by
      rw [← drop_drop, hdrop]
      rfl
    unfold finalizeGroups at hrun
    split at hrun
    · rename_i s₁ hstep
      have hne := hwf.partition.nonempty group (mem_of_getElem? hg)
      have hinv := h.step hwf hg (groupStep_of_ok hne (hwf.group_nodup hg) hstep)
      rw [length_cons, Nat.add_comm groups.length, ← Nat.add_assoc]
      exact ih (k + 1) s₁ s' hrest hinv hrun
    · cases hrun

theorem runInv_finalize (hwf : r₀.WellFormed) {env : σ} {count : Nat}
    (h : finalizeWithMaterializeOpts c opts env r₀ = (s, .ok count)) :
    RunInv c opts r₀ r₀.groups.length s := by
  unfold finalizeWithMaterializeOpts at h
  split at h
  · rename_i s' hrun
    cases h
    have hinv := runInv_finalizeGroups hwf r₀.groups 0 _ _ (drop_zero ..) (.start hwf env) hrun
    rwa [Nat.zero_add] at hinv
  · cases h

theorem finalize_returns (c : Client σ) (opts : MaterializeFinalizeOpts) (env : σ)
    (hwf : r₀.WellFormed) (hwin : ∀ env msg, ∃ env', c.onWinner env msg = (env', .ok ())) :
    ∃ s count, finalizeWithMaterializeOpts c opts env r₀ = (s, .ok count) := by
  have hgroup : ∀ (s : Session σ) gIdx (group : List Nat), group.Nodup →
      ∃ s', finalizeGroup c opts s gIdx group = (s', .ok ()) := by
    intro s gIdx group hnodup
    obtain ⟨_, hwalk⟩ := groupWalk_spec c opts s hnodup
    have hwinner := hwalk.winner_of_nil rfl
    have hmessage := hwalk.message_of_nil rfl
    unfold finalizeGroup
    by_cases hempty : group.isEmpty = true
    · exact ⟨s, by rw [if_pos hempty]⟩
    · rw [if_neg hempty]
      cases hchoice : chosen (completeAnswer opts.promoteOnAttachFail s.resolved.items)
          (groupRun c opts s group).2 with
      | none =>
        rw [hchoice] at hwinner
        simp only [show (groupWalk c opts s group).finalWinner = none from hwinner]
        exact ⟨_, rfl⟩
      | some p =>
        rw [hchoice] at hwinner hmessage
        obtain ⟨env', hok⟩ := hwin (groupWalk c opts s group).env
          (keptMessage s.resolved.items p.1 p.2)
        simp only [show (groupWalk c opts s group).finalWinner = some p.1 from hwinner,
          show (groupWalk c opts s group).acceptedMsg
            = some (keptMessage s.resolved.items p.1 p.2) from hmessage, hok]
        exact ⟨_, rfl⟩
  have hgroups : ∀ (groups : List (List Nat)) gIdx (s : Session σ), (∀ g ∈ groups, g.Nodup) →
      ∃ s', finalizeGroups c opts gIdx groups s = (s', .ok ()) := by
    intro groups
    induction groups with
    | nil => exact fun gIdx s _ => ⟨s, rfl⟩
    | cons group groups ih =>
      intro gIdx s hnodup
      obtain ⟨s₁, h₁⟩ := hgroup s gIdx group (hnodup group (mem_cons_self ..))
      obtain ⟨s', h'⟩ := ih (gIdx + 1) s₁ fun g hg => hnodup g (mem_cons_of_mem _ hg)
      refine ⟨s', ?_⟩
      unfold finalizeGroups
      rw [h₁]
      exact h'
  obtain ⟨s, hs⟩ := hgroups r₀.groups 0 (.start env r₀) fun g hg =>
    (hwf.partition.ordered g hg).imp fun h => Nat.ne_of_lt h
  refine ⟨s, s.materializedCount, ?_⟩
  unfold finalizeWithMaterializeOpts
  rw [hs]

end Run

end DedupEngine
