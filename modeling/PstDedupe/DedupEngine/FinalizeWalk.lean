import PstDedupe.DedupEngine.KeepSet
import PstDedupe.Foundations.Fallback

/-!
# What the peer walk decides

The walk with its flags, soft-skip stack and two Mode C exits is an ordered fallback: the answers
form the log of `Foundations.askUntil`, and the winner is the log's choice, the first complete
answer or else the first usable one.
-/

namespace DedupEngine

open List Option Prod

open Foundations (askUntil usable failures chosen)

variable {σ : Type}

def askPeer (c : Client σ) (items : List RecoverableScanItem) (env : σ) (idx : Nat) : σ × Answer :=
  c.materialize env (itemAt items idx).locus

def keptMessage (items : List RecoverableScanItem) (idx : Nat) (answer : CanonicalMessage) :
    CanonicalMessage :=
  answer.carry (mergeSoftFidelity (itemAt items idx) answer)

def completeAnswer (promote : Bool) (items : List RecoverableScanItem) (idx : Nat)
    (answer : CanonicalMessage) : Bool :=
  !(promote && isAttachIncomplete (keptMessage items idx answer))

def applyAnswers (items : List RecoverableScanItem) (log : List (Nat × Answer)) : List RecoverableScanItem :=
  log.foldl (fun items p => match p.2 with
    | .ok answer => items.set p.1 (mergeSoftFidelity (itemAt items p.1) answer)
    | .error _ => items) items

def keptUsable (items : List RecoverableScanItem) (log : List (Nat × Answer)) :
    List (Nat × CanonicalMessage) :=
  (usable log).map fun p => (p.1, keptMessage items p.1 p.2)

def firstComplete (promote : Bool) (items : List RecoverableScanItem) (log : List (Nat × Answer)) :
    Option (Nat × CanonicalMessage) :=
  (usable log).find? fun p => completeAnswer promote items p.1 p.2

variable {c : Client σ} {promote : Bool} {items : List RecoverableScanItem}

@[simp] theorem length_applyAnswers (items : List RecoverableScanItem) (log : List (Nat × Answer)) :
    (applyAnswers items log).length = items.length := by
  unfold applyAnswers
  induction log generalizing items with
  | nil => rfl
  | cons p log ih =>
    obtain ⟨idx, a⟩ := p
    cases a with
    | ok answer => rw [foldl_cons, ih, length_set]
    | error e => rw [foldl_cons, ih]

theorem itemAt_set_ne {items : List RecoverableScanItem} {i j : Nat} (x : RecoverableScanItem)
    (h : i ≠ j) : itemAt (items.set i x) j = itemAt items j := by
  unfold itemAt
  rw [getD_eq_getElem?_getD, getD_eq_getElem?_getD, getElem?_set_ne h]

theorem itemAt_set_self {items : List RecoverableScanItem} {i : Nat} (x : RecoverableScanItem)
    (h : i < items.length) : itemAt (items.set i x) i = x := by
  unfold itemAt
  rw [getD_eq_getElem?_getD, getElem?_set_self h]
  rfl

theorem itemAt_applyAnswers_of_not_ok {log : List (Nat × Answer)} {i : Nat}
    (h : ∀ answer, (i, .ok answer) ∉ log) : itemAt (applyAnswers items log) i = itemAt items i := by
  unfold applyAnswers
  induction log generalizing items with
  | nil => rfl
  | cons p log ih =>
    obtain ⟨idx, a⟩ := p
    have ih := fun items => @ih items fun answer hmem => h answer (mem_cons_of_mem _ hmem)
    cases a with
    | ok answer =>
      have hne : idx ≠ i := by
        rintro rfl
        exact h answer (mem_cons_self ..)
      rw [foldl_cons, ih]
      exact itemAt_set_ne _ hne
    | error e => rw [foldl_cons, ih]

theorem itemAt_applyAnswers_of_ok {log : List (Nat × Answer)} {i : Nat} {answer : CanonicalMessage}
    (hnodup : (log.map fst).Nodup) (hi : i < items.length) (h : (i, .ok answer) ∈ log) :
    itemAt (applyAnswers items log) i = mergeSoftFidelity (itemAt items i) answer := by
  induction log generalizing items with
  | nil => cases h
  | cons p log ih =>
    obtain ⟨idx, a⟩ := p
    rw [map_cons, nodup_cons] at hnodup
    rcases List.mem_cons.mp h with heq | hmem
    · cases heq
      have hlater : ∀ answer', (i, .ok answer') ∉ log := fun answer' hmem =>
        hnodup.1 (List.mem_map.mpr ⟨_, hmem, rfl⟩)
      refine (itemAt_applyAnswers_of_not_ok hlater).trans ?_
      exact itemAt_set_self _ hi
    · have hne : idx ≠ i := by
        rintro rfl
        exact hnodup.1 (List.mem_map.mpr ⟨_, hmem, rfl⟩)
      cases a with
      | ok answer' =>
        refine (@ih (items.set idx _) hnodup.2 (by rwa [length_set]) hmem).trans ?_
        rw [itemAt_set_ne _ hne]
      | error e => exact ih hnodup.2 hi hmem

def pick (promote : Bool) (items : List RecoverableScanItem)
    (pending : List (Nat × CanonicalMessage)) (log : List (Nat × Answer)) : Option (Nat × CanonicalMessage) :=
  match firstComplete promote items log with
  | some p => some (p.1, keptMessage items p.1 p.2)
  | none => (pending ++ keptUsable items log).head?

structure Walked (promote : Bool) (items : List RecoverableScanItem) (attempt : Nat) (w : Walk σ)
    (log : List (Nat × Answer)) (w' : Walk σ) : Prop where
  asked_eq : w'.asked = w.asked ++ log
  items_eq : w'.items = applyAnswers w.items log
  failed_eq : w'.failed = w.failed ++ failures log
  hard_eq : w'.hadHardFail = (w.hadHardFail || !(failures log).isEmpty)
  winner_eq : w'.finalWinner = (pick promote items w.softSkipped log).map fst
  message_eq : w'.acceptedMsg = (pick promote items w.softSkipped log).map snd
  skipped_eq : w'.softSkipped = match firstComplete promote items log with
    | some _ => w.softSkipped ++ (keptUsable items log).dropLast
    | none => (w.softSkipped ++ keptUsable items log).tail
  modeC_eq : w'.modeCFallback = ((firstComplete promote items log).isNone &&
    (pick promote items w.softSkipped log).isSome)
  soft_eq : (firstComplete promote items log).isSome = true →
    w'.hadSoftSkip = (w.hadSoftSkip || decide (1 < (usable log).length))
  attempt_eq : (firstComplete promote items log).isSome = true → w'.acceptedAttempt + 1 = attempt + log.length

structure Walk.Open (w : Walk σ) : Prop where
  winner : w.finalWinner = none
  message : w.acceptedMsg = none
  modeC : w.modeCFallback = false

section Cases

variable {w w' : Walk σ} {attempt total idx : Nat} {rest : List Nat} {log : List (Nat × Answer)}
  {answer : CanonicalMessage} {e : MaterializeError} {env : σ}

def Walk.fail (w : Walk σ) (env : σ) (idx : Nat) (e : MaterializeError) : Walk σ :=
  { w with
    env := env
    asked := w.asked ++ [(idx, Except.error e)]
    failed := w.failed ++ [idx]
    hadHardFail := true }

def Walk.hear (w : Walk σ) (env : σ) (idx : Nat) (answer : CanonicalMessage) : Walk σ :=
  { w with
    env := env
    items := w.items.set idx (mergeSoftFidelity (itemAt w.items idx) answer)
    asked := w.asked ++ [(idx, Except.ok answer)] }

def Walk.skip (w : Walk σ) (idx : Nat) (msg : CanonicalMessage) : Walk σ :=
  { w with hadSoftSkip := true, softSkipped := w.softSkipped ++ [(idx, msg)] }

theorem Walked.of_fail (h : Walked promote items (attempt + 1) (w.fail env idx e) log w') :
    Walked promote items attempt w ((idx, .error e) :: log) w' where
  asked_eq := by rw [h.asked_eq]; simp [Walk.fail]
  items_eq := by rw [h.items_eq]; rfl
  failed_eq := by rw [h.failed_eq]; simp [Walk.fail]
  hard_eq := by rw [h.hard_eq]; simp [Walk.fail]
  winner_eq := h.winner_eq
  message_eq := h.message_eq
  skipped_eq := h.skipped_eq
  modeC_eq := h.modeC_eq
  soft_eq := h.soft_eq
  attempt_eq := by
    intro hsome
    rw [h.attempt_eq hsome, length_cons]
    omega

theorem firstComplete_cons_of_incomplete (h : completeAnswer promote items idx answer = false) :
    firstComplete promote items ((idx, .ok answer) :: log) = firstComplete promote items log := by
  unfold firstComplete
  rw [Foundations.usable_ok, find?_cons, h]

theorem pick_cons_of_incomplete (h : completeAnswer promote items idx answer = false)
    (pending : List (Nat × CanonicalMessage)) : pick promote items pending ((idx, .ok answer) :: log) =
      pick promote items (pending ++ [(idx, keptMessage items idx answer)]) log := by
  unfold pick
  rw [firstComplete_cons_of_incomplete h]
  cases firstComplete promote items log with
  | some p => rfl
  | none => simp [keptUsable]

theorem usable_ne_nil_of_firstComplete (h : (firstComplete promote items log).isSome = true) :
    usable log ≠ [] := by
  intro hnil
  unfold firstComplete at h
  rw [hnil] at h
  cases h

theorem Walked.of_skip (hinc : completeAnswer promote items idx answer = false)
    (h : Walked promote items (attempt + 1)
      ((w.hear env idx answer).skip idx (keptMessage items idx answer)) log w') :
    Walked promote items attempt w ((idx, .ok answer) :: log) w' where
  asked_eq := by rw [h.asked_eq]; simp [Walk.skip, Walk.hear]
  items_eq := by rw [h.items_eq]; rfl
  failed_eq := h.failed_eq
  hard_eq := h.hard_eq
  winner_eq := by rw [h.winner_eq, pick_cons_of_incomplete hinc]; rfl
  message_eq := by rw [h.message_eq, pick_cons_of_incomplete hinc]; rfl
  skipped_eq := by
    rw [h.skipped_eq, firstComplete_cons_of_incomplete hinc]
    cases hc : firstComplete promote items log with
    | none => simp [Walk.skip, Walk.hear, keptUsable]
    | some p =>
      have hne : keptUsable items log ≠ [] := by
        simpa [keptUsable] using usable_ne_nil_of_firstComplete (by rw [hc]; rfl)
      have hcons : keptUsable items ((idx, .ok answer) :: log)
          = (idx, keptMessage items idx answer) :: keptUsable items log := rfl
      simp [Walk.skip, Walk.hear, hcons, dropLast_cons_of_ne_nil hne]
  modeC_eq := by
    rw [h.modeC_eq, pick_cons_of_incomplete hinc, firstComplete_cons_of_incomplete hinc]
    rfl
  soft_eq := by
    intro hsome
    rw [firstComplete_cons_of_incomplete hinc] at hsome
    have hpos := length_pos_of_ne_nil (usable_ne_nil_of_firstComplete hsome)
    rw [h.soft_eq hsome]
    simp [Walk.skip, hpos]
  attempt_eq := by
    intro hsome
    rw [firstComplete_cons_of_incomplete hinc] at hsome
    rw [h.attempt_eq hsome, length_cons]
    omega

theorem Walked.accept (hcomplete : completeAnswer promote items idx answer = true)
    (hw : w.Open) : Walked promote items attempt w [(idx, .ok answer)]
      { w.hear env idx answer with
        acceptedAttempt := attempt
        finalWinner := some idx
        acceptedMsg := some (keptMessage items idx answer) } := by
  have hfirst : firstComplete promote items [(idx, .ok answer)] = some (idx, answer) := by
    unfold firstComplete
    rw [Foundations.usable_ok, find?_cons, hcomplete]
  refine ⟨rfl, rfl, ?_, ?_, ?_, ?_, ?_, ?_, ?_, ?_⟩
  · simp [Walk.hear]
  · simp [Walk.hear]
  · simp [pick, hfirst]
  · simp [pick, hfirst]
  · simp [hfirst, Walk.hear, keptUsable]
  · simp [hfirst, Walk.hear, hw.modeC]
  · simp [Walk.hear]
  · simp

theorem Walked.exhausted (hw : w.Open) : Walked promote items attempt w [] w.fallback := by
  have hfirst : firstComplete promote items [] = none := rfl
  unfold Walk.fallback
  rw [hw.winner]
  cases hsoft : w.softSkipped with
  | nil =>
    refine ⟨?_, rfl, ?_, ?_, ?_, ?_, ?_, ?_, ?_, ?_⟩ <;>
      simp [hsoft, hfirst, pick, keptUsable, hw.winner, hw.message, hw.modeC]
  | cons p others =>
    refine ⟨?_, rfl, ?_, ?_, ?_, ?_, ?_, ?_, ?_, ?_⟩ <;>
      simp [hsoft, hfirst, pick, keptUsable]

def Walk.settle (w : Walk σ) (attempt idx : Nat) (msg : CanonicalMessage) : Walk σ :=
  match w.softSkipped with
  | [] => { w with
      modeCFallback := true
      acceptedAttempt := attempt
      finalWinner := some idx
      acceptedMsg := some msg }
  | (firstIdx, firstMsg) :: others => { w with
      modeCFallback := true
      softSkipped := others ++ [(idx, msg)]
      acceptedAttempt := max attempt 1
      finalWinner := some firstIdx
      acceptedMsg := some firstMsg }

theorem Walked.last (hinc : completeAnswer promote items idx answer = false) :
    Walked promote items attempt w [(idx, .ok answer)]
      ((w.hear env idx answer).settle attempt idx (keptMessage items idx answer)) := by
  have hfirst : firstComplete promote items [(idx, .ok answer)] = none := by
    rw [firstComplete_cons_of_incomplete hinc]
    rfl
  have hhear : (w.hear env idx answer).softSkipped = w.softSkipped := rfl
  unfold Walk.settle
  rw [hhear]
  cases hsoft : w.softSkipped with
  | nil | cons _ _ =>
    refine ⟨rfl, rfl, ?_, ?_, ?_, ?_, ?_, ?_, ?_, ?_⟩ <;>
      simp [hsoft, hfirst, pick, keptUsable, Walk.hear]

end Cases

/-- **The walk in terms of its log.** Induction on the peers left; the walk stays open until it
ends, and the items of the peers left are as they were before the walk. -/
theorem walkPeers_spec (c : Client σ) (promote : Bool) (items : List RecoverableScanItem)
    {total : Nat} (peers : List Nat) : ∀ (attempt : Nat) (w : Walk σ), peers.Nodup →
      total = attempt + peers.length → w.Open → (∀ idx ∈ peers, itemAt w.items idx = itemAt items idx) →
      let run := askUntil (askPeer c items) (completeAnswer promote items) w.env peers
      let w' := (walkPeers c promote total attempt peers w).fallback
      w'.env = run.1 ∧ Walked promote items attempt w run.2 w' := by
  induction peers with
  | nil =>
    intro attempt w _ _ hw _
    refine ⟨?_, .exhausted hw⟩
    show w.fallback.env = w.env
    unfold Walk.fallback
    split <;> rfl
  | cons idx rest ih =>
    intro attempt w hnodup htotal hw hitems
    rw [nodup_cons] at hnodup
    rw [length_cons] at htotal
    have hitem := hitems idx (mem_cons_self ..)
    have hrest : ∀ j ∈ rest, itemAt w.items j = itemAt items j := fun j hj =>
      hitems j (mem_cons_of_mem _ hj)
    intro run w'
    cases hask : c.materialize w.env (itemAt items idx).locus with
    | mk env a =>
      cases a with
      | error e =>
        have hrun : run = ((askUntil (askPeer c items) (completeAnswer promote items) env rest).1,
            (idx, .error e) :: (askUntil (askPeer c items) (completeAnswer promote items) env rest).2) := by
          simp only [run, askUntil, askPeer, hask]
        have hw' : w' = (walkPeers c promote total (attempt + 1) rest (w.fail env idx e)).fallback := by
          simp only [w', walkPeers, hitem, hask, Walk.fail]
        rw [hrun, hw']
        obtain ⟨henv, hwalk⟩ := ih (attempt + 1) (w.fail env idx e) hnodup.2 (by omega)
          ⟨hw.winner, hw.message, hw.modeC⟩ hrest
        exact ⟨henv, hwalk.of_fail⟩
      | ok answer =>
        have hkept : answer.carry (mergeSoftFidelity (itemAt items idx) answer)
            = keptMessage items idx answer := rfl
        have hhear : w.hear env idx answer = { w with
            env := env
            items := w.items.set idx (mergeSoftFidelity (itemAt items idx) answer)
            asked := w.asked ++ [(idx, Except.ok answer)] } := by
          unfold Walk.hear
          rw [hitem]
        cases hcomplete : completeAnswer promote items idx answer with
        | true =>
          have hinc : (promote && isAttachIncomplete (keptMessage items idx answer)) = false := by
            unfold completeAnswer at hcomplete
            rwa [Bool.not_eq_true'] at hcomplete
          have hrun : run = (env, [(idx, .ok answer)]) := by
            simp only [run, askUntil, askPeer, hask, hcomplete, if_true]
          have hw' : w' = { w.hear env idx answer with
              acceptedAttempt := attempt
              finalWinner := some idx
              acceptedMsg := some (keptMessage items idx answer) } := by
            simp only [w', walkPeers, hitem, hask, hkept, hinc, Bool.false_and, Bool.false_eq_true,
              if_false, hhear]
            rfl
          rw [hrun, hw']
          exact ⟨rfl, .accept hcomplete hw⟩
        | false =>
          have hinc : promote = true ∧ isAttachIncomplete (keptMessage items idx answer) = true := by
            simpa [completeAnswer] using hcomplete
          have hrun : run = ((askUntil (askPeer c items) (completeAnswer promote items) env rest).1,
              (idx, .ok answer) ::
                (askUntil (askPeer c items) (completeAnswer promote items) env rest).2) := by
            simp only [run, askUntil, askPeer, hask, hcomplete, Bool.false_eq_true, if_false]
          rw [hrun]
          cases rest with
          | nil =>
            have hlast : decide (attempt + 1 < total) = false := by
              rw [decide_eq_false_iff_not]
              simp at htotal
              omega
            have hw' : w' = (w.hear env idx answer).settle attempt idx
                (keptMessage items idx answer) := by
              simp only [w', walkPeers, hitem, hask, hkept, hinc.1, hinc.2, Bool.and_self, hlast,
                Bool.and_false, Bool.false_eq_true, if_false, if_true]
              unfold Walk.settle
              cases hsoft : w.softSkipped <;> simp [hhear, hsoft, Walk.fallback]
            rw [hw']
            refine ⟨?_, .last hcomplete⟩
            unfold Walk.settle
            split <;> rfl
          | cons next rest =>
            have hmore : decide (attempt + 1 < total) = true := by
              rw [decide_eq_true_eq, htotal, length_cons]
              omega
            have hw' : w' = (walkPeers c promote total (attempt + 1) (next :: rest)
                ((w.hear env idx answer).skip idx (keptMessage items idx answer))).fallback := by
              simp only [w']
              rw [walkPeers]
              simp only [hitem, hask, hkept, hinc.1, hinc.2, Bool.and_self, hmore, if_true, hhear, Walk.skip]
            rw [hw']
            obtain ⟨henv, hwalk⟩ := ih (attempt + 1)
              ((w.hear env idx answer).skip idx (keptMessage items idx answer)) hnodup.2
              (by rw [htotal]; omega) ⟨hw.winner, hw.message, hw.modeC⟩ (fun j hj => by
                have hne : idx ≠ j := by
                  rintro rfl
                  exact hnodup.1 hj
                exact (itemAt_set_ne _ hne).trans (hrest j hj))
            exact ⟨henv, hwalk.of_skip hcomplete⟩

theorem pick_nil (log : List (Nat × Answer)) : pick promote items [] log =
      (chosen (completeAnswer promote items) log).map fun p => (p.1, keptMessage items p.1 p.2) := by
  unfold pick chosen
  change _ = ((firstComplete promote items log).or _).map _
  cases firstComplete promote items log with
  | some p => rfl
  | none =>
    rw [none_or, nil_append, keptUsable, head?_map]

section Start

variable {w w' : Walk σ} {attempt : Nat} {log : List (Nat × Answer)}

theorem Walked.winner_of_nil (h : Walked promote items attempt w log w') (hw : w.softSkipped = []) :
    w'.finalWinner = (chosen (completeAnswer promote items) log).map fst := by
  rw [h.winner_eq, hw, pick_nil, Option.map_map]
  rfl

theorem Walked.message_of_nil (h : Walked promote items attempt w log w') (hw : w.softSkipped = []) :
    w'.acceptedMsg = (chosen (completeAnswer promote items) log).map fun p => keptMessage items p.1 p.2 := by
  rw [h.message_eq, hw, pick_nil, Option.map_map]
  rfl

theorem Walked.log_of_reason_none (h : Walked promote items 0 w log w') (hw : w.softSkipped = [])
    {x : Nat} {m : CanonicalMessage} (hchoice : chosen (completeAnswer promote items) log = some (x, m))
    (hreason : w'.promoteReason = none) : log = [(x, .ok m)] := by
  unfold Walk.promoteReason at hreason
  split at hreason
  · cases hreason
  · rename_i hmodeC
    split at hreason
    · split at hreason <;> cases hreason
    · rename_i hpromoted
      have hfirst : (firstComplete promote items log).isSome = true := by
        rw [h.modeC_eq, hw, pick_nil, hchoice] at hmodeC
        simpa [isNone_iff_eq_none, isSome_iff_ne_none] using hmodeC
      have hattempt : w'.acceptedAttempt = 0 := by
        unfold Walk.promoted at hpromoted
        simp only [Bool.or_eq_true, decide_eq_true_eq, not_or] at hpromoted
        omega
      have hlength : log.length = 1 := by
        have := h.attempt_eq hfirst
        omega
      obtain ⟨p, rfl⟩ := List.length_eq_one_iff.mp hlength
      have hmem := Foundations.mem_of_chosen hchoice
      rw [mem_singleton] at hmem
      rw [hmem]

end Start

section Group

variable [Rust.Target] {opts : MaterializeFinalizeOpts} {s : Session σ} {group : List Nat}

def groupRun (c : Client σ) (opts : MaterializeFinalizeOpts) (s : Session σ) (group : List Nat) :
    σ × List (Nat × Answer) :=
  askUntil (askPeer c s.resolved.items) (completeAnswer opts.promoteOnAttachFail s.resolved.items)
    s.env (rankOrder s.resolved.items s.resolved.rankCtx group)

theorem rankOrder_perm (items : List RecoverableScanItem) (ctx : RankContext) (group : List Nat) :
    (rankOrder items ctx group).Perm group :=
  Rust.sortBy_perm _ _

theorem groupWalk_spec (c : Client σ) (opts : MaterializeFinalizeOpts) (s : Session σ)
    (hnodup : group.Nodup) : (groupWalk c opts s group).env = (groupRun c opts s group).1 ∧
      Walked opts.promoteOnAttachFail s.resolved.items 0
        { env := s.env, items := s.resolved.items, asked := s.asked } (groupRun c opts s group).2
        (groupWalk c opts s group) := by
  have hranked : (rankOrder s.resolved.items s.resolved.rankCtx group).Nodup :=
    (rankOrder_perm _ _ _).nodup_iff.mpr hnodup
  exact walkPeers_spec c opts.promoteOnAttachFail s.resolved.items _ 0 _ hranked
    (Nat.zero_add _).symm ⟨rfl, rfl, rfl⟩ fun _ _ => rfl

theorem groupRun_nodup (hnodup : group.Nodup) : ((groupRun c opts s group).2.map fst).Nodup :=
  Foundations.askUntil_nodup ((rankOrder_perm _ _ _).nodup_iff.mpr hnodup)

theorem mem_group_of_asked {i : Nat} {a : Answer} (h : (i, a) ∈ (groupRun c opts s group).2) : i ∈ group :=
  (rankOrder_perm _ _ _).mem_iff.mp (Foundations.mem_peers_of_asked h)

theorem error_of_groupRun
    (h : chosen (completeAnswer opts.promoteOnAttachFail s.resolved.items)
      (groupRun c opts s group).2 = none) {i : Nat} (hi : i ∈ group) :
    ∃ e, (i, .error e) ∈ (groupRun c opts s group).2 := by
  have hall : (groupRun c opts s group).2.map fst
      = rankOrder s.resolved.items s.resolved.rankCtx group := by
    apply Foundations.askUntil_total
    intro j m hok
    have husable : (j, m) ∈ usable (groupRun c opts s group).2 := Foundations.mem_usable.mpr hok
    rw [Foundations.chosen_eq_none_iff.mp h] at husable
    cases husable
  have hmem := (rankOrder_perm s.resolved.items s.resolved.rankCtx group).mem_iff.mpr hi
  rw [← hall] at hmem
  obtain ⟨⟨j, a⟩, hp, rfl⟩ := List.mem_map.mp hmem
  obtain ⟨e, rfl⟩ := Foundations.error_of_chosen_none h hp
  exact ⟨e, hp⟩

end Group

end DedupEngine
