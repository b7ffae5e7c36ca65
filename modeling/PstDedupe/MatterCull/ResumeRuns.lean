import PstDedupe.MatterCull.Resume
import PstDedupe.Rust.Text

/-!
# A cull in many sessions is a cull in one

Whatever pauses, errors and crashes there were, a job that succeeds has the verdicts and the summary
of one undisturbed session, if none of its sessions resumed a cumulative family pass half-way.
-/

namespace MatterCull

open Rust Foundations Prog List

def verdicts (m : Matter) : List (String × Option String × Option String) :=
  m.items.map fun r => (r.id, r.cand.cullStatus, r.cullReasonsJson)

theorem verdicts_eq (m : Matter) :
    verdicts m = m.faces.map fun f => (f.id, f.cand.cullStatus, f.reasonsJson) := by
  unfold verdicts Matter.faces
  rw [map_map]
  rfl

namespace Plan

variable [ReasonsJson] [Chrono] {p : Plan} {call : CullCall} {now : String}

def Overrun (e : CullError) : Prop := ∃ text : String, e = .other text

def GoesOn (r : CullSummary ⊕ CheckpointCursor) : Prop := r.isRight = true

def Succeeds (o : CullOutcome) : Prop := ∃ summary, o = .succeeded summary

theorem itemsLoop_calm (params : CullParams) (rules : CullRules) (presetId presetName : Option String)
    (denist : Option (List String)) (total : Nat) (rest : List CullCandidate) :
    ∀ (i : Nat) (c : CheckpointCursor) (batch : List (String × ItemCullDecision)),
      Calm Overrun GoesOn
        (itemsLoop call params rules presetId presetName denist now total rest i c batch) := by
  induction rest with
  | nil => exact fun i c batch => Calm.pure rfl
  | cons cand rest ih =>
    intro i c batch
    rw [itemsLoop]
    refine Calm.bind Calm.poll fun b hb => ?_
    subst hb
    rw [if_neg Bool.false_ne_true]
    dsimp only
    split
    · split
      · exact Calm.bind Calm.transaction fun _ _ => ih _ _ _
      · exact ih _ _ _
    · exact ih _ _ _

omit [ReasonsJson] [Chrono] in
theorem familyLoop_calm (params : CullParams) (updates : List CullFieldUpdate) (fuel : Nat) :
    ∀ (offset : Nat) (c : CheckpointCursor),
      Calm Overrun GoesOn (familyLoop params updates fuel offset c) := by
  induction fuel with
  | zero => exact fun offset c => Calm.pure rfl
  | succ fuel ih =>
    intro offset c
    rw [familyLoop]
    split
    · refine Calm.bind Calm.poll fun b hb => ?_
      subst hb
      rw [if_neg Bool.false_ne_true]
      exact Calm.bind Calm.transaction fun _ _ => ih _ _
    · exact Calm.pure rfl

theorem itemsPhase_calm (params : CullParams) (rules : CullRules)
    (presetId presetName : Option String) (denist : Option (List String)) (c : CheckpointCursor) :
    Calm Overrun GoesOn (itemsPhase call params rules presetId presetName denist now c) := by
  refine Calm.bind Calm.look fun candidates _ => ?_
  dsimp only
  split
  · exact Calm.fail ⟨_, rfl⟩
  · refine Calm.bind (itemsLoop_calm params rules presetId presetName denist _ _ _ _ _) fun r hr => ?_
    cases r with
    | inl summary => cases hr
    | inr c' => exact Calm.bind Calm.transaction fun _ _ => Calm.pure rfl

omit [Chrono] in
theorem familyPhase_calm (params : CullParams) (rules : CullRules)
    (presetId presetName : Option String) (c : CheckpointCursor) :
    Calm Overrun GoesOn (familyPhase call params rules presetId presetName now c) := by
  refine Calm.bind Calm.look fun m _ => ?_
  dsimp only
  split
  · exact Calm.fail ⟨_, rfl⟩
  · split
    · exact Calm.bind Calm.transaction fun _ _ => Calm.pure rfl
    · exact familyLoop_calm params _ _ _ _

omit [Chrono] in
theorem runFamily_calm (params : CullParams) (rules : CullRules)
    (presetName presetId : Option String) {r : CullSummary ⊕ CheckpointCursor} (hr : GoesOn r) :
    Calm Overrun Succeeds (runFamily call params rules presetName presetId now r) := by
  cases r with
  | inl summary => cases hr
  | inr c =>
    unfold runFamily
    dsimp only
    split
    · refine Calm.bind (familyPhase_calm params rules presetId presetName c) fun r' hr' => ?_
      cases r' with
      | inl summary => cases hr'
      | inr c' => exact Calm.pure ⟨_, rfl⟩
    · exact Calm.bind (Calm.pure (R := fun r' => r' = .inr c) rfl) fun r' hr' => hr' ▸ Calm.pure ⟨_, rfl⟩

theorem runPhases_calm (params : CullParams) (rules : CullRules)
    (presetName presetId : Option String) (denist : Option (List String)) (c : CheckpointCursor) :
    Calm Overrun Succeeds (runPhases call params rules presetName presetId denist now c) := by
  unfold runPhases
  dsimp only
  split
  · exact Calm.bind (itemsPhase_calm params rules presetId presetName denist c) fun r hr =>
      runFamily_calm params rules presetName presetId hr
  · exact Calm.bind (Calm.pure (R := GoesOn) rfl) fun r hr =>
      runFamily_calm params rules presetName presetId hr

theorem runCullInner_calm (now : String) (hserves : Serves call p) (prior : Option CheckpointCursor) :
    Calm Overrun Succeeds (runCullInner call p.params p.rules p.presetName p.presetId now prior) := by
  unfold runCullInner
  rw [hserves.denist]
  refine Calm.bind (R := fun _ => True) (Calm.pure trivial) fun denist _ => ?_
  dsimp only
  split
  · exact Calm.bind Calm.transaction fun _ _ => runPhases_calm _ _ _ _ _ _
  · exact runPhases_calm _ _ _ _ _ _

theorem runs_runCull (now : String)
    (hjson : ∀ reasons, ReasonsJson.fromJson (ReasonsJson.toJson reasons) = some reasons)
    (hserves : Serves call p) {m : Matter} (hnone : m.checkpoint = none)
    (hfaces : m.faces = p.start) :
    ∃ t, Runs (runCull call now) m (.succeeded p.summary) t ∧ t.faces = p.final := by
  have hm : p.Stage m := .fresh hnone (.inl hfaces)
  have hguard : NotHalfway m := fun c hc => by
    rw [hnone] at hc
    cases hc
  obtain ⟨o, t, hrun, ⟨summary, rfl⟩, -, hreached⟩ :=
    (runCullInner_calm now hserves m.checkpoint).runs (runCullInner_ensures hjson hserves hm hguard)
      (fun e t ht hown => by
        obtain ⟨text, rfl⟩ := hown
        cases ht.2 _ rfl)
  obtain ⟨hfinal, rfl⟩ := hreached summary rfl
  refine ⟨t, ?_, hfinal⟩
  refine Runs.bind Runs.look ?_
  rw [hm.resolved hserves]
  refine Runs.bind Runs.pure (Runs.bind Runs.touch ?_)
  have hattempt :
      Runs (attempt (runCullInner call p.params p.rules p.presetName p.presetId now m.checkpoint)) m
      (.ok (.succeeded p.summary)) t := by
    unfold Runs attempt
    rw [show runCullInner call p.params p.rules p.presetName p.presetId now m.checkpoint ⟨m, []⟩ = _ from hrun]
  exact Runs.bind hattempt rfl

end Plan

section

variable [ReasonsJson] [Chrono]

theorem runCull_unserved {call : CullCall} {m : Matter} (now : String) (hnone : m.checkpoint = none)
    (h : ¬ ∃ p : Plan, Plan.Serves call p ∧ p.start = m.faces) :
    Ensures (runCull call now) m (fun o t => t = m ∧ ¬ Plan.Succeeds o) fun _ t => t = m := by
  have hkeyed : (m.faces.map Face.id).Nodup := by
    unfold Matter.faces
    rw [map_map]
    exact m.keyed
  refine Ensures.bind (Ensures.look ?_)
  rw [hnone]
  by_cases hbatch : call.params.batchSize = 0
  · unfold resolveParamsAndRules
    rw [if_pos hbatch]
    exact Ensures.bind (Ensures.fail rfl)
  cases hrules : call.rules with
  | error e =>
    unfold resolveParamsAndRules
    rw [if_neg hbatch, hrules]
    exact Ensures.bind (Ensures.fail rfl)
  | ok resolved =>
    obtain ⟨rules, presetName, presetId⟩ := resolved
    cases hdenist : loadDenist call rules with
    | ok denist =>
      exact absurd ⟨⟨call.params, rules, presetName, presetId, denist, m.faces, hkeyed⟩,
        ⟨rfl, hrules, hbatch, hdenist⟩, rfl⟩ h
    | error e =>
      unfold resolveParamsAndRules
      rw [if_neg hbatch, hrules]
      refine Ensures.bind (Ensures.pure (Ensures.bind (Ensures.touch ?_ fun _ => rfl)))
      have hinner : Ensures (runCullInner call call.params rules presetName presetId now none) m
          (fun _ _ => False) fun x t => t = m ∧ x ≠ .crashed := by
        unfold runCullInner
        rw [hdenist]
        exact Ensures.bind (Ensures.fail ⟨rfl, nofun⟩)
      refine Ensures.bind (Ensures.attempt (hinner.mono (fun _ _ h => h.elim) fun x t hx => ?_))
      obtain ⟨rfl, hx⟩ := hx
      cases x with
      | crashed => exact absurd rfl hx
      | failed e =>
        refine Ensures.bind (Ensures.attempt (Ensures.touch (Ensures.fail rfl) fun x => ?_))
        cases x with
        | failed ae => exact Ensures.fail rfl
        | crashed => rfl

/-- **A job in many sessions is a job in one.** -/
theorem runCull_resumed (hjson : ∀ reasons, ReasonsJson.fromJson (ReasonsJson.toJson reasons) = some reasons)
    (call : CullCall) (start : Matter) (hnew : start.checkpoint = none)
    (sessions : List (String × List Outcome))
    (hguard : Guarded (session (runCull call)) (fun m _ => Plan.NotHalfway m) start sessions)
    (last : String × List Outcome) (hlast : Plan.NotHalfway (sessions.foldl (session (runCull call)) start))
    (summary : CullSummary)
    (hsucceeded : (runCull call last.1 ⟨sessions.foldl (session (runCull call)) start, last.2⟩).1
      = .ok (.succeeded summary)) (now : String) :
    ∃ once rules presetName presetId, Runs (runCull call now) start (.succeeded summary) once ∧
      verdicts (session (runCull call) (sessions.foldl (session (runCull call)) start) last) = verdicts once ∧
      call.rules = .ok (rules, presetName, presetId) ∧
      summary.included + summary.culled
        = (listCullCandidates start rules.roles.processAttachments).length := by
  by_cases hserved : ∃ p : Plan, Plan.Serves call p ∧ p.start = start.faces
  · obtain ⟨p, hserves, hstart⟩ := hserved
    have hstage : p.Stage (sessions.foldl (session (runCull call)) start) :=
      (Along.of_guarded (I := p.Stage) (fun m i hm hc =>
        session_keeps ((Plan.runCull_ensures i.1 hjson hserves hm hc).mono (fun _ _ h => h.1) fun _ _ h => h))
        (.fresh hnew (.inl hstart.symm)) hguard).last
    obtain ⟨hlaststage, hreached⟩ :=
      (Plan.runCull_ensures last.1 hjson hserves hstage hlast).of_ok hsucceeded
    obtain ⟨hfinal, rfl⟩ := hreached summary rfl
    obtain ⟨once, hrun, honce⟩ := Plan.runs_runCull now hjson hserves hnew hstart.symm
    refine ⟨once, p.rules, p.presetName, p.presetId, hrun, ?_, hserves.rules, ?_⟩
    · rw [verdicts_eq, verdicts_eq, honce]
      exact congrArg _ hfinal
    · refine (Plan.included_add_culled (p := p)).trans ?_
      rw [listCullCandidates_eq, length_map, ← hstart]
      unfold Plan.queue Plan.base
      split
      · rw [candidateFaces_map fun f => ?_, length_map]
        unfold Face.cleared
        split
        · exact ⟨none, rfl⟩
        · exact ⟨f.cand.cullStatus, rfl⟩
      · rfl
  · -- such a job never succeeds
    have hkeep : sessions.foldl (session (runCull call)) start = start :=
      (Along.of_step (I := fun m => m = start) (fun m i hm => by
        subst hm
        exact session_keeps ((runCull_unserved i.1 hnew hserved).mono (fun _ _ h => h.1) fun _ _ h => h)) rfl sessions).last
    rw [hkeep] at hsucceeded
    exact absurd ⟨summary, rfl⟩ ((runCull_unserved last.1 hnew hserved).of_ok hsucceeded).2

end

/-- A `serde_json` that is right on reason codes. -/
abbrev ReasonsJson.plain : ReasonsJson := ⟨writeStrings, readStrings⟩

abbrev Chrono.none : Chrono := ⟨fun _ => Option.none, fun _ => Option.none⟩

def cumulativeCall : CullCall :=
  ⟨"job_1", ⟨false, 1⟩,
    .ok ({ familyPolicy := .cullChildrenWithParent }, some "family", Option.none), fun _ => .ok []⟩

def threeItems : Matter where
  items := [⟨{ id := "a", parentItemId := some "p" }, .none, .none, .none, .none, .none⟩,
    ⟨{ id := "b", parentItemId := some "p" }, .none, .none, .none, .none, .none⟩,
    ⟨{ id := "p", dedupRole := some "duplicate" }, .none, .none, .none, .none, .none⟩]
  keyed := by decide

/-- Outcomes of a session that is told to pause after `n` operations and polls. -/
def pausedAfter (n : Nat) : List Outcome := replicate n .done ++ [.fails 0]

def succeeded : Except (Stop CullError) CullOutcome → Bool
  | .ok (.succeeded _) => true
  | _ => false

theorem exists_of_succeeded {r : Except (Stop CullError) CullOutcome} (h : succeeded r = true) :
    ∃ summary, r = .ok (.succeeded summary) := by
  unfold succeeded at h
  split at h
  next summary => exact ⟨summary, rfl⟩
  next => cases h

/-- A pause after the first row of the family pass: the job succeeds, and the second attachment is
still included. -/
theorem runCull_halfway_differs :
    letI := ReasonsJson.plain
    letI := Chrono.none
    let halfway := session (runCull cumulativeCall) threeItems ("2024-01-01T00:00:00Z", pausedAfter 10)
    (∃ summary, (runCull cumulativeCall "2024-01-02T00:00:00Z" ⟨halfway, []⟩).1 = .ok (.succeeded summary)) ∧
      verdicts (session (runCull cumulativeCall) halfway ("2024-01-02T00:00:00Z", []))
        ≠ verdicts (session (runCull cumulativeCall) threeItems ("2024-01-01T00:00:00Z", [])) :=
  ⟨exists_of_succeeded (by decide +kernel), by decide +kernel⟩

theorem runCull_resumed_three :
    letI := ReasonsJson.plain
    letI := Chrono.none
    let sessions := [("2024-01-01T00:00:00Z", pausedAfter 3),
      ("2024-01-02T00:00:00Z", [.done, .done, .crashes 0]),
      ("2024-01-03T00:00:00Z", pausedAfter 6)]
    ∃ summary once rules presetName presetId,
      Prog.Runs (runCull cumulativeCall "2024-01-01T00:00:00Z") threeItems (.succeeded summary) once ∧
      verdicts (session (runCull cumulativeCall) (sessions.foldl (session (runCull cumulativeCall)) threeItems)
        ("2024-01-04T00:00:00Z", [])) = verdicts once ∧
      cumulativeCall.rules = .ok (rules, presetName, presetId) ∧
      summary.included + summary.culled
        = (listCullCandidates threeItems rules.roles.processAttachments).length :=
  letI := ReasonsJson.plain
  letI := Chrono.none
  let ⟨summary, hsummary⟩ := exists_of_succeeded (r := _) (by decide +kernel)
  ⟨summary, runCull_resumed readStrings_writeStrings cumulativeCall threeItems rfl
    [("2024-01-01T00:00:00Z", pausedAfter 3), ("2024-01-02T00:00:00Z", [.done, .done, .crashes 0]),
      ("2024-01-03T00:00:00Z", pausedAfter 6)]
    (by decide +kernel) ("2024-01-04T00:00:00Z", []) (by decide +kernel) summary hsummary "2024-01-01T00:00:00Z"⟩

end MatterCull
