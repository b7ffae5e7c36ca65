import PstDedupe.MatterCull.Run

/-!
# How far a cull job has come

The job reads of a row its candidate columns and its reasons: the `Face`.
-/

namespace MatterCull

open Rust Foundations List

structure Face where
  cand : CullCandidate
  reasonsJson : Option String
  deriving DecidableEq, Repr

def ItemRow.face (r : ItemRow) : Face := ⟨r.cand, r.cullReasonsJson⟩

def Matter.faces (m : Matter) : List Face := m.items.map ItemRow.face

namespace Face

def id (f : Face) : String := f.cand.id

def cleared (processAttachments : Bool) (f : Face) : Face :=
  if isCandidate processAttachments f.cand then ⟨{ f.cand with cullStatus := none }, none⟩ else f

@[simp] theorem id_cleared (processAttachments : Bool) (f : Face) :
    (f.cleared processAttachments).id = f.id := by
  unfold cleared
  split <;> rfl

theorem cleared_cleared (processAttachments : Bool) (f : Face) :
    (f.cleared processAttachments).cleared processAttachments = f.cleared processAttachments := by
  unfold cleared
  by_cases h : isCandidate processAttachments f.cand
  · rw [if_pos h]
    exact if_pos h
  · rw [if_neg h, if_neg h]

section

variable [ReasonsJson]

def put (d : ItemCullDecision) (f : Face) : Face :=
  ⟨{ f.cand with cullStatus := some d.status }, some (ReasonsJson.toJson d.reasons)⟩

@[simp] theorem id_put (d : ItemCullDecision) (f : Face) : (f.put d).id = f.id := rfl

def decision (f : Face) : ItemCullDecision :=
  ⟨f.cand.cullStatus.getD statusIncluded, (f.reasonsJson.bind ReasonsJson.fromJson).getD []⟩

theorem decision_put (hjson : ∀ reasons, ReasonsJson.fromJson (ReasonsJson.toJson reasons) = some reasons)
    (d : ItemCullDecision) (f : Face) : (f.put d).decision = d := by
  show ItemCullDecision.mk d.status (Option.getD (ReasonsJson.fromJson (ReasonsJson.toJson d.reasons)) []) = d
  rw [hjson]
  rfl

/-- The entry of `prior_snapshot`. -/
def snapshot (f : Face) : Option (String × String) :=
  f.cand.cullStatus.map fun status => (status, ReasonsJson.toJson f.decision.reasons)

end

end Face

def faceOrder : List (Face → Face → Ordering) := cullOrder.map fun term (a b : Face) => term a.cand b.cand

def candidateFaces (processAttachments : Bool) (faces : List Face) : List Face :=
  orderBy faceOrder (faces.filter fun f => isCandidate processAttachments f.cand)

theorem listCullCandidates_eq (m : Matter) (processAttachments : Bool) :
    listCullCandidates m processAttachments = (candidateFaces processAttachments m.faces).map Face.cand := by
  unfold candidateFaces faceOrder
  rw [orderBy_column]
  unfold listCullCandidates Matter.faces
  rw [filter_map, filter_map, map_map]
  rfl

theorem candidateFaces_map {processAttachments : Bool} {h : Face → Face}
    (hcand : ∀ f, ∃ status, (h f).cand = { f.cand with cullStatus := status }) (faces : List Face) :
    candidateFaces processAttachments (faces.map h) = (candidateFaces processAttachments faces).map h := by
  refine select_map (fun f => ?_) (fun a b => ?_) faces
  · obtain ⟨_, hf⟩ := hcand f
    show isCandidate _ (h f).cand = _
    rw [hf]
    rfl
  · obtain ⟨_, ha⟩ := hcand a
    obtain ⟨_, hb⟩ := hcand b
    unfold byTerms faceOrder
    simp only [foldr_map, cullOrder, foldr_cons, foldr_nil, asc, ha, hb]

theorem nodup_candidateFaces (processAttachments : Bool) {faces : List Face} (h : (faces.map Face.id).Nodup) :
    ((candidateFaces processAttachments faces).map Face.id).Nodup :=
  nodup_map_orderBy _ (h.sublist (List.filter_sublist.map _))

theorem mem_candidateFaces {processAttachments : Bool} {faces : List Face} {f : Face} :
    f ∈ candidateFaces processAttachments faces
      ↔ f ∈ faces ∧ isCandidate processAttachments f.cand = true := by
  unfold candidateFaces
  rw [(orderBy_perm _ _).mem_iff, mem_filter]

section

variable [ReasonsJson]

theorem candidateFaces_rewriteAt {processAttachments : Bool} {g : Face → Face}
    (hg : ∀ f, ∃ d, g f = f.put d) (ids : List String) (faces : List Face) :
    candidateFaces processAttachments (rewriteAt Face.id ids g faces)
      = rewriteAt Face.id ids g (candidateFaces processAttachments faces) := by
  refine candidateFaces_map (fun f => ?_) faces
  split
  next =>
    obtain ⟨d, hd⟩ := hg f
    exact ⟨some d.status, by rw [hd]; rfl⟩
  next => exact ⟨f.cand.cullStatus, rfl⟩

def decisionsOf (faces queue : List Face) : Decisions := fun id =>
  if id ∈ queue.map Face.id then (rowAt Face.id faces id).map Face.decision else none

theorem decisionsOf_of_mem {faces queue : List Face} (hkeyed : (faces.map Face.id).Nodup) {f : Face}
    (hf : f ∈ faces) (hqueue : f.id ∈ queue.map Face.id) :
    decisionsOf faces queue f.id = some f.decision := by
  unfold decisionsOf
  rw [if_pos hqueue, rowAt_of_mem hkeyed hf]
  rfl

omit [ReasonsJson] in
theorem rowAt_faces (m : Matter) (id : String) :
    rowAt Face.id m.faces id = (getItem m id).map ItemRow.face := by
  unfold getItem rowAt Matter.faces
  rw [find?_map]
  rfl

theorem readDecisions_eq (m : Matter) (processAttachments : Bool) :
    readDecisions m (listCullCandidates m processAttachments)
      = decisionsOf m.faces (candidateFaces processAttachments m.faces) := by
  funext id
  unfold readDecisions decisionsOf
  rw [listCullCandidates_eq, map_map, rowAt_faces, Option.map_map]
  rfl

theorem priorSnapshot_eq (m : Matter) {processAttachments : Bool} {f : Face}
    (hf : f ∈ candidateFaces processAttachments m.faces) :
    priorSnapshot m (listCullCandidates m processAttachments) f.cand.id = f.snapshot := by
  have hkeyed : (m.faces.map Face.id).Nodup := by
    unfold Matter.faces
    rw [map_map]
    exact m.keyed
  have hrow := rowAt_of_mem hkeyed (mem_candidateFaces.mp hf).1
  rw [rowAt_faces] at hrow
  obtain ⟨r, hr, hface⟩ := Option.map_eq_some_iff.mp hrow
  have hmem : f.cand.id ∈ (listCullCandidates m processAttachments).map CullCandidate.id := by
    rw [listCullCandidates_eq, map_map]
    exact mem_map_of_mem hf
  unfold priorSnapshot
  rw [if_pos hmem, show getItem m f.cand.id = some r from hr, ← hface]
  rfl

def verdictOf (policy : FamilyPolicy) (faces queue : List Face) (id : String) : ItemCullDecision :=
  (applyFamilyPolicy (queue.map Face.cand) (decisionsOf faces queue) policy id).getD .included

def rewritesOf (params : CullParams) (verdict : String → ItemCullDecision) (queue : List Face) : List Face :=
  queue.filter fun f => isRewritten params f.snapshot (verdict f.id)

end

structure Plan where
  params : CullParams
  rules : CullRules
  presetName : Option String
  presetId : Option String
  denist : Option (List String)
  start : List Face
  keyed : (start.map Face.id).Nodup

namespace Plan

variable (p : Plan)

def base : List Face :=
  if p.params.reset then p.start.map (Face.cleared p.rules.roles.processAttachments) else p.start

def queue : List Face := candidateFaces p.rules.roles.processAttachments p.base

def due (f : Face) : Bool := p.params.reset || f.cand.cullStatus.isNone

/-- The candidates that the items phase skips, among the first `n`. -/
def skips (n : Nat) : Nat := (p.queue.take n).countP fun f => !p.due f

def dueIds (n : Nat) : List String := ((p.queue.take n).filter p.due).map Face.id

theorem keyed_base : (p.base.map Face.id).Nodup := by
  unfold base
  split
  · rw [map_key_map fun f => Face.id_cleared _ f]
    exact p.keyed
  · exact p.keyed

theorem keyed_queue : (p.queue.map Face.id).Nodup := nodup_candidateFaces _ p.keyed_base

section

variable [ReasonsJson] [Chrono]

def evaluated (f : Face) : Face := f.put (evaluateItem f.cand p.rules p.denist)

/-- The faces once `n` candidates have been dealt with. -/
def afterItems (n : Nat) : List Face := rewriteAt Face.id (p.dueIds n) p.evaluated p.base

def judged : List Face := p.afterItems p.queue.length

def familyQueue : List Face := candidateFaces p.rules.roles.processAttachments p.judged

def verdict (id : String) : ItemCullDecision := verdictOf p.rules.familyPolicy p.judged p.familyQueue id

def settled (f : Face) : Face := f.put (p.verdict f.id)

def rewrites : List Face := rewritesOf p.params p.verdict p.familyQueue

/-- The faces once `n` rows have been rewritten. -/
def afterFamily (n : Nat) : List Face := rewriteAt Face.id ((p.rewrites.take n).map Face.id) p.settled p.judged

def final : List Face := p.afterFamily p.rewrites.length

def counts : FamilyCounts := p.familyQueue.foldl (fun counts f => countDecision counts (p.verdict f.id)) {}

def summary : CullSummary :=
  ⟨p.queue.length, p.counts.included, p.counts.culled, p.skips p.queue.length, p.counts.byReason⟩

@[simp] theorem id_evaluated (f : Face) : (p.evaluated f).id = f.id := rfl

@[simp] theorem id_settled (f : Face) : (p.settled f).id = f.id := rfl

theorem keyed_judged : (p.judged.map Face.id).Nodup := by
  unfold judged afterItems
  rw [map_key_rewriteAt (fun f => p.id_evaluated f)]
  exact p.keyed_base

@[simp] theorem afterItems_zero : p.afterItems 0 = p.base := rewriteAt_nil _ _

omit [ReasonsJson] [Chrono] in
theorem mem_dueIds {n : Nat} {id : String} (h : id ∈ p.dueIds n) : id ∈ (p.queue.take n).map Face.id :=
  (List.filter_sublist.map _).subset h

theorem candidateFaces_afterItems (n : Nat) : candidateFaces p.rules.roles.processAttachments (p.afterItems n)
      = rewriteAt Face.id (p.dueIds n) p.evaluated p.queue :=
  candidateFaces_rewriteAt (fun _ => ⟨_, rfl⟩) _ _

theorem drop_candidateFaces_afterItems (n : Nat) :
    (candidateFaces p.rules.roles.processAttachments (p.afterItems n)).drop n = p.queue.drop n := by
  rw [candidateFaces_afterItems]
  unfold rewriteAt
  rw [← map_drop]
  refine rewriteAt_of_forall_notMem fun f hf hid => ?_
  have hsplit := p.keyed_queue
  rw [← take_append_drop n p.queue, map_append, nodup_append] at hsplit
  exact hsplit.2.2 _ (p.mem_dueIds hid) _ (mem_map_of_mem hf) rfl

theorem length_candidateFaces_afterItems (n : Nat) :
    (candidateFaces p.rules.roles.processAttachments (p.afterItems n)).length = p.queue.length := by
  rw [candidateFaces_afterItems]
  exact length_map _

theorem afterItems_add {n k : Nat} :
    rewriteAt Face.id ((((p.queue.drop n).take k).filter p.due).map Face.id) p.evaluated (p.afterItems n)
      = p.afterItems (n + k) := by
  have hids : p.dueIds (n + k) = p.dueIds n ++ (((p.queue.drop n).take k).filter p.due).map Face.id := by
    unfold dueIds
    rw [take_add, filter_append, map_append]
  unfold afterItems
  rw [rewriteAt_append (fun f => p.id_evaluated f), hids]
  intro id hid hbefore
  have hsplit := p.keyed_queue
  rw [← take_append_drop n p.queue, map_append, nodup_append] at hsplit
  have hlate : id ∈ (p.queue.drop n).map Face.id :=
    ((List.filter_sublist.trans (take_sublist k _)).map _).subset hid
  exact hsplit.2.2 _ (p.mem_dueIds hbefore) _ hlate rfl

theorem familyQueue_eq : p.familyQueue = rewriteAt Face.id (p.dueIds p.queue.length) p.evaluated p.queue :=
  p.candidateFaces_afterItems _

theorem length_familyQueue : p.familyQueue.length = p.queue.length := by
  rw [familyQueue_eq]
  exact length_map _

theorem keyed_familyQueue : (p.familyQueue.map Face.id).Nodup := nodup_candidateFaces _ p.keyed_judged

theorem keyed_rewrites : (p.rewrites.map Face.id).Nodup :=
  p.keyed_familyQueue.sublist (List.filter_sublist.map _)

@[simp] theorem afterFamily_zero : p.afterFamily 0 = p.judged := rewriteAt_nil _ _

theorem afterFamily_add {n k : Nat} :
    rewriteAt Face.id (((p.rewrites.drop n).take k).map Face.id) p.settled (p.afterFamily n)
      = p.afterFamily (n + k) := by
  unfold afterFamily
  rw [rewriteAt_append (fun f => p.id_settled f), take_add, map_append]
  intro id hid hbefore
  have hsplit := p.keyed_rewrites
  rw [← take_append_drop n p.rewrites, map_append, nodup_append] at hsplit
  exact hsplit.2.2 _ hbefore _ (((take_sublist k _).map _).subset hid) rfl

theorem candidateFaces_afterFamily (n : Nat) :
    candidateFaces p.rules.roles.processAttachments (p.afterFamily n)
      = rewriteAt Face.id ((p.rewrites.take n).map Face.id) p.settled p.familyQueue :=
  candidateFaces_rewriteAt (fun _ => ⟨_, rfl⟩) _ _

variable {p}

theorem some_verdict {f : Face} (hf : f ∈ p.familyQueue) :
    applyFamilyPolicy (p.familyQueue.map Face.cand) (decisionsOf p.judged p.familyQueue)
      p.rules.familyPolicy f.id
      = some (p.verdict f.id) := by
  have hdecided : (decisionsOf p.judged p.familyQueue f.id).isSome := by
    rw [decisionsOf_of_mem p.keyed_judged (mem_candidateFaces.mp hf).1 (mem_map_of_mem hf)]
    rfl
  have hsome := isSome_applyFamilyPolicy (p.familyQueue.map Face.cand) p.rules.familyPolicy hdecided
  unfold verdict verdictOf
  cases h : applyFamilyPolicy (p.familyQueue.map Face.cand) (decisionsOf p.judged p.familyQueue)
    p.rules.familyPolicy f.id with
  | none =>
    rw [h] at hsome
    cases hsome
  | some d => rfl

theorem map_id_candidateFaces_afterFamily (n : Nat) :
    (candidateFaces p.rules.roles.processAttachments (p.afterFamily n)).map Face.id
      = p.familyQueue.map Face.id := by
  rw [candidateFaces_afterFamily, map_key_rewriteAt fun f => p.id_settled f]

theorem decisionsOf_afterFamily
    (hjson : ∀ reasons, ReasonsJson.fromJson (ReasonsJson.toJson reasons) = some reasons) (n : Nat)
    (id : String) : let decisions := decisionsOf p.judged p.familyQueue
    let partly := decisionsOf (p.afterFamily n)
      (candidateFaces p.rules.roles.processAttachments (p.afterFamily n))
    partly id = decisions id ∨
      partly id = applyFamilyPolicy (p.familyQueue.map Face.cand) decisions p.rules.familyPolicy id := by
  intro decisions partly
  by_cases hid : id ∈ p.familyQueue.map Face.id
  · obtain ⟨f, hf, rfl⟩ := List.mem_map.mp hid
    have hrow := rowAt_of_mem p.keyed_judged (mem_candidateFaces.mp hf).1
    have hpartly : partly f.id
        = some (if f.id ∈ (p.rewrites.take n).map Face.id then p.settled f else f).decision := by
      show (if f.id ∈ _ then _ else _ : Option ItemCullDecision) = _
      rw [map_id_candidateFaces_afterFamily, if_pos hid]
      show (rowAt Face.id (p.afterFamily n) f.id).map Face.decision = _
      unfold afterFamily
      rw [rowAt_rewriteAt fun f => p.id_settled f, hrow]
      rfl
    rw [hpartly]
    split
    · right
      rw [some_verdict hf]
      exact congrArg some (Face.decision_put hjson _ f)
    · left
      exact (decisionsOf_of_mem p.keyed_judged (mem_candidateFaces.mp hf).1 hid).symm
  · left
    show (if id ∈ _ then _ else _ : Option ItemCullDecision) = if id ∈ _ then _ else _
    rw [map_id_candidateFaces_afterFamily, if_neg hid, if_neg hid]

theorem verdictOf_afterFamily
    (hjson : ∀ reasons, ReasonsJson.fromJson (ReasonsJson.toJson reasons) = some reasons)
    (n : Nat) : verdictOf p.rules.familyPolicy (p.afterFamily n)
      (candidateFaces p.rules.roles.processAttachments (p.afterFamily n)) = p.verdict := by
  have hlinks : familyLinks ((candidateFaces p.rules.roles.processAttachments (p.afterFamily n)).map Face.cand)
      = familyLinks (p.familyQueue.map Face.cand) := by
    rw [candidateFaces_afterFamily]
    unfold familyLinks rewriteAt
    rw [map_map, map_map, map_map]
    refine map_congr_left fun f _ => ?_
    dsimp only [Function.comp_apply]
    split <;> rfl
  funext id
  unfold verdict verdictOf
  rw [applyFamilyPolicy_congr hlinks, applyFamilyPolicy_of_between (decisionsOf_afterFamily hjson n)]

theorem rewritesOf_afterFamily {n : Nat} (h : p.params.reset = true ∨ n = 0) :
    (rewritesOf p.params p.verdict
    (candidateFaces p.rules.roles.processAttachments (p.afterFamily n))).map Face.id
      = p.rewrites.map Face.id := by
  rcases h with hreset | rfl
  · have hall : ∀ queue : List Face, rewritesOf p.params p.verdict queue = queue := fun queue => by
      unfold rewritesOf isRewritten
      rw [hreset]
      exact filter_true queue
    unfold rewrites
    rw [hall, hall, map_id_candidateFaces_afterFamily]
  · rw [afterFamily_zero]
    rfl

theorem counts_afterFamily (n : Nat) :
    (candidateFaces p.rules.roles.processAttachments (p.afterFamily n)).foldl
      (fun counts f => countDecision counts (p.verdict f.id)) {} = p.counts := by
  have hfold : ∀ queue : List Face, queue.foldl (fun counts f => countDecision counts (p.verdict f.id)) {}
      = (queue.map Face.id).foldl (fun counts id => countDecision counts (p.verdict id)) {} := fun queue => by
    rw [foldl_map]
  unfold counts
  rw [hfold, map_id_candidateFaces_afterFamily, ← hfold]

theorem included_add_culled : p.counts.included + p.counts.culled = p.queue.length := by
  have hfold : ∀ (queue : List Face) (counts : FamilyCounts),
      let counts' := queue.foldl (fun counts f => countDecision counts (p.verdict f.id)) counts
      counts'.included + counts'.culled = counts.included + counts.culled + queue.length := by
    intro queue
    induction queue with
    | nil => exact fun counts => rfl
    | cons f queue ih =>
      intro counts
      have hone : (countDecision counts (p.verdict f.id)).included +
          (countDecision counts (p.verdict f.id)).culled
          = counts.included + counts.culled + 1 := by
        unfold countDecision
        split
        · show counts.included + (counts.culled + 1) = _
          omega
        · show counts.included + 1 + counts.culled = _
          omega
      have hrest := ih (countDecision counts (p.verdict f.id))
      rw [foldl_cons, length_cons]
      dsimp only at hrest ⊢
      omega
  have hqueue := hfold p.familyQueue {}
  rw [length_familyQueue] at hqueue
  exact hqueue.trans (Nat.zero_add _)

end

end Plan

end MatterCull
