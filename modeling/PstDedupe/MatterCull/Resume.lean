import PstDedupe.MatterCull.Progress

/-!
# Culls that are interrupted

`Plan.Stage` says where a job can be between two sessions.
-/

namespace MatterCull

open Rust Foundations Prog List

section

variable [ReasonsJson]

/-! ## Batches -/

structure Carries (c c' : CheckpointCursor) : Prop where
  phase : c'.phase = c.phase
  skipped : c'.skipped = c.skipped
  params : c'.params = c.params
  rules : c'.rules = c.rules
  presetName : c'.presetName = c.presetName
  presetId : c'.presetId = c.presetId

omit [ReasonsJson] in
theorem Carries.refl (c : CheckpointCursor) : Carries c c := ⟨rfl, rfl, rfl, rfl, rfl, rfl⟩

omit [ReasonsJson] in
theorem Carries.trans {c c' c'' : CheckpointCursor} (h : Carries c c') (h' : Carries c' c'') : Carries c c'' :=
  ⟨h'.phase.trans h.phase, h'.skipped.trans h.skipped, h'.params.trans h.params,
    h'.rules.trans h.rules, h'.presetName.trans h.presetName, h'.presetId.trans h.presetId⟩

omit [ReasonsJson] in
theorem countEvaluated_spec (cursor : CheckpointCursor) (d : ItemCullDecision) :
    Carries cursor (countEvaluated cursor d) ∧
      (countEvaluated cursor d).completedCount = cursor.completedCount + 1 ∧
      (countEvaluated cursor d).cursorIndex = (countEvaluated cursor d).completedCount := by
  unfold countEvaluated
  dsimp only
  split <;> exact ⟨⟨rfl, rfl, rfl, rfl, rfl, rfl⟩, rfl, rfl⟩

theorem buildUpdates_spec (batch : List (String × ItemCullDecision)) (call : CullCall)
    (presetId presetName : Option String) (now : String) (cursor : CheckpointCursor) :
    let r := buildUpdates batch call presetId presetName now cursor
    r.1 = batch.map (fun x => fieldUpdate call presetId presetName now x.1 x.2) ∧
      Carries cursor r.2 ∧ r.2.completedCount = cursor.completedCount + batch.length ∧
      r.2.cursorIndex = if batch = [] then cursor.cursorIndex else r.2.completedCount := by
  -- the induction carries what has been built
  have hfold : ∀ (batch : List (String × ItemCullDecision)) (built : List CullFieldUpdate)
      (cursor : CheckpointCursor),
      let r := batch.foldl (fun acc x =>
        (acc.1 ++ [fieldUpdate call presetId presetName now x.1 x.2], countEvaluated acc.2 x.2)) (built, cursor)
      r.1 = built ++ batch.map (fun x => fieldUpdate call presetId presetName now x.1 x.2) ∧
        Carries cursor r.2 ∧
        r.2.completedCount = cursor.completedCount + batch.length ∧
        r.2.cursorIndex = if batch = [] then cursor.cursorIndex else r.2.completedCount := by
    intro batch
    induction batch with
    | nil =>
      intro built cursor
      exact ⟨(append_nil _).symm, Carries.refl cursor, rfl, rfl⟩
    | cons x batch ih =>
      intro built cursor
      obtain ⟨hcarries, hone, hpoints⟩ := countEvaluated_spec cursor x.2
      obtain ⟨hupdates, hrest, hcompleted, hindex⟩ :=
        ih (built ++ [fieldUpdate call presetId presetName now x.1 x.2]) (countEvaluated cursor x.2)
      rw [foldl_cons]
      refine ⟨?_, hcarries.trans hrest, ?_, ?_⟩
      · rw [hupdates, append_assoc]
        rfl
      · rw [hcompleted, hone, length_cons]
        omega
      · rw [hindex, if_neg (cons_ne_nil _ _)]
        split
        next hnil =>
          subst hnil
          exact hpoints
        next => rfl
  exact hfold batch [] cursor

theorem face_applyUpdate (call : CullCall) (presetId presetName : Option String) (now : String)
    (x : String × ItemCullDecision) (r : ItemRow) :
    (applyUpdate r (fieldUpdate call presetId presetName now x.1 x.2)).face
      = if r.face.id = x.1 then r.face.put x.2 else r.face := by
  unfold applyUpdate
  show ItemRow.face (if r.id = x.1 then _ else _) = if r.id = x.1 then _ else _
  split <;> rfl

theorem faces_batch (m : Matter) {batch : List (String × ItemCullDecision)} (call : CullCall)
    (presetId presetName : Option String) (now : String) (hnodup : (batch.map Prod.fst).Nodup)
    {g : Face → Face} (hg : ∀ f ∈ m.faces, ∀ x ∈ batch, x.1 = f.id → f.put x.2 = g f) :
    (m.items.map fun r => (batch.map fun x => fieldUpdate call presetId presetName now x.1
      x.2).foldl applyUpdate r).map
      ItemRow.face = rewriteAt Face.id (batch.map Prod.fst) g m.faces := by
  have hrow : ∀ (batch : List (String × ItemCullDecision)) (r : ItemRow),
      ((batch.map fun x => fieldUpdate call presetId presetName now x.1 x.2).foldl applyUpdate r).face
        = batch.foldl (fun f x => if f.id = x.1 then f.put x.2 else f) r.face := by
    intro batch
    induction batch with
    | nil => exact fun r => rfl
    | cons x batch ih =>
      intro r
      rw [map_cons, foldl_cons, foldl_cons, ih, face_applyUpdate]
  unfold rewriteAt Matter.faces
  rw [map_map, map_map]
  refine map_congr_left fun r hr => ?_
  show ItemRow.face _ = _
  rw [hrow]
  exact foldl_write_eq Prod.fst (fun x (f : Face) => f.put x.2) (fun x (f : Face) => f.id_put x.2)
    hnodup fun x hx =>
    hg r.face (mem_map_of_mem hr) x hx

end

namespace Plan

variable [ReasonsJson] [Chrono] {p : Plan} {seg rest : List Face} {m : Matter} {c : CheckpointCursor}

structure Frozen (p : Plan) (c : CheckpointCursor) : Prop where
  params : c.params = p.params
  rules : c.rules = p.rules
  presetName : c.presetName = p.presetName
  presetId : c.presetId = p.presetId

omit [ReasonsJson] [Chrono] in
theorem Frozen.carries {c c' : CheckpointCursor} (h : p.Frozen c) (hc : Carries c c') : p.Frozen c' :=
  ⟨hc.params.trans h.params, hc.rules.trans h.rules, hc.presetName.trans h.presetName,
    hc.presetId.trans h.presetId⟩

inductive Stage (p : Plan) (m : Matter) : Prop
  | fresh (hnone : m.checkpoint = none) (hfaces : m.faces = p.start ∨ m.faces = p.base)
  | items (n : Nat) (c : CheckpointCursor) (hsome : m.checkpoint = some c) (hfrozen : p.Frozen c)
      (hphase : c.phase = .items) (hpos : 0 < n) (hn : n ≤ p.queue.length) (hindex : c.cursorIndex = n)
      (hcompleted : c.completedCount = n) (hskipped : c.skipped = p.skips n)
        (hfaces : m.faces = p.afterItems n)
  | family (n : Nat) (c : CheckpointCursor) (hsome : m.checkpoint = some c) (hfrozen : p.Frozen c)
      (hphase : c.phase = .family) (hn : n ≤ p.rewrites.length) (hindex : c.cursorIndex = n)
      (hcompleted : c.completedCount = p.queue.length)
      (hskipped : c.skipped = p.skips p.queue.length) (hfaces : m.faces = p.afterFamily n)
  | done (c : CheckpointCursor) (hsome : m.checkpoint = some c) (hfrozen : p.Frozen c)
    (hphase : c.phase = .done)
      (hsummary : summaryFromCursor c = p.summary) (hfaces : m.faces = p.final)

def Halted (p : Plan) (x : Stop CullError) (m : Matter) : Prop :=
  p.Stage m ∧ ∀ e, x = .failed e → e = IoError.io

structure Serves (call : CullCall) (p : Plan) : Prop where
  params : call.params = p.params
  rules : call.rules = .ok (p.rules, p.presetName, p.presetId)
  batchSize : p.params.batchSize ≠ 0
  denist : loadDenist call p.rules = .ok p.denist

/-! ## The items phase -/

/-- The cursor in memory: `n` candidates committed, `seg` since. -/
structure InBatch (p : Plan) (n : Nat) (seg : List Face) (c : CheckpointCursor) : Prop where
  frozen : p.Frozen c
  phase : c.phase = .items
  completed : c.completedCount + (seg.filter p.due).length = n + seg.length
  skipped : c.skipped = p.skips (n + seg.length)
  index : seg.filter p.due = [] → seg ≠ [] → c.cursorIndex = n + seg.length

def pending (p : Plan) (seg : List Face) : List (String × ItemCullDecision) :=
  (seg.filter p.due).map fun f => (f.id, evaluateItem f.cand p.rules p.denist)

omit [ReasonsJson] in
theorem map_fst_pending (seg : List Face) : (p.pending seg).map Prod.fst = (seg.filter p.due).map Face.id := by
  unfold pending
  rw [map_map]
  rfl

theorem faces_pending {n : Nat} (hqueue : p.queue.drop n = seg ++ rest)
    (hfaces : m.faces = p.afterItems n) (call : CullCall) (now : String) :
    (m.items.map fun r => ((p.pending seg).map fun x => fieldUpdate call p.presetId p.presetName now
      x.1 x.2).foldl
      applyUpdate r).map ItemRow.face = p.afterItems (n + seg.length) := by
  have hseg : seg = (p.queue.drop n).take seg.length := by rw [hqueue, take_left]
  have hsub : (seg.filter p.due).Sublist p.queue := by
    refine List.filter_sublist.trans ?_
    rw [hseg]
    exact (take_sublist _ _).trans (drop_sublist _ _)
  have hnodup : ((p.pending seg).map Prod.fst).Nodup := by
    rw [map_fst_pending]
    exact p.keyed_queue.sublist (hsub.map _)
  rw [faces_batch m call p.presetId p.presetName now hnodup (g := p.evaluated), map_fst_pending, hfaces]
  · conv_lhs => rw [hseg]
    exact p.afterItems_add
  intro f hf x hx hid
  obtain ⟨f₀, hf₀, rfl⟩ := List.mem_map.mp hx
  -- the row that is written is the one that was evaluated, up to its status
  have hbase : f₀ ∈ p.base := (mem_candidateFaces.mp (hsub.subset hf₀)).1
  rw [hfaces] at hf
  obtain ⟨f₁, hf₁, rfl⟩ := List.mem_map.mp hf
  have hsame : f₀ = f₁ := by
    refine inj_on_of_nodup_map p.keyed_base hbase hf₁ ?_
    exact hid.trans (key_ite (fun f => p.id_evaluated f) f₁ _)
  subst hsame
  split <;> rfl

variable {call : CullCall} {now : String}

omit [ReasonsJson] in
theorem takeCandidate_spec {f : Face} {n : Nat}
    (hqueue : p.queue.drop n = seg ++ f :: rest) (hc : p.InBatch n seg c) :
    let taken := takeCandidate p.params p.rules p.denist (n + seg.length) f.cand c (p.pending seg)
    taken.2 = p.pending (seg ++ [f]) ∧ p.InBatch n (seg ++ [f]) taken.1 := by
  have hlength : (seg ++ [f]).length = seg.length + 1 := by simp
  have hskips : p.skips (n + (seg ++ [f]).length) = p.skips (n + seg.length) + if p.due f then 0 else 1 := by
    have htake : ∀ k, p.queue.take (n + k) = p.queue.take n ++ (seg ++ f :: rest).take k := fun k => by
      rw [take_add, hqueue]
    have hone : (seg ++ f :: rest).take (seg.length + 1) = seg ++ [f] := by
      rw [take_length_add_append]
      rfl
    unfold skips
    rw [htake, htake, hlength, hone, take_left, countP_append, countP_append, countP_append,
      countP_singleton]
    cases p.due f <;> simp; omega
  unfold takeCandidate
  by_cases hdue : p.due f = true
  · have hcond : (!p.params.reset && f.cand.cullStatus.isSome) = false := by
      revert hdue
      unfold due
      cases p.params.reset <;> cases f.cand.cullStatus <;> simp
    have hfilter : (seg ++ [f]).filter p.due = seg.filter p.due ++ [f] := by simp [filter_append, hdue]
    rw [hcond]
    refine ⟨?_, hc.frozen, hc.phase, ?_, ?_, fun h => ?_⟩
    · show p.pending seg ++ [_] = _
      unfold pending
      rw [hfilter, map_append]
      rfl
    · have hcompleted := hc.completed
      rw [hfilter, length_append, hlength]
      show c.completedCount + (_ + 1) = _
      omega
    · rw [hskips, if_pos hdue]
      exact hc.skipped
    · rw [hfilter] at h
      exact absurd h (by simp)
  · have hcond : (!p.params.reset && f.cand.cullStatus.isSome) = true := by
      revert hdue
      unfold due
      cases p.params.reset <;> cases f.cand.cullStatus <;> simp
    have hfilter : (seg ++ [f]).filter p.due = seg.filter p.due := by simp [filter_append, hdue]
    rw [hcond]
    refine ⟨?_, ⟨hc.frozen.params, hc.frozen.rules, hc.frozen.presetName, hc.frozen.presetId⟩,
      hc.phase, ?_, ?_, fun _ _ => ?_⟩
    · show p.pending seg = _
      unfold pending
      rw [hfilter]
    · have hcompleted := hc.completed
      rw [hfilter, hlength]
      show c.completedCount + 1 + _ = _
      omega
    · rw [hskips, if_neg hdue]
      exact congrArg (· + 1) hc.skipped
    · rw [hlength]
      rfl

theorem stage_of_batch (call : CullCall) (now : String) {n : Nat}
    (hqueue : p.queue.drop n = seg ++ rest) (hne : seg ≠ []) (hn : n ≤ p.queue.length)
    (hc : p.InBatch n seg c) (hfaces : m.faces = p.afterItems n) :
    let built := buildUpdates (p.pending seg) call p.presetId p.presetName now c
    let m' : Matter := { m.rewrite (fun r => built.1.foldl applyUpdate r) (id_foldl_applyUpdate built.1) with
      checkpoint := some built.2 }
    p.Stage m' ∧ m'.faces = p.afterItems (n + seg.length) ∧ p.InBatch (n + seg.length) [] built.2 := by
  intro built m'
  obtain ⟨hupdates, hcarries, hcompleted, hindex⟩ :=
    buildUpdates_spec (p.pending seg) call p.presetId p.presetName now c
  have hfaces' : m'.faces = p.afterItems (n + seg.length) := by
    show (m.items.map fun r => built.1.foldl applyUpdate r).map ItemRow.face = _
    rw [show built.1 = _ from hupdates]
    exact faces_pending hqueue hfaces call now
  have hcount : built.2.completedCount = n + seg.length := by
    refine hcompleted.trans ?_
    unfold pending
    rw [length_map]
    exact hc.completed
  have hpoints : built.2.cursorIndex = n + seg.length := by
    refine hindex.trans ?_
    split
    next hnil => exact hc.index (List.map_eq_nil_iff.mp hnil) hne
    next => exact hcount
  have hlen : n + seg.length ≤ p.queue.length := by
    have hdrop := congrArg length hqueue
    rw [length_drop, length_append] at hdrop
    omega
  have hpos : 0 < seg.length := List.length_pos_iff.mpr hne
  refine ⟨.items (n + seg.length) built.2 rfl (hc.frozen.carries hcarries)
    (hcarries.phase.trans hc.phase) (by omega) hlen
    hpoints hcount (hcarries.skipped.trans hc.skipped) hfaces', hfaces', ?_⟩
  exact ⟨hc.frozen.carries hcarries, hcarries.phase.trans hc.phase, hcount,
    hcarries.skipped.trans hc.skipped, fun _ h => absurd rfl h⟩

theorem itemsLoop_ensures (rest : List Face) :
    ∀ (seg : List Face) (n : Nat) (c : CheckpointCursor) (m : Matter),
    p.queue.drop n = seg ++ rest → (rest = [] → seg = []) → n ≤ p.queue.length → p.InBatch n seg c →
      p.Stage m →
    m.faces = p.afterItems n →
    Ensures (itemsLoop call p.params p.rules p.presetId p.presetName p.denist now p.queue.length
      (rest.map Face.cand) (n + seg.length) c (p.pending seg)) m
      (fun r t => p.Stage t ∧ ∀ c', r = .inr c' → t.faces = p.judged ∧
        p.InBatch p.queue.length [] c') p.Halted := by
  induction rest with
  | nil =>
    intro seg n c m hqueue hseg hn hc hm hfaces
    obtain rfl := hseg rfl
    -- nothing is left of the queue
    obtain rfl : n = p.queue.length := Nat.le_antisymm hn (List.drop_eq_nil_iff.mp hqueue)
    refine Ensures.pure ⟨hm, fun c' hc' => ?_⟩
    obtain rfl := Sum.inr.inj hc'
    exact ⟨hfaces, hc⟩
  | cons f rest ih =>
    intro seg n c m hqueue _ hn hc hm hfaces
    have hhalted : p.Halted .crashed m := ⟨hm, nofun⟩
    have hqueue' : p.queue.drop n = (seg ++ [f]) ++ rest := by rw [hqueue, append_assoc]; rfl
    have hnext : n + seg.length + 1 = n + (seg ++ [f]).length := by rw [length_append]; rfl
    have hlen : p.queue.length = n + (seg ++ [f]).length + rest.length := by
      have hdrop := congrArg length hqueue'
      rw [length_drop, length_append] at hdrop
      omega
    rw [map_cons, itemsLoop]
    refine Ensures.bind (Ensures.poll (fun b => ?_) hhalted)
    cases b with
    | true =>
      rw [if_pos rfl]
      exact Ensures.pure ⟨hm, fun c' h => nomatch h⟩
    | false =>
      obtain ⟨hbatch, hc'⟩ := takeCandidate_spec hqueue hc
      rw [if_neg Bool.false_ne_true]
      dsimp only
      rw [hbatch, hnext]
      generalize (takeCandidate p.params p.rules p.denist (n + seg.length) f.cand c
          (p.pending seg)).1 = taken at hc' ⊢
      split
      next hcommit =>
        have hdo : (!(p.pending (seg ++ [f])).isEmpty || n + (seg ++ [f]).length == p.queue.length)
            = true := by
          rcases Bool.or_eq_true_iff.mp hcommit with hfull | hend
          · have hfull := of_decide_eq_true hfull
            have hne : p.pending (seg ++ [f]) ≠ [] := by
              intro hnil
              rw [hnil, length_nil] at hfull
              omega
            simp [hne]
          · rw [hend, Bool.or_true]
        rw [if_pos hdo]
        obtain ⟨hstage, hfaces', hmem⟩ := stage_of_batch call now hqueue' (by simp) hn hc' hfaces
        refine Ensures.bind (Ensures.transaction ?_ ⟨hm, fun e he => ?_⟩ hhalted)
        · refine ih [] (n + (seg ++ [f]).length) _ _ ?_ (fun _ => rfl) (by omega) hmem hstage hfaces'
          rw [← drop_drop, hqueue', drop_left]
          rfl
        · exact (Stop.failed.inj he).symm
      next hmore =>
        refine ih (seg ++ [f]) n taken m hqueue' (fun hnil => absurd ?_ hmore) hn hc' hm hfaces
        subst hnil
        rw [hlen]
        simp

/-- The cursor of a family pass that has come to row `n`. -/
structure AtFamily (p : Plan) (n : Nat) (c : CheckpointCursor) : Prop where
  frozen : p.Frozen c
  phase : c.phase = .family
  index : c.cursorIndex = n
  completed : c.completedCount = p.queue.length
  skipped : c.skipped = p.skips p.queue.length

omit [ReasonsJson] [Chrono] in
theorem faces_checkpoint (m : Matter) (c : CheckpointCursor) :
    ({ m.rewrite (fun r => [].foldl applyUpdate r) (id_foldl_applyUpdate []) with checkpoint := some c } : Matter).faces
      = m.faces := by
  show (m.items.map fun r => r).map ItemRow.face = _
  rw [map_id']
  rfl

theorem itemsPhase_ensures {n : Nat} (hn : n ≤ p.queue.length) (hfrozen : p.Frozen c)
    (hphase : c.phase = .items) (hindex : c.cursorIndex = n) (hcompleted : c.completedCount = n)
    (hskipped : c.skipped = p.skips n) (hm : p.Stage m) (hfaces : m.faces = p.afterItems n) :
    Ensures (itemsPhase call p.params p.rules p.presetId p.presetName p.denist now c) m
      (fun r t => p.Stage t ∧ ∀ c', r = .inr c' → t.faces = p.judged ∧ p.AtFamily 0 c') p.Halted := by
  refine Ensures.bind (Ensures.look ?_)
  rw [listCullCandidates_eq, hfaces]
  dsimp only
  rw [hindex, length_map, p.length_candidateFaces_afterItems,
    if_neg (Nat.not_lt.mpr hn), ← map_drop, p.drop_candidateFaces_afterItems]
  have hbatch : p.InBatch n [] c := ⟨hfrozen, hphase, hcompleted, hskipped, fun _ h => absurd rfl h⟩
  refine Ensures.bind
    ((itemsLoop_ensures (p.queue.drop n) [] n c m rfl (fun _ => rfl) hn hbatch hm hfaces).mono
    (fun r t hr => ?_) fun _ _ h => h)
  obtain ⟨ht, hr⟩ := hr
  cases r with
  | inl summary => exact Ensures.pure ⟨ht, fun c' h => nomatch h⟩
  | inr c' =>
    obtain ⟨hjudged, hc'⟩ := hr c' rfl
    have hat : p.AtFamily 0 { c' with phase := .family, cursorIndex := 0 } :=
      ⟨⟨hc'.frozen.params, hc'.frozen.rules, hc'.frozen.presetName, hc'.frozen.presetId⟩, rfl, rfl,
        hc'.completed, hc'.skipped⟩
    refine Ensures.bind
      (Ensures.transaction (Ensures.pure ⟨?_, fun c'' h => ?_⟩) ⟨ht, fun e he => ?_⟩ ⟨ht, nofun⟩)
    · exact .family 0 _ rfl hat.frozen hat.phase (Nat.zero_le _) hat.index hat.completed hat.skipped
        ((faces_checkpoint t _).trans (hjudged.trans p.afterFamily_zero.symm))
    · obtain rfl := Sum.inr.inj h
      exact ⟨(faces_checkpoint t _).trans hjudged, hat⟩
    · exact (Stop.failed.inj he).symm

/-! ## The family phase -/

def familyUpdates (p : Plan) (call : CullCall) (now : String) : List CullFieldUpdate :=
  p.rewrites.map fun f => fieldUpdate call p.presetId p.presetName now f.id (p.verdict f.id)

structure InFamily (p : Plan) (c : CheckpointCursor) : Prop where
  frozen : p.Frozen c
  summary : summaryFromCursor c = p.summary

theorem InFamily.stage {n : Nat} (hc : p.InFamily c) (hn : n ≤ p.rewrites.length)
    (hsome : m.checkpoint = some { c with phase := .family, cursorIndex := n })
    (hfaces : m.faces = p.afterFamily n) :
    p.Stage m :=
  .family n _ hsome ⟨hc.frozen.params, hc.frozen.rules, hc.frozen.presetName, hc.frozen.presetId⟩ rfl hn rfl
    (congrArg CullSummary.completedCount hc.summary) (congrArg CullSummary.skipped hc.summary) hfaces

theorem faces_slice (call : CullCall) (now : String) {n : Nat} (k : Nat) (hfaces : m.faces = p.afterFamily n) :
    (m.items.map fun r => ((p.familyUpdates call now).drop n |>.take k).foldl applyUpdate r).map ItemRow.face
      = p.afterFamily (n + k) := by
  let batch := ((p.rewrites.drop n).take k).map fun f => (f.id, p.verdict f.id)
  have hids : batch.map Prod.fst = ((p.rewrites.drop n).take k).map Face.id := by
    show map _ (map _ _) = _
    rw [map_map]
    rfl
  have hslice : ((p.familyUpdates call now).drop n).take k
      = batch.map fun x => fieldUpdate call p.presetId p.presetName now x.1 x.2 := by
    show ((p.rewrites.map _).drop n).take k = map _ (map _ _)
    rw [← map_drop, ← map_take, map_map]
    rfl
  have hnodup : (batch.map Prod.fst).Nodup := by
    rw [hids]
    exact p.keyed_rewrites.sublist (((take_sublist _ _).trans (drop_sublist _ _)).map _)
  rw [hslice, faces_batch m call p.presetId p.presetName now hnodup (g := p.settled), hids, hfaces,
    p.afterFamily_add]
  intro f _ x hx hid
  obtain ⟨f₀, _, rfl⟩ := List.mem_map.mp hx
  show f.put (p.verdict f₀.id) = f.put (p.verdict f.id)
  rw [show f₀.id = f.id from hid]

theorem familyLoop_ensures (fuel : Nat) : ∀ (offset : Nat) (c : CheckpointCursor) (m : Matter),
    p.rewrites.length - offset ≤ fuel → offset ≤ p.rewrites.length → p.InFamily c → p.Stage m →
    m.faces = p.afterFamily offset → Ensures (familyLoop p.params (p.familyUpdates call now) fuel offset c) m
      (fun r t => p.Stage t ∧ ∀ c', r = .inr c' → t.faces = p.final ∧
        summaryFromCursor c' = p.summary) p.Halted := by
  have hlength : (p.familyUpdates call now).length = p.rewrites.length := length_map _
  induction fuel with
  | zero =>
    intro offset c m hfuel hoffset hc hm hfaces
    obtain rfl : offset = p.rewrites.length := by omega
    refine Ensures.pure ⟨hm, fun c' h => ?_⟩
    obtain rfl := Sum.inr.inj h
    exact ⟨hfaces, hc.summary⟩
  | succ fuel ih =>
    intro offset c m hfuel hoffset hc hm hfaces
    have hhalted : p.Halted .crashed m := ⟨hm, nofun⟩
    have hfailed : p.Halted (.failed IoError.io) m := ⟨hm, fun e he => (Stop.failed.inj he).symm⟩
    rw [familyLoop, hlength]
    by_cases hmore : offset < p.rewrites.length
    · rw [if_pos hmore]
      refine Ensures.bind (Ensures.poll (fun b => ?_) hhalted)
      cases b with
      | true =>
        rw [if_pos rfl]
        refine Ensures.bind (Ensures.transaction (Ensures.pure ⟨?_, fun c' h => nomatch h⟩) hfailed hhalted)
        exact hc.stage hoffset rfl ((faces_checkpoint m _).trans hfaces)
      | false =>
        rw [if_neg Bool.false_ne_true]
        dsimp only
        generalize hend : min (offset + max p.params.batchSize 1) p.rewrites.length = stop
        obtain ⟨k, rfl⟩ : ∃ k, stop = offset + k := ⟨stop - offset, by omega⟩
        have hslice : ((p.familyUpdates call now).take (offset + k)).drop offset
            = ((p.familyUpdates call now).drop offset).take k := by
          rw [drop_take, Nat.add_sub_cancel_left]
        rw [hslice]
        have hfaces' := faces_slice call now k hfaces
        refine Ensures.bind (Ensures.transaction ?_ hfailed hhalted)
        refine ih (offset + k) _ _ (by omega) (by omega)
          ⟨⟨hc.frozen.params, hc.frozen.rules, hc.frozen.presetName, hc.frozen.presetId⟩,
            hc.summary⟩ ?_ hfaces'
        by_cases hdone : offset + k = p.rewrites.length
        · refine .done _ rfl ⟨hc.frozen.params, hc.frozen.rules, hc.frozen.presetName,
            hc.frozen.presetId⟩ (if_pos hdone)
            hc.summary ?_
          rw [show p.final = p.afterFamily (offset + k) from congrArg p.afterFamily hdone.symm]
          exact hfaces'
        · refine hc.stage (by omega) ?_ hfaces'
          rw [if_neg hdone]
    · rw [if_neg hmore]
      obtain rfl : offset = p.rewrites.length := by omega
      refine Ensures.pure ⟨hm, fun c' h => ?_⟩
      obtain rfl := Sum.inr.inj h
      exact ⟨hfaces, hc.summary⟩

theorem family_reads (call : CullCall) (now : String) {n : Nat}
    (hjson : ∀ reasons, ReasonsJson.fromJson (ReasonsJson.toJson reasons) = some reasons)
    (hstart : p.params.reset = true ∨ n = 0) (hfaces : m.faces = p.afterFamily n) :
    let candidates := listCullCandidates m p.rules.roles.processAttachments
    let decisions := applyFamilyPolicy candidates (readDecisions m candidates) p.rules.familyPolicy
    let final := fun (c : CullCandidate) => (decisions c.id).getD .included
    candidates.foldl (fun counts c => countDecision counts (final c)) {} = p.counts ∧
      ((candidates.filter fun c => isRewritten p.params (priorSnapshot m candidates c.id)
        (final c)).map fun c =>
        fieldUpdate call p.presetId p.presetName now c.id (final c)) = p.familyUpdates call now := by
  intro candidates decisions final
  have hqueue : candidates = (candidateFaces p.rules.roles.processAttachments m.faces).map Face.cand :=
    listCullCandidates_eq m _
  have hfinal : ∀ f : Face, final f.cand = p.verdict f.id := by
    intro f
    have hverdict := congrFun (verdictOf_afterFamily (p := p) hjson n) f.id
    rw [← hfaces] at hverdict
    refine Eq.trans ?_ hverdict
    show Option.getD (applyFamilyPolicy candidates (readDecisions m candidates) _ _) _ = _
    rw [show readDecisions m candidates = _ from readDecisions_eq m _, hqueue]
    rfl
  constructor
  · rw [hqueue, foldl_map]
    simp only [hfinal]
    rw [hfaces]
    exact counts_afterFamily n
  · have hfilter :
      (candidates.filter fun c => isRewritten p.params (priorSnapshot m candidates c.id) (final c))
        = (rewritesOf p.params p.verdict
          (candidateFaces p.rules.roles.processAttachments m.faces)).map Face.cand := by
      conv_lhs => arg 2; rw [hqueue]
      rw [filter_map]
      unfold rewritesOf
      refine congrArg (map Face.cand) (filter_congr fun f hf => ?_)
      show isRewritten _ (priorSnapshot m candidates f.cand.id) (final f.cand) = _
      rw [show priorSnapshot m candidates f.cand.id = _ from priorSnapshot_eq m hf, hfinal]
    rw [hfilter, map_map]
    have hids := rewritesOf_afterFamily (p := p) hstart
    rw [← hfaces] at hids
    have hmap : ∀ l : List Face,
        l.map ((fun c => fieldUpdate call p.presetId p.presetName now c.id (final c)) ∘ Face.cand)
        = (l.map Face.id).map fun id => fieldUpdate call p.presetId p.presetName now id (p.verdict id) := by
      intro l
      rw [map_map]
      refine map_congr_left fun f _ => ?_
      show fieldUpdate _ _ _ _ f.cand.id (final f.cand) = _
      rw [hfinal]
      rfl
    rw [hmap, hids]
    exact map_map

theorem familyPhase_ensures {n : Nat}
    (hjson : ∀ reasons, ReasonsJson.fromJson (ReasonsJson.toJson reasons) = some reasons)
    (hn : n ≤ p.rewrites.length) (hstart : p.params.reset = true ∨ n = 0) (hc : p.AtFamily n c)
    (hm : p.Stage m) (hfaces : m.faces = p.afterFamily n) :
    Ensures (familyPhase call p.params p.rules p.presetId p.presetName now c) m
      (fun r t => p.Stage t ∧ ∀ c', r = .inr c' → t.faces = p.final ∧
        summaryFromCursor c' = p.summary) p.Halted := by
  have hlength : (p.familyUpdates call now).length = p.rewrites.length := length_map _
  obtain ⟨hcounts, hupdates⟩ := family_reads call now hjson hstart hfaces
  refine Ensures.bind (Ensures.look ?_)
  dsimp only [id] at hcounts hupdates ⊢
  rw [hcounts, hupdates, hc.index, hlength, if_neg (Nat.not_lt.mpr hn)]
  have hsummary : ∀ (phase : Phase) (index : Nat), summaryFromCursor { c with
      «included» := p.counts.included, culled := p.counts.culled, byReason :=
        p.counts.byReason, phase := phase,
      cursorIndex := index } = p.summary := by
    intro phase index
    show CullSummary.mk c.completedCount _ _ c.skipped _ = _
    rw [hc.completed, hc.skipped]
    rfl
  have hfrozen := hc.frozen
  by_cases hnil : (p.familyUpdates call now).isEmpty = true
  · rw [if_pos hnil]
    have hzero : p.rewrites.length = 0 := by rw [← hlength, List.isEmpty_iff.mp hnil]; rfl
    obtain rfl : n = p.rewrites.length := by omega
    refine Ensures.bind
      (Ensures.transaction (Ensures.pure ⟨?_, fun c' h => ?_⟩) ⟨hm, fun e he => ?_⟩ ⟨hm, nofun⟩)
    · exact .done _ rfl ⟨hfrozen.params, hfrozen.rules, hfrozen.presetName, hfrozen.presetId⟩
        rfl (hsummary .done 0)
        ((faces_checkpoint m _).trans hfaces)
    · obtain rfl := Sum.inr.inj h
      exact ⟨(faces_checkpoint m _).trans hfaces, hsummary .done 0⟩
    · exact (Stop.failed.inj he).symm
  · rw [if_neg hnil]
    exact familyLoop_ensures p.rewrites.length n _ m (by omega) hn
      ⟨⟨hfrozen.params, hfrozen.rules, hfrozen.presetName, hfrozen.presetId⟩,
        hsummary c.phase c.cursorIndex⟩ hm hfaces

/-! ## Sessions -/

/-- The session does not resume a cumulative family pass that has written a batch. -/
def NotHalfway (m : Matter) : Prop :=
  ∀ c ∈ m.checkpoint, c.phase = .family → c.params.reset = false → c.cursorIndex = 0

instance : DecidablePred NotHalfway := fun m => inferInstanceAs (Decidable (∀ c ∈ m.checkpoint, _))

omit [ReasonsJson] [Chrono] in
theorem faces_clearCullFields (m : Matter) (processAttachments : Bool) :
    (clearCullFields processAttachments m).faces = m.faces.map (Face.cleared processAttachments) := by
  show (m.items.map _).map ItemRow.face = (m.items.map ItemRow.face).map _
  rw [map_map, map_map]
  refine map_congr_left fun r _ => ?_
  show (clearRow processAttachments r).face = r.face.cleared processAttachments
  unfold clearRow Face.cleared
  show ItemRow.face (if isCandidate processAttachments r.cand then _ else _)
    = if isCandidate processAttachments r.cand then _ else _
  split <;> rfl

omit [ReasonsJson] [Chrono] in
theorem map_cleared {faces : List Face} (hreset : p.params.reset = true)
    (h : faces = p.start ∨ faces = p.base) :
    faces.map (Face.cleared p.rules.roles.processAttachments) = p.base := by
  have hbase : p.base = p.start.map (Face.cleared p.rules.roles.processAttachments) := if_pos hreset
  rcases h with rfl | rfl
  · exact hbase.symm
  · rw [hbase, map_map]
    exact map_congr_left fun f _ => Face.cleared_cleared _ f

def Reached (p : Plan) (o : CullOutcome) (m : Matter) : Prop :=
  p.Stage m ∧ ∀ summary, o = .succeeded summary → m.faces = p.final ∧ summary = p.summary

theorem runFamily_ensures {r : CullSummary ⊕ CheckpointCursor} {n : Nat}
    (hjson : ∀ reasons, ReasonsJson.fromJson (ReasonsJson.toJson reasons) = some reasons) (hm : p.Stage m)
    (hr : ∀ c, r = .inr c → m.faces = p.afterFamily n ∧ p.AtFamily n c) (hn : n ≤ p.rewrites.length)
    (hstart : p.params.reset = true ∨ n = 0) :
    Ensures (runFamily call p.params p.rules p.presetName p.presetId now r) m p.Reached p.Halted := by
  cases r with
  | inl summary => exact Ensures.pure ⟨hm, fun summary h => nomatch h⟩
  | inr c =>
    obtain ⟨hfaces, hc⟩ := hr c rfl
    unfold runFamily
    dsimp only
    rw [if_pos hc.phase]
    refine Ensures.bind
      ((familyPhase_ensures hjson hn hstart hc hm hfaces).mono (fun r' t hr' => ?_) fun _ _ h => h)
    obtain ⟨ht, hr'⟩ := hr'
    cases r' with
    | inl summary => exact Ensures.pure ⟨ht, fun summary h => nomatch h⟩
    | inr c' =>
      obtain ⟨hfinal, hsummary⟩ := hr' c' rfl
      refine Ensures.pure ⟨ht, fun summary h => ?_⟩
      obtain rfl := CullOutcome.succeeded.inj h
      exact ⟨hfinal, hsummary⟩

theorem runPhases_ensures_items {n : Nat}
    (hjson : ∀ reasons, ReasonsJson.fromJson (ReasonsJson.toJson reasons) = some reasons)
    (hn : n ≤ p.queue.length) (hfrozen : p.Frozen c) (hphase : c.phase = .items) (hindex : c.cursorIndex = n)
    (hcompleted : c.completedCount = n) (hskipped : c.skipped = p.skips n) (hm : p.Stage m)
    (hfaces : m.faces = p.afterItems n) :
    Ensures (runPhases call p.params p.rules p.presetName p.presetId p.denist now c) m p.Reached p.Halted := by
  unfold runPhases
  rw [if_pos hphase]
  refine Ensures.bind ((itemsPhase_ensures hn hfrozen hphase hindex hcompleted hskipped hm hfaces).mono
    (fun r t hr => ?_) fun _ _ h => h)
  refine runFamily_ensures (n := 0) hjson hr.1 (fun c' hc' => ?_) (Nat.zero_le _) (.inr rfl)
  exact ⟨(hr.2 c' hc').1.trans p.afterFamily_zero.symm, (hr.2 c' hc').2⟩

omit [ReasonsJson] [Chrono] in
theorem Frozen.refreeze (h : p.Frozen c) :
    { c with params := p.params, rules := p.rules, presetName := p.presetName, presetId := p.presetId } = c := by
  rw [← h.params, ← h.rules, ← h.presetName, ← h.presetId]

theorem runCullInner_ensures
    (hjson : ∀ reasons, ReasonsJson.fromJson (ReasonsJson.toJson reasons) = some reasons)
    (hserves : Serves call p) (hm : p.Stage m) (hguard : NotHalfway m) :
    Ensures (runCullInner call p.params p.rules p.presetName p.presetId now m.checkpoint) m
      p.Reached p.Halted := by
  unfold runCullInner
  rw [hserves.denist]
  refine Ensures.bind (Ensures.pure ?_)
  cases hm with
  | fresh hnone hfaces =>
    rw [hnone]
    have hphases : ∀ t : Matter, t.checkpoint = none → t.faces = p.base →
        Ensures (runPhases call p.params p.rules p.presetName p.presetId p.denist now
          ⟨.items, 0, 0, 0, 0, 0, ∅, p.params, p.rules, p.presetName, p.presetId⟩) t p.Reached p.Halted := by
      intro t ht htfaces
      exact runPhases_ensures_items hjson (Nat.zero_le _) ⟨rfl, rfl, rfl, rfl⟩
        rfl rfl rfl rfl (.fresh ht (.inr htfaces))
        (htfaces.trans p.afterItems_zero.symm)
    have hm : p.Stage m := .fresh hnone hfaces
    by_cases hreset : p.params.reset = true
    · rw [hreset]
      refine Ensures.bind (Ensures.transaction (hphases _ hnone ?_) ⟨hm, fun e he => ?_⟩ ⟨hm, nofun⟩)
      · rw [faces_clearCullFields]
        exact map_cleared hreset hfaces
      · exact (Stop.failed.inj he).symm
    · rw [Bool.not_eq_true] at hreset
      rw [hreset]
      have hbase : p.base = p.start := if_neg (by simp [hreset])
      exact hphases m hnone (hfaces.elim (fun h => h.trans hbase.symm) id)
  | items n c hsome hfrozen hphase hpos hn hindex hcompleted hskipped hfaces =>
    rw [hsome]
    dsimp only [Option.getD_some]
    rw [if_neg (by simp [hindex, Nat.ne_of_gt hpos]), hfrozen.refreeze]
    exact runPhases_ensures_items hjson hn hfrozen hphase hindex hcompleted hskipped
      (.items n c hsome hfrozen hphase hpos hn hindex hcompleted hskipped hfaces) hfaces
  | family n c hsome hfrozen hphase hn hindex hcompleted hskipped hfaces =>
    rw [hsome]
    dsimp only [Option.getD_some]
    rw [if_neg (by simp [hphase]), hfrozen.refreeze]
    have hstart : p.params.reset = true ∨ n = 0 := by
      cases hreset : p.params.reset with
      | true => exact .inl rfl
      | false => exact .inr (hindex.symm.trans (hguard c hsome hphase (hfrozen.params ▸ hreset)))
    unfold runPhases
    rw [if_neg (by simp [hphase])]
    refine Ensures.bind (Ensures.pure (runFamily_ensures (n := n) hjson
      (.family n c hsome hfrozen hphase hn hindex hcompleted hskipped hfaces) (fun c' hc' => ?_) hn hstart))
    obtain rfl := Sum.inr.inj hc'
    exact ⟨hfaces, hfrozen, hphase, hindex, hcompleted, hskipped⟩
  | done c hsome hfrozen hphase hsummary hfaces =>
    rw [hsome]
    dsimp only [Option.getD_some]
    rw [if_neg (by simp [hphase]), hfrozen.refreeze]
    unfold runPhases
    rw [if_neg (by simp [hphase])]
    refine Ensures.bind (Ensures.pure ?_)
    unfold runFamily
    dsimp only
    rw [if_neg (by simp [hphase])]
    refine Ensures.bind (Ensures.pure (Ensures.pure ⟨.done c hsome hfrozen hphase hsummary hfaces,
      fun summary h => ?_⟩))
    obtain rfl := CullOutcome.succeeded.inj h
    exact ⟨hfaces, hsummary⟩

theorem Stage.resolved (hm : p.Stage m) (hserves : Serves call p) :
    resolveParamsAndRules call m.checkpoint = .ok (p.params, p.rules, p.presetName, p.presetId) := by
  have hfrozen : ∀ c, m.checkpoint = some c → p.Frozen c →
      resolveParamsAndRules call m.checkpoint = .ok (p.params, p.rules, p.presetName, p.presetId) := by
    intro c hsome hc
    rw [hsome]
    show Except.ok (c.params, c.rules, c.presetName, c.presetId) = _
    rw [hc.params, hc.rules, hc.presetName, hc.presetId]
  cases hm with
  | fresh hnone _ =>
    rw [hnone]
    unfold resolveParamsAndRules
    dsimp only
    rw [hserves.params, if_neg hserves.batchSize, hserves.rules]
    rfl
  | items n c hsome hc _ _ _ _ _ _ _ => exact hfrozen c hsome hc
  | family n c hsome hc _ _ _ _ _ _ => exact hfrozen c hsome hc
  | done c hsome hc _ _ _ => exact hfrozen c hsome hc

theorem runCull_ensures (now : String)
    (hjson : ∀ reasons, ReasonsJson.fromJson (ReasonsJson.toJson reasons) = some reasons)
    (hserves : Serves call p) (hm : p.Stage m) (hguard : NotHalfway m) :
    Ensures (runCull call now) m p.Reached fun _ t => p.Stage t := by
  refine Ensures.bind (Ensures.look ?_)
  rw [hm.resolved hserves]
  refine Ensures.bind (Ensures.pure ?_)
  refine Ensures.bind (Ensures.touch ?_ fun _ => hm)
  refine Ensures.bind (Ensures.attempt ((runCullInner_ensures hjson hserves hm hguard).mono (fun o t ho => ?_)
    fun x t hx => ?_))
  · cases o with
    | succeeded summary =>
      refine Ensures.bind (Ensures.attempt (Ensures.touch (Ensures.pure ho) fun x => ?_))
      cases x with
      | failed e => exact Ensures.pure ⟨ho.1, fun summary h => nomatch h⟩
      | crashed => exact ho.1
    | paused summary => exact Ensures.pure ⟨ho.1, fun summary h => nomatch h⟩
    | failed message summary =>
      refine Ensures.bind (Ensures.attempt (Ensures.touch (Ensures.pure ⟨ho.1,
        fun summary h => nomatch h⟩) fun x => ?_))
      cases x with
      | failed e => exact Ensures.fail ho.1
      | crashed => exact ho.1
  · cases x with
    | failed e =>
      refine Ensures.bind (Ensures.attempt (Ensures.touch (Ensures.fail hx.1) fun x => ?_))
      cases x with
      | failed ae => exact Ensures.fail hx.1
      | crashed => exact hx.1
    | crashed => exact hx.1

end Plan

end MatterCull
