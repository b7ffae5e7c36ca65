import PstDedupe.MatterNeardup.Pivots

/-!
# Equal texts are treated alike

What a session writes is settled by the items and the frozen parameters, so the sessions of a job
agree on it.
-/

namespace MatterNeardup

open Rust Foundations Prog List

section

variable [Target] [Sha256] {table : List NearDupCandidate} {cas : String → Option (List UInt8)}
  {params : NearDupParams} {m : Matter}

/-- The row says what a good assignment of its item says. -/
def Settled (params : NearDupParams) (table : List NearDupCandidate)
    (cas : String → Option (List UInt8)) (r : ItemRow) : Prop :=
  ∃ asg : ClusterAssignment, asg.itemId = r.id ∧ r.fields.nearDupGroupId = asg.groupId ∧
    r.fields.nearDupRole = some asg.role ∧
    Good params (sketchesOf params table cas).sketched asg

/-- The first `n` results stand in the table. -/
def Written (params : NearDupParams) (table : List NearDupCandidate)
    (cas : String → Option (List UInt8)) (m : Matter) (n : Nat) : Prop :=
  ∀ r ∈ m.items, r.id ∈ (resultIds params table).take n → Settled params table cas r

/-- The items and blobs are those of the start, and the cursor of a write phase counts what stands
in the table. -/
structure Sound (table : List NearDupCandidate) (cas : String → Option (List UInt8)) (m : Matter) : Prop where
  cands : m.items.map ItemRow.cand = table
  store : m.cas = cas
  written : ∀ c, m.checkpoint = some c → c.phase = .write → Written c.params table cas m c.cursorIndex

omit [Sha256] [Target] in
theorem applyUpdates_cases (updates : List NearDupFieldUpdate) (r : ItemRow) :
    (∃ u ∈ updates, u.1 = r.id ∧ applyUpdates updates r = u.2) ∨
      (∀ u ∈ updates, u.1 ≠ r.id) ∧ applyUpdates updates r = r.fields := by
  induction updates using reverseRecOn with
  | nil => exact .inr ⟨fun _ h => absurd h not_mem_nil, rfl⟩
  | append_singleton updates u ih =>
    have hlast : applyUpdates (updates ++ [u]) r = if r.id = u.1 then u.2 else applyUpdates updates r := by
      unfold applyUpdates
      rw [foldl_append, foldl_cons, foldl_nil]
    rw [hlast]
    by_cases hid : r.id = u.1
    · exact .inl ⟨u, mem_append_right _ mem_cons_self, hid.symm, if_pos hid⟩
    · rw [if_neg hid]
      rcases ih with ⟨v, hv, hvid, heq⟩ | ⟨hnone, heq⟩
      · exact .inl ⟨v, mem_append_left _ hv, hvid, heq⟩
      · refine .inr ⟨fun v hv => ?_, heq⟩
        rcases List.mem_append.mp hv with hv | hv
        · exact hnone v hv
        · rw [List.mem_singleton.mp hv]
          exact Ne.symm hid

theorem Sound.batch (h : Sound table cas m) (call : NearDupCall) (results : List ClusterAssignment)
    (cursor : CheckpointCursor) {n : Nat}
    (hgood : ∀ asg ∈ results, Good params (sketchesOf params table cas).sketched asg)
    (hwritten : Written params table cas m n)
    (hids : ∀ id ∈ (resultIds params table).take cursor.cursorIndex,
      id ∈ (resultIds params table).take n ∨ id ∈ results.map ClusterAssignment.itemId)
    (hcursor : cursor.phase = .write → cursor.params = params) :
    let m' : Matter :=
  { m.rewrite (applyUpdates (results.map (fieldUpdate call))) with checkpoint := some cursor }
    Sound table cas m' ∧ Written params table cas m' cursor.cursorIndex := by
  have hw : Written params table cas
      { m.rewrite (applyUpdates (results.map (fieldUpdate call))) with checkpoint := some cursor }
        cursor.cursorIndex := by
    intro r' hr' hid
    obtain ⟨r, hr, rfl⟩ := List.mem_map.mp hr'
    rcases applyUpdates_cases (results.map (fieldUpdate call)) r with ⟨u, hu, huid, heq⟩ | ⟨hnone, heq⟩
    · obtain ⟨asg, hasg, rfl⟩ := List.mem_map.mp hu
      refine ⟨asg, huid, ?_, ?_, hgood asg hasg⟩
      · show (applyUpdates _ r).nearDupGroupId = _
        rw [heq]
        rfl
      · show (applyUpdates _ r).nearDupRole = _
        rw [heq]
        rfl
    · rcases hids r.id hid with hbefore | hnow
      · obtain ⟨asg, hasg, hgroup, hrole, hg⟩ := hwritten r hr hbefore
        refine ⟨asg, hasg, ?_, ?_, hg⟩
        · show (applyUpdates _ r).nearDupGroupId = _
          rw [heq]
          exact hgroup
        · show (applyUpdates _ r).nearDupRole = _
          rw [heq]
          exact hrole
      · obtain ⟨asg, hasg, hasgid⟩ := List.mem_map.mp hnow
        exact absurd hasgid (hnone _ (mem_map_of_mem hasg))
  refine ⟨⟨?_, h.store, fun c hc hphase => ?_⟩, hw⟩
  · show (m.items.map fun r => (⟨r.cand, applyUpdates _ r⟩ : ItemRow)).map ItemRow.cand = table
    rw [map_map]
    exact h.cands
  · obtain rfl := Option.some.inj hc
    rw [hcursor hphase]
    exact hw

theorem Sound.pause (h : Sound table cas m) (cursor : CheckpointCursor)
    (hcursor : cursor.phase = .write → Written cursor.params table cas m cursor.cursorIndex) :
    Ensures (pauseAt cursor) m (fun _ t => Sound table cas t) fun _ t => Sound table cas t := by
  refine Ensures.bind (Ensures.transaction (Ensures.pure ⟨?_, h.store, fun c hc hphase => ?_⟩) h h)
  · show (m.items.map fun r => (⟨r.cand, applyUpdates [] r⟩ : ItemRow)).map ItemRow.cand = table
    rw [map_map]
    exact h.cands
  · obtain rfl := Option.some.inj hc
    intro r' hr' hid
    obtain ⟨r, hr, rfl⟩ := List.mem_map.mp hr'
    exact hcursor hphase r hr hid

variable (call : NearDupCall)

theorem sketchLoop_ensures (cands : List NearDupCandidate) :
    ∀ (idx : Nat) (s : Sketches params.numHashes.toNat),
    Sound table cas m → Ensures (sketchLoop params cas cands idx s) m
      (fun r t => Sound table cas t ∧ ∀ s', r = .inr s' → t = m ∧
        s' = cands.foldl (Sketches.take params cas) s)
      fun _ t => Sound table cas t := by
  induction cands with
  | nil =>
    intro idx s hm
    refine Ensures.pure ⟨hm, fun s' hs' => ⟨rfl, ?_⟩⟩
    exact (Sum.inr.inj hs').symm
  | cons cand rest ih =>
    intro idx s hm
    unfold sketchLoop
    refine Ensures.bind (Ensures.poll (fun b => ?_) hm)
    split
    · have hpause := hm.pause (sketchCursor params .sketch idx s) fun h => nomatch (h : Phase.sketch = .write)
      exact Ensures.bind
        (hpause.mono (fun _ _ ht => Ensures.pure ⟨ht, fun _ hs' => nomatch hs'⟩) fun _ _ ht => ht)
    · exact ih (idx + 1) _ hm

theorem writeLoop_ensures {pending : List ClusterAssignment}
    (hgood : ∀ asg ∈ pending, Good params (sketchesOf params table cas).sketched asg)
    (hids : pending.map ClusterAssignment.itemId = resultIds params table) (fuel : Nat) :
    ∀ (idx : Nat) (m : Matter), Sound table cas m → Written params table cas m idx →
      pending.length ≤ idx + fuel →
      Ensures (writeLoop call params pending fuel idx) m
        (fun r t => Sound table cas t ∧ (r = .inr () → Written params table cas t pending.length))
          fun _ t => Sound table cas t := by
  have hlength : (resultIds params table).length = pending.length := by
    rw [← hids, length_map]
  have hall : ∀ (idx : Nat) (m : Matter), Written params table cas m idx → pending.length ≤ idx →
      Written params table cas m pending.length := by
    intro idx m hw hle r hr hid
    rw [← hlength, take_length] at hid
    exact hw r hr (by rwa [take_of_length_le (hlength ▸ hle)])
  induction fuel with
  | zero =>
    intro idx m hm hw hle
    exact Ensures.pure ⟨hm, fun _ => hall idx m hw hle⟩
  | succ fuel ih =>
    intro idx m hm hw hle
    unfold writeLoop
    split
    next hlt =>
      refine Ensures.bind (Ensures.poll (fun b => ?_) hm)
      split
      · exact Ensures.bind ((hm.pause (writeCursor params pending idx) fun _ => hw).mono
          (fun _ _ ht => Ensures.pure ⟨ht, fun h => nomatch h⟩) fun _ _ ht => ht)
      · dsimp only
        generalize hend : min (idx + max params.batchSize 1) pending.length = stop
        have hbatch := hm.batch call ((pending.take stop).drop idx) (writeCursor params pending stop)
          (fun asg hasg => hgood asg (mem_of_mem_take (mem_of_mem_drop hasg))) hw (fun id hid => ?_)
            fun _ => rfl
        · exact Ensures.bind (Ensures.transaction (ih stop _ hbatch.1 hbatch.2 (by omega)) hm hm)
        · -- the ids up to the end of the batch
          have hsplit : (resultIds params table).take stop
              = (resultIds params table).take idx ++
                ((pending.take stop).drop idx).map ClusterAssignment.itemId := by
            have hle : idx ≤ stop := by omega
            rw [map_drop, map_take, hids]
            calc (resultIds params table).take stop
                = ((resultIds params table).take stop).take idx ++
                  ((resultIds params table).take stop).drop idx :=
                  (take_append_drop _ _).symm
              _ = (resultIds params table).take idx ++ ((resultIds params table).take stop).drop idx := by
                  rw [take_take, Nat.min_eq_left hle]
          have hid : id ∈ (resultIds params table).take stop := hid
          rw [hsplit] at hid
          exact List.mem_append.mp hid
    next hge => exact Ensures.pure ⟨hm, fun _ => hall idx m hw (by omega)⟩

def Reached (params : NearDupParams) (table : List NearDupCandidate)
    (cas : String → Option (List UInt8)) (o : NearDupOutcome) (t : Matter) : Prop :=
  Sound table cas t ∧ ∀ summary, o = .succeeded summary → params.Valid ∧
    Written params table cas t (resultIds params table).length

theorem Sound.reached_paused (h : Sound table cas m) (summary : NearDupSummary) :
    Reached params table cas (.paused summary) m :=
  ⟨h, fun _ heq => nomatch heq⟩

theorem writePhase_ensures [RandomState] (hkeyed : (table.map NearDupCandidate.id).Nodup)
    (hvalid : params.Valid) {resumeFrom : Nat} (hm : Sound table cas m)
    (hw : Written params table cas m resumeFrom) :
    Ensures (writePhase call params (clusterPhase params (sketchesOf params table cas)) resumeFrom) m
      (Reached params table cas) fun _ t => Sound table cas t := by
  have hids : (clusterPhase params (sketchesOf params table cas)).map ClusterAssignment.itemId
      = resultIds params table :=
    itemId_clusterPhase
  have hlength : (clusterPhase params (sketchesOf params table cas)).length
      = (resultIds params table).length := by
    rw [← hids, length_map]
  have hstart : Written params table cas m
      (min resumeFrom (clusterPhase params (sketchesOf params table cas)).length) := by
    intro r hr hid
    exact hw r hr (take_subset_take_left _ (Nat.min_le_left _ _) hid)
  have hloop := writeLoop_ensures call (fun asg hasg => good_of_mem_clusterPhase hkeyed hvalid hasg) hids
    (clusterPhase params (sketchesOf params table cas)).length _ m hm hstart (by omega)
  refine Ensures.bind (hloop.mono (fun r t hr => ?_) fun _ _ ht => ht)
  cases r with
  | inl summary => exact Ensures.pure (hr.1.reached_paused summary)
  | inr u => exact Ensures.pure ⟨hr.1, fun summary _ => ⟨hvalid, hlength ▸ hr.2 rfl⟩⟩

theorem runPhases_ensures {prior : Option CheckpointCursor} (hm : Sound table cas m) (hvalid : params.Valid)
    (hprior : ∀ c, prior = some c → c.phase = .write → Written params table cas m c.cursorIndex) :
    Ensures (runPhases call params prior) m (Reached params table cas) fun _ t => Sound table cas t := by
  have hkeyed : (table.map NearDupCandidate.id).Nodup := by
    rw [← hm.cands, map_map]
    exact m.keyed
  have hresume : Written params table cas m
      ((prior.map fun c => if c.phase = .write then c.cursorIndex else 0).getD 0) := by
    have hnone : Written params table cas m 0 :=
      fun r _ hid => absurd hid (by rw [take_zero]; exact not_mem_nil)
    cases hp : prior with
    | none => exact hnone
    | some c =>
      show Written params table cas m (if c.phase = .write then c.cursorIndex else 0)
      split
      next hphase => exact hprior c hp hphase
      next => exact hnone
  unfold runPhases
  refine Ensures.bind (Ensures.poll (fun b => ?_) hm)
  split
  · exact Ensures.pure (hm.reached_paused _)
  · refine Ensures.bind (Ensures.look ?_)
    rw [id_eq, hm.cands, hm.store]
    refine Ensures.bind ((sketchLoop_ensures _ 0 {} hm).mono (fun r t hr => ?_) fun _ _ ht => ht)
    obtain ⟨ht, hr⟩ := hr
    cases r with
    | inl summary => exact Ensures.pure (ht.reached_paused summary)
    | inr s =>
      obtain ⟨rfl, rfl⟩ := hr s rfl
      refine Ensures.bind (Ensures.poll (fun b => ?_) hm)
      split
      · have hpause := hm.pause (sketchCursor params .cluster 0 (sketchesOf params table cas))
          fun h => nomatch (h : Phase.cluster = .write)
        exact Ensures.bind (hpause.mono
          (fun summary _ ht => Ensures.pure (ht.reached_paused summary)) fun _ _ ht => ht)
      · exact @writePhase_ensures _ _ _ _ _ _ call call.random hkeyed hvalid _ hm hresume

theorem runNeardup_ensures (hm : Sound table cas m) :
    Ensures (runNeardup call) m (Reached (effectiveParams call m.checkpoint) table cas) fun _ t =>
      Sound table cas t := by
  unfold runNeardup
  refine Ensures.bind (Ensures.look ?_)
  dsimp only
  split
  · exact Ensures.fail hm
  next hvalidate =>
    have hvalid := NearDupParams.valid_of_validate hvalidate
    have hprior : ∀ c, m.checkpoint = some c → c.phase = .write →
        Written (effectiveParams call m.checkpoint) table cas m c.cursorIndex := by
      intro c hc hphase
      rw [hc]
      exact hm.written c hc hphase
    have hinner : Ensures (runNeardupInner call (effectiveParams call m.checkpoint) m.checkpoint) m
        (Reached (effectiveParams call m.checkpoint) table cas) fun _ t => Sound table cas t := by
      unfold runNeardupInner
      split
      next hreset =>
        -- what is cleared is not yet written
        have hnotWrite : ∀ c, m.checkpoint = some c → c.phase ≠ .write := by
          intro c hc hphase
          unfold resets at hreset
          rw [hc, Option.map_some, Option.getD_some, hphase] at hreset
          simp at hreset
        have hclear : Sound table cas (clearNearDupFields m) := by
          refine ⟨?_, hm.store, fun c hc hphase => absurd hphase (hnotWrite c hc)⟩
          show (m.items.map fun r => (⟨r.cand, _⟩ : ItemRow)).map ItemRow.cand = table
          rw [map_map]
          exact hm.cands
        exact Ensures.bind (Ensures.transaction (runPhases_ensures call hclear hvalid
          fun c hc hphase => absurd hphase (hnotWrite c hc)) hm hm)
      next => exact runPhases_ensures call hm hvalid hprior
    refine Ensures.bind (Ensures.touch ?_ fun _ => hm)
    refine Ensures.bind (Ensures.attempt (hinner.mono (fun o t ho => ?_) fun x t hx => ?_))
    · cases o with
      | succeeded summary =>
        refine Ensures.bind (Ensures.attempt (Ensures.touch (Ensures.pure ho) fun x => ?_))
        cases x with
        | failed e => exact Ensures.pure ⟨ho.1, fun summary h => nomatch h⟩
        | crashed => exact ho.1
      | paused summary => exact Ensures.pure (ho.1.reached_paused summary)
      | failed message summary =>
        refine Ensures.bind (Ensures.attempt (Ensures.touch (Ensures.pure ⟨ho.1,
          fun summary h => nomatch h⟩) fun x => ?_))
        cases x with
        | failed e => exact Ensures.fail ho.1
        | crashed => exact ho.1
    · cases x with
      | failed e =>
        refine Ensures.bind (Ensures.attempt (Ensures.touch (Ensures.fail hx) fun x => ?_))
        cases x with
        | failed ae => exact Ensures.fail hx
        | crashed => exact hx
      | crashed => exact hx

/-- What one session of the job leaves. -/
def neardupSession : Matter → NearDupCall × List Outcome → Matter := session runNeardup

theorem sound_sessions {start : Matter} (hnew : start.checkpoint = none)
    (sessions : List (NearDupCall × List Outcome)) :
    Sound (start.items.map ItemRow.cand) start.cas (sessions.foldl neardupSession start) := by
  have hstart : Sound (start.items.map ItemRow.cand) start.cas start := by
    refine ⟨rfl, rfl, fun c hc => ?_⟩
    rw [hnew] at hc
    cases hc
  refine (Along.of_step (fun m i hm => ?_) hstart sessions).last
  exact session_keeps ((runNeardup_ensures i.1 hm).mono (fun _ _ h => h.1) fun _ _ h => h)

/-- The row is graded against this pivot. -/
def ItemRow.Follows (r : ItemRow) {h : Nat} (pivot : ItemMeta h) (strong : Prop) : Prop :=
  (strong → r.fields.nearDupGroupId = some (nearGroupId pivot.itemId) ∧ r.fields.nearDupRole ≠ some .unique) ∧
    (¬ strong → r.fields.nearDupGroupId = none ∧ r.fields.nearDupRole = some .unique)

/-- **Equal texts are treated alike.** Both items have the group of their pivot, or both are unique
and the pivot is a third item. -/
theorem runNeardup_equal_texts (start : Matter) (hnew : start.checkpoint = none)
    (sessions : List (NearDupCall × List Outcome))
    (last : NearDupCall × List Outcome) (summary : NearDupSummary)
    (hsucceeded : (runNeardup last.1 ⟨sessions.foldl neardupSession start,
      last.2⟩).1 = .ok (.succeeded summary)) :
    let params := effectiveParams last.1 (sessions.foldl neardupSession start).checkpoint
    let table := start.items.map ItemRow.cand
    ∀ c ∈ listNeardupCandidates table params.includeAttachments,
      ∀ d ∈ listNeardupCandidates table params.includeAttachments,
      c.id ≠ d.id → ∀ s t, shinglesOf params start.cas c = some s →
        shinglesOf params start.cas d = some t → (∀ x, x ∈ s.1 ↔ x ∈ t.1) →
      ∃ a b pivot, sketchItem params start.cas c = some a ∧ sketchItem params start.cas d = some b ∧
        IsPivot params (sketchesOf params table start.cas).sketched a pivot ∧
        (¬ params.threshold ≤ a.sig.estimateJaccard pivot.sig → pivot.itemId ≠ c.id ∧ pivot.itemId ≠ d.id) ∧
        ∀ r ∈ (neardupSession (sessions.foldl neardupSession start) last).items, r.id = c.id ∨
          r.id = d.id → r.Follows pivot (params.threshold ≤ a.sig.estimateJaccard pivot.sig) := by
  intro params table c hc d hd hne s t hs ht hsame
  have hsound := sound_sessions hnew sessions
  obtain ⟨hfinal, hreached⟩ := (runNeardup_ensures last.1 hsound).of_ok hsucceeded
  obtain ⟨hvalid, hwritten⟩ := hreached summary rfl
  -- the two items, with one signature
  have ha : sketchItem params start.cas c = some ⟨c.id, s.2, c.importedAt, c.path.getD "",
      minhashSignature s.1 params.hashSeed params.numHashes.toNat⟩ := by
    unfold sketchItem
    rw [hs]
    rfl
  have hb : sketchItem params start.cas d = some ⟨d.id, t.2, d.importedAt, d.path.getD "",
      minhashSignature s.1 params.hashSeed params.numHashes.toNat⟩ := by
    unfold sketchItem
    rw [ht, BTreeSet.eq_of_mem_iff hsame]
    rfl
  generalize hda : (⟨c.id, s.2, c.importedAt, c.path.getD "",
      minhashSignature s.1 params.hashSeed params.numHashes.toNat⟩ :
    ItemMeta params.numHashes.toNat) = a at ha
  generalize hdb : (⟨d.id, t.2, d.importedAt, d.path.getD "",
      minhashSignature s.1 params.hashSeed params.numHashes.toNat⟩ :
    ItemMeta params.numHashes.toNat) = b at hb
  have hsig : a.sig = b.sig := by rw [← hda, ← hdb]
  have haid := itemId_of_sketchItem ha
  have hbid := itemId_of_sketchItem hb
  have hamem : a ∈ (sketchesOf params table start.cas).sketched := mem_sketched hc ha
  have hbmem : b ∈ (sketchesOf params table start.cas).sketched := mem_sketched hd hb
  have hkeyed : (table.map NearDupCandidate.id).Nodup := by
    rw [map_map]
    exact start.keyed
  have hids : ((sketchesOf params table start.cas).sketched.map ItemMeta.itemId).Nodup :=
    (List.nodup_append.mp (nodup_sketches hkeyed)).2.1
  have hchain : Chain params (sketchesOf params table start.cas).sketched a b :=
    .rel _ _ ⟨hamem, hbmem, near_of_sig hvalid hsig⟩
  -- what the row of each says
  have hrow : ∀ e ∈ listNeardupCandidates table params.includeAttachments, ∀ x y,
      sketchItem params start.cas e = some x →
      x ∈ (sketchesOf params table start.cas).sketched → y ∈ (sketchesOf params table start.cas).sketched →
      y.itemId ≠ x.itemId → x.sig = y.sig →
        ∀ r ∈ (neardupSession (sessions.foldl neardupSession start) last).items, r.id = e.id →
      ∃ pivot, IsPivot params (sketchesOf params table start.cas).sketched x pivot ∧
        r.Follows pivot (params.threshold ≤ x.sig.estimateJaccard pivot.sig) := by
    intro e he x y hx hxmem hymem hyx hxy r hr hre
    have hresult : r.id ∈ (resultIds params table).take (resultIds params table).length := by
      rw [take_length, hre]
      exact (sortBy_perm _ _).mem_iff.mpr (mem_map_of_mem he)
    obtain ⟨asg, hasg, hgroup, hrole, hgood⟩ := hwritten r hr hresult
    obtain ⟨pivot, hpivot, hgraded⟩ :=
      hgood x hxmem ((itemId_of_sketchItem hx).trans (hre.symm.trans hasg.symm)) y hymem hyx hxy
    refine ⟨pivot, hpivot, fun hstrong => ?_, fun hweak => ?_⟩
    · unfold Graded at hgraded
      rw [if_pos hstrong] at hgraded
      exact ⟨hgroup.trans hgraded.1, fun h => hgraded.2 (Option.some.inj (hrole.symm.trans h))⟩
    · unfold Graded at hgraded
      rw [if_neg hweak] at hgraded
      exact ⟨hgroup.trans hgraded.1, hrole.trans (congrArg some hgraded.2)⟩
  have hab : b.itemId ≠ a.itemId := fun h => hne (haid.symm.trans (h.symm.trans hbid))
  -- the row of the first item gives the pivot
  have hcrow : ∃ r ∈ (neardupSession (sessions.foldl neardupSession start) last).items, r.id = c.id := by
    have hctable : c ∈ table := mem_of_mem_filter ((orderBy_perm _ _).mem_iff.mp hc)
    have hcfinal : c ∈ (neardupSession (sessions.foldl neardupSession start) last).items.map ItemRow.cand := by
      rw [show (neardupSession (sessions.foldl neardupSession start) last).items.map ItemRow.cand =
        table from hfinal.cands]
      exact hctable
    obtain ⟨r, hr, hrc⟩ := List.mem_map.mp hcfinal
    exact ⟨r, hr, congrArg NearDupCandidate.id hrc⟩
  obtain ⟨rc, hrc, hrcid⟩ := hcrow
  obtain ⟨pivot, hpivot, -⟩ := hrow c hc a b ha hamem hbmem hab hsig rc hrc hrcid
  refine ⟨a, b, pivot, ha, hb, hpivot, fun hweak => ⟨fun h => hweak ?_, fun h => hweak ?_⟩, ?_⟩
  · obtain rfl := inj_on_of_nodup_map hids hpivot.mem hamem (h.trans haid.symm)
    exact hvalid.self _
  · obtain rfl := inj_on_of_nodup_map hids hpivot.mem hbmem (h.trans hbid.symm)
    rw [hsig]
    exact hvalid.self _
  · rintro r hr (hrid | hrid)
    · obtain ⟨pivot', hpivot', hfollows⟩ := hrow c hc a b ha hamem hbmem hab hsig r hr hrid
      obtain rfl := hpivot.unique hids (.refl a) hpivot'
      exact hfollows
    · obtain ⟨pivot', hpivot', hfollows⟩ := hrow d hd b a hb hbmem hamem hab.symm hsig.symm r hr hrid
      obtain rfl := hpivot.unique hids hchain hpivot'
      rw [hsig]
      exact hfollows

end

def wordByWord : NearDupCall where
  jobId := "job_1"
  params := { shingleK := 1, numHashes := 2, numBands := 2, rowsPerBand := 1, threshold := 0.5, minChars := 0 }
  now := "2026-01-05T09:00:00.000Z"
  random := RandomState.inOrder

/-- Two equal texts, one that has a word more, and a longer one that shares that word. -/
def offers : Matter where
  items := [⟨{ id := "a", textSha256 := some "t1" }, {}⟩, ⟨{ id := "b", textSha256 := some "t1" }, {}⟩,
    ⟨{ id := "c", textSha256 := some "t2" }, {}⟩, ⟨{ id := "d", textSha256 := some "t3" }, {}⟩]
  cas := fun digest => ([("t1", "Offer"), ("t2", "Offer price"),
    ("t3", "price, price, price")].lookup digest).map bytes
  keyed := by decide

def succeeded : Except (Stop NearDupError) NearDupOutcome → Bool
  | .ok (.succeeded _) => true
  | _ => false

theorem exists_of_succeeded {r : Except (Stop NearDupError) NearDupOutcome}
    (h : succeeded r = true) : ∃ summary, r = .ok (.succeeded summary) := by
  unfold succeeded at h
  split at h
  next summary => exact ⟨summary, rfl⟩
  next => cases h

/-- The long text is the pivot, and the two equal ones fall out. -/
theorem runNeardup_demotes_twins :
    letI := Target.unix
    letI := Sha256.fips
    (∃ s, shinglesOf wordByWord.params offers.cas { id := "a", textSha256 := some "t1" } = some s ∧
        shinglesOf wordByWord.params offers.cas { id := "b", textSha256 := some "t1" } = some s) ∧
      (∃ summary, (runNeardup wordByWord ⟨offers, []⟩).1 = .ok (.succeeded summary)) ∧
      (neardupSession offers (wordByWord, [])).items.map (fun r => (r.id, r.fields.nearDupRole))
        = [("a", some .unique), ("b", some .unique), ("c", some .member), ("d", some .pivot)] :=
  letI := Target.unix
  letI := Sha256.fips
  have hsketched : (shinglesOf wordByWord.params offers.cas
      { id := "a", textSha256 := some "t1" }).isSome := by decide +kernel
  have hrun : succeeded (runNeardup wordByWord ⟨offers, []⟩).1 = true ∧
      (neardupSession offers (wordByWord, [])).items.map (fun r => (r.id, r.fields.nearDupRole))
        = [("a", some .unique), ("b", some .unique), ("c", some .member), ("d", some .pivot)] := by
          decide +kernel
  ⟨⟨_, (Option.some_get hsketched).symm, (Option.some_get hsketched).symm⟩, exists_of_succeeded hrun.1, hrun.2⟩

def interruptions : List (NearDupCall × List Outcome) :=
  [(wordByWord, [.done, .done, .done, .fails 0]), (wordByWord, replicate 9 .done ++ [.crashes 0])]

theorem runNeardup_equal_texts_offers :
    letI := Target.unix
    letI := Sha256.fips
    ∃ a b pivot, sketchItem wordByWord.params offers.cas { id := "a", textSha256 := some "t1" } = some a ∧
      sketchItem wordByWord.params offers.cas { id := "b", textSha256 := some "t1" } = some b ∧
      IsPivot wordByWord.params
        (sketchesOf wordByWord.params (offers.items.map ItemRow.cand) offers.cas).sketched a pivot ∧
      (¬ wordByWord.params.threshold ≤ a.sig.estimateJaccard pivot.sig → pivot.itemId ≠ "a" ∧
        pivot.itemId ≠ "b") ∧
      ∀ r ∈ (neardupSession (interruptions.foldl neardupSession offers) (wordByWord, [])).items,
        r.id = "a" ∨ r.id = "b" →
        r.Follows pivot (wordByWord.params.threshold ≤ a.sig.estimateJaccard pivot.sig) := by
  let := Target.unix
  let := Sha256.fips
  have hrun : succeeded (runNeardup wordByWord ⟨interruptions.foldl neardupSession offers, []⟩).1
      = true ∧ effectiveParams wordByWord (interruptions.foldl neardupSession offers).checkpoint
        = wordByWord.params := by
    decide +kernel
  obtain ⟨summary, hsummary⟩ := exists_of_succeeded hrun.1
  have hsketched : (shinglesOf wordByWord.params offers.cas
      { id := "a", textSha256 := some "t1" }).isSome := by decide +kernel
  have hequal := runNeardup_equal_texts offers rfl interruptions (wordByWord, []) summary hsummary
  rw [show effectiveParams (wordByWord, ([] : List Outcome)).1 _ = wordByWord.params from hrun.2] at hequal
  exact hequal { id := "a", textSha256 := some "t1" }
    (by decide +kernel) { id := "b", textSha256 := some "t1" } (by decide +kernel)
    (by decide) _ _ (Option.some_get hsketched).symm (Option.some_get hsketched).symm fun _ => Iff.rfl

/-! ## Hash seeds -/

section Seeds

variable {h : Nat} {threshold : Float} {members members' : List (Nat × ItemMeta h)}

theorem pickPivot_perm (hperm : members.Perm members')
    (hids : (members.map fun m => m.2.itemId).Nodup) : pickPivot members = pickPivot members' := by
  cases members with
  | nil => rw [hperm.nil_eq]
  | cons x rest =>
    obtain ⟨p, hp⟩ := exists_pickPivot (cons_ne_nil x rest)
    obtain ⟨q, hq⟩ := exists_pickPivot (ne_nil_of_mem (hperm.subset mem_cons_self))
    obtain ⟨hpmem, hpleast⟩ := pickPivot_spec hp
    obtain ⟨hqmem, hqleast⟩ := pickPivot_spec hq
    have hqmem' := hperm.mem_iff.mpr hqmem
    have hkey : p.2.key = q.2.key := le_antisymm (hpleast q hqmem') (hqleast p (hperm.mem_iff.mp hpmem))
    rw [hp, hq, inj_on_of_nodup_map hids hpmem hqmem' (ItemMeta.itemId_of_key hkey)]

theorem scoreComponent_perm [Sha256] (hperm : members.Perm members')
    (hids : (members.map fun m => m.2.itemId).Nodup) :
    (scoreComponent threshold members).Perm (scoreComponent threshold members') := by
  unfold scoreComponent
  rw [hperm.length_eq, pickPivot_perm hperm hids]
  split
  · exact hperm.map _
  · split
    · exact .refl _
    · dsimp only
      rw [((hperm.filter _).filter _).length_eq]
      split
      · exact hperm.map _
      · exact ((((hperm.filter _).filter _).map _).cons _).append (((hperm.filter _).filter _).map _)

variable [Sha256] {params : NearDupParams} {sketched : List (ItemMeta params.numHashes.toNat)}

/-- **What is assigned**, without the hash maps: a grade among all items that a chain connects. -/
theorem mem_clusterAndScore_iff [RandomState] (hvalid : params.Valid)
    (hids : (sketched.map ItemMeta.itemId).Nodup) {m : Nat × ClusterAssignment} :
    m ∈ clusterAndScore params.threshold sketched (candPairs params sketched) ↔
      ∃ a members, sketched[m.1]? = some a ∧ members.Nodup ∧
        (∀ x, x ∈ members ↔ sketched[x.1]? = some x.2 ∧ Chain params sketched a x.2) ∧
        m ∈ scoreComponent params.threshold members := by
  have hcomponent {members : List (Nat × ItemMeta params.numHashes.toNat)} {i : Nat}
      {a : ItemMeta params.numHashes.toNat}
      (hmembers : members ∈ components params.threshold sketched (candPairs params sketched))
        (ha : (i, a) ∈ members)
      (x : Nat × ItemMeta params.numHashes.toNat) :
      x ∈ members ↔ sketched[x.1]? = some x.2 ∧ Chain params sketched a x.2 := by
    have hi := ((mem_component hmembers ha _).mp ha).1
    rw [mem_component hmembers ha x]
    exact and_congr_right fun hx => ⟨chain_of_linked hi hx, linked_of_chain hvalid hids hi hx⟩
  rw [clusterAndScore_eq]
  constructor
  · intro hm
    obtain ⟨members, hmembers, hscore⟩ := List.mem_flatMap.mp hm
    obtain ⟨a, ha, -⟩ := itemId_of_mem_scoreComponent hscore
    exact ⟨a, members, ((mem_component hmembers ha _).mp ha).1,
      (nodup_of_mem_componentsOf hmembers).of_map, hcomponent hmembers ha, hscore⟩
  · rintro ⟨a, members, ha, hnodup, hmem, hscore⟩
    obtain ⟨members', hmembers', ha'⟩ :=
      exists_mem_componentsOf (linkedPairs params.threshold sketched (candPairs params sketched)) ha
    have hperm : members.Perm members' :=
      (perm_ext_iff_of_nodup hnodup (nodup_of_mem_componentsOf hmembers').of_map).mpr fun x =>
        (hmem x).trans (hcomponent hmembers' ha' x).symm
    refine List.mem_flatMap.mpr ⟨members', hmembers', (scoreComponent_perm hperm ?_).mem_iff.mp hscore⟩
    refine hnodup.map_on fun x hx y hy hid => ?_
    have hxitem := ((hmem x).mp hx).1
    have hyitem := ((hmem y).mp hy).1
    have hsame : x.2 = y.2 := inj_on_of_nodup_map hids (mem_of_getElem? hxitem) (mem_of_getElem? hyitem) hid
    exact Prod.ext ((getElem?_inj (List.getElem?_eq_some_iff.mp hxitem).1 (Nodup.of_map _ hids)).mp
      (hxitem.trans (hsame ▸ hyitem.symm))) hsame

variable [Target] {table : List NearDupCandidate} {cas : String → Option (List UInt8)}

theorem clusterPhase_seeds (hvalid : params.Valid) (hkeyed : (table.map NearDupCandidate.id).Nodup)
    (r r' : RandomState) :
    @clusterPhase _ r params (sketchesOf params table cas)
      = @clusterPhase _ r' params (sketchesOf params table cas) := by
  have hids : ((sketchesOf params table cas).skipped.map ClusterAssignment.itemId ++
      (sketchesOf params table cas).sketched.map ItemMeta.itemId).Nodup := nodup_sketches hkeyed
  generalize sketchesOf params table cas = s at hids
  have hsketched := (List.nodup_append.mp hids).2.1
  have hnodup [RandomState] :
      (clusterAndScore params.threshold s.sketched (candPairs params s.sketched)).Nodup :=
    (fst_clusterAndScore.nodup_iff.mpr nodup_range).of_map
  have hperm : (@clusterAndScore _ _ params.threshold r s.sketched (@candPairs r params s.sketched)).Perm
      (@clusterAndScore _ _ params.threshold r' s.sketched (@candPairs r' params s.sketched)) :=
    (perm_ext_iff_of_nodup (@hnodup r) (@hnodup r')).mpr fun m =>
      (@mem_clusterAndScore_iff _ _ _ r hvalid hsketched m).trans
        (@mem_clusterAndScore_iff _ _ _ r' hvalid hsketched m).symm
  have horder : OrdersBy [asc ClusterAssignment.itemId] ClusterAssignment.itemId := fun a b => by
    show (compare a.itemId b.itemId).then .eq = _
    rw [Ordering.then_eq]
  have hkeys [RandomState] : ((s.skipped ++ (clusterAndScore params.threshold s.sketched
      (candPairs params s.sketched)).map Prod.snd).map ClusterAssignment.itemId).Nodup := by
    rw [map_append, map_map]
    exact (ids_clusterAndScore.append_left _).nodup_iff.mpr hids
  exact eq_orderBy_of_pairwise horder ((orderBy_perm _ _).trans ((hperm.map Prod.snd).append_left s.skipped))
    (horder.pairwise_lt (@hkeys r))

theorem sketchLoop_bind {β : Type} (k k' : NearDupSummary ⊕ Sketches params.numHashes.toNat →
    Prog Matter NearDupError β)
    (cands : List NearDupCandidate) : ∀ (idx : Nat) (s : Sketches params.numHashes.toNat),
    (∀ summary, k (.inl summary) = k' (.inl summary)) →
    k (.inr (cands.foldl (Sketches.take params cas) s))
      = k' (.inr (cands.foldl (Sketches.take params cas) s)) →
    sketchLoop params cas cands idx s >>= k = sketchLoop params cas cands idx s >>= k' := by
  induction cands with
  | nil =>
    intro idx s hl hr
    unfold sketchLoop
    rw [pure_bind, pure_bind]
    exact hr
  | cons cand rest ih =>
    intro idx s hl hr
    unfold sketchLoop
    rw [bind_assoc, bind_assoc]
    refine bind_congr fun b => ?_
    split
    · rw [bind_assoc, bind_assoc]
      exact bind_congr fun summary => by rw [pure_bind, pure_bind, hl]
    · exact ih _ _ hl hr

omit [Target] [Sha256] in
theorem writePhase_seeds (call : NearDupCall) (random : RandomState)
    (pending : List ClusterAssignment) (resumeFrom : Nat) :
    writePhase { call with random } params pending resumeFrom = writePhase call params pending resumeFrom := by
  have hloop (fuel : Nat) : ∀ idx, writeLoop { call with random } params pending fuel idx
      = writeLoop call params pending fuel idx := by
    induction fuel with
    | zero => exact fun idx => rfl
    | succ fuel ih =>
      intro idx
      unfold writeLoop
      simp only [ih]
      rfl
  unfold writePhase
  rw [hloop]

/-- **A session does not depend on the hash seeds** of its process: with other ones it writes the
same results in the same batches, whatever fails or is cancelled, so sessions in different processes
continue each other. -/
theorem runNeardup_seeds (call : NearDupCall) (random : RandomState) :
    runNeardup { call with random } = runNeardup call := by
  have hphases (params : NearDupParams) (prior : Option CheckpointCursor) (hvalid : params.Valid) :
      runPhases { call with random } params prior = runPhases call params prior := by
    unfold runPhases
    refine bind_congr fun b => ?_
    split
    · rfl
    · refine bind_congr fun m => sketchLoop_bind _ _ _ _ _ (fun _ => rfl) ?_
      dsimp only
      refine bind_congr fun b => ?_
      split
      · rfl
      · have hkeyed : ((m.items.map ItemRow.cand).map NearDupCandidate.id).Nodup := by
          rw [map_map]
          exact m.keyed
        have hresults : _ = @clusterPhase _ call.random params
            (sketchesOf params (m.items.map ItemRow.cand) m.cas) :=
          clusterPhase_seeds hvalid hkeyed random call.random
        rw [writePhase_seeds]
        exact congrArg (fun pending => writePhase call params pending
          ((prior.map fun c => if c.phase = .write then c.cursorIndex else 0).getD 0)) hresults
  unfold runNeardup
  refine bind_congr fun prior => ?_
  have hparams : effectiveParams { call with random } prior = effectiveParams call prior := rfl
  dsimp only
  rw [hparams]
  cases hvalidate : (effectiveParams call prior).validate with
  | error message => rfl
  | ok _ =>
    have hinner : runNeardupInner { call with random } (effectiveParams call prior) prior
        = runNeardupInner call (effectiveParams call prior) prior := by
      unfold runNeardupInner
      rw [hphases _ prior (NearDupParams.valid_of_validate hvalidate)]
    rw [hinner]

end Seeds

end MatterNeardup
