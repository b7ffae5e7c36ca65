import PstDedupe.MatterPromote.Run

/-!
# What a promote job that succeeds has written

The checkpoint of a job holds its plan and how much of it stands in the items table.
-/

namespace MatterPromote

open Rust Foundations Prog List Option

/-! ## Members -/

def ItemRow.Member (setId : String) (r : ItemRow) : Prop :=
  r.fields.inReview = some 1 ∧ r.fields.reviewSetId = some setId

instance (setId : String) (r : ItemRow) : Decidable (r.Member setId) :=
  inferInstanceAs (Decidable (_ ∧ _))

/-- The first `n` ids of the plan stand in the table; other members are from before, and none with a
reset. -/
structure Placed (before : List ItemRow) (reset : Bool) (setId : String)
    (ordered : List String) (n : Nat)
    (rows : List ItemRow) : Prop where
  placed : ∀ (i : Nat) (id : String), ordered[i]? = some id → i < n → ∀ r ∈ rows, r.id = id →
    r.Member setId ∧ r.fields.reviewOrder = some ((i + 1 : Nat) : Int)
  others : ∀ r ∈ rows, r.id ∉ ordered.take n → r.Member setId → reset = false ∧ r ∈ before

/-- A cursor with a plan: it is the plan of its parameters, and the default set is the one it
names. -/
structure Ready (start m : Matter) (c : CheckpointCursor) : Prop where
  valid : c.params.validateShape = .ok ()
  resolved : resolvePolicy start.table c.params.policy = .ok c.resolvedPolicy
  planned : plannedIds start.table c.params c.resolvedPolicy = .ok c.orderedIds
  counted : c.promotedCount = c.orderedIds.length
  defaultSet : ∃ s, getDefaultReviewSet m = some s ∧ s.id = c.reviewSetId
  index : c.cursorIndex ≤ c.orderedIds.length
  atEnd : c.phase ≠ .write → c.cursorIndex = c.orderedIds.length
  placed : Placed start.items c.params.reset c.reviewSetId c.orderedIds c.cursorIndex m.items

/-- What holds between the sessions of a job. -/
structure Sound (start m : Matter) : Prop where
  table : m.table = start.table
  untouched : m.checkpoint = none → ∀ r ∈ m.items, r.fields.inReview = some 1 → r ∈ start.items
  ready : ∀ c, m.checkpoint = some c → Ready start m c
  begun : ∀ c, m.checkpoint = some c → c.phase = .write → c.orderedIds ≠ []

variable {start m : Matter} {c : CheckpointCursor} {params : PromoteParams}
  {resolvedPolicy : String}

theorem Matter.table_rewrite (m : Matter) (f : ItemRow → PromoteFields) :
    (m.rewrite f).table = m.table := by
  show (m.items.map fun r => (⟨r.cand, f r⟩ : ItemRow)).map ItemRow.cand = m.items.map ItemRow.cand
  rw [List.map_map]
  rfl

theorem Matter.table_keyed (m : Matter) : (m.table.map PromoteCandidate.id).Nodup := by
  unfold Matter.table
  rw [List.map_map]
  exact m.keyed

theorem plannedIds_eq_ok {table : List PromoteCandidate} {ids : List String}
    (h : plannedIds table params resolvedPolicy = .ok ids) :
    ∃ members, plannedMembers table params resolvedPolicy = .ok members ∧
      ids = (orderedMembership table members).map PromoteCandidate.id := by
  obtain ⟨members, hmembers, hids⟩ := bind_eq_ok.mp h
  exact ⟨members, hmembers, (Except.ok.inj hids).symm⟩

theorem Ready.nodup (h : Ready start m c) : c.orderedIds.Nodup := by
  obtain ⟨members, -, hids⟩ := plannedIds_eq_ok h.planned
  rw [hids]
  exact nodup_orderedMembership start.table_keyed

/-! ## Steps -/

theorem Sound.checkpoint (h : Sound start m) (hc : Ready start m c)
    (hbegun : c.phase = .write → c.orderedIds ≠ []) :
    Sound start { m.rewrite (applyUpdates []) with checkpoint := some c } := by
  have hitems : (m.rewrite (applyUpdates [])).items = m.items := by
    show (m.items.map fun r => (⟨r.cand, r.fields⟩ : ItemRow)) = m.items
    exact List.map_id _
  refine ⟨(m.table_rewrite _).trans h.table, fun hnone => absurd hnone (some_ne_none c),
    fun c' hc' => ?_, fun c' hc' => ?_⟩
  · obtain rfl := Option.some.inj hc'
    exact { hc with placed := by rw [hitems]; exact hc.placed }
  · obtain rfl := Option.some.inj hc'
    exact hbegun

theorem mem_batchUpdates {call : PromoteCall} {offset stop : Nat} {u : PromoteFieldUpdate}
    (hu : u ∈ batchUpdates call c offset stop) :
    ∃ i id, c.orderedIds[i]? = some id ∧ offset ≤ i ∧ i < stop ∧
      u = fieldUpdate call c (i + 1) id := by
  obtain ⟨i, hi, rfl⟩ := List.mem_mapIdx.mp hu
  refine ⟨offset + i, ((c.orderedIds.take stop).drop offset)[i], ?_, by omega, ?_, rfl⟩
  · have hlt : i < ((c.orderedIds.take stop).drop offset).length := hi
    rw [length_drop, length_take] at hlt
    rw [getElem_drop, getElem_take, getElem?_eq_getElem (by omega)]
  · rw [length_drop, length_take] at hi
    omega

theorem exists_batchUpdate {call : PromoteCall} {offset stop i : Nat} {id : String}
    (hid : c.orderedIds[i]? = some id) (hoffset : offset ≤ i) (hstop : i < stop) :
    ∃ u ∈ batchUpdates call c offset stop, u.1 = id := by
  obtain ⟨hi, rfl⟩ := List.getElem?_eq_some_iff.mp hid
  have hlt : i - offset < ((c.orderedIds.take stop).drop offset).length := by
    rw [length_drop, length_take]
    omega
  refine ⟨_, List.mem_mapIdx.mpr ⟨i - offset, hlt, rfl⟩, ?_⟩
  show ((c.orderedIds.take stop).drop offset)[i - offset] = c.orderedIds[i]
  rw [getElem_drop, getElem_take]
  congr 1
  omega

theorem Ready.batch (h : Ready start m c) (call : PromoteCall) {stop : Nat}
    (hle : c.cursorIndex ≤ stop) (hstop : stop ≤ c.orderedIds.length) (hwrite : c.phase = .write) :
    Ready start { m.rewrite (applyUpdates (batchUpdates call c c.cursorIndex stop)) with checkpoint := some (c.advance stop) }
      (c.advance stop) := by
  refine { h with index := hstop, atEnd := fun hphase => ?_, placed := ⟨?_, ?_⟩ }
  · show stop = c.orderedIds.length
    by_contra hne
    refine hphase ?_
    show (if stop = c.orderedIds.length then Phase.snapshot else c.phase) = .write
    rw [if_neg hne, hwrite]
  · intro i id hid (hi : i < stop) r' hr' hrid
    obtain ⟨r, hr, rfl⟩ := List.mem_map.mp hr'
    unfold ItemRow.Member
    dsimp only
    rcases foldl_assign_cases (batchUpdates call c c.cursorIndex stop) r.id r.fields with
      ⟨u, hu, huid, heq⟩ | ⟨hnone, heq⟩
    · obtain ⟨j, id', hj, -, -, rfl⟩ := mem_batchUpdates hu
      -- an id stands at one place of the plan
      have hji : j = i := by
        have hid' : id' = id := huid.trans hrid
        rw [hid'] at hj
        exact (getElem?_inj (List.getElem?_eq_some_iff.mp hj).1 h.nodup).mp (hj.trans hid.symm)
      rw [show applyUpdates _ r = _ from heq, hji]
      exact ⟨⟨rfl, rfl⟩, rfl⟩
    · rw [show applyUpdates _ r = _ from heq]
      have hold : i < c.cursorIndex := by
        by_contra hge
        have hlow : c.cursorIndex ≤ i := by omega
        obtain ⟨u, hu, huid⟩ : ∃ u ∈ batchUpdates call c c.cursorIndex stop, u.1 = id :=
          exists_batchUpdate hid hlow hi
        exact hnone u hu (huid.trans hrid.symm)
      exact h.placed.placed i id hid hold r hr hrid
  · intro r' hr' hid hmember
    obtain ⟨r, hr, rfl⟩ := List.mem_map.mp hr'
    have hnone : ∀ u ∈ batchUpdates call c c.cursorIndex stop, u.1 ≠ r.id := by
      intro u hu huid
      obtain ⟨j, id', hj, -, hjlt, rfl⟩ := mem_batchUpdates hu
      refine hid ?_
      have hid' : id' = r.id := huid
      rw [← hid']
      exact mem_of_getElem? ((getElem?_take_of_lt hjlt).trans hj)
    rcases foldl_assign_cases (batchUpdates call c c.cursorIndex stop) r.id r.fields with
      ⟨u, hu, huid, -⟩ | ⟨-, heq⟩
    · exact absurd huid (hnone u hu)
    · have hsame : (⟨r.cand, applyUpdates (batchUpdates call c c.cursorIndex stop) r⟩ : ItemRow)
        = r := by
        rw [show applyUpdates _ r = _ from heq]
      rw [hsame] at hmember ⊢
      refine h.placed.others r hr (fun hbefore => hid ?_) hmember
      exact take_subset_take_left _ hle hbefore

theorem Sound.batch (h : Sound start m) (hc : Ready start m c) (call : PromoteCall) {stop : Nat}
    (hlt : c.cursorIndex < stop) (hstop : stop ≤ c.orderedIds.length) (hwrite : c.phase = .write) :
    Sound start { m.rewrite (applyUpdates (batchUpdates call c c.cursorIndex stop)) with checkpoint := some (c.advance stop) } := by
  refine ⟨(m.table_rewrite _).trans h.table, fun hnone => absurd hnone (some_ne_none _),
    fun c' hc' => ?_, fun c' hc' _ => ?_⟩
  · obtain rfl := Option.some.inj hc'
    exact hc.batch call (Nat.le_of_lt hlt) hstop hwrite
  · obtain rfl := Option.some.inj hc'
    show c.orderedIds ≠ []
    intro hnil
    rw [hnil, length_nil] at hstop
    omega

theorem writeLoop_ensures (call : PromoteCall) {batchSize : Nat} (hbatch : 0 < batchSize)
    (fuel : Nat) : ∀ (c : CheckpointCursor) (m : Matter), Sound start m → Ready start m c →
      c.orderedIds.length ≤ c.cursorIndex + fuel →
      Ensures (writeLoop call batchSize fuel c c.cursorIndex) m
        (fun r t => Sound start t ∧
          ∀ c', r = .inr c' → Ready start t c' ∧ c'.cursorIndex = c'.orderedIds.length ∧
            c'.params = c.params ∧ c'.resolvedPolicy = c.resolvedPolicy)
        fun _ t => Sound start t := by
  induction fuel with
  | zero =>
    intro c m hm hc hfuel
    refine Ensures.pure ⟨hm, fun c' hc' => ?_⟩
    obtain rfl := Sum.inr.inj hc'
    have hindex := hc.index
    exact ⟨hc, by omega, rfl, rfl⟩
  | succ fuel ih =>
    intro c m hm hc hfuel
    unfold writeLoop
    split
    next hlt =>
      have hwrite : c.phase = .write := by
        by_contra hphase
        exact absurd (hc.atEnd hphase) (Nat.ne_of_lt hlt)
      refine Ensures.bind (Ensures.poll (fun b => ?_) hm)
      split
      · -- a pause leaves the cursor as it is
        have hpaused : ({ c with cursorIndex := c.cursorIndex, phase := .write } : CheckpointCursor)
          = c := by rw [← hwrite]
        dsimp only
        rw [hpaused]
        have hnonempty : c.orderedIds ≠ [] := fun hnil => by
          rw [hnil] at hlt
          exact Nat.not_lt_zero _ hlt
        exact Ensures.bind (Ensures.transaction (Ensures.pure ⟨hm.checkpoint hc fun _ => hnonempty,
          fun _ h => nomatch h⟩) hm hm)
      · dsimp only
        generalize hend : min (c.cursorIndex + batchSize) c.orderedIds.length = stop
        refine Ensures.bind (Ensures.transaction ?_ hm hm)
        refine ih (c.advance stop) _ (hm.batch hc call (by omega) (by omega) hwrite)
          (hc.batch call (by omega) (by omega) hwrite) ?_
        show c.orderedIds.length ≤ stop + fuel
        omega
    next hge =>
      refine Ensures.pure ⟨hm, fun c' hc' => ?_⟩
      obtain rfl := Sum.inr.inj hc'
      have hindex := hc.index
      exact ⟨hc, by omega, rfl, rfl⟩

/-! ## The row of the set -/

/-- A job that came to its end: the whole plan is written, and the default set counts it. -/
structure Promoted (start t : Matter) (params : PromoteParams) (resolvedPolicy setId : String)
    (planned : List String) : Prop where
  plan : plannedIds start.table params resolvedPolicy = .ok planned
  table : t.table = start.table
  current : ∃ s, getDefaultReviewSet t = some s ∧ s.id = setId
  counted : ∀ s ∈ t.reviewSets, s.id = setId → s.itemCount = planned.length
  placed : Placed start.items params.reset setId planned planned.length t.items

/-- An outcome that is a success comes with what has been written. -/
def Reached (start : Matter) (params : PromoteParams) (resolvedPolicy : String) (o : PromoteOutcome)
    (t : Matter) : Prop :=
  Sound start t ∧ ∀ summary, o = .succeeded summary →
    ∃ planned, Promoted start t params resolvedPolicy summary.reviewSetId planned

theorem getDefaultReviewSet_map {m : Matter} {f : ReviewSet → ReviewSet}
    (hf : ∀ s, (f s).isDefault = s.isDefault) :
    getDefaultReviewSet { m with reviewSets := m.reviewSets.map f }
      = (getDefaultReviewSet m).map f := by
  unfold getDefaultReviewSet
  rw [find?_map]
  congr 2
  exact funext hf

theorem ReviewSet.snapshot_isDefault (s : ReviewSet) (setId policy : String) (json : PromoteParams)
    (n : Int) : (s.snapshot setId policy json n).isDefault = s.isDefault := by
  unfold ReviewSet.snapshot
  split <;> rfl

theorem ReviewSet.snapshot_id (s : ReviewSet) (setId policy : String) (json : PromoteParams)
    (n : Int) : (s.snapshot setId policy json n).id = s.id := by
  unfold ReviewSet.snapshot
  split <;> rfl

theorem Ready.sets (h : Ready start m c) {t : Matter} (hitems : t.items = m.items)
    (hdefault : ∀ s, getDefaultReviewSet m = some s → ∃ s', getDefaultReviewSet t = some s' ∧
      s'.id = s.id) : Ready start t c := by
  obtain ⟨s, hs, hid⟩ := h.defaultSet
  obtain ⟨s', hs', hid'⟩ := hdefault s hs
  exact { h with defaultSet := ⟨s', hs', hid'.trans hid⟩, placed := hitems ▸ h.placed }

theorem Sound.sets (h : Sound start m) {t : Matter} (hitems : t.items = m.items)
    (hcheckpoint : t.checkpoint = m.checkpoint)
    (hdefault : ∀ s, getDefaultReviewSet m = some s → ∃ s', getDefaultReviewSet t = some s' ∧
      s'.id = s.id) : Sound start t := by
  refine ⟨?_, fun hnone => hitems ▸ h.untouched (hcheckpoint ▸ hnone), fun c hc => ?_,
    fun c hc => h.begun c (hcheckpoint ▸ hc)⟩
  · unfold Matter.table
    rw [hitems]
    exact h.table
  · exact (h.ready c (hcheckpoint ▸ hc)).sets hitems hdefault

theorem finalizePromote_ensures (hm : Sound start m) (hc : Ready start m c)
    (hend : c.cursorIndex = c.orderedIds.length) :
    Ensures (finalizePromote params c) m (Reached start c.params c.resolvedPolicy) fun _ t =>
      Sound start t := by
  obtain ⟨s, hs, hsid⟩ := hc.defaultSet
  have hexists : (m.reviewSets.any fun s => s.id == c.reviewSetId) = true := by
    rw [List.any_eq_true]
    exact ⟨s, mem_of_find?_eq_some hs, beq_iff_eq.mpr hsid⟩
  unfold finalizePromote updateReviewSetSnapshot
  refine Ensures.bind (Ensures.bind (Ensures.look ?_))
  dsimp only [id_eq]
  rw [if_pos hexists]
  generalize hsnapshot :
      (fun s : ReviewSet => s.snapshot c.reviewSetId c.resolvedPolicy params c.promotedCount) = f
  have hdefault : ∀ s, getDefaultReviewSet m = some s →
      ∃ s', getDefaultReviewSet { m with reviewSets := m.reviewSets.map f } = some s' ∧
        s'.id = s.id := by
    intro s hs
    rw [getDefaultReviewSet_map fun s => hsnapshot ▸ s.snapshot_isDefault _ _ _ _, hs]
    exact ⟨_, rfl, hsnapshot ▸ s.snapshot_id _ _ _ _⟩
  have hm' := hm.sets (t := { m with reviewSets := m.reviewSets.map f }) rfl rfl hdefault
  have hc' := hc.sets (t := { m with reviewSets := m.reviewSets.map f }) rfl hdefault
  have hdone : Ready start { m with reviewSets := m.reviewSets.map f } { c with phase := .done } :=
    { hc' with atEnd := fun _ => hend }
  have hfinal := hm'.checkpoint hdone fun h => nomatch (h : Phase.done = .write)
  refine Ensures.transaction (Ensures.bind (Ensures.transaction ?_ hm' hm')) hm hm
  -- the set of the job has the length of the plan
  have hpromoted : Reached start c.params c.resolvedPolicy
      (.succeeded (summaryFromCursor { c with phase := .done }))
      { Matter.rewrite { m with reviewSets := m.reviewSets.map f } (applyUpdates []) with
        checkpoint := some { c with phase := .done } } := by
    refine ⟨hfinal, fun summary hsummary => ⟨c.orderedIds, ?_⟩⟩
    obtain rfl := PromoteOutcome.succeeded.inj hsummary
    have hready := hfinal.ready _ rfl
    refine ⟨hc.planned, hfinal.table, hready.defaultSet, fun s' hs' hid => ?_, ?_⟩
    · obtain ⟨s, -, rfl⟩ := List.mem_map.mp hs'
      rw [← hsnapshot] at hid ⊢
      have hid : s.id = c.reviewSetId := (s.snapshot_id _ _ _ _).symm.trans hid
      show (s.snapshot _ _ _ _).itemCount = _
      unfold ReviewSet.snapshot
      rw [if_pos hid, hc.counted]
    · have hplaced := hready.placed
      rw [show ({ c with phase := Phase.done } : CheckpointCursor).cursorIndex = c.orderedIds.length
        from hend] at hplaced
      exact hplaced
  split
  · refine Ensures.bind (Ensures.attempt (Ensures.touch (Ensures.pure hpromoted) fun x => ?_))
    cases x with
    | failed e => exact Ensures.pure hpromoted
    | crashed => exact hfinal
  · exact Ensures.pure hpromoted

/-! ## The session -/

theorem writeMembership_ensures (call : PromoteCall) (hm : Sound start m) (hc : Ready start m c) :
    Ensures (writeMembership call params c) m (Reached start c.params c.resolvedPolicy) fun _ t =>
      Sound start t := by
  unfold writeMembership
  have hbatch : 0 < max params.batchSize 1 := by omega
  have hloop := writeLoop_ensures call hbatch c.orderedIds.length c m hm hc (by omega)
  refine Ensures.bind (hloop.mono (fun r t hr => ?_) fun _ _ ht => ht)
  obtain ⟨ht, hr⟩ := hr
  cases r with
  | inl summary => exact Ensures.pure ⟨ht, fun _ h => nomatch h⟩
  | inr written =>
    obtain ⟨hready, hend, hparams, hpolicy⟩ := hr written rfl
    rw [← hparams, ← hpolicy]
    dsimp only
    split
    next hempty =>
      have hready' : Ready start t { written with phase := .snapshot, cursorIndex := 0, completedCount := 0 } :=
        { hready with
          index := Nat.zero_le _
          atEnd := fun _ => hempty.symm
          placed := by
            have hplaced := hready.placed
            rw [hend, hempty] at hplaced
            exact hplaced }
      have hsnapshot := ht.checkpoint hready' fun h => nomatch (h : Phase.snapshot = .write)
      exact Ensures.bind (Ensures.transaction
        (finalizePromote_ensures hsnapshot (hsnapshot.ready _ rfl) hempty.symm) ht ht)
    next => exact finalizePromote_ensures ht hready hend

theorem promoteMembership_ensures (call : PromoteCall) (hm : Sound start m) (hc : Ready start m c) :
    Ensures (promoteMembership call params c) m (Reached start c.params c.resolvedPolicy) fun _ t =>
      Sound start t := by
  unfold promoteMembership
  split_ifs with hphase hempty hbeyond
  · refine finalizePromote_ensures hm hc (hc.atEnd ?_)
    rcases hphase with h | h <;> rw [h] <;> nofun
  · exact Ensures.pure ⟨hm, fun _ h => nomatch h⟩
  · exact absurd hc.index (by omega)
  · exact writeMembership_ensures call hm hc

theorem ensureDefaultReviewSet_ensures {newId name : String} (hm : Sound start m) :
    Ensures (ensureDefaultReviewSet newId name) m
      (fun s t => Sound start t ∧ getDefaultReviewSet t = some s ∧ t.checkpoint = m.checkpoint)
        fun _ t => Sound start t := by
  unfold ensureDefaultReviewSet
  refine Ensures.bind (Ensures.look ?_)
  dsimp only [id_eq]
  cases hdefault : getDefaultReviewSet m with
  | some existing => exact Ensures.pure ⟨hm, hdefault, rfl⟩
  | none =>
    dsimp only
    split
    · exact Ensures.fail hm
    · refine Ensures.bind (Ensures.transaction (Ensures.pure ⟨?_, ?_, rfl⟩) hm hm)
      · refine hm.sets rfl rfl fun s hs => ?_
        rw [hdefault] at hs
        cases hs
      · have hnone : m.reviewSets.find? ReviewSet.isDefault = none := hdefault
        unfold getDefaultReviewSet
        rw [find?_append, hnone]
        rfl

theorem fields_of_clearFields {setId : String} {r : ItemRow}
    (h : (clearFields setId r).inReview = some 1) :
    clearFields setId r = r.fields ∧ ¬ r.Member setId := by
  unfold clearFields at h ⊢
  split_ifs at h ⊢ with hset hnull
  · cases h
  · cases h
  · exact ⟨rfl, fun hmember => hset hmember.2⟩

theorem Sound.clear (hm : Sound start m) (hnone : m.checkpoint = none) (setId : String) :
    Sound start (clearReviewMembershipForSet setId m) ∧
      ∀ r ∈ (clearReviewMembershipForSet setId m).items, ¬ r.Member setId := by
  have hrow : ∀ r' ∈ (clearReviewMembershipForSet setId m).items, r'.fields.inReview = some 1 →
      r' ∈ m.items ∧ ¬ r'.Member setId := by
    intro r' hr' hin
    obtain ⟨r, hr, rfl⟩ := List.mem_map.mp hr'
    obtain ⟨hsame, hmember⟩ := fields_of_clearFields hin
    rw [hsame]
    exact ⟨hr, hmember⟩
  refine ⟨⟨(m.table_rewrite _).trans hm.table, fun _ r hr hin => ?_, fun c hc => ?_,
    fun c hc => ?_⟩, fun r hr hmember => ?_⟩
  · exact hm.untouched hnone r (hrow r hr hin).1 hin
  · exact absurd (hnone.symm.trans hc) (some_ne_none c).symm
  · exact absurd (hnone.symm.trans hc) (some_ne_none c).symm
  · exact (hrow r hr hmember.1).2 hmember

structure Resolved (start m : Matter) (params : PromoteParams) (resolvedPolicy : String) :
    Prop where
  valid : params.validateShape = .ok ()
  resolved : resolvePolicy start.table params.policy = .ok resolvedPolicy
  frozen : ∀ c, m.checkpoint = some c → params = c.params ∧ resolvedPolicy = c.resolvedPolicy

theorem Sound.resolved (hm : Sound start m) {call : PromoteParams}
    (h : resolveParams m.table call m.checkpoint = .ok (params, resolvedPolicy)) :
    Resolved start m params resolvedPolicy := by
  unfold resolveParams at h
  cases hcheckpoint : m.checkpoint with
  | none =>
    rw [hcheckpoint] at h
    obtain ⟨u, hvalid, h⟩ := bind_eq_ok.mp h
    obtain ⟨resolved, hresolved, h⟩ := bind_eq_ok.mp h
    obtain ⟨rfl, rfl⟩ := Prod.mk.inj (Except.ok.inj h)
    refine ⟨hvalid, hm.table ▸ hresolved, fun c hc => ?_⟩
    exact absurd (hcheckpoint.symm.trans hc) (some_ne_none c).symm
  | some c =>
    have hc := hm.ready c hcheckpoint
    rw [hcheckpoint] at h
    dsimp only at h
    rw [hc.valid] at h
    dsimp only at h
    rw [hm.table, hc.resolved] at h
    -- either way it is the policy of the checkpoint
    have hpair : (c.params, c.resolvedPolicy) = (params, resolvedPolicy) := by
      split at h
      · exact Except.ok.inj h
      · exact Except.ok.inj h
    obtain ⟨rfl, rfl⟩ := Prod.mk.inj hpair
    refine ⟨hc.valid, hc.resolved, fun c' hc' => ?_⟩
    obtain rfl := Option.some.inj (hcheckpoint.symm.trans hc')
    exact ⟨rfl, rfl⟩

theorem runPromoteInner_ensures (call : PromoteCall) (hm : Sound start m)
    (hres : Resolved start m params resolvedPolicy) :
    Ensures (runPromoteInner call params resolvedPolicy m.checkpoint) m
      (Reached start params resolvedPolicy) fun _ t => Sound start t := by
  unfold runPromoteInner
  refine Ensures.bind ((ensureDefaultReviewSet_ensures hm).mono (fun s t ht => ?_) fun _ _ ht => ht)
  obtain ⟨ht, hdefault, hcheckpoint⟩ := ht
  dsimp only
  cases hprior : m.checkpoint with
  | none =>
    rw [hprior] at hcheckpoint
    -- nothing is planned yet, and with a reset nothing stays
    have hstart : ∀ u : Matter, Sound start u → getDefaultReviewSet u = some s →
        u.checkpoint = none → (params.reset = true → ∀ r ∈ u.items, ¬ r.Member s.id) →
        Ensures (planMembership params resolvedPolicy (startCursor params resolvedPolicy s none) >>=
          promoteMembership call params) u
          (Reached start params resolvedPolicy) fun _ t => Sound start t := by
      intro u hu hs hnone hclear
      unfold planMembership
      rw [if_pos (show (startCursor params resolvedPolicy s none).orderedIds = [] from rfl)]
      refine Ensures.bind (Ensures.bind (Ensures.look ?_))
      rw [hu.table]
      cases hplan : plannedIds start.table params resolvedPolicy with
      | error e => exact Ensures.fail hu
      | ok ids =>
        refine Ensures.pure (promoteMembership_ensures call hu ⟨hres.valid, hres.resolved, hplan,
          rfl, ⟨s, hs, rfl⟩, Nat.zero_le _,
          fun hphase => absurd rfl hphase, fun i id _ hi => absurd hi (Nat.not_lt_zero i), fun r hr _ hmember => ?_⟩)
        cases hreset : params.reset with
        | true => exact absurd hmember (hclear hreset r hr)
        | false => exact ⟨hreset, hu.untouched hnone r hr hmember.1⟩
    split
    next hreset =>
      have hclear := ht.clear hcheckpoint s.id
      exact Ensures.bind
        (Ensures.transaction (hstart _ hclear.1 hdefault hcheckpoint fun _ => hclear.2) ht ht)
    next hkeep =>
      refine hstart t ht hdefault hcheckpoint fun hreset => absurd ?_ hkeep
      rw [hreset]
      rfl
  | some c =>
    rw [hprior] at hcheckpoint
    have hc := ht.ready c hcheckpoint
    obtain ⟨rfl, rfl⟩ := hres.frozen c hprior
    have hset : s.id = c.reviewSetId := by
      obtain ⟨s', hs', hid⟩ := hc.defaultSet
      rw [Option.some.inj (hdefault.symm.trans hs')]
      exact hid
    have hcursor : startCursor c.params c.resolvedPolicy s (some c)
        = { c with reviewSetName := s.name } := by
      unfold startCursor
      rw [hset]
      rfl
    rw [hcursor]
    have hready : Ready start t { c with reviewSetName := s.name } := { hc with }
    have hnotFresh : ({ c with reviewSetName := s.name } : CheckpointCursor).isFresh = false := by
      by_contra hfresh
      rw [Bool.not_eq_false] at hfresh
      simp only [CheckpointCursor.isFresh, Bool.and_eq_true, beq_iff_eq, List.isEmpty_iff] at hfresh
      exact ht.begun c hcheckpoint hfresh.2 hfresh.1.2
    rw [hnotFresh, Bool.and_false, if_neg Bool.false_ne_true]
    unfold planMembership
    split
    next hempty =>
      refine Ensures.bind (Ensures.bind (Ensures.look ?_))
      rw [ht.table, hc.planned]
      -- what is planned again is still empty
      have hnil : c.orderedIds = [] := hempty
      have hsame : ({ c with reviewSetName := s.name, orderedIds := c.orderedIds, promotedCount := c.orderedIds.length } : CheckpointCursor)
          = { c with reviewSetName := s.name } := by rw [← hc.counted]
      dsimp only
      rw [hsame]
      exact Ensures.pure (promoteMembership_ensures call ht hready)
    next => exact Ensures.bind (Ensures.pure (promoteMembership_ensures call ht hready))

theorem runPromote_ensures (call : PromoteCall) (hm : Sound start m) : Ensures (runPromote call) m
      (fun o t => Sound start t ∧ ∀ summary, o = .succeeded summary →
        ∃ params resolvedPolicy planned,
        resolveParams m.table call.params m.checkpoint = .ok (params, resolvedPolicy) ∧
          Promoted start t params resolvedPolicy summary.reviewSetId planned)
      fun _ t => Sound start t := by
  unfold runPromote
  refine Ensures.bind (Ensures.look ?_)
  dsimp only [id_eq]
  cases hparams : resolveParams m.table call.params m.checkpoint with
  | error e => exact Ensures.fail hm
  | ok resolved =>
    obtain ⟨params, resolvedPolicy⟩ := resolved
    have hinner := runPromoteInner_ensures call hm (hm.resolved hparams)
    refine Ensures.bind (Ensures.touch ?_ fun _ => hm)
    refine Ensures.bind (Ensures.attempt (hinner.mono (fun o t ho => ?_) fun x t hx => ?_))
    · obtain ⟨ht, ho⟩ := ho
      cases o with
      | succeeded summary =>
        refine Ensures.bind
          (Ensures.attempt (Ensures.touch (Ensures.pure ⟨ht, fun summary' h => ?_⟩) fun x => ?_))
        · obtain ⟨planned, hpromoted⟩ := ho summary' h
          exact ⟨params, resolvedPolicy, planned, rfl, hpromoted⟩
        · cases x with
          | failed e => exact Ensures.pure ⟨ht, fun _ h => nomatch h⟩
          | crashed => exact ht
      | paused summary => exact Ensures.pure ⟨ht, fun _ h => nomatch h⟩
      | failed message summary =>
        refine Ensures.bind
          (Ensures.attempt (Ensures.touch (Ensures.pure ⟨ht, fun _ h => nomatch h⟩) fun x => ?_))
        cases x with
        | failed e => exact Ensures.fail ht
        | crashed => exact ht
    · cases x with
      | failed e =>
        refine Ensures.bind (Ensures.attempt (Ensures.touch (Ensures.fail hx) fun x => ?_))
        cases x with
        | failed ae => exact Ensures.fail hx
        | crashed => exact hx
      | crashed => exact hx

/-- What one session of the job leaves. -/
def promoteSession : Matter → PromoteCall × List Outcome → Matter := session runPromote

theorem sound_sessions {start : Matter} (hnew : start.checkpoint = none)
    (sessions : List (PromoteCall × List Outcome)) :
    Sound start (sessions.foldl promoteSession start) := by
  have hstart : Sound start start := by
    refine ⟨rfl, fun _ r hr _ => hr, fun c hc => ?_, fun c hc => ?_⟩
    · exact absurd (hnew.symm.trans hc) (some_ne_none c).symm
    · exact absurd (hnew.symm.trans hc) (some_ne_none c).symm
  refine (Along.of_step (fun m i hm => ?_) hstart sessions).last
  exact session_keeps ((runPromote_ensures i.1 hm).mono (fun _ _ h => h.1) fun _ _ h => h)

/-! ## The review set -/

/-- `WHERE in_review = 1 AND review_set_id = setId`. -/
def Matter.members (m : Matter) (setId : String) : List ItemRow :=
  m.items.filter fun r => r.Member setId

section

variable {t : Matter} {setId : String} {planned : List String}

theorem Promoted.nodup (h : Promoted start t params resolvedPolicy setId planned) :
    planned.Nodup := by
  obtain ⟨members, -, rfl⟩ := plannedIds_eq_ok h.plan
  exact nodup_orderedMembership start.table_keyed

theorem Promoted.row (h : Promoted start t params resolvedPolicy setId planned) {i : Nat}
    {id : String} (hid : planned[i]? = some id) :
    ∃ r ∈ t.items, r.id = id ∧ r.Member setId ∧
      r.fields.reviewOrder = some ((i + 1 : Nat) : Int) := by
  obtain ⟨members, -, hplanned⟩ := plannedIds_eq_ok h.plan
  have hmem : id ∈ planned := mem_of_getElem? hid
  rw [hplanned] at hmem
  obtain ⟨c, hc, rfl⟩ := List.mem_map.mp hmem
  have htable : c ∈ t.table := by
    rw [h.table]
    exact (mem_orderedMembership.mp hc).1
  obtain ⟨r, hr, rfl⟩ := List.mem_map.mp htable
  obtain ⟨hi, -⟩ := List.getElem?_eq_some_iff.mp hid
  obtain ⟨hmember, horder⟩ := h.placed.placed i r.id hid hi r hr rfl
  exact ⟨r, hr, rfl, hmember, horder⟩

theorem Promoted.dense (h : Promoted start t params resolvedPolicy setId planned)
    (hothers : params.reset = true ∨ ∀ r ∈ start.items, r.Member setId → r.id ∈ planned) :
    ((t.members setId).map ItemRow.id).Perm planned ∧
    ((t.members setId).map fun r => r.fields.reviewOrder).Perm
        ((range (t.members setId).length).map fun i => some ((i + 1 : Nat) : Int)) := by
  have hmember : ∀ r, r ∈ t.members setId ↔ r ∈ t.items ∧ r.Member setId := fun r => by
    unfold Matter.members
    rw [mem_filter, decide_eq_true_iff]
  have hplanned : ∀ r ∈ t.members setId, r.id ∈ planned := by
    intro r hr
    obtain ⟨hr, hin⟩ := (hmember r).mp hr
    by_contra hnot
    obtain ⟨hreset, hbefore⟩ := h.placed.others r hr (by rwa [take_length]) hin
    rcases hothers with hreset' | hbefore'
    · rw [hreset] at hreset'
      cases hreset'
    · exact hnot (hbefore' r hbefore hin)
  have hids : ((t.members setId).map ItemRow.id).Perm planned := by
    refine (perm_ext_iff_of_nodup ((List.filter_sublist.map _).nodup t.keyed) h.nodup).mpr
      fun id => ?_
    constructor
    · intro hid
      obtain ⟨r, hr, rfl⟩ := List.mem_map.mp hid
      exact hplanned r hr
    · intro hid
      obtain ⟨i, hi⟩ := getElem?_of_mem hid
      obtain ⟨r, hr, rfl, hin, -⟩ := h.row hi
      exact List.mem_map_of_mem ((hmember r).mpr ⟨hr, hin⟩)
  refine ⟨hids, ?_⟩
  -- the number of a row is the place of its id
  have hplace : (t.members setId).map (fun r => r.fields.reviewOrder)
      = ((t.members setId).map ItemRow.id).map fun id =>
        some ((planned.idxOf id + 1 : Nat) : Int) := by
    rw [List.map_map]
    refine map_congr_left fun r hr => ?_
    have hlt := List.idxOf_lt_length_iff.mpr (hplanned r hr)
    have hget : planned[planned.idxOf r.id]?
        = some r.id := by rw [getElem?_eq_getElem hlt, getElem_idxOf]
    exact (h.placed.placed _ r.id hget hlt r ((hmember r).mp hr).1 rfl).2
  have hrange : (planned.map fun id => some ((planned.idxOf id + 1 : Nat) : Int))
      = (range planned.length).map fun i => some ((i + 1 : Nat) : Int) := by
    refine ext_getElem (by rw [length_map, length_map, length_range]) fun i hi _ => ?_
    rw [getElem_map, getElem_map, getElem_range, h.nodup.idxOf_getElem]
  have hlength : (t.members setId).length = planned.length := by rw [← hids.length_eq, length_map]
  rw [hplace, hlength, ← hrange]
  exact hids.map _

/-- The policy or the flag asks for families. -/
def Expands (params : PromoteParams) (resolvedPolicy : String) : Prop :=
  (params.expandFamilies || policyImpliesExpand resolvedPolicy) = true

theorem getElem?_orderedMembership {table : List PromoteCandidate} {members : List String}
    (hkeyed : (table.map PromoteCandidate.id).Nodup) {i : Nat} {a : PromoteCandidate}
    (ha : a ∈ table)
    (h : ((orderedMembership table members).map PromoteCandidate.id)[i]? = some a.id) :
    (orderedMembership table members)[i]? = some a := by
  rw [getElem?_map, map_eq_some_iff] at h
  obtain ⟨b, hb, hid⟩ := h
  rw [hb, inj_on_of_nodup_map hkeyed (mem_orderedMembership.mp (mem_of_getElem? hb)).1 ha hid]

/-- The rows a succeeded job leaves in `t`: `planned` numbered from 1 in the default review set, and
what stands beside it. -/
structure ReviewSetOf (start t : Matter) (params : PromoteParams) (resolvedPolicy setId : String)
    (base planned : List String) : Prop where
  selected : selectBaseIdsFromCandidates start.table resolvedPolicy params.requireDedupe = .ok base
  plan : plannedIds start.table params resolvedPolicy = .ok planned
  exists_set : ∃ s ∈ t.reviewSets, s.id = setId ∧ s.isDefault = true
  itemCount : ∀ s ∈ t.reviewSets, s.id = setId → s.itemCount = planned.length
  numbered : ∀ (i : Nat) (id : String), planned[i]? = some id →
    ∃ r ∈ t.items, r.id = id ∧ r.Member setId ∧ r.fields.reviewOrder = some ((i + 1 : Nat) : Int)
  others : ∀ r ∈ t.items, r.Member setId → r.id ∉ planned → params.reset = false ∧ r ∈ start.items
  dense : (params.reset = true ∨ ∀ r ∈ start.items, r.Member setId → r.id ∈ planned) →
    ((t.members setId).map ItemRow.id).Perm planned ∧
      ((t.members setId).map fun r => r.fields.reviewOrder).Perm
        ((range (t.members setId).length).map fun i => some ((i + 1 : Nat) : Int))
  expanded : Expands params resolvedPolicy → ∀ c ∈ start.table,
    (c.id ∈ planned ↔ ∃ b ∈ base, Within (FamilyLink start.table) 2 b c.id)
  /-- With families of two levels, parents and children of members are members. -/
  closed : Expands params resolvedPolicy → TwoLevels start.table → ∀ c ∈ start.table,
    ∀ d ∈ start.table, FamilyLink start.table c.id d.id → c.id ∈ planned → d.id ∈ planned
  together : ∀ (i j k : Nat), ∀ a ∈ start.table, ∀ b ∈ start.table, ∀ c ∈ start.table,
    planned[i]? = some a.id →
    planned[j]? = some b.id → planned[k]? = some c.id → i ≤ j → j ≤ k → a.familyKey = c.familyKey →
      b.familyKey = a.familyKey
  parentFirst : ∀ (i j : Nat), ∀ a ∈ start.table, ∀ b ∈ start.table, planned[i]? = some a.id →
    planned[j]? = some b.id →
    a.parentItemId = none → b.parentItemId = some a.id → i < j

theorem Promoted.reviewSetOf (h : Promoted start t params resolvedPolicy setId planned) :
    ∃ base, ReviewSetOf start t params resolvedPolicy setId base planned := by
  obtain ⟨members, hmembers, hplanned⟩ := plannedIds_eq_ok h.plan
  obtain ⟨base, hbase, hmembers⟩ := bind_eq_ok.mp hmembers
  have hmem : ∀ c ∈ start.table, c.id ∈ planned ↔ c.id ∈ members := by
    intro c hc
    rw [hplanned, List.mem_map]
    constructor
    · rintro ⟨d, hd, hid⟩
      exact hid ▸ (mem_orderedMembership.mp hd).2
    · exact fun hin => ⟨c, mem_orderedMembership.mpr ⟨hc, hin⟩, rfl⟩
  have hexpanded : Expands params resolvedPolicy → ∀ c ∈ start.table,
      (c.id ∈ planned ↔ ∃ b ∈ base, Within (FamilyLink start.table) 2 b c.id) := by
    intro hexpands c hc
    rw [show (params.expandFamilies || policyImpliesExpand resolvedPolicy) = true from hexpands,
      if_pos rfl] at hmembers
    rw [hmem c hc, ← Except.ok.inj hmembers, mem_expandFamiliesBidirectional]
  refine ⟨base, hbase, h.plan, ?_, h.counted, fun i id hid => h.row hid,
    fun r hr hin hnot => ?_, h.dense, hexpanded,
    fun hexpands hflat c hc d hd hlink hin => ?_, ?_, ?_⟩
  · obtain ⟨s, hs, hid⟩ := h.current
    exact ⟨s, mem_of_find?_eq_some hs, hid, find?_some hs⟩
  · exact h.placed.others r hr (by rwa [take_length]) hin
  · obtain ⟨b, hb, hbc⟩ := (hexpanded hexpands c hc).mp hin
    exact (hexpanded hexpands d hd).mpr
      ⟨b, hb, hbc.closed (short_familyLink start.table_keyed hflat) hlink⟩
  · intro i j k a ha b hb c hc hi hj hk hij hjk hkey
    rw [hplanned] at hi hj hk
    exact familyKey_of_between start.table_keyed
      (getElem?_orderedMembership start.table_keyed ha hi)
      (getElem?_orderedMembership start.table_keyed hb hj)
        (getElem?_orderedMembership start.table_keyed hc hk) hij hjk hkey
  · intro i j a ha b hb hi hj hroot hchild
    rw [hplanned] at hi hj
    exact parent_first start.table_keyed (getElem?_orderedMembership start.table_keyed ha hi)
      (getElem?_orderedMembership start.table_keyed hb hj) hroot hchild

end

/-- **The review set of a job**, whatever pauses and crashes came before the session that
succeeds. -/
theorem runPromote_review_order (start : Matter) (hnew : start.checkpoint = none)
    (sessions : List (PromoteCall × List Outcome))
    (last : PromoteCall × List Outcome) (summary : PromoteSummary)
    (hsucceeded : (runPromote last.1 ⟨sessions.foldl promoteSession start,
      last.2⟩).1 = .ok (.succeeded summary)) :
    let m := sessions.foldl promoteSession start
    ∃ params resolvedPolicy base planned,
      resolveParams m.table last.1.params m.checkpoint = .ok (params, resolvedPolicy) ∧
      ReviewSetOf start (promoteSession m last) params resolvedPolicy summary.reviewSetId base
        planned := by
  intro m
  have hsound := sound_sessions hnew sessions
  obtain ⟨-, hreached⟩ := (runPromote_ensures last.1 hsound).of_ok hsucceeded
  obtain ⟨params, resolvedPolicy, planned, hparams, hpromoted⟩ := hreached summary rfl
  obtain ⟨base, hset⟩ := hpromoted.reviewSetOf
  exact ⟨params, resolvedPolicy, base, planned, hparams, hset⟩

/-! ## A nested family, and a member from before -/

def uniqueWithFamily : PromoteCall where
  jobId := "job_1"
  params := { policy := POLICY_UNIQUE_ONLY, batchSize := 2 }
  now := "2026-01-05T09:00:00.000Z"
  newSetId := "rset_1"

/-- A mail `m`, its attachment `a`, and what is attached to that; only the mail is unique. -/
def nested : Matter where
  items := [⟨{ id := "a", parentItemId := some "m", dedupRole := some "duplicate" }, {}⟩,
    ⟨{ id := "m", dedupRole := some "unique" }, {}⟩,
    ⟨{ id := "q", parentItemId := some "z", dedupRole := some "duplicate" }, {}⟩,
    ⟨{ id := "z", parentItemId := some "a", dedupRole := some "duplicate" }, {}⟩]
  keyed := by decide

/-- A mail that is in the review set already, and is no longer selected. -/
def leftover : Matter where
  items := [⟨{ id := "new", dedupRole := some "unique" }, {}⟩,
    ⟨{ id := "old", dedupRole := some "duplicate" },
      { inReview := some 1, reviewSetId := some "rset_0", reviewOrder := some 1, promoteJobId := some "job_0" }⟩]
  reviewSets := [{ id := "rset_0", name := "Review Corpus", isDefault := true, itemCount := 1 }]
  keyed := by decide

def succeeded : Except (Stop PromoteError) PromoteOutcome → Bool
  | .ok (.succeeded _) => true
  | _ => false

theorem exists_of_succeeded {r : Except (Stop PromoteError) PromoteOutcome}
    (h : succeeded r = true) : ∃ summary, r = .ok (.succeeded summary) := by
  unfold succeeded at h
  split at h
  next summary => exact ⟨summary, rfl⟩
  next => cases h

/-- Two rounds do not reach `q`, and `z` stands before its parent; without a reset two members have
the number 1. -/
theorem runPromote_nested_leftover :
    (∃ summary, (runPromote uniqueWithFamily ⟨nested, []⟩).1 = .ok (.succeeded summary)) ∧
      (promoteSession nested (uniqueWithFamily, [])).items.map
      (fun r => (r.id, r.cand.parentItemId, r.fields.inReview, r.fields.reviewOrder))
        = [("a", some "m", some 1, some 3), ("m", none, some 1, some 2),
          ("q", some "z", none, none), ("z", some "a", some 1, some 1)] ∧
      let again : PromoteCall :=
  { uniqueWithFamily with params := { policy := POLICY_UNIQUE_ONLY, reset := false } }
      (∃ summary, (runPromote again ⟨leftover, []⟩).1 = .ok (.succeeded summary)) ∧
        ((promoteSession leftover (again, [])).members "rset_0").map
          (fun r => (r.id, r.fields.reviewOrder)) = [("new", some 1), ("old", some 1)] ∧
        (promoteSession leftover (again, [])).reviewSets.map ReviewSet.itemCount = [1] :=
  ⟨exists_of_succeeded (by decide +kernel), by decide +kernel,
    exists_of_succeeded (by decide +kernel), by decide +kernel, by decide +kernel⟩

def interruptions : List (PromoteCall × List Outcome) :=
  [(uniqueWithFamily, [.done, .done, .done, .done, .done, .fails 0]),
    (uniqueWithFamily, [.done, .done, .done, .crashes 0])]

theorem runPromote_review_order_nested :
    let m := interruptions.foldl promoteSession nested
    ∃ (summary : PromoteSummary) (params : PromoteParams) (resolvedPolicy : String)
      (base planned : List String),
      resolveParams m.table uniqueWithFamily.params m.checkpoint = .ok (params, resolvedPolicy) ∧
      ReviewSetOf nested (promoteSession m (uniqueWithFamily, [])) params resolvedPolicy
        summary.reviewSetId base planned := by
  intro m
  obtain ⟨summary, hsummary⟩ := exists_of_succeeded
    (show succeeded (runPromote uniqueWithFamily ⟨interruptions.foldl promoteSession nested,
      []⟩).1 = true by decide +kernel)
  exact ⟨summary,
    runPromote_review_order nested rfl interruptions (uniqueWithFamily, []) summary hsummary⟩

end MatterPromote
