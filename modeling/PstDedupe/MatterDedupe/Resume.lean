import PstDedupe.MatterDedupe.Run

/-!
# How far a dedupe job has come

A `Plan` is a job with the rows it found.
-/

namespace MatterDedupe

open Rust MatterCore Foundations List

structure Plan where
  jobId : String
  params : DedupeParams
  start : List Item
  keyed : (start.map Item.id).Nodup

namespace Plan

variable (p : Plan)

def cleared (rows : List Item) : List Item :=
  clearDedupeFields (p.params.familyPolicy = .suppressChildrenWithParent) rows

def base : List Item := if p.params.reset then p.cleared p.start else p.start

def queue : List Item := listEmailParents p.base

theorem keyed_base : (p.base.map Item.id).Nodup := by
  unfold base cleared
  split
  · rw [map_id_clearDedupeFields]
    exact p.keyed
  · exact p.keyed

theorem keyed_queue : (p.queue.map Item.id).Nodup := keyed_listEmailParents p.keyed_base

theorem cleared_start_or_base (hreset : p.params.reset = true) {rows : List Item}
    (h : rows = p.start ∨ rows = p.base) :
    p.cleared rows = p.base := by
  have hbase : p.base = p.cleared p.start := if_pos hreset
  rcases h with rfl | rfl
  · exact hbase.symm
  · rw [hbase]
    exact clearDedupeFields_again _ _

section

variable [Target] [Sha256] {W : List String} {r : Item}

/-! ## The parents phase -/

/-- What the scan of the first `n` parents has found. -/
def scanned (n : Nat) : Scanned := scan p.jobId p.params (p.queue.take n)

/-- The rows once `n` parents have their roles. -/
def afterParents (n : Nat) : List Item := written (p.scanned n).updates p.base

def judged : List Item := p.afterParents p.queue.length

def atParents (n : Nat) : CheckpointCursor :=
  { cursorIndex := n, completedCount := n, counts := (p.scanned n).counts, params := p.params }

@[simp] theorem afterParents_zero : p.afterParents 0 = p.base := written_nil p.base

variable {p}

theorem scanned_succ {n : Nat} {cand : Item} {rest : List Item} (h : p.queue.drop n = cand :: rest) :
    p.scanned (n + 1) = scanOne p.jobId p.params (p.scanned n) cand := by
  unfold scanned
  rw [take_add, h, take_succ_cons, take_zero, scan_concat]

theorem listEmailParents_afterParents (n : Nat) :
    listEmailParents (p.afterParents n) = written (p.scanned n).updates p.queue :=
  listEmailParents_map (rewrite_foldl _) p.base

theorem length_listEmailParents_afterParents (n : Nat) :
    (listEmailParents (p.afterParents n)).length = p.queue.length := by
  rw [listEmailParents_afterParents]
  exact length_map _

theorem drop_listEmailParents_afterParents {n i : Nat} (h : n ≤ i) :
    (listEmailParents (p.afterParents n)).drop i = p.queue.drop i := by
  rw [listEmailParents_afterParents]
  unfold written
  rw [← map_drop]
  refine (map_congr_left fun r hr => ?_).trans (map_id _)
  refine foldl_applyUpdate_of_notMem fun hid => ?_
  have hbefore : r.id ∈ (p.queue.take i).map Item.id :=
    ((take_sublist_take_left h).map _).subset (mem_updates_scan hid)
  have hsplit := p.keyed_queue
  rw [← take_append_drop i p.queue, map_append, nodup_append] at hsplit
  exact hsplit.2.2 _ hbefore _ (mem_map_of_mem hr) rfl

theorem rebuild_afterParents (n : Nat) :
    rebuildMapsFromCommitted p.params (listEmailParentsRange (p.afterParents n) 0 n) = (p.scanned n).maps := by
  have hkeyed : ((p.queue.take n).map Item.id).Nodup := p.keyed_queue.sublist ((take_sublist _ _).map _)
  refine Eq.trans ?_ (maps_scan hkeyed).1.symm
  unfold listEmailParentsRange
  rw [drop_zero, listEmailParents_afterParents]
  unfold written
  rw [← map_take]
  rfl

variable (p)

theorem keyed_judged : (p.judged.map Item.id).Nodup := by
  unfold judged afterParents
  rw [map_id_written]
  exact p.keyed_base

theorem extraJson_judged : p.judged.map Item.extraJson = p.start.map Item.extraJson := by
  have hbase : p.base.map Item.extraJson = p.start.map Item.extraJson := by
    unfold base cleared
    split
    · exact map_extraJson_clearDedupeFields _ _
    · rfl
  exact (map_extraJson_written extraJson_updates_scan _).trans hbase

/-! ## The family phase -/

def dups : List Item := dupParents p.judged

def parentOf (r : Item) : Option Item := p.dups.find? fun d => r.parentItemId = some d.id

def childrenOf (parentItemId : String) : List Item :=
  sortBy byPathThenId (listAttachments p.judged parentItemId)

def canonChildren (d : Item) : List Item := (d.duplicateOfItemId.map p.childrenOf).getD []

def Free : Prop := ∀ x ∈ p.judged, isEligible x = true → (p.parentOf x).isSome → ∀ y ∈ p.judged,
    y.parentItemId ≠ some x.id

variable [ExtraJson]

abbrev Lawful : Prop := ExtraJson.Lawful (p.judged.map Item.extraJson)

def settled (r : Item) : Item :=
  match p.parentOf r with
  | some d => familyRow p.jobId d.duplicateOfItemId (p.canonChildren d) r
  | none => r

/-- The row once the attachments in `W` have their roles. -/
def current (W : List String) (r : Item) : Item := if r.id ∈ W then p.settled r else r

def settledAt (W : List String) : List Item := p.judged.map (p.current W)

def final : List Item := p.judged.map p.settled

def isCounted (r : Item) : Bool := (p.parentOf r).isSome && !isAlreadyFamily r

def countsAt (W : List String) : Counts :=
  let counts := (p.scanned p.queue.length).counts
  { counts with duplicate := counts.duplicate + p.judged.countP fun r => decide (r.id ∈ W) && p.isCounted r }

/-- The cursor behind `j` duplicate parents. -/
def atFamily (j : Nat) (W : List String) : CheckpointCursor :=
  { cursorIndex := p.queue.length
    completedCount := p.queue.length
    counts := p.countsAt W
    phase := .family
    familyCursor := j
    params := p.params }

def IsSafe (r : Item) : Prop :=
  ∀ d ∈ p.parentOf r, isParentTwin d.duplicateOfItemId (p.canonChildren d) r = false

def Names (W : List String) : Prop := ∀ id ∈ W, ∃ r ∈ p.judged, r.id = id ∧ (p.parentOf r).isSome ∧ p.IsSafe r

/-- The attachments of the first `j` duplicate parents are in `W`. -/
def Covers (j : Nat) (W : List String) : Prop :=
  ∀ d ∈ (dupParents (p.settledAt W)).take j, ∀ y ∈ p.judged, y.parentItemId = some d.id → y.id ∈ W

omit [ExtraJson] in
theorem parentOf_spec {r d : Item} (h : p.parentOf r = some d) : d ∈ p.dups ∧ r.parentItemId = some d.id :=
  ⟨mem_of_find?_eq_some h,
    of_decide_eq_true (find?_some (p := fun d : Item => decide (r.parentItemId = some d.id)) h)⟩

theorem sameItem_settled : Rewrite p.settled := by
  intro r
  unfold settled
  split
  · exact sameItem_familyRow _ _ _ r
  · exact SameItem.refl r

theorem rewrite_current (W : List String) : Rewrite (p.current W) := p.sameItem_settled.ite fun r => r.id ∈ W

theorem current_of_mem (h : r.id ∈ W) : p.current W r = p.settled r := if_pos h

theorem current_of_notMem (h : r.id ∉ W) : p.current W r = r := if_neg h

theorem keyed_settledAt (W : List String) : ((p.settledAt W).map Item.id).Nodup := by
  unfold settledAt
  rw [map_key_map fun r => (p.rewrite_current W r).id]
  exact p.keyed_judged

@[simp] theorem settledAt_nil : p.settledAt [] = p.judged := rewriteAt_nil p.settled p.judged

omit [ExtraJson] in
theorem mem_dups {d : Item} : d ∈ p.dups ↔ d ∈ p.judged ∧ isEligible d = true ∧
    d.dedupRole = some "duplicate" := by
  unfold dups dupParents
  rw [mem_filter, mem_listEmailParents, decide_eq_true_eq, and_assoc]

omit [ExtraJson] in
theorem parentOf_of_mem_dups {r d : Item} (hd : d ∈ p.dups) (hr : r.parentItemId = some d.id) :
    p.parentOf r = some d := by
  have hkeyed : (p.dups.map Item.id).Nodup :=
    (keyed_listEmailParents p.keyed_judged).sublist (List.filter_sublist.map _)
  cases hfound : p.parentOf r with
  | none =>
    have hno := List.find?_eq_none.mp hfound d hd
    exact absurd (decide_eq_true hr) hno
  | some d' =>
    obtain ⟨hd', hr'⟩ := p.parentOf_spec hfound
    rw [hr, Option.some.injEq] at hr'
    rw [inj_on_of_nodup_map hkeyed hd' hd hr'.symm]

variable {p}

/-! ### What a session reads -/

theorem mem_settledAt (h : r ∈ p.settledAt W) : ∃ r₀ ∈ p.judged, r = p.current W r₀ := by
  obtain ⟨r₀, hr₀, rfl⟩ := List.mem_map.mp h
  exact ⟨r₀, hr₀, rfl⟩

theorem mem_dups_of_current (hfree : p.Free) {d y : Item} (hd : d ∈ dupParents (p.settledAt W))
    (hy : y ∈ p.judged) (hchild : y.parentItemId = some d.id) : d ∈ p.dups := by
  unfold dupParents at hd
  rw [mem_filter, mem_listEmailParents, decide_eq_true_eq] at hd
  obtain ⟨⟨hmem, heligible⟩, hrole⟩ := hd
  obtain ⟨d₀, hd₀, hd₀eq⟩ := mem_settledAt hmem
  have hsame : SameItem d₀ d := hd₀eq ▸ p.rewrite_current W d₀
  have hnone : p.parentOf d₀ = none := by
    cases hparent : p.parentOf d₀ with
    | none => rfl
    | some q =>
      refine absurd hchild ?_
      rw [hsame.id]
      exact hfree d₀ hd₀ (hsame.isEligible_eq ▸ heligible) (by rw [hparent]; rfl) y hy
  have hsettled : p.settled d₀ = d₀ := by
    unfold settled
    rw [hnone]
  obtain rfl : d = d₀ := by
    rw [hd₀eq]
    unfold current
    rw [hsettled, ite_self]
  exact p.mem_dups.mpr ⟨hd₀, heligible, hrole⟩

theorem duplicate_current (W : List String) (h : r.dedupRole = some "duplicate") :
    (p.current W r).dedupRole = some "duplicate" := by
  unfold current
  split
  · unfold settled
    split
    · rw [familyRow_eq]
    · exact h
  · exact h

theorem duplicate_current_mono {W V : List String} (hsub : ∀ id ∈ W, id ∈ V)
    (h : (p.current W r).dedupRole = some "duplicate") : (p.current V r).dedupRole = some "duplicate" := by
  by_cases hW : r.id ∈ W
  · rwa [p.current_of_mem (hsub _ hW), ← p.current_of_mem hW]
  · rw [p.current_of_notMem hW] at h
    exact duplicate_current V h

theorem covers_of_passed (hfree : p.Free) {W V : List String} {j : Nat} (hsub : ∀ id ∈ W, id ∈ V)
    (h : ∀ d ∈ (dupParents (p.settledAt W)).take j, ∀ y ∈ p.judged, y.parentItemId = some d.id → y.id ∈ V) :
    p.Covers j V := by
  have hparents : ∀ U : List String, dupParents (p.settledAt U)
      = ((listEmailParents p.judged).filter fun r => (p.current U r).dedupRole =
        some "duplicate").map (p.current U) := by
    intro U
    unfold dupParents
    rw [show listEmailParents (p.settledAt U) = _ from listEmailParents_map (p.rewrite_current U)
      p.judged, filter_map]
    rfl
  intro d hd y hy hchild
  -- a parent with attachments is a duplicate in every state of the rows
  have hdups : d ∈ p.dups := mem_dups_of_current hfree (mem_of_mem_take hd) hy hchild
  rw [hparents, ← map_take] at hd
  obtain ⟨d₀, hd₀, hd₀eq⟩ := List.mem_map.mp hd
  have hid : d₀.id = d.id := hd₀eq ▸ ((p.rewrite_current V d₀).id).symm
  have hmem₀ : d₀ ∈ p.judged := (mem_listEmailParents.mp (mem_of_mem_filter (mem_of_mem_take hd₀))).1
  obtain rfl : d₀ = d := inj_on_of_nodup_map p.keyed_judged hmem₀ (p.mem_dups.mp hdups).1 hid
  have hbefore := mem_take_filter
    (p := fun r => decide ((p.current W r).dedupRole = some "duplicate")) (fun r _ hr => by
      rw [decide_eq_true_eq] at hr ⊢
      exact duplicate_current_mono hsub hr) hd₀ (decide_eq_true (duplicate_current W (p.mem_dups.mp hdups).2.2))
  refine h (p.current W d₀) ?_ y hy ?_
  · rw [hparents, ← map_take]
    exact mem_map_of_mem hbefore
  · rw [(p.rewrite_current W d₀).id]
    exact hchild

theorem childrenOf_settledAt (W : List String) (pid : String) :
    sortBy byPathThenId (listAttachments (p.settledAt W) pid)
      = (p.childrenOf pid).map (p.current W) := by
  unfold settledAt childrenOf
  rw [listAttachments_map (p.rewrite_current W), sortBy_byPathThenId_map (p.rewrite_current W)]

omit [ExtraJson] in
theorem mem_childrenOf {pid : String} : r ∈ p.childrenOf pid ↔ r ∈ p.judged ∧ r.parentItemId = some pid := by
  unfold childrenOf
  rw [(sortBy_perm _ _).mem_iff, mem_listAttachments]

omit [ExtraJson] in
theorem keyed_childrenOf (pid : String) : ((p.childrenOf pid).map Item.id).Nodup :=
  ((sortBy_perm _ _).map Item.id).nodup_iff.mpr (keyed_listAttachments p.keyed_judged pid)

theorem matchAttach_current (W : List String) (d y : Item) :
    matchAttach (p.current W y) ((p.canonChildren d).map (p.current W)) = matchAttach y (p.canonChildren d) :=
  matchAttach_map (p.rewrite_current W) (p.rewrite_current W y) _

theorem written_current (hlaw : p.Lawful) {W V : List String} {d y : Item} (hy : y ∈ p.judged)
    (hparent : p.parentOf y = some d) (hV : y.id ∈ W ↔ y.id ∈ V) :
    written [familyUpdate p.jobId d.duplicateOfItemId ((p.canonChildren d).map (p.current W))
      (p.current W y)] (p.settledAt V)
      = p.settledAt (V ++ [y.id]) := by
  have hsettled : p.settled y = familyRow p.jobId d.duplicateOfItemId (p.canonChildren d) y := by
    unfold settled
    rw [hparent]
  unfold written settledAt
  rw [map_map]
  refine map_congr_left fun r hr => ?_
  show applyUpdate (p.current V r) _ = _
  by_cases heq : r.id = y.id
  · obtain rfl := inj_on_of_nodup_map p.keyed_judged hr hy heq
    rw [p.current_of_mem (List.mem_append.mpr (.inr (mem_singleton_self _)))]
    by_cases hW : r.id ∈ W
    · -- it was settled before
      rw [p.current_of_mem (hV.mp hW), p.current_of_mem hW, hsettled]
      exact applyUpdate_familyUpdate_again hlaw (mem_map_of_mem hr) (p.rewrite_current W)
    · rw [p.current_of_notMem fun h => hW (hV.mpr h), p.current_of_notMem hW, hsettled]
      unfold familyRow familyUpdate
      rw [matchAttach_map (p.rewrite_current W) (SameItem.refl r)]
  · have hother : (p.current V r).id ≠ (p.current W y).id := by
      rw [(p.rewrite_current V r).id, (p.rewrite_current W y).id]
      exact heq
    refine (applyUpdate_of_ne hother).trans ?_
    have hiff : r.id ∈ V ++ [y.id] ↔ r.id ∈ V := by
      rw [mem_append, mem_singleton]
      exact or_iff_left heq
    unfold current
    simp only [hiff]

omit [ExtraJson] in
theorem countsAt_concat {V : List String} {y : Item} (hy : y ∈ p.judged) (hnew : y.id ∉ V) :
    p.countsAt (V ++ [y.id])
      = if p.isCounted y then { p.countsAt V with duplicate := (p.countsAt V).duplicate + 1 }
      else p.countsAt V := by
  unfold countsAt
  dsimp only
  rw [countP_concat_key p.keyed_judged hy hnew]
  split <;> rfl

omit [ExtraJson] in
theorem countsAt_congr {V W : List String} (h : ∀ id, id ∈ V ↔ id ∈ W) : p.countsAt V = p.countsAt W := by
  unfold countsAt
  simp only [h]

theorem isAlreadyFamily_settled {y : Item} (h : (p.parentOf y).isSome) :
    isAlreadyFamily (p.settled y) = true := by
  obtain ⟨d, hd⟩ := Option.isSome_iff_exists.mp h
  unfold settled
  rw [hd]
  dsimp only
  rw [familyRow_eq]
  rfl

end

end Plan

/-!
# Dedupe jobs that are interrupted

`Plan.Stage` says where a job can be between two sessions.
-/

open Prog

def Nested (rows : List Item) : Prop :=
  ∃ x ∈ rows, isEligible x = true ∧ (∃ d ∈ dupParents rows, x.parentItemId = some d.id) ∧
    ∃ y ∈ rows, y.parentItemId = some x.id

instance (rows : List Item) : Decidable (Nested rows) :=
  inferInstanceAs (Decidable (∃ x ∈ rows, _ ∧ (∃ d ∈ dupParents rows, _) ∧ ∃ y ∈ rows, _))

def HasFamilyRow (jobId : String) (rows : List Item) : Prop :=
  ∃ r ∈ rows, r.dedupTier = some "family" ∧ r.dedupJobId = some jobId

instance (jobId : String) (rows : List Item) : Decidable (HasFamilyRow jobId rows) :=
  inferInstanceAs (Decidable (∃ r ∈ rows, _))

def Astray (jobId : String) (m : Matter) : Prop :=
  (∃ c ∈ m.checkpoint, c.phase = .family) ∧ HasFamilyRow jobId m.items ∧ Nested m.items

instance (jobId : String) : DecidablePred (Astray jobId) := fun m =>
  inferInstanceAs (Decidable ((∃ c ∈ m.checkpoint, _) ∧ _ ∧ _))

namespace Plan

section

variable [Target] [Sha256] [ExtraJson] {p : Plan}

def turned (p : Plan) : CheckpointCursor :=
  { p.atParents p.queue.length with phase := .family, familyCursor := 0 }

inductive Stage (p : Plan) (m : Matter) : Prop
  | fresh (hnone : m.checkpoint = none) (hitems : m.items = p.start ∨ m.items = p.base)
  | parents (n : Nat) (hsome : m.checkpoint = some (p.atParents n)) (hn : n ≤ p.queue.length)
      (hitems : m.items = p.afterParents n)
  | turned (hsome : m.checkpoint = some p.turned) (hitems : m.items = p.judged)
  | family (j : Nat) (W : List String) (hpolicy : p.params.familyPolicy = .suppressChildrenWithParent)
      (hsome : m.checkpoint = some (p.atFamily j W)) (hfree : p.Free)
        (hitems : m.items = p.settledAt W) (hnames : p.Names W) (hcovers : p.Covers j W)
  | astray (h : Astray p.jobId m)

/-- A session that stops early leaves a stage. On a table that is not nested it has an error of its
own only over an attachment whose twin is the parent email. -/
def Halted (p : Plan) (x : Stop DedupeError) (m : Matter) : Prop :=
  p.Stage m ∧ ∀ e, x = .failed e → e = IoError.io ∨ ¬ p.Free ∨ ∃ r ∈ p.judged, ¬ p.IsSafe r

/-! ## The parents phase -/

/-- What is in memory behind `i` parents. -/
structure InParents (p : Plan) (i : Nat) (maps : KeyMaps) (s : Pass) (m : Matter) : Prop where
  stage : p.Stage m
  cursor : s.cursor = p.atParents i
  maps : maps = (p.scanned i).maps
  bound : i ≤ p.queue.length
  staged : ∃ n ≤ i, m.items = p.afterParents n ∧ (p.scanned n).updates ++ s.staged = (p.scanned i).updates

variable {call : DedupeCall} {i : Nat} {maps : KeyMaps} {s : Pass} {m : Matter}

theorem InParents.items (h : p.InParents i maps s m) : written s.staged m.items = p.afterParents i := by
  obtain ⟨n, -, hitems, hstaged⟩ := h.staged
  rw [hitems]
  unfold afterParents
  rw [← written_append, hstaged]

theorem InParents.commit (h : p.InParents i maps s m) :
    p.InParents i maps ⟨s.cursor, []⟩ (m.commit s.staged s.cursor) := by
  have hitems : (m.commit s.staged s.cursor).items = p.afterParents i := h.items
  refine ⟨.parents i (congrArg some h.cursor) h.bound hitems, h.cursor, h.maps, h.bound, i,
    Nat.le_refl i, hitems, ?_⟩
  rw [append_nil]

theorem InParents.commitBatch_ensures {Q : Unit → Matter → Prop} (h : p.InParents i maps s m)
    (hQ : Q () (m.commit s.staged s.cursor)) : Ensures (commitBatch s.staged s.cursor) m Q p.Halted :=
  Ensures.transaction hQ ⟨h.stage, fun _ he => .inl (Stop.failed.inj he).symm⟩ ⟨h.stage, nofun⟩

theorem InParents.flush_ensures (h : p.InParents i maps s m) :
    Ensures s.flush m (fun _ t => p.Stage t ∧ t.items = p.afterParents i) p.Halted := by
  unfold Pass.flush
  split
  next hnil =>
    refine Ensures.pure ⟨h.stage, ?_⟩
    have hitems := h.items
    rwa [List.isEmpty_iff.mp hnil, written_nil] at hitems
  next => exact h.commitBatch_ensures ⟨h.commit.stage, h.items⟩

theorem InParents.pause_ensures (h : p.InParents i maps s m) :
    Ensures s.pause m (fun o t => p.Stage t ∧ ∀ summary, o ≠ .succeeded summary) p.Halted :=
  Ensures.bind (h.flush_ensures.mono (fun _ _ ht => Ensures.pure ⟨ht.1, nofun⟩) fun _ _ h => h)

theorem InParents.next (h : p.InParents i maps s m) {cand : Item} {rest : List Item}
    (hqueue : p.queue.drop i = cand :: rest) :
    if !p.params.reset && cand.dedupRole.isSome then
      p.InParents (i + 1) (seedMapsFromExisting p.params maps cand) ⟨s.cursor.advance, s.staged⟩ m
    else ∀ call : DedupeCall, call.jobId = p.jobId →
      p.InParents (i + 1) (stageParent call p.params cand maps s).1
        (stageParent call p.params cand maps s).2 m := by
  have hbound : i + 1 ≤ p.queue.length := by
    have hlength := congrArg length hqueue
    rw [length_drop, length_cons] at hlength
    omega
  obtain ⟨n, hn, hitems, hstaged⟩ := h.staged
  have hsucc := scanned_succ hqueue
  unfold scanOne at hsucc
  split
  next hskip =>
    have hdue : isDue p.params cand = false := by
      revert hskip
      unfold isDue
      cases p.params.reset <;> cases cand.dedupRole <;> simp
    rw [hdue] at hsucc
    refine ⟨h.stage, ?_, ?_, hbound, n, by omega, hitems, ?_⟩
    · show s.cursor.advance = p.atParents (i + 1)
      unfold atParents
      rw [h.cursor, hsucc]
      rfl
    · rw [hsucc, h.maps]
      rfl
    · rw [hsucc]
      exact hstaged
  next hskip =>
    intro call hjob
    have hdue : isDue p.params cand = true := by
      revert hskip
      unfold isDue
      cases p.params.reset <;> cases cand.dedupRole <;> simp
    rw [hdue] at hsucc
    have hcounts : s.cursor.counts = (p.scanned i).counts := congrArg CheckpointCursor.counts h.cursor
    refine ⟨h.stage, ?_, ?_, hbound, n, by omega, hitems, ?_⟩
    · unfold stageParent atParents
      dsimp only
      rw [hsucc, hcounts, h.cursor, hjob, h.maps]
      rfl
    · unfold stageParent
      rw [hsucc, hcounts, hjob, h.maps]
      rfl
    · unfold stageParent
      dsimp only
      rw [hsucc, hcounts, hjob, h.maps, ← append_assoc, hstaged]
      rfl

def Paused (p : Plan) (o : DedupeOutcome) (m : Matter) : Prop := p.Stage m ∧ ∀ summary, o ≠ .succeeded summary

theorem pageLoop_ensures (hjob : call.jobId = p.jobId) (page : List Item) :
    ∀ (i : Nat) (maps : KeyMaps) (s : Pass) (m : Matter)
    (tail : List Item), p.queue.drop i = page ++ tail → p.InParents i maps s m →
    Ensures (pageLoop call p.params page maps s) m
      (fun r t => match r with
        | .inl o => p.Paused o t
        | .inr (maps', s') => p.InParents (i + page.length) maps' s' t) p.Halted := by
  induction page with
  | nil => exact fun i maps s m tail _ h => Ensures.pure h
  | cons cand page ih =>
    intro i maps s m tail hqueue h
    have hnext := h.next hqueue
    have hrest : p.queue.drop (i + 1) = page ++ tail := by
      rw [← drop_drop, hqueue]
      rfl
    rw [length_cons, show i + (page.length + 1) = i + 1 + page.length by omega, pageLoop]
    refine Ensures.bind (Ensures.poll (fun b => ?_) ⟨h.stage, nofun⟩)
    split
    · exact Ensures.bind (h.pause_ensures.mono (fun _ _ ho => Ensures.pure ho) fun _ _ h => h)
    · split
      next hskip =>
        rw [if_pos hskip] at hnext
        exact ih (i + 1) _ _ m tail hrest hnext
      next hskip =>
        rw [if_neg hskip] at hnext
        have hstaged := hnext call hjob
        dsimp only
        split
        · exact Ensures.bind (hstaged.commitBatch_ensures (ih (i + 1) _ _ _ tail hrest hstaged.commit))
        · exact ih (i + 1) _ _ m tail hrest hstaged

theorem parentsLoop_ensures (hjob : call.jobId = p.jobId) (fuel : Nat) :
    ∀ (i : Nat) (maps : KeyMaps) (s : Pass) (m : Matter),
    p.queue.length ≤ i + fuel → p.InParents i maps s m →
    Ensures (parentsLoop call p.params p.queue.length fuel maps s) m
      (fun r t => match r with
        | .inl o => p.Paused o t
        | .inr s' => ∃ maps', p.InParents p.queue.length maps' s' t) p.Halted := by
  induction fuel with
  | zero =>
    intro i maps s m hfuel h
    obtain rfl : i = p.queue.length := Nat.le_antisymm h.bound hfuel
    exact Ensures.pure ⟨maps, h⟩
  | succ fuel ih =>
    intro i maps s m hfuel h
    have hindex : s.cursor.cursorIndex = i := congrArg CheckpointCursor.cursorIndex h.cursor
    rw [parentsLoop, hindex]
    by_cases hmore : i < p.queue.length
    · rw [if_pos hmore]
      refine Ensures.bind (Ensures.poll (fun b => ?_) ⟨h.stage, nofun⟩)
      split
      · exact Ensures.bind (h.pause_ensures.mono (fun _ _ ho => Ensures.pure ho) fun _ _ h => h)
      · refine Ensures.bind (Ensures.look ?_)
        obtain ⟨n, hn, hitems, -⟩ := h.staged
        -- a page holds the next rows as they were found
        have hpage : listEmailParentsRange m.items i (min (p.queue.length - i) PAGE)
            = (p.queue.drop i).take (min (p.queue.length - i) PAGE) := by
          unfold listEmailParentsRange
          rw [hitems, drop_listEmailParents_afterParents hn]
        rw [hpage]
        have hlength : ((p.queue.drop i).take (min (p.queue.length - i) PAGE)).length
            = min (p.queue.length - i) PAGE := by
          rw [length_take, length_drop]
          omega
        have hpositive : 0 < min (p.queue.length - i) PAGE := by
          unfold PAGE
          omega
        rw [if_neg fun hempty => by rw [List.isEmpty_iff.mp hempty] at hlength; simp at hlength; omega]
        refine Ensures.bind ((pageLoop_ensures hjob _ i maps s m _ (take_append_drop _ _).symm h).mono
          (fun r t hr => ?_) fun _ _ h => h)
        cases r with
        | inl o => exact Ensures.pure hr
        | inr r =>
          dsimp only at hr ⊢
          refine ih _ _ _ _ ?_ hr
          rw [hlength]
          omega
    · rw [if_neg hmore]
      obtain rfl : i = p.queue.length := Nat.le_antisymm h.bound (Nat.not_lt.mp hmore)
      exact Ensures.pure ⟨maps, h⟩

theorem runParentPass_ensures (hjob : call.jobId = p.jobId) {n : Nat} (hn : n ≤ p.queue.length)
    (hm : p.Stage m) (hitems : m.items = p.afterParents n) :
    Ensures (runParentPass call p.params (p.scanned n).maps (p.atParents n)) m
      (fun r t => match r with
        | .inl o => p.Paused o t
        | .inr c => p.Stage t ∧ t.items = p.judged ∧ c = p.atParents p.queue.length) p.Halted := by
  refine Ensures.bind (Ensures.look ?_)
  have htotal : countEmailParents m.items = p.queue.length := by
    rw [countEmailParents_eq, hitems, length_listEmailParents_afterParents]
  rw [htotal]
  have hstart : p.InParents n (p.scanned n).maps ⟨p.atParents n, []⟩ m :=
    ⟨hm, rfl, rfl, hn, n, Nat.le_refl n, hitems, append_nil _⟩
  refine Ensures.bind
    ((parentsLoop_ensures hjob p.queue.length n _ _ m (by omega) hstart).mono (fun r t hr => ?_)
    fun _ _ h => h)
  cases r with
  | inl o => exact Ensures.pure hr
  | inr s =>
    obtain ⟨maps, hs⟩ := hr
    exact Ensures.bind
      (hs.flush_ensures.mono (fun _ t ht => Ensures.pure ⟨ht.1, ht.2, hs.cursor⟩) fun _ _ h => h)

end

end Plan

end MatterDedupe
