import PstDedupe.MatterDedupe.Resume

/-!
# Family passes that are interrupted

On a table that is not nested the attachments of the duplicate parents are settled one by one, in
any number of sessions: a session finds some settled and settles the rest.
-/

namespace MatterDedupe

open Rust MatterCore Foundations Prog List

namespace Plan

section

variable [Target] [Sha256] [ExtraJson] {p : Plan} {call : DedupeCall} {W : List String} {d : Item}

omit [ExtraJson] in
theorem Names.concat {V : List String} (h : p.Names V) {y : Item} (hy : y ∈ p.judged)
    (hparent : (p.parentOf y).isSome) (hsafe : p.IsSafe y) : p.Names (V ++ [y.id]) := by
  intro id hid
  rcases List.mem_append.mp hid with hid | hid
  · exact h id hid
  · exact ⟨y, hy, (List.mem_singleton.mp hid).symm, hparent, hsafe⟩

def childIds (p : Plan) (d : Item) : List String := (p.childrenOf d.id).map Item.id

/-- What is in memory when `V` are settled or staged, of which `W₀` were when the session began;
`todo` are to come. -/
structure InFamily (p : Plan) (W₀ V todo : List String) (j : Nat) (s : Pass) (m : Matter) : Prop where
  stage : p.Stage m
  policy : p.params.familyPolicy = .suppressChildrenWithParent
  free : p.Free
  cursor : s.cursor = p.atFamily j V
  names : p.Names V
  first : ∀ id ∈ W₀, id ∈ V
  fresh : ∀ id ∈ todo, id ∈ V → id ∈ W₀
  nodup : todo.Nodup
  passed : ∀ d ∈ (dupParents (p.settledAt W₀)).take j, ∀ y ∈ p.judged, y.parentItemId = some d.id → y.id ∈ V
  staged : ∃ W, (∀ id ∈ W₀, id ∈ W) ∧ (∀ id ∈ W, id ∈ V) ∧ m.items = p.settledAt W ∧
    written s.staged (p.settledAt W) = p.settledAt V

variable {W₀ V todo : List String} {j : Nat} {s : Pass} {m : Matter}

theorem InFamily.items (h : p.InFamily W₀ V todo j s m) : written s.staged m.items = p.settledAt V := by
  obtain ⟨W, -, -, hitems, hstaged⟩ := h.staged
  rw [hitems, hstaged]

theorem InFamily.commit (h : p.InFamily W₀ V todo j s m) :
    p.InFamily W₀ V todo j ⟨s.cursor, []⟩ (m.commit s.staged s.cursor) := by
  have hitems : (m.commit s.staged s.cursor).items = p.settledAt V := h.items
  refine ⟨.family j V h.policy (congrArg some h.cursor) h.free hitems h.names
    (covers_of_passed h.free h.first h.passed),
    h.policy, h.free,
    h.cursor, h.names, h.first, h.fresh, h.nodup, h.passed, V, h.first, fun _ hid => hid, hitems, ?_⟩
  exact written_nil _

theorem InFamily.commitBatch_ensures {Q : Unit → Matter → Prop} (h : p.InFamily W₀ V todo j s m)
    (hQ : Q () (m.commit s.staged s.cursor)) : Ensures (commitBatch s.staged s.cursor) m Q p.Halted :=
  Ensures.transaction hQ ⟨h.stage, fun _ he => .inl (Stop.failed.inj he).symm⟩ ⟨h.stage, nofun⟩

theorem InFamily.flush_ensures (h : p.InFamily W₀ V todo j s m) :
    Ensures s.flush m (fun _ t => p.Stage t ∧ t.items = p.settledAt V) p.Halted := by
  unfold Pass.flush
  split
  next hnil =>
    refine Ensures.pure ⟨h.stage, ?_⟩
    have hitems := h.items
    rwa [List.isEmpty_iff.mp hnil, written_nil] at hitems
  next => exact h.commitBatch_ensures ⟨h.commit.stage, h.items⟩

theorem InFamily.pause_ensures (h : p.InFamily W₀ V todo j s m) : Ensures s.pause m p.Paused p.Halted :=
  Ensures.bind (h.flush_ensures.mono (fun _ _ ht => Ensures.pure ⟨ht.1, nofun⟩) fun _ _ h => h)

theorem InFamily.next (hlaw : p.Lawful) (hjob : call.jobId = p.jobId) {d y : Item}
    (h : p.InFamily W₀ V (y.id :: todo) j s m) (hy : y ∈ p.judged) (hparent : p.parentOf y = some d)
    (hsafe : isParentTwin d.duplicateOfItemId (p.canonChildren d) y = false)
    (hW₀ : ∀ id ∈ W₀, id ∈ W) (hWV : ∀ id ∈ W, id ∈ V) :
    p.InFamily W₀ (V ++ [y.id]) todo j
      (stageChild call d.duplicateOfItemId ((p.canonChildren d).map (p.current W)) (p.current W y) s) m := by
  have htodo := List.nodup_cons.mp h.nodup
  have hsome : (p.parentOf y).isSome := by
    rw [hparent]
    rfl
  -- the attachment has not come up in this session
  have hV : y.id ∈ W ↔ y.id ∈ V := ⟨hWV _, fun hid => hW₀ _ (h.fresh _ mem_cons_self hid)⟩
  refine ⟨h.stage, h.policy, h.free, ?_, h.names.concat hy hsome ?_, ?_, ?_, htodo.2, ?_, ?_⟩
  · unfold stageChild
    dsimp only
    rw [h.cursor]
    by_cases hid : y.id ∈ W
    · have hsame : ∀ id, id ∈ V ++ [y.id] ↔ id ∈ V := by
        intro id
        rw [mem_append, mem_singleton]
        exact or_iff_left_of_imp fun heq => heq ▸ hV.mp hid
      rw [p.current_of_mem hid, isAlreadyFamily_settled hsome, if_pos rfl]
      unfold atFamily
      rw [countsAt_congr hsame]
    · rw [p.current_of_notMem hid]
      unfold atFamily
      rw [countsAt_concat hy fun h => hid (hV.mpr h)]
      have hcounted : p.isCounted y = !isAlreadyFamily y := by
        unfold isCounted
        rw [hsome]
        rfl
      rw [hcounted]
      cases isAlreadyFamily y <;> rfl
  · intro d' hd'
    rw [hparent] at hd'
    obtain rfl := Option.mem_some_iff.mp hd'
    exact hsafe
  · exact fun id hid => mem_append_left _ (h.first id hid)
  · intro id hid hmem
    rcases List.mem_append.mp hmem with hmem | hmem
    · exact h.fresh id (mem_cons_of_mem _ hid) hmem
    · rw [mem_singleton] at hmem
      exact absurd (hmem ▸ hid) htodo.1
  · exact fun d' hd' y' hy' hchild => mem_append_left _ (h.passed d' hd' y' hy' hchild)
  · obtain ⟨U, hU₀, hUV, hitems, hwritten⟩ := h.staged
    refine ⟨U, hU₀, fun id hid => mem_append_left _ (hUV id hid), hitems, ?_⟩
    show written (s.staged ++ [familyUpdate call.jobId _ _ _]) _ = _
    rw [written_append, hwritten, hjob]
    exact written_current hlaw hy hparent hV

/-- What the attachments `ys` of a parent leave. -/
def ChildrenDone (p : Plan) (W₀ V later : List String) (j : Nat) (ys : List Item) :
    DedupeOutcome ⊕ Pass → Matter → Prop
  | .inl o, t => p.Paused o t
  | .inr s, t => ∃ V', (∀ id ∈ V, id ∈ V') ∧ (∀ y ∈ ys, y.id ∈ V') ∧ p.InFamily W₀ V' later j s t

theorem ChildrenDone.cons {later : List String} {ys : List Item} {y : Item}
    {r : DedupeOutcome ⊕ Pass} {t : Matter} (h : p.ChildrenDone W₀ (V ++ [y.id]) later j ys r t) :
    p.ChildrenDone W₀ V later j (y :: ys) r t := by
  cases r with
  | inl o => exact h
  | inr s =>
    obtain ⟨V', hV', hall, hs⟩ := h
    refine ⟨V', fun id hid => hV' id (mem_append_left _ hid), fun y' hy' => ?_, hs⟩
    rcases List.mem_cons.mp hy' with rfl | hy'
    · exact hV' _ (mem_append_right _ (mem_singleton_self _))
    · exact hall y' hy'

theorem childrenLoop_ensures (hlaw : p.Lawful) (hjob : call.jobId = p.jobId) {W₀ W : List String}
    {j : Nat} {later : List String} (hW₀ : ∀ id ∈ W₀, id ∈ W) (ys : List Item) :
    ∀ (V : List String) (s : Pass) (m : Matter), (∀ y ∈ ys, y ∈ p.judged ∧ p.parentOf y = some d) →
      (∀ id ∈ W, id ∈ V) →
    p.InFamily W₀ V (ys.map Item.id ++ later) j s m →
    Ensures (childrenLoop call p.params d.duplicateOfItemId ((p.canonChildren d).map (p.current W))
      (ys.map (p.current W)) s) m
      (p.ChildrenDone W₀ V later j ys) p.Halted := by
  induction ys with
  | nil =>
    intro V s m _ _ h
    rw [map_nil, childrenLoop]
    have hdone : p.ChildrenDone W₀ V later j [] (.inr s) m :=
      ⟨V, fun _ hid => hid, fun _ hy => absurd hy not_mem_nil, h⟩
    exact Ensures.pure hdone
  | cons y ys ih =>
    intro V s m hys hWV h
    obtain ⟨hy, hparent⟩ := hys y mem_cons_self
    have hys' : ∀ y' ∈ ys, y' ∈ p.judged ∧ p.parentOf y' = some d :=
      fun y' hy' => hys y' (mem_cons_of_mem _ hy')
    have hWV' : ∀ id ∈ W, id ∈ V ++ [y.id] := fun id hid => mem_append_left _ (hWV id hid)
    rw [map_cons, childrenLoop]
    have htwin : isParentTwin d.duplicateOfItemId ((p.canonChildren d).map (p.current W)) (p.current W y)
        = isParentTwin d.duplicateOfItemId (p.canonChildren d) y := by
      unfold isParentTwin
      rw [matchAttach_current]
    rw [htwin]
    split
    next htwin =>
      refine Ensures.fail ⟨h.stage, fun e he => .inr (.inr ⟨y, hy, fun hsafe => ?_⟩)⟩
      exact Bool.false_ne_true ((hsafe d hparent).symm.trans htwin)
    next hsafe =>
      have hstaged := h.next hlaw hjob hy hparent (Bool.eq_false_iff.mpr hsafe) hW₀ hWV
      dsimp only
      split
      · refine Ensures.bind (hstaged.commitBatch_ensures
          (Ensures.bind (Ensures.poll (fun b => ?_) ⟨hstaged.commit.stage, nofun⟩)))
        split
        · exact Ensures.pure ⟨hstaged.commit.stage, nofun⟩
        · exact (ih _ _ _ hys' hWV' hstaged.commit).mono (fun _ _ => ChildrenDone.cons) fun _ _ h => h
      · exact (ih _ _ _ hys' hWV' hstaged).mono (fun _ _ => ChildrenDone.cons) fun _ _ h => h

theorem InFamily.pass {rest : List Item} (h : p.InFamily W₀ V todo j s m)
    (hparents : (dupParents (p.settledAt W₀)).drop j = d :: rest)
    (hall : ∀ y ∈ p.childrenOf d.id, y.id ∈ V) :
    p.InFamily W₀ V todo (j + 1) ⟨{ s.cursor with familyCursor := s.cursor.familyCursor + 1 },
      s.staged⟩ m := by
  refine ⟨h.stage, h.policy, h.free, ?_, h.names, h.first, h.fresh, h.nodup,
    fun d' hd' y hy hchild => ?_, h.staged⟩
  · rw [h.cursor]
    rfl
  · rw [take_add, hparents, take_succ_cons, take_zero, mem_append, mem_singleton] at hd'
    rcases hd' with hd' | rfl
    · exact h.passed d' hd' y hy hchild
    · exact hall y (mem_childrenOf.mpr ⟨hy, hchild⟩)

def FamiliesDone (p : Plan) (W₀ : List String) : DedupeOutcome ⊕ Pass → Matter → Prop
  | .inl o, t => p.Paused o t
  | .inr s, t => ∃ V j, p.InFamily W₀ V [] j s t ∧ (dupParents (p.settledAt W₀)).drop j = []

theorem current_parent (hfree : p.Free) {d₀ y : Item} (hd : d₀ ∈ p.dups) (hy : y ∈ p.judged)
    (hchild : y.parentItemId = some d₀.id) (W : List String) : p.current W d₀ = d₀ := by
  -- it is no attachment of a duplicate parent, or it would have none
  have hnone : p.parentOf d₀ = none := by
    cases hparent : p.parentOf d₀ with
    | none => rfl
    | some q =>
      exact absurd hchild (hfree d₀ (p.mem_dups.mp hd).1 (p.mem_dups.mp hd).2.1 (by rw [hparent]; rfl) y hy)
  have hsettled : p.settled d₀ = d₀ := by
    unfold settled
    rw [hnone]
  unfold current
  rw [hsettled, ite_self]

theorem attachmentsOf_settledAt (hitems : m.items = p.settledAt W) (pid : String) :
    attachmentsOf m pid = (p.childrenOf pid).map (p.current W) := by
  unfold attachmentsOf
  rw [hitems, childrenOf_settledAt]

theorem canonChildren_settledAt (hitems : m.items = p.settledAt W) (d : Item) :
    (d.duplicateOfItemId.map (attachmentsOf m)).getD [] = (p.canonChildren d).map (p.current W) := by
  unfold canonChildren
  cases d.duplicateOfItemId with
  | none => rfl
  | some c => exact attachmentsOf_settledAt hitems c

theorem getItem_settledAt (hitems : m.items = p.settledAt W) (hd : d ∈ dupParents (p.settledAt W₀)) :
    ∃ d₀ ∈ p.judged, d₀.id = d.id ∧ getItem m.items d.id = some (p.current W d₀) := by
  obtain ⟨d₀, hd₀, heq⟩ := mem_settledAt (mem_listEmailParents.mp (mem_of_mem_filter hd)).1
  have hid : d₀.id = d.id := heq ▸ ((p.rewrite_current W₀ d₀).id).symm
  refine ⟨d₀, hd₀, hid, ?_⟩
  have hrow := rowAt_of_mem (p.keyed_settledAt W) (mem_map_of_mem (f := p.current W) hd₀)
  rw [(p.rewrite_current W d₀).id, hid] at hrow
  rw [hitems]
  exact hrow

theorem familiesLoop_after {call : DedupeCall} {rest : List Item}
    (hparents : (dupParents (p.settledAt W₀)).drop j = d :: rest)
    (hrest : ∀ (V : List String) (s : Pass) (m : Matter),
      p.InFamily W₀ V (rest.flatMap p.childIds) (j + 1) s m →
      Ensures (familiesLoop call p.params rest s) m (p.FamiliesDone W₀) p.Halted)
    {r : DedupeOutcome ⊕ Pass} {t : Matter}
    (hr : p.ChildrenDone W₀ V (rest.flatMap p.childIds) j (p.childrenOf d.id) r t) : Ensures (match r with
      | .inl o => pure (.inl o)
      | .inr s => (do
        let s : Pass := ⟨{ s.cursor with familyCursor := s.cursor.familyCursor + 1 }, s.staged⟩
        if s.isFull p.params then do
          commitBatch s.staged s.cursor
          if ← poll then pure (.inl (.paused (summaryFromCursor s.cursor)))
          else familiesLoop call p.params rest ⟨s.cursor, []⟩
        else familiesLoop call p.params rest s : Prog Matter DedupeError (DedupeOutcome ⊕ Pass))) t
      (p.FamiliesDone W₀) p.Halted := by
  cases r with
  | inl o => exact Ensures.pure hr
  | inr s =>
    obtain ⟨V', -, hall, hs⟩ := hr
    have hpassed := hs.pass hparents hall
    dsimp only
    split
    · refine Ensures.bind (hpassed.commitBatch_ensures
        (Ensures.bind (Ensures.poll (fun b => ?_) ⟨hpassed.commit.stage, nofun⟩)))
      split
      · exact Ensures.pure ⟨hpassed.commit.stage, nofun⟩
      · exact hrest V' _ _ hpassed.commit
    · exact hrest V' _ _ hpassed

theorem familiesLoop_ensures (hlaw : p.Lawful) (hjob : call.jobId = p.jobId) {W₀ : List String}
    (rest : List Item) :
    ∀ (V : List String) (j : Nat) (s : Pass) (m : Matter), (dupParents (p.settledAt W₀)).drop j = rest →
    p.InFamily W₀ V (rest.flatMap p.childIds) j s m →
    Ensures (familiesLoop call p.params rest s) m (p.FamiliesDone W₀) p.Halted := by
  induction rest with
  | nil => exact fun V j s m hparents h => Ensures.pure ⟨V, j, h, hparents⟩
  | cons d rest ih =>
    intro V j s m hparents h
    have hnext : (dupParents (p.settledAt W₀)).drop (j + 1) = rest := by
      rw [← drop_drop, hparents]
      rfl
    have hd : d ∈ dupParents (p.settledAt W₀) := by
      refine mem_of_mem_drop (i := j) ?_
      rw [hparents]
      exact mem_cons_self
    obtain ⟨W, hW₀, hWV, hitems, -⟩ := h.staged
    rw [familiesLoop]
    refine Ensures.bind (Ensures.poll (fun b => ?_) ⟨h.stage, nofun⟩)
    split
    · exact Ensures.bind (h.pause_ensures.mono (fun _ _ ho => Ensures.pure ho) fun _ _ h => h)
    obtain ⟨d₀, hd₀, hid, hrow⟩ := getItem_settledAt hitems hd
    refine Ensures.bind (Ensures.look ?_)
    rw [hrow]
    refine Ensures.bind (Ensures.look (Ensures.bind (Ensures.look ?_)))
    rw [attachmentsOf_settledAt hitems]
    have hafter := fun r t hr => familiesLoop_after (V := V) (r := r) (t := t) hparents
      (fun V' s' m' => ih V' (j + 1) s' m' hnext) hr
    have htodo : (d :: rest).flatMap p.childIds = (p.childrenOf d.id).map Item.id ++
        rest.flatMap p.childIds := flatMap_cons
    rw [htodo] at h
    cases hys : p.childrenOf d.id with
    | nil =>
      rw [hys] at h
      have hdone : p.ChildrenDone W₀ V (rest.flatMap p.childIds) j (p.childrenOf d.id) (.inr s) m := by
        refine ⟨V, fun _ hid => hid, ?_, h⟩
        rw [hys]
        exact fun _ hy => absurd hy not_mem_nil
      rw [map_nil, childrenLoop]
      exact Ensures.bind (Ensures.pure (hafter _ m hdone))
    | cons y ys =>
      have hy : y ∈ p.judged ∧ y.parentItemId = some d.id :=
        mem_childrenOf.mp (by rw [hys]; exact mem_cons_self)
      have hdups := mem_dups_of_current h.free hd hy.1 hy.2
      obtain rfl : d₀ = d := inj_on_of_nodup_map p.keyed_judged hd₀ (p.mem_dups.mp hdups).1 hid
      rw [current_parent h.free hdups hy.1 hy.2, canonChildren_settledAt hitems, ← hys]
      refine Ensures.bind ((childrenLoop_ensures hlaw hjob hW₀ (p.childrenOf d₀.id) V s m
        (fun y' hy' => ?_) hWV h).mono
        hafter fun _ _ h => h)
      obtain ⟨hmem, hparent⟩ := mem_childrenOf.mp hy'
      exact ⟨hmem, p.parentOf_of_mem_dups hdups hparent⟩

def summary (p : Plan) : DedupeSummary :=
  let counts := (p.scanned p.queue.length).counts
  ⟨{ counts with duplicate := counts.duplicate + p.judged.countP p.isCounted }, p.queue.length⟩

theorem InFamily.done (h : p.InFamily W₀ V [] j s m) (hend : (dupParents (p.settledAt W₀)).drop j = []) :
    p.settledAt V = p.final ∧ summaryFromCursor s.cursor = p.summary ∧ ∀ r ∈ p.judged, p.IsSafe r := by
  have hall : ∀ r ∈ p.judged, (p.parentOf r).isSome → r.id ∈ V := by
    intro r hr hsome
    obtain ⟨d, hd⟩ := Option.isSome_iff_exists.mp hsome
    obtain ⟨hdups, hchild⟩ := p.parentOf_spec hd
    obtain ⟨hmem, heligible, hrole⟩ := p.mem_dups.mp hdups
    have hcurrent : p.current W₀ d ∈ dupParents (p.settledAt W₀) := by
      unfold dupParents
      rw [mem_filter, mem_listEmailParents, decide_eq_true_eq]
      exact ⟨⟨mem_map_of_mem hmem, (p.rewrite_current W₀ d).isEligible_eq.trans heligible⟩,
        duplicate_current W₀ hrole⟩
    have htake : (dupParents (p.settledAt W₀)).take j = dupParents (p.settledAt W₀) := by
      conv_rhs => rw [← take_append_drop j (dupParents (p.settledAt W₀)), hend, append_nil]
    refine h.passed _ (htake ▸ hcurrent) r hr ?_
    rw [(p.rewrite_current W₀ d).id]
    exact hchild
  refine ⟨?_, ?_, fun r hr => ?_⟩
  · refine map_congr_left fun r hr => ?_
    by_cases hid : r.id ∈ V
    · exact p.current_of_mem hid
    · have hsettled : p.settled r = r := by
        unfold settled
        cases hparent : p.parentOf r with
        | none => rfl
        | some d => exact absurd (hall r hr (by rw [hparent]; rfl)) hid
      rw [p.current_of_notMem hid, hsettled]
  · rw [h.cursor]
    have hcount : p.judged.countP (fun r => decide (r.id ∈ V) && p.isCounted r)
        = p.judged.countP p.isCounted := by
      refine countP_congr fun r hr => ?_
      rw [Bool.and_eq_true, decide_eq_true_eq]
      refine ⟨And.right, fun hcounted => ⟨hall r hr ?_, hcounted⟩⟩
      unfold isCounted at hcounted
      exact (Bool.and_eq_true _ _ ▸ hcounted).1
    unfold atFamily countsAt summaryFromCursor
    dsimp only
    rw [hcount]
    rfl
  · intro d hd
    obtain ⟨r', hr', hid, -, hsafe⟩ := h.names r.id (hall r hr (by rw [Option.mem_def.mp hd]; rfl))
    obtain rfl := inj_on_of_nodup_map p.keyed_judged hr' hr hid
    exact hsafe d hd

theorem nodup_todo (hparents : ((dupParents (p.settledAt W₀)).drop j).Sublist (dupParents (p.settledAt W₀))) :
    (((dupParents (p.settledAt W₀)).drop j).flatMap p.childIds).Nodup := by
  have hkeyed : ((dupParents (p.settledAt W₀)).map Item.id).Nodup :=
    (keyed_listEmailParents (p.keyed_settledAt W₀)).sublist (List.filter_sublist.map _)
  have hdistinct := List.pairwise_map.mp (hkeyed.sublist (hparents.map Item.id))
  rw [nodup_flatMap]
  refine ⟨fun d _ => keyed_childrenOf d.id, hdistinct.imp fun {d d'} hne => ?_⟩
  intro id hd hd'
  obtain ⟨y, hy, rfl⟩ := List.mem_map.mp hd
  obtain ⟨y', hy', hid⟩ := List.mem_map.mp hd'
  obtain ⟨hmem, hchild⟩ := mem_childrenOf.mp hy
  obtain ⟨hmem', hchild'⟩ := mem_childrenOf.mp hy'
  -- an attachment has one parent
  obtain rfl := inj_on_of_nodup_map p.keyed_judged hmem' hmem hid
  exact hne (Option.some.inj (hchild.symm.trans hchild'))

theorem runFamily_ensures (hlaw : p.Lawful) (hjob : call.jobId = p.jobId)
    (hpolicy : p.params.familyPolicy = .suppressChildrenWithParent) (hfree : p.Free) (hm : p.Stage m)
    (hitems : m.items = p.settledAt W) (hnames : p.Names W) (hcovers : p.Covers j W) :
    Ensures (runFamily call p.params (p.atFamily j W)) m
      (fun o t => p.Stage t ∧ ∀ summary, o = .succeeded summary →
        t.items = p.final ∧ summary = p.summary ∧ ∀ r ∈ p.judged, p.IsSafe r)
      p.Halted := by
  unfold runFamily
  rw [if_pos hpolicy]
  have hstart : p.InFamily W W (((dupParents (p.settledAt W)).drop j).flatMap p.childIds) j
      ⟨p.atFamily j W, []⟩ m :=
    ⟨hm, hpolicy, hfree, rfl, hnames, fun _ h => h, fun _ _ h => h, nodup_todo (drop_sublist _ _),
      hcovers, W, fun _ h => h, fun _ h => h, hitems, written_nil _⟩
  have hpass : Ensures (runFamilyPass call p.params (p.atFamily j W)) m
      (fun r t => r.elim (fun o => p.Paused o t)
        fun c => p.Stage t ∧ t.items = p.final ∧ summaryFromCursor c = p.summary ∧ ∀ r ∈ p.judged, p.IsSafe r)
      p.Halted := by
    refine Ensures.bind (Ensures.look ?_)
    rw [hitems]
    refine Ensures.bind
      ((familiesLoop_ensures hlaw hjob _ W j _ m rfl hstart).mono (fun r t hr => ?_) fun _ _ h => h)
    cases r with
    | inl o => exact Ensures.pure hr
    | inr s =>
      obtain ⟨V, j', hs, hend⟩ := hr
      obtain ⟨hfinal, hsummary, hsafe⟩ := hs.done hend
      refine Ensures.bind (hs.flush_ensures.mono (fun _ t ht => Ensures.pure ⟨ht.1, ?_, hsummary,
        hsafe⟩) fun _ _ h => h)
      exact ht.2.trans hfinal
  refine Ensures.bind (hpass.mono (fun r t hr => ?_) fun _ _ h => h)
  cases r with
  | inl o =>
    rw [Sum.elim_inl] at hr
    exact Ensures.pure ⟨hr.1, fun summary ho => absurd ho (hr.2 summary)⟩
  | inr c =>
    rw [Sum.elim_inr] at hr
    refine Ensures.pure ⟨hr.1, fun summary ho => ?_⟩
    obtain rfl := DedupeOutcome.succeeded.inj ho
    exact hr.2

end

end Plan

end MatterDedupe
