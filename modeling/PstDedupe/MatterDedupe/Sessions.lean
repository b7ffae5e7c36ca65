import PstDedupe.MatterDedupe.Astray

/-!
# Sessions of a dedupe job

Every session leaves a stage, and one that succeeds has reached what an undisturbed family pass
makes of the judged rows, unless the job was astray when it began.
-/

namespace MatterDedupe

open Rust MatterCore Foundations Prog List

namespace Plan

section

variable [Target] [Sha256] [ExtraJson] {p : Plan} {call : DedupeCall} {m : Matter}

/-! ## Undisturbed sessions -/

def Own (e : DedupeError) : Prop := e ≠ IoError.io

omit [Target] [Sha256] [ExtraJson] in
theorem own_attachIsParent : Own attachIsParent := by
  intro h
  cases h

omit [Target] [Sha256] [ExtraJson] in
theorem own_notFound (id : String) : Own (.matter ("item not found: " ++ id)) := by
  intro h
  have htext := congrArg String.toList (DedupeError.matter.inj h)
  rw [String.toList_append] at htext
  have hhead : 'i' = 'd' := (List.cons.inj htext).1
  exact absurd hhead (by decide)

def Goes {β : Type} (r : DedupeOutcome ⊕ β) : Prop := r.isRight = true

omit [Target] [Sha256] [ExtraJson] in
theorem flush_calm {own : DedupeError → Prop} (s : Pass) : Calm own (fun _ => True) s.flush := by
  unfold Pass.flush
  split
  · exact Calm.pure trivial
  · exact Calm.transaction

omit [ExtraJson] in
theorem pageLoop_calm (params : DedupeParams) (page : List Item) :
    ∀ (maps : KeyMaps) (s : Pass), Calm (fun _ => False) Goes (pageLoop call params page maps s) := by
  induction page with
  | nil => exact fun maps s => Calm.pure rfl
  | cons cand rest ih =>
    intro maps s
    rw [pageLoop]
    refine Calm.bind Calm.poll fun b hb => ?_
    subst hb
    rw [if_neg Bool.false_ne_true]
    split
    · exact ih _ _
    · dsimp only
      split
      · exact Calm.bind Calm.transaction fun _ _ => ih _ _
      · exact ih _ _

omit [ExtraJson] in
theorem parentsLoop_calm (params : DedupeParams) (total : Nat) (fuel : Nat) :
    ∀ (maps : KeyMaps) (s : Pass), Calm (fun _ => False) Goes (parentsLoop call params total fuel maps s) := by
  induction fuel with
  | zero => exact fun maps s => Calm.pure rfl
  | succ fuel ih =>
    intro maps s
    rw [parentsLoop]
    split
    · refine Calm.bind Calm.poll fun b hb => ?_
      subst hb
      rw [if_neg Bool.false_ne_true]
      refine Calm.bind Calm.look fun page _ => ?_
      split
      · exact Calm.pure rfl
      · refine Calm.bind (pageLoop_calm params page maps s) fun r hr => ?_
        cases r with
        | inl o => cases hr
        | inr r => exact ih _ _
    · exact Calm.pure rfl

omit [ExtraJson] in
theorem runParentPass_calm (params : DedupeParams) (maps : KeyMaps) (c : CheckpointCursor) :
    Calm (fun _ => False) Goes (runParentPass call params maps c) := by
  refine Calm.bind Calm.look fun total _ => Calm.bind (parentsLoop_calm params total total maps _)
    fun r hr => ?_
  cases r with
  | inl o => cases hr
  | inr s => exact Calm.bind (flush_calm s) fun _ _ => Calm.pure rfl

omit [Sha256] in
theorem childrenLoop_calm (params : DedupeParams) (canonParentId : Option String)
    (canonChildren : List Item) (children : List Item) : ∀ s : Pass,
      Calm Own Goes (childrenLoop call params canonParentId canonChildren children s) := by
  induction children with
  | nil => exact fun s => Calm.pure rfl
  | cons child rest ih =>
    intro s
    rw [childrenLoop]
    split
    · exact Calm.fail own_attachIsParent
    · dsimp only
      split
      · refine Calm.bind Calm.transaction fun _ _ => Calm.bind Calm.poll fun b hb => ?_
        subst hb
        exact ih _
      · exact ih _

omit [Sha256] in
theorem familiesLoop_calm (params : DedupeParams) (rest : List Item) :
    ∀ s : Pass, Calm Own Goes (familiesLoop call params rest s) := by
  induction rest with
  | nil => exact fun s => Calm.pure rfl
  | cons d rest ih =>
    intro s
    rw [familiesLoop]
    refine Calm.bind Calm.poll fun b hb => ?_
    subst hb
    rw [if_neg Bool.false_ne_true]
    refine Calm.bind Calm.look fun row _ => ?_
    cases row with
    | none => exact Calm.fail (own_notFound _)
    | some parent =>
      refine Calm.bind Calm.look fun canonChildren _ => Calm.bind Calm.look fun children _ => ?_
      refine Calm.bind (childrenLoop_calm params _ _ _ s) fun r hr => ?_
      cases r with
      | inl o => cases hr
      | inr s' =>
        dsimp only
        split
        · refine Calm.bind Calm.transaction fun _ _ => Calm.bind Calm.poll fun b hb => ?_
          subst hb
          exact ih _
        · exact ih _

omit [Sha256] in
theorem runFamily_calm (params : DedupeParams) (c : CheckpointCursor) :
    Calm Own Succeeds (runFamily call params c) := by
  unfold runFamily
  split
  · refine Calm.bind (R := Goes) ?_ fun r hr => ?_
    · refine Calm.bind Calm.look fun parents _ => Calm.bind (familiesLoop_calm params _ _) fun r hr => ?_
      cases r with
      | inl o => cases hr
      | inr s => exact Calm.bind (flush_calm s) fun _ _ => Calm.pure rfl
    · cases r with
      | inl o => cases hr
      | inr c => exact Calm.pure ⟨_, rfl⟩
  · exact Calm.pure ⟨_, rfl⟩

/-! ## The family pass from where it is -/

def turnedMatter (p : Plan) : Matter := ⟨p.judged, some p.turned, p.keyed_judged⟩

omit [ExtraJson] in
theorem eq_turnedMatter (hsome : m.checkpoint = some p.turned) (hitems : m.items = p.judged) :
    m = p.turnedMatter := by
  obtain ⟨items, checkpoint, keyed⟩ := m
  obtain rfl : items = p.judged := hitems
  obtain rfl : checkpoint = some p.turned := hsome
  rfl

omit [ExtraJson] in
theorem turned_eq : p.turned = p.atFamily 0 [] := by
  unfold turned atParents atFamily countsAt
  simp

def Reached (p : Plan) (call : DedupeCall) (o : DedupeOutcome) (m : Matter) : Prop :=
  p.Stage m ∧ ∀ summary, o = .succeeded summary →
    ∃ t, Runs (runFamily call p.params p.turned) p.turnedMatter (.succeeded summary) t ∧ t.items = m.items

omit [ExtraJson] in
theorem nested_of_not_free (h : ¬ p.Free) : Nested p.judged := by
  unfold Free at h
  push Not at h
  obtain ⟨x, hx, heligible, hparent, y, hy, hchild⟩ := h
  obtain ⟨d, hd⟩ := Option.isSome_iff_exists.mp hparent
  obtain ⟨hdups, hxd⟩ := p.parentOf_spec hd
  exact ⟨x, hx, heligible, ⟨d, hdups, hxd⟩, y, hy, hchild⟩

theorem covers_zero (W : List String) : p.Covers 0 W := by
  intro d hd
  rw [take_zero] at hd
  exact absurd hd not_mem_nil

theorem runFamily_turned (hlaw : p.Lawful) (hjob : call.jobId = p.jobId)
    (hsome : m.checkpoint = some p.turned) (hitems : m.items = p.judged) :
    Ensures (runFamily call p.params p.turned) m (p.Reached call) p.Halted := by
  have hm : p.Stage m := .turned hsome hitems
  have hstage : Ensures (runFamily call p.params p.turned) m (fun _ t => p.Stage t) p.Halted := by
    by_cases hpolicy : p.params.familyPolicy = .suppressChildrenWithParent
    · by_cases hfree : p.Free
      · rw [turned_eq]
        refine (runFamily_ensures hlaw hjob hpolicy hfree hm (hitems.trans p.settledAt_nil.symm)
          (fun _ h => absurd h not_mem_nil) (covers_zero [])).mono
          (fun _ _ h => h.1) fun _ _ h => h
      · exact (runFamily_astray hjob rfl hm hfree (hitems ▸ nested_of_not_free hfree)).mono
          (fun _ _ h => h.1) fun _ _ h => h
    · unfold runFamily
      rw [if_neg hpolicy]
      exact Ensures.pure hm
  refine (hstage.steady (runFamily_steady p.params p.turned)).mono
    (fun o t h => ⟨h.1, fun summary ho => ?_⟩) fun _ _ h => h
  subst ho
  exact ⟨t, eq_turnedMatter hsome hitems ▸ h.2 ⟨summary, rfl⟩, rfl⟩

theorem runFamily_resumed (hlaw : p.Lawful) (hjob : call.jobId = p.jobId)
    (hpolicy : p.params.familyPolicy = .suppressChildrenWithParent) (hfree : p.Free) {j : Nat}
    {W : List String} (hm : p.Stage m) (hitems : m.items = p.settledAt W) (hnames : p.Names W)
    (hcovers : p.Covers j W) :
    Ensures (runFamily call p.params (p.atFamily j W)) m (p.Reached call) p.Halted := by
  refine (runFamily_ensures hlaw hjob hpolicy hfree hm hitems hnames hcovers).mono
    (fun o t h => ⟨h.1, fun summary ho => ?_⟩)
    fun _ _ h => h
  obtain ⟨hfinal, rfl, hsafe⟩ := h.2 summary ho
  -- an undisturbed pass from the judged rows ends with the same rows
  have honce := runFamily_ensures (j := 0) (m := p.turnedMatter) hlaw hjob hpolicy hfree
    (.turned rfl rfl) p.settledAt_nil.symm
    (fun _ h => absurd h not_mem_nil) (covers_zero [])
  rw [← turned_eq] at honce
  obtain ⟨o', t', hrun, ⟨summary', rfl⟩, -, hend⟩ :=
    (runFamily_calm p.params p.turned).runs honce fun e t he hown => by
    rcases he.2 e rfl with rfl | hnot | ⟨r, hr, hr'⟩
    · exact hown rfl
    · exact hnot hfree
    · exact hr' (hsafe r hr)
  obtain ⟨hfinal', rfl, -⟩ := hend summary' rfl
  exact ⟨t', hrun, hfinal'.trans hfinal.symm⟩

/-! ## Whole sessions -/

theorem runPasses_parents (hlaw : p.Lawful) (hjob : call.jobId = p.jobId) {n : Nat}
    (hn : n ≤ p.queue.length) (hm : p.Stage m) (hitems : m.items = p.afterParents n) :
    Ensures (runPasses call p.params (p.atParents n)) m (p.Reached call) p.Halted := by
  have hmaps : (if (p.atParents n).cursorIndex > 0 ∨ (p.atParents n).phase ≠ .parents then
      rebuildMapsFromCommitted p.params (listEmailParentsRange m.items 0 (p.atParents n).cursorIndex) else {})
        = (p.scanned n).maps := by
    split
    · rw [hitems]
      exact rebuild_afterParents n
    next h =>
      rw [not_or] at h
      obtain rfl : n = 0 := Nat.eq_zero_of_not_pos h.1
      rfl
  refine Ensures.bind (Ensures.look ?_)
  rw [hmaps, if_pos (show (p.atParents n).phase = .parents from rfl)]
  refine Ensures.bind ((runParentPass_ensures hjob hn hm hitems).mono (fun r t hr => ?_) fun _ _ h => h)
  cases r with
  | inl o => exact Ensures.pure ⟨hr.1, fun summary h => absurd h (hr.2 summary)⟩
  | inr c =>
    obtain ⟨ht, htitems, rfl⟩ := hr
    refine Ensures.bind (Ensures.transaction ?_ ⟨ht, fun _ he => .inl (Stop.failed.inj he).symm⟩ ⟨ht, nofun⟩)
    exact runFamily_turned hlaw hjob rfl ((written_nil t.items).trans htitems)

structure Serves (call : DedupeCall) (p : Plan) : Prop where
  jobId : call.jobId = p.jobId
  params : call.params = p.params

theorem Stage.params (hserves : Serves call p) (hm : p.Stage m) (hguard : ¬ Astray p.jobId m) :
    effectiveParams call m.checkpoint = p.params := by
  cases hm with
  | fresh hnone _ =>
    rw [hnone]
    exact hserves.params
  | parents n hsome _ _ =>
    rw [hsome]
    rfl
  | turned hsome _ =>
    rw [hsome]
    rfl
  | family j W _ hsome _ _ _ _ =>
    rw [hsome]
    rfl
  | astray h => exact absurd h hguard

theorem runDedupeInner_parents (hlaw : p.Lawful) (hjob : call.jobId = p.jobId) {n : Nat}
    (hn : n ≤ p.queue.length) (hm : p.Stage m)
    (hitems : m.items = p.afterParents n ∨ n = 0 ∧ m.items = p.start)
    {prior : Option CheckpointCursor}
    (hprior : { prior.getD { params := p.params } with params := p.params } = p.atParents n)
    (hclear : ∀ t : Matter, t.checkpoint = m.checkpoint → t.items = p.base → n = 0 → p.Stage t) :
    Ensures (runDedupeInner call p.params prior) m (p.Reached call) p.Halted := by
  unfold runDedupeInner
  rw [hprior]
  dsimp only
  split
  next hreset =>
    rw [Bool.and_eq_true] at hreset
    obtain rfl : n = 0 := by
      have hfresh := hreset.2
      unfold isFresh at hfresh
      simp only [Bool.and_eq_true, decide_eq_true_eq] at hfresh
      exact hfresh.1.1.1
    have hbase : p.cleared m.items = p.base := by
      refine p.cleared_start_or_base hreset.1 ?_
      rcases hitems with hitems | ⟨-, hitems⟩
      · exact .inr (hitems.trans p.afterParents_zero)
      · exact .inl hitems
    refine Ensures.bind (Ensures.transaction ?_ ⟨hm, fun _ he => .inl (Stop.failed.inj he).symm⟩ ⟨hm, nofun⟩)
    exact runPasses_parents hlaw hjob hn (hclear _ rfl hbase rfl) (hbase.trans p.afterParents_zero.symm)
  next hreset =>
    refine runPasses_parents hlaw hjob hn hm ?_
    rcases hitems with hitems | ⟨rfl, hitems⟩
    · exact hitems
    · have hoff : p.params.reset = false := by
        cases h : p.params.reset with
        | false => rfl
        | true =>
          rw [h] at hreset
          exact absurd rfl hreset
      have hbase : p.base = p.start := by
        unfold base
        rw [hoff]
        rfl
      rw [hitems, afterParents_zero, hbase]

theorem runDedupeInner_family {c : CheckpointCursor} (hphase : c.phase = .family)
    (hparams : c.params = p.params) (h : Ensures (runFamily call p.params c) m (p.Reached call) p.Halted) :
    Ensures (runDedupeInner call p.params (some c)) m (p.Reached call) p.Halted := by
  have hsame : { (some c).getD { params := p.params } with params := p.params } = c := by
    rw [← hparams]
    rfl
  have hfresh : isFresh c = false := by
    unfold isFresh
    rw [hphase]
    simp
  unfold runDedupeInner
  rw [hsame]
  dsimp only
  rw [hfresh, Bool.and_false, if_neg Bool.false_ne_true]
  refine Ensures.bind (Ensures.look ?_)
  rw [if_neg (by rw [hphase]; decide)]
  exact h

theorem runDedupeInner_ensures (hlaw : p.Lawful) (hjob : call.jobId = p.jobId) (hm : p.Stage m)
    (hguard : ¬ Astray p.jobId m) :
    Ensures (runDedupeInner call p.params m.checkpoint) m (p.Reached call) p.Halted := by
  cases hm with
  | fresh hnone hitems =>
    rw [hnone]
    refine runDedupeInner_parents hlaw hjob (Nat.zero_le _) (.fresh hnone hitems) ?_ rfl fun t ht hbase _ => ?_
    · rcases hitems with hitems | hitems
      · exact .inr ⟨rfl, hitems⟩
      · exact .inl (hitems.trans p.afterParents_zero.symm)
    · exact .fresh (ht.trans hnone) (.inr hbase)
  | parents n hsome hn hitems =>
    rw [hsome]
    refine runDedupeInner_parents hlaw hjob hn (.parents n hsome hn hitems) (.inl hitems) rfl fun t
      ht hbase hzero => ?_
    subst hzero
    exact .parents 0 (ht.trans hsome) hn (hbase.trans p.afterParents_zero.symm)
  | turned hsome hitems =>
    rw [hsome]
    exact runDedupeInner_family rfl rfl (runFamily_turned hlaw hjob hsome hitems)
  | family j W hpolicy hsome hfree hitems hnames hcovers =>
    rw [hsome]
    exact runDedupeInner_family rfl rfl
      (runFamily_resumed hlaw hjob hpolicy hfree
        (.family j W hpolicy hsome hfree hitems hnames hcovers) hitems hnames hcovers)
  | astray h => exact absurd h hguard

theorem runDedupe_ensures (hlaw : p.Lawful) (hserves : Serves call p) (hm : p.Stage m)
    (hguard : ¬ Astray p.jobId m) :
    Ensures (runDedupe call) m (p.Reached call) fun _ t => p.Stage t := by
  refine Ensures.bind (Ensures.look ?_)
  refine Ensures.bind (Ensures.touch ?_ fun _ => hm)
  rw [hm.params hserves hguard]
  refine Ensures.bind
    (Ensures.attempt ((runDedupeInner_ensures hlaw hserves.jobId hm hguard).mono (fun o t ho => ?_)
    fun x t hx => ?_))
  · cases o with
    | succeeded summary =>
      refine Ensures.bind (Ensures.attempt (Ensures.touch (Ensures.pure ho) fun x => ?_))
      cases x with
      | failed e => exact Ensures.pure ⟨ho.1, fun summary h => nomatch h⟩
      | crashed => exact ho.1
    | paused summary => exact Ensures.pure ⟨ho.1, fun summary h => nomatch h⟩
    | failed message summary =>
      refine Ensures.bind (Ensures.attempt (Ensures.touch (Ensures.pure ⟨ho.1,
        fun summary h => nomatch h⟩) fun x => ?_))
      cases x with
      | failed e => exact Ensures.fail ho.1
      | crashed => exact ho.1
  · cases x with
    | failed e =>
      refine Ensures.bind (Ensures.attempt (Ensures.touch (Ensures.fail hx.1) fun x => ?_))
      cases x with
      | failed ae => exact Ensures.fail hx.1
      | crashed => exact hx.1
    | crashed => exact hx.1

end

end Plan

/-!
# A dedupe job in many sessions is one in one

Whatever pauses, errors and crashes there were, a job that succeeds has the rows and the summary of
one undisturbed session, if none of its sessions began astray: in the middle of a family pass, on a
table where an email parent with attachments of its own is an attachment of a duplicate parent.
-/

section

variable [Target] [Sha256] [ExtraJson]

def dedupeSession (call : DedupeCall) (m : Matter) (os : List Outcome) : Matter :=
  (runDedupe call ⟨m, os⟩).2.state

namespace Plan

variable {p : Plan} {call : DedupeCall}

theorem runs_runParentPass (hjob : call.jobId = p.jobId) {m : Matter} (hm : p.Stage m)
    (hitems : m.items = p.base) :
    ∃ t, Runs (runParentPass call p.params {} (p.atParents 0)) m
      (.inr (p.atParents p.queue.length)) t ∧ t.items = p.judged := by
  obtain ⟨r, t, hrun, hgoes, hr⟩ := (runParentPass_calm p.params _ _).runs
    (runParentPass_ensures hjob (Nat.zero_le _) hm (hitems.trans p.afterParents_zero.symm)) fun _ _ _ h => h
  cases r with
  | inl o => cases hgoes
  | inr c =>
    obtain ⟨-, ht, rfl⟩ := hr
    exact ⟨t, hrun, ht⟩

theorem runs_runDedupe (hserves : Serves call p) {m : Matter} (hnone : m.checkpoint = none)
    (hitems : m.items = p.start) {summary : DedupeSummary} {t : Matter}
    (hfamily : Runs (runFamily call p.params p.turned) p.turnedMatter (.succeeded summary) t) :
    Runs (runDedupe call) m (.succeeded summary) t := by
  have hpasses : ∀ m : Matter, m.checkpoint = none → m.items = p.base →
      Runs (runPasses call p.params { params := p.params }) m (.succeeded summary) t := by
    intro m hnone hbase
    obtain ⟨t', hrun, ht'⟩ := runs_runParentPass hserves.jobId (.fresh hnone (.inr hbase)) hbase
    refine Runs.bind Runs.look ?_
    have hparents : ({ params := p.params } : CheckpointCursor).phase = .parents := rfl
    rw [if_pos hparents, if_neg (by rw [hparents]; simp)]
    have hcommit : t'.commit [] p.turned = p.turnedMatter :=
      eq_turnedMatter rfl ((written_nil t'.items).trans ht')
    have hturn : Runs (commitBatch [] p.turned) t' () p.turnedMatter := by
      rw [← hcommit]
      rfl
    exact Runs.bind hrun (Runs.bind hturn hfamily)
  have hinner : Runs (runDedupeInner call p.params none) m (.succeeded summary) t := by
    unfold runDedupeInner
    dsimp only [Option.getD_none]
    cases hreset : p.params.reset with
    | true =>
      refine Runs.bind Runs.transaction (hpasses _ hnone ?_)
      exact (congrArg p.cleared hitems).trans (p.cleared_start_or_base hreset (.inl rfl))
    | false =>
      refine hpasses m hnone (hitems.trans ?_)
      unfold base
      rw [hreset]
      rfl
  refine Runs.bind Runs.look (Runs.bind Runs.touch ?_)
  rw [hnone]
  have hattempt : Runs (attempt (runDedupeInner call (effectiveParams call none) none)) m
      (.ok (.succeeded summary)) t := by
    unfold Runs attempt
    rw [show effectiveParams call none = p.params from hserves.params,
      show runDedupeInner call p.params none ⟨m, []⟩ = _ from hinner]
  exact Runs.bind hattempt rfl

def ofCall (call : DedupeCall) (start : Matter) : Plan := ⟨call.jobId, call.params, start.items, start.keyed⟩

theorem lawful_ofCall {start : Matter} (hlaw : ExtraJson.Lawful (start.items.map Item.extraJson)) :
    (ofCall call start).Lawful := by
  unfold Lawful
  rw [extraJson_judged]
  exact hlaw

theorem reached_sessions (call : DedupeCall) (start : Matter) (hlaw : (ofCall call start).Lawful)
    (hnew : start.checkpoint = none)
    (sessions : List (List Outcome))
    (hguard : Guarded (dedupeSession call) (fun m _ => ¬ Astray call.jobId m) start sessions)
    (last : List Outcome)
    (hlast : ¬ Astray call.jobId (sessions.foldl (dedupeSession call) start)) (summary : DedupeSummary)
    (hsucceeded : (runDedupe call ⟨sessions.foldl (dedupeSession call) start,
      last⟩).1 = .ok (.succeeded summary)) :
    ∃ once, Runs (runFamily call call.params (ofCall call start).turned)
      (ofCall call start).turnedMatter (.succeeded summary) once ∧
      once.items = (dedupeSession call (sessions.foldl (dedupeSession call) start) last).items := by
  have hserves : Serves call (ofCall call start) := ⟨rfl, rfl⟩
  have hstage : (ofCall call start).Stage (sessions.foldl (dedupeSession call) start) :=
    (Along.of_guarded (I := (ofCall call start).Stage) (fun m os hm hc =>
      session_keeps (m := fun _ : Unit => runDedupe call) (i := ((), os))
        ((runDedupe_ensures hlaw hserves hm hc).mono (fun _ _ h => h.1) fun _ _ h => h))
      (.fresh hnew (.inl rfl)) hguard).last
  obtain ⟨-, hreached⟩ := (runDedupe_ensures hlaw hserves hstage hlast).of_ok hsucceeded
  exact hreached summary rfl

end Plan

/-- **A job in many sessions is a job in one.** -/
theorem runDedupe_resumed (call : DedupeCall) (start : Matter)
    (hlaw : ExtraJson.Lawful (start.items.map Item.extraJson)) (hnew : start.checkpoint = none)
    (sessions : List (List Outcome))
    (hguard : Guarded (dedupeSession call) (fun m _ => ¬ Astray call.jobId m) start sessions)
    (last : List Outcome)
    (hlast : ¬ Astray call.jobId (sessions.foldl (dedupeSession call) start)) (summary : DedupeSummary)
    (hsucceeded : (runDedupe call ⟨sessions.foldl (dedupeSession call) start,
      last⟩).1 = .ok (.succeeded summary)) :
    ∃ once, Runs (runDedupe call) start (.succeeded summary) once ∧
      (dedupeSession call (sessions.foldl (dedupeSession call) start) last).items = once.items := by
  obtain ⟨once, hfamily, honce⟩ :=
    Plan.reached_sessions call start (Plan.lawful_ofCall hlaw) hnew sessions hguard last hlast
      summary hsucceeded
  exact ⟨once, Plan.runs_runDedupe (p := Plan.ofCall call start) ⟨rfl, rfl⟩ hnew rfl hfamily, honce.symm⟩

end

/-! ## Nested messages -/

abbrev ExtraJson.flag : ExtraJson where
  Object := Bool
  empty := false
  insertUnmatched _ := true
  removeUnmatched m := if m then some false else none
  parse text := if text = "\x7b\x7d" then some false else if text
    = "\x7b\"family_attach_unmatched\":true\x7d" then some true else none
  print m := if m then "\x7b\"family_attach_unmatched\":true\x7d" else "\x7b\x7d"

theorem ExtraJson.flag_lawful (texts : List (Option String)) : @ExtraJson.Lawful ExtraJson.flag texts :=
  letI := ExtraJson.flag
  have hparse : ∀ m : Bool, (if (if m then "\x7b\"family_attach_unmatched\":true\x7d"
      else "\x7b\x7d") = "\x7b\x7d" then some false
      else if (if m then "\x7b\"family_attach_unmatched\":true\x7d" else "\x7b\x7d")
        = "\x7b\"family_attach_unmatched\":true\x7d" then some true else none) = some m := by decide
  ⟨fun _ _ m _ => hparse m, fun _ => rfl, fun m m' h => by cases m <;> cases h; rfl⟩

def rowByRow : DedupeCall := ⟨"job_1", { batchSize := 1 }⟩

def nestedItems : Matter where
  items := [{ id := "a", messageId := some "m1", importedAt := "1", role := some "parent" },
    { id := "b", messageId := some "m1", importedAt := "2", role := some "parent" },
    { id := "x", messageId := some "m2", importedAt := "3", role := some "parent", parentItemId := some "b" },
    { id := "y", importedAt := "4", role := some "attachment", parentItemId := some "x" }]
  keyed := by decide

def succeeded : Except (Stop DedupeError) DedupeOutcome → Bool
  | .ok (.succeeded _) => true
  | _ => false

theorem exists_of_succeeded {r : Except (Stop DedupeError) DedupeOutcome} (h : succeeded r = true) :
    ∃ summary, r = .ok (.succeeded summary) := by
  unfold succeeded at h
  split at h
  next summary => exact ⟨summary, rfl⟩
  next => cases h

/-- Outcomes of a session that is told to pause after `n` operations and polls. -/
def pausedAfter (n : Nat) : List Outcome := replicate n .done ++ [.fails 0]

/-- Outcomes of a session that ends with its process after `n` operations and polls. -/
def crashedAfter (n : Nat) : List Outcome := replicate n .done ++ [.crashes 0]

/-- A crash after the first batch of the family pass: the job succeeds, and `y` is a duplicate. -/
theorem runDedupe_astray_differs :
    letI := Target.unix
    letI := Sha256.fips
    letI := ExtraJson.flag
    let interrupted := dedupeSession rowByRow nestedItems (crashedAfter 12)
    (∃ summary, (runDedupe rowByRow ⟨interrupted, []⟩).1 = .ok (.succeeded summary)) ∧
      (dedupeSession rowByRow interrupted []).items ≠ (dedupeSession rowByRow nestedItems []).items :=
  ⟨exists_of_succeeded (by decide +kernel), by decide +kernel⟩

def twoMails : Matter where
  items := [{ id := "a", messageId := some "m1", importedAt := "1", role := some "parent" },
    { id := "a1", path := some "1.doc", nativeSha256 := some "d1", role := some "attachment",
      parentItemId := some "a" },
    { id := "b", messageId := some "m1", importedAt := "2", role := some "parent" },
    { id := "b1", path := some "1.doc", nativeSha256 := some "d1", role := some "attachment",
      parentItemId := some "b" },
    { id := "b2", path := some "2.doc", nativeSha256 := some "d2", role := some "attachment", parentItemId := some "b" }]
  keyed := by decide

def interruptions : List (List Outcome) := [crashedAfter 5, pausedAfter 7, crashedAfter 3]

theorem runDedupe_resumed_two :
    letI := Target.unix
    letI := Sha256.fips
    letI := ExtraJson.flag
    ∃ summary once, Prog.Runs (runDedupe rowByRow) twoMails (.succeeded summary) once ∧
      (dedupeSession rowByRow (interruptions.foldl (dedupeSession rowByRow) twoMails) []).items = once.items :=
  letI := Target.unix
  letI := Sha256.fips
  letI := ExtraJson.flag
  let ⟨summary, hsummary⟩ := exists_of_succeeded
    (r := (runDedupe rowByRow ⟨interruptions.foldl (dedupeSession rowByRow) twoMails, []⟩).1)
      (by decide +kernel)
  ⟨summary, runDedupe_resumed rowByRow twoMails (ExtraJson.flag_lawful _) rfl interruptions
    (by decide +kernel) []
    (by decide +kernel) summary hsummary⟩

end MatterDedupe
