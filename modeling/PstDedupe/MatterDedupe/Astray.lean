import PstDedupe.MatterDedupe.FamilyResume

/-!
# Family passes on nested tables

A batch of the family pass leaves a nested table nested, so a pass that is interrupted after its
first batch leaves the job astray.
-/

namespace MatterDedupe

open Rust MatterCore Foundations Prog List

structure IsFamilyUpdate (jobId : String) (u : DedupRoleUpdate) : Prop where
  role : u.dedupRole = some "duplicate"
  tier : u.dedupTier = some "family"
  job : u.dedupJobId = some jobId

section

variable {jobId : String} {updates : List DedupRoleUpdate} {rows : List Item}

theorem duplicate_foldl (h : ∀ u ∈ updates, IsFamilyUpdate jobId u) {r : Item}
    (hr : r.dedupRole = some "duplicate") :
    (updates.foldl applyUpdate r).dedupRole = some "duplicate" := by
  induction updates generalizing r with
  | nil => exact hr
  | cons u updates ih =>
    refine ih (fun u' hu' => h u' (mem_cons_of_mem _ hu')) ?_
    unfold applyUpdate
    split
    · exact (h u mem_cons_self).role
    · exact hr

/-- A family pass makes rows duplicates, and leaves the others as they are. -/
def Demoted (rows rows' : List Item) : Prop :=
  ∃ f, Rewrite f ∧ (∀ r, f r = r ∨ (f r).dedupRole = some "duplicate") ∧ rows' = rows.map f

theorem Demoted.refl (rows : List Item) : Demoted rows rows :=
  ⟨id, SameItem.refl, fun _ => .inl rfl, (map_id rows).symm⟩

theorem Demoted.keys {rows' : List Item} (h : Demoted rows rows') : rows'.map Item.id = rows.map Item.id := by
  obtain ⟨f, hsame, -, rfl⟩ := h
  exact map_key_map (fun r => (hsame r).id) rows

theorem Demoted.written {rows' : List Item} (h : Demoted rows rows')
    (hu : ∀ u ∈ updates, IsFamilyUpdate jobId u) :
    Demoted rows (written updates rows') := by
  obtain ⟨f, hsame, hrole, rfl⟩ := h
  have hbatch : ∀ r : Item, updates.foldl applyUpdate r = r ∨
      (updates.foldl applyUpdate r).dedupRole = some "duplicate" := by
    intro r
    induction updates generalizing r with
    | nil => exact .inl rfl
    | cons u updates ih =>
      have hrest : ∀ u' ∈ updates, IsFamilyUpdate jobId u' := fun u' hu' => hu u' (mem_cons_of_mem _ hu')
      by_cases hid : r.id = u.itemId
      · have hfirst : (applyUpdate r u).dedupRole = some "duplicate" := by
          rw [show applyUpdate r u = _ from if_pos hid]
          exact (hu u mem_cons_self).role
        exact .inr (duplicate_foldl hrest hfirst)
      · rw [foldl_cons, applyUpdate_of_ne hid]
        exact ih hrest r
  refine ⟨fun r => updates.foldl applyUpdate (f r),
    fun r => (hsame r).trans (rewrite_foldl updates (f r)), fun r => ?_, map_map⟩
  rcases hbatch (f r) with heq | hdup
  · dsimp only
    rw [heq]
    exact hrole r
  · exact .inr hdup

theorem nested_written (h : ∀ u ∈ updates, IsFamilyUpdate jobId u) (hnested : Nested rows) :
    Nested (written updates rows) := by
  obtain ⟨x, hx, heligible, ⟨d, hd, hparent⟩, y, hy, hchild⟩ := hnested
  have hsame := rewrite_foldl updates
  unfold dupParents at hd
  rw [mem_filter, mem_listEmailParents, decide_eq_true_eq] at hd
  refine ⟨_, mem_map_of_mem hx, (hsame x).isEligible_eq.trans heligible,
    ⟨updates.foldl applyUpdate d, ?_, ?_⟩, _, mem_map_of_mem hy, ?_⟩
  · unfold dupParents
    rw [mem_filter, mem_listEmailParents, decide_eq_true_eq]
    exact ⟨⟨mem_map_of_mem hd.1.1, (hsame d).isEligible_eq.trans hd.1.2⟩, duplicate_foldl h hd.2⟩
  · rw [(hsame x).parentItemId, (hsame d).id]
    exact hparent
  · rw [(hsame y).parentItemId, (hsame x).id]
    exact hchild

theorem hasFamilyRow_written
    (h : ∀ u ∈ updates, IsFamilyUpdate jobId u ∧ u.itemId ∈ rows.map Item.id) (hne : updates ≠ []) :
    HasFamilyRow jobId (written updates rows) := by
  -- the last update of the batch stands
  obtain ⟨us, u, hlast⟩ := (eq_nil_or_concat updates).resolve_left hne
  obtain rfl : updates = us ++ [u] := hlast.trans (concat_eq_append ..)
  obtain ⟨hu, hid⟩ := h u (mem_append_right _ (mem_singleton_self u))
  obtain ⟨r, hr, hreq⟩ := List.mem_map.mp hid
  refine ⟨_, mem_map_of_mem hr, ?_⟩
  have hlast : (us ++ [u]).foldl applyUpdate r = applyUpdate (us.foldl applyUpdate r) u := by
    rw [foldl_append, foldl_cons, foldl_nil]
  rw [hlast, show applyUpdate (us.foldl applyUpdate r) u = _ from if_pos ((sameItem_foldl us r).id.trans hreq)]
  exact ⟨hu.tier, hu.job⟩

end

namespace Plan

section

variable [Target] [Sha256] [ExtraJson] {p : Plan} {call : DedupeCall}

structure Straying (p : Plan) (base : List Item) (s : Pass) (m : Matter) : Prop where
  stage : p.Stage m
  notFree : ¬ p.Free
  nested : Nested m.items
  demoted : Demoted base m.items
  phase : s.cursor.phase = .family
  staged : ∀ u ∈ s.staged, IsFamilyUpdate p.jobId u ∧ u.itemId ∈ base.map Item.id

variable {base : List Item} {s : Pass} {m : Matter}

structure Strayed (p : Plan) (base : List Item) (m : Matter) : Prop where
  stage : p.Stage m
  nested : Nested m.items
  demoted : Demoted base m.items

theorem Straying.strayed (h : p.Straying base s m) : p.Strayed base m := ⟨h.stage, h.nested, h.demoted⟩

theorem Straying.commit (h : p.Straying base s m) (hne : s.staged ≠ []) :
    p.Straying base ⟨s.cursor, []⟩ (m.commit s.staged s.cursor) := by
  have hnested : Nested (m.commit s.staged s.cursor).items :=
    nested_written (fun u hu => (h.staged u hu).1) h.nested
  refine ⟨.astray ⟨⟨s.cursor, rfl, h.phase⟩, ?_, hnested⟩, h.notFree, hnested, ?_, h.phase, nofun⟩
  · refine hasFamilyRow_written (fun u hu => ?_) hne
    rw [h.demoted.keys]
    exact h.staged u hu
  · exact h.demoted.written fun u hu => (h.staged u hu).1

theorem Straying.commitBatch_ensures {Q : Unit → Matter → Prop} (h : p.Straying base s m)
    (hQ : Q () (m.commit s.staged s.cursor)) : Ensures (commitBatch s.staged s.cursor) m Q p.Halted :=
  Ensures.transaction hQ ⟨h.stage, fun _ he => .inl (Stop.failed.inj he).symm⟩ ⟨h.stage, nofun⟩

theorem Straying.flush_ensures (h : p.Straying base s m) :
    Ensures s.flush m (fun _ t => p.Strayed base t) p.Halted := by
  unfold Pass.flush
  split
  next => exact Ensures.pure h.strayed
  next hne => exact h.commitBatch_ensures (h.commit fun hnil => hne (List.isEmpty_iff.mpr hnil)).strayed

def StraysOn (p : Plan) (base : List Item) : DedupeOutcome ⊕ Pass → Matter → Prop
  | .inl _, t => p.Strayed base t
  | .inr s, t => p.Straying base s t

omit [Target] [Sha256] [ExtraJson] in
theorem staged_of_isFull {params : DedupeParams} (h : s.isFull params = true) : s.staged ≠ [] := by
  intro hnil
  unfold Pass.isFull at h
  rw [hnil, decide_eq_true_eq, length_nil] at h
  omega

theorem childrenLoop_astray (hjob : call.jobId = p.jobId) (canonParentId : Option String)
    (canonChildren : List Item) (children : List Item) :
    ∀ (s : Pass) (m : Matter), (∀ c ∈ children, c.id ∈ base.map Item.id) → p.Straying base s m →
    Ensures (childrenLoop call p.params canonParentId canonChildren children s) m
      (p.StraysOn base) p.Halted := by
  induction children with
  | nil => exact fun s m _ h => Ensures.pure h
  | cons child rest ih =>
    intro s m hids h
    have hrest : ∀ c ∈ rest, c.id ∈ base.map Item.id := fun c hc => hids c (mem_cons_of_mem _ hc)
    rw [childrenLoop]
    split
    · exact Ensures.fail ⟨h.stage, fun e he => .inr (.inl h.notFree)⟩
    · have hstaged : p.Straying base (stageChild call canonParentId canonChildren child s) m := by
        refine ⟨h.stage, h.notFree, h.nested, h.demoted, h.phase, fun u hu => ?_⟩
        rcases List.mem_append.mp hu with hu | hu
        · exact h.staged u hu
        · obtain rfl := List.mem_singleton.mp hu
          exact ⟨⟨rfl, rfl, congrArg some hjob⟩, hids child mem_cons_self⟩
      dsimp only
      split
      next hfull =>
        have hcommit := hstaged.commit (staged_of_isFull hfull)
        refine Ensures.bind (hstaged.commitBatch_ensures
          (Ensures.bind (Ensures.poll (fun b => ?_) ⟨hcommit.stage, fun _ h => by cases h⟩)))
        split
        · exact Ensures.pure hcommit.strayed
        · exact ih _ _ hrest hcommit
      next => exact ih _ _ hrest hstaged

theorem familiesLoop_astray (hjob : call.jobId = p.jobId) (rest : List Item) : ∀ (s : Pass)
    (m : Matter), (∀ d ∈ rest, d.id ∈ base.map Item.id) → p.Straying base s m →
    Ensures (familiesLoop call p.params rest s) m (p.StraysOn base) p.Halted := by
  induction rest with
  | nil => exact fun s m _ h => Ensures.pure h
  | cons d rest ih =>
    intro s m hids h
    have hrest : ∀ d' ∈ rest, d'.id ∈ base.map Item.id := fun d' hd' => hids d' (mem_cons_of_mem _ hd')
    rw [familiesLoop]
    refine Ensures.bind (Ensures.poll (fun b => ?_) ⟨h.stage, fun _ h => by cases h⟩)
    split
    · exact Ensures.bind (Ensures.bind
        (h.flush_ensures.mono (fun _ _ ht => Ensures.pure (Ensures.pure ht)) fun _ _ h => h))
    refine Ensures.bind (Ensures.look ?_)
    have hchildren : ∀ c ∈ attachmentsOf m d.id, c.id ∈ base.map Item.id := by
      intro c hc
      rw [← h.demoted.keys]
      exact mem_map_of_mem (mem_listAttachments.mp ((sortBy_perm _ _).mem_iff.mp hc)).1
    have hthere : (getItem m.items d.id).isSome := by
      unfold getItem
      rw [isSome_rowAt, h.demoted.keys]
      exact hids d mem_cons_self
    cases hrow : getItem m.items d.id with
    | none =>
      rw [hrow] at hthere
      cases hthere
    | some parent =>
      refine Ensures.bind (Ensures.look (Ensures.bind (Ensures.look ?_)))
      refine Ensures.bind
        ((childrenLoop_astray hjob _ _ _ s m hchildren h).mono (fun r t hr => ?_) fun _ _ h => h)
      cases r with
      | inl o => exact Ensures.pure hr
      | inr s' =>
        have hpassed : p.Straying base
            ⟨{ s'.cursor with familyCursor := s'.cursor.familyCursor + 1 }, s'.staged⟩ t :=
          ⟨hr.stage, hr.notFree, hr.nested, hr.demoted, hr.phase, hr.staged⟩
        dsimp only
        split
        next hfull =>
          have hcommit := hpassed.commit (staged_of_isFull hfull)
          refine Ensures.bind (hpassed.commitBatch_ensures
            (Ensures.bind (Ensures.poll (fun b => ?_) ⟨hcommit.stage, fun _ h => by cases h⟩)))
          split
          · exact Ensures.pure hcommit.strayed
          · exact ih _ _ hrest hcommit
        next => exact ih _ _ hrest hpassed

theorem runFamily_astray (hjob : call.jobId = p.jobId) {c : CheckpointCursor}
    (hphase : c.phase = .family) (hm : p.Stage m) (hnotFree : ¬ p.Free) (hnested : Nested m.items) :
    Ensures (runFamily call p.params c) m (fun _ t => p.Strayed m.items t) p.Halted := by
  unfold runFamily
  split
  · have hstart : p.Straying m.items ⟨c, []⟩ m := ⟨hm, hnotFree, hnested, .refl _, hphase, nofun⟩
    have hpass : Ensures (runFamilyPass call p.params c) m (fun _ t => p.Strayed m.items t) p.Halted := by
      refine Ensures.bind (Ensures.look (Ensures.bind ?_))
      refine (familiesLoop_astray hjob _ _ m (fun d hd => ?_) hstart).mono (fun r t hr => ?_) fun _ _ h => h
      · exact mem_map_of_mem (mem_listEmailParents.mp (mem_of_mem_filter (mem_of_mem_drop hd))).1
      · cases r with
        | inl o => exact Ensures.pure hr
        | inr s => exact Ensures.bind (hr.flush_ensures.mono (fun _ _ ht => Ensures.pure ht) fun _ _ h => h)
    refine Ensures.bind (hpass.mono (fun r t hr => ?_) fun _ _ h => h)
    cases r <;> exact Ensures.pure hr
  · exact Ensures.pure ⟨hm, hnested, .refl _⟩

end

def GoesOn {β : Type} : DedupeOutcome ⊕ β → Prop
  | .inl (.paused _) => False
  | _ => True

def Succeeds (o : DedupeOutcome) : Prop := ∃ summary, o = .succeeded summary

theorem eq_of_not_goesOn {β : Type} {r : DedupeOutcome ⊕ β} (h : ¬ GoesOn r) : ∃ summary,
    r = .inl (.paused summary) := by
  unfold GoesOn at h
  split at h
  next summary => exact ⟨summary, rfl⟩
  next => exact absurd trivial h

theorem pause_not_goesOn {β : Type} (s : Pass) (m : Matter) :
    Ensures (do let o ← s.pause; pure (.inl o) : Prog Matter DedupeError (DedupeOutcome ⊕ β)) m
      (fun r _ => ¬ GoesOn r)
      fun _ _ => True := by
  refine Ensures.bind (Ensures.bind ?_)
  unfold Pass.flush
  split
  · exact Ensures.pure (Ensures.pure (Ensures.pure id))
  · exact Ensures.transaction (Ensures.pure (Ensures.pure id)) trivial trivial

theorem flush_steady (s : Pass) : Steady (fun _ => True) s.flush := by
  unfold Pass.flush
  split
  · exact Steady.pure
  · exact Steady.transaction

section

variable [Target] [ExtraJson] {call : DedupeCall}

omit [Target] [ExtraJson] in
theorem commit_poll_steady {β : Type} {s : Pass} {k : Prog Matter DedupeError (DedupeOutcome ⊕ β)}
    (hk : Steady GoesOn k) :
    Steady GoesOn (do
      commitBatch s.staged s.cursor
      if ← poll then pure (.inl (.paused (summaryFromCursor s.cursor))) else k) := by
  refine Steady.bind_all Steady.transaction fun _ => Steady.bind Steady.poll (fun b hb => ?_) fun b m hb => ?_
  · subst hb
    exact hk
  · rw [Bool.not_eq_false] at hb
    subst hb
    exact Ensures.pure id

theorem childrenLoop_steady (params : DedupeParams) (canonParentId : Option String)
    (canonChildren : List Item) (children : List Item) : ∀ s : Pass,
      Steady GoesOn (childrenLoop call params canonParentId canonChildren children s) := by
  induction children with
  | nil => exact fun s => Steady.pure
  | cons child rest ih =>
    intro s
    rw [childrenLoop]
    split
    · exact Steady.fail
    · dsimp only
      split
      · exact commit_poll_steady (ih _)
      · exact ih _

theorem familiesLoop_steady (params : DedupeParams) (rest : List Item) :
    ∀ s : Pass, Steady GoesOn (familiesLoop call params rest s) := by
  induction rest with
  | nil => exact fun s => Steady.pure
  | cons d rest ih =>
    intro s
    rw [familiesLoop]
    refine Steady.bind Steady.poll (fun b hb => ?_) fun b m hb => ?_
    · subst hb
      refine Steady.bind_all Steady.look fun row => ?_
      cases row with
      | none => exact Steady.fail
      | some parent =>
        refine Steady.bind_all Steady.look fun canonChildren => Steady.bind_all Steady.look fun children => ?_
        refine Steady.bind (childrenLoop_steady params _ _ _ s) (fun r _ => ?_) fun r m hr => ?_
        · cases r with
          | inl o => exact Steady.pure
          | inr s' =>
            dsimp only
            split
            · exact commit_poll_steady (s := ⟨{ s'.cursor with
                familyCursor := s'.cursor.familyCursor + 1 }, s'.staged⟩) (ih _)
            · exact ih _
        · obtain ⟨summary, rfl⟩ := eq_of_not_goesOn hr
          exact Ensures.pure id
    · rw [Bool.not_eq_false] at hb
      subst hb
      exact pause_not_goesOn s m

theorem runFamily_steady (params : DedupeParams) (c : CheckpointCursor) :
    Steady Succeeds (runFamily call params c) := by
  have hpass : Steady GoesOn (runFamilyPass call params c) := by
    refine Steady.bind_all Steady.look fun parents => Steady.bind (familiesLoop_steady params _ _)
      (fun r _ => ?_)
      fun r m hr => ?_
    · cases r with
      | inl o => exact Steady.pure
      | inr s => exact Steady.bind_all (flush_steady s) fun _ => Steady.pure
    · obtain ⟨summary, rfl⟩ := eq_of_not_goesOn hr
      exact Ensures.pure id
  unfold runFamily
  split
  · refine Steady.bind hpass (fun r _ => ?_) fun r m hr => ?_
    · cases r <;> exact Steady.pure
    · obtain ⟨summary, rfl⟩ := eq_of_not_goesOn hr
      exact Ensures.pure fun ⟨_, h⟩ => nomatch h
  · exact Steady.pure

end

end Plan

end MatterDedupe
