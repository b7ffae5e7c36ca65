import PstDedupe.MatterDedupe.Sessions

/-!
# What a dedupe job establishes

Of the parents that the job gives a role, a unique one has no unique parent with its key before it
and a duplicate one has a unique parent with its key before it.
-/

namespace MatterDedupe

open Rust MatterCore Foundations Prog List Option Prod

structure Indexes (key : Item → Option CompactKey) (rows : List Item)
    (map : HashMap CompactKey String) : Prop where
  sound : ∀ k canon, map.get k = some canon → ∃ a ∈ rows, a.id = canon ∧
    a.dedupRole = some "unique" ∧ key a = some k
  complete : ∀ a ∈ rows, ∀ k, a.dedupRole = some "unique" → key a = some k → map.get k ≠ none

variable {key : Item → Option CompactKey} {rows : List Item} {map map' : HashMap CompactKey String}
  {cand : Item}

theorem Indexes.empty : Indexes key [] ∅ := by
  refine ⟨fun k canon h => ?_, fun _ h => absurd h not_mem_nil⟩
  rw [HashMap.get_empty] at h
  cases h

theorem Indexes.concat (h : Indexes key rows map) (hmap : ∀ k : CompactKey, map'.get k
    = (map.get k).or (if cand.dedupRole = some "unique" ∧ key cand = some k then some cand.id else none)) :
    Indexes key (rows ++ [cand]) map' := by
  refine ⟨fun k canon hget => ?_, fun a ha k hrole hkey => ?_⟩
  · rw [hmap, or_eq_some_iff] at hget
    rcases hget with hget | ⟨-, hget⟩
    · obtain ⟨a, ha, hspec⟩ := h.sound k canon hget
      exact ⟨a, mem_append_left _ ha, hspec⟩
    · split at hget
      next hnew => exact ⟨cand, mem_append_right _ (mem_singleton_self _), Option.some.inj hget, hnew⟩
      next => cases hget
  · rw [hmap]
    rcases List.mem_append.mp ha with ha | ha
    · cases hget : map.get k with
      | none => exact absurd hget (h.complete a ha k hrole hkey)
      | some canon => exact some_ne_none _
    · obtain rfl := List.mem_singleton.mp ha
      rw [if_pos ⟨hrole, hkey⟩]
      cases map.get k <;> exact some_ne_none _

theorem get_orInsert_or (k k' : CompactKey) (id : String) :
    (map.orInsert k id).get k' = (map.get k').or (if some k = some k' then some id else none) := by
  rw [HashMap.get_orInsert]
  by_cases h : k' = k
  · subst h
    rw [if_pos rfl, if_pos rfl]
    cases map.get k' <;> rfl
  · rw [if_neg h, if_neg fun hs => h (Option.some.inj hs).symm, or_none]

theorem midMap_seedMid (k : Option CompactKey) (cand : Item) (maps : KeyMaps) (k' : CompactKey) :
    (seedMid k cand maps).midMap.get k'
      = (maps.midMap.get k').or (if k = some k' then some cand.id else none) := by
  cases k with
  | none =>
    rw [if_neg nofun, or_none]
    rfl
  | some k => exact get_orInsert_or k k' cand.id

theorem logicalMap_seedLogical (k : Option CompactKey) (cand : Item) (maps : KeyMaps)
    (k' : CompactKey) : (seedLogical k cand maps).logicalMap.get k'
      = (maps.logicalMap.get k').or (if k = some k' then some cand.id else none) := by
  cases k with
  | none =>
    rw [if_neg nofun, or_none]
    rfl
  | some k => exact get_orInsert_or k k' cand.id

theorem midMap_seedLogical (k : Option CompactKey) (cand : Item) (maps : KeyMaps) :
    (seedLogical k cand maps).midMap = maps.midMap := by
  cases k <;> rfl

theorem logicalMap_seedMid (k : Option CompactKey) (cand : Item) (maps : KeyMaps) :
    (seedMid k cand maps).logicalMap = maps.logicalMap := by
  cases k <;> rfl

section

variable [Target] [Sha256] {params : DedupeParams} {jobId : String}

theorem indexes_rebuild (params : DedupeParams) (rows : List Item) :
    Indexes (midKey params) rows (rebuildMapsFromCommitted params rows).midMap ∧
      Indexes (hashKey params) rows (rebuildMapsFromCommitted params rows).logicalMap := by
  induction rows using reverseRecOn with
  | nil => exact ⟨Indexes.empty, Indexes.empty⟩
  | append_singleton rows cand ih =>
    unfold rebuildMapsFromCommitted at *
    rw [foldl_append, foldl_cons, foldl_nil]
    unfold seedMapsFromExisting at *
    by_cases hrole : cand.dedupRole = some "unique"
    · rw [if_neg (not_not.mpr hrole)]
      refine ⟨ih.1.concat fun k => ?_, ih.2.concat fun k => ?_⟩
      · rw [midMap_seedLogical, midMap_seedMid]
        simp only [hrole, true_and]
      · rw [logicalMap_seedLogical, logicalMap_seedMid]
        simp only [hrole, true_and]
    · rw [if_pos hrole]
      refine ⟨ih.1.concat fun k => ?_, ih.2.concat fun k => ?_⟩
      · rw [if_neg fun h => hrole h.1, or_none]
      · rw [if_neg fun h => hrole h.1, or_none]

/-- The tier that `b` records is a key of both. -/
def Matches (params : DedupeParams) (b a : Item) : Prop :=
  (b.dedupTier = some "message_id" ∧ ∃ k, midKey params b = some k ∧ midKey params a = some k) ∨
    (b.dedupTier = some "logical_hash" ∧ midKey params b = none ∧ ∃ k, hashKey params b = some k ∧
      hashKey params a = some k)

theorem resolvedRow_cases (cand : Item) (jobId : String) {maps : KeyMaps}
    (hmid : Indexes (midKey params) rows maps.midMap)
    (hhash : Indexes (hashKey params) rows maps.logicalMap) :
    let b := resolvedRow cand jobId params maps
    (b.dedupRole = some "unique" ∧
        (∀ a ∈ rows, a.dedupRole = some "unique" → ∀ k, midKey params b = some k → midKey params a ≠ some k) ∧
        (midKey params b = none →
          ∀ a ∈ rows, a.dedupRole = some "unique" → ∀ k, hashKey params b = some k → hashKey params a ≠ some k)) ∨
      (b.dedupRole = some "duplicate" ∧
        ∃ a ∈ rows, a.dedupRole = some "unique" ∧ b.duplicateOfItemId = some a.id ∧ Matches params b a) := by
  unfold resolvedRow resolveParent
  cases hkey : midKey params cand with
  | some k =>
    dsimp only
    cases hget : maps.midMap.get k with
    | some canon =>
      dsimp only
      rw [applyUpdate_duplicateUpdate]
      obtain ⟨a, ha, rfl, hrole, hakey⟩ := hmid.sound k canon hget
      exact .inr ⟨rfl, a, ha, hrole, rfl, .inl ⟨rfl, k, hkey, hakey⟩⟩
    | none =>
      dsimp only
      rw [applyUpdate_uniqueUpdate]
      have hsame : midKey params cand = some k := hkey
      refine .inl ⟨rfl, fun a ha hrole k' hk' hak => ?_, fun hnone => ?_⟩
      · obtain rfl : k = k' := Option.some.inj (hsame.symm.trans hk')
        exact hmid.complete a ha k hrole hak hget
      · exact absurd (hsame.symm.trans hnone) (some_ne_none k)
  | none =>
    have hsame : ∀ k, midKey params cand = some k → False := fun k h => by rw [hkey] at h; cases h
    cases hlogical : hashKey params cand with
    | some k =>
      dsimp only
      cases hget : maps.logicalMap.get k with
      | some canon =>
        dsimp only
        rw [applyUpdate_duplicateUpdate]
        obtain ⟨a, ha, rfl, hrole, hakey⟩ := hhash.sound k canon hget
        exact .inr ⟨rfl, a, ha, hrole, rfl, .inr ⟨rfl, hkey, k, hlogical, hakey⟩⟩
      | none =>
        dsimp only
        rw [applyUpdate_uniqueUpdate]
        refine .inl ⟨rfl, fun a _ _ k' hk' => (hsame k' hk').elim, fun _ a ha hrole k' hk' hak => ?_⟩
        obtain rfl : k = k' := Option.some.inj (hlogical.symm.trans hk')
        exact hhash.complete a ha k hrole hak hget
    | none =>
      dsimp only
      rw [applyUpdate_uniqueUpdate]
      refine .inl ⟨rfl, fun a _ _ k' hk' => (hsame k' hk').elim, fun _ a _ _ k' hk' => ?_⟩
      exact absurd (hlogical.symm.trans hk') nofun

theorem scannedRows {queue : List Item} (hkeyed : (queue.map Item.id).Nodup) (j : Nat) :
    (written (scan jobId params queue).updates queue)[j]? = queue[j]?.map fun cand =>
      scannedRow jobId params
        (rebuildMapsFromCommitted params ((written (scan jobId params queue).updates queue).take j)) cand := by
  induction queue using reverseRecOn with
  | nil => rfl
  | append_singleton queue cand ih =>
    rw [map_append, nodup_append] at hkeyed
    obtain ⟨hqueue, -, hapart⟩ := hkeyed
    rw [written_scan_concat fun h => hapart _ h _ (mem_singleton_self _) rfl, (maps_scan hqueue).1]
    have hlength : (written (scan jobId params queue).updates queue).length = queue.length := length_map _
    rcases Nat.lt_trichotomy j queue.length with hj | rfl | hj
    · rw [getElem?_append_left (hlength.symm ▸ hj), getElem?_append_left hj,
        take_append_of_le_length (hlength.symm ▸ hj.le)]
      exact ih hqueue
    · rw [getElem?_append_right hlength.le, getElem?_append_right (Nat.le_refl _), hlength, Nat.sub_self]
      conv_rhs => rw [← hlength, take_left]
      rfl
    · rw [getElem?_eq_none (by simp [hlength]; omega), getElem?_eq_none (by simp; omega)]
      rfl

/-- The job gives the row a role. -/
def IsNew (call : DedupeCall) (start : Matter) (b : Item) : Prop :=
  call.params.reset = true ∨ ∃ r ∈ start.items, r.id = b.id ∧ r.dedupRole = none

/-- A unique parent of the job has no unique parent with its key before it. -/
def FirstSeen (params : DedupeParams) (isNew : Item → Prop) (rows : List Item) : Prop :=
  ∀ i b, (listEmailParents rows)[i]? = some b → isNew b → b.dedupRole = some "unique" →
    ∀ a ∈ (listEmailParents rows).take i, a.dedupRole = some "unique" →
      (∀ k, midKey params b = some k → midKey params a ≠ some k) ∧
        (midKey params b = none → ∀ k, hashKey params b = some k → hashKey params a ≠ some k)

/-- Every other parent of the job is a duplicate of a unique parent before it. -/
def DuplicatesMatch (params : DedupeParams) (isNew : Item → Prop) (rows : List Item) : Prop :=
  ∀ i b, (listEmailParents rows)[i]? = some b → isNew b → b.dedupRole ≠ some "unique" →
    b.dedupRole = some "duplicate" ∧ ∃ a ∈ (listEmailParents rows).take i,
      a.dedupRole = some "unique" ∧ b.duplicateOfItemId = some a.id ∧ Matches params b a

/-- A family pass makes no parent unique. -/
theorem FirstSeen.demoted {call : DedupeCall} {start : Matter} {rows rows' : List Item}
    (h : FirstSeen params (IsNew call start) rows) (hdemoted : Demoted rows rows') :
    FirstSeen params (IsNew call start) rows' := by
  obtain ⟨f, hsame, hrole, rfl⟩ := hdemoted
  have hstays : ∀ r : Item, (f r).dedupRole = some "unique" → f r = r := by
    intro r hunique
    rcases hrole r with heq | hdup
    · exact heq
    · rw [hunique] at hdup
      exact absurd (Option.some.inj hdup) (by decide)
  intro i b hb hnew hunique a ha haunique
  rw [listEmailParents_map hsame, getElem?_map] at hb
  obtain ⟨b₀, hb₀, rfl⟩ := Option.map_eq_some_iff.mp hb
  rw [listEmailParents_map hsame, ← map_take] at ha
  obtain ⟨a₀, ha₀, rfl⟩ := List.mem_map.mp ha
  have hb' := hstays b₀ hunique
  have ha' := hstays a₀ haunique
  rw [hb'] at hnew hunique ⊢
  rw [ha'] at haunique ⊢
  exact h i b₀ hb₀ hnew hunique a₀ ha₀ haunique

/-- Attachments of duplicates are duplicates of an attachment of the canonical parent, or of
none. -/
def AttachmentsFollow (rows : List Item) : Prop :=
  ∀ d ∈ dupParents rows, ∀ r ∈ rows, r.parentItemId = some d.id → r.dedupRole = some "duplicate" ∧
    ∀ id, r.duplicateOfItemId = some id →
      ∃ c ∈ rows, c.id = id ∧ ∃ canon, d.duplicateOfItemId = some canon ∧ c.parentItemId = some canon

/-- No email parent is itself an attachment of a duplicate parent. -/
def Flat (rows : List Item) : Prop :=
  ∀ x ∈ rows, isEligible x = true → ∀ d ∈ dupParents rows, x.parentItemId ≠ some d.id

instance (rows : List Item) : Decidable (Flat rows) :=
  inferInstanceAs (Decidable (∀ x ∈ rows, isEligible x = true → ∀ d ∈ dupParents rows, _))

namespace Plan

variable {p : Plan}

theorem listEmailParents_judged :
    listEmailParents p.judged = written (scan p.jobId p.params p.queue).updates p.queue := by
  have hall : p.scanned p.queue.length = scan p.jobId p.params p.queue := by
    unfold scanned
    rw [take_length]
  rw [← hall]
  exact listEmailParents_afterParents _

theorem judged_parent {i : Nat} {b : Item} (h : (listEmailParents p.judged)[i]? = some b) :
    ∃ cand ∈ p.queue, SameItem cand b ∧ b = scannedRow p.jobId p.params
      (rebuildMapsFromCommitted p.params ((listEmailParents p.judged).take i)) cand := by
  rw [listEmailParents_judged] at h ⊢
  rw [scannedRows p.keyed_queue] at h
  obtain ⟨cand, hcand, rfl⟩ := Option.map_eq_some_iff.mp h
  refine ⟨cand, mem_of_getElem? hcand, ?_, rfl⟩
  unfold scannedRow
  split
  · exact sameItem_applyUpdate _ _
  · exact SameItem.refl cand

theorem canonical_judged {call : DedupeCall} {start : Matter} (hparams : call.params = p.params)
    (hstart : p.start = start.items) :
    FirstSeen p.params (IsNew call start) p.judged ∧ DuplicatesMatch p.params (IsNew call start) p.judged := by
  have hcases : ∀ i b, (listEmailParents p.judged)[i]? = some b → IsNew call start b →
      ∃ cand, b = resolvedRow cand p.jobId p.params
        (rebuildMapsFromCommitted p.params ((listEmailParents p.judged).take i)) := by
    intro i b hb hnew
    obtain ⟨cand, hcand, hsame, heq⟩ := judged_parent hb
    refine ⟨cand, heq.trans (if_pos ?_)⟩
    unfold isDue
    rcases hnew with hreset | ⟨r, hr, hid, hrole⟩
    · rw [← hparams, hreset]
      rfl
    · -- an incremental job starts from the rows it found
      cases hreset : p.params.reset with
      | true => rfl
      | false =>
        have hbase : p.base = start.items := by
          unfold base
          rw [hreset, ← hstart]
          rfl
        have hmem : cand ∈ start.items := hbase ▸ (mem_listEmailParents.mp hcand).1
        have hkeyed : (start.items.map Item.id).Nodup := start.keyed
        obtain rfl := inj_on_of_nodup_map hkeyed hr hmem (hid.trans hsame.id)
        rw [hrole]
        rfl
  constructor
  · intro i b hb hnew hrole a ha hunique
    obtain ⟨cand, rfl⟩ := hcases i b hb hnew
    obtain ⟨hmid, hhash⟩ := indexes_rebuild p.params ((listEmailParents p.judged).take i)
    rcases resolvedRow_cases cand p.jobId hmid hhash with ⟨-, hmids, hhashes⟩ | ⟨hdup, -⟩
    · exact ⟨hmids a ha hunique, fun hnone => hhashes hnone a ha hunique⟩
    · rw [hrole] at hdup
      exact absurd (Option.some.inj hdup) (by decide)
  · intro i b hb hnew hrole
    obtain ⟨cand, rfl⟩ := hcases i b hb hnew
    obtain ⟨hmid, hhash⟩ := indexes_rebuild p.params ((listEmailParents p.judged).take i)
    rcases resolvedRow_cases cand p.jobId hmid hhash with ⟨hunique, -⟩ | hdup
    · exact absurd hunique hrole
    · exact hdup

end Plan

end

section

variable [Target]

theorem mem_of_matchAttach {child : Item} {canonChildren : List Item} {id : String}
    (h : (matchAttach child canonChildren).1 = some id) : ∃ c ∈ canonChildren, c.id = id := by
  have hpick : ∀ q : Item → Bool, ∀ m,
      (sortBy byPathThenId (canonChildren.filter q)).head? = some m → m ∈ canonChildren := by
    intro q m hm
    exact mem_of_mem_filter ((sortBy_perm byPathThenId _).mem_iff.mp (mem_of_mem_head? hm))
  unfold matchAttach at h
  dsimp only at h
  split at h
  next m hm =>
    split at hm
    next digest _ =>
      split at hm
      · exact ⟨m, hpick _ m hm, Option.some.inj h⟩
      · cases hm
    next => cases hm
  next =>
    split at h
    next m hm =>
      split at hm
      · exact ⟨m, hpick _ m hm, Option.some.inj h⟩
      · cases hm
    next => cases h

variable [Sha256] [ExtraJson] {p : Plan}

namespace Plan

theorem listEmailParents_final (h : ∀ x ∈ p.judged, isEligible x = true → p.parentOf x = none) :
    listEmailParents p.final = listEmailParents p.judged := by
  refine (listEmailParents_map p.sameItem_settled p.judged).trans ?_
  refine (map_congr_left fun x hx => ?_).trans (List.map_id _)
  obtain ⟨hmem, heligible⟩ := mem_listEmailParents.mp hx
  unfold settled
  rw [h x hmem heligible]
  rfl

theorem follow_final (h : ∀ x ∈ p.judged, isEligible x = true → p.parentOf x = none) :
    AttachmentsFollow p.final := by
  intro d hd r hr hchild
  have hdups : d ∈ p.dups := by
    unfold dupParents at hd
    rwa [listEmailParents_final h] at hd
  obtain ⟨r₀, hr₀, rfl⟩ := List.mem_map.mp hr
  rw [(p.sameItem_settled r₀).parentItemId] at hchild
  have hrow : p.settled r₀ = familyRow p.jobId d.duplicateOfItemId (p.canonChildren d) r₀ := by
    unfold settled
    rw [p.parentOf_of_mem_dups hdups hchild]
  rw [hrow, familyRow_eq]
  refine ⟨rfl, fun id hid => ?_⟩
  obtain ⟨c, hc, rfl⟩ := mem_of_matchAttach hid
  unfold canonChildren at hc
  cases hcanon : d.duplicateOfItemId with
  | none =>
    rw [hcanon] at hc
    exact absurd hc not_mem_nil
  | some canon =>
    rw [hcanon] at hc
    obtain ⟨hmem, hparent⟩ := mem_childrenOf.mp hc
    exact ⟨p.settled c, List.mem_map_of_mem hmem, (p.sameItem_settled c).id, canon, rfl,
      (p.sameItem_settled c).parentItemId.trans hparent⟩

theorem runFamily_free (hlaw : p.Lawful) {call : DedupeCall} (hjob : call.jobId = p.jobId)
    (hpolicy : p.params.familyPolicy = .suppressChildrenWithParent) {summary : DedupeSummary} {t : Matter}
    (hrun : Runs (runFamily call p.params p.turned) p.turnedMatter (.succeeded summary) t) (hfree : p.Free) :
    t.items = p.final := by
  have hok : (runFamily call p.params p.turned ⟨p.turnedMatter, []⟩).1 = .ok (.succeeded summary) :=
    congrArg fst hrun
  have hend : (runFamily call p.params p.turned ⟨p.turnedMatter, []⟩).2.state
      = t := by rw [show _ = _ from hrun]
  have hfamily := runFamily_ensures (j := 0) (m := p.turnedMatter) hlaw hjob hpolicy hfree
    (.turned rfl rfl) p.settledAt_nil.symm (fun _ h => absurd h not_mem_nil) (covers_zero [])
  rw [← turned_eq] at hfamily
  obtain ⟨-, hdone⟩ := hfamily.of_ok hok
  rw [hend] at hdone
  exact (hdone summary rfl).1

theorem runFamily_strayed {call : DedupeCall} (hjob : call.jobId = p.jobId)
    {summary : DedupeSummary} {t : Matter}
    (hrun : Runs (runFamily call p.params p.turned) p.turnedMatter (.succeeded summary) t)
    (hfree : ¬ p.Free) :
    p.Strayed p.judged t := by
  have hok : (runFamily call p.params p.turned ⟨p.turnedMatter, []⟩).1 = .ok (.succeeded summary) :=
    congrArg fst hrun
  have hend : (runFamily call p.params p.turned ⟨p.turnedMatter, []⟩).2.state
      = t := by rw [show _ = _ from hrun]
  have hstrayed :=
    (runFamily_astray (c := p.turned) hjob rfl (.turned rfl rfl) hfree (nested_of_not_free hfree)
    : Ensures _ p.turnedMatter _ _).of_ok hok
  rwa [hend] at hstrayed

theorem demoted_final : Demoted p.judged p.final := by
  refine ⟨p.settled, p.sameItem_settled, fun r => ?_, rfl⟩
  unfold settled
  split
  · exact .inr (by rw [familyRow_eq])
  · exact .inl rfl

/-- On a flat table the pass reaches the attachments alone. -/
theorem runFamily_flat (hlaw : p.Lawful) {call : DedupeCall} (hjob : call.jobId = p.jobId)
    (hpolicy : p.params.familyPolicy = .suppressChildrenWithParent) {summary : DedupeSummary}
    {t : Matter}
    (hrun : Runs (runFamily call p.params p.turned) p.turnedMatter (.succeeded summary) t)
    (hflat : Flat t.items) :
    t.items = p.final ∧ ∀ x ∈ p.judged, isEligible x = true → p.parentOf x = none := by
  by_cases hfree : p.Free
  · have hfinal := runFamily_free hlaw hjob hpolicy hrun hfree
    refine ⟨hfinal, fun x hx heligible => ?_⟩
    cases hparent : p.parentOf x with
    | none => rfl
    | some d =>
      -- the parent is a duplicate in the end, too
      obtain ⟨hdups, hchild⟩ := p.parentOf_spec hparent
      obtain ⟨hmem, hdeligible, hrole⟩ := p.mem_dups.mp hdups
      rw [hfinal] at hflat
      refine absurd ?_ (hflat (p.settled x) (List.mem_map_of_mem hx)
        ((p.sameItem_settled x).isEligible_eq.trans heligible)
        (p.settled d) ?_)
      · rw [(p.sameItem_settled x).parentItemId, (p.sameItem_settled d).id]
        exact hchild
      · have hstays := duplicate_current (p := p) [d.id] hrole
        rw [p.current_of_mem (mem_singleton_self _)] at hstays
        unfold dupParents
        rw [mem_filter, mem_listEmailParents, decide_eq_true_eq]
        exact ⟨⟨List.mem_map_of_mem hmem, (p.sameItem_settled d).isEligible_eq.trans hdeligible⟩, hstays⟩
  · obtain ⟨x, hx, heligible, ⟨d, hd, hchild⟩, -⟩ := (runFamily_strayed hjob hrun hfree).nested
    exact absurd hchild (hflat x hx heligible d hd)

theorem runFamily_demoted (hlaw : p.Lawful) {call : DedupeCall} (hjob : call.jobId = p.jobId)
    (hpolicy : p.params.familyPolicy = .suppressChildrenWithParent) {summary : DedupeSummary} {t : Matter}
    (hrun : Runs (runFamily call p.params p.turned) p.turnedMatter (.succeeded summary) t) :
    Demoted p.judged t.items := by
  by_cases hfree : p.Free
  · rw [runFamily_free hlaw hjob hpolicy hrun hfree]
    exact demoted_final
  · exact (runFamily_strayed hjob hrun hfree).demoted

end Plan

/-- **A job that succeeds**, in one session or in many: of the parents that it gave a role, the
unique ones are first seen, on every table. The others are duplicates of such a parent and
attachments follow their parents, where no family pass reaches an email parent. -/
theorem runDedupe_canonical (call : DedupeCall) (start : Matter)
    (hlaw : ExtraJson.Lawful (start.items.map Item.extraJson)) (hnew : start.checkpoint = none)
    (sessions : List (List Outcome))
    (hguard : Guarded (dedupeSession call) (fun m _ => ¬ Astray call.jobId m) start sessions)
    (last : List Outcome)
    (hlast : ¬ Astray call.jobId (sessions.foldl (dedupeSession call) start)) (summary : DedupeSummary)
    (hsucceeded : (runDedupe call ⟨sessions.foldl (dedupeSession call) start,
      last⟩).1 = .ok (.succeeded summary)) :
    let rows := (dedupeSession call (sessions.foldl (dedupeSession call) start) last).items
    FirstSeen call.params (IsNew call start) rows ∧
      ((call.params.familyPolicy = .suppressChildrenWithParent → Flat rows) →
        DuplicatesMatch call.params (IsNew call start) rows) ∧
      (call.params.familyPolicy = .suppressChildrenWithParent → Flat rows → AttachmentsFollow rows) := by
  intro rows
  let p : Plan := Plan.ofCall call start
  have hlaw : p.Lawful := Plan.lawful_ofCall hlaw
  obtain ⟨once, hrun, hrows⟩ :=
    Plan.reached_sessions call start hlaw hnew sessions hguard last hlast summary hsucceeded
  have hrows : rows = once.items := hrows.symm
  obtain ⟨hfirst, hmatch⟩ : FirstSeen call.params (IsNew call start) p.judged ∧
      DuplicatesMatch call.params (IsNew call start) p.judged := Plan.canonical_judged (p := p) rfl rfl
  rw [hrows]
  by_cases hpolicy : call.params.familyPolicy = .suppressChildrenWithParent
  · have hflat := Plan.runFamily_flat (p := p) hlaw rfl hpolicy hrun
    refine ⟨hfirst.demoted (Plan.runFamily_demoted (p := p) hlaw rfl hpolicy hrun),
      fun hguarded => ?_, fun _ hguarded => ?_⟩
    · obtain ⟨hfinal, hnone⟩ := hflat (hguarded hpolicy)
      rw [hfinal]
      unfold DuplicatesMatch
      rw [Plan.listEmailParents_final hnone]
      exact hmatch
    · obtain ⟨hfinal, hnone⟩ := hflat hguarded
      rw [hfinal]
      exact Plan.follow_final hnone
  · have hdone : once.items = p.judged := by
      unfold runFamily at hrun
      rw [if_neg hpolicy] at hrun
      have hstate : p.turnedMatter = once := congrArg (fun r => r.2.state) hrun
      exact congrArg Matter.items hstate.symm
    rw [hdone]
    exact ⟨hfirst, fun _ => hmatch, fun h => absurd h hpolicy⟩

end

def twiceUnique : Matter where
  items := [{ id := "a", messageId := some "m1", importedAt := "1", role := some "parent", dedupRole := some "unique" },
    { id := "b", messageId := some "m1", importedAt := "2", role := some "parent", dedupRole := some "unique" }]
  keyed := by decide

def incremental : DedupeCall := ⟨"job_1", { reset := false }⟩

/-- An incremental job keeps both unique messages, and one that starts over makes the message `x` a
duplicate of nothing. -/
theorem runDedupe_keeps_roles :
    letI := Target.unix
    letI := Sha256.fips
    letI := ExtraJson.flag
    let kept := (dedupeSession incremental twiceUnique []).items
    let nested := (dedupeSession rowByRow nestedItems []).items
    (∃ summary, (runDedupe incremental ⟨twiceUnique, []⟩).1 = .ok (.succeeded summary)) ∧
      (∃ a ∈ kept, ∃ b ∈ kept, a.id ≠ b.id ∧ isEligible a = true ∧ isEligible b = true ∧
        a.dedupRole = some "unique" ∧
        b.dedupRole = some "unique" ∧ midKey incremental.params a = midKey incremental.params b ∧
        (midKey incremental.params a).isSome) ∧
      (∃ summary, (runDedupe rowByRow ⟨nestedItems, []⟩).1 = .ok (.succeeded summary)) ∧
      ∃ x ∈ nested, isEligible x = true ∧ x.dedupRole = some "duplicate" ∧ x.duplicateOfItemId = none :=
  ⟨exists_of_succeeded (by decide +kernel), by decide +kernel,
    exists_of_succeeded (by decide +kernel), by decide +kernel⟩

theorem runDedupe_canonical_two :
    letI := Target.unix
    letI := Sha256.fips
    letI := ExtraJson.flag
    let rows := (dedupeSession rowByRow (interruptions.foldl (dedupeSession rowByRow) twoMails) []).items
    FirstSeen rowByRow.params (IsNew rowByRow twoMails) rows ∧
      DuplicatesMatch rowByRow.params (IsNew rowByRow twoMails) rows ∧ AttachmentsFollow rows :=
  letI := Target.unix
  letI := Sha256.fips
  letI := ExtraJson.flag
  let ⟨summary, hsummary⟩ := exists_of_succeeded
    (r := (runDedupe rowByRow ⟨interruptions.foldl (dedupeSession rowByRow) twoMails, []⟩).1)
      (by decide +kernel)
  have h := runDedupe_canonical rowByRow twoMails (ExtraJson.flag_lawful _) rfl interruptions
    (by decide +kernel) []
    (by decide +kernel) summary hsummary
  ⟨h.1, h.2.1 fun _ => by decide +kernel, h.2.2 rfl (by decide +kernel)⟩

end MatterDedupe
