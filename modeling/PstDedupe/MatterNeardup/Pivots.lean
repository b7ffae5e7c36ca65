import PstDedupe.MatterNeardup.Run

/-!
# Pivots and grades of a job

Which item is the pivot of another depends on the items and the parameters alone, not on the order
of a hash map, and so does the grade of an item that has a twin.
-/

namespace MatterNeardup

open Rust Foundations List

/-- What `validate` leaves. -/
structure NearDupParams.Valid (p : NearDupParams) : Prop where
  hashes : 0 < p.numHashes.toNat
  bands : 0 < p.numBands.toNat
  rows : 0 < p.rowsPerBand.toNat
  fits : p.rowsPerBand.toNat ≤ p.numHashes.toNat
  threshold : p.threshold ≤ 1.0

theorem NearDupParams.valid_of_validate {p : NearDupParams} (h : p.validate = .ok ()) : p.Valid := by
  have hpos : ∀ x : UInt64, x ≠ 0 → 0 < x.toNat := fun x hx =>
    Nat.pos_of_ne_zero fun hzero => hx (UInt64.toNat_inj.mp hzero)
  unfold NearDupParams.validate at h
  split at h
  · cases h
  split at h
  · cases h
  split at h
  · cases h
  next hhashes =>
    split at h
    · cases h
    next hbands =>
      split at h
      · cases h
      next hproduct =>
        split at h
        · cases h
        next hthreshold =>
          have hb := hpos _ fun hzero => hbands (.inl hzero)
          have hr := hpos _ fun hzero => hbands (.inr hzero)
          refine ⟨hpos _ hhashes, hb, hr, ?_, (not_not.mp hthreshold).2⟩
          rw [← not_not.mp hproduct]
          exact le_min (Nat.le_mul_of_pos_left _ hb) (by have := p.rowsPerBand.toNat_lt; omega)

theorem NearDupParams.Valid.self {p : NearDupParams} (h : p.Valid)
    (sig : MinHashSig p.numHashes.toNat) : p.threshold ≤ sig.estimateJaccard sig := by
  rw [sig.estimateJaccard_self h.hashes p.numHashes.toNat_lt]
  exact h.threshold

section Pivots

variable (params : NearDupParams) (sketched : List (ItemMeta params.numHashes.toNat)) {i j : Nat}

/-- A candidate pair of the LSH bands, at the threshold. -/
def Near (a b : ItemMeta params.numHashes.toNat) : Prop :=
  (∃ band < params.numBands.toNat, ∃ key, bandKey params.rowsPerBand.toNat band a.sig = some key ∧
    bandKey params.rowsPerBand.toNat band b.sig = some key) ∧ params.threshold ≤ a.sig.estimateJaccard b.sig

/-- Linked by a chain of near pairs, over any items. -/
def Chain : ItemMeta params.numHashes.toNat → ItemMeta params.numHashes.toNat → Prop :=
  Relation.EqvGen fun a b => a ∈ sketched ∧ b ∈ sketched ∧ Near params a b

/-- The first of the items that a chain links with `item`, by the order of the pivots. -/
structure IsPivot (item pivot : ItemMeta params.numHashes.toNat) : Prop where
  mem : pivot ∈ sketched
  chain : Chain params sketched item pivot
  least : ∀ other ∈ sketched, Chain params sketched item other → pivot.key ≤ other.key

variable {params sketched} {a b p q : ItemMeta params.numHashes.toNat}

theorem IsPivot.unique (hids : (sketched.map ItemMeta.itemId).Nodup) (hchain : Chain params sketched a b)
    (hp : IsPivot params sketched a p) (hq : IsPivot params sketched b q) : p = q := by
  have hpq := hp.least q hq.mem (.trans _ _ _ hchain hq.chain)
  have hqp := hq.least p hp.mem (.trans _ _ _ (.symm _ _ hchain) hp.chain)
  exact inj_on_of_nodup_map hids hp.mem hq.mem (ItemMeta.itemId_of_key (le_antisymm hpq hqp))

theorem near_of_sig (hvalid : params.Valid) (hsig : a.sig = b.sig) : Near params a b := by
  obtain ⟨key, hkey⟩ := exists_bandKey_zero hvalid.fits b.sig
  unfold Near
  rw [hsig]
  exact ⟨⟨0, hvalid.bands, key, hkey, hkey⟩, hvalid.self b.sig⟩

theorem Near.symm (h : Near params a b) : Near params b a := by
  obtain ⟨⟨band, hband, key, ha, hb⟩, hnear⟩ := h
  exact ⟨⟨band, hband, key, hb, ha⟩, by rwa [MinHashSig.estimateJaccard_comm]⟩

variable [RandomState]

abbrev candPairs (params : NearDupParams) (sketched : List (ItemMeta params.numHashes.toNat)) :
    List (Nat × Nat) :=
  RandomState.visit
    (lshCandidatePairs (sketched.map ItemMeta.sig) params.numBands.toNat params.rowsPerBand.toNat)

theorem near_of_mem (hmem : (i, j) ∈ linkedPairs params.threshold sketched (candPairs params sketched)) :
    ∃ a b, sketched[i]? = some a ∧ sketched[j]? = some b ∧ Near params a b := by
  obtain ⟨hpair, hlinked⟩ := List.mem_filter.mp hmem
  rw [candPairs, (RandomState.visit_perm _).mem_iff] at hpair
  obtain ⟨band, hband, siga, sigb, key, hsa, hsb, hak, hbk⟩ := exists_band_of_mem hpair
  rw [getElem?_map] at hsa hsb
  obtain ⟨a, ha, rfl⟩ := Option.map_eq_some_iff.mp hsa
  obtain ⟨b, hb, rfl⟩ := Option.map_eq_some_iff.mp hsb
  dsimp only at hlinked
  rw [ha, hb] at hlinked
  exact ⟨a, b, ha, hb, ⟨band, hband, key, hak, hbk⟩, of_decide_eq_true hlinked⟩

theorem linked_of_near (hvalid : params.Valid) (ha : sketched[i]? = some a) (hb : sketched[j]? = some b)
    (hnear : Near params a b) : Linked params.threshold sketched (candPairs params sketched) i j := by
  have hless : ∀ (i j : Nat) (a b : ItemMeta params.numHashes.toNat), sketched[i]? = some a →
      sketched[j]? = some b → i < j →
      Near params a b → (i, j) ∈ linkedPairs params.threshold sketched (candPairs params sketched) := by
    intro i j a b ha hb hlt hnear
    obtain ⟨⟨band, hband, key, hak, hbk⟩, hsim⟩ := hnear
    have hsa : (sketched.map ItemMeta.sig)[i]? = some a.sig := by rw [getElem?_map, ha]; rfl
    have hsb : (sketched.map ItemMeta.sig)[j]? = some b.sig := by rw [getElem?_map, hb]; rfl
    refine List.mem_filter.mpr ⟨?_, ?_⟩
    · rw [candPairs, (RandomState.visit_perm _).mem_iff]
      exact mem_lshCandidatePairs hsa hsb hlt hband hvalid.rows hak hbk
    · dsimp only
      rw [ha, hb]
      exact decide_eq_true hsim
  rcases lt_trichotomy i j with hlt | heq | hgt
  · exact .rel _ _ (hless i j a b ha hb hlt hnear)
  · rw [heq]
    exact .refl _
  · exact .symm _ _ (.rel _ _ (hless j i b a hb ha hgt hnear.symm))

theorem chain_of_linked (ha : sketched[i]? = some a) (hb : sketched[j]? = some b)
    (hlinked : Linked params.threshold sketched (candPairs params sketched) i j) :
    Chain params sketched a b := by
  refine eqvGen_members (fun i a => sketched[i]? = some a) (fun i a b ha hb => ?_)
    (fun i j hij => ?_) hlinked ha hb
  · obtain rfl := Option.some.inj (ha.symm.trans hb)
    exact .refl _
  · obtain ⟨a, b, ha, hb, hnear⟩ := near_of_mem hij
    exact ⟨a, b, ha, hb, .rel _ _ ⟨mem_of_getElem? ha, mem_of_getElem? hb, hnear⟩⟩

theorem linked_of_chain (hvalid : params.Valid) (hids : (sketched.map ItemMeta.itemId).Nodup)
    (ha : sketched[i]? = some a) (hb : sketched[j]? = some b) (hchain : Chain params sketched a b) :
    Linked params.threshold sketched (candPairs params sketched) i j := by
  refine eqvGen_members (fun a i => sketched[i]? = some a) (fun a i j hi hj => ?_)
    (fun a b hab => ?_) hchain ha hb
  · have hij : i = j := by
      have hlt := (List.getElem?_eq_some_iff.mp hi).1
      exact (getElem?_inj hlt (Nodup.of_map _ hids)).mp (hi.trans hj.symm)
    rw [hij]
    exact .refl _
  · obtain ⟨hamem, hbmem, hnear⟩ := hab
    obtain ⟨i, hi⟩ := List.mem_iff_getElem?.mp hamem
    obtain ⟨j, hj⟩ := List.mem_iff_getElem?.mp hbmem
    exact ⟨i, j, hi, hj, linked_of_near hvalid hi hj hnear⟩

/-- Where another item has its signature, the item of `asg` is graded against its pivot. -/
def Good [Sha256] (params : NearDupParams) (sketched : List (ItemMeta params.numHashes.toNat))
    (asg : ClusterAssignment) : Prop :=
  ∀ a ∈ sketched, a.itemId = asg.itemId → ∀ b ∈ sketched, b.itemId ≠ a.itemId → a.sig = b.sig →
    ∃ pivot, IsPivot params sketched a pivot ∧ Graded params.threshold pivot a asg

theorem good_of_mem_clusterAndScore [Sha256] (hvalid : params.Valid)
    (hids : (sketched.map ItemMeta.itemId).Nodup) {i : Nat} {asg : ClusterAssignment}
    (hmem : (i, asg) ∈ clusterAndScore params.threshold sketched (candPairs params sketched)) :
    Good params sketched asg := by
  intro a ha hid b hb hne hsig
  obtain ⟨a', hi, hid'⟩ := itemId_of_mem_clusterAndScore hmem
  obtain rfl : a' = a := inj_on_of_nodup_map hids (mem_of_getElem? hi) ha (hid'.symm.trans hid.symm)
  obtain ⟨j, hj⟩ := List.mem_iff_getElem?.mp hb
  have hij : i ≠ j := by
    rintro rfl
    exact hne (congrArg ItemMeta.itemId (Option.some.inj (hj.symm.trans hi)))
  obtain ⟨p, pivot, hp, hlinked, hleast, hgraded⟩ :=
    graded_of_mem hi hj hij hsig (linked_of_near hvalid hi hj (near_of_sig hvalid hsig)) hvalid.self hmem
  refine ⟨pivot, ⟨mem_of_getElem? hp, chain_of_linked hi hp hlinked, fun other hother hchain => ?_⟩, hgraded⟩
  obtain ⟨c, hc⟩ := List.mem_iff_getElem?.mp hother
  exact hleast c other hc (linked_of_chain hvalid hids hi hc hchain)

end Pivots

section Results

variable [Target] [Sha256] {params : NearDupParams} {table : List NearDupCandidate}
  {cas : String → Option (List UInt8)}

def sketchesOf (params : NearDupParams) (table : List NearDupCandidate)
    (cas : String → Option (List UInt8)) : Sketches params.numHashes.toNat :=
  (listNeardupCandidates table params.includeAttachments).foldl (Sketches.take params cas) {}

def resultIds (params : NearDupParams) (table : List NearDupCandidate) : List String :=
  sortStrings ((listNeardupCandidates table params.includeAttachments).map NearDupCandidate.id)

theorem sketchesOf_eq : sketchesOf params table cas =
    ⟨(listNeardupCandidates table params.includeAttachments).filterMap (sketchItem params cas),
      ((listNeardupCandidates table params.includeAttachments).filter fun c => (sketchItem params cas c).isNone).map skippedResult⟩ := by
  have hfold : ∀ (cands : List NearDupCandidate) (s : Sketches params.numHashes.toNat),
      cands.foldl (Sketches.take params cas) s = ⟨s.sketched ++ cands.filterMap (sketchItem params cas),
        s.skipped ++ (cands.filter fun c => (sketchItem params cas c).isNone).map skippedResult⟩ := by
    intro cands
    induction cands with
    | nil =>
      intro s
      rw [filterMap_nil, filter_nil, map_nil, append_nil, append_nil]
      rfl
    | cons c rest ih =>
      intro s
      rw [foldl_cons, ih]
      unfold Sketches.take
      cases hc : sketchItem params cas c with
      | none =>
        rw [filterMap_cons_none hc, filter_cons_of_pos (by rw [hc]; rfl), map_cons, append_assoc]
        rfl
      | some item =>
        rw [filterMap_cons_some hc, filter_cons_of_neg (by rw [hc]; exact Bool.false_ne_true), append_assoc]
        rfl
  exact hfold _ _

theorem itemId_of_sketchItem {c : NearDupCandidate} {item : ItemMeta params.numHashes.toNat}
    (h : sketchItem params cas c = some item) : item.itemId = c.id := by
  obtain ⟨sketched, -, rfl⟩ := Option.map_eq_some_iff.mp h
  rfl

theorem map_itemId_sketched : (sketchesOf params table cas).sketched.map ItemMeta.itemId =
    ((listNeardupCandidates table params.includeAttachments).filter
      fun c => !(sketchItem params cas c).isNone).map
      NearDupCandidate.id := by
  rw [sketchesOf_eq]
  dsimp only
  induction listNeardupCandidates table params.includeAttachments with
  | nil => rfl
  | cons c rest ih =>
    cases hc : sketchItem params cas c with
    | none => rw [filterMap_cons_none hc, filter_cons_of_neg (by rw [hc]; exact Bool.false_ne_true), ih]
    | some item =>
      rw [filterMap_cons_some hc, filter_cons_of_pos (by rw [hc]; rfl), map_cons, map_cons, ih,
        itemId_of_sketchItem hc]

theorem map_itemId_skipped : (sketchesOf params table cas).skipped.map ClusterAssignment.itemId =
    ((listNeardupCandidates table params.includeAttachments).filter
      fun c => (sketchItem params cas c).isNone).map
      NearDupCandidate.id := by
  rw [sketchesOf_eq, map_map]
  rfl

theorem ids_sketches : ((sketchesOf params table cas).skipped.map ClusterAssignment.itemId ++
    (sketchesOf params table cas).sketched.map ItemMeta.itemId).Perm
      ((listNeardupCandidates table params.includeAttachments).map NearDupCandidate.id) := by
  rw [map_itemId_sketched, map_itemId_skipped, ← map_append]
  exact (filter_append_perm _ _).map _

theorem nodup_sketches (hkeyed : (table.map NearDupCandidate.id).Nodup) :
    ((sketchesOf params table cas).skipped.map ClusterAssignment.itemId ++
      (sketchesOf params table cas).sketched.map ItemMeta.itemId).Nodup := by
  rw [ids_sketches.nodup_iff]
  exact nodup_map_orderBy _ ((List.filter_sublist.map _).nodup hkeyed)

theorem mem_sketched {c : NearDupCandidate} {item : ItemMeta params.numHashes.toNat}
    (hc : c ∈ listNeardupCandidates table params.includeAttachments)
    (hitem : sketchItem params cas c = some item) :
    item ∈ (sketchesOf params table cas).sketched := by
  rw [sketchesOf_eq]
  exact List.mem_filterMap.mpr ⟨c, hc, hitem⟩

omit [Target] in
theorem ids_clusterAndScore [RandomState] {h : Nat} {threshold : Float} {items : List (ItemMeta h)}
    {pairs : List (Nat × Nat)} :
    ((clusterAndScore threshold items pairs).map fun m => m.2.itemId).Perm (items.map ItemMeta.itemId) := by
  have hids : (clusterAndScore threshold items pairs).map (fun m => m.2.itemId)
      = ((clusterAndScore threshold items pairs).map Prod.fst).map fun i =>
        (items.map ItemMeta.itemId).getD i "" := by
    rw [map_map]
    refine map_congr_left fun m hm => ?_
    have hmem : (m.1, m.2) ∈ clusterAndScore threshold items pairs := hm
    obtain ⟨a, ha, hid⟩ := itemId_of_mem_clusterAndScore hmem
    show m.2.itemId = (items.map ItemMeta.itemId).getD m.1 ""
    rw [hid, getD_eq_getElem?_getD, getElem?_map, ha]
    rfl
  have hrange : (range items.length).map (fun i => (items.map ItemMeta.itemId).getD i "")
      = items.map ItemMeta.itemId := by
    refine ext_getElem (by simp) fun i hi hi' => ?_
    rw [getElem_map, getElem_range, getD_eq_getElem?_getD, getElem?_eq_getElem hi']
    rfl
  rw [hids]
  have hfst : ((clusterAndScore threshold items pairs).map Prod.fst).Perm (range items.length) :=
    fst_clusterAndScore
  exact (hfst.map _).trans (Perm.of_eq hrange)

theorem itemId_clusterPhase [RandomState] :
    (clusterPhase params (sketchesOf params table cas)).map ClusterAssignment.itemId
      = resultIds params table := by
  have hsorted : ∀ l : List ClusterAssignment,
      (orderBy [asc ClusterAssignment.itemId] l).map ClusterAssignment.itemId
      = sortStrings (l.map ClusterAssignment.itemId) := fun l => by
    have hcmp : byTerms [asc ClusterAssignment.itemId]
        = fun a b : ClusterAssignment => compare a.itemId b.itemId := by
      funext a b
      show (compare a.itemId b.itemId).then .eq = _
      rw [Ordering.then_eq]
    unfold orderBy sortStrings
    rw [hcmp]
    exact map_sortBy compare ClusterAssignment.itemId l
  unfold clusterPhase resultIds
  dsimp only
  rw [hsorted, map_append, map_map]
  exact sortBy_eq_of_perm ((ids_clusterAndScore.append_left _).trans ids_sketches)

theorem good_of_mem_clusterPhase [RandomState] (hkeyed : (table.map NearDupCandidate.id).Nodup)
    (hvalid : params.Valid) {asg : ClusterAssignment}
    (hmem : asg ∈ clusterPhase params (sketchesOf params table cas)) :
    Good params (sketchesOf params table cas).sketched asg := by
  have hids : ((sketchesOf params table cas).skipped.map ClusterAssignment.itemId ++
      (sketchesOf params table cas).sketched.map ItemMeta.itemId).Nodup := nodup_sketches hkeyed
  have hmem' := (orderBy_perm _ _).mem_iff.mp hmem
  rcases List.mem_append.mp hmem' with hskipped | hassigned
  · -- a skipped item has no signature
    intro a ha hid
    exact absurd (hid ▸ mem_map_of_mem ha) (disjoint_of_nodup_append hids (mem_map_of_mem hskipped))
  · obtain ⟨m, hm, rfl⟩ := List.mem_map.mp hassigned
    exact good_of_mem_clusterAndScore hvalid (List.nodup_append.mp hids).2.1 hm

end Results

end MatterNeardup
