import PstDedupe.DedupEngine.Index
import PstDedupe.DedupEngine.MidAuthority

/-!
# The streaming index against the grouping loop

One grouping semantics, implemented twice. `Simulates` relates the two states after the same items:
the maps have the same keys, and a slot of the index carries what the group it stands for carries.
-/

namespace DedupEngine

open List Option

open Rust (Bytes32 HashMap RandomState)

variable [Rust.Target] {ctx : GroupingContext} {refs : MessageRefs} {items : List RecoverableScanItem}
  {idx : DedupIndex} {st : GroupingState} {n : Nat} {item : RecoverableScanItem} {g : Group} {slot : GroupSlot}
  {gid : Nat} {idx' : DedupIndex} {results : List DedupResult}

def SeedOf (items : List RecoverableScanItem) (g : Group) (a : RecoverableScanItem) : Prop :=
  ∃ s, g.members.head? = some s ∧ items[s]? = some a

def SlotMatches (ctx : GroupingContext) (refs : MessageRefs) (items : List RecoverableScanItem)
    (st : GroupingState) (slot : GroupSlot) (gid : Nat) : Prop :=
  ∃ g a, st.groups[gid]? = some g ∧ SeedOf items g a ∧ slot.msgRef = messageRefOf refs a ∧
    slot.bindHash = g.bindHash ∧ (ctx.tier1Verify = .body → slot.fp.body = g.fp.body)

def HashSlotMatches (ctx : GroupingContext) (refs : MessageRefs) (items : List RecoverableScanItem)
    (idx : DedupIndex) (st : GroupingState) (key : List UInt8) (slot : GroupSlot) (gid : Nat) : Prop :=
  ∃ g a, st.groups[gid]? = some g ∧ SeedOf items g a ∧ slot.msgRef = messageRefOf refs a ∧
    slot.boundMid = g.boundMid ∧ a.tier2Key ctx = key ∧
    g.bindHash = a.tier2BindHash ctx.identity ∧ g.fp = a.fingerprints ∧
    ∀ m, g.boundMid = some m → (idx.messageIds.get (midKey ctx a.pathKey m)).isSome

structure Simulates (ctx : GroupingContext) (refs : MessageRefs)
    (items : List RecoverableScanItem) (idx : DedupIndex) (st : GroupingState) : Prop where
  ctxEq : idx.ctx = ctx
  mids : ∀ key, Option.Rel (SlotMatches ctx refs items st) (idx.messageIds.get key)
    (st.midToGroup.get key)
  hashes : ∀ key, Option.Rel (HashSlotMatches ctx refs items idx st key)
    (idx.contentHashes.get key) (st.hashToGroup.get key)

/-- The two places where the implementations part, for one item and the state before it. -/
structure OneSemantics (ctx : GroupingContext) (st : GroupingState) (item : RecoverableScanItem) : Prop where
  crc : tier1Find ctx st item = none → ctx.tier2Enabled = true →
    item.assessTier2Eligibility = .error .crcSuspect →
    ctx.enforceReadableBody = true ∨ ctx.allowCrcSuspectTier2 = true
  fp : ctx.tier1Verify = .body → ∀ gid, lookup ctx st item = .tier2 gid →
    (st.group gid).boundMid = none → item.mid ≠ none → item.fpBody = (st.group gid).fp.body

/-! ## Groups under one step -/

omit [Rust.Target] in
theorem SeedOf.unique {a b : RecoverableScanItem} (ha : SeedOf items g a) (hb : SeedOf items g b) : a = b := by
  obtain ⟨s, hs, has⟩ := ha
  obtain ⟨s', hs', hbs⟩ := hb
  obtain rfl : s = s' := Option.some.inj (hs.symm.trans hs')
  exact Option.some.inj (has.symm.trans hbs)

omit [Rust.Target] in
theorem SeedOf.absorb {a : RecoverableScanItem} {i : Nat} {m : Option String}
    (h : SeedOf items g a) : SeedOf items (g.absorb i m) a := by
  obtain ⟨s, hs, ha⟩ := h
  refine ⟨s, ?_, ha⟩
  show (g.members ++ [i]).head? = some s
  rw [head?_append_of_ne_nil _ (by intro h; rw [h] at hs; cases hs), hs]

theorem groups_frame (n : Nat) (item : RecoverableScanItem) {k : Nat} (h : st.groups[k]? = some g) :
    ∃ g', (groupItem ctx st n item).groups[k]? = some g' ∧
      (∀ a, SeedOf items g a → SeedOf items g' a) ∧ g'.bindHash = g.bindHash ∧ g'.fp = g.fp ∧
      g'.boundMid = (if lookup ctx st item = .tier2 k then g.boundMid.or item.mid
        else g.boundMid) := by
  cases hl : lookup ctx st item with
  | tier1 k' =>
    rw [groups_tier1 hl, getElem?_modify, h]
    by_cases hk : k' = k
    · exact ⟨g.absorb n none, by simp [hk], fun a ha => ha.absorb, rfl, rfl,
        by simp [Group.absorb]⟩
    · exact ⟨g, by simp [hk], fun a ha => ha, rfl, rfl, by simp⟩
  | tier2 k' =>
    rw [groups_tier2 hl, getElem?_modify, h]
    by_cases hk : k' = k
    · exact ⟨g.absorb n item.mid, by simp [hk], fun a ha => ha.absorb, rfl, rfl,
        by simp [Group.absorb, hk]⟩
    · exact ⟨g, by simp [hk], fun a ha => ha, rfl, rfl, by simp [hk]⟩
  | crossMid _ | fresh =>
    rw [groups_seed (by rw [hl]; rfl), getElem?_append_left (List.getElem?_eq_some_iff.mp h).1]
    exact ⟨g, h, fun a ha => ha, rfl, rfl, by simp⟩

theorem SlotMatches.step (h : SlotMatches ctx refs items st slot gid) :
    SlotMatches ctx refs items (groupItem ctx st n item) slot gid := by
  obtain ⟨g, a, hg, ha, href, hhash, hfp⟩ := h
  obtain ⟨g', hg', hseed, hbind, hfp', _⟩ := groups_frame n item hg
  exact ⟨g', a, hg', hseed a ha, href, by rw [hhash, hbind], fun hv => by rw [hfp hv, hfp']⟩

theorem HashSlotMatches.step {key : List UInt8} (h : HashSlotMatches ctx refs items idx st key slot gid)
    (hids : ∀ k, (idx.messageIds.get k).isSome → (idx'.messageIds.get k).isSome)
    (hbound : lookup ctx st item = .tier2 gid → ∀ g, st.groups[gid]? = some g →
      g.boundMid.or item.mid = g.boundMid) :
    HashSlotMatches ctx refs items idx' (groupItem ctx st n item) key slot gid := by
  obtain ⟨g, a, hg, ha, href, hmid, hkey, hbind, hfp, hreg⟩ := h
  obtain ⟨g', hg', hseed, hbind', hfp', hmid'⟩ := groups_frame n item hg
  have hsame : g'.boundMid = g.boundMid := by
    rw [hmid']
    split
    · rename_i hl
      exact hbound hl g hg
    · rfl
  exact ⟨g', a, hg', hseed a ha, href, hmid.trans hsame.symm, hkey, hbind'.trans hbind,
    hfp'.trans hfp, fun m hm => hids _ (hreg m (hsame ▸ hm))⟩

omit [Rust.Target] in
theorem rel_mono {α β : Type} {R S : α → β → Prop} {x : Option α} {y : Option β}
    (hRS : ∀ a b, x = some a → y = some b → R a b → S a b) (h : Option.Rel R x y) : Option.Rel S x y := by
  cases h with
  | none => exact .none
  | some hab => exact .some (hRS _ _ rfl rfl hab)

section Lookups

variable (h : Simulates ctx refs items idx st)
include h

theorem Simulates.midKeyOf_eq (m : String) :
    idx.midKeyOf (indexItemOf ctx refs item) m = midKey ctx item.pathKey m := by
  unfold DedupIndex.midKeyOf
  rw [h.ctxEq]
  rfl

theorem Simulates.hashMapKey_eq :
    idx.hashMapKey (indexItemOf ctx refs item) = item.tier2Key ctx := by
  unfold DedupIndex.hashMapKey
  rw [h.ctxEq]
  rfl

theorem Simulates.tier1 : Option.Rel (SlotMatches ctx refs items st)
    ((idx.tier1Slot (indexItemOf ctx refs item)).filter fun slot =>
      !idx.shouldSplitTier1 (indexItemOf ctx refs item) slot)
    (tier1Find ctx st item) := by
  unfold tier1Find tier1Slot DedupIndex.tier1Slot RecoverableScanItem.tier1Key
  show Option.Rel _ (Option.filter _ (item.mid.bind _)) (Option.filter _ ((item.mid.map _).bind _))
  cases hm : item.mid with
  | none => exact .none
  | some m =>
    simp only [bind_some, map_some]
    rw [h.midKeyOf_eq]
    have hrel := h.mids (midKey ctx item.pathKey m)
    cases hs : idx.messageIds.get (midKey ctx item.pathKey m) with
    | none =>
      rw [hs] at hrel
      cases hg : st.midToGroup.get (midKey ctx item.pathKey m) with
      | none => exact .none
      | some gid => rw [hg] at hrel; cases hrel
    | some slot =>
      rw [hs] at hrel
      cases hg : st.midToGroup.get (midKey ctx item.pathKey m) with
      | none => rw [hg] at hrel; cases hrel
      | some gid =>
        rw [hg] at hrel
        cases hrel with
        | some hmatch =>
          obtain ⟨g, a, hgroup, ha, href, hhash, hfp⟩ := hmatch
          have hsplit : idx.shouldSplitTier1 (indexItemOf ctx refs item) slot
              = tier1Splits ctx item (st.group gid) := by
            unfold DedupIndex.shouldSplitTier1 tier1Splits
            rw [h.ctxEq, group_eq hgroup]
            cases hv : ctx.tier1Verify with
            | off => rfl
            | content => rw [hhash]; rfl
            | body => rw [hfp hv]; rfl
          simp only [filter_some, hsplit]
          split
          · exact .some ⟨g, a, hgroup, ha, href, hhash, hfp⟩
          · exact .none

theorem Simulates.tier2 (hel : idx.ctx.tier2Enabled = true →
      idx.eligible (indexItemOf ctx refs item) = item.eligible ctx) :
    Option.Rel (HashSlotMatches ctx refs items idx st (item.tier2Key ctx))
      (idx.tier2Slot (indexItemOf ctx refs item)) (tier2Slot ctx st item) := by
  unfold DedupIndex.tier2Slot tier2Slot
  rw [h.hashMapKey_eq]
  cases hon : ctx.tier2Enabled with
  | false =>
    simp only [h.ctxEq, hon, Bool.false_and, Bool.false_eq_true, if_false]
    exact .none
  | true =>
    rw [hel (by rw [h.ctxEq]; exact hon)]
    simp only [h.ctxEq, hon, Bool.true_and]
    split
    · exact h.hashes _
    · exact .none

end Lookups

/-! ## The steps agree -/

theorem Simulates.of_maps (h : Simulates ctx refs items idx st)
    (hctx : idx'.ctx = idx.ctx) (hids : idx'.messageIds = idx.messageIds)
    (hhashes : idx'.contentHashes = idx.contentHashes) : Simulates ctx refs items idx' st := by
  refine ⟨hctx.trans h.ctxEq, fun key => ?_, fun key => ?_⟩
  · rw [hids]
    exact h.mids key
  · rw [hhashes]
    refine rel_mono (fun slot gid _ _ hs => ?_) (h.hashes key)
    obtain ⟨g, a, hg, ha, href, hmid, hkey, hbind, hfp, hreg⟩ := hs
    exact ⟨g, a, hg, ha, href, hmid, hkey, hbind, hfp, fun m hm => by rw [hids]; exact hreg m hm⟩

theorem Simulates.frame (h : Simulates ctx refs items idx st)
    (hl : lookup ctx st item = .tier1 gid) (hctx : idx'.ctx = idx.ctx)
    (hids : idx'.messageIds = idx.messageIds) (hhashes : idx'.contentHashes = idx.contentHashes) :
    Simulates ctx refs items idx' (groupItem ctx st n item) := by
  refine ⟨hctx.trans h.ctxEq, fun key => ?_, fun key => ?_⟩
  · rw [hids, midToGroup_tier1 hl]
    exact rel_mono (fun _ _ _ _ hs => hs.step) (h.mids key)
  · rw [hhashes, hashToGroup_join (by rw [hl]; rfl)]
    refine rel_mono (fun _ _ _ _ hs => hs.step (fun k hk => by rw [hids]; exact hk) ?_)
      (h.hashes key)
    intro hl'
    rw [hl] at hl'
    cases hl'

theorem Simulates.insertUnique (h : Simulates ctx refs items idx st)
    (hs : (lookup ctx st item).seeds = true) (hn : items[n]? = some item)
    (hel : idx.ctx.tier2Enabled = true → idx.eligible (indexItemOf ctx refs item) = item.eligible ctx) :
    Simulates ctx refs items (idx.insertUnique (indexItemOf ctx refs item))
      (groupItem ctx st n item) := by
  have hnew : (groupItem ctx st n item).groups[st.groups.length]? = some (seedGroup ctx n item) := by
    rw [groups_seed hs]
    simp
  have hseedOf : SeedOf items (seedGroup ctx n item) item := ⟨n, rfl, hn⟩
  have hslot : (idx.slotOf (indexItemOf ctx refs item)).bindHash = item.tier2BindHash ctx.identity := by
    rw [← h.ctxEq]
    rfl
  have hidsEq : (idx.insertUnique (indexItemOf ctx refs item)).messageIds =
      (item.tier1Key ctx).elim idx.messageIds
        fun key => AList.insert key (idx.slotOf (indexItemOf ctx refs item)) idx.messageIds := by
    have hmid : midPresent (indexItemOf ctx refs item).messageId = item.mid := rfl
    unfold DedupIndex.insertUnique RecoverableScanItem.tier1Key
    dsimp only
    rw [hmid]
    cases item.mid with
    | none => rfl
    | some m =>
      simp only [map_some, elim_some, h.midKeyOf_eq]
  have hids : ∀ k, (idx.messageIds.get k).isSome →
      ((idx.insertUnique (indexItemOf ctx refs item)).messageIds.get k).isSome := by
    intro k hk
    rw [hidsEq]
    cases item.tier1Key ctx with
    | none => exact hk
    | some key =>
      rw [elim_some, HashMap.get_insert]
      split
      · rfl
      · exact hk
  refine ⟨h.ctxEq, fun key => ?_, fun key => ?_⟩
  · rw [hidsEq, midToGroup_seed hs]
    cases hk : item.tier1Key ctx with
    | none =>
      rw [elim_none]
      exact rel_mono (fun _ _ _ _ hm => hm.step) (h.mids key)
    | some k =>
      rw [elim_some]
      simp only [HashMap.get_insert]
      split
      · exact .some ⟨_, item, hnew, hseedOf, rfl, hslot, fun _ => rfl⟩
      · exact rel_mono (fun _ _ _ _ hm => hm.step) (h.mids key)
  · have hold : Option.Rel (HashSlotMatches ctx refs items
        (idx.insertUnique (indexItemOf ctx refs item)) (groupItem ctx st n item) key)
        (idx.contentHashes.get key) (st.hashToGroup.get key) := by
      refine rel_mono (fun _ _ _ _ hm => hm.step hids ?_) (h.hashes key)
      intro hl
      rw [hl] at hs
      cases hs
    have hhashesEq : (idx.insertUnique (indexItemOf ctx refs item)).contentHashes =
        if ctx.tier2Enabled && item.eligible ctx then
          idx.contentHashes.orInsert (item.tier2Key ctx) (idx.slotOf (indexItemOf ctx refs item))
        else idx.contentHashes := by
      show (if idx.ctx.tier2Enabled && idx.eligible (indexItemOf ctx refs item) then
          idx.contentHashes.orInsert (idx.hashMapKey (indexItemOf ctx refs item))
            (idx.slotOf (indexItemOf ctx refs item))
        else idx.contentHashes) = _
      rw [h.hashMapKey_eq]
      cases hon : ctx.tier2Enabled with
      | false => simp only [h.ctxEq, hon, Bool.false_and]
      | true =>
        rw [hel (by rw [h.ctxEq]; exact hon)]
        simp only [h.ctxEq, hon]
    rw [hhashesEq, hashToGroup_seed hs]
    split
    · simp only [HashMap.get_orInsert]
      split
      · rename_i hkk
        subst hkk
        -- an older group keeps the key; otherwise both give it to the new one
        cases hg : st.hashToGroup.get (item.tier2Key ctx) with
        | some gid =>
          rw [hg] at hold
          cases hi : idx.contentHashes.get (item.tier2Key ctx) with
          | none => rw [hi] at hold; cases hold
          | some slot => rw [hi] at hold; exact hold
        | none =>
          rw [hg] at hold
          cases hi : idx.contentHashes.get (item.tier2Key ctx) with
          | some slot => rw [hi] at hold; cases hold
          | none =>
            refine .some ⟨_, item, hnew, hseedOf, rfl, rfl, rfl, rfl, rfl, ?_⟩
            intro m hm
            have hkey : item.tier1Key ctx = some (midKey ctx item.pathKey m) := by
              unfold RecoverableScanItem.tier1Key
              rw [show item.mid = some m from hm]
              rfl
            rw [hidsEq, hkey, elim_some]
            simp only [HashMap.get_insert, if_true]
            rfl
      · exact hold
    · exact hold

theorem Simulates.joinBound (h : Simulates ctx refs items idx st) (hl : lookup ctx st item = .tier2 gid)
    (hg : st.groups[gid]? = some g) (hsame : g.boundMid.or item.mid = g.boundMid)
    (hctx : idx'.ctx = idx.ctx) (hids : ∀ k, idx'.messageIds.get k = idx.messageIds.get k)
    (hhashes : idx'.contentHashes = idx.contentHashes) :
    Simulates ctx refs items idx' (groupItem ctx st n item) := by
  have hmids : (groupItem ctx st n item).midToGroup = st.midToGroup := by
    rw [midToGroup_tier2 hl, group_eq hg]
    split
    · rename_i key hnone hkey
      obtain ⟨m, hm⟩ := RecoverableScanItem.mid_of_tier1Key hkey
      rw [hnone, hm] at hsame
      cases hsame
    · rfl
  refine ⟨hctx.trans h.ctxEq, fun key => ?_, fun key => ?_⟩
  · rw [hids, hmids]
    exact rel_mono (fun _ _ _ _ hs => hs.step) (h.mids key)
  · rw [hhashes, hashToGroup_join (by rw [hl]; rfl)]
    refine rel_mono (fun _ gid' _ _ hs => hs.step (fun k hk => by rw [hids]; exact hk) ?_)
      (h.hashes key)
    intro hl' g' hg'
    rw [hl] at hl'
    cases hl'
    obtain rfl : g = g' := Option.some.inj (hg.symm.trans hg')
    exact hsame

theorem Simulates.joinAdopt {m : String} (h : Simulates ctx refs items idx st)
    (hl : lookup ctx st item = .tier2 gid)
    (hslot : HashSlotMatches ctx refs items idx st (item.tier2Key ctx) slot gid)
    (hnone : slot.boundMid = none) (hm : item.mid = some m)
    (hfp : ctx.tier1Verify = .body → item.fpBody = (st.group gid).fp.body) :
    Simulates ctx refs items (idx.registerJoin (indexItemOf ctx refs item) slot (some m))
      (groupItem ctx st n item) := by
  obtain ⟨g, a, hg, ha, href, hmid, hkey, hbind, hgfp, hreg⟩ := hslot
  obtain ⟨g', hg', hseed, hbind', hfp', hmid'⟩ := groups_frame n item hg
  have hgnone : g.boundMid = none := hmid.symm.trans hnone
  have hbound' : g'.boundMid = some m := by
    rw [hmid', if_pos hl, hgnone, hm]
    rfl
  obtain ⟨hscope, hhash⟩ := hashKey_inj hkey
  have hitemKey : item.tier1Key ctx = some (midKey ctx item.pathKey m) := by
    unfold RecoverableScanItem.tier1Key
    rw [hm]
    rfl
  -- the joiner is in the seed's partition, so it registers the Message-ID under the seed's key
  have hseedKey : midKey ctx a.pathKey m = midKey ctx item.pathKey m :=
    (midKey_inj_of_scope hscope).mpr rfl
  have hidsEq : ∀ k, (idx.registerJoin (indexItemOf ctx refs item) slot (some m)).messageIds.get k =
      if k = midKey ctx item.pathKey m then
        some ((idx.messageIds.get (midKey ctx item.pathKey m)).getD
          { msgRef := slot.msgRef
            boundMid := some m
            bindHash := item.tier2BindHash idx.ctx.identity
            fp := item.fingerprints })
      else idx.messageIds.get k := by
    intro k
    show (idx.messageIds.orInsert (idx.midKeyOf (indexItemOf ctx refs item) m) _).get k = _
    rw [HashMap.get_orInsert, h.midKeyOf_eq]
    rfl
  have hids : ∀ k, (idx.messageIds.get k).isSome →
      ((idx.registerJoin (indexItemOf ctx refs item) slot (some m)).messageIds.get k).isSome := by
    intro k hk
    rw [hidsEq]
    split
    · rfl
    · exact hk
  refine ⟨h.ctxEq, fun key => ?_, fun key => ?_⟩
  · rw [hidsEq, midToGroup_tier2 hl, group_eq hg, hgnone, hitemKey]
    simp only [HashMap.get_orInsert]
    split
    · have hold : Option.Rel (SlotMatches ctx refs items (groupItem ctx st n item)) _ _ :=
        rel_mono (fun _ _ _ _ hs => hs.step) (h.mids (midKey ctx item.pathKey m))
      cases hi : idx.messageIds.get (midKey ctx item.pathKey m) with
      | some s =>
        rw [hi] at hold
        cases hs : st.midToGroup.get (midKey ctx item.pathKey m) with
        | none => rw [hs] at hold; cases hold
        | some k => rw [hs] at hold; exact hold
      | none =>
        rw [hi] at hold
        cases hs : st.midToGroup.get (midKey ctx item.pathKey m) with
        | some k => rw [hs] at hold; cases hold
        | none =>
          refine .some ⟨g', a, hg', hseed a ha, href, ?_, ?_⟩
          · rw [hbind', hbind, h.ctxEq]
            exact hhash.symm
          · intro hv
            rw [hfp', ← group_eq hg]
            exact hfp hv
    · exact rel_mono (fun _ _ _ _ hs => hs.step) (h.mids key)
  · have hhashesEq :
        (idx.registerJoin (indexItemOf ctx refs item) slot (some m)).contentHashes =
          AList.insert (item.tier2Key ctx) { slot with boundMid := some m } idx.contentHashes := by
      show (if slot.boundMid.isNone then
          AList.insert (idx.hashMapKey (indexItemOf ctx refs item)) _ idx.contentHashes
        else idx.contentHashes) = _
      rw [hnone, h.hashMapKey_eq]
      rfl
    rw [hhashesEq, hashToGroup_join (by rw [hl]; rfl), HashMap.get_insert]
    split
    · rename_i hkk
      subst hkk
      rw [(tier2Slot_eq_some (lookup_tier2 hl).2.1).2.2]
      refine .some ⟨g', a, hg', hseed a ha, href, hbound'.symm, hkey, hbind'.trans hbind, hfp'.trans hgfp, ?_⟩
      intro m' hm'
      obtain rfl : m = m' := Option.some.inj (hbound'.symm.trans hm')
      rw [hseedKey, hidsEq, if_pos rfl]
      rfl
    · rename_i hkk
      refine rel_mono (fun s gid' _ _ hs => hs.step hids ?_) (h.hashes key)
      intro hl' g₂ hg₂
      -- a group owns the key of its seed and no other
      rw [hl] at hl'
      cases hl'
      obtain ⟨g₃, a₃, hg₃, ha₃, _, _, hkey₃, _⟩ := hs
      obtain rfl : g = g₃ := Option.some.inj (hg.symm.trans hg₃)
      obtain rfl := ha.unique ha₃
      exact absurd (hkey₃.symm.trans hkey) hkk

theorem Simulates.join (h : Simulates ctx refs items idx st)
    (hground : Grounded ctx items st) (hl : lookup ctx st item = .tier2 gid)
    (hslot : HashSlotMatches ctx refs items idx st (item.tier2Key ctx) slot gid)
    (hone : OneSemantics ctx st item) : Simulates ctx refs items
      (idx.registerJoin (indexItemOf ctx refs item) slot
        (midJoinCompatible slot.boundMid item.mid ctx.blockCrossMid).2)
      (groupItem ctx st n item) := by
  obtain ⟨g, a, hg, _, _, hmid, hkey, _, _, hreg⟩ := id hslot
  cases hb : slot.boundMid with
  | none =>
    rw [midJoinCompatible_snd_of_none, RecoverableScanItem.midPresent_mid]
    have hgnone : g.boundMid = none := hmid.symm.trans hb
    cases hm : item.mid with
    | none => exact h.joinBound hl hg (by rw [hgnone, hm]; rfl) rfl (fun _ => rfl) rfl
    | some m =>
      refine h.joinAdopt hl hslot hb hm (fun hv => hone.fp hv gid hl ?_ ?_)
      · rw [group_eq hg, hgnone]
      · rw [hm]
        exact some_ne_none m
  | some gm =>
    have hgm : g.boundMid = some gm := hmid.symm.trans hb
    have hpresent : midPresent (some gm) = some gm := by
      obtain ⟨_, _, b, _, hbm⟩ := hground.boundMid g (mem_of_getElem? hg) gm hgm
      rw [← hbm, RecoverableScanItem.midPresent_mid]
    have hok := (lookup_tier2 hl).2.2
    rw [group_eq hg, hgm] at hok
    rw [midJoinCompatible_snd_of_some hpresent hok]
    -- the Message-ID was registered with the group, under the partition they share
    obtain ⟨hscope, _⟩ := hashKey_inj hkey
    have hknown : (idx.messageIds.get (midKey ctx item.pathKey gm)).isSome := by
      rw [← (midKey_inj_of_scope hscope).mpr rfl]
      exact hreg gm hgm
    refine h.joinBound hl hg (by rw [hgm]; rfl) rfl (fun k => ?_) ?_
    · show (idx.messageIds.orInsert (idx.midKeyOf (indexItemOf ctx refs item) gm) _).get k = _
      rw [h.midKeyOf_eq, HashMap.get_orInsert]
      split
      · rename_i hk
        obtain ⟨s, hs⟩ := Option.isSome_iff_exists.mp hknown
        rw [hk, hs]
        rfl
      · rfl
    · show (if slot.boundMid.isNone then _ else idx.contentHashes) = _
      rw [hb]
      rfl

def Answers (refs : MessageRefs) (items : List RecoverableScanItem) (ctx : GroupingContext)
    (st : GroupingState) (l : Lookup) (result : DedupResult) : Prop :=
  match l.target with
  | none => result = .unique
  | some gid => ∃ g a, st.groups[gid]? = some g ∧ SeedOf items g a ∧
      result = .duplicateOf (messageRefOf refs a) (DedupIndex.tierForBound (l.boundBy ctx))
        (l.boundBy ctx)

theorem Simulates.eligible_eq (h : Simulates ctx refs items idx st)
    (hcrc : item.assessTier2Eligibility = .error .crcSuspect →
      ctx.enforceReadableBody = true ∨ ctx.allowCrcSuspectTier2 = true) :
    idx.eligible (indexItemOf ctx refs item) = item.eligible ctx := by
  show (item.eligible ctx || !idx.ctx.enforceReadableBody) = item.eligible ctx
  rw [h.ctxEq]
  cases henforce : ctx.enforceReadableBody with
  | true => simp
  | false =>
    suffices hel : item.eligible ctx = true by rw [hel]; rfl
    unfold RecoverableScanItem.eligible GroupingContext.tier2Admits
    split
    · rfl
    · rw [henforce]; rfl
    · rw [henforce]; rfl
    · rename_i hassess
      rcases hcrc hassess with henf | hallow
      · rw [henforce] at henf; cases henf
      · exact hallow

theorem Simulates.core (h : Simulates ctx refs items idx st) (hground : Grounded ctx items st)
    (hn : items[n]? = some item) (hone : OneSemantics ctx st item) :
    Simulates ctx refs items (idx.checkAndInsertCore (indexItemOf ctx refs item)).1
        (groupItem ctx st n item) ∧ Answers refs items ctx st (lookup ctx st item)
        (idx.checkAndInsertCore (indexItemOf ctx refs item)).2 := by
  obtain rfl := h.ctxEq
  have hmidEq : midPresent (indexItemOf idx.ctx refs item).messageId = item.mid := rfl
  have hrel1 : Option.Rel (SlotMatches idx.ctx refs items st) _ (tier1Find idx.ctx st item) :=
    h.tier1
  unfold DedupIndex.checkAndInsertCore
  cases hfind : tier1Find idx.ctx st item with
  | some gid =>
    have hl := lookup_of_tier1Find hfind
    rw [hfind] at hrel1
    generalize ((idx.tier1Slot (indexItemOf idx.ctx refs item)).filter _) = found at hrel1
    cases hrel1 with
    | some hmatch =>
      obtain ⟨g, a, hg, ha, href, _, _⟩ := hmatch
      simp only [hl, href]
      exact ⟨h.frame hl rfl rfl rfl, g, a, hg, ha, rfl⟩
  | none =>
    rw [hfind] at hrel1
    generalize ((idx.tier1Slot (indexItemOf idx.ctx refs item)).filter _) = found at hrel1
    cases hrel1
    have hel : idx.ctx.tier2Enabled = true →
        idx.eligible (indexItemOf idx.ctx refs item) = item.eligible idx.ctx := fun hon =>
      h.eligible_eq (hone.crc hfind hon)
    have hrel2 := h.tier2 hel
    cases hslot : tier2Slot idx.ctx st item with
    | none =>
      have hl := lookup_of_fresh hfind hslot
      rw [hslot] at hrel2
      generalize idx.tier2Slot (indexItemOf idx.ctx refs item) = found at hrel2
      cases hrel2
      simp only [hl]
      exact ⟨h.insertUnique (by rw [hl]; rfl) hn hel, rfl⟩
    | some gid =>
      rw [hslot] at hrel2
      generalize idx.tier2Slot (indexItemOf idx.ctx refs item) = found at hrel2
      cases hrel2 with
      | @some slot _ hmatch =>
      obtain ⟨g, a, hg, ha, href, hmid, _⟩ := id hmatch
      simp only [hmidEq]
      split
      · rename_i hok
        have hl := lookup_of_tier2 hfind hslot (by rw [group_eq hg, ← hmid]; exact hok)
        simp only [hl, href]
        exact ⟨(h.join hground hl hmatch hone).of_maps rfl rfl rfl, g, a, hg, ha, rfl⟩
      · rename_i hok
        have hl := lookup_of_crossMid hfind hslot (by rw [group_eq hg, ← hmid]; exact hok)
        simp only [hl]
        have hins : Simulates idx.ctx refs items (idx.insertUnique (indexItemOf idx.ctx refs item))
            (groupItem idx.ctx st n item) := h.insertUnique (by rw [hl]; rfl) hn hel
        exact ⟨hins.of_maps rfl rfl rfl, rfl⟩

theorem Simulates.step (h : Simulates ctx refs items idx st) (hground : Grounded ctx items st)
    (hn : items[n]? = some item) (hone : OneSemantics ctx st item) :
    Simulates ctx refs items (insertScanItem ctx refs idx item).1 (groupItem ctx st n item) ∧
      Answers refs items ctx st (lookup ctx st item) (insertScanItem ctx refs idx item).2 := by
  -- the counters are written before the lookup and change neither map
  have hnoted : ∀ idx', Simulates ctx refs items idx' st →
      Simulates ctx refs items (idx'.noteTier1 (indexItemOf ctx refs item)) st := by
    intro idx' h'
    unfold DedupIndex.noteTier1
    split
    · exact h'.of_maps rfl rfl rfl
    · exact h'
  have hrecorded : Simulates ctx refs items
      { idx with notes := { idx.notes with stats := recordScan ctx item idx.notes.stats } } st :=
    h.of_maps rfl rfl rfl
  exact (hnoted _ hrecorded).core hground hn hone

/-- What the index said of the members of a group: unique for the first, a duplicate of the first
for the others, with the bind tag the loop gave them. -/
def GroupAnswered (refs : MessageRefs) (items : List RecoverableScanItem) (boundBy : List BoundBy)
    (results : List DedupResult) (g : List Nat) : Prop :=
  ∃ s a, g.head? = some s ∧ items[s]? = some a ∧ ∀ i ∈ g, (i = s → results[i]? = some .unique) ∧
    (i ≠ s → ∃ bb, boundBy[i]? = some bb ∧ results[i]? =
      some (.duplicateOf (messageRefOf refs a) (DedupIndex.tierForBound bb) bb))

omit [Rust.Target] in
theorem GroupAnswered.frame {boundBy : List BoundBy} {g : List Nat}
    {bb : BoundBy} {r : DedupResult} (h : GroupAnswered refs items boundBy results g)
    (hlt : ∀ i ∈ g, i < results.length) :
    GroupAnswered refs items (boundBy.set results.length bb) (results ++ [r]) g := by
  obtain ⟨s, a, hs, ha, hall⟩ := h
  refine ⟨s, a, hs, ha, fun i hi => ?_⟩
  rw [getElem?_append_left (hlt i hi), getElem?_set_ne (Nat.ne_of_gt (hlt i hi))]
  exact hall i hi

theorem groupAnswered_step {r : DedupResult}
    (hshape : Shape items.length n st) (hlen : results.length = n) (hn : items[n]? = some item)
    (hall : ∀ g ∈ st.buckets, GroupAnswered refs items st.boundBy results g)
    (hr : Answers refs items ctx st (lookup ctx st item) r) : ∀ g ∈ (groupItem ctx st n item).buckets,
      GroupAnswered refs items (groupItem ctx st n item).boundBy (results ++ [r]) g := by
  have hltn : n < st.boundBy.length := by
    rw [hshape.boundByLength]
    exact (List.getElem?_eq_some_iff.mp hn).1
  subst hlen
  have hold : ∀ g ∈ st.buckets, GroupAnswered refs items
      (st.boundBy.set results.length ((lookup ctx st item).boundBy ctx)) (results ++ [r]) g :=
    fun g hg => (hall g hg).frame fun i hi => hshape.partition.lt_of_mem hg hi
  rw [buckets_groupItem, boundBy_groupItem]
  unfold Answers at hr
  intro g hg
  cases ht : (lookup ctx st item).target with
  | none =>
    rw [ht] at hr hg
    rcases List.mem_append.mp hg with hg | hg
    · exact hold g hg
    · rw [List.mem_singleton.mp hg]
      refine ⟨results.length, item, rfl, hn, fun i hi => ?_⟩
      rw [List.mem_singleton.mp hi]
      exact ⟨fun _ => by simp [hr], fun hne => absurd rfl hne⟩
  | some gid =>
    rw [ht] at hr hg
    rcases Foundations.mem_place_some hg with hg | ⟨g₀, hg₀, rfl⟩
    · exact hold g hg
    · have hmem := mem_of_getElem? hg₀
      obtain ⟨s, a, hs, ha, hmembers⟩ := hold g₀ hmem
      obtain ⟨grp, b, hgrp, hseed, hres⟩ := hr
      -- the group the answer names is this one, and its seed is the head
      have hgrp₀ : grp.members = g₀ := by
        have : st.buckets[gid]? = some grp.members := by
          unfold GroupingState.buckets
          rw [getElem?_map, hgrp]
          rfl
        exact Option.some.inj (this.symm.trans hg₀)
      obtain ⟨s', hs', hb⟩ := hseed
      rw [hgrp₀, hs] at hs'
      obtain rfl := Option.some.inj hs'
      obtain rfl := Option.some.inj (ha.symm.trans hb)
      refine ⟨s, a, ?_, ha, fun i hi => ?_⟩
      · rw [head?_append_of_ne_nil _ (hshape.partition.nonempty g₀ hmem), hs]
      · rcases List.mem_append.mp hi with hi | hi
        · exact hmembers i hi
        · rw [List.mem_singleton.mp hi]
          refine ⟨fun heq => ?_, fun _ => ⟨(lookup ctx st item).boundBy ctx, ?_, ?_⟩⟩
          · have hlts := hshape.partition.lt_of_mem hmem (mem_of_mem_head? hs)
            omega
          · rw [getElem?_set_self hltn]
          · rw [getElem?_append_right (Nat.le_refl _), hres]
            simp

structure SideBySide (ctx : GroupingContext) (refs : MessageRefs)
    (items : List RecoverableScanItem) (n : Nat) (s : DedupIndex × List DedupResult)
    (st : GroupingState) : Prop where
  prefixEq : st = groupPrefix ctx items n
  shape : Shape items.length n st
  ground : Grounded ctx items st
  sim : Simulates ctx refs items s.1 st
  length : s.2.length = n
  answered : ∀ g ∈ st.buckets, GroupAnswered refs items st.boundBy s.2 g

theorem sideBySide_run (refs : MessageRefs) (hone : ∀ n item, items[n]? = some item →
      OneSemantics ctx (groupPrefix ctx items n) item) :
    SideBySide ctx refs items items.length (feed ctx refs items) (groupLoop ctx items) := by
  apply Foundations.enumFold_induction₂ (P := SideBySide ctx refs items)
  · refine ⟨rfl, shape_init _, grounded_init _, ⟨rfl, fun _ => ?_, fun _ => ?_⟩, rfl, ?_⟩
    · simp only [GroupingState.init, HashMap.get_empty]
      exact .none
    · simp only [GroupingState.init, HashMap.get_empty]
      exact .none
    · intro g hg
      cases hg
  · rintro n item s st hn ⟨rfl, hshape, hground, hsim, hlen, hall⟩
    obtain ⟨hsim', hres⟩ := hsim.step hground hn (hone n item hn)
    refine ⟨(groupPrefix_succ hn).symm, hshape.step hground hn, hground.step hn, hsim', ?_, ?_⟩
    · simp [hlen]
    · exact groupAnswered_step hshape hlen hn hall hres

variable [RandomState]

/-- The answers of the index are the groups: unique for exactly the seeds, and for any other item
its group's seed with the item's bind tag. -/
def AnswersAre (refs : MessageRefs) (items : List RecoverableScanItem) (out : GroupingOutcome)
    (results : List DedupResult) : Prop :=
  results.length = items.length ∧ ∀ g ∈ out.groups, GroupAnswered refs items out.boundBy results g

/-- **The streaming index answers what collect-all grouping groups**, in every run that meets
neither of the two places where the implementations part. -/
theorem feed_answers (refs : MessageRefs) (hback : ctx.tier1Backfill = false)
    (hone : ∀ n item, items[n]? = some item → OneSemantics ctx (groupPrefix ctx items n) item) :
    AnswersAre refs items (groupCandidatesWithStats ctx items) (feed ctx refs items).2 := by
  have hrun := sideBySide_run refs hone
  rcases outcome_cases ctx items with ⟨hg, hb, _⟩ | ⟨hon, _, _⟩
  · refine ⟨hrun.length, ?_⟩
    rw [hg, hb]
    exact hrun.answered
  · rw [hback] at hon
    cases hon

omit [Rust.Target] [RandomState] in
theorem feed_answers_adoption :
    let ctx : GroupingContext := {}
    let items := [sampleItem "mail.pst" none 1, sampleItem "mail.pst" (some "m") 1,
      sampleItem "mail.pst" (some "m") 2]
    @AnswersAre ∅ items (@groupCandidatesWithStats .unix .inOrder ctx items)
      (@feed .unix ctx ∅ items).2 := by
  intro ctx items
  refine @feed_answers .unix ctx items .inOrder ∅ rfl ?_
  intro n item hn
  refine @OneSemantics.mk .unix _ _ _ ?_ (fun hv => by cases hv)
  intro _ _ hcrc
  -- none of the three is CRC-suspect
  have hclean : ∀ it ∈ items, it.assessTier2Eligibility ≠ .error .crcSuspect := by decide +kernel
  exact absurd hcrc (hclean item (mem_of_getElem? hn))

omit [Rust.Target] [RandomState] in
theorem AnswersAre.seed {out : GroupingOutcome}
    (h : AnswersAre refs items out results) {g : List Nat} (hg : g ∈ out.groups) {s : Nat}
    (hs : g.head? = some s) : results[s]? = some .unique := by
  obtain ⟨s', a, hs', _, hall⟩ := h.2 g hg
  obtain rfl : s = s' := Option.some.inj (hs.symm.trans hs')
  exact (hall s (mem_of_mem_head? hs)).1 rfl

omit [Rust.Target] [RandomState] in
/-- Both divergences. With degenerate messages allowed and CRC-suspect ones not, a CRC-suspect copy
is a group of its own and a duplicate to the index. Under `--tier1-verify body`, a copy that agrees
with the adopter and not with the seed is split off by the loop and taken in by the index. -/
theorem feed_answers_otherwise :
    (let ctx : GroupingContext := { allowDegenerateTier2 := true }
      let items := [sampleItem "mail.pst" none 1,
        { sampleItem "mail.pst" none 1 with integrity := .withDegraded [.crcSuspect] false }]
      ¬ @AnswersAre ∅ items (@groupCandidatesWithStats .unix .inOrder ctx items)
        (@feed .unix ctx ∅ items).2) ∧ (let ctx : GroupingContext := { tier1Verify := .body }
      let items := [{ sampleItem "mail.pst" none 1 with fpBody := 1 },
        { sampleItem "mail.pst" (some "m") 1 with fpBody := 2 },
        { sampleItem "mail.pst" (some "m") 2 with fpBody := 2 }]
      ¬ @AnswersAre ∅ items (@groupCandidatesWithStats .unix .inOrder ctx items)
        (@feed .unix ctx ∅ items).2) := by
  refine ⟨?_, ?_⟩
  · intro ctx items h
    have hg : [1] ∈ (@groupCandidatesWithStats .unix .inOrder ctx items).groups := by
      decide +kernel
    exact absurd (h.seed hg rfl) (by decide +kernel)
  · intro ctx items h
    have hg : [2] ∈ (@groupCandidatesWithStats .unix .inOrder ctx items).groups := by
      decide +kernel
    exact absurd (h.seed hg rfl) (by decide +kernel)

end DedupEngine
