import PstDedupe.DedupEngine.GroupInvariants

/-!
# The loop keeps the closed form

The invariant behind `classes_groupLoop`.
-/

namespace DedupEngine

open List Option

open Rust (Bytes32 HashMap)
open Foundations (ScanClasses At)

variable [Rust.Target] {ctx : GroupingContext} {items : List RecoverableScanItem}
  {st : GroupingState} {n gid : Nat} {item : RecoverableScanItem}

structure Settled (ctx : GroupingContext) (items : List RecoverableScanItem) (n : Nat)
    (st : GroupingState) : Prop where
  classes : ScanClasses st.buckets (Together ctx items)
  midEntry : ∀ key gid, st.midToGroup.get key = some gid →
    ∃ a, At st.buckets gid a ∧ Holder ctx items a ∧ (itemAt items a).tier1Key ctx = some key
  midHeld : ∀ a < n, Holder ctx items a → ∀ key, (itemAt items a).tier1Key ctx = some key →
    st.midToGroup.get key ≠ none
  hashEntry : ∀ key gid, st.hashToGroup.get key = some gid →
    ∃ a, At st.buckets gid a ∧ Core ctx items a ∧ tier2KeyAt ctx items a = key
  hashHeld : ∀ a < n, Candidate ctx items a → st.hashToGroup.get (tier2KeyAt ctx items a) ≠ none
  led : ∀ key gid, st.hashToGroup.get key = some gid → ∀ l < n, Leader ctx items l →
    tier2KeyAt ctx items l = key → (st.group gid).boundMid = (itemAt items l).mid
  bound : ∀ key gid, st.hashToGroup.get key = some gid → (st.group gid).boundMid ≠ none →
    ∃ l < n, Leader ctx items l ∧ tier2KeyAt ctx items l = key

omit [Rust.Target] in
theorem At.exists_group {x i : Nat} (h : At st.buckets x i) : ∃ g, st.groups[x]? = some g ∧ i ∈ g.members := by
  obtain ⟨ms, hms, hi⟩ := h
  unfold GroupingState.buckets at hms
  rw [getElem?_map] at hms
  obtain ⟨g, hg, rfl⟩ := Option.map_eq_some_iff.mp hms
  exact ⟨g, hg, hi⟩

omit [Rust.Target] in
theorem Shape.lt_of_at {total : Nat} (hs : Shape total n st) {x i : Nat} (h : At st.buckets x i) : i < n := by
  obtain ⟨g, hg, hi⟩ := h
  exact hs.partition.lt_of_mem (mem_of_getElem? hg) hi

theorem tier1Find_of_verify_off (h : ctx.tier1Verify = .off) :
    tier1Find ctx st item = tier1Slot ctx st item := by
  unfold tier1Find tier1Splits
  rw [h]
  cases tier1Slot ctx st item <;> rfl

theorem midLink_of_tier2Key {x y : RecoverableScanItem} (hm : x.mid = y.mid) (hx : x.mid ≠ none)
    (hkey : x.tier2Key ctx = y.tier2Key ctx) : MidLink ctx x y := by
  obtain ⟨m, hxm⟩ := Option.ne_none_iff_exists'.mp hx
  have hscope := (hashKey_inj hkey).1
  refine ⟨midKey ctx x.pathKey m, ?_, ?_⟩
  · unfold RecoverableScanItem.tier1Key
    rw [hxm]
    rfl
  · unfold RecoverableScanItem.tier1Key
    rw [← hm, hxm, map_some, (midKey_inj_of_scope hscope).mpr rfl]

namespace Settled

/-! ## What a lookup means -/

theorem fresh_iff (h : Settled ctx items n st) (hs : Shape items.length n st)
    (hn : items[n]? = some item) (hv : ctx.tier1Verify = .off) :
    Fresh ctx items n ↔ tier1Find ctx st item = none := by
  rw [DedupEngine.fresh_iff, tier1Find_of_verify_off hv, itemAt_eq hn]
  unfold tier1Slot
  constructor
  · intro hfresh
    rw [bind_eq_none_iff]
    intro key hkey
    by_contra hget
    obtain ⟨gid, hgid⟩ := Option.ne_none_iff_exists'.mp hget
    obtain ⟨a, ha, hhold, hakey⟩ := h.midEntry key gid hgid
    exact hfresh a (hs.lt_of_at ha) hhold ⟨key, hakey, hkey⟩
  · rintro hnone j hj hhold ⟨key, hjkey, hkey⟩
    rw [hkey] at hnone
    exact h.midHeld j hj hhold key hjkey hnone

theorem tier1 (h : Settled ctx items n st) (hs : Shape items.length n st)
    (hn : items[n]? = some item) (hl : lookup ctx st item = .tier1 gid) :
    ∃ a, At st.buckets gid a ∧ Anchor ctx items n a := by
  obtain ⟨key, hkey, hget, _⟩ := tier1Find_eq_some (lookup_tier1 hl)
  obtain ⟨a, ha, hhold, hakey⟩ := h.midEntry key gid hget
  refine ⟨a, ha, hhold.1, Or.inr ⟨hs.lt_of_at ha, hhold, key, hakey, ?_⟩⟩
  rw [itemAt_eq hn, hkey]

theorem bindable_of_slot (hn : items[n]? = some item) (hslot : tier2Slot ctx st item = some gid) :
    Bindable ctx items n ∧ st.hashToGroup.get (tier2KeyAt ctx items n) = some gid := by
  unfold Bindable tier2KeyAt
  rw [itemAt_eq hn]
  obtain ⟨hon, hel, hget⟩ := tier2Slot_eq_some hslot
  exact ⟨⟨hon, hel⟩, hget⟩

theorem get_of_bindable (hn : items[n]? = some item) (hbind : Bindable ctx items n) :
    tier2Slot ctx st item = st.hashToGroup.get (tier2KeyAt ctx items n) := by
  unfold Bindable at hbind
  unfold tier2Slot tier2KeyAt
  rw [itemAt_eq hn] at *
  rw [hbind.1, hbind.2]
  rfl

theorem leader_iff (h : Settled ctx items n st) (hcand : MidCandidate ctx items n)
    (hget : st.hashToGroup.get (tier2KeyAt ctx items n) = some gid) :
    Leader ctx items n ↔ (st.group gid).boundMid = none := by
  constructor
  · intro hlead
    by_contra hb
    obtain ⟨l, hl, hl', hkey⟩ := h.bound _ gid hget hb
    exact hlead.2 l hl hl'.1 hkey
  · intro hb
    obtain ⟨l, hle, hlead, hkey⟩ := exists_leader hcand
    rcases Nat.lt_or_eq_of_le hle with hlt | rfl
    · rw [h.led _ gid hget l hlt hlead hkey] at hb
      exact absurd hb hlead.1.2
    · exact hlead

theorem leader_of_get_none (h : Settled ctx items n st) (hcand : MidCandidate ctx items n)
    (hget : st.hashToGroup.get (tier2KeyAt ctx items n) = none) : Leader ctx items n := by
  obtain ⟨l, hle, hlead, hkey⟩ := exists_leader hcand
  rcases Nat.lt_or_eq_of_le hle with hlt | rfl
  · rw [← hkey] at hget
    exact absurd hget (h.hashHeld l hlt hlead.1.1)
  · exact hlead

theorem mid_ne_bound (h : Settled ctx items n st) (hcand : MidCandidate ctx items n)
    (hget : st.hashToGroup.get (tier2KeyAt ctx items n) = some gid) :
    midPresent (st.group gid).boundMid ≠ (itemAt items n).mid := by
  intro heq
  cases hb : (st.group gid).boundMid with
  | none =>
    rw [hb] at heq
    exact hcand.2 heq.symm
  | some m =>
    obtain ⟨l, hl, hlead, hkey⟩ := h.bound _ gid hget (by rw [hb]; exact some_ne_none m)
    have hmid := h.led _ gid hget l hl hlead hkey
    rw [hmid, RecoverableScanItem.midPresent_mid] at heq
    exact DedupEngine.fresh_iff.mp hcand.1.1 l hl hlead.holder
      (midLink_of_tier2Key heq hlead.1.2 hkey)

theorem tier2 (h : Settled ctx items n st) (hs : Shape items.length n st)
    (hn : items[n]? = some item) (hv : ctx.tier1Verify = .off)
    (hl : lookup ctx st item = .tier2 gid) : Core ctx items n ∧ ∃ c, At st.buckets gid c ∧
      Core ctx items c ∧ tier2KeyAt ctx items c = tier2KeyAt ctx items n := by
  obtain ⟨hmiss, hslot, hcompat⟩ := lookup_tier2 hl
  obtain ⟨hbind, hget⟩ := bindable_of_slot hn hslot
  have hfresh := (h.fresh_iff hs hn hv).mpr hmiss
  refine ⟨⟨⟨hfresh, hbind⟩, ?_⟩, h.hashEntry _ gid hget⟩
  cases hblock : ctx.blockCrossMid with
  | false => exact Or.inl rfl
  | true =>
    by_cases hm : (itemAt items n).mid = none
    · exact Or.inr (Or.inl hm)
    · have hcand : MidCandidate ctx items n := ⟨⟨hfresh, hbind⟩, hm⟩
      refine Or.inr (Or.inr ((h.leader_iff hcand hget).mpr ?_))
      rw [midJoinCompatible_fst, hblock, RecoverableScanItem.midPresent_mid, ← itemAt_eq hn] at hcompat
      rcases hcompat with hb | hb | hb | hb
      · by_contra hne
        obtain ⟨l, hl, hlead, hkey⟩ := h.bound _ gid hget hne
        rw [h.led _ gid hget l hl hlead hkey, RecoverableScanItem.midPresent_mid] at hb
        exact hlead.1.2 hb
      · exact absurd hb hm
      · exact absurd hb (h.mid_ne_bound hcand hget)
      · cases hb

theorem seeds (h : Settled ctx items n st) (hs : Shape items.length n st)
    (hn : items[n]? = some item) (hv : ctx.tier1Verify = .off)
    (hl : (lookup ctx st item).seeds = true) :
    Holder ctx items n ∧ ∀ c < n, Core ctx items c → Core ctx items n →
      tier2KeyAt ctx items c ≠ tier2KeyAt ctx items n := by
  have hfresh := (h.fresh_iff hs hn hv).mpr (tier1Find_of_seeds hl)
  cases hlook : lookup ctx st item with
  | tier1 g => simp [hlook, Lookup.seeds] at hl
  | tier2 g => simp [hlook, Lookup.seeds] at hl
  | fresh =>
    have hnone : Bindable ctx items n → st.hashToGroup.get (tier2KeyAt ctx items n) = none := by
      intro hbind
      rw [← get_of_bindable hn hbind]
      exact (lookup_fresh hlook).2
    refine ⟨⟨hfresh, fun hcand => Or.inr (h.leader_of_get_none hcand (hnone hcand.1.2))⟩, ?_⟩
    intro c hc hcore hcoren hkey
    have hget := hnone hcoren.1.2
    rw [← hkey] at hget
    exact h.hashHeld c hc hcore.1 hget
  | crossMid g =>
    obtain ⟨_, hslot, hcompat⟩ := lookup_crossMid hlook
    obtain ⟨hbind, hget⟩ := bindable_of_slot hn hslot
    have hrefused : ¬ (midJoinCompatible (st.group g).boundMid item.mid ctx.blockCrossMid).1 = true := by
      simp [hcompat]
    rw [midJoinCompatible_fst, RecoverableScanItem.midPresent_mid, ← itemAt_eq hn] at hrefused
    push Not at hrefused
    obtain ⟨hb, hm, _, hblock⟩ := hrefused
    refine ⟨⟨hfresh, fun _ => Or.inl (by simpa using hblock)⟩, ?_⟩
    -- a refused item is not core: it has a Message-ID and does not lead
    intro c _ _ hcoren _
    rcases hcoren.2 with hfalse | hnone | hlead
    · exact hblock hfalse
    · exact hm hnone
    · rw [(h.leader_iff hlead.1 hget).mp hlead] at hb
      exact hb rfl

/-! ## One step -/

theorem target_lt (h : Settled ctx items n st) (hs : Shape items.length n st)
    (hn : items[n]? = some item) (hv : ctx.tier1Verify = .off) :
    ∀ k, (lookup ctx st item).target = some k → k < st.buckets.length := by
  intro k ht
  cases hl : lookup ctx st item with
  | tier1 g =>
    obtain rfl : g = k := by simpa [hl, Lookup.target] using ht
    obtain ⟨a, ha, _⟩ := h.tier1 hs hn hl
    exact ha.lt_length
  | tier2 g =>
    obtain rfl : g = k := by simpa [hl, Lookup.target] using ht
    obtain ⟨_, c, hc, _⟩ := h.tier2 hs hn hv hl
    exact hc.lt_length
  | crossMid g => simp [hl, Lookup.target] at ht
  | fresh => simp [hl, Lookup.target] at ht

theorem at_step (h : Settled ctx items n st) (hs : Shape items.length n st)
    (hn : items[n]? = some item) (hv : ctx.tier1Verify = .off) {x i : Nat} :
    At (groupItem ctx st n item).buckets x i ↔
      At st.buckets x i ∨ (x = (lookup ctx st item).target.getD st.buckets.length ∧ i = n) := by
  rw [buckets_groupItem]
  exact Foundations.at_place (h.target_lt hs hn hv)

omit [Rust.Target] in
theorem target_of_seeds {l : Lookup} (hl : l.seeds = true) : l.target = none := by
  cases l <;> simp_all [Lookup.seeds, Lookup.target]

theorem classes_step (h : Settled ctx items n st) (hs : Shape items.length n st)
    (hn : items[n]? = some item) (hv : ctx.tier1Verify = .off) :
    ScanClasses (groupItem ctx st n item).buckets (Together ctx items) := by
  rw [buckets_groupItem]
  refine h.classes.place (h.target_lt hs hn hv) (.refl n) (fun _ _ => .symm) ?_
  intro x i hi
  have hopens : (lookup ctx st item).seeds = true →
      (x = (lookup ctx st item).target.getD st.buckets.length ↔ Together ctx items i n) := by
    intro hl
    obtain ⟨hhold, hkeys⟩ := h.seeds hs hn hv hl
    have hne : x ≠ st.buckets.length := Nat.ne_of_lt hi.lt_length
    have hnot := not_together_of_fresh hhold.1 (hs.lt_of_at hi) hkeys
    rw [target_of_seeds hl]
    simp [hne, hnot]
  cases hl : lookup ctx st item with
  | tier1 g =>
    obtain ⟨a, ha, hanchor⟩ := h.tier1 hs hn hl
    show x = g ↔ _
    rw [h.classes x g i a hi ha]
    exact hanchor.together.symm.congr_right
  | tier2 g =>
    obtain ⟨hcore, c, hc, hcorec, hkey⟩ := h.tier2 hs hn hv hl
    show x = g ↔ _
    rw [h.classes x g i c hi hc]
    exact (hcorec.together hcore hkey).congr_right
  | crossMid g => rw [← hl]; exact hopens (by rw [hl]; rfl)
  | fresh => rw [← hl]; exact hopens (by rw [hl]; rfl)

theorem hash_cases (h : Settled ctx items n st) (hs : Shape items.length n st)
    (hn : items[n]? = some item) (hv : ctx.tier1Verify = .off) {key : List UInt8}
    (hget : (groupItem ctx st n item).hashToGroup.get key = some gid) : st.hashToGroup.get key = some gid ∨
      (st.hashToGroup.get key = none ∧ Candidate ctx items n ∧ tier2KeyAt ctx items n = key ∧
        (lookup ctx st item).seeds = true ∧ gid = st.groups.length) := by
  cases hold : st.hashToGroup.get key with
  | some g =>
    rw [hashToGroup_mono hold] at hget
    exact Or.inl hget
  | none =>
    rcases hashToGroup_groupItem hget with h' | ⟨hon, hel, hkey, hseeds, hgid⟩
    · rw [hold] at h'; cases h'
    · refine Or.inr ⟨rfl, ⟨(h.seeds hs hn hv hseeds).1.1, ?_⟩, ?_, hseeds, hgid⟩
      · unfold Bindable
        rw [itemAt_eq hn]
        exact ⟨hon, hel⟩
      · unfold tier2KeyAt
        rw [itemAt_eq hn, hkey]

theorem leader_of_bound_none (h : Settled ctx items n st) (hn : items[n]? = some item)
    (hl : lookup ctx st item = .tier2 gid) (hb : (st.group gid).boundMid = none) :
    MidCandidate ctx items n → Leader ctx items n := by
  intro hcand
  obtain ⟨_, hget⟩ := bindable_of_slot hn (lookup_tier2 hl).2.1
  exact (h.leader_iff hcand hget).mpr hb

theorem mid_step (h : Settled ctx items n st) (hs : Shape items.length n st)
    (hn : items[n]? = some item) (hv : ctx.tier1Verify = .off) :
    ∀ key gid, (groupItem ctx st n item).midToGroup.get key = some gid →
      ∃ a, At (groupItem ctx st n item).buckets gid a ∧ Holder ctx items a ∧
        (itemAt items a).tier1Key ctx = some key := by
  intro key gid hget
  rcases midToGroup_groupItem hget with hold | ⟨hkey, hnew⟩
  · obtain ⟨a, ha, hhold, hakey⟩ := h.midEntry key gid hold
    exact ⟨a, (h.at_step hs hn hv).mpr (Or.inl ha), hhold, hakey⟩
  · -- the new entry leads to the item itself
    rw [← itemAt_eq hn] at hkey
    rcases hnew with ⟨hl, hbound⟩ | ⟨hseeds, rfl⟩
    · obtain ⟨hcore, c, hc, _⟩ := h.tier2 hs hn hv hl
      obtain ⟨g, hg, _⟩ := At.exists_group hc
      have hb : (st.group gid).boundMid = none := by
        rw [group_eq hg]
        exact hbound g hg
      refine ⟨n, (h.at_step hs hn hv).mpr (Or.inr ⟨by rw [hl]; rfl, rfl⟩), ⟨hcore.fresh, ?_⟩, hkey⟩
      exact fun hcand => Or.inr (h.leader_of_bound_none hn hl hb hcand)
    · have hat : st.groups.length = (lookup ctx st item).target.getD st.buckets.length := by
        rw [target_of_seeds hseeds]
        simp [GroupingState.buckets]
      exact ⟨n, (h.at_step hs hn hv).mpr (Or.inr ⟨hat, rfl⟩), (h.seeds hs hn hv hseeds).1, hkey⟩

theorem midHeld_step (h : Settled ctx items n st) (hs : Shape items.length n st)
    (hn : items[n]? = some item) (hv : ctx.tier1Verify = .off) :
    ∀ a < n + 1, Holder ctx items a → ∀ key, (itemAt items a).tier1Key ctx = some key →
      (groupItem ctx st n item).midToGroup.get key ≠ none := by
  intro a ha hhold key hkey
  rcases Nat.lt_succ_iff_lt_or_eq.mp ha with hlt | rfl
  · exact midToGroup_mono (h.midHeld a hlt hhold key hkey)
  · rw [itemAt_eq hn] at hkey
    have hseed : (lookup ctx st item).seeds = true → (groupItem ctx st a item).midToGroup.get key ≠ none := by
      intro hseeds
      rw [midToGroup_seed hseeds, hkey]
      simp
    cases hl : lookup ctx st item with
    | tier1 g =>
      have hmiss := (h.fresh_iff hs hn hv).mp hhold.1
      rw [lookup_tier1 hl] at hmiss
      cases hmiss
    | tier2 g =>
      obtain ⟨hcore, _⟩ := h.tier2 hs hn hv hl
      obtain ⟨_, hget⟩ := bindable_of_slot hn (lookup_tier2 hl).2.1
      obtain ⟨m, hm⟩ := RecoverableScanItem.mid_of_tier1Key hkey
      have hcand : MidCandidate ctx items a := ⟨hcore.1, by rw [itemAt_eq hn, hm]; simp⟩
      have hlead : Leader ctx items a := by
        rcases hhold.2 hcand with hblock | hlead
        · rcases hcore.2 with hb | hb | hlead
          · rw [hblock] at hb; cases hb
          · exact absurd hb hcand.2
          · exact hlead
        · exact hlead
      rw [midToGroup_tier2 hl, (h.leader_iff hcand hget).mp hlead, hkey]
      simp [HashMap.get_orInsert]
    | crossMid g => exact hseed (by rw [hl]; rfl)
    | fresh => exact hseed (by rw [hl]; rfl)

theorem hash_step (h : Settled ctx items n st) (hs : Shape items.length n st)
    (hn : items[n]? = some item) (hv : ctx.tier1Verify = .off) :
    ∀ key gid, (groupItem ctx st n item).hashToGroup.get key = some gid →
      ∃ a, At (groupItem ctx st n item).buckets gid a ∧ Core ctx items a ∧ tier2KeyAt ctx items a = key := by
  intro key gid hget
  rcases h.hash_cases hs hn hv hget with hold | ⟨hnone, hcand, hkey, hseeds, rfl⟩
  · obtain ⟨a, ha, hcore, hakey⟩ := h.hashEntry key gid hold
    exact ⟨a, (h.at_step hs hn hv).mpr (Or.inl ha), hcore, hakey⟩
  · have hat : st.groups.length = (lookup ctx st item).target.getD st.buckets.length := by
      rw [target_of_seeds hseeds]
      simp [GroupingState.buckets]
    refine ⟨n, (h.at_step hs hn hv).mpr (Or.inr ⟨hat, rfl⟩), ⟨hcand, Or.inr ?_⟩, hkey⟩
    by_cases hm : (itemAt items n).mid = none
    · exact Or.inl hm
    · exact Or.inr (h.leader_of_get_none ⟨hcand, hm⟩ (by rw [hkey, hnone]))

theorem hashHeld_step (h : Settled ctx items n st) (hs : Shape items.length n st)
    (hn : items[n]? = some item) (hv : ctx.tier1Verify = .off) : ∀ a < n + 1, Candidate ctx items a →
      (groupItem ctx st n item).hashToGroup.get (tier2KeyAt ctx items a) ≠ none := by
  intro a ha hcand
  have hmono : st.hashToGroup.get (tier2KeyAt ctx items a) ≠ none →
      (groupItem ctx st n item).hashToGroup.get (tier2KeyAt ctx items a) ≠ none := by
    intro hne
    obtain ⟨g, hg⟩ := Option.ne_none_iff_exists'.mp hne
    rw [hashToGroup_mono hg]
    exact some_ne_none g
  rcases Nat.lt_succ_iff_lt_or_eq.mp ha with hlt | rfl
  · exact hmono (h.hashHeld a hlt hcand)
  · cases hold : st.hashToGroup.get (tier2KeyAt ctx items a) with
    | some g => exact hmono (by rw [hold]; exact some_ne_none g)
    | none =>
      have hmiss := (h.fresh_iff hs hn hv).mp hcand.1
      have hslot : tier2Slot ctx st item = none := by rw [get_of_bindable hn hcand.2, hold]
      have hbind := hcand.2
      unfold Bindable at hbind
      rw [itemAt_eq hn] at hbind
      rw [hashToGroup_seed (by rw [lookup_of_fresh hmiss hslot]; rfl), hbind.1, hbind.2]
      unfold tier2KeyAt
      rw [itemAt_eq hn]
      simp [HashMap.get_orInsert]

theorem led_step (h : Settled ctx items n st) (hs : Shape items.length n st)
    (hn : items[n]? = some item) (hv : ctx.tier1Verify = .off) :
    ∀ key gid, (groupItem ctx st n item).hashToGroup.get key = some gid → ∀ l < n + 1,
      Leader ctx items l → tier2KeyAt ctx items l = key →
        ((groupItem ctx st n item).group gid).boundMid = (itemAt items l).mid := by
  intro key gid hget l hl hlead hkey
  rcases h.hash_cases hs hn hv hget with hold | ⟨hnone, _, _, hseeds, rfl⟩
  · obtain ⟨a, ha, _⟩ := h.hashEntry key gid hold
    obtain ⟨g, hg, _⟩ := At.exists_group ha
    rcases Nat.lt_succ_iff_lt_or_eq.mp hl with hlt | rfl
    · have hbound := h.led key gid hold l hlt hlead hkey
      obtain ⟨m, hm⟩ := Option.ne_none_iff_exists'.mp hlead.1.2
      rw [group_eq hg, hm] at hbound
      obtain ⟨g', hg', _, hmono⟩ := @groups_mono _ ctx _ n item _ _ hg
      rw [group_eq hg', hmono m hbound, hm]
    · -- the item leads the key of an unbound group: it joins and binds it
      rw [← hkey] at hold
      have hb := (h.leader_iff hlead.1 hold).mp hlead
      have hmiss := (h.fresh_iff hs hn hv).mp hlead.core.fresh
      have hslot : tier2Slot ctx st item = some gid := by
        rw [get_of_bindable hn hlead.1.1.2, hold]
      have hjoin : lookup ctx st item = .tier2 gid := by
        apply lookup_of_tier2 hmiss hslot
        rw [midJoinCompatible_fst, hb]
        exact Or.inl rfl
      have hg' : (groupItem ctx st l item).groups[gid]? = some (g.absorb l item.mid) := by
        rw [groups_tier2 hjoin, getElem?_modify_eq, hg]
        rfl
      rw [group_eq hg] at hb
      rw [group_eq hg', itemAt_eq hn]
      show g.boundMid.or item.mid = item.mid
      rw [hb]
      rfl
  · rcases Nat.lt_succ_iff_lt_or_eq.mp hl with hlt | rfl
    · rw [← hkey] at hnone
      exact absurd hnone (h.hashHeld l hlt hlead.1.1)
    · have hg' : (groupItem ctx st l item).groups[st.groups.length]? = some (seedGroup ctx l item) := by
        rw [groups_seed hseeds]
        simp
      rw [group_eq hg', itemAt_eq hn]
      rfl

theorem bound_step (h : Settled ctx items n st) (hs : Shape items.length n st)
    (hn : items[n]? = some item) (hv : ctx.tier1Verify = .off) :
    ∀ key gid, (groupItem ctx st n item).hashToGroup.get key = some gid →
      ((groupItem ctx st n item).group gid).boundMid ≠ none →
        ∃ l < n + 1, Leader ctx items l ∧ tier2KeyAt ctx items l = key := by
  intro key gid hget hb
  rcases h.hash_cases hs hn hv hget with hold | ⟨hnone, hcand, hkey, hseeds, rfl⟩
  · have hearlier : (st.group gid).boundMid ≠ none →
        ∃ l < n + 1, Leader ctx items l ∧ tier2KeyAt ctx items l = key := by
      intro hb
      obtain ⟨l, hl, hlead⟩ := h.bound key gid hold hb
      exact ⟨l, by omega, hlead⟩
    obtain ⟨a, ha, hcorea, hakey⟩ := h.hashEntry key gid hold
    obtain ⟨g, hg, _⟩ := At.exists_group ha
    obtain ⟨g', hg', _⟩ := @groups_mono _ ctx _ n item _ _ hg
    rw [group_eq hg'] at hb
    rcases boundMid_groupItem (List.getElem?_eq_some_iff.mp hg).1 hg' hb with hb | ⟨hl, hm⟩
    · exact hearlier hb
    · by_cases hb : (st.group gid).boundMid = none
      · obtain ⟨hcore, c, hc, hcorec, hckey⟩ := h.tier2 hs hn hv hl
        rw [← itemAt_eq hn] at hm
        refine ⟨n, Nat.lt_succ_self n, h.leader_of_bound_none hn hl hb ⟨hcore.1, hm⟩, ?_⟩
        -- the group has one content key
        rw [← hckey, ← hakey]
        exact (together_core_iff hcorec hcorea).mp ((h.classes gid gid c a hc ha).mp rfl)
      · exact hearlier hb
  · have hg' : (groupItem ctx st n item).groups[st.groups.length]? = some (seedGroup ctx n item) := by
      rw [groups_seed hseeds]
      simp
    rw [group_eq hg'] at hb
    have hm : (itemAt items n).mid ≠ none := by
      rw [itemAt_eq hn]
      exact hb
    exact ⟨n, Nat.lt_succ_self n, h.leader_of_get_none ⟨hcand, hm⟩ (by rw [hkey, hnone]), hkey⟩

theorem step (h : Settled ctx items n st) (hs : Shape items.length n st)
    (hn : items[n]? = some item) (hv : ctx.tier1Verify = .off) :
    Settled ctx items (n + 1) (groupItem ctx st n item) where
  classes := h.classes_step hs hn hv
  midEntry := h.mid_step hs hn hv
  midHeld := h.midHeld_step hs hn hv
  hashEntry := h.hash_step hs hn hv
  hashHeld := h.hashHeld_step hs hn hv
  led := h.led_step hs hn hv
  bound := h.bound_step hs hn hv

theorem init (total : Nat) : Settled ctx items 0 (.init total) where
  classes := by
    rintro x y i j ⟨g, hg, _⟩
    cases hg
  midEntry := by
    intro key gid h
    simp [GroupingState.init] at h
  midHeld := fun a ha => absurd ha (Nat.not_lt_zero a)
  hashEntry := by
    intro key gid h
    simp [GroupingState.init] at h
  hashHeld := fun a ha => absurd ha (Nat.not_lt_zero a)
  led := fun _ _ _ l hl => absurd hl (Nat.not_lt_zero l)
  bound := by
    intro key gid h
    simp [GroupingState.init] at h

end Settled

theorem settled_groupLoop (ctx : GroupingContext) (items : List RecoverableScanItem)
    (hv : ctx.tier1Verify = .off) : Settled ctx items items.length (groupLoop ctx items) := by
  have hrun : (Shape items.length items.length (groupLoop ctx items) ∧
      Grounded ctx items (groupLoop ctx items)) ∧ Settled ctx items items.length (groupLoop ctx items) := by
    unfold groupLoop
    apply Foundations.enumFold_induction
      (P := fun n st => (Shape items.length n st ∧ Grounded ctx items st) ∧ Settled ctx items n st)
    · exact ⟨⟨shape_init _, grounded_init _⟩, .init _⟩
    · intro n item st hn h
      exact ⟨⟨h.1.1.step h.1.2 hn, h.1.2.step hn⟩, h.2.step h.1.1 hn hv⟩
  exact hrun.2

theorem classes_groupLoop (hv : ctx.tier1Verify = .off) {i j : Nat} (hi : i < items.length)
    (hj : j < items.length) :
    (∃ g ∈ (groupLoop ctx items).buckets, i ∈ g ∧ j ∈ g) ↔ Together ctx items i j := by
  have hpart := (shape_groupLoop ctx items).partition
  have hclasses := (settled_groupLoop ctx items hv).classes
  have hat : ∀ {g : List Nat} {k : Nat}, g ∈ (groupLoop ctx items).buckets → k ∈ g →
      ∃ x, (groupLoop ctx items).buckets[x]? = some g ∧ At (groupLoop ctx items).buckets x k := by
    intro g k hg hk
    obtain ⟨x, hx⟩ := List.mem_iff_getElem?.mp hg
    exact ⟨x, hx, g, hx, hk⟩
  constructor
  · rintro ⟨g, hg, hig, hjg⟩
    obtain ⟨x, hx, hix⟩ := hat hg hig
    exact (hclasses x x i j hix ⟨g, hx, hjg⟩).mp rfl
  · intro h
    obtain ⟨g, hg, hig⟩ := hpart.exists_mem hi
    obtain ⟨g', hg', hjg⟩ := hpart.exists_mem hj
    obtain ⟨x, hx, hix⟩ := hat hg hig
    obtain ⟨y, hy, hjy⟩ := hat hg' hjg
    obtain rfl := (hclasses x y i j hix hjy).mpr h
    obtain rfl : g = g' := Option.some.inj (hx.symm.trans hy)
    exact ⟨g, hg, hig, hjg⟩

end DedupEngine
