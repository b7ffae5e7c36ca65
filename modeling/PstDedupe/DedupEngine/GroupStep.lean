import PstDedupe.DedupEngine.GroupCandidates

/-!
# What one item does to the groups

`groupItem` read as a transition: which lookup leads where (`lookup_tier1` … `lookup_fresh`), the
groups after the step (`groups_tier1`, `groups_tier2`, `groups_seed`) and where an entry of the two
maps can come from.
-/

namespace DedupEngine

open List Option

open Rust (Bytes32 HashMap)

variable [Rust.Target] {ctx : GroupingContext} {st : GroupingState} {i gid : Nat}
  {item : RecoverableScanItem}

omit [Rust.Target] in
theorem group_eq {g : Group} (h : st.groups[gid]? = some g) : st.group gid = g := by
  unfold GroupingState.group
  rw [getD_eq_getElem?_getD, h]
  rfl

theorem tier1Find_eq_some (h : tier1Find ctx st item = some gid) :
    ∃ key, item.tier1Key ctx = some key ∧ st.midToGroup.get key = some gid ∧
      tier1Splits ctx item (st.group gid) = false := by
  unfold tier1Find tier1Slot at h
  obtain ⟨hslot, hsplit⟩ := Option.filter_eq_some_iff.mp h
  obtain ⟨key, hkey, hget⟩ := Option.bind_eq_some_iff.mp hslot
  exact ⟨key, hkey, hget, by simpa using hsplit⟩

theorem tier2Slot_eq_some (h : tier2Slot ctx st item = some gid) :
    ctx.tier2Enabled = true ∧ item.eligible ctx = true ∧
      st.hashToGroup.get (item.tier2Key ctx) = some gid := by
  unfold tier2Slot at h
  split at h
  · rename_i hon
    rw [Bool.and_eq_true] at hon
    exact ⟨hon.1, hon.2, h⟩
  · cases h

theorem lookup_of_tier1Find (h : tier1Find ctx st item = some gid) : lookup ctx st item = .tier1 gid := by
  unfold lookup
  rw [h]

theorem lookup_of_fresh (hfind : tier1Find ctx st item = none)
    (hslot : tier2Slot ctx st item = none) : lookup ctx st item = .fresh := by
  unfold lookup
  rw [hfind, hslot]

theorem lookup_of_tier2 (hfind : tier1Find ctx st item = none)
    (hslot : tier2Slot ctx st item = some gid)
    (hok : (midJoinCompatible (st.group gid).boundMid item.mid ctx.blockCrossMid).1 = true) :
    lookup ctx st item = .tier2 gid := by
  unfold lookup
  rw [hfind, hslot]
  exact if_pos hok

theorem lookup_of_crossMid (hfind : tier1Find ctx st item = none)
    (hslot : tier2Slot ctx st item = some gid)
    (hok : ¬ (midJoinCompatible (st.group gid).boundMid item.mid ctx.blockCrossMid).1 = true) :
    lookup ctx st item = .crossMid gid := by
  unfold lookup
  rw [hfind, hslot]
  exact if_neg hok

theorem lookup_tier1 (h : lookup ctx st item = .tier1 gid) : tier1Find ctx st item = some gid := by
  unfold lookup at h
  split at h
  · rename_i g hg
    cases h
    exact hg
  · split at h
    · cases h
    · split at h <;> cases h

theorem lookup_tier2 (h : lookup ctx st item = .tier2 gid) :
    tier1Find ctx st item = none ∧ tier2Slot ctx st item = some gid ∧
      (midJoinCompatible (st.group gid).boundMid item.mid ctx.blockCrossMid).1 = true := by
  unfold lookup at h
  split at h
  · cases h
  · rename_i hfind
    split at h
    · cases h
    · rename_i g hg
      split at h
      · rename_i hok
        cases h
        exact ⟨hfind, hg, hok⟩
      · cases h

theorem lookup_crossMid (h : lookup ctx st item = .crossMid gid) :
    tier1Find ctx st item = none ∧ tier2Slot ctx st item = some gid ∧
      (midJoinCompatible (st.group gid).boundMid item.mid ctx.blockCrossMid).1 = false := by
  unfold lookup at h
  split at h
  · cases h
  · rename_i hfind
    split at h
    · cases h
    · rename_i g hg
      split at h
      · cases h
      · rename_i hok
        cases h
        exact ⟨hfind, hg, by simpa using hok⟩

theorem lookup_fresh (h : lookup ctx st item = .fresh) :
    tier1Find ctx st item = none ∧ tier2Slot ctx st item = none := by
  unfold lookup at h
  split at h
  · cases h
  · rename_i hfind
    split at h
    · rename_i hslot
      exact ⟨hfind, hslot⟩
    · split at h <;> cases h

def Lookup.seeds : Lookup → Bool
  | .crossMid _ | .fresh => true
  | .tier1 _ | .tier2 _ => false

theorem tier1Find_of_seeds (h : (lookup ctx st item).seeds = true) : tier1Find ctx st item = none := by
  cases hl : lookup ctx st item with
  | tier1 g => simp [hl, Lookup.seeds] at h
  | tier2 g => simp [hl, Lookup.seeds] at h
  | crossMid g => exact (lookup_crossMid hl).1
  | fresh => exact (lookup_fresh hl).1

/-- A group after item `i` joined; a content joiner also offers its Message-ID. -/
def Group.absorb (g : Group) (i : Nat) (mid : Option String) : Group :=
  { g with members := g.members ++ [i], boundMid := g.boundMid.or mid }

def seedGroup (ctx : GroupingContext) (i : Nat) (item : RecoverableScanItem) : Group where
  members := [i]
  boundMid := item.mid
  fp := item.fingerprints
  bindHash := item.tier2BindHash ctx.identity

theorem adopt_groups : (st.adopt ctx gid item).groups =
    st.groups.modify gid fun g => { g with boundMid := g.boundMid.or item.mid } := by
  unfold GroupingState.adopt
  have hid : ∀ l : List Group, ∀ k, (∀ g, l[k]? = some g → g.boundMid.or item.mid = g.boundMid) →
      l.modify k (fun g => { g with boundMid := g.boundMid.or item.mid }) = l := by
    intro l k hk
    apply ext_getElem?
    intro j
    rw [getElem?_modify]
    cases hj : l[j]? with
    | none => rfl
    | some g =>
      by_cases hkj : k = j
      · subst hkj; simp [hk g hj]
      · simp [hkj]
  cases hb : (st.group gid).boundMid with
  | some b =>
    -- a bound group keeps its Message-ID
    have hkeep : ∀ g, st.groups[gid]? = some g → g.boundMid.or item.mid = g.boundMid := by
      intro g hg
      have : g.boundMid = some b := by
        simpa [GroupingState.group, getD_eq_getElem?_getD, hg] using hb
      simp [this]
    rw [hid _ _ hkeep]
    split <;> simp
  | none =>
    rw [midJoinCompatible_snd_of_none, RecoverableScanItem.midPresent_mid]
    cases hm : item.mid with
    | none => simpa [hm] using (hid st.groups gid (by simp [hm])).symm
    | some m =>
      simp only [isNone_none, if_true]
      apply ext_getElem?
      intro j
      rw [getElem?_modify, getElem?_modify]
      by_cases hgj : gid = j
      · subst hgj
        cases hj : st.groups[gid]? with
        | none => rfl
        | some g =>
          have : g.boundMid = none := by
            simpa [GroupingState.group, getD_eq_getElem?_getD, hj] using hb
          simp [this]
      · simp [hgj]

theorem groups_tier1 (h : lookup ctx st item = .tier1 gid) :
    (groupItem ctx st i item).groups = st.groups.modify gid (·.absorb i none) := by
  simp only [groupItem, h, GroupingState.join, GroupingState.note, Group.absorb, or_none]

theorem groups_tier2 (h : lookup ctx st item = .tier2 gid) :
    (groupItem ctx st i item).groups = st.groups.modify gid (·.absorb i item.mid) := by
  simp only [groupItem, h, GroupingState.join, adopt_groups, modify_modify_eq]
  rfl

theorem groups_seed (h : (lookup ctx st item).seeds = true) :
    (groupItem ctx st i item).groups = st.groups ++ [seedGroup ctx i item] := by
  cases hl : lookup ctx st item with
  | tier1 g => simp [hl, Lookup.seeds] at h
  | tier2 g => simp [hl, Lookup.seeds] at h
  | crossMid g => simp only [groupItem, hl]; rfl
  | fresh => simp only [groupItem, hl]; rfl

theorem mem_groups_groupItem {g : Group} (h : g ∈ (groupItem ctx st i item).groups) : g ∈ st.groups ∨
      (∃ gid g₀, lookup ctx st item = .tier1 gid ∧ st.groups[gid]? = some g₀ ∧ g = g₀.absorb i none) ∨
      (∃ gid g₀, lookup ctx st item = .tier2 gid ∧ st.groups[gid]? = some g₀ ∧ g = g₀.absorb i item.mid) ∨
      ((lookup ctx st item).seeds = true ∧ g = seedGroup ctx i item) := by
  have hmod : ∀ {k : Nat} {f : Group → Group}, g ∈ st.groups.modify k f →
      g ∈ st.groups ∨ ∃ g₀, st.groups[k]? = some g₀ ∧ g = f g₀ := by
    intro k f hg
    obtain ⟨j, hj⟩ := List.mem_iff_getElem?.mp hg
    rw [getElem?_modify] at hj
    obtain ⟨g₀, hg₀, rfl⟩ := Option.map_eq_some_iff.mp hj
    by_cases hkj : k = j
    · subst hkj; exact Or.inr ⟨g₀, hg₀, by simp⟩
    · simp only [hkj, if_false]; exact Or.inl (mem_of_getElem? hg₀)
  cases hl : lookup ctx st item with
  | tier1 k =>
    rw [groups_tier1 hl] at h
    rcases hmod h with h | ⟨g₀, hg₀, rfl⟩
    · exact Or.inl h
    · exact Or.inr (Or.inl ⟨k, g₀, rfl, hg₀, rfl⟩)
  | tier2 k =>
    rw [groups_tier2 hl] at h
    rcases hmod h with h | ⟨g₀, hg₀, rfl⟩
    · exact Or.inl h
    · exact Or.inr (Or.inr (Or.inl ⟨k, g₀, rfl, hg₀, rfl⟩))
  | crossMid _ | fresh =>
    rw [groups_seed (by rw [hl]; rfl)] at h
    rcases List.mem_append.mp h with h | h
    · exact Or.inl h
    · exact Or.inr (Or.inr (Or.inr ⟨rfl, List.mem_singleton.mp h⟩))

theorem groups_mono {k : Nat} {g : Group} (h : st.groups[k]? = some g) :
    ∃ g', (groupItem ctx st i item).groups[k]? = some g' ∧ g.members ⊆ g'.members ∧
      (∀ m, g.boundMid = some m → g'.boundMid = some m) := by
  have hmod : ∀ (k' : Nat) (m : Option String),
      ∃ g', (st.groups.modify k' (·.absorb i m))[k]? = some g' ∧ g.members ⊆ g'.members ∧
        (∀ m, g.boundMid = some m → g'.boundMid = some m) := by
    intro k' m
    rw [getElem?_modify, h]
    by_cases hk : k' = k
    · refine ⟨g.absorb i m, by simp [hk], ?_, ?_⟩
      · exact subset_append_left _ _
      · intro b hb
        show g.boundMid.or m = some b
        rw [hb]; rfl
    · exact ⟨g, by simp [hk], Subset.refl _, fun _ hb => hb⟩
  cases hl : lookup ctx st item with
  | tier1 k' => rw [groups_tier1 hl]; exact hmod k' none
  | tier2 k' => rw [groups_tier2 hl]; exact hmod k' item.mid
  | crossMid _ | fresh =>
    rw [groups_seed (by rw [hl]; rfl), getElem?_append_left (List.getElem?_eq_some_iff.mp h).1]
    exact ⟨g, h, Subset.refl _, fun _ hb => hb⟩

theorem boundMid_groupItem {g' : Group} {k : Nat} (hk : k < st.groups.length)
    (h : (groupItem ctx st i item).groups[k]? = some g') (hb : g'.boundMid ≠ none) :
    (st.group k).boundMid ≠ none ∨ (lookup ctx st item = .tier2 k ∧ item.mid ≠ none) := by
  obtain ⟨g, hg⟩ : ∃ g, st.groups[k]? = some g := ⟨_, getElem?_eq_getElem hk⟩
  rw [group_eq hg]
  have hkeep : (groupItem ctx st i item).groups[k]? = some g → g.boundMid ≠ none := by
    intro hsame
    rw [h] at hsame
    rwa [← Option.some.inj hsame]
  have hmod : ∀ (k' : Nat) (m : Option String),
      (groupItem ctx st i item).groups = st.groups.modify k' (·.absorb i m) →
        g.boundMid ≠ none ∨ (k' = k ∧ m ≠ none) := by
    intro k' m hgroups
    by_cases heq : k' = k
    · subst heq
      rw [hgroups, getElem?_modify_eq, hg] at h
      obtain rfl : g.absorb i m = g' := Option.some.inj h
      cases hgb : g.boundMid with
      | some b => exact Or.inl (some_ne_none b)
      | none => exact Or.inr ⟨rfl, by simpa [Group.absorb, hgb] using hb⟩
    · refine Or.inl (hkeep ?_)
      rw [hgroups, getElem?_modify_ne _ _ heq, hg]
  cases hl : lookup ctx st item with
  | tier1 k' =>
    rcases hmod k' none (groups_tier1 hl) with h' | ⟨_, h'⟩
    · exact Or.inl h'
    · exact absurd rfl h'
  | tier2 k' =>
    rcases hmod k' item.mid (groups_tier2 hl) with h' | ⟨rfl, h'⟩
    · exact Or.inl h'
    · exact Or.inr ⟨rfl, h'⟩
  | crossMid _ | fresh =>
    refine Or.inl (hkeep ?_)
    rw [groups_seed (by rw [hl]; rfl), getElem?_append_left hk, hg]

theorem adopt_midToGroup : (st.adopt ctx gid item).midToGroup =
    match (st.group gid).boundMid, item.tier1Key ctx with
    | none, some key => st.midToGroup.orInsert key gid
    | _, _ => st.midToGroup := by
  unfold GroupingState.adopt RecoverableScanItem.tier1Key
  cases hb : (st.group gid).boundMid with
  | some b => split <;> simp
  | none =>
    rw [midJoinCompatible_snd_of_none, RecoverableScanItem.midPresent_mid]
    cases item.mid <;> rfl

@[simp] theorem adopt_hashToGroup : (st.adopt ctx gid item).hashToGroup = st.hashToGroup := by
  unfold GroupingState.adopt
  split
  · rfl
  · split <;> rfl

@[simp] theorem adopt_boundBy : (st.adopt ctx gid item).boundBy = st.boundBy := by
  unfold GroupingState.adopt
  split
  · rfl
  · split <;> rfl

theorem midToGroup_tier1 (h : lookup ctx st item = .tier1 gid) :
    (groupItem ctx st i item).midToGroup = st.midToGroup := by
  simp only [groupItem, h, GroupingState.join, GroupingState.note]

theorem midToGroup_tier2 (h : lookup ctx st item = .tier2 gid) :
      (groupItem ctx st i item).midToGroup = match (st.group gid).boundMid, item.tier1Key ctx with
      | none, some key => st.midToGroup.orInsert key gid
      | _, _ => st.midToGroup := by
  simp only [groupItem, h, GroupingState.join, adopt_midToGroup]
  rfl

theorem midToGroup_seed (h : (lookup ctx st item).seeds = true) :
      (groupItem ctx st i item).midToGroup = match item.tier1Key ctx with
      | some key => AList.insert key st.groups.length st.midToGroup
      | none => st.midToGroup := by
  cases hl : lookup ctx st item with
  | tier1 g => simp [hl, Lookup.seeds] at h
  | tier2 g => simp [hl, Lookup.seeds] at h
  | crossMid g => simp only [groupItem, hl]; rfl
  | fresh => simp only [groupItem, hl]; rfl

theorem hashToGroup_join (h : (lookup ctx st item).seeds = false) :
    (groupItem ctx st i item).hashToGroup = st.hashToGroup := by
  cases hl : lookup ctx st item with
  | tier1 g => simp only [groupItem, hl, GroupingState.join, GroupingState.note]
  | tier2 g => simp only [groupItem, hl, GroupingState.join, adopt_hashToGroup, GroupingState.note]
  | crossMid g => simp [hl, Lookup.seeds] at h
  | fresh => simp [hl, Lookup.seeds] at h

theorem hashToGroup_seed (h : (lookup ctx st item).seeds = true) :
      (groupItem ctx st i item).hashToGroup = if ctx.tier2Enabled && item.eligible ctx then
        st.hashToGroup.orInsert (item.tier2Key ctx) st.groups.length
      else st.hashToGroup := by
  cases hl : lookup ctx st item with
  | tier1 g => simp [hl, Lookup.seeds] at h
  | tier2 g => simp [hl, Lookup.seeds] at h
  | crossMid g => simp only [groupItem, hl]; rfl
  | fresh => simp only [groupItem, hl]; rfl

theorem midToGroup_groupItem {key : String}
    (h : (groupItem ctx st i item).midToGroup.get key = some gid) : st.midToGroup.get key
      = some gid ∨ (item.tier1Key ctx = some key ∧ ((lookup ctx st item = .tier2 gid ∧
            ∀ g, st.groups[gid]? = some g → g.boundMid = none) ∨
          ((lookup ctx st item).seeds = true ∧ gid = st.groups.length))) := by
  have hseed : (lookup ctx st item).seeds = true → st.midToGroup.get key = some gid ∨
        (item.tier1Key ctx = some key ∧ gid = st.groups.length) := by
    intro hs
    rw [midToGroup_seed hs] at h
    split at h
    · rename_i k hk
      rw [HashMap.get_insert] at h
      by_cases heq : key = k
      · subst heq
        exact Or.inr ⟨hk, by simpa using h.symm⟩
      · simp only [heq, if_false] at h
        exact Or.inl h
    · exact Or.inl h
  cases hl : lookup ctx st item with
  | tier1 g =>
    rw [midToGroup_tier1 hl] at h
    exact Or.inl h
  | tier2 g =>
    rw [midToGroup_tier2 hl] at h
    split at h
    · rename_i k hbound hk
      rw [HashMap.get_orInsert] at h
      by_cases heq : key = k
      · subst heq
        simp only [if_true] at h
        -- an older entry for the Message-ID stays
        cases hold : st.midToGroup.get key with
        | some g' =>
          rw [hold] at h
          exact Or.inl h
        | none =>
          rw [hold, getD_none, Option.some.injEq] at h
          subst h
          refine Or.inr ⟨hk, Or.inl ⟨rfl, ?_⟩⟩
          intro g' hg'
          rw [← group_eq hg']
          exact hbound
      · simp only [heq, if_false] at h
        exact Or.inl h
    · exact Or.inl h
  | crossMid _ | fresh =>
    rcases hseed (by rw [hl]; rfl) with h | ⟨hk, hg⟩
    · exact Or.inl h
    · exact Or.inr ⟨hk, Or.inr ⟨rfl, hg⟩⟩

theorem hashToGroup_groupItem {key : List UInt8}
    (h : (groupItem ctx st i item).hashToGroup.get key = some gid) : st.hashToGroup.get key
      = some gid ∨ (ctx.tier2Enabled = true ∧ item.eligible ctx = true ∧ item.tier2Key ctx = key ∧
        (lookup ctx st item).seeds = true ∧ gid = st.groups.length) := by
  cases hs : (lookup ctx st item).seeds with
  | false =>
    rw [hashToGroup_join hs] at h
    exact Or.inl h
  | true =>
    rw [hashToGroup_seed hs] at h
    split at h
    · rename_i hon
      rw [Bool.and_eq_true] at hon
      rw [HashMap.get_orInsert] at h
      by_cases heq : key = item.tier2Key ctx
      · subst heq
        cases hold : st.hashToGroup.get (item.tier2Key ctx) with
        | some g' => simp only [if_true, hold] at h; exact Or.inl h
        | none =>
          simp only [if_true, hold, getD_none, Option.some.injEq] at h
          exact Or.inr ⟨hon.1, hon.2, rfl, rfl, h.symm⟩
      · simp only [heq, if_false] at h
        exact Or.inl h
    · exact Or.inl h

theorem hashToGroup_mono {key : List UInt8} (h : st.hashToGroup.get key = some gid) :
    (groupItem ctx st i item).hashToGroup.get key = some gid := by
  cases hs : (lookup ctx st item).seeds with
  | false => rwa [hashToGroup_join hs]
  | true =>
    rw [hashToGroup_seed hs]
    split
    · rw [HashMap.get_orInsert]
      by_cases heq : key = item.tier2Key ctx
      · subst heq
        simp [h]
      · simp [heq, h]
    · exact h

theorem midToGroup_mono {key : String} (h : st.midToGroup.get key ≠ none) :
    (groupItem ctx st i item).midToGroup.get key ≠ none := by
  have hinsert : ∀ k g, HashMap.get (AList.insert k g st.midToGroup) key ≠ none := by
    intro k g
    rw [HashMap.get_insert]
    split
    · simp
    · exact h
  have horInsert : ∀ k g, (st.midToGroup.orInsert k g).get key ≠ none := by
    intro k g
    rw [HashMap.get_orInsert]
    split
    · simp
    · exact h
  cases hl : lookup ctx st item with
  | tier1 g => rwa [midToGroup_tier1 hl]
  | tier2 g =>
    rw [midToGroup_tier2 hl]
    split
    · exact horInsert _ _
    · exact h
  | crossMid _ | fresh =>
    rw [midToGroup_seed (by rw [hl]; rfl)]
    split
    · exact hinsert _ _
    · exact h

def Lookup.boundBy (ctx : GroupingContext) : Lookup → BoundBy
  | .tier1 _ => .messageId
  | .tier2 _ => boundByForTier2 ctx
  | .crossMid _ | .fresh => .seed

theorem boundBy_groupItem :
    (groupItem ctx st i item).boundBy = st.boundBy.set i ((lookup ctx st item).boundBy ctx) := by
  cases hl : lookup ctx st item <;>
    simp only [groupItem, hl, GroupingState.join, GroupingState.seed, GroupingState.note,
      adopt_boundBy, Lookup.boundBy]

omit [Rust.Target] in
theorem boundByForTier2_ne_seed : boundByForTier2 ctx ≠ .seed := by
  unfold boundByForTier2
  split <;> decide

omit [Rust.Target] in
theorem lookup_boundBy_eq_seed {l : Lookup} : l.boundBy ctx = .seed ↔ l.seeds = true := by
  cases l <;> simp [Lookup.boundBy, Lookup.seeds, boundByForTier2_ne_seed]

end DedupEngine
