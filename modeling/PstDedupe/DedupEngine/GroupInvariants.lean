import PstDedupe.DedupEngine.GroupStep

/-!
# What holds of the groups after any number of items

The invariant of the grouping loop, in two layers that each name what one step must preserve:
`shape_groupLoop` and `grounded_groupLoop` carry both over a whole run.
-/

namespace DedupEngine

open List

open Rust (Bytes32 HashMap)
open Foundations (ScanPartition place)

variable [Rust.Target]

/-- One tier-1 key. -/
def MidLink (ctx : GroupingContext) (a b : RecoverableScanItem) : Prop :=
  ∃ key, a.tier1Key ctx = some key ∧ b.tier1Key ctx = some key

/-- One tier-2 key, and both may bind by it. -/
def ContentLink (ctx : GroupingContext) (a b : RecoverableScanItem) : Prop :=
  ctx.tier2Enabled = true ∧ a.eligible ctx = true ∧ b.eligible ctx = true ∧ a.tier2Key ctx = b.tier2Key ctx

def BindLink (ctx : GroupingContext) (a b : RecoverableScanItem) : Prop :=
  MidLink ctx a b ∨ ContentLink ctx a b

def GroupingState.buckets (st : GroupingState) : List (List Nat) := st.groups.map Group.members

def Lookup.target : Lookup → Option Nat
  | .tier1 gid | .tier2 gid => some gid
  | .crossMid _ | .fresh => none

variable {ctx : GroupingContext} {st : GroupingState} {i n : Nat} {item : RecoverableScanItem}
  {items : List RecoverableScanItem}

theorem buckets_groupItem :
    (groupItem ctx st i item).buckets = place st.buckets i (lookup ctx st item).target := by
  have habsorb : ∀ (m : Option String) (g : Group), (g.absorb i m).members = g.members ++ [i] :=
    fun _ _ => rfl
  unfold GroupingState.buckets
  cases hl : lookup ctx st item with
  | tier1 gid => rw [groups_tier1 hl]; exact Foundations.map_modify (habsorb none) _ _
  | tier2 gid => rw [groups_tier2 hl]; exact Foundations.map_modify (habsorb item.mid) _ _
  | crossMid _ | fresh =>
    rw [groups_seed (by rw [hl]; rfl), map_append]
    rfl

/-- The members tagged `Seed` are the first ones of their groups. -/
def SeedTags (boundBy : List BoundBy) (gs : List (List Nat)) : Prop :=
  ∀ g ∈ gs, ∀ i ∈ g, boundBy[i]? = some .seed ↔ g.head? = some i

omit [Rust.Target] in
theorem SeedTags.place {boundBy : List BoundBy} {gs : List (List Nat)} {bb : BoundBy}
    {target : Option Nat} (h : SeedTags boundBy gs) (hpart : ScanPartition gs n)
    (hlen : n < boundBy.length) (hbb : bb = .seed ↔ target = none) :
    SeedTags (boundBy.set n bb) (Foundations.place gs n target) := by
  have hold : ∀ g ∈ gs, ∀ j ∈ g, (boundBy.set n bb)[j]? = boundBy[j]? := by
    intro g hg j hj
    rw [getElem?_set_ne]
    exact Nat.ne_of_gt (hpart.lt_of_mem hg hj)
  have hnew : (boundBy.set n bb)[n]? = some bb := by simp [hlen]
  intro g hg j hj
  cases target with
  | none =>
    rcases List.mem_append.mp hg with hg | hg
    · rw [hold g hg j hj]
      exact h g hg j hj
    · rw [List.mem_singleton.mp hg] at hj ⊢
      rw [List.mem_singleton.mp hj, hnew, hbb.mpr rfl]
      simp
  | some k =>
    have hne : bb ≠ .seed := fun hs => by simpa using hbb.mp hs
    rcases Foundations.mem_place_some hg with hg | ⟨g₀, hg₀, rfl⟩
    · rw [hold g hg j hj]
      exact h g hg j hj
    · have hmem := mem_of_getElem? hg₀
      have hhead : (g₀ ++ [n]).head? = g₀.head? :=
        head?_append_of_ne_nil _ (hpart.nonempty g₀ hmem)
      rw [hhead]
      rcases List.mem_append.mp hj with hj | hj
      · rw [hold g₀ hmem j hj]
        exact h g₀ hmem j hj
      · -- the newcomer is neither tagged `Seed` nor first
        rw [List.mem_singleton.mp hj, hnew]
        constructor
        · intro hs
          exact absurd (Option.some.inj hs) hne
        · intro hs
          exact absurd (hpart.lt_of_mem hmem (mem_of_mem_head? hs)) (Nat.lt_irrefl n)

structure Shape (total n : Nat) (st : GroupingState) : Prop where
  partition : ScanPartition st.buckets n
  boundByLength : st.boundBy.length = total
  seedTags : SeedTags st.boundBy st.buckets

structure Grounded (ctx : GroupingContext) (items : List RecoverableScanItem) (st : GroupingState) : Prop where
  midEntry : ∀ key gid, st.midToGroup.get key = some gid → ∃ g, st.groups[gid]? = some g ∧
      ∃ j ∈ g.members, ∃ a, items[j]? = some a ∧ a.tier1Key ctx = some key ∧ g.boundMid = a.mid
  hashEntry : ∀ key gid, st.hashToGroup.get key = some gid →
    ∃ g, st.groups[gid]? = some g ∧ ctx.tier2Enabled = true ∧
      ∃ j ∈ g.members, ∃ a, items[j]? = some a ∧ a.eligible ctx = true ∧ a.tier2Key ctx = key
  boundMid : ∀ g ∈ st.groups, ∀ m, g.boundMid = some m →
    ∃ j ∈ g.members, ∃ a, items[j]? = some a ∧ a.mid = some m
  linked : ∀ g ∈ st.groups, ∀ j ∈ g.members, ∀ k ∈ g.members,
    Relation.EqvGen (LinkedIn items g.members (BindLink ctx)) j k

theorem Grounded.exists_link (h : Grounded ctx items st) (hi : items[i]? = some item) {gid : Nat}
    (ht : (lookup ctx st item).target = some gid) :
    ∃ g, st.groups[gid]? = some g ∧ ∃ j ∈ g.members, OnItems items (BindLink ctx) j i := by
  cases hl : lookup ctx st item with
  | tier1 k =>
    obtain rfl : k = gid := by simpa [hl, Lookup.target] using ht
    obtain ⟨key, hkey, hget, _⟩ := tier1Find_eq_some (lookup_tier1 hl)
    obtain ⟨g, hg, j, hj, a, ha, hak, _⟩ := h.midEntry key k hget
    exact ⟨g, hg, j, hj, a, item, ha, hi, Or.inl ⟨key, hak, hkey⟩⟩
  | tier2 k =>
    obtain rfl : k = gid := by simpa [hl, Lookup.target] using ht
    obtain ⟨hon, hel, hget⟩ := tier2Slot_eq_some (lookup_tier2 hl).2.1
    obtain ⟨g, hg, _, j, hj, a, ha, hael, hak⟩ := h.hashEntry _ k hget
    exact ⟨g, hg, j, hj, a, item, ha, hi, Or.inr ⟨hon, hael, hel, hak⟩⟩
  | crossMid k => simp [hl, Lookup.target] at ht
  | fresh => simp [hl, Lookup.target] at ht

theorem Shape.step (hs : Shape items.length n st) (hg : Grounded ctx items st)
    (hn : items[n]? = some item) : Shape items.length (n + 1) (groupItem ctx st n item) := by
  have hlt : n < items.length := (List.getElem?_eq_some_iff.mp hn).1
  have htag : (lookup ctx st item).boundBy ctx = .seed ↔ (lookup ctx st item).target = none := by
    rw [lookup_boundBy_eq_seed]
    cases lookup ctx st item <;> simp [Lookup.seeds, Lookup.target]
  refine ⟨?_, ?_, ?_⟩
  · rw [buckets_groupItem]
    cases ht : (lookup ctx st item).target with
    | none => exact hs.partition.place_none
    | some gid =>
      obtain ⟨g, hg, _⟩ := hg.exists_link hn ht
      apply hs.partition.place_some
      simpa [GroupingState.buckets] using (List.getElem?_eq_some_iff.mp hg).1
  · rw [boundBy_groupItem, length_set, hs.boundByLength]
  · rw [buckets_groupItem, boundBy_groupItem]
    exact hs.seedTags.place hs.partition (by rw [hs.boundByLength]; exact hlt) htag

theorem linked_absorb {g : Group} {m : Option String}
    (h : ∀ j ∈ g.members, ∀ k ∈ g.members, Relation.EqvGen (LinkedIn items g.members (BindLink ctx)) j k)
    (hlink : ∃ j ∈ g.members, OnItems items (BindLink ctx) j i) :
    ∀ j ∈ (g.absorb i m).members, ∀ k ∈ (g.absorb i m).members,
      Relation.EqvGen (LinkedIn items (g.absorb i m).members (BindLink ctx)) j k := by
  obtain ⟨c, hc, hci⟩ := hlink
  have hold : ∀ j ∈ g.members, j ∈ (g.absorb i m).members := fun j hj => mem_append_left _ hj
  have hnew : i ∈ (g.absorb i m).members := mem_append_right _ (List.mem_singleton.mpr rfl)
  have hto : ∀ j ∈ (g.absorb i m).members,
      Relation.EqvGen (LinkedIn items (g.absorb i m).members (BindLink ctx)) j i := by
    intro j hj
    rcases List.mem_append.mp hj with hj | hj
    · refine .trans _ c _ ?_ (.rel _ _ ⟨hold c hc, hnew, hci⟩)
      refine Relation.EqvGen.eqvGen_le (fun x y hxy => .rel _ _ ?_) j c (h j hj c hc)
      exact ⟨hold x hxy.1, hold y hxy.2.1, hxy.2.2⟩
    · rw [List.mem_singleton.mp hj]
      exact .refl _
  intro j hj k hk
  exact .trans _ _ _ (hto j hj) (.symm _ _ (hto k hk))

theorem Grounded.step (h : Grounded ctx items st) (hi : items[i]? = some item) :
    Grounded ctx items (groupItem ctx st i item) := by
  have hseedGroup : (lookup ctx st item).seeds = true →
      (groupItem ctx st i item).groups[st.groups.length]? = some (seedGroup ctx i item) := by
    intro hs
    rw [groups_seed hs]
    simp
  refine ⟨?_, ?_, ?_, ?_⟩
  · intro key gid hget
    rcases midToGroup_groupItem hget with hold | ⟨hkey, ⟨hl, hbound⟩ | ⟨hs, rfl⟩⟩
    · obtain ⟨g, hg, j, hj, a, ha, hak, hb⟩ := h.midEntry key gid hold
      obtain ⟨g', hg', hsub, hbound⟩ := groups_mono hg
      obtain ⟨m, hm⟩ := RecoverableScanItem.mid_of_tier1Key hak
      refine ⟨g', hg', j, hsub hj, a, ha, hak, ?_⟩
      rw [hm]
      exact hbound m (hb.trans hm)
    · -- adoption: the group had no Message-ID, and the joiner itself is the member
      obtain ⟨g, hg, _⟩ := h.exists_link hi (by rw [hl]; rfl)
      have hnone : g.boundMid = none := hbound g hg
      refine ⟨g.absorb i item.mid, ?_, i, by simp [Group.absorb], item, hi, hkey, ?_⟩
      · rw [groups_tier2 hl, getElem?_modify, hg]
        simp
      · simp [Group.absorb, hnone]
    · exact ⟨_, hseedGroup hs, i, by simp [seedGroup], item, hi, hkey, rfl⟩
  · intro key gid hget
    rcases hashToGroup_groupItem hget with hold | ⟨hon, hel, hkey, hs, rfl⟩
    · obtain ⟨g, hg, hon, j, hj, a, ha, hak⟩ := h.hashEntry key gid hold
      obtain ⟨g', hg', hsub, _⟩ := groups_mono hg
      exact ⟨g', hg', hon, j, hsub hj, a, ha, hak⟩
    · exact ⟨_, hseedGroup hs, hon, i, by simp [seedGroup], item, hi, hel, hkey⟩
  · intro g hg m hm
    rcases mem_groups_groupItem hg with hg | ⟨_, g₀, _, hg₀, rfl⟩ | ⟨_, g₀, _, hg₀, rfl⟩ | ⟨_, rfl⟩
    · exact h.boundMid g hg m hm
    · obtain ⟨j, hj, ha⟩ := h.boundMid g₀ (mem_of_getElem? hg₀) m (by simpa [Group.absorb] using hm)
      exact ⟨j, mem_append_left _ hj, ha⟩
    · cases hb : g₀.boundMid with
      | some b =>
        have hbm : g₀.boundMid = some m := by simpa [Group.absorb, hb] using hm
        obtain ⟨j, hj, ha⟩ := h.boundMid g₀ (mem_of_getElem? hg₀) m hbm
        exact ⟨j, mem_append_left _ hj, ha⟩
      | none =>
        have hmid : item.mid = some m := by simpa [Group.absorb, hb] using hm
        exact ⟨i, by simp [Group.absorb], item, hi, hmid⟩
    · exact ⟨i, by simp [seedGroup], item, hi, hm⟩
  · intro g hg
    rcases mem_groups_groupItem hg with hg | ⟨gid, g₀, hl, hg₀, rfl⟩ | ⟨gid, g₀, hl, hg₀, rfl⟩ |
      ⟨_, rfl⟩
    · exact h.linked g hg
    · obtain ⟨g₁, hg₁, hlink⟩ := h.exists_link hi (show _ = some gid by rw [hl]; rfl)
      obtain rfl : g₀ = g₁ := Option.some.inj (hg₀.symm.trans hg₁)
      exact linked_absorb (h.linked g₀ (mem_of_getElem? hg₀)) hlink
    · obtain ⟨g₁, hg₁, hlink⟩ := h.exists_link hi (show _ = some gid by rw [hl]; rfl)
      obtain rfl : g₀ = g₁ := Option.some.inj (hg₀.symm.trans hg₁)
      exact linked_absorb (h.linked g₀ (mem_of_getElem? hg₀)) hlink
    · intro j hj k hk
      simp only [seedGroup, mem_singleton] at hj hk
      rw [hj, hk]
      exact .refl _

omit [Rust.Target] in
theorem shape_init (total : Nat) : Shape total 0 (.init total) :=
  ⟨ScanPartition.nil, by simp [GroupingState.init], by intro g hg; cases hg⟩

theorem grounded_init (total : Nat) : Grounded ctx items (.init total) := by
  refine ⟨?_, ?_, ?_, ?_⟩
  · intro key gid h
    simp [GroupingState.init] at h
  · intro key gid h
    simp [GroupingState.init] at h
  · intro g hg
    cases hg
  · intro g hg
    cases hg

/-- **The loop invariant after the whole run.** Induction on the items done; `Shape` of the next
state needs `Grounded` of this one, so the two go together. -/
theorem shape_and_grounded (ctx : GroupingContext) (items : List RecoverableScanItem) :
    Shape items.length items.length (groupLoop ctx items) ∧ Grounded ctx items (groupLoop ctx items) := by
  unfold groupLoop
  apply Foundations.enumFold_induction
    (P := fun n st => Shape items.length n st ∧ Grounded ctx items st)
  · exact ⟨shape_init _, grounded_init _⟩
  · intro n item st hn h
    exact ⟨h.1.step h.2 hn, h.2.step hn⟩

theorem shape_groupLoop (ctx : GroupingContext) (items : List RecoverableScanItem) :
    Shape items.length items.length (groupLoop ctx items) :=
  (shape_and_grounded ctx items).1

theorem grounded_groupLoop (ctx : GroupingContext) (items : List RecoverableScanItem) :
    Grounded ctx items (groupLoop ctx items) :=
  (shape_and_grounded ctx items).2

end DedupEngine

/-!
# The loop's groups in closed form

The loop is greedy, but without `--tier1-verify` its groups have a description that names no state.
-/

namespace DedupEngine

open Rust (Bytes32 HashMap)
open List
open Foundations (ScanClasses At)

variable [Rust.Target]

section Description

variable (ctx : GroupingContext) (items : List RecoverableScanItem)

def tier2KeyAt (i : Nat) : List UInt8 := (itemAt items i).tier2Key ctx

def Bindable (i : Nat) : Prop := ctx.tier2Enabled = true ∧ (itemAt items i).eligible ctx = true

/-- No earlier item holds this item's Message-ID: those fresh ones that have it too were absorbed by
a group that an earlier one had bound. -/
def Fresh (i : Nat) : Prop :=
  ∀ j, ∀ _ : j < i, Fresh j → MidLink ctx (itemAt items j) (itemAt items i) →
    ctx.blockCrossMid = false ∧ Bindable ctx items j ∧ ∃ l, ∃ _ : l < j,
      Fresh l ∧ Bindable ctx items l ∧ (itemAt items l).mid ≠ none ∧
        tier2KeyAt ctx items l = tier2KeyAt ctx items j
termination_by i
decreasing_by all_goals omega

def Candidate (i : Nat) : Prop := Fresh ctx items i ∧ Bindable ctx items i

def MidCandidate (i : Nat) : Prop := Candidate ctx items i ∧ (itemAt items i).mid ≠ none

/-- The first candidate of its content key that carries a Message-ID. -/
def Leader (i : Nat) : Prop :=
  MidCandidate ctx items i ∧ ∀ j < i, MidCandidate ctx items j →
    tier2KeyAt ctx items j ≠ tier2KeyAt ctx items i

def Core (i : Nat) : Prop :=
  Candidate ctx items i ∧ (ctx.blockCrossMid = false ∨ (itemAt items i).mid = none ∨ Leader ctx items i)

def Holder (i : Nat) : Prop :=
  Fresh ctx items i ∧ (MidCandidate ctx items i → ctx.blockCrossMid = true ∨ Leader ctx items i)

def Anchor (i a : Nat) : Prop :=
  Fresh ctx items a ∧ (a = i ∨ (a < i ∧ Holder ctx items a ∧ MidLink ctx (itemAt items a) (itemAt items i)))

/-- Two items share a group: they follow one item, or two core items of one content key. -/
def Together (i j : Nat) : Prop :=
  ∃ a b, Anchor ctx items i a ∧ Anchor ctx items j b ∧ (a = b ∨
      (Core ctx items a ∧ Core ctx items b ∧ tier2KeyAt ctx items a = tier2KeyAt ctx items b))

end Description

variable {ctx : GroupingContext} {items : List RecoverableScanItem} {i j k a b n : Nat}

theorem MidLink.symm {x y : RecoverableScanItem} (h : MidLink ctx x y) : MidLink ctx y x := by
  obtain ⟨key, hx, hy⟩ := h
  exact ⟨key, hy, hx⟩

theorem MidLink.trans {x y z : RecoverableScanItem} (h : MidLink ctx x y) (h' : MidLink ctx y z) :
    MidLink ctx x z := by
  obtain ⟨key, hx, hy⟩ := h
  obtain ⟨key', hy', hz⟩ := h'
  obtain rfl : key = key' := Option.some.inj (hy.symm.trans hy')
  exact ⟨key, hx, hz⟩

theorem MidLink.mid_ne_none {x y : RecoverableScanItem} (h : MidLink ctx x y) : x.mid ≠ none := by
  obtain ⟨key, hx, _⟩ := h
  obtain ⟨m, hm⟩ := RecoverableScanItem.mid_of_tier1Key hx
  simp [hm]

theorem exists_leader (h : MidCandidate ctx items i) :
    ∃ l ≤ i, Leader ctx items l ∧ tier2KeyAt ctx items l = tier2KeyAt ctx items i := by
  induction i using Nat.strongRecOn with
  | _ i ih =>
    by_cases hl : Leader ctx items i
    · exact ⟨i, Nat.le_refl i, hl, rfl⟩
    · unfold Leader at hl
      push Not at hl
      obtain ⟨j, hj, hcand, hkey⟩ := hl h
      obtain ⟨l, hle, hlead, hlkey⟩ := ih j hj hcand
      exact ⟨l, by omega, hlead, hlkey.trans hkey⟩

theorem Leader.core (h : Leader ctx items i) : Core ctx items i := ⟨h.1.1, Or.inr (Or.inr h)⟩

theorem Leader.holder (h : Leader ctx items i) : Holder ctx items i :=
  ⟨h.1.1.1, fun _ => Or.inr h⟩

theorem Core.fresh (h : Core ctx items i) : Fresh ctx items i := h.1.1

theorem Leader.unique (hi : Leader ctx items i) (hj : Leader ctx items j)
    (hkey : tier2KeyAt ctx items i = tier2KeyAt ctx items j) : i = j := by
  rcases Nat.lt_trichotomy i j with h | h | h
  · exact absurd hkey (hj.2 i h hi.1)
  · exact h
  · exact absurd hkey.symm (hi.2 j h hj.1)

theorem not_holder (hf : Fresh ctx items i) (h : ¬ Holder ctx items i) :
    MidCandidate ctx items i ∧ ctx.blockCrossMid = false ∧ ¬ Leader ctx items i := by
  unfold Holder at h
  push Not at h
  obtain ⟨hcand, hblock, hlead⟩ := h hf
  exact ⟨hcand, by simpa using hblock, hlead⟩

theorem fresh_iff :
    Fresh ctx items i ↔ ∀ j < i, Holder ctx items j → ¬ MidLink ctx (itemAt items j) (itemAt items i) := by
  constructor
  · intro h j hj hhold hlink
    rw [Fresh] at h
    obtain ⟨hblock, hbind, l, hl, hfl, hbl, hml, hkey⟩ := h j hj hhold.1 hlink
    rcases hhold.2 ⟨⟨hhold.1, hbind⟩, hlink.mid_ne_none⟩ with hb | hlead
    · rw [hblock] at hb; cases hb
    · exact hlead.2 l hl ⟨⟨hfl, hbl⟩, hml⟩ hkey
  · intro h
    rw [Fresh]
    intro j hj hfj hlink
    obtain ⟨hcand, hblock, hlead⟩ := not_holder hfj fun hhold => h j hj hhold hlink
    unfold Leader at hlead
    push Not at hlead
    obtain ⟨l, hl, hlcand, hkey⟩ := hlead hcand
    exact ⟨hblock, hcand.1.2, l, hl, hlcand.1.1, hlcand.1.2, hlcand.2, hkey⟩

theorem Anchor.self (h : Fresh ctx items i) : Anchor ctx items i i := ⟨h, Or.inl rfl⟩

theorem Anchor.le (h : Anchor ctx items i a) : a ≤ i := by
  rcases h.2 with rfl | ⟨hlt, _⟩
  · exact Nat.le_refl a
  · exact Nat.le_of_lt hlt

theorem Anchor.unique (ha : Anchor ctx items i a) (hb : Anchor ctx items i b) : a = b := by
  obtain ⟨hfa, ha⟩ := ha
  obtain ⟨hfb, hb⟩ := hb
  rcases ha with rfl | ⟨hai, hha, hla⟩
  · rcases hb with rfl | ⟨hbi, hhb, hlb⟩
    · rfl
    · exact absurd hlb (fresh_iff.mp hfa b hbi hhb)
  · rcases hb with rfl | ⟨hbi, hhb, hlb⟩
    · exact absurd hla (fresh_iff.mp hfb a hai hha)
    · -- the later of two holders of one Message-ID is not fresh
      rcases Nat.lt_trichotomy a b with hab | hab | hab
      · exact absurd (hla.trans hlb.symm) (fresh_iff.mp hfb a hab hha)
      · exact hab
      · exact absurd (hlb.trans hla.symm) (fresh_iff.mp hfa b hab hhb)

theorem Anchor.of_fresh (h : Anchor ctx items i a) (hi : Fresh ctx items i) : a = i :=
  h.unique (.self hi)

theorem exists_anchor (ctx : GroupingContext) (items : List RecoverableScanItem) (i : Nat) :
    ∃ a, Anchor ctx items i a := by
  by_cases hf : Fresh ctx items i
  · exact ⟨i, .self hf⟩
  · rw [fresh_iff] at hf
    push Not at hf
    obtain ⟨j, hj, hhold, hlink⟩ := hf
    exact ⟨j, hhold.1, Or.inr ⟨hj, hhold, hlink⟩⟩

theorem Together.symm (h : Together ctx items i j) : Together ctx items j i := by
  obtain ⟨a, b, ha, hb, hab⟩ := h
  refine ⟨b, a, hb, ha, ?_⟩
  rcases hab with hab | ⟨hca, hcb, hkey⟩
  · exact Or.inl hab.symm
  · exact Or.inr ⟨hcb, hca, hkey.symm⟩

theorem Together.refl (i : Nat) : Together ctx items i i := by
  obtain ⟨a, ha⟩ := exists_anchor ctx items i
  exact ⟨a, a, ha, ha, Or.inl rfl⟩

theorem Together.trans (h : Together ctx items i j) (h' : Together ctx items j k) :
    Together ctx items i k := by
  obtain ⟨a, b, ha, hb, hab⟩ := h
  obtain ⟨b', c, hb', hc, hbc⟩ := h'
  obtain rfl := hb.unique hb'
  refine ⟨a, c, ha, hc, ?_⟩
  rcases hab with rfl | ⟨hca, hcb, hkey⟩
  · exact hbc
  · rcases hbc with rfl | ⟨_, hcc, hkey'⟩
    · exact Or.inr ⟨hca, hcb, hkey⟩
    · exact Or.inr ⟨hca, hcc, hkey.trans hkey'⟩

theorem Anchor.together (h : Anchor ctx items i a) : Together ctx items i a :=
  ⟨a, a, h, .self h.1, Or.inl rfl⟩

theorem Core.together (ha : Core ctx items a) (hb : Core ctx items b)
    (hkey : tier2KeyAt ctx items a = tier2KeyAt ctx items b) : Together ctx items a b :=
  ⟨a, b, .self ha.fresh, .self hb.fresh, Or.inr ⟨ha, hb, hkey⟩⟩

theorem Together.congr_right (h : Together ctx items j k) : Together ctx items i j ↔ Together ctx items i k :=
  ⟨fun hij => hij.trans h, fun hik => hik.trans h.symm⟩

theorem together_core_iff (ha : Core ctx items a) (hb : Core ctx items b) :
    Together ctx items a b ↔ tier2KeyAt ctx items a = tier2KeyAt ctx items b := by
  constructor
  · rintro ⟨a', b', ha', hb', hab⟩
    obtain rfl := ha'.of_fresh ha.fresh
    obtain rfl := hb'.of_fresh hb.fresh
    rcases hab with rfl | ⟨_, _, hkey⟩
    · rfl
    · exact hkey
  · exact ha.together hb

theorem not_together_of_fresh (hn : Fresh ctx items n) (hin : i < n)
    (h : ∀ c < n, Core ctx items c → Core ctx items n → tier2KeyAt ctx items c ≠ tier2KeyAt ctx items n) :
    ¬ Together ctx items i n := by
  rintro ⟨a, b, ha, hb, hab⟩
  obtain rfl := hb.of_fresh hn
  have hlt := Nat.lt_of_le_of_lt ha.le hin
  rcases hab with rfl | ⟨hca, hcb, hkey⟩
  · exact Nat.lt_irrefl a hlt
  · exact h a hlt hca hcb hkey

end DedupEngine
