import PstDedupe.DedupEngine.Backfill
import PstDedupe.DedupEngine.GroupInvariants

/-!
# The groups rebuilt after a backfill merge

`rebuildGroups` moves every old group into the new group of its root, and `reclassify` retags the
absorbed seeds.
-/

namespace DedupEngine

open List

open Rust (Bytes32 HashMap RandomState)
open Foundations (ScanPartition enumFold)

variable {groups : List BoundGroup} {root : Nat → Nat} {k : Nat} {st : RebuildState}

structure Rebuilt (groups : List BoundGroup) (root : Nat → Nat) (k : Nat) (st : RebuildState) : Prop where
  bound : ∀ r ng, st.rootToNew.get r = some ng → ng < st.newGroups.length
  inj : ∀ r r' ng, st.rootToNew.get r = some ng → st.rootToNew.get r' = some ng → r = r'
  holds : ∀ a g, a < k → groups[a]? = some g → ∃ ng h, st.rootToNew.get (root a) = some ng ∧
    st.newGroups[ng]? = some h ∧ g.members ⊆ h.members
  origin : ∀ ng h, st.newGroups[ng]? = some h → ∀ i ∈ h.members,
    ∃ a g, groups[a]? = some g ∧ i ∈ g.members ∧ st.rootToNew.get (root a) = some ng
  perm : (st.newGroups.map BoundGroup.members).flatten.Perm
    ((groups.take k).map BoundGroup.members).flatten

theorem Rebuilt.openRoot (h : Rebuilt groups root k st) (r : Nat) {st' : RebuildState} {ngid : Nat}
    (ho : st.openRoot groups r = (st', ngid)) : Rebuilt groups root k st' ∧ st'.rootToNew.get r = some ngid ∧
      (∀ c g, st'.newGroups[c]? = some g → c ≠ ngid → g ∈ st.newGroups) := by
  unfold RebuildState.openRoot at ho
  cases hr : st.rootToNew.get r with
  | some ng =>
    rw [hr] at ho
    cases ho
    exact ⟨h, hr, fun c g hc _ => mem_of_getElem? hc⟩
  | none =>
    rw [hr] at ho
    cases ho
    -- the entries of the other roots are untouched
    have hget : ∀ r' ng, st.rootToNew.get r' = some ng →
        HashMap.get (AList.insert r st.newGroups.length st.rootToNew) r' = some ng := by
      intro r' ng hr'
      rw [Rust.HashMap.get_insert, if_neg]
      · exact hr'
      · rintro rfl
        rw [hr] at hr'
        cases hr'
    refine ⟨⟨?_, ?_, ?_, ?_, ?_⟩, ?_, ?_⟩
    · intro r' ng hng
      rw [Rust.HashMap.get_insert] at hng
      rw [length_append, length_singleton]
      split at hng
      · cases hng; omega
      · have := h.bound r' ng hng; omega
    · intro r₁ r₂ ng h₁ h₂
      rw [Rust.HashMap.get_insert] at h₁ h₂
      split at h₁ <;> split at h₂
      · rename_i e₁ e₂
        rw [e₁, e₂]
      · cases h₁
        exact absurd (h.bound _ _ h₂) (Nat.lt_irrefl _)
      · cases h₂
        exact absurd (h.bound _ _ h₁) (Nat.lt_irrefl _)
      · exact h.inj r₁ r₂ ng h₁ h₂
    · intro a g ha hg
      obtain ⟨ng, g', hng, hg', hsub⟩ := h.holds a g ha hg
      refine ⟨ng, g', hget _ _ hng, ?_, hsub⟩
      rw [getElem?_append_left (h.bound _ _ hng)]
      exact hg'
    · intro ng g hg i hi
      rcases Nat.lt_or_ge ng st.newGroups.length with hlt | hge
      · rw [getElem?_append_left hlt] at hg
        obtain ⟨a, g', ha, hi', hng⟩ := h.origin ng g hg i hi
        exact ⟨a, g', ha, hi', hget _ _ hng⟩
      · -- the group just opened is empty
        rw [getElem?_append_right hge] at hg
        cases hk : ng - st.newGroups.length with
        | zero => rw [hk] at hg; cases hg; cases hi
        | succ m => rw [hk] at hg; cases hg
    · simpa using h.perm
    · rw [Rust.HashMap.get_insert, if_pos rfl]
    · intro c g hc hne
      rcases Nat.lt_or_ge c st.newGroups.length with hlt | hge
      · rw [getElem?_append_left hlt] at hc
        exact mem_of_getElem? hc
      · exfalso
        have : c < (st.newGroups ++ [(⟨[], (groups[r]?).bind BoundGroup.boundMid⟩ : BoundGroup)]).length :=
          (List.getElem?_eq_some_iff.mp hc).1
        simp at this
        omega

theorem Rebuilt.step (h : Rebuilt groups root k st) {g : BoundGroup} (hk : groups[k]? = some g) :
    Rebuilt groups root (k + 1) (rebuildStep groups root st k g) := by
  obtain ⟨st', ngid, ho⟩ : ∃ st' ngid, st.openRoot groups (root k) = (st', ngid) := ⟨_, _, rfl⟩
  obtain ⟨h', hroot, _⟩ := h.openRoot (root k) ho
  have hlt := h'.bound _ _ hroot
  simp only [rebuildStep, ho]
  refine ⟨?_, h'.inj, ?_, ?_, ?_⟩
  · intro r ng hng
    rw [length_modify]
    exact h'.bound r ng hng
  · intro a g' ha hg'
    rcases Nat.lt_succ_iff_lt_or_eq.mp ha with ha | rfl
    · obtain ⟨ng, b, hng, hb, hsub⟩ := h'.holds a g' ha hg'
      refine ⟨ng, _, hng, by rw [getElem?_modify, hb]; rfl, ?_⟩
      split
      · exact fun i hi => mem_append_left _ (hsub hi)
      · exact hsub
    · obtain rfl : g = g' := Option.some.inj (hk.symm.trans hg')
      refine ⟨ngid, _, hroot, by rw [getElem?_modify, getElem?_eq_getElem hlt]; rfl, ?_⟩
      simp only [if_true]
      exact fun i hi => mem_append_right _ hi
  · intro ng b hb i hi
    rw [getElem?_modify] at hb
    obtain ⟨b₀, hb₀, rfl⟩ := Option.map_eq_some_iff.mp hb
    by_cases hng : ngid = ng
    · subst hng
      rw [if_pos rfl] at hi
      rcases List.mem_append.mp hi with hi | hi
      · exact h'.origin ngid b₀ hb₀ i hi
      · exact ⟨k, g, hk, hi, hroot⟩
    · rw [if_neg hng] at hi
      exact h'.origin ng b₀ hb₀ i hi
  · have hmap := Foundations.map_modify (p := BoundGroup.members) (g := (· ++ g.members))
      (f := fun b => { members := b.members ++ g.members, boundMid := preferBoundMid b.boundMid g.boundMid })
      (fun _ => rfl) st'.newGroups ngid
    rw [hmap]
    have hlt' : ngid < (st'.newGroups.map BoundGroup.members).length := by simpa using hlt
    refine (Foundations.flatten_modify_append_perm hlt' g.members).trans ?_
    rw [take_add_one, hk, map_append, flatten_append]
    simpa using h'.perm.append_right g.members

theorem rebuildStep_nonempty (h : Rebuilt groups root k st)
    (hne : ∀ b ∈ st.newGroups, b.members ≠ []) {g : BoundGroup} (hg : g.members ≠ []) :
    ∀ b ∈ (rebuildStep groups root st k g).newGroups, b.members ≠ [] := by
  obtain ⟨st', ngid, ho⟩ : ∃ st' ngid, st.openRoot groups (root k) = (st', ngid) := ⟨_, _, rfl⟩
  obtain ⟨_, _, hold⟩ := h.openRoot (root k) ho
  simp only [rebuildStep, ho]
  intro b hb
  obtain ⟨c, hc⟩ := List.mem_iff_getElem?.mp hb
  rw [getElem?_modify] at hc
  obtain ⟨b₀, hb₀, rfl⟩ := Option.map_eq_some_iff.mp hc
  by_cases hcn : ngid = c
  · rw [if_pos hcn]
    simp [hg]
  · rw [if_neg hcn]
    exact hne b₀ (hold c b₀ hb₀ (fun e => hcn e.symm))

theorem rebuilt_all (groups : List BoundGroup) (root : Nat → Nat) (hne : ∀ g ∈ groups, g.members ≠ []) :
    Rebuilt groups root groups.length (enumFold (rebuildStep groups root) {} groups) ∧
      ∀ b ∈ (enumFold (rebuildStep groups root) {} groups).newGroups, b.members ≠ [] := by
  apply Foundations.enumFold_induction
    (P := fun k st => Rebuilt groups root k st ∧ ∀ b ∈ st.newGroups, b.members ≠ [])
  · refine ⟨⟨?_, ?_, ?_, ?_, ?_⟩, ?_⟩
    · intro r ng h; simp at h
    · intro r r' ng h; simp at h
    · intro a g ha; omega
    · intro ng h hh; simp at hh
    · simp
    · intro b hb; cases hb
  · intro k g st hk h
    exact ⟨h.1.step hk, rebuildStep_nonempty h.1 h.2 (hne g (mem_of_getElem? hk))⟩

theorem mem_members_rebuildGroups {b : BoundGroup} (h : b ∈ rebuildGroups groups root) :
    ∃ b₀ ∈ (enumFold (rebuildStep groups root) {} groups).newGroups, b.members = Rust.sortNats b₀.members := by
  obtain ⟨b₀, hb₀, rfl⟩ := List.mem_map.mp h
  exact ⟨b₀, hb₀, rfl⟩

theorem rebuildGroups_partition (root : Nat → Nat) {n : Nat}
    (hpart : ScanPartition (groups.map BoundGroup.members) n) :
    ScanPartition ((rebuildGroups groups root).map BoundGroup.members) n := by
  have hne : ∀ g ∈ groups, g.members ≠ [] := fun g hg =>
    hpart.nonempty _ (mem_map_of_mem hg)
  obtain ⟨hall, hnonempty⟩ := rebuilt_all groups root hne
  have hperm : ((enumFold (rebuildStep groups root) {} groups).newGroups.map
      BoundGroup.members).flatten.Perm (range n) := by
    refine hall.perm.trans ?_
    rw [take_length]
    exact hpart.cover
  have hnodup := hperm.nodup_iff.mpr nodup_range
  refine ⟨?_, ?_, ?_⟩
  · refine Perm.trans ?_ hperm
    unfold rebuildGroups
    rw [map_map]
    generalize (enumFold (rebuildStep groups root) {} groups).newGroups = l
    induction l with
    | nil => exact .refl _
    | cons b l ih => exact (Rust.sortNats_perm b.members).append ih
  · intro ms hms
    obtain ⟨b, hb, rfl⟩ := List.mem_map.mp hms
    obtain ⟨b₀, hb₀, heq⟩ := mem_members_rebuildGroups hb
    rw [heq]
    exact Rust.pairwise_sortNats
      ((List.nodup_flatten.mp hnodup).1 _ (mem_map_of_mem hb₀))
  · intro ms hms hnil
    obtain ⟨b, hb, rfl⟩ := List.mem_map.mp hms
    obtain ⟨b₀, hb₀, heq⟩ := mem_members_rebuildGroups hb
    rw [heq] at hnil
    have hperm₀ := Rust.sortNats_perm b₀.members
    rw [hnil] at hperm₀
    exact hnonempty b₀ hb₀ hperm₀.nil_eq.symm

theorem mem_rebuildGroups (hne : ∀ g ∈ groups, g.members ≠ []) {b : BoundGroup}
    (hb : b ∈ rebuildGroups groups root) {i j : Nat} (hi : i ∈ b.members) (hj : j ∈ b.members) :
    ∃ x y, Holds groups x i ∧ Holds groups y j ∧ root x = root y := by
  have hall := (rebuilt_all groups root hne).1
  obtain ⟨b₀, hb₀, heq⟩ := mem_members_rebuildGroups hb
  obtain ⟨ng, hng⟩ := List.mem_iff_getElem?.mp hb₀
  rw [heq, (Rust.sortNats_perm _).mem_iff] at hi hj
  obtain ⟨x, gx, hx, hix, hrx⟩ := hall.origin ng b₀ hng i hi
  obtain ⟨y, gy, hy, hjy, hry⟩ := hall.origin ng b₀ hng j hj
  exact ⟨x, y, ⟨gx, hx, hix⟩, ⟨gy, hy, hjy⟩, hall.inj _ _ ng hrx hry⟩

theorem exists_mem_rebuildGroups (hne : ∀ g ∈ groups, g.members ≠ []) {x y i j : Nat}
    (hi : Holds groups x i) (hj : Holds groups y j) (hroot : root x = root y) :
    ∃ b ∈ rebuildGroups groups root, i ∈ b.members ∧ j ∈ b.members := by
  have hall := (rebuilt_all groups root hne).1
  obtain ⟨gx, hx, hi⟩ := hi
  obtain ⟨gy, hy, hj⟩ := hj
  have hlt : ∀ {z : Nat} {g : BoundGroup}, groups[z]? = some g → z < groups.length :=
    fun h => (List.getElem?_eq_some_iff.mp h).1
  obtain ⟨ng, b, hng, hb, hsub⟩ := hall.holds x gx (hlt hx) hx
  obtain ⟨ng', b', hng', hb', hsub'⟩ := hall.holds y gy (hlt hy) hy
  rw [hroot, hng', Option.some.injEq] at hng
  subst hng
  obtain rfl : b = b' := Option.some.inj (hb.symm.trans hb')
  refine ⟨_, mem_map_of_mem (mem_of_getElem? hb), ?_, ?_⟩
  · exact (Rust.sortNats_perm _).mem_iff.mpr (hsub hi)
  · exact (Rust.sortNats_perm _).mem_iff.mpr (hsub' hj)

section Reclassify

variable (ctx : GroupingContext) (items : List RecoverableScanItem) {bb : List BoundBy}

variable {ctx} in
theorem reclassified_ne_seed {a b : Option String} : reclassified ctx a b ≠ .seed := by
  unfold reclassified
  split
  · split
    · decide
    · exact boundByForTier2_ne_seed
  · exact boundByForTier2_ne_seed

theorem retag_spec (seedMid : Option String) (rest : List Nat) (bb : List BoundBy) :
    let bb' := rest.foldl (fun bb idx =>
      if bb[idx]? = some .seed then
        bb.set idx (reclassified ctx seedMid ((items[idx]?).bind (·.messageIdNorm)))
      else bb) bb
    bb'.length = bb.length ∧ (∀ j, j ∉ rest → bb'[j]? = bb[j]?) ∧
      ∀ j, bb'[j]? = some .seed → bb[j]? = some .seed ∧ j ∉ rest := by
  induction rest generalizing bb with
  | nil => simp
  | cons idx rest ih =>
    simp only [foldl_cons]
    by_cases htag : bb[idx]? = some .seed
    · simp only [htag, if_true]
      obtain ⟨hlen, hkeep, hseed⟩ := ih (bb.set idx (reclassified ctx seedMid
        ((items[idx]?).bind (·.messageIdNorm))))
      refine ⟨by rw [hlen, length_set], ?_, ?_⟩
      · intro j hj
        rw [mem_cons, not_or] at hj
        rw [hkeep j hj.2, getElem?_set_ne (Ne.symm hj.1)]
      · intro j hj
        obtain ⟨hset, hjr⟩ := hseed j hj
        by_cases hji : idx = j
        · subst hji
          rw [getElem?_set_self' ] at hset
          rw [htag] at hset
          exact absurd (Option.some.inj hset) reclassified_ne_seed
        · rw [getElem?_set_ne hji] at hset
          exact ⟨hset, by simp [hjr, Ne.symm hji]⟩
    · simp only [htag, if_false]
      obtain ⟨hlen, hkeep, hseed⟩ := ih bb
      refine ⟨hlen, ?_, ?_⟩
      · intro j hj
        exact hkeep j (fun h => hj (mem_cons_of_mem _ h))
      · intro j hj
        obtain ⟨hset, hjr⟩ := hseed j hj
        refine ⟨hset, ?_⟩
        rw [mem_cons, not_or]
        exact ⟨fun e => htag (e ▸ hset), hjr⟩

theorem reclassifyGroup_spec {g : List Nat} (hnodup : g.Nodup) (hlt : ∀ i ∈ g, i < bb.length) :
    (reclassifyGroup ctx items bb g).length = bb.length ∧
      (∀ j, j ∉ g → (reclassifyGroup ctx items bb g)[j]? = bb[j]?) ∧
      ∀ i ∈ g, (reclassifyGroup ctx items bb g)[i]? = some .seed ↔ g.head? = some i := by
  cases g with
  | nil => simp [reclassifyGroup]
  | cons seed rest =>
    obtain ⟨hnotin, _⟩ := List.nodup_cons.mp hnodup
    obtain ⟨hlen, hkeep, hseed⟩ := retag_spec ctx items
      ((items[seed]?).bind (·.messageIdNorm)) rest (bb.set seed .seed)
    refine ⟨by rw [reclassifyGroup, hlen, length_set], ?_, ?_⟩
    · intro j hj
      rw [mem_cons, not_or] at hj
      rw [reclassifyGroup, hkeep j hj.2, getElem?_set_ne (Ne.symm hj.1)]
    · intro i hi
      rw [head?_cons, Option.some.injEq]
      constructor
      · intro h
        by_contra hne
        have hir : i ∈ rest := by
          rcases List.mem_cons.mp hi with rfl | hir
          · exact absurd rfl hne
          · exact hir
        exact (hseed i h).2 hir
      · rintro rfl
        rw [reclassifyGroup, hkeep _ hnotin]
        simp [hlt _ (mem_cons_self)]

theorem reclassify_of_notMem {n i : Nat} (hlen : bb.length = n)
    (hnodup : ∀ b ∈ groups, b.members.Nodup) (hlt : ∀ b ∈ groups, ∀ j ∈ b.members, j < n)
    (hi : ∀ b ∈ groups, i ∉ b.members) : (reclassify ctx items groups bb)[i]? = bb[i]? := by
  unfold reclassify
  induction groups generalizing bb with
  | nil => rfl
  | cons b rest ih =>
    obtain ⟨hlen', hkeep, _⟩ := reclassifyGroup_spec ctx items (hnodup b mem_cons_self)
      (fun j hj => by rw [hlen]; exact hlt b mem_cons_self j hj)
    rw [foldl_cons, ih (hlen'.trans hlen)
      (fun b hb => hnodup b (mem_cons_of_mem _ hb))
      (fun b hb => hlt b (mem_cons_of_mem _ hb))
      (fun b hb => hi b (mem_cons_of_mem _ hb))]
    exact hkeep i (hi b mem_cons_self)

/-- **Provenance after a merge.** The retagged groups have their first members, and only them,
tagged `Seed`, whatever the tags were. Induction on the groups done, which later ones do not
touch. -/
theorem reclassify_seedTags {n : Nat}
    (hpart : ScanPartition (groups.map BoundGroup.members) n) (hlen : bb.length = n) :
    (reclassify ctx items groups bb).length = n ∧
      SeedTags (reclassify ctx items groups bb) (groups.map BoundGroup.members) := by
  have hnodup : ∀ g ∈ groups.map BoundGroup.members, g.Nodup :=
    (List.nodup_flatten.mp hpart.nodup_flatten).1
  have hlt : ∀ g ∈ groups.map BoundGroup.members, ∀ i ∈ g, i < n := fun g hg i hi =>
    hpart.lt_of_mem hg hi
  have hdis := hpart.pairwise_disjoint
  clear hpart
  unfold reclassify
  induction groups generalizing bb with
  | nil => exact ⟨hlen, by intro g hg; cases hg⟩
  | cons b rest ih =>
    rw [map_cons, pairwise_cons] at hdis
    have hb : b.members ∈ (b :: rest).map BoundGroup.members := mem_cons_self
    obtain ⟨hlen', _, htags⟩ := reclassifyGroup_spec ctx items (hnodup _ hb)
      (fun i hi => by rw [hlen]; exact hlt _ hb i hi)
    obtain ⟨hfinal, hrest⟩ := ih (hlen'.trans hlen)
      (fun g hg => hnodup g (mem_cons_of_mem _ hg))
      (fun g hg => hlt g (mem_cons_of_mem _ hg)) hdis.2
    rw [foldl_cons]
    refine ⟨hfinal, ?_⟩
    intro g hg i hi
    rcases List.mem_cons.mp hg with rfl | hg
    · -- the groups after this one hold none of its members
      have hkeep := reclassify_of_notMem ctx items (hlen'.trans hlen)
        (fun b' hb' => hnodup _ (mem_cons_of_mem _ (mem_map_of_mem hb')))
        (fun b' hb' => hlt _ (mem_cons_of_mem _ (mem_map_of_mem hb')))
        (fun b' hb' hib' => hdis.1 _ (mem_map_of_mem hb') hi hib')
      show (reclassify ctx items rest _)[i]? = _ ↔ _
      rw [hkeep]
      exact htags i hi
    · exact hrest g hg i hi

end Reclassify

end DedupEngine
