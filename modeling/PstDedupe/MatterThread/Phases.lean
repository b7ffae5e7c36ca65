import PstDedupe.MatterThread.HeaderGraph

/-!
# What each phase writes

Every phase groups candidates by a key and gives all members of a group one slot: the header phase
when there are two of them or one with a header edge, the others when there are two.
-/

namespace MatterThread

open Rust MatterCore Foundations List Option

def firstId (cs : List ThreadCandidate) (members : List Nat) : String :=
  ((members.min?.bind fun i => cs[i]?).map fun c => c.id).getD ""

theorem getElem?_setAll (slot : Slot) (members : List Nat) (s : List (Option Slot)) (i : Nat) :
    (setAll slot members s)[i]? = if i ∈ members ∧ i < s.length then some (some slot) else s[i]? := by
  have h := getElem?_foldl_set members (fun _ => true) (some slot) s i
  simp only [true_and] at h
  exact h

theorem exists_first {cs : List ThreadCandidate} {members : List Nat} {rootIdx : Nat}
    (hmembers : ∀ i ∈ members, i < cs.length) (hmin : members.min? = some rootIdx) :
    ∃ c, cs[rootIdx]? = some c ∧ firstId cs members = c.id := by
  have hlt := hmembers rootIdx (min?_mem hmin)
  refine ⟨cs[rootIdx], getElem?_eq_getElem hlt, ?_⟩
  unfold firstId
  rw [hmin, bind_some, getElem?_eq_getElem hlt]
  rfl

theorem two_le_positions_iff {K : Type} [DecidableEq K] {keys : List (Option K)} {k : K} {i : Nat}
    (hi : i ∈ positions keys k) : 2 ≤ (positions keys k).length ↔ ∃ j ∈ positions keys k, j ≠ i := by
  have hnodup : (positions keys k).Nodup := Nodup.filter _ nodup_range
  constructor
  · intro hlen
    by_contra hall
    push Not at hall
    have hle : (positions keys k).length ≤ 1 := by
      have hsub : positions keys k ⊆ [i] := fun j hj => List.mem_singleton.mpr (hall j hj)
      exact (hnodup.subperm hsub).length_le
    omega
  · rintro ⟨j, hj, hne⟩
    have hsub : [i, j] ⊆ positions keys k := by
      intro x hx
      rcases List.mem_cons.mp hx with rfl | hx
      · exact hi
      · rw [List.mem_singleton.mp hx]
        exact hj
    have hpair : [i, j].Nodup := by
      rw [nodup_cons, mem_singleton]
      exact ⟨Ne.symm hne, nodup_singleton j⟩
    exact (hpair.subperm hsub).length_le

section

variable [Target] [Sha256] [JsonStrings]

def componentValue (cs : List ThreadCandidate) (hasHeaderEdge : List Bool) (members : List Nat)
    (i : Nat) : Option Slot :=
  if 2 ≤ members.length ∨
    hasHeaderEdge.getD i false = true then some (componentSlot cs members (firstId cs members))
  else none

omit [JsonStrings] in
theorem labelComponent_spec {cs : List ThreadCandidate} (edges : List Bool) {g : CompactKey × List Nat}
    {s : List (Option Slot)} (hmembers : ∀ i ∈ g.2, i < cs.length) (hblank : ∀ i ∈ g.2, s[i]? = some none) :
    ∃ s', labelComponent cs edges s g = some s' ∧
      (∀ i ∈ g.2, s'[i]? = some (componentValue cs edges g.2 i)) ∧ ∀ i, i ∉ g.2 → s'[i]? = s[i]? := by
  obtain ⟨k, members⟩ := g
  unfold labelComponent
  dsimp only at hmembers hblank ⊢
  cases hmin : members.min? with
  | none =>
    obtain rfl := List.min?_eq_none_iff.mp hmin
    exact ⟨s, rfl, fun i hi => (not_mem_nil hi).elim, fun i _ => rfl⟩
  | some rootIdx =>
    obtain ⟨c, hc, hfirst⟩ := exists_first hmembers hmin
    have hlt : ∀ i ∈ members, i < s.length := fun i hi => (List.getElem?_eq_some_iff.mp (hblank i hi)).1
    dsimp only
    rw [hc]
    show ∃ s', some _ = some s' ∧ _
    rw [← hfirst]
    -- the loop over the members
    have hloop := getElem?_foldl_set members (fun i => decide (2 ≤ members.length) || edges.getD i false)
      (some (componentSlot cs members (firstId cs members))) s
    refine ⟨_, rfl, ?_, ?_⟩
    · intro i hi
      split
      next j =>
        -- a component of one
        obtain rfl := List.mem_singleton.mp hi
        unfold componentValue
        by_cases hedge : edges.getD i false = true
        · have hwrite : (decide (2 ≤ [i].length) || edges.getD i false) = true := by
            rw [hedge, Bool.or_true]
          rw [if_pos hedge, hloop, if_pos ⟨hi, hwrite, hlt i hi⟩, if_pos (Or.inr hedge)]
        · have hone : ¬ (2 ≤ [i].length ∨ edges.getD i false = true) := by
            rintro (h | h)
            · rw [length_singleton] at h
              omega
            · exact hedge h
          have hlength := length_foldl_set [i] (fun j => decide (2 ≤ [i].length) || edges.getD j false)
            (some (componentSlot cs [i] (firstId cs [i]))) s
          rw [if_neg hedge, getElem?_set_self (by rw [hlength]; exact hlt i hi), if_neg hone]
      next hmany =>
        rw [hloop]
        unfold componentValue
        have hwrite : (decide (2 ≤ members.length) || edges.getD i false) = true ↔
            2 ≤ members.length ∨ edges.getD i false = true := by
          rw [Bool.or_eq_true, decide_eq_true_eq]
        by_cases hval : 2 ≤ members.length ∨ edges.getD i false = true
        · rw [if_pos ⟨hi, hwrite.mpr hval, hlt i hi⟩, if_pos hval]
        · rw [if_neg fun h => hval (hwrite.mp h.2.1), if_neg hval]
          exact hblank i hi
    · intro i hi
      split
      next j =>
        have hij : j ≠ i := fun heq => hi (List.mem_singleton.mpr heq.symm)
        split
        · rw [hloop, if_neg fun h => hi h.1]
        · rw [getElem?_set_ne hij, hloop, if_neg fun h => hi h.1]
      · rw [hloop, if_neg fun h => hi h.1]

variable [RandomState]

omit [Target] [Sha256] [JsonStrings] [RandomState] in
theorem lt_of_mem_positions {K : Type} [DecidableEq K] {keys : List (Option K)} {k : K} {i : Nat}
    (hi : i ∈ positions keys k) : i < keys.length :=
  (List.getElem?_eq_some_iff.mp (mem_positions.mp hi)).1

omit [Target] [Sha256] [JsonStrings] in
theorem foldlM_collectBy (keys : List (Option CompactKey))
    (step : List (Option Slot) → CompactKey × List Nat → Option (List (Option Slot)))
    (value : CompactKey × List Nat → Nat → Option Slot)
    (hstep : ∀ g ∈ (collectBy id keys).iter, ∀ s : List (Option Slot), (∀ i ∈ g.2, s[i]? = some none) →
      ∃ s', step s g = some s' ∧ (∀ i ∈ g.2, s'[i]? = some (value g i)) ∧ ∀ i, i ∉ g.2 → s'[i]? = s[i]?)
    {s : List (Option Slot)} (hblank : ∀ (i : Nat) (k : CompactKey), keys[i]? = some (some k) →
      s[i]? = some none) :
    ∃ s', (collectBy id keys).iter.foldlM step s = some s' ∧
      (∀ (i : Nat) (k : CompactKey), keys[i]? = some (some k) →
        s'[i]? = some (value (k, positions keys k) i)) ∧
      ∀ i : Nat, (∀ k, keys[i]? ≠ some (some k)) → s'[i]? = s[i]? := by
  have hgroup : ∀ g ∈ (collectBy id keys).iter, ∀ i ∈ g.2, keys[i]? = some (some g.1) := by
    intro g hg i hi
    rw [eq_positions_of_mem_iter hg] at hi
    exact mem_positions.mp hi
  obtain ⟨s', hrun, hwrite, hframe⟩ := foldlM_groups (fun i => (keys[i]?).getD none) value
    (HashMap.nodup_keys_iter _)
    (fun g hg i hi => by
      show (keys[i]?).getD none = _
      rw [hgroup g hg i hi, getD_some])
    hstep (s := s) (fun g hg i hi => hblank i g.1 (hgroup g hg i hi))
  refine ⟨s', hrun, ?_, ?_⟩
  · intro i k hk
    exact hwrite _ (positions_mem_iter hk) i (mem_positions.mpr hk)
  · intro i hi
    exact hframe i fun g hg hmem => hi g.1 (hgroup g hg i hmem)

theorem headerPhase_spec (cs : List ThreadCandidate) :
    ∃ (root : CompactKey → CompactKey) (slots : List (Option Slot)),
      headerPhase cs (cs.map fun _ => none) = some slots ∧
      (∀ x y, root x = root y ↔ EdgeLinked (cs.flatMap keyEdges) x y) ∧
      ∀ (i : Nat) (c : ThreadCandidate), cs[i]? = some c → slots[i]? = some (match placingKey c with
        | none => none
        | some k => componentValue cs (cs.map hasEdge)
            (positions (cs.map fun c => (placingKey c).map root) (root k)) i) := by
  obtain ⟨uf, root, hjoin, hlocate, hroot⟩ := components_spec cs
  have hlength : ∀ g ∈ (collectBy id (cs.map fun c => (placingKey c).map root)).iter, ∀ i ∈ g.2,
      i < cs.length := by
    intro g hg i hi
    rw [eq_positions_of_mem_iter hg] at hi
    have := lt_of_mem_positions hi
    rwa [length_map] at this
  obtain ⟨slots, hrun, hwrite, hframe⟩ := foldlM_collectBy
    (cs.map fun c => (placingKey c).map root) (labelComponent cs (cs.map hasEdge))
    (fun g i => componentValue cs (cs.map hasEdge) g.2 i)
    (fun g hg s hs => labelComponent_spec (cs.map hasEdge) (hlength g hg) hs)
    (s := cs.map fun _ => none) (by
      intro i k hk
      rw [getElem?_map] at hk ⊢
      obtain ⟨c, hc, _⟩ := Option.map_eq_some_iff.mp hk
      rw [hc]
      rfl)
  refine ⟨root, slots, ?_, hroot, ?_⟩
  · unfold headerPhase
    rw [hjoin]
    show (locateAll uf cs).bind _ = _
    rw [hlocate]
    exact hrun
  · intro i c hc
    have hkey : (cs.map fun c => (placingKey c).map root)[i]? = some ((placingKey c).map root) := by
      rw [getElem?_map, hc]
      rfl
    cases hplace : placingKey c with
    | none =>
      rw [hplace] at hkey
      rw [hframe i fun k hk => by
        rw [hkey] at hk
        cases hk]
      rw [getElem?_map, hc]
      rfl
    | some k =>
      rw [hplace] at hkey
      exact hwrite i (root k) hkey

section

variable {text : ThreadCandidate → Option (Option String)} {cs : List ThreadCandidate}
  {slots : List (Option Slot)}
  {texts : List (Option String)}

omit [Target] [Sha256] [JsonStrings] [RandomState] in
/-- The texts are read one by one. Induction on the candidates. -/
theorem fallbackTexts_eq_some (h : fallbackTexts text cs slots = some texts)
    (hlength : cs.length ≤ slots.length) :
    texts.length = cs.length ∧ ∀ (i : Nat) (c : ThreadCandidate) (slot : Option Slot),
      cs[i]? = some c → slots[i]? = some slot →
      ∃ t, texts[i]? = some t ∧ textLeft text c slot = some t := by
  induction cs generalizing slots texts with
  | nil =>
    unfold fallbackTexts at h
    obtain rfl := Option.some.inj h
    exact ⟨rfl, fun i c slot hc => by simp at hc⟩
  | cons c cs ih =>
    cases slots with
    | nil => cases hlength
    | cons slot slots =>
      unfold fallbackTexts at h
      change (textLeft text c slot).bind _ = _ at h
      obtain ⟨t, ht, h⟩ := Option.bind_eq_some_iff.mp h
      obtain ⟨rest, hrest, rfl⟩ := Option.map_eq_some_iff.mp h
      obtain ⟨hlen, hat⟩ := ih hrest (Nat.le_of_succ_le_succ hlength)
      refine ⟨congrArg Nat.succ hlen, ?_⟩
      intro i c' slot' hc hslot
      cases i with
      | zero =>
        obtain rfl := Option.some.inj hc
        obtain rfl := Option.some.inj hslot
        exact ⟨t, rfl, ht⟩
      | succ i => exact hat i c' slot' hc hslot

omit [Target] [Sha256] [JsonStrings] [RandomState] in
theorem fallbackTexts_eq_none (h : fallbackTexts text cs slots = none) :
    ∃ (i : Nat) (c : ThreadCandidate) (slot : Option Slot), cs[i]? = some c ∧
      slots[i]? = some slot ∧ textLeft text c slot = none := by
  induction cs generalizing slots with
  | nil =>
    unfold fallbackTexts at h
    cases h
  | cons c cs ih =>
    cases slots with
    | nil => cases h
    | cons slot slots =>
      unfold fallbackTexts at h
      change (textLeft text c slot).bind _ = _ at h
      cases ht : textLeft text c slot with
      | none => exact ⟨0, c, slot, rfl, rfl, ht⟩
      | some t =>
        rw [ht] at h
        obtain ⟨i, c', slot', hc, hslot, hnone⟩ := ih (Option.map_eq_none_iff.mp h)
        exact ⟨i + 1, c', slot', hc, hslot, hnone⟩

omit [Target] [JsonStrings] [RandomState] in
/-- A text without collisions is found under its own key. Induction on the texts. -/
theorem get_textsByKey {t : String}
    (hinj : ∀ s, some s ∈ texts → hashBytes s = hashBytes t → s = t) (ht : some t ∈ texts) :
    (textsByKey texts).get (hashBytes t) = some t := by
  have hfold : ∀ step : HashMap CompactKey String → Option String → HashMap CompactKey String,
      (∀ m, step m none = m) → (∀ m u, step m (some u) = m.orInsert (hashBytes u) u) →
      ∀ (texts : List (Option String)) (m : HashMap CompactKey String),
        (∀ s, some s ∈ texts → hashBytes s = hashBytes t → s = t) →
        (m.get (hashBytes t) = some t ∨ m.get (hashBytes t) = none ∧ some t ∈ texts) →
        (texts.foldl step m).get (hashBytes t) = some t := by
    intro step hnone hsome texts
    induction texts with
    | nil =>
      intro m _ hm
      exact hm.resolve_right fun h => not_mem_nil h.2
    | cons u texts ih =>
      intro m hinj hm
      have hinj' : ∀ s, some s ∈ texts → hashBytes s = hashBytes t → s = t :=
        fun s hs => hinj s (mem_cons_of_mem _ hs)
      rw [foldl_cons]
      cases u with
      | none =>
        rw [hnone]
        apply ih m hinj'
        rcases hm with hm | ⟨hm, hmem⟩
        · exact Or.inl hm
        · exact Or.inr ⟨hm, (List.mem_cons.mp hmem).resolve_left (by simp)⟩
      | some u =>
        rw [hsome]
        apply ih _ hinj'
        rw [HashMap.get_orInsert]
        by_cases hut : hashBytes t = hashBytes u
        · rw [if_pos hut, ← hut]
          have hu : u = t := hinj u mem_cons_self hut.symm
          rcases hm with hm | ⟨hm, _⟩
          · rw [hm]
            exact Or.inl rfl
          · rw [hm, getD_none, hu]
            exact Or.inl rfl
        · rw [if_neg hut]
          rcases hm with hm | ⟨hm, hmem⟩
          · exact Or.inl hm
          · refine Or.inr ⟨hm, (List.mem_cons.mp hmem).resolve_left fun heq => hut ?_⟩
            rw [Option.some.inj heq]
  exact hfold _ (fun _ => rfl) (fun _ _ => rfl) texts ∅ hinj (Or.inr ⟨HashMap.get_empty _, ht⟩)

def groupValue (method : ThreadMethod) (tag : String) (cs : List ThreadCandidate)
    (members : List Nat) (t : String) : Option Slot :=
  if 2 ≤ members.length then some ⟨method, sha256Hex (tag ++ t), firstId cs members⟩ else none

omit [Target] [JsonStrings] [RandomState] in
theorem labelGroup_spec (method : ThreadMethod) (tag : String) (strings : HashMap CompactKey String)
    {g : CompactKey × List Nat} {s : List (Option Slot)} (hmembers : ∀ i ∈ g.2, i < cs.length)
    (hblank : ∀ i ∈ g.2, s[i]? = some none) : ∃ s', labelGroup method tag cs strings s g = some s' ∧
      (∀ i ∈ g.2, s'[i]? = some (groupValue method tag cs g.2 ((strings.get g.1).getD ""))) ∧
      ∀ i, i ∉ g.2 → s'[i]? = s[i]? := by
  unfold labelGroup groupValue
  dsimp only
  by_cases hfew : g.2.length < 2
  · rw [if_pos hfew, if_neg (by omega)]
    exact ⟨s, rfl, hblank, fun i _ => rfl⟩
  · rw [if_neg hfew, if_pos (by omega)]
    cases hmin : g.2.min? with
    | none =>
      rw [List.min?_eq_none_iff.mp hmin] at hfew
      exact absurd (by decide) hfew
    | some rootIdx =>
      obtain ⟨c, hc, hfirst⟩ := exists_first hmembers hmin
      dsimp only
      rw [hc]
      refine ⟨setAll _ g.2 s, rfl, ?_, ?_⟩
      · intro i hi
        rw [getElem?_setAll, if_pos ⟨hi, (List.getElem?_eq_some_iff.mp (hblank i hi)).1⟩, hfirst]
      · intro i hi
        rw [getElem?_setAll, if_neg fun h => hi h.1]

omit [Target] [Sha256] [JsonStrings] [RandomState] in
theorem positions_map_hash {hash : String → CompactKey} {t : String}
    (hinj : ∀ s, some s ∈ texts → hash s = hash t → s = t) :
    positions (texts.map fun t => t.map hash) (hash t) = positions texts t := by
  unfold positions
  rw [length_map]
  apply filter_congr
  intro i _
  congr 1
  apply propext
  rw [getElem?_map]
  cases htext : texts[i]? with
  | none => simp
  | some u =>
    cases u with
    | none => simp
    | some u =>
      rw [map_some, map_some, Option.some.injEq, Option.some.injEq, Option.some.injEq, Option.some.injEq]
      exact ⟨hinj u (mem_of_getElem? htext), fun heq => congrArg hash heq⟩

omit [Target] [JsonStrings] in
theorem fallbackPhase_spec (method : ThreadMethod) (tag : String)
    (htexts : fallbackTexts text cs slots = some texts) (hlength : cs.length ≤ slots.length)
    (hinj : ∀ s t, some s ∈ texts → some t ∈ texts → hashBytes s = hashBytes t → s = t) :
    ∃ slots', fallbackPhase method tag text cs slots = some slots' ∧
      ∀ (i : Nat) (c : ThreadCandidate) (slot : Option Slot), cs[i]? = some c → slots[i]? = some slot →
        ∃ t, texts[i]? = some t ∧ textLeft text c slot = some t ∧ slots'[i]? = some (match t with
            | none => slot
            | some t => groupValue method tag cs (positions texts t) t) := by
  obtain ⟨hlen, hat⟩ := fallbackTexts_eq_some htexts hlength
  have hkeys : ∀ (i : Nat) (k : CompactKey), (texts.map fun t => t.map hashBytes)[i]? = some (some k) →
      ∃ t, texts[i]? = some (some t) ∧ hashBytes t = k := by
    intro i k hk
    rw [getElem?_map] at hk
    obtain ⟨u, hu, hk⟩ := Option.map_eq_some_iff.mp hk
    obtain ⟨t, rfl, ht⟩ := Option.map_eq_some_iff.mp hk
    exact ⟨t, hu, ht⟩
  obtain ⟨slots', hrun, hwrite, hframe⟩ := foldlM_collectBy
    (texts.map fun t => t.map hashBytes) (labelGroup method tag cs (textsByKey texts))
    (fun g _ => groupValue method tag cs g.2 (((textsByKey texts).get g.1).getD ""))
    (fun g hg s hs => labelGroup_spec method tag (textsByKey texts) (by
      intro i hi
      rw [eq_positions_of_mem_iter hg] at hi
      have := lt_of_mem_positions hi
      rwa [length_map, hlen] at this) hs)
    (s := slots) (by
      intro i k hk
      obtain ⟨t, ht, _⟩ := hkeys i k hk
      have hi : i < texts.length := (List.getElem?_eq_some_iff.mp ht).1
      obtain ⟨u, hu, hleft⟩ := hat i cs[i] slots[i] (getElem?_eq_getElem (by omega))
        (getElem?_eq_getElem (by omega))
      rw [getElem?_eq_getElem (by omega : i < slots.length)]
      -- a candidate with a slot has no text
      rw [ht] at hu
      obtain rfl := Option.some.inj hu
      unfold textLeft at hleft
      split at hleft
      · cases hleft
      next hnone => rw [Option.not_isSome_iff_eq_none.mp hnone])
  refine ⟨slots', ?_, ?_⟩
  · unfold fallbackPhase
    rw [htexts]
    exact hrun
  · intro i c slot hc hslot
    obtain ⟨t, ht, hleft⟩ := hat i c slot hc hslot
    refine ⟨t, ht, hleft, ?_⟩
    have hkey : (texts.map fun t => t.map hashBytes)[i]? = some (t.map hashBytes) := by
      rw [getElem?_map, ht]
      rfl
    cases t with
    | none =>
      rw [hframe i fun k hk => by
        rw [hkey] at hk
        cases hk]
      exact hslot
    | some t =>
      have hmem : some t ∈ texts := mem_of_getElem? ht
      rw [hwrite i (hashBytes t) hkey]
      dsimp only
      rw [get_textsByKey (fun s hs => hinj s t hs hmem) hmem, getD_some,
        positions_map_hash fun s hs => hinj s t hs hmem]

end

end

end MatterThread
