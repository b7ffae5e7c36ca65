import PstDedupe.MatterThread.Phases

/-!
# Which messages are threaded together

What a thread is, said of the set of candidates alone: `Headed` messages are those the header graph
threads, `Grouped` ones share a text with another that is left.
-/

namespace MatterThread

open Rust MatterCore Foundations List Option

section

variable [Target] [Sha256] [JsonStrings] {c : ThreadCandidate}

def Placed (c : ThreadCandidate) : Prop := (placingText c).isSome

/-- The header graph threads the message: it refers to some Message-ID, or another message is
connected. -/
def Headed (cs : List ThreadCandidate) (c : ThreadCandidate) : Prop :=
  Placed c ∧ (hasEdge c = true ∨ ∃ d ∈ cs, d.id ≠ c.id ∧ Placed d ∧ Connected cs c d)

def Grouped (cs : List ThreadCandidate) (left : ThreadCandidate → Prop)
    (text : ThreadCandidate → Option String) (c : ThreadCandidate) : Prop :=
  left c ∧ ∃ t, text c = some t ∧ ∃ d ∈ cs, d.id ≠ c.id ∧ left d ∧ text d = some t

def LeftByHeaders (cs : List ThreadCandidate) (c : ThreadCandidate) : Prop := ¬ Headed cs c

def Subjected (params : ThreadParams) (cs : List ThreadCandidate) (c : ThreadCandidate) : Prop :=
  params.useSubjectFallback = true ∧ Grouped cs (LeftByHeaders cs) subjectText c

def LeftBySubject (params : ThreadParams) (cs : List ThreadCandidate) (c : ThreadCandidate) : Prop :=
  LeftByHeaders cs c ∧ ¬ Subjected params cs c

def indexText (c : ThreadCandidate) : Option String := (conversationIndexText c).getD none

def Indexed (params : ThreadParams) (cs : List ThreadCandidate) (c : ThreadCandidate) : Prop :=
  params.useConversationIndex = true ∧ Grouped cs (LeftBySubject params cs) indexText c

variable {cs : List ThreadCandidate}

omit [Sha256] in
theorem connected_symm {c d : ThreadCandidate} (h : Connected cs c d) : Connected cs d c := by
  obtain ⟨s, hs, t, ht, hst⟩ := h
  exact ⟨t, ht, s, hs, .symm _ _ hst⟩

omit [Sha256] in
theorem connected_self (h : Placed c) : Connected cs c c := by
  obtain ⟨t, ht⟩ := Option.isSome_iff_exists.mp h
  exact ⟨t, placingText_mem ht, t, placingText_mem ht, .refl t⟩

omit [Target] [Sha256] [JsonStrings] in
theorem id_ne_iff (hids : (cs.map fun c => c.id).Nodup) {i j : Nat} {c d : ThreadCandidate}
    (hc : cs[i]? = some c) (hd : cs[j]? = some d) : d.id ≠ c.id ↔ j ≠ i := by
  have hci : (cs.map fun c => c.id)[i]? = some c.id := by rw [getElem?_map, hc]; rfl
  have hdj : (cs.map fun c => c.id)[j]? = some d.id := by rw [getElem?_map, hd]; rfl
  constructor
  · intro hne heq
    rw [heq, hc] at hd
    exact hne (congrArg ThreadCandidate.id (Option.some.inj hd).symm)
  · intro hne heq
    rw [heq] at hdj
    apply hne
    have hj : j < (cs.map fun c => c.id).length := (List.getElem?_eq_some_iff.mp hdj).1
    exact (getElem?_inj hj hids).mp (hdj.trans hci.symm)

structure HeaderGroups (cs : List ThreadCandidate) (group : ThreadCandidate → List Nat) : Prop where
  mem_iff : ∀ c ∈ cs, Placed c → ∀ (i : Nat) (d : ThreadCandidate), cs[i]? = some d →
    (i ∈ group c ↔ Placed d ∧ Connected cs c d)
  lt : ∀ c i, i ∈ group c → i < cs.length
  eq_iff : ∀ c ∈ cs, ∀ d ∈ cs, Placed c → Placed d → (group c = group d ↔ Connected cs c d)

variable [RandomState]

theorem headerPhase_slots (hids : (cs.map fun c => c.id).Nodup) (hinj : DistinctMids cs) :
    ∃ (group : ThreadCandidate → List Nat) (slots : List (Option Slot)),
      headerPhase cs (cs.map fun _ => none) = some slots ∧ HeaderGroups cs group ∧
      ∀ (i : Nat) (c : ThreadCandidate), cs[i]? = some c → ∃ slot, slots[i]? = some slot ∧
        (Headed cs c → slot = some (componentSlot cs (group c) (firstId cs (group c)))) ∧
        (¬ Headed cs c → slot = none) := by
  obtain ⟨root, slots, hrun, hroot, hslots⟩ := headerPhase_spec cs
  let keys := cs.map fun c => (placingKey c).map root
  let group (c : ThreadCandidate) : List Nat := positions keys (root (hashBytes ((placingText c).getD "")))
  -- two placed messages have one root exactly when they are connected
  have hsame : ∀ c ∈ cs, ∀ d ∈ cs, ∀ s t, placingText c = some s → placingText d = some t →
      (root (hashBytes s) = root (hashBytes t) ↔ Connected cs c d) := by
    intro c hc d hd s t hs ht
    rw [hroot, linked_keyEdges_iff hinj hc hd (placingText_mem hs) (placingText_mem ht),
      connected_iff hc hd (placingText_mem hs) (placingText_mem ht)]
  have hmem : ∀ c ∈ cs, Placed c → ∀ (i : Nat) (d : ThreadCandidate), cs[i]? = some d →
      (i ∈ group c ↔ Placed d ∧ Connected cs c d) := by
    intro c hc hplaced i d hd
    obtain ⟨s, hs⟩ := Option.isSome_iff_exists.mp hplaced
    have hkey : keys[i]? = some ((placingKey d).map root) := by
      rw [getElem?_map, hd]
      rfl
    rw [mem_positions, hkey, hs, getD_some, placingKey_eq]
    cases ht : placingText d with
    | none =>
      constructor
      · intro h
        cases Option.some.inj h
      · intro h
        have := h.1
        rw [Placed, ht] at this
        cases this
    | some t =>
      rw [map_some, map_some, Option.some.injEq, Option.some.injEq, eq_comm,
        hsame c hc d (mem_of_getElem? hd) s t hs ht]
      exact (and_iff_right (by rw [Placed, ht]; rfl)).symm
  refine ⟨group, slots, hrun, ⟨hmem, ?_, ?_⟩, ?_⟩
  · intro c i hi
    have := lt_of_mem_positions hi
    rwa [length_map] at this
  · intro c hc d hd hpc hpd
    constructor
    · intro heq
      obtain ⟨i, hi⟩ := getElem?_of_mem hd
      have hdd := (hmem d hd hpd i d hi).mpr ⟨hpd, connected_self hpd⟩
      rw [← heq] at hdd
      exact ((hmem c hc hpc i d hi).mp hdd).2
    · intro hconn
      obtain ⟨s, hs⟩ := Option.isSome_iff_exists.mp hpc
      obtain ⟨t, ht⟩ := Option.isSome_iff_exists.mp hpd
      show positions keys _ = positions keys _
      rw [hs, ht, getD_some, getD_some, (hsame c hc d hd s t hs ht).mpr hconn]
  · intro i c hc
    have hmemc := mem_of_getElem? hc
    refine ⟨_, hslots i c hc, ?_⟩
    rw [placingKey_eq]
    cases hs : placingText c with
    | none =>
      have hunplaced : ¬ Headed cs c := by
        intro h
        have := h.1
        rw [Placed, hs] at this
        cases this
      exact ⟨fun h => absurd h hunplaced, fun _ => rfl⟩
    | some s =>
      have hplaced : Placed c := by rw [Placed, hs]; rfl
      have hgroup : group c = positions keys (root (hashBytes s)) := by
        show positions keys _ = _
        rw [hs, getD_some]
      have hi : i ∈ group c := (hmem c hmemc hplaced i c hc).mpr ⟨hplaced, connected_self hplaced⟩
      have hedge : (cs.map hasEdge).getD i false = hasEdge c := by
        rw [getD_eq_getElem?_getD, getElem?_map, hc]
        rfl
      rw [map_some]
      dsimp only
      rw [show positions (cs.map fun c => (placingKey c).map root) (root (hashBytes s)) = group c
        from hgroup.symm]
      -- the condition of the code is that of `Headed`
      have hcond : (2 ≤ (group c).length ∨ (cs.map hasEdge).getD i false = true) ↔ Headed cs c := by
        rw [hedge, hgroup, two_le_positions_iff (hgroup ▸ hi), ← hgroup, Headed,
          and_iff_right hplaced, or_comm]
        apply or_congr_right
        constructor
        · rintro ⟨j, hj, hne⟩
          have hlt : j < cs.length := by
            have := lt_of_mem_positions hj
            rwa [length_map] at this
          have hd : cs[j]? = some cs[j] := getElem?_eq_getElem hlt
          have hboth := (hmem c hmemc hplaced j cs[j] hd).mp hj
          exact ⟨cs[j], mem_of_getElem? hd, (id_ne_iff hids hc hd).mpr hne, hboth.1, hboth.2⟩
        · rintro ⟨d, hd, hne, hpd, hconn⟩
          obtain ⟨j, hj⟩ := getElem?_of_mem hd
          exact ⟨j, (hmem c hmemc hplaced j d hj).mpr ⟨hpd, hconn⟩, (id_ne_iff hids hc hj).mp hne⟩
      unfold componentValue
      constructor
      · exact fun h => if_pos (hcond.mpr h)
      · exact fun h => if_neg fun hc => h (hcond.mp hc)

def BlankWhen (left : ThreadCandidate → Prop) (cs : List ThreadCandidate)
    (slots : List (Option Slot)) : Prop :=
  ∀ (i : Nat) (c : ThreadCandidate), cs[i]? = some c → ∃ slot, slots[i]? = some slot ∧ (slot = none ↔ left c)

variable {left : ThreadCandidate → Prop} {text : ThreadCandidate → Option (Option String)}
  {text' : ThreadCandidate → Option String} {slots : List (Option Slot)}

omit [Target] [Sha256] [JsonStrings] [RandomState] in
theorem BlankWhen.length_le (h : BlankWhen left cs slots) : cs.length ≤ slots.length := by
  by_contra hlt
  have hi : slots.length < cs.length := by omega
  obtain ⟨slot, hslot, _⟩ := h slots.length cs[slots.length] (getElem?_eq_getElem hi)
  rw [getElem?_eq_none (Nat.le_refl _)] at hslot
  cases hslot

omit [Target] [Sha256] [JsonStrings] [RandomState] in
theorem textLeft_eq {slot : Option Slot} (hblank : slot = none ↔ left c) :
    (left c → textLeft text c slot = text c) ∧ (¬ left c → textLeft text c slot = some none) := by
  unfold textLeft
  constructor
  · intro h
    rw [hblank.mpr h]
    rfl
  · intro h
    cases slot with
    | none => exact absurd (hblank.mp rfl) h
    | some slot => rfl

omit [Target] [JsonStrings] in
theorem fallbackPhase_eq_none (method : ThreadMethod) (tag : String)
    (hblank : BlankWhen left cs slots) (hc : c ∈ cs) (hleft : left c) (hpanic : text c = none) :
    fallbackPhase method tag text cs slots = none := by
  cases htexts : fallbackTexts text cs slots with
  | none =>
    unfold fallbackPhase
    rw [htexts]
    rfl
  | some texts =>
    obtain ⟨i, hi⟩ := getElem?_of_mem hc
    obtain ⟨slot, hslot, hiff⟩ := hblank i c hi
    obtain ⟨t, _, ht⟩ := (fallbackTexts_eq_some htexts hblank.length_le).2 i c slot hi hslot
    rw [(textLeft_eq hiff).1 hleft, hpanic] at ht
    cases ht

structure TextGroups (left : ThreadCandidate → Prop) (text : ThreadCandidate → Option String)
    (cs : List ThreadCandidate) (group : String → List Nat) : Prop where
  mem_iff : ∀ (t : String) (i : Nat) (d : ThreadCandidate), cs[i]? = some d →
    (i ∈ group t ↔ left d ∧ text d = some t)
  lt : ∀ t i, i ∈ group t → i < cs.length

omit [Target] [JsonStrings] in
theorem fallbackPhase_slots (text : ThreadCandidate → Option (Option String))
    (text' : ThreadCandidate → Option String)
    (method : ThreadMethod) (tag : String) (hids : (cs.map fun c => c.id).Nodup)
    (hblank : BlankWhen left cs slots) (htext : ∀ c ∈ cs, left c → text c = some (text' c))
    (hinj : ∀ c ∈ cs, ∀ d ∈ cs, ∀ s t, text' c = some s → text' d = some t →
      hashBytes s = hashBytes t → s = t) :
    ∃ (group : String → List Nat) (slots' : List (Option Slot)),
      fallbackPhase method tag text cs slots = some slots' ∧ TextGroups left text' cs group ∧
      ∀ (i : Nat) (c : ThreadCandidate) (slot : Option Slot), cs[i]? = some c → slots[i]? = some slot →
        ∃ slot', slots'[i]? = some slot' ∧ (∀ t, Grouped cs left text' c → text' c = some t →
            slot' = some ⟨method, sha256Hex (tag ++ t), firstId cs (group t)⟩) ∧
          (¬ Grouped cs left text' c → slot' = slot) := by
  have hsome : ∃ texts, fallbackTexts text cs slots = some texts := by
    cases htexts : fallbackTexts text cs slots with
    | some texts => exact ⟨texts, rfl⟩
    | none =>
      obtain ⟨i, c, slot, hc, hslot, hnone⟩ := fallbackTexts_eq_none htexts
      obtain ⟨slot₀, hslot₀, hiff⟩ := hblank i c hc
      rw [hslot] at hslot₀
      obtain rfl := Option.some.inj hslot₀
      by_cases hl : left c
      · rw [(textLeft_eq hiff).1 hl, htext c (mem_of_getElem? hc) hl] at hnone
        cases hnone
      · rw [(textLeft_eq hiff).2 hl] at hnone
        cases hnone
  obtain ⟨texts, htexts⟩ := hsome
  obtain ⟨hlen, hat⟩ := fallbackTexts_eq_some htexts hblank.length_le
  -- the text of a position, from the message that stands there
  have htextAt : ∀ (i : Nat) (c : ThreadCandidate), cs[i]? = some c → ∀ t,
      (texts[i]? = some (some t) ↔ left c ∧ text' c = some t) := by
    intro i c hc t
    obtain ⟨slot, hslot, hiff⟩ := hblank i c hc
    obtain ⟨u, hu, hleft⟩ := hat i c slot hc hslot
    rw [hu, Option.some.injEq]
    by_cases hl : left c
    · rw [(textLeft_eq hiff).1 hl, htext c (mem_of_getElem? hc) hl] at hleft
      rw [← Option.some.inj hleft]
      exact (and_iff_right hl).symm
    · rw [(textLeft_eq hiff).2 hl] at hleft
      rw [← Option.some.inj hleft]
      constructor
      · exact fun h => by cases h
      · exact fun h => absurd h.1 hl
  have hmem : ∀ (t : String) (i : Nat) (d : ThreadCandidate), cs[i]? = some d →
      (i ∈ positions texts t ↔ left d ∧ text' d = some t) := by
    intro t i d hd
    rw [mem_positions, htextAt i d hd t]
  have htextMem : ∀ s, some s ∈ texts → ∃ c ∈ cs, text' c = some s := by
    intro s hs
    obtain ⟨i, hi⟩ := getElem?_of_mem hs
    have hlt : i < cs.length := by
      rw [← hlen]
      exact (List.getElem?_eq_some_iff.mp hi).1
    have hc : cs[i]? = some cs[i] := getElem?_eq_getElem hlt
    exact ⟨cs[i], mem_of_getElem? hc, ((htextAt i cs[i] hc s).mp hi).2⟩
  obtain ⟨slots', hrun, hslots'⟩ := fallbackPhase_spec method tag htexts hblank.length_le (by
    intro s t hs ht
    obtain ⟨c, hc, hcs⟩ := htextMem s hs
    obtain ⟨d, hd, hdt⟩ := htextMem t ht
    exact hinj c hc d hd s t hcs hdt)
  refine ⟨fun t => positions texts t, slots', hrun, ⟨hmem, ?_⟩, ?_⟩
  · intro t i hi
    rw [← hlen]
    exact lt_of_mem_positions hi
  · intro i c slot hc hslot
    obtain ⟨t?, ht?, _, hslot'⟩ := hslots' i c slot hc hslot
    refine ⟨_, hslot', ?_⟩
    cases t? with
    | none =>
      refine ⟨?_, fun _ => rfl⟩
      intro t hgrouped ht
      have := (htextAt i c hc t).mpr ⟨hgrouped.1, ht⟩
      rw [ht?] at this
      cases Option.some.inj this
    | some t =>
      obtain ⟨hl, htc⟩ := (htextAt i c hc t).mp ht?
      have hi : i ∈ positions texts t := mem_positions.mpr ht?
      have hcond : 2 ≤ (positions texts t).length ↔ Grouped cs left text' c := by
        rw [two_le_positions_iff hi]
        constructor
        · rintro ⟨j, hj, hne⟩
          have hlt : j < cs.length := by
            rw [← hlen]
            exact lt_of_mem_positions hj
          have hd : cs[j]? = some cs[j] := getElem?_eq_getElem hlt
          have hboth := (hmem t j cs[j] hd).mp hj
          exact ⟨hl, t, htc, cs[j], mem_of_getElem? hd, (id_ne_iff hids hc hd).mpr hne, hboth.1, hboth.2⟩
        · rintro ⟨_, u, hu, d, hd, hne, hld, hdu⟩
          obtain ⟨j, hj⟩ := getElem?_of_mem hd
          have htu : t = u := Option.some.inj (htc.symm.trans hu)
          exact ⟨j, (hmem t j d hj).mpr ⟨hld, by rw [hdu, htu]⟩, (id_ne_iff hids hc hj).mp hne⟩
      dsimp only [groupValue]
      constructor
      · intro u hgrouped hu
        rw [if_pos (hcond.mpr hgrouped), Option.some.inj (htc.symm.trans hu)]
      · intro hnot
        rw [if_neg fun h => hnot (hcond.mp h)]
        -- a blank slot stays blank
        obtain ⟨slot₀, hslot₀, hiff⟩ := hblank i c hc
        rw [hslot] at hslot₀
        obtain rfl := Option.some.inj hslot₀
        exact (hiff.mpr hl).symm

end

end MatterThread
