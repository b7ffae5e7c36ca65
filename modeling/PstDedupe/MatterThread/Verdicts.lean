import PstDedupe.MatterThread.Threads

/-!
# The assignment of each message

`computeAssignments` with headers on: `Verdict` says which assignment a message gets, from what it
is in the set of candidates, and the thread ids of two messages are equal exactly when they are
`Mates`.
-/

namespace MatterThread

open Rust MatterCore Foundations List Option

section

variable [Target] [Sha256] [JsonStrings]

def hashedTexts (c : ThreadCandidate) : List String :=
  mids c ++ (ownText c).toList.map ("thread:v1\n" ++ ·)
    ++ (subjectText c).toList.flatMap (fun t => [t, "thread-subj:v1\n" ++ t])
    ++ (indexText c).toList.flatMap (fun t => [t, "thread-ci:v1\n" ++ t])

/-- SHA-256 does not collide on the texts that become thread ids. -/
def NoCollisions (cs : List ThreadCandidate) : Prop :=
  ∀ c ∈ cs, ∀ d ∈ cs, ∀ s ∈ hashedTexts c, ∀ t ∈ hashedTexts d, CollisionFree (bytes s) (bytes t)

variable {cs : List ThreadCandidate} {c d : ThreadCandidate} {s t : String}

omit [Sha256] in
theorem mid_mem_hashedTexts (h : t ∈ mids c) : t ∈ hashedTexts c :=
  mem_append_left _ (mem_append_left _ (mem_append_left _ h))

omit [Sha256] in
theorem own_mem_hashedTexts (h : ownText c = some t) : "thread:v1\n" ++ t ∈ hashedTexts c := by
  apply mem_append_left
  apply mem_append_left
  apply mem_append_right
  rw [h]
  exact mem_singleton_self _

omit [Sha256] in
theorem subject_mem_hashedTexts (h : subjectText c = some t) :
    t ∈ hashedTexts c ∧ "thread-subj:v1\n" ++ t ∈ hashedTexts c := by
  have hsub : ∀ x ∈ [t, "thread-subj:v1\n" ++ t], x ∈ hashedTexts c := by
    intro x hx
    apply mem_append_left
    apply mem_append_right
    rw [h]
    exact List.mem_flatMap.mpr ⟨t, mem_singleton_self t, hx⟩
  exact ⟨hsub _ mem_cons_self, hsub _ (mem_cons_of_mem _ (mem_singleton_self _))⟩

omit [Sha256] in
theorem index_mem_hashedTexts (h : indexText c = some t) :
    t ∈ hashedTexts c ∧ "thread-ci:v1\n" ++ t ∈ hashedTexts c := by
  have hsub : ∀ x ∈ [t, "thread-ci:v1\n" ++ t], x ∈ hashedTexts c := by
    intro x hx
    apply mem_append_right
    rw [h]
    exact List.mem_flatMap.mpr ⟨t, mem_singleton_self t, hx⟩
  exact ⟨hsub _ mem_cons_self, hsub _ (mem_cons_of_mem _ (mem_singleton_self _))⟩

theorem NoCollisions.eq_of_hashBytes (h : NoCollisions cs) (hc : c ∈ cs) (hd : d ∈ cs)
    (hs : s ∈ hashedTexts c) (ht : t ∈ hashedTexts d) (heq : hashBytes s = hashBytes t) : s = t :=
  bytes_injective (h c hc d hd s hs t ht heq)

theorem NoCollisions.eq_of_sha256Hex (h : NoCollisions cs) (hc : c ∈ cs) (hd : d ∈ cs)
    (hs : s ∈ hashedTexts c) (ht : t ∈ hashedTexts d) (heq : sha256Hex s = sha256Hex t) : s = t :=
  h.eq_of_hashBytes hc hd hs ht (MatterCore.digest_eq_of_sha256Hex heq)

theorem NoCollisions.distinctMids (h : NoCollisions cs) : DistinctMids cs :=
  fun _ hc _ hd _ hs _ ht => h.eq_of_hashBytes hc hd (mid_mem_hashedTexts hs) (mid_mem_hashedTexts ht)

omit [Target] [JsonStrings] in
theorem length_sha256Hex (t : String) : (sha256Hex t).length = 64 := by
  have h := length_hexEncode (Sha256.digest (bytes t)).1
  rw [(Sha256.digest (bytes t)).2] at h
  rw [← String.length_toList]
  exact h

structure Groups where
  header : ThreadCandidate → List Nat
  subject : String → List Nat
  index : String → List Nat

/-- What a message is assigned, by the first phase that takes it. -/
structure Verdict (params : ThreadParams) (cs : List ThreadCandidate) (g : Groups) (c : ThreadCandidate)
    (a : Assignment) : Prop where
  headed : Headed cs c → a = assignmentOf c (some (componentSlot cs (g.header c) (firstId cs (g.header c))))
  subjected : ∀ t, Subjected params cs c → subjectText c = some t →
    a = assignmentOf c (some ⟨.subject, sha256Hex ("thread-subj:v1\n" ++ t), firstId cs (g.subject t)⟩)
  indexed : ∀ t, Indexed params cs c → indexText c = some t →
    a = assignmentOf c (some ⟨.conversationIndex, sha256Hex ("thread-ci:v1\n" ++ t), firstId cs (g.index t)⟩)
  alone : ¬ Headed cs c → ¬ Subjected params cs c → ¬ Indexed params cs c → a = assignmentOf c none

structure Groups.Lawful (params : ThreadParams) (cs : List ThreadCandidate) (g : Groups) : Prop where
  header : HeaderGroups cs g.header
  subject : params.useSubjectFallback = true → TextGroups (LeftByHeaders cs) subjectText cs g.subject
  index : params.useConversationIndex = true → TextGroups (LeftBySubject params cs) indexText cs g.index

def IndexReadable (params : ThreadParams) (cs : List ThreadCandidate) : Prop :=
  params.useConversationIndex = true → ∀ c ∈ cs, LeftBySubject params cs c → conversationIndexText c ≠ none

variable [RandomState] {params : ThreadParams}

theorem slots_before_index (hheaders : params.useHeaders = true)
    (hids : (cs.map fun c => c.id).Nodup) (hinj : NoCollisions cs) :
    ∃ (gh : ThreadCandidate → List Nat) (gs : String → List Nat) (slots : List (Option Slot)),
      HeaderGroups cs gh ∧
      (params.useSubjectFallback = true → TextGroups (LeftByHeaders cs) subjectText cs gs) ∧
      BlankWhen (LeftBySubject params cs) cs slots ∧ computeAssignments cs params =
        (runIf params.useConversationIndex (conversationIndexPhase cs) slots).map (zipWith assignmentOf cs) ∧
      ∀ (i : Nat) (c : ThreadCandidate), cs[i]? = some c → ∃ slot, slots[i]? = some slot ∧
        (Headed cs c → slot = some (componentSlot cs (gh c) (firstId cs (gh c)))) ∧
        (∀ t, Subjected params cs c → subjectText c = some t →
          slot = some ⟨.subject, sha256Hex ("thread-subj:v1\n" ++ t), firstId cs (gs t)⟩) ∧
        (¬ Headed cs c → ¬ Subjected params cs c → slot = none) := by
  obtain ⟨gh, slotsA, hrunA, hgh, hslotsA⟩ := headerPhase_slots hids hinj.distinctMids
  have hblankA : BlankWhen (LeftByHeaders cs) cs slotsA := by
    intro i c hc
    obtain ⟨slot, hslot, hheaded, hleft⟩ := hslotsA i c hc
    refine ⟨slot, hslot, ?_, hleft⟩
    intro hnone h
    rw [hheaded h] at hnone
    cases hnone
  have hrun : computeAssignments cs params
      = (runIf params.useSubjectFallback (subjectPhase cs) slotsA).bind fun slots =>
      (runIf params.useConversationIndex (conversationIndexPhase cs) slots).map (zipWith assignmentOf cs) := by
    have hfirst : runIf params.useHeaders (headerPhase cs) (cs.map fun _ => none) = some slotsA := by
      rw [runIf, if_pos hheaders, hrunA]
    unfold computeAssignments
    dsimp only
    rw [hfirst]
    show ((runIf params.useSubjectFallback (subjectPhase cs) slotsA).bind fun slots =>
      (runIf params.useConversationIndex (conversationIndexPhase cs) slots).bind fun slots =>
        some (zipWith assignmentOf cs slots)) = _
    congr 1
    funext slots
    rw [map_eq_bind]
    rfl
  by_cases hsubject : params.useSubjectFallback = true
  · obtain ⟨gs, slotsB, hrunB, hgs, hslotsB⟩ := fallbackPhase_slots (fun c => some (subjectText c))
      subjectText .subject "thread-subj:v1\n" hids hblankA (fun _ _ _ => rfl)
      (fun c hc d hd s t hs ht => hinj.eq_of_hashBytes hc hd (subject_mem_hashedTexts hs).1
        (subject_mem_hashedTexts ht).1)
    have hslots : ∀ (i : Nat) (c : ThreadCandidate), cs[i]? = some c → ∃ slot, slotsB[i]? = some slot ∧
        (Headed cs c → slot = some (componentSlot cs (gh c) (firstId cs (gh c)))) ∧
        (∀ t, Subjected params cs c → subjectText c = some t →
          slot = some ⟨.subject, sha256Hex ("thread-subj:v1\n" ++ t), firstId cs (gs t)⟩) ∧
        (¬ Headed cs c → ¬ Subjected params cs c → slot = none) := by
      intro i c hc
      obtain ⟨slotA, hslotA, hheaded, hleft⟩ := hslotsA i c hc
      obtain ⟨slot, hslot, hgrouped, hother⟩ := hslotsB i c slotA hc hslotA
      refine ⟨slot, hslot, ?_, fun t h ht => hgrouped t h.2 ht, ?_⟩
      · intro h
        rw [hother fun hg => hg.1 h]
        exact hheaded h
      · intro h hs
        rw [hother fun hg => hs ⟨hsubject, hg⟩]
        exact hleft h
    refine ⟨gh, gs, slotsB, hgh, fun _ => hgs, ?_, ?_, hslots⟩
    · intro i c hc
      obtain ⟨slot, hslot, hheaded, hsubjected, hleft⟩ := hslots i c hc
      refine ⟨slot, hslot, ?_, fun h => hleft h.1 h.2⟩
      intro hnone
      refine ⟨fun h => ?_, fun h => ?_⟩
      · rw [hheaded h] at hnone
        cases hnone
      · obtain ⟨t, ht, _⟩ := h.2.2
        rw [hsubjected t h ht] at hnone
        cases hnone
    · rw [hrun, runIf, if_pos hsubject, subjectPhase, hrunB, bind_some]
  · have hnone : ∀ c, ¬ Subjected params cs c := fun c h => hsubject h.1
    refine ⟨gh, fun _ => [], slotsA, hgh, fun h => absurd h hsubject, ?_, ?_, ?_⟩
    · intro i c hc
      obtain ⟨slot, hslot, hiff⟩ := hblankA i c hc
      exact ⟨slot, hslot, hiff.trans (and_iff_left (hnone c)).symm⟩
    · rw [hrun, runIf, if_neg hsubject, bind_some]
    · intro i c hc
      obtain ⟨slot, hslot, hheaded, hleft⟩ := hslotsA i c hc
      exact ⟨slot, hslot, hheaded, fun t h => absurd h (hnone c), fun h _ => hleft h⟩

theorem computeAssignments_verdicts (hheaders : params.useHeaders = true) (hids : (cs.map fun c => c.id).Nodup)
    (hinj : NoCollisions cs) (hread : IndexReadable params cs) :
    ∃ g out, computeAssignments cs params = some out ∧ Groups.Lawful params cs g ∧ out.length = cs.length ∧
      ∀ (i : Nat) (c : ThreadCandidate), cs[i]? = some c → ∃ a, out[i]? = some a ∧
        Verdict params cs g c a := by
  obtain ⟨gh, gs, slots, hgh, hgs, hblank, hrun, hslots⟩ := slots_before_index hheaders hids hinj
  -- the slots after the last phase
  have hlast : ∃ (gc : String → List Nat) (slots' : List (Option Slot)),
      runIf params.useConversationIndex (conversationIndexPhase cs) slots = some slots' ∧
      (params.useConversationIndex = true → TextGroups (LeftBySubject params cs) indexText cs gc) ∧
      ∀ (i : Nat) (c : ThreadCandidate) (slot : Option Slot), cs[i]? = some c → slots[i]? = some slot →
        ∃ slot', slots'[i]? = some slot' ∧ (∀ t, Indexed params cs c → indexText c = some t →
            slot' = some ⟨.conversationIndex, sha256Hex ("thread-ci:v1\n" ++ t), firstId cs (gc t)⟩) ∧
          (¬ Indexed params cs c → slot' = slot) := by
    by_cases hindex : params.useConversationIndex = true
    · rw [runIf, if_pos hindex]
      obtain ⟨gc, slots', hrunC, hgc, hslotsC⟩ := fallbackPhase_slots conversationIndexText
        indexText .conversationIndex "thread-ci:v1\n" hids hblank (by
          intro c hc hleft
          unfold indexText
          cases htext : conversationIndexText c with
          | none => exact absurd htext (hread hindex c hc hleft)
          | some t => rfl)
        (fun c hc d hd s t hs ht => hinj.eq_of_hashBytes hc hd (index_mem_hashedTexts hs).1
          (index_mem_hashedTexts ht).1)
      refine ⟨gc, slots', hrunC, fun _ => hgc, ?_⟩
      intro i c slot hc hslot
      obtain ⟨slot', hslot', hgrouped, hother⟩ := hslotsC i c slot hc hslot
      exact ⟨slot', hslot', fun t h => hgrouped t h.2, fun h => hother fun hg => h ⟨hindex, hg⟩⟩
    · rw [runIf, if_neg hindex]
      refine ⟨fun _ => [], slots, rfl, fun h => absurd h hindex, ?_⟩
      exact fun i c slot _ hslot => ⟨slot, hslot, fun t h => absurd h.1 hindex, fun _ => rfl⟩
  obtain ⟨gc, slots', hrunC, hgc, hslots'⟩ := hlast
  refine ⟨⟨gh, gs, gc⟩, zipWith assignmentOf cs slots', ?_, ⟨hgh, hgs, hgc⟩, ?_, ?_⟩
  · rw [hrun, hrunC]
    rfl
  · rw [length_zipWith]
    apply Nat.min_eq_left
    by_contra hlt
    have hi : slots'.length < cs.length := by omega
    obtain ⟨slot, hslot, _⟩ := hslots slots'.length cs[slots'.length] (getElem?_eq_getElem hi)
    obtain ⟨slot', hslot', _⟩ := hslots' slots'.length _ slot (getElem?_eq_getElem hi) hslot
    rw [getElem?_eq_none (Nat.le_refl _)] at hslot'
    cases hslot'
  · intro i c hc
    obtain ⟨slot, hslot, hheaded, hsubjected, hleft⟩ := hslots i c hc
    obtain ⟨slot', hslot', hindexed, hother⟩ := hslots' i c slot hc hslot
    refine ⟨assignmentOf c slot', ?_, ?_, ?_, ?_, ?_⟩
    · rw [getElem?_zipWith, hc, hslot']
    · intro h
      rw [hother fun hi => hi.2.1.1 h, hheaded h]
    · intro t h ht
      rw [hother fun hi => hi.2.1.2 h, hsubjected t h ht]
    · intro t h ht
      rw [hindexed t h ht]
    · intro h hs hi
      rw [hother hi, hleft h hs]

theorem computeAssignments_eq_none (hheaders : params.useHeaders = true) (hids : (cs.map fun c => c.id).Nodup)
    (hinj : NoCollisions cs) (hread : ¬ IndexReadable params cs) : computeAssignments cs params = none := by
  obtain ⟨_, _, slots, _, _, hblank, hrun, _⟩ := slots_before_index hheaders hids hinj
  unfold IndexReadable at hread
  push Not at hread
  obtain ⟨hindex, c, hc, hleft, hnone⟩ := hread
  rw [hrun, runIf, if_pos hindex, conversationIndexPhase,
    fallbackPhase_eq_none .conversationIndex "thread-ci:v1\n" hblank hc hleft hnone]
  rfl

end

/-!
# Thread ids tell threads apart

Two messages are `Mates` when one phase puts them into one group, and that is when their thread
ids are equal: a header thread is named by a Message-ID of one of its members or by the id of one,
a later thread by its tagged text, and a message alone by what is its own.
-/

section

variable [Target] [Sha256] [JsonStrings] {t : String}

variable {params : ThreadParams} {cs : List ThreadCandidate} {g : Groups}
  {c d e e' : ThreadCandidate} {a b : Assignment}

/-- The two messages belong in one thread. -/
def Mates (params : ThreadParams) (cs : List ThreadCandidate) (c d : ThreadCandidate) : Prop :=
  c.id = d.id ∨ (Headed cs c ∧ Headed cs d ∧ Connected cs c d) ∨
    (Subjected params cs c ∧ Subjected params cs d ∧ subjectText c = subjectText d) ∨
    (Indexed params cs c ∧ Indexed params cs d ∧ indexText c = indexText d)

structure PlainIds (cs : List ThreadCandidate) : Prop where
  nodup : (cs.map fun c => c.id).Nodup
  length : ∀ c ∈ cs, c.id.length ≠ 64

omit [Target] [Sha256] [JsonStrings] in
theorem PlainIds.eq (h : PlainIds cs) (hc : c ∈ cs) (hd : d ∈ cs) (heq : c.id = d.id) : c = d :=
  inj_on_of_nodup_map h.nodup hc hd heq

omit [Target] [JsonStrings] in
theorem PlainIds.ne_sha256Hex (h : PlainIds cs) (hc : c ∈ cs) (t : String) : c.id ≠ sha256Hex t := by
  intro heq
  apply h.length c hc
  rw [heq, length_sha256Hex]

omit [Sha256] in
theorem connected_trans (hmem : d ∈ cs) (h : Connected cs c d) (h' : Connected cs d e) : Connected cs c e := by
  obtain ⟨s, hs, t, ht, hst⟩ := h
  obtain ⟨t', ht', u, hu, htu⟩ := h'
  exact ⟨s, hs, u, hu, .trans _ _ _ hst (.trans _ _ _ (.rel _ _ ⟨d, hmem, ht, ht'⟩) htu)⟩

omit [Sha256] in
theorem placed_of_ownText (h : ownText c = some t) : Placed c := by
  unfold Placed placingText
  rw [h]
  rfl

omit [Sha256] in
theorem mem_mids_of_ownText (h : ownText c = some t) : t ∈ mids c := by
  unfold mids
  rw [h]
  exact mem_append_left _ (mem_singleton_self t)

def Near (cs : List ThreadCandidate) (c e : ThreadCandidate) : Prop :=
  e = c ∨ (Headed cs c ∧ Placed e ∧ Connected cs c e)

theorem mates_of_near (hc : c ∈ cs) (hd : d ∈ cs) (he : e ∈ cs) (he' : e' ∈ cs) (hce : Near cs c e)
    (hde : Near cs d e') (h : e = e' ∨ (Placed e ∧ Placed e' ∧ Connected cs e e')) : Mates params cs c d := by
  by_cases hid : c.id = d.id
  · exact Or.inl hid
  -- both are placed and connected, so both are headed
  have hplaced : e = e' → Placed e := by
    intro heq
    rcases hce with rfl | ⟨_, hpe, _⟩
    · rcases hde with rfl | ⟨_, hpe', _⟩
      · exact absurd (congrArg ThreadCandidate.id heq) hid
      · rw [heq]
        exact hpe'
    · exact hpe
  have hlinked : Placed e ∧ Placed e' ∧ Connected cs e e' := by
    rcases h with rfl | h
    · exact ⟨hplaced rfl, hplaced rfl, connected_self (hplaced rfl)⟩
    · exact h
  have hcPlaced : Placed c ∧ Connected cs c e := by
    rcases hce with rfl | ⟨hh, _, hconn⟩
    · exact ⟨hlinked.1, connected_self hlinked.1⟩
    · exact ⟨hh.1, hconn⟩
  have hdPlaced : Placed d ∧ Connected cs d e' := by
    rcases hde with rfl | ⟨hh, _, hconn⟩
    · exact ⟨hlinked.2.1, connected_self hlinked.2.1⟩
    · exact ⟨hh.1, hconn⟩
  have hconn : Connected cs c d :=
    connected_trans he' (connected_trans he hcPlaced.2 hlinked.2.2) (connected_symm hdPlaced.2)
  have hheadC : Headed cs c := ⟨hcPlaced.1, Or.inr ⟨d, hd, fun heq => hid heq.symm, hdPlaced.1, hconn⟩⟩
  have hheadD : Headed cs d := ⟨hdPlaced.1, Or.inr ⟨c, hc, hid, hcPlaced.1, connected_symm hconn⟩⟩
  exact Or.inr (Or.inl ⟨hheadC, hheadD, hconn⟩)

omit [Sha256] [JsonStrings] in
theorem mem_matterMids {members : List Nat} (h : (matterMids cs members).head? = some t) :
    ∃ i ∈ members, ∃ e, cs[i]? = some e ∧ ownText e = some t := by
  have hmem := mem_of_mem_head? h
  rw [matterMids, mem_vecDedup_sortStrings, mem_filterMap] at hmem
  obtain ⟨i, hi, hbind⟩ := hmem
  obtain ⟨e, he, hown⟩ := Option.bind_eq_some_iff.mp hbind
  exact ⟨i, hi, e, he, hown⟩

omit [Target] [Sha256] [JsonStrings] in
theorem exists_firstId {members : List Nat} (hlt : ∀ i ∈ members, i < cs.length) (hne : members ≠ []) :
    ∃ r ∈ members, ∃ e, cs[r]? = some e ∧ firstId cs members = e.id ∧ ∀ i ∈ members, r ≤ i := by
  cases hmin : members.min? with
  | none => exact absurd (List.min?_eq_none_iff.mp hmin) hne
  | some r =>
    obtain ⟨e, he, hfirst⟩ := exists_first hlt hmin
    exact ⟨r, min?_mem hmin, e, he, hfirst, fun i hi => (le_min?_iff hmin).mp (Nat.le_refl r) i hi⟩

theorem name_of_near (hg : g.Lawful params cs) (hc : c ∈ cs) (ha : Verdict params cs g c a)
    (hs : ¬ Subjected params cs c) (hi : ¬ Indexed params cs c) : ∃ e ∈ cs, Near cs c e ∧
      ((∃ t, ownText e = some t ∧ a.threadId = sha256Hex ("thread:v1\n" ++ t)) ∨ a.threadId = e.id) := by
  by_cases hh : Headed cs c
  · rw [ha.headed hh]
    show ∃ e ∈ cs, Near cs c e ∧ ((∃ t, ownText e = some t ∧
      (componentSlot cs (g.header c) (firstId cs (g.header c))).threadId = _) ∨
      (componentSlot cs (g.header c) (firstId cs (g.header c))).threadId = _)
    unfold componentSlot
    dsimp only
    have hnear : ∀ i ∈ g.header c, ∀ e, cs[i]? = some e → Near cs c e := by
      intro i hi e he
      have := (hg.header.mem_iff c hc hh.1 i e he).mp hi
      exact Or.inr ⟨hh, this.1, this.2⟩
    cases hmids : (matterMids cs (g.header c)).head? with
    | some t =>
      obtain ⟨i, hi, e, he, hown⟩ := mem_matterMids hmids
      exact ⟨e, mem_of_getElem? he, hnear i hi e he, Or.inl ⟨t, hown, rfl⟩⟩
    | none =>
      obtain ⟨i, hiAt⟩ := getElem?_of_mem hc
      have hself := (hg.header.mem_iff c hc hh.1 i c hiAt).mpr ⟨hh.1, connected_self hh.1⟩
      obtain ⟨r, hr, e, he, hfirst, _⟩ := exists_firstId (hg.header.lt c) (ne_nil_of_mem hself)
      exact ⟨e, mem_of_getElem? he, hnear r hr e he, Or.inr hfirst⟩
  · rw [ha.alone hh hs hi]
    refine ⟨c, hc, Or.inl rfl, ?_⟩
    unfold assignmentOf
    rw [show c.messageId.bind messageIdText = ownText c from rfl]
    cases hown : ownText c with
    | some t => exact Or.inl ⟨t, rfl, rfl⟩
    | none => exact Or.inr rfl

omit [Target] [Sha256] [JsonStrings] in
theorem append_right_injective {tag s t : String} (h : tag ++ s = tag ++ t) : s = t := by
  have hchars := congrArg String.toList h
  rw [String.toList_append, String.toList_append] at hchars
  exact String.toList_inj.mp (append_cancel_left hchars)

omit [Target] [Sha256] [JsonStrings] in
theorem tags_ne (s t : String) : "thread:v1\n" ++ s ≠ "thread-subj:v1\n" ++ t ∧
    "thread:v1\n" ++ s ≠ "thread-ci:v1\n" ++ t ∧ "thread-subj:v1\n" ++ s ≠ "thread-ci:v1\n" ++ t := by
  refine ⟨?_, ?_, ?_⟩ <;>
  · intro h
    have hchars := congrArg (fun u => (u.toList.drop 6).take 2) h
    simp [String.toList_append] at hchars

theorem name_of_subjected (ha : Verdict params cs g c a) (h : Subjected params cs c) :
    ∃ t, subjectText c = some t ∧ a.threadId = sha256Hex ("thread-subj:v1\n" ++ t) := by
  obtain ⟨t, ht, _⟩ := h.2.2
  refine ⟨t, ht, ?_⟩
  rw [ha.subjected t h ht]
  rfl

theorem name_of_indexed (ha : Verdict params cs g c a) (h : Indexed params cs c) :
    ∃ t, indexText c = some t ∧ a.threadId = sha256Hex ("thread-ci:v1\n" ++ t) := by
  obtain ⟨t, ht, _⟩ := h.2.2
  refine ⟨t, ht, ?_⟩
  rw [ha.indexed t h ht]
  rfl

theorem near_name_ne (hids : PlainIds cs) (hinj : NoCollisions cs) (hd : d ∈ cs) {tag t : String}
    (htag : ∀ s, "thread:v1\n" ++ s ≠ tag ++ t) (ht : tag ++ t ∈ hashedTexts d) (he : e ∈ cs)
    (h : (∃ s, ownText e = some s ∧ a.threadId = sha256Hex ("thread:v1\n" ++ s)) ∨ a.threadId = e.id) :
    a.threadId ≠ sha256Hex (tag ++ t) := by
  rcases h with ⟨s, hown, heq⟩ | heq
  · rw [heq]
    exact fun hhash => htag s (hinj.eq_of_sha256Hex he hd (own_mem_hashedTexts hown) ht hhash)
  · rw [heq]
    exact hids.ne_sha256Hex he _

theorem threadId_eq_iff (hids : PlainIds cs) (hinj : NoCollisions cs) (hg : g.Lawful params cs)
    (hc : c ∈ cs) (hd : d ∈ cs) (ha : Verdict params cs g c a) (hb : Verdict params cs g d b) :
    a.threadId = b.threadId ↔ Mates params cs c d := by
  constructor
  · intro heq
    by_cases hsc : Subjected params cs c
    · obtain ⟨s, hs, has⟩ := name_of_subjected ha hsc
      have hsmem := (subject_mem_hashedTexts hs).2
      by_cases hsd : Subjected params cs d
      · obtain ⟨t, ht, hbt⟩ := name_of_subjected hb hsd
        rw [has, hbt] at heq
        have htext := hinj.eq_of_sha256Hex hc hd hsmem (subject_mem_hashedTexts ht).2 heq
        refine Or.inr (Or.inr (Or.inl ⟨hsc, hsd, ?_⟩))
        rw [hs, ht, append_right_injective htext]
      · by_cases hid : Indexed params cs d
        · obtain ⟨t, ht, hbt⟩ := name_of_indexed hb hid
          rw [has, hbt] at heq
          exact absurd (hinj.eq_of_sha256Hex hc hd hsmem (index_mem_hashedTexts ht).2 heq) (tags_ne s t).2.2
        · obtain ⟨e, he, _, hname⟩ := name_of_near hg hd hb hsd hid
          rw [has] at heq
          exact absurd heq.symm (near_name_ne hids hinj hc (fun u => (tags_ne u s).1) hsmem he hname)
    · by_cases hic : Indexed params cs c
      · obtain ⟨s, hs, has⟩ := name_of_indexed ha hic
        have hsmem := (index_mem_hashedTexts hs).2
        by_cases hsd : Subjected params cs d
        · obtain ⟨t, ht, hbt⟩ := name_of_subjected hb hsd
          rw [has, hbt] at heq
          exact absurd (hinj.eq_of_sha256Hex hd hc (subject_mem_hashedTexts ht).2 hsmem heq.symm)
            (tags_ne t s).2.2
        · by_cases hid : Indexed params cs d
          · obtain ⟨t, ht, hbt⟩ := name_of_indexed hb hid
            rw [has, hbt] at heq
            have htext := hinj.eq_of_sha256Hex hc hd hsmem (index_mem_hashedTexts ht).2 heq
            refine Or.inr (Or.inr (Or.inr ⟨hic, hid, ?_⟩))
            rw [hs, ht, append_right_injective htext]
          · obtain ⟨e, he, _, hname⟩ := name_of_near hg hd hb hsd hid
            rw [has] at heq
            exact absurd heq.symm (near_name_ne hids hinj hc (fun u => (tags_ne u s).2.1) hsmem he hname)
      · obtain ⟨e, he, hce, hname⟩ := name_of_near hg hc ha hsc hic
        by_cases hsd : Subjected params cs d
        · obtain ⟨t, ht, hbt⟩ := name_of_subjected hb hsd
          rw [hbt] at heq
          exact absurd heq
            (near_name_ne hids hinj hd (fun u => (tags_ne u t).1) (subject_mem_hashedTexts ht).2 he hname)
        · by_cases hid : Indexed params cs d
          · obtain ⟨t, ht, hbt⟩ := name_of_indexed hb hid
            rw [hbt] at heq
            exact absurd heq
              (near_name_ne hids hinj hd (fun u => (tags_ne u t).2.1) (index_mem_hashedTexts ht).2 he hname)
          · -- both names come from the header graph
            obtain ⟨e', he', hde, hname'⟩ := name_of_near hg hd hb hsd hid
            apply mates_of_near hc hd he he' hce hde
            rcases hname with ⟨s, hs, has⟩ | has
            · rcases hname' with ⟨t, ht, hbt⟩ | hbt
              · rw [has, hbt] at heq
                have htext := hinj.eq_of_sha256Hex he he' (own_mem_hashedTexts hs) (own_mem_hashedTexts ht) heq
                rw [← append_right_injective htext] at ht
                exact Or.inr ⟨placed_of_ownText hs, placed_of_ownText ht,
                  s, mem_mids_of_ownText hs, s, mem_mids_of_ownText ht, .refl s⟩
              · rw [has, hbt] at heq
                exact absurd heq.symm (hids.ne_sha256Hex he' _)
            · rcases hname' with ⟨t, ht, hbt⟩ | hbt
              · rw [has, hbt] at heq
                exact absurd heq (hids.ne_sha256Hex he _)
              · rw [has, hbt] at heq
                exact Or.inl (hids.eq he he' heq)
  · rintro (hid | ⟨hhc, hhd, hconn⟩ | ⟨hsc, hsd, htext⟩ | ⟨hic, hid, htext⟩)
    · -- one message has one verdict
      obtain rfl := hids.eq hc hd hid
      by_cases hh : Headed cs c
      · rw [ha.headed hh, hb.headed hh]
      · by_cases hs : Subjected params cs c
        · obtain ⟨t, ht, has⟩ := name_of_subjected ha hs
          rw [ha.subjected t hs ht, hb.subjected t hs ht]
        · by_cases hi : Indexed params cs c
          · obtain ⟨t, ht, has⟩ := name_of_indexed ha hi
            rw [ha.indexed t hi ht, hb.indexed t hi ht]
          · rw [ha.alone hh hs hi, hb.alone hh hs hi]
    · rw [ha.headed hhc, hb.headed hhd, (hg.header.eq_iff c hc d hd hhc.1 hhd.1).mpr hconn]
      rfl
    · obtain ⟨s, hs, has⟩ := name_of_subjected ha hsc
      obtain ⟨t, ht, hbt⟩ := name_of_subjected hb hsd
      rw [htext, ht] at hs
      rw [has, hbt, Option.some.inj hs]
    · obtain ⟨s, hs, has⟩ := name_of_indexed ha hic
      obtain ⟨t, ht, hbt⟩ := name_of_indexed hb hid
      rw [htext, ht] at hs
      rw [has, hbt, Option.some.inj hs]

end

end MatterThread
