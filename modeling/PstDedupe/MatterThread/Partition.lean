import PstDedupe.MatterThread.Verdicts

/-!
# Threads partition the candidates

`ThreadPartition` is what threading is for: an assignment for each candidate in order, header
threads that are the connected components of the Message-ID graph, singletons that are alone, roots
that come first, and no dependence on the order of the candidates.
-/

namespace MatterThread

open Rust MatterCore Foundations List Option

section

variable [Target] [Sha256] [JsonStrings] [RandomState]

/-- Both are threaded by their headers, in one thread. -/
def SameHeaderThread (a b : Assignment) : Prop :=
  a.threadMethod = .headers ∧ b.threadMethod = .headers ∧ a.threadId = b.threadId

def ShareThread (out : List Assignment) (x y : String) : Prop :=
  ∃ a ∈ out, ∃ b ∈ out, a.itemId = x ∧ b.itemId = y ∧ a.threadId = b.threadId

/-- What threading promises of an output. -/
structure ThreadPartition (params : ThreadParams) (cs : List ThreadCandidate)
    (out : List Assignment) : Prop where
  items : out.map (fun a => a.itemId) = cs.map fun c => c.id
  headers : ∀ c d a b, (c, a) ∈ cs.zip out → (d, b) ∈ cs.zip out → c.id ≠ d.id → mids c ≠ [] →
    mids d ≠ [] → (SameHeaderThread a b ↔ Connected cs c d)
  singletons : ∀ a ∈ out, ∀ b ∈ out, a.threadMethod = .singleton → b.threadId = a.threadId →
    b.itemId = a.itemId
  roots : ∀ a ∈ out,
    (out.find? fun b => b.threadId = a.threadId).map (fun b => b.itemId) = some a.threadRootItemId
  order : ∀ cs', cs'.Perm cs → ∃ out', computeAssignments cs' params = some out' ∧
    ∀ c ∈ cs, ∀ d ∈ cs, ShareThread out' c.id d.id ↔ ShareThread out c.id d.id

/-- No ConversationIndex is cut inside a character, and who is connected is placed by a text of its
own. -/
structure Threadable (params : ThreadParams) (cs : List ThreadCandidate) : Prop where
  readable : IndexReadable params cs
  placed : ∀ c ∈ cs, ∀ d ∈ cs, c.id ≠ d.id → Connected cs c d → Placed c

variable {params : ThreadParams} {cs : List ThreadCandidate} {g : Groups} {c d : ThreadCandidate}
  {a b : Assignment}
  {out : List Assignment}

structure Decided (params : ThreadParams) (cs : List ThreadCandidate) (g : Groups)
    (out : List Assignment) : Prop where
  length : out.length = cs.length
  verdict : ∀ (i : Nat) (c : ThreadCandidate), cs[i]? = some c → ∃ a, out[i]? = some a ∧
    Verdict params cs g c a

omit [RandomState] in
theorem Verdict.itemId (h : Verdict params cs g c a) : a.itemId = c.id := by
  by_cases hh : Headed cs c
  · rw [h.headed hh]
    rfl
  · by_cases hs : Subjected params cs c
    · obtain ⟨t, ht, _⟩ := hs.2.2
      rw [h.subjected t hs ht]
      rfl
    · by_cases hi : Indexed params cs c
      · obtain ⟨t, ht, _⟩ := hi.2.2
        rw [h.indexed t hi ht]
        rfl
      · rw [h.alone hh hs hi]
        rfl

omit [RandomState] in
theorem Verdict.method (h : Verdict params cs g c a) : (a.threadMethod = .headers ↔ Headed cs c) ∧
      (a.threadMethod = .singleton ↔ ¬ Headed cs c ∧ ¬ Subjected params cs c ∧ ¬ Indexed params cs c) := by
  by_cases hh : Headed cs c
  · rw [h.headed hh]
    exact ⟨iff_of_true rfl hh, iff_of_false (fun h => by cases h) fun h => h.1 hh⟩
  · by_cases hs : Subjected params cs c
    · obtain ⟨t, ht, _⟩ := hs.2.2
      rw [h.subjected t hs ht]
      exact ⟨iff_of_false (fun h => by cases h) hh, iff_of_false (fun h => by cases h) fun h => h.2.1 hs⟩
    · by_cases hi : Indexed params cs c
      · obtain ⟨t, ht, _⟩ := hi.2.2
        rw [h.indexed t hi ht]
        exact ⟨iff_of_false (fun h => by cases h) hh, iff_of_false (fun h => by cases h) fun h => h.2.2 hi⟩
      · rw [h.alone hh hs hi]
        exact ⟨iff_of_false (fun h => by cases h) hh, iff_of_true rfl ⟨hh, hs, hi⟩⟩

omit [RandomState] in
theorem Decided.of_mem (h : Decided params cs g out) (ha : a ∈ out) :
    ∃ (i : Nat) (c : ThreadCandidate), cs[i]? = some c ∧ out[i]? = some a ∧ Verdict params cs g c a := by
  obtain ⟨i, hi⟩ := getElem?_of_mem ha
  have hlt : i < cs.length := by
    rw [← h.length]
    exact (List.getElem?_eq_some_iff.mp hi).1
  obtain ⟨a', ha', hv⟩ := h.verdict i cs[i] (getElem?_eq_getElem hlt)
  rw [hi] at ha'
  obtain rfl := Option.some.inj ha'
  exact ⟨i, cs[i], getElem?_eq_getElem hlt, hi, hv⟩

omit [RandomState] in
theorem Decided.of_zip (h : Decided params cs g out) (hmem : (c, a) ∈ cs.zip out) :
    c ∈ cs ∧ Verdict params cs g c a := by
  obtain ⟨i, hi⟩ := getElem?_of_mem hmem
  rw [getElem?_zip_eq_some] at hi
  obtain ⟨a', ha', hv⟩ := h.verdict i c hi.1
  rw [hi.2] at ha'
  obtain rfl := Option.some.inj ha'
  exact ⟨mem_of_getElem? hi.1, hv⟩

omit [RandomState] in
theorem Decided.items (h : Decided params cs g out) : out.map (fun a => a.itemId) = cs.map fun c => c.id := by
  apply ext_getElem?
  intro i
  rw [getElem?_map, getElem?_map]
  cases hc : cs[i]? with
  | none =>
    have hle := List.getElem?_eq_none_iff.mp hc
    rw [getElem?_eq_none (by rw [h.length]; exact hle)]
    rfl
  | some c =>
    obtain ⟨a, ha, hv⟩ := h.verdict i c hc
    rw [ha, map_some, map_some, hv.itemId]

omit [RandomState] in
theorem Decided.shareThread_iff (h : Decided params cs g out) (hids : PlainIds cs)
    (hinj : NoCollisions cs) (hg : g.Lawful params cs) (hc : c ∈ cs) (hd : d ∈ cs) :
    ShareThread out c.id d.id ↔ Mates params cs c d := by
  constructor
  · rintro ⟨a, ha, b, hb, hac, hbd, heq⟩
    obtain ⟨i, c', hc', _, hva⟩ := h.of_mem ha
    obtain ⟨j, d', hd', _, hvb⟩ := h.of_mem hb
    have hcc := hids.eq (mem_of_getElem? hc') hc (hva.itemId.symm.trans hac)
    have hdd := hids.eq (mem_of_getElem? hd') hd (hvb.itemId.symm.trans hbd)
    rw [hcc] at hva
    rw [hdd] at hvb
    exact (threadId_eq_iff hids hinj hg hc hd hva hvb).mp heq
  · intro hmates
    obtain ⟨i, hi⟩ := getElem?_of_mem hc
    obtain ⟨j, hj⟩ := getElem?_of_mem hd
    obtain ⟨a, ha, hva⟩ := h.verdict i c hi
    obtain ⟨b, hb, hvb⟩ := h.verdict j d hj
    exact ⟨a, mem_of_getElem? ha, b, mem_of_getElem? hb, hva.itemId, hvb.itemId,
      (threadId_eq_iff hids hinj hg hc hd hva hvb).mpr hmates⟩

omit [RandomState] in
theorem Decided.find_root (h : Decided params cs g out) (hids : PlainIds cs) (hinj : NoCollisions cs)
    (hg : g.Lawful params cs) (hc : c ∈ cs) (hv : Verdict params cs g c a) (members : List Nat)
    (hlt : ∀ i ∈ members, i < cs.length)
    (hmem : ∀ (i : Nat) (d : ThreadCandidate), cs[i]? = some d → (i ∈ members ↔ Mates params cs c d)) :
    (out.find? fun b => b.threadId = a.threadId).map (fun b => b.itemId) = some (firstId cs members) := by
  obtain ⟨i, hi⟩ := getElem?_of_mem hc
  have hself : i ∈ members := (hmem i c hi).mpr (Or.inl rfl)
  obtain ⟨r, hr, e, he, hfirst, hleast⟩ := exists_firstId hlt (ne_nil_of_mem hself)
  obtain ⟨b, hb, hvb⟩ := h.verdict r e he
  have hbtid : b.threadId = a.threadId :=
    ((threadId_eq_iff hids hinj hg hc (mem_of_getElem? he) hv hvb).mpr ((hmem r e he).mp hr)).symm
  have hfind : (out.find? fun b => b.threadId = a.threadId) = some b := by
    rw [find?_eq_some_iff_getElem]
    obtain ⟨hrlt, hrb⟩ := List.getElem?_eq_some_iff.mp hb
    refine ⟨decide_eq_true hbtid, r, hrlt, hrb, ?_⟩
    intro j hj
    -- an earlier item with the thread id would be an earlier member
    have hjlt : j < cs.length := by
      rw [← h.length]
      omega
    obtain ⟨b', hb', hvb'⟩ := h.verdict j cs[j] (getElem?_eq_getElem hjlt)
    rw [(List.getElem?_eq_some_iff.mp hb').2, Bool.not_eq_true', decide_eq_false_iff_not]
    intro htid
    have hmates := (threadId_eq_iff hids hinj hg hc (getElem_mem hjlt) hv hvb').mp htid.symm
    have := hleast j ((hmem j cs[j] (getElem?_eq_getElem hjlt)).mpr hmates)
    omega
  rw [hfind, map_some, hvb.itemId, hfirst]

omit [RandomState] in
theorem headed_of_connected (hc : c ∈ cs) (hh : Headed cs c) (hp : Placed d)
    (hconn : Connected cs c d) (hids : PlainIds cs) (hd : d ∈ cs) : Headed cs d := by
  by_cases hid : c.id = d.id
  · rw [← hids.eq hc hd hid]
    exact hh
  · exact ⟨hp, Or.inr ⟨c, hc, hid, hh.1, connected_symm hconn⟩⟩

omit [RandomState] [Target] [Sha256] [JsonStrings] in
theorem Grouped.of_text {left : ThreadCandidate → Prop} {text : ThreadCandidate → Option String} {t : String}
    (h : Grouped cs left text c) (hc : c ∈ cs) (ht : text c = some t) (hd : d ∈ cs) (hleft : left d)
    (hdt : text d = some t) (hids : PlainIds cs) : Grouped cs left text d := by
  by_cases hid : c.id = d.id
  · rw [← hids.eq hc hd hid]
    exact h
  · exact ⟨hleft, t, hdt, c, hc, hid, h.1, ht⟩

omit [RandomState] in
theorem Decided.roots (h : Decided params cs g out) (hids : PlainIds cs) (hinj : NoCollisions cs)
    (hg : g.Lawful params cs) (hc : c ∈ cs) (hv : Verdict params cs g c a) :
    (out.find? fun b => b.threadId = a.threadId).map (fun b => b.itemId) = some a.threadRootItemId := by
  by_cases hh : Headed cs c
  · rw [h.find_root hids hinj hg hc hv (g.header c) (hg.header.lt c), hv.headed hh]
    · rfl
    · intro i d hd
      rw [hg.header.mem_iff c hc hh.1 i d hd]
      have hdmem := mem_of_getElem? hd
      constructor
      · exact fun hmem => Or.inr (Or.inl ⟨hh, headed_of_connected hc hh hmem.1 hmem.2 hids hdmem, hmem.2⟩)
      · rintro (hid | ⟨_, hhd, hconn⟩ | ⟨hs, _⟩ | ⟨hi, _⟩)
        · rw [← hids.eq hc hdmem hid]
          exact ⟨hh.1, connected_self hh.1⟩
        · exact ⟨hhd.1, hconn⟩
        · exact absurd hh hs.2.1
        · exact absurd hh hi.2.1.1
  · by_cases hs : Subjected params cs c
    · obtain ⟨t, ht, _⟩ := hs.2.2
      have hgroup := hg.subject hs.1
      rw [h.find_root hids hinj hg hc hv (g.subject t) (hgroup.lt t), hv.subjected t hs ht]
      · rfl
      · intro i d hd
        rw [hgroup.mem_iff t i d hd]
        have hdmem := mem_of_getElem? hd
        constructor
        · intro hmem
          refine Or.inr (Or.inr (Or.inl ⟨hs, ⟨hs.1, hs.2.of_text hc ht hdmem hmem.1 hmem.2 hids⟩, ?_⟩))
          rw [ht, hmem.2]
        · rintro (hid | ⟨hhc, _⟩ | ⟨_, hsd, htext⟩ | ⟨hi, _⟩)
          · rw [← hids.eq hc hdmem hid]
            exact ⟨hh, ht⟩
          · exact absurd hhc hh
          · exact ⟨hsd.2.1, htext.symm.trans ht⟩
          · exact absurd hs hi.2.1.2
    · by_cases hi : Indexed params cs c
      · obtain ⟨t, ht, _⟩ := hi.2.2
        have hgroup := hg.index hi.1
        rw [h.find_root hids hinj hg hc hv (g.index t) (hgroup.lt t), hv.indexed t hi ht]
        · rfl
        · intro i d hd
          rw [hgroup.mem_iff t i d hd]
          have hdmem := mem_of_getElem? hd
          constructor
          · intro hmem
            refine Or.inr (Or.inr (Or.inr ⟨hi, ⟨hi.1, hi.2.of_text hc ht hdmem hmem.1 hmem.2 hids⟩, ?_⟩))
            rw [ht, hmem.2]
          · rintro (hid | ⟨hhc, _⟩ | ⟨hsc, _⟩ | ⟨_, hid, htext⟩)
            · rw [← hids.eq hc hdmem hid]
              exact ⟨⟨hh, hs⟩, ht⟩
            · exact absurd hhc hh
            · exact absurd hsc hs
            · exact ⟨hid.2.1, htext.symm.trans ht⟩
      · -- a message alone is its own root
        obtain ⟨i, hiAt⟩ := getElem?_of_mem hc
        rw [h.find_root hids hinj hg hc hv [i], hv.alone hh hs hi]
        · show some (firstId cs [i]) = some c.id
          unfold firstId
          rw [show [i].min? = some i from rfl, bind_some, hiAt]
          rfl
        · intro j hj
          rw [List.mem_singleton.mp hj]
          exact (List.getElem?_eq_some_iff.mp hiAt).1
        · intro j d hd
          rw [mem_singleton]
          constructor
          · intro heq
            rw [heq, hiAt] at hd
            exact Or.inl (congrArg ThreadCandidate.id (Option.some.inj hd))
          · rintro (hid | ⟨hhc, _⟩ | ⟨hsc, _⟩ | ⟨hic, _⟩)
            · exact not_not.mp fun hne => (id_ne_iff hids.nodup hiAt hd).mpr hne hid.symm
            · exact absurd hhc hh
            · exact absurd hsc hs
            · exact absurd hic hi

section

variable {cs' : List ThreadCandidate}

omit [Sha256] [RandomState] in
theorem connected_congr (h : ∀ c, c ∈ cs' ↔ c ∈ cs) (c d : ThreadCandidate) :
    Connected cs' c d ↔ Connected cs c d := by
  have hjoined : Joined cs' = Joined cs := by
    funext s t
    unfold Joined
    simp only [h]
  unfold Connected
  rw [hjoined]

omit [RandomState] in
theorem headed_congr (h : ∀ c, c ∈ cs' ↔ c ∈ cs) (c : ThreadCandidate) : Headed cs' c ↔ Headed cs c := by
  unfold Headed
  simp only [h, connected_congr h]

omit [RandomState] [Target] [Sha256] [JsonStrings] in
theorem grouped_congr (h : ∀ c, c ∈ cs' ↔ c ∈ cs) {left left' : ThreadCandidate → Prop}
    (hleft : ∀ c, left' c ↔ left c) (text : ThreadCandidate → Option String) (c : ThreadCandidate) :
    Grouped cs' left' text c ↔ Grouped cs left text c := by
  unfold Grouped
  simp only [h, hleft]

omit [RandomState] in
theorem subjected_congr (h : ∀ c, c ∈ cs' ↔ c ∈ cs) (c : ThreadCandidate) :
    Subjected params cs' c ↔ Subjected params cs c :=
  and_congr_right fun _ => grouped_congr h (fun d => not_congr (headed_congr h d)) subjectText c

omit [RandomState] in
theorem leftBySubject_congr (h : ∀ c, c ∈ cs' ↔ c ∈ cs) (c : ThreadCandidate) :
    LeftBySubject params cs' c ↔ LeftBySubject params cs c :=
  and_congr (not_congr (headed_congr h c)) (not_congr (subjected_congr h c))

omit [RandomState] in
theorem indexed_congr (h : ∀ c, c ∈ cs' ↔ c ∈ cs) (c : ThreadCandidate) :
    Indexed params cs' c ↔ Indexed params cs c :=
  and_congr_right fun _ => grouped_congr h (fun d => leftBySubject_congr h d) indexText c

omit [RandomState] in
theorem mates_congr (h : ∀ c, c ∈ cs' ↔ c ∈ cs) (c d : ThreadCandidate) :
    Mates params cs' c d ↔ Mates params cs c d := by
  unfold Mates
  simp only [headed_congr h, connected_congr h, subjected_congr h, indexed_congr h]

omit [RandomState] in
theorem indexReadable_congr (h : ∀ c, c ∈ cs' ↔ c ∈ cs) : IndexReadable params cs' ↔
    IndexReadable params cs := by
  unfold IndexReadable
  simp only [h, leftBySubject_congr h]

omit [RandomState] in
theorem noCollisions_congr (h : ∀ c, c ∈ cs' ↔ c ∈ cs) : NoCollisions cs' ↔ NoCollisions cs := by
  unfold NoCollisions
  simp only [h]

omit [Target] [Sha256] [JsonStrings] [RandomState] in
theorem PlainIds.perm (h : PlainIds cs) (hperm : cs'.Perm cs) : PlainIds cs' where
  nodup := ((hperm.map fun c => c.id).nodup_iff).mpr h.nodup
  length := fun c hc => h.length c (hperm.mem_iff.mp hc)

end

theorem computeAssignments_decided (hheaders : params.useHeaders = true) (hids : PlainIds cs)
    (hinj : NoCollisions cs) (hread : IndexReadable params cs) :
    ∃ g out, computeAssignments cs params = some out ∧ g.Lawful params cs ∧ Decided params cs g out := by
  obtain ⟨g, out, hrun, hg, hlength, hverdict⟩ := computeAssignments_verdicts hheaders hids.nodup hinj hread
  exact ⟨g, out, hrun, hg, hlength, hverdict⟩

omit [RandomState] in
theorem sameHeaderThread_iff (hids : PlainIds cs) (hinj : NoCollisions cs) (hg : g.Lawful params cs)
    (hc : c ∈ cs) (hd : d ∈ cs) (hva : Verdict params cs g c a) (hvb : Verdict params cs g d b)
    (hne : c.id ≠ d.id) :
    SameHeaderThread a b ↔ Placed c ∧ Placed d ∧ Connected cs c d := by
  unfold SameHeaderThread
  rw [hva.method.1, hvb.method.1, threadId_eq_iff hids hinj hg hc hd hva hvb]
  constructor
  · rintro ⟨hhc, hhd, hid | ⟨_, _, hconn⟩ | ⟨hs, _⟩ | ⟨hi, _⟩⟩
    · exact absurd hid hne
    · exact ⟨hhc.1, hhd.1, hconn⟩
    · exact absurd hhc hs.2.1
    · exact absurd hhc hi.2.1.1
  · rintro ⟨hpc, hpd, hconn⟩
    have hhc : Headed cs c := ⟨hpc, Or.inr ⟨d, hd, Ne.symm hne, hpd, hconn⟩⟩
    have hhd : Headed cs d := ⟨hpd, Or.inr ⟨c, hc, hne, hpc, connected_symm hconn⟩⟩
    exact ⟨hhc, hhd, Or.inr (Or.inl ⟨hhc, hhd, hconn⟩)⟩

/-- **Threads partition the candidates** exactly when the code can read and place what it is
given. -/
theorem computeAssignments_partition_iff (hheaders : params.useHeaders = true) (hids : PlainIds cs)
    (hinj : NoCollisions cs) :
    (∃ out, computeAssignments cs params = some out ∧ ThreadPartition params cs out)
      ↔ Threadable params cs := by
  constructor
  · rintro ⟨out, hrun, hpart⟩
    have hread : IndexReadable params cs := by
      by_contra hnot
      rw [computeAssignments_eq_none hheaders hids.nodup hinj hnot] at hrun
      cases hrun
    refine ⟨hread, ?_⟩
    obtain ⟨g, out', hrun', hg, hdec⟩ := computeAssignments_decided hheaders hids hinj hread
    rw [hrun] at hrun'
    obtain rfl := Option.some.inj hrun'
    intro c hc d hd hne hconn
    obtain ⟨i, hi⟩ := getElem?_of_mem hc
    obtain ⟨j, hj⟩ := getElem?_of_mem hd
    obtain ⟨a, ha, hva⟩ := hdec.verdict i c hi
    obtain ⟨b, hb, hvb⟩ := hdec.verdict j d hj
    have hca : (c, a) ∈ cs.zip out := mem_of_getElem? (List.getElem?_zip_eq_some.mpr ⟨hi, ha⟩)
    have hdb : (d, b) ∈ cs.zip out := mem_of_getElem? (List.getElem?_zip_eq_some.mpr ⟨hj, hb⟩)
    have hmids : mids c ≠ [] ∧ mids d ≠ [] := by
      obtain ⟨s, hs, t, ht, _⟩ := hconn
      exact ⟨ne_nil_of_mem hs, ne_nil_of_mem ht⟩
    have hsame := (hpart.headers c d a b hca hdb hne hmids.1 hmids.2).mpr hconn
    exact ((sameHeaderThread_iff hids hinj hg hc hd hva hvb hne).mp hsame).1
  · intro hok
    obtain ⟨g, out, hrun, hg, hdec⟩ := computeAssignments_decided hheaders hids hinj hok.readable
    refine ⟨out, hrun, hdec.items, ?_, ?_, ?_, ?_⟩
    · intro c d a b hca hdb hne _ _
      obtain ⟨hc, hva⟩ := hdec.of_zip hca
      obtain ⟨hd, hvb⟩ := hdec.of_zip hdb
      rw [sameHeaderThread_iff hids hinj hg hc hd hva hvb hne]
      constructor
      · exact fun h => h.2.2
      · exact fun h => ⟨hok.placed c hc d hd hne h, hok.placed d hd c hc (Ne.symm hne) (connected_symm h), h⟩
    · -- a message that no phase threads has no mate but itself
      intro a ha b hb hmethod htid
      obtain ⟨i, c, hc, _, hva⟩ := hdec.of_mem ha
      obtain ⟨j, d, hd, _, hvb⟩ := hdec.of_mem hb
      obtain ⟨hh, hs, hi⟩ := hva.method.2.mp hmethod
      have hmates := (threadId_eq_iff hids hinj hg (mem_of_getElem? hc) (mem_of_getElem? hd) hva hvb).mp
        htid.symm
      rw [hva.itemId, hvb.itemId]
      rcases hmates with hid | ⟨hhc, _⟩ | ⟨hsc, _⟩ | ⟨hic, _⟩
      · exact hid.symm
      · exact absurd hhc hh
      · exact absurd hsc hs
      · exact absurd hic hi
    · intro a ha
      obtain ⟨i, c, hc, _, hva⟩ := hdec.of_mem ha
      exact hdec.roots hids hinj hg (mem_of_getElem? hc) hva
    · intro cs' hperm
      have hmem : ∀ c, c ∈ cs' ↔ c ∈ cs := fun c => hperm.mem_iff
      have hids' := hids.perm hperm
      have hinj' := (noCollisions_congr hmem).mpr hinj
      obtain ⟨g', out', hrun', hg', hdec'⟩ := computeAssignments_decided hheaders hids' hinj'
        ((indexReadable_congr hmem).mpr hok.readable)
      refine ⟨out', hrun', ?_⟩
      intro c hc d hd
      rw [hdec'.shareThread_iff hids' hinj' hg' ((hmem c).mpr hc) ((hmem d).mpr hd),
        hdec.shareThread_iff hids hinj hg hc hd, mates_congr hmem]

end

/-- A reply and what it replies to are one thread, and a third message is alone. -/
theorem computeAssignments_partition_three :
    letI := Target.unix
    letI := Sha256.fips
    letI : JsonStrings := ⟨readStrings⟩
    letI := RandomState.inOrder
    let cs : List ThreadCandidate := [{ id := "1", messageId := some "<a@b>" },
      { id := "2", referencesJson := some "[\"a@b\"]" }, { id := "3", subject := some "Re: hello" }]
    ∃ out, computeAssignments cs {} = some out ∧ ThreadPartition {} cs out := by
  let := Target.unix
  let := Sha256.fips
  let : JsonStrings := ⟨readStrings⟩
  let := RandomState.inOrder
  intro cs
  have hfree : NoCollisions cs := by
    unfold NoCollisions CollisionFree
    decide +kernel
  have hread : ∀ c ∈ cs, conversationIndexText c ≠ none := by decide +kernel
  have hplaced : ∀ c ∈ cs, (placingText c).isSome ∨ mids c = [] := by decide +kernel
  refine (computeAssignments_partition_iff rfl ⟨by decide +kernel, by decide +kernel⟩ hfree).mpr
    ⟨fun _ c hc _ => hread c hc, fun c hc d _ _ hconnected => ?_⟩
  obtain ⟨s, hs, -⟩ := hconnected
  refine (hplaced c hc).resolve_right fun hnone => ?_
  rw [hnone] at hs
  cases hs

/-- A ConversationIndex with a character across byte 44 ends in a panic; and a message that carries
the id of another one among its references, after a reference without a key, is not threaded with
it. -/
theorem computeAssignments_not_partition :
    letI := Target.unix
    letI := Sha256.fips
    letI : JsonStrings := ⟨readStrings⟩
    letI := RandomState.inOrder
    let cut : List ThreadCandidate :=
      [{ id := "1", conversationIndexHex := some "aaaaaaaaaaaaaaaaaaaaaaaaaaaaaaaaaaaaaaaaaaaé" }]
    let behind : List ThreadCandidate := [{ id := "1", referencesJson := some "[\"< <\",\"a@b\"]" },
      { id := "2", messageId := some "<a@b>" }]
    (¬ ∃ out, computeAssignments cut {} = some out ∧ ThreadPartition {} cut out) ∧
      ¬ ∃ out, computeAssignments behind {} = some out ∧ ThreadPartition {} behind out := by
  let := Target.unix
  let := Sha256.fips
  let : JsonStrings := ⟨readStrings⟩
  let := RandomState.inOrder
  intro cut behind
  constructor
  · rintro ⟨out, hrun, _⟩
    have hpanic : computeAssignments cut {} = none := by decide +kernel
    rw [hpanic] at hrun
    cases hrun
  · rintro ⟨out, hrun, hpart⟩
    have hmethods : (computeAssignments behind {}).map (fun out => out.map fun a => a.threadMethod)
        = some [.singleton, .singleton] := by decide +kernel
    rw [hrun, map_some, Option.some.injEq] at hmethods
    obtain ⟨a, rest, rfl, ha, hrest⟩ := List.map_eq_cons_iff.mp hmethods
    obtain ⟨b, rest, rfl, hb, _⟩ := List.map_eq_cons_iff.mp hrest
    have hsame := (hpart.headers _ _ a b mem_cons_self (mem_cons_of_mem _ mem_cons_self)
      (by decide) (by decide +kernel) (by decide +kernel)).mpr
      ⟨"a@b", by decide +kernel, "a@b", by decide +kernel, .refl _⟩
    rw [hsame.1] at ha
    cases ha

end MatterThread
