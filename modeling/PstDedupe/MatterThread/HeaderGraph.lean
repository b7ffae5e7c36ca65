import PstDedupe.MatterThread.Assign

/-!
# What the header graph joins

`joinAll` leaves a forest whose trees are the components of the candidates' edges, and `locateAll`
reads the components off it.
-/

namespace MatterThread

open Rust MatterCore Foundations List

section

variable [Target] [Sha256] [JsonStrings]

/-- The unions of one candidate: a star around its own key, or else a path. -/
def keyEdges (c : ThreadCandidate) : List (CompactKey × CompactKey) :=
  match ownKey c with
  | some mk => (linkedKeys c).map fun k => (mk, k)
  | none => windows (linkedKeys c)

variable {uf : UnionFind} {edges : List (CompactKey × CompactKey)}

omit [Target] [Sha256] [JsonStrings] in
theorem tracks_makeSet (h : uf.Tracks edges) (k : CompactKey) : (uf.makeSet k).Tracks edges :=
  h.settles (UnionFind.settles_makeSet uf k)

omit [Target] [Sha256] [JsonStrings] in
theorem foldlM_union (ws : List (CompactKey × CompactKey)) (h : uf.Tracks edges) :
    ∃ uf', ws.foldlM (fun uf w => uf.union w.1 w.2) uf = some uf' ∧ uf'.Tracks (edges ++ ws) := by
  induction ws generalizing uf edges with
  | nil =>
    rw [append_nil]
    exact ⟨uf, rfl, h⟩
  | cons w ws ih =>
    obtain ⟨uf₁, hunion, htracks⟩ := UnionFind.union_spec h w.1 w.2
    obtain ⟨uf₂, hrest, htracks₂⟩ := ih htracks
    refine ⟨uf₂, ?_, ?_⟩
    · rw [foldlM_cons, hunion]
      exact hrest
    · rw [append_assoc] at htracks₂
      exact htracks₂

omit [Target] [Sha256] [JsonStrings] in
theorem foldlM_joinReference (own : Option CompactKey) (ks : List CompactKey) (h : uf.Tracks edges) :
    ∃ uf', ks.foldlM (joinReference own) uf = some uf' ∧ uf'.Tracks (edges ++ match own with
        | some mk => ks.map fun k => (mk, k)
        | none => []) := by
  induction ks generalizing uf edges with
  | nil =>
    refine ⟨uf, rfl, ?_⟩
    have hnil : uf.Tracks (edges ++ []) := by
      rw [append_nil]
      exact h
    cases own with
    | none => exact hnil
    | some mk => exact hnil
  | cons k ks ih =>
    have hset := tracks_makeSet h k
    cases own with
    | none =>
      obtain ⟨uf', hrest, htracks⟩ := ih hset
      exact ⟨uf', hrest, htracks⟩
    | some mk =>
      obtain ⟨uf₁, hunion, htracks₁⟩ := UnionFind.union_spec hset mk k
      obtain ⟨uf₂, hrest, htracks₂⟩ := ih htracks₁
      refine ⟨uf₂, ?_, ?_⟩
      · rw [foldlM_cons]
        show ((uf.makeSet k).union mk k).bind _ = _
        rw [hunion]
        exact hrest
      · rw [append_assoc] at htracks₂
        exact htracks₂

theorem joinCandidate_spec (c : ThreadCandidate) (h : uf.Tracks edges) :
    ∃ uf', joinCandidate uf c = some (uf', !(linkedKeys c).isEmpty) ∧ uf'.Tracks (edges ++ keyEdges c) := by
  unfold joinCandidate keyEdges
  cases hown : ownKey c with
  | none =>
    obtain ⟨uf₁, hjoin, htracks₁⟩ := foldlM_joinReference none (linkedKeys c) h
    rw [append_nil] at htracks₁
    obtain ⟨uf₂, hunions, htracks₂⟩ := foldlM_union (windows (linkedKeys c)) htracks₁
    refine ⟨uf₂, ?_, htracks₂⟩
    show ((linkedKeys c).foldlM (joinReference none) uf).bind _ = _
    rw [hjoin]
    show ((windows (linkedKeys c)).foldlM (fun (uf : UnionFind) w => uf.union w.1 w.2) uf₁).bind
      (fun uf => some (uf, !(linkedKeys c).isEmpty)) = _
    rw [hunions]
    rfl
  | some mk =>
    obtain ⟨uf₁, hjoin, htracks₁⟩ := foldlM_joinReference (some mk) (linkedKeys c) (tracks_makeSet h mk)
    refine ⟨uf₁, ?_, htracks₁⟩
    show ((linkedKeys c).foldlM (joinReference (some mk)) (uf.makeSet mk)).bind _ = _
    rw [hjoin]
    rfl

def hasEdge (c : ThreadCandidate) : Bool := !(linkedKeys c).isEmpty

/-- The whole loop tracks all edges, and panics nowhere. Induction on the candidates. -/
theorem joinAll_spec (cs : List ThreadCandidate) (h : uf.Tracks edges) :
    ∃ uf', joinAll uf cs = some (uf', cs.map hasEdge) ∧ uf'.Tracks (edges ++ cs.flatMap keyEdges) := by
  induction cs generalizing uf edges with
  | nil =>
    rw [flatMap_nil, append_nil]
    exact ⟨uf, rfl, h⟩
  | cons c cs ih =>
    obtain ⟨uf₁, hjoin, htracks₁⟩ := joinCandidate_spec c h
    obtain ⟨uf₂, hrest, htracks₂⟩ := ih htracks₁
    refine ⟨uf₂, ?_, ?_⟩
    · unfold joinAll
      rw [hjoin]
      show (joinAll uf₁ cs).bind _ = _
      rw [hrest]
      rfl
    · rw [append_assoc] at htracks₂
      rw [flatMap_cons]
      exact htracks₂

def Leads (uf : UnionFind) (root : CompactKey → CompactKey) : Prop := ∀ k, ∃ j, Climb uf.up j k (root k)

/-- The components are read off the forest; `find` moves no root. Induction on the candidates. -/
theorem locateAll_spec (cs : List ThreadCandidate) {root : CompactKey → CompactKey} (h : uf.Tracks edges)
    (hroot : Leads uf root) : locateAll uf cs = some (cs.map fun c => (placingKey c).map root) := by
  induction cs generalizing uf with
  | nil => rfl
  | cons c cs ih =>
    unfold locateAll
    cases hkey : placingKey c with
    | none =>
      show (locateAll uf cs).map _ = _
      rw [ih h hroot, map_cons, hkey]
      rfl
    | some k =>
      obtain ⟨uf', r, j, hfind, hclimb, hsettles, _⟩ := UnionFind.find_spec h k
      have hr : r = root k := by
        obtain ⟨i, hi⟩ := hroot k
        exact (hclimb.unique hi).2
      have hroot' : Leads uf' root := by
        intro x
        obtain ⟨i, hi⟩ := hroot x
        obtain ⟨i', _, hi'⟩ := hsettles.keeps i x _ hi
        exact ⟨i', hi'⟩
      show (uf.find k).bind _ = _
      rw [hfind, Option.bind_some]
      dsimp only
      rw [ih (h.settles hsettles) hroot', map_cons, hkey, hr]
      rfl

theorem components_spec (cs : List ThreadCandidate) : ∃ uf root, joinAll .new cs = some (uf, cs.map hasEdge) ∧
      locateAll uf cs = some (cs.map fun c => (placingKey c).map root) ∧
      ∀ x y, root x = root y ↔ EdgeLinked (cs.flatMap keyEdges) x y := by
  obtain ⟨uf, hjoin, htracks⟩ := joinAll_spec cs UnionFind.tracks_new
  have hclimb : ∀ k, ∃ r j, Climb uf.up j k r := by
    intro k
    obtain ⟨j, _, r, hr⟩ := htracks.joins.climbs k
    exact ⟨r, j, hr⟩
  choose root hroot using hclimb
  refine ⟨uf, root, hjoin, locateAll_spec cs htracks hroot, ?_⟩
  intro x y
  obtain ⟨_, hx⟩ := hroot x
  obtain ⟨_, hy⟩ := hroot y
  exact htracks.joins.same hx hy

def ownText (c : ThreadCandidate) : Option String := c.messageId.bind messageIdText

def linkedTexts (c : ThreadCandidate) : List String :=
  (c.inReplyTo.bind messageIdText).toList ++ (references c).filterMap messageIdText

/-- All Message-IDs of a message: its own id, its In-Reply-To and its References. -/
def mids (c : ThreadCandidate) : List String := (ownText c).toList ++ linkedTexts c

/-- One message refers to both. -/
def Joined (cs : List ThreadCandidate) (s t : String) : Prop := ∃ c ∈ cs, s ∈ mids c ∧ t ∈ mids c

/-- A chain of messages leads from a Message-ID of the one to one of the other. -/
def Connected (cs : List ThreadCandidate) (c d : ThreadCandidate) : Prop :=
  ∃ s ∈ mids c, ∃ t ∈ mids d, Relation.EqvGen (Joined cs) s t

def placingText (c : ThreadCandidate) : Option String :=
  match ownText c with
  | some t => some t
  | none =>
    match c.inReplyTo.bind messageIdText with
    | some t => some t
    | none => (references c).head?.bind messageIdText

omit [JsonStrings] in
theorem bind_messageIdKey (raw : Option String) :
    raw.bind messageIdKey = (raw.bind messageIdText).map hashBytes := by
  cases raw with
  | none => rfl
  | some raw => rfl

omit [JsonStrings] in
theorem ownKey_eq (c : ThreadCandidate) : ownKey c = (ownText c).map hashBytes := bind_messageIdKey c.messageId

theorem linkedKeys_eq (c : ThreadCandidate) : linkedKeys c = (linkedTexts c).map hashBytes := by
  unfold linkedKeys linkedTexts inReplyToKey
  rw [bind_messageIdKey, map_append]
  congr 1
  · cases c.inReplyTo.bind messageIdText <;> rfl
  · rw [map_filterMap]
    rfl

theorem placingKey_eq (c : ThreadCandidate) : placingKey c = (placingText c).map hashBytes := by
  unfold placingKey placingText inReplyToKey
  rw [ownKey_eq, bind_messageIdKey, bind_messageIdKey]
  cases ownText c with
  | some t => rfl
  | none =>
    cases c.inReplyTo.bind messageIdText with
    | some t => rfl
    | none => rfl

omit [Sha256] in
theorem placingText_mem {c : ThreadCandidate} {t : String} (h : placingText c = some t) : t ∈ mids c := by
  unfold placingText at h
  unfold mids linkedTexts
  cases hown : ownText c with
  | some own =>
    rw [hown] at h
    obtain rfl := Option.some.inj h
    exact mem_append_left _ (mem_singleton_self _)
  | none =>
    rw [hown] at h
    apply mem_append_right
    cases hirt : c.inReplyTo.bind messageIdText with
    | some irt =>
      rw [hirt] at h
      obtain rfl := Option.some.inj h
      exact mem_append_left _ (mem_singleton_self _)
    | none =>
      rw [hirt] at h
      obtain ⟨r, hr, ht⟩ := Option.bind_eq_some_iff.mp h
      apply mem_append_right
      exact List.mem_filterMap.mpr ⟨r, mem_of_mem_head? hr, ht⟩

omit [Target] [Sha256] [JsonStrings] in
/-- A path connects its stations. Induction on the path. -/
theorem linked_windows {k l : CompactKey} {ks : List CompactKey} (hk : k ∈ ks) (hl : l ∈ ks) :
    EdgeLinked (windows ks) k l := by
  -- every station is connected with the first one
  have hhead : ∀ (ks : List CompactKey) (a k : CompactKey), k ∈ a :: ks →
      EdgeLinked (windows (a :: ks)) a k := by
    intro ks
    induction ks with
    | nil =>
      intro a k hk
      obtain rfl := List.mem_singleton.mp hk
      exact .refl _
    | cons b ks ih =>
      intro a k hk
      rcases List.mem_cons.mp hk with rfl | hk
      · exact .refl _
      · have hstep : EdgeLinked (windows (a :: b :: ks)) a b := .rel _ _ mem_cons_self
        exact .trans _ _ _ hstep (EdgeLinked.mono (fun e he => mem_cons_of_mem _ he) (ih b k hk))
  cases ks with
  | nil => cases hk
  | cons a ks => exact .trans _ _ _ (.symm _ _ (hhead ks a k hk)) (hhead ks a l hl)

theorem keyEdges_iff (c : ThreadCandidate) :
    (∀ e ∈ keyEdges c, e.1 ∈ (mids c).map hashBytes ∧ e.2 ∈ (mids c).map hashBytes) ∧
      ∀ s ∈ mids c, ∀ t ∈ mids c, EdgeLinked (keyEdges c) (hashBytes s) (hashBytes t) := by
  have hmids : (mids c).map hashBytes = (ownKey c).toList ++ linkedKeys c := by
    rw [mids, map_append, ← linkedKeys_eq, ownKey_eq]
    cases ownText c <;> rfl
  rw [hmids]
  have hmem : ∀ s ∈ mids c, hashBytes s ∈ (ownKey c).toList ++ linkedKeys c := by
    intro s hs
    rw [← hmids]
    exact mem_map_of_mem hs
  unfold keyEdges
  cases hown : ownKey c with
  | none =>
    rw [hown] at hmem
    refine ⟨?_, fun s hs t ht => linked_windows (hmem s hs) (hmem t ht)⟩
    intro e he
    have hzip := of_mem_zip he
    exact ⟨hzip.1, mem_of_mem_tail hzip.2⟩
  | some mk =>
    rw [hown] at hmem
    dsimp only
    refine ⟨?_, ?_⟩
    · intro e he
      obtain ⟨k, hk, rfl⟩ := List.mem_map.mp he
      exact ⟨mem_append_left _ (mem_singleton_self _), mem_append_right _ hk⟩
    · have hstar : ∀ s ∈ mids c, EdgeLinked ((linkedKeys c).map fun k => (mk, k)) mk (hashBytes s) := by
        intro s hs
        rcases List.mem_append.mp (hmem s hs) with hs | hs
        · rw [List.mem_singleton.mp hs]
          exact .refl _
        · exact .rel _ _ (mem_map_of_mem hs)
      exact fun s hs t ht => .trans _ _ _ (.symm _ _ (hstar s hs)) (hstar t ht)

def DistinctMids (cs : List ThreadCandidate) : Prop :=
  ∀ c ∈ cs, ∀ d ∈ cs, ∀ s ∈ mids c, ∀ t ∈ mids d, hashBytes s = hashBytes t → s = t

theorem linked_keyEdges_iff {cs : List ThreadCandidate} (hinj : DistinctMids cs) {c d : ThreadCandidate}
    (hc : c ∈ cs) (hd : d ∈ cs) {s t : String} (hs : s ∈ mids c) (ht : t ∈ mids d) :
    EdgeLinked (cs.flatMap keyEdges) (hashBytes s) (hashBytes t) ↔ Relation.EqvGen (Joined cs) s t := by
  constructor
  · intro h
    -- a chain of keys between two texts is the image of a chain of texts
    have hlift : ∀ {k l : CompactKey}, EdgeLinked (cs.flatMap keyEdges) k l → k = l ∨
        ∃ c ∈ cs, ∃ d ∈ cs, ∃ s ∈ mids c, ∃ t ∈ mids d,
          hashBytes s = k ∧ hashBytes t = l ∧ Relation.EqvGen (Joined cs) s t := by
      intro k l hkl
      induction hkl with
      | rel k l hkl =>
        obtain ⟨c, hc, hedge⟩ := List.mem_flatMap.mp hkl
        obtain ⟨hk, hl⟩ := (keyEdges_iff c).1 _ hedge
        obtain ⟨s, hs, hsk⟩ := List.mem_map.mp hk
        obtain ⟨t, ht, htl⟩ := List.mem_map.mp hl
        exact Or.inr ⟨c, hc, c, hc, s, hs, t, ht, hsk, htl, .rel _ _ ⟨c, hc, hs, ht⟩⟩
      | refl k => exact Or.inl rfl
      | symm k l _ ih =>
        rcases ih with heq | ⟨c, hc, d, hd, s, hs, t, ht, hk, hl, hst⟩
        · exact Or.inl heq.symm
        · exact Or.inr ⟨d, hd, c, hc, t, ht, s, hs, hl, hk, .symm _ _ hst⟩
      | trans k l m _ _ ih₁ ih₂ =>
        rcases ih₁ with rfl | ⟨c, hc, d, hd, s, hs, t, ht, hk, hl, hst⟩
        · exact ih₂
        · rcases ih₂ with rfl | ⟨c', hc', d', hd', s', hs', t', ht', hl', hm, hst'⟩
          · exact Or.inr ⟨c, hc, d, hd, s, hs, t, ht, hk, hl, hst⟩
          · have htext : t = s' := hinj d hd c' hc' t ht s' hs' (hl.trans hl'.symm)
            rw [← htext] at hst'
            exact Or.inr ⟨c, hc, d', hd', s, hs, t', ht', hk, hm, .trans _ _ _ hst hst'⟩
    rcases hlift h with heq | ⟨c', hc', d', hd', s', hs', t', ht', hk, hl, hst⟩
    · rw [hinj c hc d hd s hs t ht heq]
      exact .refl _
    · rw [hinj c' hc' c hc s' hs' s hs hk, hinj d' hd' d hd t' ht' t ht hl] at hst
      exact hst
  · intro h
    clear hs ht
    induction h with
    | rel s t hst =>
      obtain ⟨c, hc, hs, ht⟩ := hst
      exact EdgeLinked.mono (fun e he => List.mem_flatMap.mpr ⟨c, hc, he⟩) ((keyEdges_iff c).2 s hs t ht)
    | refl s => exact .refl _
    | symm s t _ ih => exact .symm _ _ ih
    | trans s t u _ _ ih₁ ih₂ => exact .trans _ _ _ ih₁ ih₂

omit [Sha256] in
theorem connected_iff {cs : List ThreadCandidate} {c d : ThreadCandidate} (hc : c ∈ cs)
    (hd : d ∈ cs) {s t : String} (hs : s ∈ mids c) (ht : t ∈ mids d) :
    Connected cs c d ↔ Relation.EqvGen (Joined cs) s t := by
  constructor
  · rintro ⟨s', hs', t', ht', h⟩
    exact .trans _ _ _ (.rel _ _ ⟨c, hc, hs, hs'⟩) (.trans _ _ _ h (.rel _ _ ⟨d, hd, ht', ht⟩))
  · exact fun h => ⟨s, hs, t, ht, h⟩

end

end MatterThread
