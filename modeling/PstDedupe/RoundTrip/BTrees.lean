import PstDedupe.PstReader.Btree
import PstDedupe.PstWriter.BTreePlan

/-!
# The B-trees, written and read back

A page that `btPage` lays out is read by `btreePage` as the entries it was made from.
-/

namespace PstWriter

open Rust Foundations List Function

/-! ## One page -/

section

variable [Crc32fast] {file region : Bytes} {off bid ptype level cEntries size : Nat}

theorem btPage_fields {page : Bytes} (hpage : page = btPage off bid ptype level region cEntries size)
    (hptype : ptype < 256) (hlevel : level < 256) (hentries : cEntries < 256) :
    page.take 488 = resize 488 0 region ∧ readLe 1 page 488 = cEntries ∧ readLe 1 page 491 = level ∧
      readLe 1 page 496 = ptype ∧ readLe 1 page 497 = ptype := by
  have h : Holds page 0 (btPage off bid ptype level region cEntries size) := hpage ▸ holds_self page
  refine ⟨?_, ?_⟩
  · rw [hpage]
    unfold btPage
    simp only [append_assoc]
    rw [take_append_of_le_length (by rw [length_resize]), take_of_length_le
      (by rw [length_resize])]
  · simp only [btPage, pageTrailer, Holds.append, length_append, length_resize, length_leBytes,
      length_cons, length_nil, Nat.zero_add, Nat.reduceAdd] at h
    obtain ⟨⟨⟨⟨⟨⟨_, hcount⟩, _⟩, _⟩, hlvl⟩, _⟩, ⟨⟨⟨htype, htype'⟩, _⟩, _⟩, _⟩ := h
    exact ⟨readLe_of_holds_leBytes hcount hentries, readLe_of_holds_leBytes hlvl hlevel,
      readLe_of_holds_leBytes htype hptype, readLe_of_holds_leBytes htype' hptype⟩

theorem readPage_btPage (h : Holds file off (btPage off bid ptype level region cEntries size))
    (hptype : ptype < 256) (hlevel : level < 256) (hentries : cEntries < 256) :
    PstReader.readPage file off = .ok (btPage off bid ptype level region cEntries size) ∧
      PstReader.validatePage (btPage off bid ptype level region cEntries size) ptype = .ok () := by
  have hne : btPage off bid ptype level region cEntries size ≠ [] := by
    intro hnil
    have hlen := length_btPage off bid ptype level cEntries size region
    rw [hnil] at hlen
    cases hlen
  obtain ⟨_, _, _, htype, htype'⟩ := btPage_fields
    (Eq.refl (btPage off bid ptype level region cEntries size)) hptype hlevel hentries
  have hwindow := window_of_holds h hne
  rw [length_btPage] at hwindow
  unfold PstReader.readPage PstReader.validatePage
  rw [show PstReader.pageSize = pageSize from rfl, hwindow, htype, htype']
  exact ⟨rfl, by simp⟩

end

theorem entrySlots_resize {rs : List Bytes} {w : Nat} (hw : ∀ r ∈ rs, r.length = w)
    (hroom : rs.length * w ≤ 488) :
    PstReader.entrySlots (resize 488 0 rs.flatten) rs.length w = rs := by
  rw [resize_of_length_le 0 (by rw [length_flatten_of_width hw]; exact hroom)]
  exact PstReader.entrySlots_flatten hw _

theorem readLe_nodeEntry {pageOff : Nat → Nat} {c : Nat × Nat} (hkey : c.2 < 2 ^ 64)
    (hoff : pageOff c.1 < 2 ^ 64) :
    readLe 8 (nodeEntry pageOff c) 0 = c.2 ∧ readLe 8 (nodeEntry pageOff c) 16 = pageOff c.1 := by
  have h := holds_self (nodeEntry pageOff c)
  generalize hentry : nodeEntry pageOff c = entry at h
  have h' : Holds entry 0 (nodeEntry pageOff c) := hentry ▸ h
  simp only [nodeEntry, Holds.append, length_append, length_leBytes, Nat.zero_add, Nat.reduceAdd] at h'
  exact ⟨readLe_of_holds_leBytes h'.1.1 hkey, readLe_of_holds_leBytes h'.2 hoff⟩

section

variable [Crc32fast] {file : Bytes} {off bid ptype level size : Nat} {α V : Type}
  {parse : Bytes → Nat × V}

theorem btreePage_leaf {entries : List α} {encode : α → Bytes} {view : α → Nat × V}
    (h : Holds file off (btPage off bid ptype 0 (entries.flatMap encode) entries.length size))
    (hptype : ptype < 256) (hcount : entries.length < 256) (hlen : ∀ a, (encode a).length = size)
    (hroom : entries.length * size ≤ 488) (hparse : ∀ a ∈ entries, parse (encode a) = view a) :
    PstReader.btreePage ptype size parse file off = .ok (.leaf (entries.map view)) := by
  obtain ⟨hread, hvalid⟩ := readPage_btPage h hptype (by decide) hcount
  obtain ⟨hdata, hentries, hlevel, _, _⟩ := btPage_fields
    (Eq.refl (btPage off bid ptype 0 (entries.flatMap encode) entries.length size)) hptype
    (by decide : 0 < 256) hcount
  have hwidth : ∀ r ∈ entries.map encode, r.length = size := by simpa using fun a _ => hlen a
  have hslots := entrySlots_resize hwidth (by rwa [length_map])
  rw [length_map, ← flatMap_def] at hslots
  have hview : (entries.map encode).map parse = entries.map view := by
    rw [map_map]
    exact map_congr_left hparse
  rw [PstReader.btreePage_eq hread hvalid, hlevel, if_pos rfl, hdata, hentries, hslots, hview]

theorem btreePage_node {pageOff : Nat → Nat} {group : List (Nat × Nat)}
    (h : Holds file (pageOff bid) (btPage (pageOff bid) bid ptype level
      (group.flatMap (nodeEntry pageOff)) group.length intermediateEntrySize))
    (hptype : ptype < 256) (hpos : 0 < level) (hlevel : level < 256)
    (hroom : group.length ≤ intermediateEntriesPerPage)
    (hfits : ∀ c ∈ group, c.2 < 2 ^ 64 ∧ pageOff c.1 < 2 ^ 64) :
    PstReader.btreePage ptype size parse file (pageOff bid)
      = .ok (.node (group.map fun c => (c.2, pageOff c.1))) := by
  have hper : intermediateEntriesPerPage = 20 := by decide
  have hcount : group.length < 256 := by omega
  obtain ⟨hread, hvalid⟩ := readPage_btPage h hptype hlevel hcount
  obtain ⟨hdata, hentries, hlvl, _, _⟩ := btPage_fields (Eq.refl (btPage (pageOff bid) bid ptype level
    (group.flatMap (nodeEntry pageOff)) group.length intermediateEntrySize)) hptype hlevel hcount
  have hslots : PstReader.entrySlots (resize 488 0 (group.flatMap (nodeEntry pageOff))) group.length
      24 = group.map (nodeEntry pageOff) := by
    have hwidth : ∀ r ∈ group.map (nodeEntry pageOff), r.length = 24 := by
      intro r hr
      obtain ⟨c, _, rfl⟩ := List.mem_map.mp hr
      exact length_nodeEntry pageOff c
    have hcut := entrySlots_resize hwidth (by rw [length_map]; omega)
    rwa [length_map, ← flatMap_def] at hcut
  have hview : ((group.map (nodeEntry pageOff)).map fun e => (readLe 8 e 0, readLe 8 e 16))
      = group.map fun c => (c.2, pageOff c.1) := by
    rw [map_map]
    apply map_congr_left
    intro c hc
    obtain ⟨hkey, hoff⟩ := hfits c hc
    obtain ⟨hread₀, hread₁₆⟩ := readLe_nodeEntry hkey hoff
    rw [comp_apply, hread₀, hread₁₆]
  rw [PstReader.btreePage_eq hread hvalid, hlvl, if_neg (by omega), hdata, hentries, hslots, hview]

end

section

variable {V : Type} {pageOff : Nat → Nat} {bids : List Nat} {prev : List (Nat × Nat)}
  {level : List (Subtree V)}

def Subtree.ref (s : Subtree V) : Nat × Nat := (s.key, s.addr)

/-- The subtrees of a level, as the writer carries them: BID and smallest key. -/
def Refs (pageOff : Nat → Nat) (level : List (Subtree V)) (prev : List (Nat × Nat)) : Prop :=
  level.map Subtree.ref = prev.map fun c => (c.2, pageOff c.1)

theorem Refs.groups (h : Refs pageOff level prev) (bids : List Nat) {n : Nat} (hn : 0 < n) :
    ((bids.map pageOff).zip (chunks n level)).map (fun p => (p.1, p.2.map Subtree.ref))
      = (bids.zip (chunks n prev)).map fun q =>
          (pageOff q.1, q.2.map fun c => (c.2, pageOff c.1)) := by
  have hchunks : (chunks n level).map (map Subtree.ref)
      = (chunks n prev).map (map fun c => (c.2, pageOff c.1)) := by
    rw [← chunks_map hn, ← chunks_map hn, h]
  calc ((bids.map pageOff).zip (chunks n level)).map (fun p => (p.1, p.2.map Subtree.ref))
      = (bids.map pageOff).zip ((chunks n level).map (map Subtree.ref)) := by
        rw [zip_map_right]
        rfl
    _ = _ := by
        rw [hchunks, zip_map]
        rfl

theorem Refs.levelUp (h : Refs pageOff level prev) (bids : List Nat) {n : Nat} (hn : 0 < n) :
    Refs pageOff (levelUp n (bids.map pageOff) level) (bids.zip ((chunks n prev).map minKey)) := by
  have hgroups := congrArg (map fun p : Nat × List (Nat × Nat) =>
    ((p.2.head?.map Prod.fst).getD 0, p.1)) (h.groups bids hn)
  rw [map_map, map_map] at hgroups
  unfold Refs Foundations.levelUp
  rw [map_map, zip_map_right, map_map]
  calc ((bids.map pageOff).zip (chunks n level)).map (Subtree.ref ∘ fun p => .over p.1 p.2)
      = ((bids.map pageOff).zip (chunks n level)).map ((fun p : Nat × List (Nat × Nat) =>
          ((p.2.head?.map Prod.fst).getD 0, p.1)) ∘ fun p => (p.1, p.2.map Subtree.ref)) := by
        apply map_congr_left
        intro p _
        simp [Subtree.ref, Subtree.over, comp_def]
    _ = _ := by
        rw [hgroups]
        apply map_congr_left
        intro q _
        simp [minKey, comp_def]

variable [Crc32fast] {file : Bytes} {ptype size : Nat} {parse : Bytes → Nat × V}

theorem pagesStand_levelWrites {lvl : Nat} {rest : List (List Nat)}
    (h : Refs pageOff level prev) (hptype : ptype < 256) (hpos : 0 < lvl)
    (hmax : lvl + rest.length ≤ 256) (hprev : ∀ c ∈ prev, c.2 < 2 ^ 64 ∧ pageOff c.1 < 2 ^ 64)
    (hoffs : ∀ bid ∈ rest.flatten, pageOff bid < 2 ^ 64)
    (hheld : ∀ w ∈ levelWrites pageOff ptype lvl rest prev, Holds file w.1 w.2) :
    PagesStand (PstReader.btreePage ptype size parse file) intermediateEntriesPerPage level
      (rest.map (map pageOff)) := by
  have hper : 0 < intermediateEntriesPerPage := by decide
  induction rest generalizing lvl level prev with
  | nil => trivial
  | cons bids rest ih =>
    rw [flatten_cons] at hoffs
    rw [length_cons] at hmax
    rw [levelWrites] at hheld
    refine ⟨fun p hp => ?_, ih (h.levelUp bids hper) (show 0 < lvl + 1 by omega) (by omega) ?_ ?_ ?_⟩
    · -- the group of `p` is one that the writer put into a page
      have hmem := mem_map_of_mem (f := fun p : Nat × List (Subtree V) =>
        (p.1, p.2.map Subtree.ref)) hp
      rw [h.groups bids hper] at hmem
      obtain ⟨⟨bid, group⟩, hq, heq⟩ := List.mem_map.mp hmem
      have hoff : pageOff bid = p.1 := congrArg Prod.fst heq
      have hrefs : (group.map fun c => (c.2, pageOff c.1)) = p.2.map Subtree.ref :=
        congrArg Prod.snd heq
      have hgroup := (of_mem_zip hq).2
      have hwrite := hheld _ (mem_append_left _
        (mem_map_of_mem (f := nodeWrite pageOff ptype lvl) hq))
      have hpage : PstReader.btreePage ptype size parse file (pageOff bid)
          = .ok (.node (group.map fun c => (c.2, pageOff c.1))) := by
        apply btreePage_node hwrite hptype hpos (by omega) (length_le_of_mem_chunks hper hgroup)
        intro c hc
        apply hprev c
        rw [← flatten_chunks hper prev]
        exact mem_flatten_of_mem hgroup hc
      rw [← hoff, hpage, hrefs]
      rfl
    · rintro ⟨bid, key⟩ hc
      obtain ⟨hbid, hkey⟩ := of_mem_zip hc
      obtain ⟨group, hgroup, rfl⟩ := List.mem_map.mp hkey
      refine ⟨?_, hoffs bid (mem_append_left _ hbid)⟩
      unfold minKey
      cases group with
      | nil => exact Nat.two_pow_pos 64
      | cons c group =>
        apply (hprev c _).1
        rw [← flatten_chunks hper prev]
        exact mem_flatten_of_mem hgroup mem_cons_self
    · exact fun bid hbid => hoffs bid (mem_append_right _ hbid)
    · exact fun w hw => hheld w (mem_append_right _ hw)

end

/-! ## The tree -/

structure LeafFormat (α V : Type) where
  key : α → Nat
  encode : α → Bytes
  view : α → Nat × V
  parse : Bytes → Nat × V
  size : Nat
  Fits : α → Prop
  size_ge : 2 ≤ size
  size_le : size ≤ 488
  length_encode : ∀ a, (encode a).length = size
  parse_encode : ∀ a, Fits a → parse (encode a) = view a
  key_view : ∀ a, (view a).1 = key a
  key_lt : ∀ a, Fits a → key a < 2 ^ 64

namespace LeafFormat

variable {α V : Type} (f : LeafFormat α V) {bid : Nat}

def perLeaf : Nat := 488 / f.size

theorem perLeaf_pos : 0 < f.perLeaf := Nat.div_pos f.size_le (by have := f.size_ge; omega)

theorem perLeaf_mul_size : f.perLeaf * f.size ≤ 488 := Nat.div_mul_le_self 488 f.size

theorem perLeaf_le : f.perLeaf ≤ 244 := by
  have hmul := f.perLeaf_mul_size
  have hge := Nat.mul_le_mul_left f.perLeaf f.size_ge
  omega

def leafTree (pageOff : Nat → Nat) (p : Nat × List α) : Subtree V where
  addr := pageOff p.1
  key := (p.2.head?.map f.key).getD 0
  addrs := [pageOff p.1]
  entries := p.2.map f.view

def pages (sorted : List α) : List (Nat × Bytes × Nat) :=
  leafPagesOf f.key f.encode f.perLeaf sorted

variable {file : Bytes} {ptype : Nat} {pageOff : Nat → Nat} {plan : TreePlan} {sorted : List α}

theorem perLeafCapacity_eq (hplan : plan.Fits ptype f.size sorted.length) :
    plan.perLeafCapacity = f.perLeaf := by
  have hpos := f.perLeaf_pos
  rw [hplan.perLeaf]
  exact Nat.max_eq_left hpos

theorem length_pages (hplan : plan.Fits ptype f.size sorted.length) : (f.pages sorted).length
      = max ((sorted.length + plan.perLeafCapacity - 1) / plan.perLeafCapacity) 1 := by
  rw [f.perLeafCapacity_eq hplan]
  exact length_leafPagesOf f.key f.encode f.perLeaf_pos sorted

theorem length_le_of_ascending (hfits : ∀ a ∈ sorted, f.Fits a)
    (hasc : Ascending (sorted.map f.view)) : sorted.length ≤ 2 ^ 64 := by
  have hnodup : (sorted.map f.key).Nodup := by
    have hlt : (sorted.map f.key).Pairwise (· < ·) := by
      rw [Ascending, pairwise_map] at hasc
      rw [pairwise_map]
      apply hasc.imp
      intro a b hab
      rwa [f.key_view, f.key_view] at hab
    exact hlt.imp fun hab => Nat.ne_of_lt hab
  have hsub : sorted.map f.key ⊆ range (2 ^ 64) := by
    intro k hk
    obtain ⟨a, ha, rfl⟩ := List.mem_map.mp hk
    exact List.mem_range.mpr (f.key_lt a (hfits a ha))
  have hle := (subperm_of_subset hnodup hsub).length_le
  rwa [length_map, length_range] at hle

def leafLevel (pageOff : Nat → Nat) (leaves : List Nat) (sorted : List α) : List (Subtree V) :=
  (leaves.zip (chunks f.perLeaf sorted)).map (f.leafTree pageOff)

section

variable {leaves : List Nat} (hchunks : leaves.length = (chunks f.perLeaf sorted).length)

include hchunks

theorem length_leafLevel : (f.leafLevel pageOff leaves sorted).length = leaves.length := by
  unfold leafLevel
  rw [length_map, length_zip, ← hchunks, Nat.min_self]

theorem entries_leafLevel :
    (f.leafLevel pageOff leaves sorted).flatMap Subtree.entries = sorted.map f.view := by
  calc (f.leafLevel pageOff leaves sorted).flatMap Subtree.entries
      = ((leaves.zip (chunks f.perLeaf sorted)).map Prod.snd).flatMap (map f.view) := by
        unfold leafLevel
        rw [flatMap_map, flatMap_map]
        rfl
    _ = (chunks f.perLeaf sorted).flatten.map f.view := by
        rw [map_snd_zip (Nat.le_of_eq hchunks.symm), flatMap_def, ← map_flatten]
    _ = sorted.map f.view := by rw [flatten_chunks f.perLeaf_pos]

theorem addr_leafLevel :
    (f.leafLevel pageOff leaves sorted).map Subtree.addr = leaves.map pageOff := by
  calc (f.leafLevel pageOff leaves sorted).map Subtree.addr
      = ((leaves.zip (chunks f.perLeaf sorted)).map Prod.fst).map pageOff := by
        unfold leafLevel
        rw [map_map, map_map]
        rfl
    _ = _ := by rw [map_fst_zip (Nat.le_of_eq hchunks)]

theorem addrs_leafLevel :
    (f.leafLevel pageOff leaves sorted).flatMap Subtree.addrs = leaves.map pageOff := by
  rw [← f.addr_leafLevel hchunks]
  unfold leafLevel
  rw [flatMap_map, map_map]
  exact (map_eq_flatMap ..).symm

end

variable [Crc32fast]

theorem fetch_leaf (hptype : ptype < 256) {piece : List α}
    (hlen : piece.length ≤ f.perLeaf) (hfits : ∀ a ∈ piece, f.Fits a)
    (h : Holds file (pageOff bid)
      (btPage (pageOff bid) bid ptype 0 (piece.flatMap f.encode) piece.length f.size)) :
    PstReader.btreePage ptype f.size f.parse file (pageOff bid) = .ok (.leaf (piece.map f.view)) := by
  have hcount := f.perLeaf_le
  apply btreePage_leaf h hptype (by omega) f.length_encode _ fun a ha => f.parse_encode a (hfits a ha)
  exact (Nat.mul_le_mul_right f.size hlen).trans f.perLeaf_mul_size

theorem stands_leafTree (hptype : ptype < 256) {piece : List α} (hne : piece ≠ [])
    (hlen : piece.length ≤ f.perLeaf) (hfits : ∀ a ∈ piece, f.Fits a)
    (hasc : Ascending (piece.map f.view))
    (h : Holds file (pageOff bid)
      (btPage (pageOff bid) bid ptype 0 (piece.flatMap f.encode) piece.length f.size)) :
    (f.leafTree pageOff (bid, piece)).Stands (PstReader.btreePage ptype f.size f.parse file) 0 where
  tree := ⟨f.fetch_leaf hptype hlen hfits h, rfl⟩
  minKey := by
    cases piece with
    | nil => exact absurd rfl hne
    | cons a rest =>
      show IsMinKey (f.key a) (f.view a :: rest.map f.view)
      rw [← f.key_view a]
      exact isMinKey_head hasc

theorem isTree_empty (hptype : ptype < 256)
    (h : Holds file (pageOff bid) (btPage (pageOff bid) bid ptype 0 [] 0 f.size)) :
    IsTree (PstReader.btreePage ptype f.size f.parse file) 0 (pageOff bid) [pageOff bid] [] := by
  refine ⟨?_, rfl⟩
  have hnone : ∀ a ∈ ([] : List α), f.Fits a := fun a ha => (nomatch ha)
  exact f.fetch_leaf hptype (Nat.zero_le _) hnone h

theorem isTree_of_levels (hptype : ptype < 256) (hfits : ∀ a ∈ sorted, f.Fits a)
    (hasc : Ascending (sorted.map f.view)) {leaves : List Nat} {upper : List (List Nat)}
    (hchunks : leaves.length = (chunks f.perLeaf sorted).length)
    (hshape : Shape intermediateEntriesPerPage leaves.length upper)
    (hoffs : ∀ bid ∈ (leaves :: upper).flatten, pageOff bid < 2 ^ 64)
    (hleaves : ∀ p ∈ leaves.zip (chunks f.perLeaf sorted), Holds file (pageOff p.1)
      (btPage (pageOff p.1) p.1 ptype 0 (p.2.flatMap f.encode) p.2.length f.size))
    (hupper : ∀ w ∈ levelWrites pageOff ptype 1 upper ((leaves.zip (chunks f.perLeaf sorted)).map
      fun p => (p.1, (p.2.head?.map f.key).getD 0)), Holds file w.1 w.2) :
    ∃ root height addrs, (leaves :: upper).getLast?.bind head? = some root ∧
      height ≤ PstReader.maxBtreeDepth ∧
      IsTree (PstReader.btreePage ptype f.size f.parse file) height (pageOff root) addrs
        (sorted.map f.view) ∧ addrs.Perm ((leaves :: upper).flatten.map pageOff) := by
  have hpos := f.perLeaf_pos
  have hmem : ∀ p ∈ leaves.zip (chunks f.perLeaf sorted), ∀ a ∈ p.2, a ∈ sorted := by
    intro p hp a ha
    rw [← flatten_chunks hpos sorted]
    exact mem_flatten_of_mem (of_mem_zip hp).2 ha
  have hstands : ∀ s ∈ f.leafLevel pageOff leaves sorted,
      s.Stands (PstReader.btreePage ptype f.size f.parse file) 0 := by
    intro s hs
    obtain ⟨p, hp, rfl⟩ := List.mem_map.mp hs
    have hpiece := (of_mem_zip hp).2
    have hsub : Sublist p.2 sorted := by
      rw [← flatten_chunks hpos sorted]
      exact sublist_flatten_of_mem hpiece
    exact f.stands_leafTree hptype (ne_nil_of_mem_chunks hpos hpiece)
      (length_le_of_mem_chunks hpos hpiece) (fun a ha => hfits a (hsub.subset ha))
      (hasc.sublist (hsub.map f.view)) (hleaves p hp)
  have hrefs : Refs pageOff (f.leafLevel pageOff leaves sorted)
      ((leaves.zip (chunks f.perLeaf sorted)).map
        fun p => (p.1, (p.2.head?.map f.key).getD 0)) := by
    unfold Refs leafLevel
    rw [map_map, map_map]
    rfl
  -- 2 ^ 64 leaves are under a root after 32 levels of 20
  have hheight : upper.length ≤ PstReader.maxBtreeDepth := by
    apply hshape.length_le (by decide)
    have hcount := f.length_le_of_ascending hfits hasc
    have hlen := length_chunks_le f.perLeaf sorted
    have hpow : (2 : Nat) ^ 64 ≤ intermediateEntriesPerPage ^ PstReader.maxBtreeDepth := by decide
    omega
  have hpages : PagesStand (PstReader.btreePage ptype f.size f.parse file) intermediateEntriesPerPage
      (f.leafLevel pageOff leaves sorted) (upper.map (map pageOff)) := by
    have hmax : 1 + upper.length ≤ 256 := by
      have : PstReader.maxBtreeDepth = 32 := rfl
      omega
    apply pagesStand_levelWrites hrefs hptype Nat.one_pos hmax _ _ hupper
    · intro c hc
      obtain ⟨p, hp, rfl⟩ := List.mem_map.mp hc
      refine ⟨?_, hoffs p.1 ?_⟩
      · cases hpiece : p.2 with
        | nil => exact Nat.two_pow_pos 64
        | cons a rest =>
          have ha : a ∈ sorted := hmem p hp a (hpiece ▸ mem_cons_self)
          exact f.key_lt a (hfits a ha)
      · exact mem_flatten_of_mem mem_cons_self (of_mem_zip hp).1
    · intro bid hbid
      exact hoffs bid (mem_append_right _ hbid)
  have hcount : (f.leafLevel pageOff leaves sorted).length = leaves.length :=
    f.length_leafLevel hchunks
  rw [← hcount] at hshape
  obtain ⟨root, hroot, hentries, haddrs, hlast⟩ := exists_root (by decide) (hshape.map pageOff)
    hstands (by rw [f.entries_leafLevel hchunks]; exact hasc) hpages
  rw [f.entries_leafLevel hchunks] at hentries
  rw [f.addrs_leafLevel hchunks] at haddrs
  rw [f.addr_leafLevel hchunks, getLast?_map, Option.getD_map] at hlast
  obtain ⟨bid, hbid, haddr⟩ := List.map_eq_singleton_iff.mp hlast
  rw [Nat.zero_add, length_map] at hroot
  refine ⟨bid, upper.length, root.addrs, ?_, hheight, ?_, ?_⟩
  · rw [getLast?_cons, hbid]
    rfl
  · rw [haddr, ← hentries]
    exact hroot.tree
  · apply haddrs.trans
    rw [flatten_cons, map_append, map_flatten]
    exact perm_append_comm

theorem isTree_of_holds (hplan : plan.Fits ptype f.size sorted.length) (hptype : ptype < 256)
    (hfits : ∀ a ∈ sorted, f.Fits a) (hasc : Ascending (sorted.map f.view))
    (hoffs : ∀ bid ∈ plan.levels.flatten, pageOff bid < 2 ^ 64)
    (hheld : ∀ w ∈ treeWrites pageOff plan (f.pages sorted), Holds file w.1 w.2) :
    ∃ root height addrs, plan.root = some root ∧ height ≤ PstReader.maxBtreeDepth ∧
      IsTree (PstReader.btreePage ptype f.size f.parse file) height (pageOff root) addrs
        (sorted.map f.view) ∧ addrs.Perm (plan.levels.flatten.map pageOff) := by
  obtain ⟨leaves, upper, hlevels, hlen, hshape⟩ := hplan.shape
  have hpos := f.perLeaf_pos
  rw [f.perLeafCapacity_eq hplan] at hlen
  unfold treeWrites leafWrites at hheld
  unfold TreePlan.root
  rw [hlevels] at hoffs hheld ⊢
  rw [headD_cons, tail_cons, hplan.planPtype, hplan.entrySize] at hheld
  by_cases hempty : sorted = []
  · have hpages : f.pages sorted = [(0, [], 0)] := if_pos hempty
    rw [hpages] at hheld
    rw [hempty, length_nil, Nat.zero_add, Nat.div_eq_of_lt (by omega)] at hlen
    obtain ⟨bid, rfl⟩ := List.length_eq_one_iff.mp hlen
    cases upper with
    | nil =>
      refine ⟨bid, 0, [pageOff bid], rfl, Nat.zero_le _, ?_, .refl _⟩
      rw [hempty]
      exact f.isTree_empty hptype (hheld _ mem_cons_self)
    | cons bids rest => exact absurd hshape.1 (Nat.lt_irrefl 1)
  · have hpages : f.pages sorted = (chunks f.perLeaf sorted).map fun piece =>
        ((piece.head?.map f.key).getD 0, piece.flatMap f.encode, piece.length) := if_neg hempty
    have hchunks : leaves.length = (chunks f.perLeaf sorted).length := by
      have hne := List.length_pos_iff.mpr (chunks_ne_nil hpos hempty)
      rw [length_chunks hpos] at hne ⊢
      omega
    rw [hpages, map_map, map_map, zip_map_right, zip_map_right, map_map]
      at hheld
    exact f.isTree_of_levels hptype hfits hasc hchunks hshape hoffs
      (fun p hp => hheld _ (mem_append_left _ (mem_map_of_mem hp)))
      fun w hw => hheld w (mem_append_right _ hw)

end LeafFormat

/-! ## The two formats -/

def nbtView (n : NodeEntry) : Nat × PstReader.NbtEntry :=
  (n.nid, ⟨n.nid, n.bidData, n.bidSub, asU32 n.nidParent⟩)

/-- A BBT entry as the reader gets it: identifier, offset, length and one reference. -/
def bbtView (b : BlockEntry) : Nat × PstReader.BbtEntry := (b.bid, ⟨b.bid, b.offset, b.len, 1⟩)

def NodeEntry.FitsU64 (n : NodeEntry) : Prop :=
  n.nid < 2 ^ 64 ∧ n.bidData < 2 ^ 64 ∧ n.bidSub < 2 ^ 64

def BlockEntry.FitsU64 (b : BlockEntry) : Prop :=
  b.bid < 2 ^ 64 ∧ b.offset < 2 ^ 64 ∧ b.len < 2 ^ 16

theorem parseNbtEntry_encodeNbtLeaf {n : NodeEntry} (h : n.FitsU64) :
    PstReader.parseNbtEntry (encodeNbtLeaf n) = nbtView n := by
  obtain ⟨hnid, hdata, hsub⟩ := h
  have hself := holds_self (encodeNbtLeaf n)
  generalize hentry : encodeNbtLeaf n = entry at hself ⊢
  have hfields : Holds entry 0 (encodeNbtLeaf n) := hentry ▸ hself
  simp only [encodeNbtLeaf, Holds.append, length_append, length_leBytes, Nat.zero_add,
    Nat.reduceAdd] at hfields
  obtain ⟨⟨⟨⟨h₀, h₈⟩, h₁₆⟩, h₂₄⟩, _⟩ := hfields
  have hparent := readLe_of_holds h₂₄
  rw [length_leBytes, ofLeBytes_leBytes] at hparent
  unfold PstReader.parseNbtEntry nbtView
  rw [readLe_of_holds_leBytes h₀ hnid, readLe_of_holds_leBytes h₈ hdata,
    readLe_of_holds_leBytes h₁₆ hsub, hparent]
  rfl

theorem parseBbtEntry_encodeBbtLeaf {b : BlockEntry} (h : b.FitsU64) :
    PstReader.parseBbtEntry (encodeBbtLeaf b) = bbtView b := by
  obtain ⟨hbid, hoff, hlen⟩ := h
  have hself := holds_self (encodeBbtLeaf b)
  generalize hentry : encodeBbtLeaf b = entry at hself ⊢
  have hfields : Holds entry 0 (encodeBbtLeaf b) := hentry ▸ hself
  simp only [encodeBbtLeaf, Holds.append, length_append, length_leBytes, Nat.zero_add,
    Nat.reduceAdd] at hfields
  obtain ⟨⟨⟨⟨h₀, h₈⟩, h₁₆⟩, h₁₈⟩, _⟩ := hfields
  unfold PstReader.parseBbtEntry bbtView
  rw [readLe_of_holds_leBytes h₀ hbid, readLe_of_holds_leBytes h₈ hoff,
    readLe_of_holds_leBytes h₁₆ hlen, readLe_of_holds_leBytes h₁₈ (by decide)]

def nbtFormat : LeafFormat NodeEntry PstReader.NbtEntry where
  key := NodeEntry.nid
  encode := encodeNbtLeaf
  view := nbtView
  parse := PstReader.parseNbtEntry
  size := nbtLeafEntrySize
  Fits := NodeEntry.FitsU64
  size_ge := by decide
  size_le := by decide
  length_encode n := by simp only [encodeNbtLeaf, length_append, length_leBytes]; rfl
  parse_encode _ := parseNbtEntry_encodeNbtLeaf
  key_view _ := rfl
  key_lt _ h := h.1

def bbtFormat : LeafFormat BlockEntry PstReader.BbtEntry where
  key := BlockEntry.bid
  encode := encodeBbtLeaf
  view := bbtView
  parse := PstReader.parseBbtEntry
  size := bbtLeafEntrySize
  Fits := BlockEntry.FitsU64
  size_ge := by decide
  size_le := by decide
  length_encode b := by simp only [encodeBbtLeaf, length_append, length_leBytes]; rfl
  parse_encode _ := parseBbtEntry_encodeBbtLeaf
  key_view _ := rfl
  key_lt _ h := h.1

/-- What the reader finds from a root page: an index of exactly the written entries, from a search
tree within the depth limit. -/
structure ReadsBack {V : Type} (page : Nat → PstReader.Result (PageView V)) (root : Nat)
    (written : List (Nat × V)) : Prop where
  index : ∃ idx, PstReader.buildIndex page root = .ok idx ∧
    ∀ key e, HashMap.get idx key = some e ↔ (key, e) ∈ written
  tree : ∃ height addrs entries, height ≤ PstReader.maxBtreeDepth ∧
    IsTree page height root addrs entries ∧ entries.Perm written

theorem LeafFormat.readsBack [Crc32fast] {α V : Type} (f : LeafFormat α V) {file : Bytes}
    {ptype : Nat} {plan : TreePlan} {l : Layout} {written : List α} {key : α → Nat}
    (hkey : key = f.key) (hplan : plan.Fits ptype f.size written.length) (hptype : ptype < 256)
    (hfits : ∀ a ∈ written, f.Fits a) (hnodup : (written.map key).Nodup)
    (hplaced : l.PagesPlaced plan.levels.flatten)
    (hoffs : ∀ bid ∈ plan.levels.flatten, l.pageOffset bid < 2 ^ 64)
    (hheld : ∀ w ∈ treeWrites l.pageOffset plan
      (f.pages (sortBy (fun a b => compare (key a) (key b)) written)), Holds file w.1 w.2) :
    ∃ root, plan.root = some root ∧ ReadsBack (PstReader.btreePage ptype f.size f.parse file)
      (l.pageOffset root) (written.map f.view) := by
  subst hkey
  have hperm := sortBy_perm (fun a b => compare (f.key a) (f.key b)) written
  have hasc : Ascending ((sortBy (fun a b => compare (f.key a) (f.key b)) written).map f.view) := by
    unfold Ascending
    rw [pairwise_map]
    apply (pairwise_sortBy_key f.key hnodup).imp
    intro a b hab
    rwa [f.key_view, f.key_view]
  obtain ⟨root, height, addrs, hroot, hheight, htree, haddrs⟩ := f.isTree_of_holds
    (hperm.length_eq ▸ hplan) hptype (fun a ha => hfits a (hperm.mem_iff.mp ha)) hasc hoffs hheld
  have hview := hperm.map f.view
  refine ⟨root, hroot, ⟨⟨_, PstReader.buildIndex_of_isTree ?_ hheight htree ?_, ?_⟩,
    ⟨height, addrs, _, hheight, htree, hview⟩⟩⟩
  · have hbehind := hplaced.behind root (TreePlan.mem_of_root hroot)
    have hheader : 0 < headerSize := by decide
    omega
  · exact haddrs.nodup_iff.mpr hplaced.nodup
  · intro key e
    rw [HashMap.get_insertAll_eq_some_iff, hview.mem_iff]
    have hlt : ((sortBy (fun a b => compare (f.key a) (f.key b)) written).map f.view).Pairwise
        fun a b => a.1 ≠ b.1 := hasc.imp fun hab => Nat.ne_of_lt hab
    exact List.pairwise_map.mpr hlt

end PstWriter
