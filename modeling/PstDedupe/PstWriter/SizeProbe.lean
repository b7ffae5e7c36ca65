import PstDedupe.PstWriter.DataTree
import PstDedupe.PstWriter.MessageNode
import PstDedupe.PstWriter.PcRecords

/-!
# The size probe of a message (`pst-writer/src/production.rs`)

While the property context does not fit on its page, the longest helper string that is still inline
goes to a subnode.
-/

namespace PstWriter

open Rust Foundations List Prod
open PstReader (satAdd)

/-! ## One helper -/

def keepLarger (best : Option (Nat × String)) (x : (Nat × PcValue) × Nat) : Option (Nat × String) :=
  match helperString x.1, best with
  | none, best => best
  | some s, none => some (x.2, s)
  | some s, some (j, t) =>
    if (utf16leBytes s).length ≥ (utf16leBytes t).length then some (x.2, s) else some (j, t)

theorem largestHelper_eq (props : List (Nat × PcValue)) :
    largestHelper props = props.zipIdx.foldl keepLarger none :=
  rfl

theorem keepLarger_some (best : Option (Nat × String)) {x : (Nat × PcValue) × Nat} {s : String}
    (h : helperString x.1 = some s) :
    ∃ kept, keepLarger best x = some kept ∧ (best = some kept ∨ kept = (x.2, s)) := by
  unfold keepLarger
  rw [h]
  rcases best with _ | ⟨j, t⟩
  · exact ⟨(x.2, s), rfl, .inr rfl⟩
  · dsimp only
    split
    · exact ⟨(x.2, s), rfl, .inr rfl⟩
    · exact ⟨(j, t), rfl, .inl rfl⟩

theorem keepLarger_none (best : Option (Nat × String)) {x : (Nat × PcValue) × Nat}
    (h : helperString x.1 = none) :
    keepLarger best x = best := by
  unfold keepLarger
  rw [h]

theorem foldl_keepLarger (xs : List ((Nat × PcValue) × Nat)) (best : Option (Nat × String)) :
    (xs.foldl keepLarger best = none → best = none ∧ ∀ x ∈ xs, helperString x.1 = none) ∧
      ∀ r, xs.foldl keepLarger best = some r → best = some r ∨ ∃ x ∈ xs, x.2 = r.1 ∧
        helperString x.1 = some r.2 := by
  induction xs generalizing best with
  | nil => exact ⟨fun h => ⟨h, fun x hx => (nomatch hx)⟩, fun r h => .inl h⟩
  | cons x xs ih =>
    rw [foldl_cons]
    cases hhelper : helperString x.1 with
    | none =>
      rw [keepLarger_none best hhelper]
      obtain ⟨hnone, hsome⟩ := ih best
      refine ⟨fun h => ⟨(hnone h).1, List.forall_mem_cons.mpr ⟨hhelper, (hnone h).2⟩⟩, fun r h => ?_⟩
      exact (hsome r h).imp_right fun ⟨y, hy, hr⟩ => ⟨y, mem_cons_of_mem _ hy, hr⟩
    | some s =>
      obtain ⟨kept, heq, hwhich⟩ := keepLarger_some best hhelper
      obtain ⟨hnone, hsome⟩ := ih (some kept)
      rw [heq]
      refine ⟨fun h => absurd (hnone h).1 (Option.some_ne_none _), fun r h => ?_⟩
      rcases hsome r h with hr | ⟨y, hy, hr⟩
      · obtain rfl := Option.some.inj hr
        rcases hwhich with hbest | rfl
        · exact .inl hbest
        · exact .inr ⟨x, mem_cons_self, rfl, hhelper⟩
      · exact .inr ⟨y, mem_cons_of_mem _ hy, hr⟩

theorem largestHelper_eq_none {props : List (Nat × PcValue)} (h : largestHelper props = none) :
    ∀ prop ∈ props, helperString prop = none := by
  intro prop hprop
  obtain ⟨i, hi⟩ := List.mem_iff_getElem?.mp hprop
  rw [largestHelper_eq] at h
  exact ((foldl_keepLarger props.zipIdx none).1 h).2 (prop, i) (List.mem_zipIdx_iff_getElem?.mpr hi)

theorem largestHelper_eq_some {props : List (Nat × PcValue)} {i : Nat} {s : String}
    (h : largestHelper props = some (i, s)) : ∃ prop, props[i]? = some prop ∧ helperString prop = some s := by
  rw [largestHelper_eq] at h
  rcases (foldl_keepLarger props.zipIdx none).2 (i, s) h with hnone | ⟨⟨prop, j⟩, hmem, rfl, hs⟩
  · cases hnone
  · exact ⟨prop, List.mem_zipIdx_iff_getElem?.mp hmem, hs⟩

theorem helperString_messageSize (value : PcValue) : helperString (pidTagMessageSize, value) = none := by
  unfold helperString
  split
  · rw [if_neg (show ¬ helperStringPids.contains pidTagMessageSize = true by decide)]
  · rfl

def inlineHelpers (props : List (Nat × PcValue)) : Nat := props.countP fun prop => (helperString prop).isSome

theorem inlineHelpers_modify {props : List (Nat × PcValue)} {i : Nat} {prop : Nat × PcValue}
    {s : String} (nid : Nat) (h : props[i]? = some prop) (hs : helperString prop = some s) :
    inlineHelpers (props.modify i fun prop => (prop.1, .subnodeString nid)) + 1 = inlineHelpers props := by
  unfold inlineHelpers
  induction props generalizing i with
  | nil => cases h
  | cons first rest ih =>
    cases i with
    | zero =>
      obtain rfl := Option.some.inj h
      rw [modify_zero_cons, countP_cons, countP_cons, hs]
      rfl
    | succ i =>
      rw [modify_succ_cons, countP_cons, countP_cons, ← ih h]
      omega

/-! ## The size that is written -/

def SameShape (a b : HeapBuilder) : Prop := a.allocations = b.allocations ∧ a.data.length = b.data.length

theorem sameShape_tryAlloc {heap a : HeapBuilder} {x y : Bytes} {hid : Nat} (hlen : x.length = y.length)
    (h : heap.tryAlloc x = .ok (hid, a)) : ∃ b, heap.tryAlloc y = .ok (hid, b) ∧ SameShape a b := by
  unfold HeapBuilder.tryAlloc at h ⊢
  rw [show heap.projected y = heap.projected x by rw [HeapBuilder.projected, HeapBuilder.projected, hlen]]
  split at h
  · cases h
  · rename_i hfits
    rw [if_neg hfits]
    cases h
    exact ⟨_, rfl, by simp [hlen], by simp [hlen]⟩

theorem length_patchBytes (data cells : Bytes) (off : Nat) :
    (patchBytes data off cells).length = max data.length (off + cells.length) := length_overwrite

theorem SameShape.patchU32 {a b a' : HeapBuilder} {hid off v : Nat} (h : SameShape a b)
    (hpatch : a.patchU32 hid off v = .ok a') : ∃ b', b.patchU32 hid off v = .ok b' ∧ SameShape a' b' := by
  unfold HeapBuilder.patchU32 at hpatch ⊢
  rw [← h.1]
  cases hat : a.allocations[(hid >>> 5) - 1]? with
  | none =>
    simp only [hat] at hpatch
    cases hpatch
  | some span =>
    simp only [hat] at hpatch ⊢
    split at hpatch
    · cases hpatch
    · rename_i hfits
      rw [if_neg hfits]
      cases hpatch
      exact ⟨_, rfl, rfl, by simp [length_patchBytes, h.2]⟩

theorem SameShape.length_finalize {a b : HeapBuilder} (h : SameShape a b) (hid : Nat) :
    (a.finalize hid).length = (b.finalize hid).length := by
  simp only [HeapBuilder.finalize, length_patchBytes, length_append, h.1, h.2, length_leBytes]

theorem encodeRecords_setMessageSize {heap heap' : HeapBuilder} {props : List (Nat × PcValue)}
    {records : List (Nat × Bytes)} (size : Nat)
    (hnumber : ∀ prop ∈ props, prop.1 = pidTagMessageSize → ∃ v, prop.2 = .i32 v)
    (h : encodeRecords heap props = .ok (records, heap')) :
    ∃ records', encodeRecords heap (setMessageSize size props) = .ok (records', heap') := by
  induction props generalizing heap records with
  | nil => exact ⟨records, h⟩
  | cons prop rest ih =>
    obtain ⟨pid, value⟩ := prop
    obtain ⟨hfirst, hrest⟩ := List.forall_mem_cons.mp hnumber
    rw [setMessageSize]
    rw [encodeRecords] at h
    split
    · rename_i heq
      obtain ⟨v, rfl⟩ := hfirst heq
      obtain ⟨r, hrecord, h⟩ := bind_eq_ok.mp h
      obtain ⟨rs, htail, h⟩ := bind_eq_ok.mp h
      cases hrecord
      cases h
      exact ⟨_, bind_eq_ok.mpr ⟨_, rfl, bind_eq_ok.mpr ⟨_, htail, rfl⟩⟩⟩
    · obtain ⟨r, hrecord, h⟩ := bind_eq_ok.mp h
      obtain ⟨rs, htail, h⟩ := bind_eq_ok.mp h
      cases h
      obtain ⟨records', hrecords'⟩ := ih hrest htail
      exact ⟨_, bind_eq_ok.mpr ⟨r, hrecord, bind_eq_ok.mpr ⟨_, hrecords', rfl⟩⟩⟩

theorem map_fst_setMessageSize (size : Nat) (props : List (Nat × PcValue)) :
    (setMessageSize size props).map fst = props.map fst := by
  induction props with
  | nil => rfl
  | cons prop rest ih =>
    rw [setMessageSize]
    split
    · rfl
    · rw [map_cons, ih, map_cons]

theorem getElem?_setMessageSize {props : List (Nat × PcValue)} {j size : Nat} {prop : Nat × PcValue}
    (h : props[j]? = some prop) (hne : prop.1 ≠ pidTagMessageSize) :
    (setMessageSize size props)[j]? = some prop := by
  induction props generalizing j with
  | nil => cases h
  | cons first rest ih =>
    rw [setMessageSize]
    cases j with
    | zero =>
      obtain rfl := Option.some.inj h
      rw [if_neg hne]
      rfl
    | succ j =>
      split
      · exact h
      · exact ih h

theorem mem_setMessageSize {props : List (Nat × PcValue)} (size : Nat)
    (h : pidTagMessageSize ∈ props.map fst) :
    (pidTagMessageSize, .i32 (Int32.ofNat size)) ∈ setMessageSize size props := by
  induction props with
  | nil => cases h
  | cons prop rest ih =>
    rw [setMessageSize]
    split
    · rename_i heq
      rw [heq]
      exact mem_cons_self
    · rename_i hne
      rw [map_cons, mem_cons] at h
      exact mem_cons_of_mem _ (ih (h.resolve_left (Ne.symm hne)))

theorem pcBytes_setMessageSize {props : List (Nat × PcValue)} {probe : Bytes} (size : Nat)
    (hnumber : ∀ prop ∈ props, prop.1 = pidTagMessageSize → ∃ v, prop.2 = .i32 v)
    (h : pcBytes props = .ok probe) :
    ∃ heap, pcBytes (setMessageSize size props) = .ok heap ∧ heap.length = probe.length := by
  unfold pcBytes buildPcV2 at h ⊢
  obtain ⟨r, hbuilt, h⟩ := bind_eq_ok.mp h
  obtain ⟨⟨records, filled⟩, hrecords, hbuilt⟩ := bind_eq_ok.mp hbuilt
  obtain ⟨root, hroot, hbuilt⟩ := bind_eq_ok.mp hbuilt
  obtain ⟨a, hfirst, hbuilt⟩ := bind_eq_ok.mp hbuilt
  obtain ⟨a', hpatch, hbuilt⟩ := bind_eq_ok.mp hbuilt
  cases hbuilt
  cases h
  obtain ⟨records', hrecords'⟩ := encodeRecords_setMessageSize size hnumber hrecords
  obtain ⟨-, hids, hsix, -⟩ := HeapBuilder.encodeRecords_spec hrecords ⟨rfl, le_rfl⟩
  obtain ⟨-, hids', hsix', -⟩ := HeapBuilder.encodeRecords_spec hrecords' ⟨rfl, le_rfl⟩
  have hlen := congrArg length (hids.trans ((map_fst_setMessageSize size props).symm.trans hids'.symm))
  rw [length_map, length_map] at hlen
  have hleaf := (length_leaf hsix).trans ((congrArg (8 * ·) hlen).trans (length_leaf hsix').symm)
  obtain ⟨b, hb, hshape⟩ := sameShape_tryAlloc hleaf hfirst
  obtain ⟨b', hb', hshape'⟩ := hshape.patchU32 hpatch
  refine ⟨b'.finalize root.1, bind_eq_ok.mpr ⟨(root.1, b'), bind_eq_ok.mpr ⟨_, hrecords', ?_⟩, rfl⟩,
    (hshape'.length_finalize _).symm⟩
  exact bind_eq_ok.mpr ⟨root, hroot, bind_eq_ok.mpr ⟨_, hb, bind_eq_ok.mpr ⟨b', hb', rfl⟩⟩⟩

theorem pcBytes_holds {props : List (Nat × PcValue)} {heap : Bytes} (h : pcBytes props = .ok heap) :
    HoldsProps heap props := by
  obtain ⟨r, hbuilt, h⟩ := bind_eq_ok.mp h
  cases h
  exact holdsProps_finalize hbuilt

theorem positionedWriteAll_error {file file' : TempFile} {off pos pos' : Nat} {data : Bytes} {e : WriterError}
    (h : positionedWriteAll file off data pos = (.error e, file', pos')) : isHeapPageOverflow e = false := by
  unfold positionedWriteAll at h
  split at h
  · cases h
    rfl
  · cases h

/-! ## Diversions -/

section

variable [Crc32fast] {p p' : Payload} {l l' : Layout}

def Payload.diverted (p : Payload) (i : Nat) (s : String) (bid : Nat) : Payload where
  props := p.props.modify i fun prop => (prop.1, .subnodeString (nextSubnodeNid p.subnodeCounter))
  subnodeEntries := p.subnodeEntries ++ [⟨nextSubnodeNid p.subnodeCounter, bid, 0⟩]
  subnodeCounter := p.subnodeCounter + 1
  writtenContentBytes := satAdd p.writtenContentBytes (utf16leBytes s).length

structure Diverts (p : Payload) (l : Layout) (i : Nat) (s : String) (bid : Nat) (l' : Layout) : Prop where
  overflows : ∃ e, pcBytes p.props = .error e ∧ isHeapPageOverflow e = true
  inline : ∃ prop, p.props[i]? = some prop ∧ helperString prop = some s
  written : l.writeDataChain (utf16leBytes s) = (.ok bid, l')

/-- Diversions one after the other, with the places and the strings that were inline there. -/
inductive Escalated : Payload → Layout → List (Nat × String) → Payload → Layout → Prop
  | refl (p : Payload) (l : Layout) : Escalated p l [] p l
  | step {p p' : Payload} {l l₁ l' : Layout} {i bid : Nat} {s : String} {done : List (Nat × String)}
      (h : Diverts p l i s bid l₁) (rest : Escalated (p.diverted i s bid) l₁ done p' l') :
      Escalated p l ((i, s) :: done) p' l'

theorem escalateLargestInlineHelper_eq (p : Payload)
      (l : Layout) : p.escalateLargestInlineHelper l = match largestHelper p.props with
      | none => (.ok none, l)
      | some (i, s) =>
        match l.writeDataChain (utf16leBytes s) with
        | (.error e, l') => (.error e, l')
        | (.ok bid, l') => (.ok (some (p.diverted i s bid)), l') := by
  unfold Payload.escalateLargestInlineHelper
  rcases largestHelper p.props with _ | ⟨i, s⟩
  · rfl
  · show (LayoutM.of (·.writeDataChain (utf16leBytes s)) >>= _ : LayoutM _) l = _
    simp only [bind, ExceptT.bind, ExceptT.mk, StateT.bind, LayoutM.of]
    rcases l.writeDataChain (utf16leBytes s) with ⟨e | bid, l'⟩ <;> rfl

theorem Escalated.inlineHelpers {done : List (Nat × String)} (h : Escalated p l done p' l') :
    inlineHelpers p'.props + done.length = inlineHelpers p.props ∧
      p'.props.map fst = p.props.map fst := by
  induction h with
  | refl p l => exact ⟨rfl, rfl⟩
  | @step p p' l l₁ l' i bid s done h _ ih =>
    obtain ⟨prop, hprop, hs⟩ := h.inline
    obtain ⟨hcount, hids⟩ := ih
    have hone := inlineHelpers_modify (nextSubnodeNid p.subnodeCounter) hprop hs
    refine ⟨?_, hids.trans ?_⟩
    · rw [length_cons, ← hone, ← Nat.add_assoc, hcount]
      rfl
    · refine ext_getElem? fun j => ?_
      rw [getElem?_map, getElem?_map, Payload.diverted, getElem?_modify]
      split <;> cases p.props[j]? <;> rfl

theorem Escalated.props {done : List (Nat × String)} (h : Escalated p l done p' l') :
    p'.props.length = p.props.length ∧ (done.map fst).Nodup ∧
      (∀ d ∈ done, ∃ prop, p.props[d.1]? = some prop ∧ helperString prop = some d.2) ∧
      (∀ j, (∀ d ∈ done, d.1 ≠ j) → p'.props[j]? = p.props[j]?) := by
  induction h with
  | refl p l => exact ⟨rfl, nodup_nil, fun d hd => (nomatch hd), fun j _ => rfl⟩
  | @step p p' l l₁ l' i bid s done h _ ih =>
    obtain ⟨hlen, hnodup, hhelpers, hsame⟩ := ih
    -- the string at `i` is not inline any more, so what is diverted later stands elsewhere
    have hlater : ∀ d ∈ done, d.1 ≠ i ∧ ∃ prop, p.props[d.1]? = some prop ∧ helperString prop = some d.2 := by
      intro d hd
      obtain ⟨prop, hprop, hs⟩ := hhelpers d hd
      have hne : i ≠ d.1 := by
        intro heq
        rw [← heq] at hprop
        obtain ⟨prop₀, hprop₀, -⟩ := h.inline
        rw [Payload.diverted, getElem?_modify_eq, hprop₀] at hprop
        obtain rfl := Option.some.inj hprop
        simp [helperString] at hs
      rw [Payload.diverted, getElem?_modify_ne _ _ hne] at hprop
      exact ⟨hne.symm, prop, hprop, hs⟩
    refine ⟨?_, ?_, ?_, ?_⟩
    · rw [hlen, Payload.diverted, length_modify]
    · rw [map_cons, nodup_cons]
      refine ⟨fun hmem => ?_, hnodup⟩
      obtain ⟨d, hd, heq⟩ := List.mem_map.mp hmem
      exact (hlater d hd).1 heq
    · intro d hd
      rcases List.mem_cons.mp hd with rfl | hd
      · exact h.inline
      · exact (hlater d hd).2
    · intro j hj
      rw [hsame j fun d hd => hj d (mem_cons_of_mem _ hd), Payload.diverted,
        getElem?_modify_ne _ _ (hj (i, s) mem_cons_self)]

theorem Escalated.steps {done : List (Nat × String)} (h : Escalated p l done p' l') : Steps l l' := by
  induction h with
  | refl p l => exact .refl
  | step h _ ih => exact (steps_writeDataChain h.written).trans ih

theorem Escalated.entries {done : List (Nat × String)} (h : Escalated p l done p' l') :
    (∃ more, p'.subnodeEntries = p.subnodeEntries ++ more) ∧
      ∀ d ∈ done, ∀ prop, p.props[d.1]? = some prop → ∃ nid bid,
        p'.props[d.1]? = some (prop.1, .subnodeString nid) ∧ ⟨nid, bid, 0⟩ ∈ p'.subnodeEntries ∧
          (l.Sound → ∃ leaves, DataTree l'.Stores bid leaves ∧ leaves.flatten = utf16leBytes d.2) := by
  induction h with
  | refl p l => exact ⟨⟨[], (append_nil _).symm⟩, fun d hd => (nomatch hd)⟩
  | @step p p' l l₁ l' i bid s done h rest ih =>
    obtain ⟨⟨more, hmore⟩, hentries⟩ := ih
    obtain ⟨-, -, hhelpers, hsame⟩ := rest.props
    have hall : p'.subnodeEntries = p.subnodeEntries ++
        (⟨nextSubnodeNid p.subnodeCounter, bid, 0⟩ :: more) := by
      rw [hmore, Payload.diverted, append_assoc]
      rfl
    refine ⟨⟨_, hall⟩, fun d hd prop hprop => ?_⟩
    rcases List.mem_cons.mp hd with rfl | hd
    · have hkept := hsame i fun d hd heq => by
        obtain ⟨prop', hprop', hs'⟩ := hhelpers d hd
        rw [heq, Payload.diverted, getElem?_modify_eq, hprop] at hprop'
        obtain rfl := Option.some.inj hprop'
        simp [helperString] at hs'
      rw [Payload.diverted, getElem?_modify_eq, hprop] at hkept
      refine ⟨_, bid, hkept, by rw [hall]; simp, fun hl => ?_⟩
      obtain ⟨leaves, htree, hflat, -, -⟩ := hl.writeDataChain h.written
      exact ⟨leaves, htree.mono ((hl.steps (steps_writeDataChain h.written)).keeps rest.steps), hflat⟩
    · have hne : i ≠ d.1 := by
        intro heq
        obtain ⟨prop', hprop', hs'⟩ := hhelpers d hd
        rw [← heq, Payload.diverted, getElem?_modify_eq, heq, hprop] at hprop'
        obtain rfl := Option.some.inj hprop'
        simp [helperString] at hs'
      obtain ⟨nid, bid, hnow, hentry, htree⟩ :=
        hentries d hd prop (by rwa [Payload.diverted, getElem?_modify_ne _ _ hne])
      exact ⟨nid, bid, hnow, hentry, fun hl => htree (hl.steps (steps_writeDataChain h.written))⟩

theorem Escalated.bytes {done : List (Nat × String)} (h : Escalated p l done p' l')
    (hle : p'.writtenContentBytes ≤ i32Max) :
    p'.writtenContentBytes = p.writtenContentBytes + (done.map fun d => (utf16leBytes d.2).length).sum := by
  induction h with
  | refl p l => rfl
  | @step p p' l l₁ l' i bid s done _ _ ih =>
    have hrest := ih hle
    have hmax : i32Max < PstReader.u64Max := by decide
    rw [map_cons, sum_cons]
    simp only [Payload.diverted, satAdd] at hrest
    dsimp only
    omega

/-- `n` bytes are in the data trees of the subnodes and of those below them. -/
inductive Content (l : Layout) : List SlEntry → Nat → Prop
  | nil : Content l [] 0
  | cons {nid bid sub m n : Nat} {leaves : List Bytes} {below entries : List SlEntry}
      (tree : DataTree l.Stores bid leaves) (hsub : sub = 0 ∧ below = [] ∨
      l.Stores sub (slBlock below)) (hbelow : Content l below m) (rest : Content l entries n) :
      Content l (⟨nid, bid, sub⟩ :: entries) (leaves.flatten.length + m + n)

theorem Content.mono {entries : List SlEntry} {n : Nat} (h : Content l entries n)
    (hS : ∀ bid d, l.Stores bid d → l'.Stores bid d) : Content l' entries n := by
  induction h with
  | nil => exact .nil
  | cons tree hsub _ _ ihBelow ih => exact .cons (tree.mono hS) (hsub.imp_right (hS _ _)) ihBelow ih

theorem Content.snoc {entries : List SlEntry} {n bid : Nat} {leaves : List Bytes}
    (h : Content l entries n) (tree : DataTree l.Stores bid leaves) (nid : Nat) :
    Content l (entries ++ [⟨nid, bid, 0⟩]) (n + leaves.flatten.length) := by
  induction h with
  | nil =>
    rw [Nat.zero_add]
    exact .cons tree (.inl ⟨rfl, rfl⟩) .nil .nil
  | cons tree' hsub hbelow _ _ ih =>
    rw [Nat.add_assoc]
    exact .cons tree' hsub hbelow ih

/-- What is counted as written is what the subnodes hold, after the diversions as before. -/
theorem Escalated.content {done : List (Nat × String)} (h : Escalated p l done p' l') (hl : l.Sound)
    (hle : p'.writtenContentBytes ≤ i32Max) (hcontent : Content l p.subnodeEntries p.writtenContentBytes) :
    Content l' p'.subnodeEntries p'.writtenContentBytes := by
  induction h with
  | refl p l => exact hcontent
  | @step p p' l l₁ l' i bid s done h rest ih =>
    have hsteps := steps_writeDataChain h.written
    obtain ⟨leaves, htree, hflat, -, -⟩ := hl.writeDataChain h.written
    refine ih (hl.steps hsteps) hle ?_
    have hnext := (hcontent.mono (hl.keeps hsteps)).snoc htree (nextSubnodeNid p.subnodeCounter)
    rw [hflat] at hnext
    have hbytes := rest.bytes hle
    have hmax : i32Max < PstReader.u64Max := by decide
    simp only [Payload.diverted, satAdd] at hbytes ⊢
    rwa [Nat.min_eq_left (by omega)]

/-! ## The loop -/

theorem writeStubs_error {pages : List PageEntry} {eager eager' : EagerWriteCtx} {e : WriterError}
    (h : writeStubs pages eager = (.error e, eager')) : isHeapPageOverflow e = false := by
  induction pages generalizing eager with
  | nil => cases h
  | cons page rest ih =>
    rw [writeStubs] at h
    split at h
    · exact ih h
    · split at h
      · rename_i hwrite
        cases h
        exact positionedWriteAll_error hwrite
      · exact ih h

theorem placeAndWriteBlock_error {eager eager' : EagerWriteCtx} {bid : Nat} {data : Bytes} {e : WriterError}
    (h : l.placeAndWriteBlock eager bid data = (.error e, l', eager')) : isHeapPageOverflow e = false := by
  unfold Layout.placeAndWriteBlock amapPlaceRegion at h
  split at h
  · rename_i hplace
    split at hplace
    · cases hplace
      cases h
      rfl
    · cases hplace
  · dsimp only at h
    split at h
    · rename_i hstubs
      cases h
      exact writeStubs_error hstubs
    · split at h
      · rename_i hwrite
        cases h
        exact positionedWriteAll_error hwrite
      · cases h

theorem pushLeaf_error {data : Bytes} {e : WriterError} (h : l.pushLeaf data = (.error e, l')) :
    isHeapPageOverflow e = false := by
  unfold Layout.pushLeaf Layout.pushLeafBlock at h
  dsimp only at h
  split at h
  · rename_i hpush
    cases h
    split at hpush
    · cases hpush
    · split at hpush
      · rename_i hplace
        cases hpush
        exact placeAndWriteBlock_error hplace
      · cases hpush
  · cases h

theorem pushLeaves_error {payloads : List Bytes} {e : WriterError}
    (h : l.pushLeaves payloads = (.error e, l')) :
    isHeapPageOverflow e = false := by
  induction payloads generalizing l with
  | nil => cases h
  | cons payload rest ih =>
    rw [Layout.pushLeaves] at h
    rcases hfirst : l.pushLeaf payload with ⟨e₁ | bid, l₁⟩
    · rw [hfirst] at h
      cases h
      exact pushLeaf_error hfirst
    · simp only [hfirst] at h
      rcases hrest : l₁.pushLeaves rest with ⟨e₂ | chunks, l₂⟩
      · rw [hrest] at h
        cases h
        exact ih hrest
      · rw [hrest] at h
        cases h

theorem writeDataChain_error {data : Bytes} {e : WriterError}
    (h : l.writeDataChain data = (.error e, l')) : isHeapPageOverflow e = false := by
  unfold Layout.writeDataChain at h
  split at h
  · cases h
  split at h
  · cases h
    rfl
  split at h
  · exact pushLeaf_error h
  rcases hleaves : l.pushLeaves (chunks maxBlockData data) with ⟨e₁ | dataChunks, l₁⟩
  · rw [hleaves] at h
    cases h
    exact pushLeaves_error hleaves
  · simp only [hleaves, Layout.buildChunkTree] at h
    split at h
    · cases h
    · split at h
      · cases h
        rfl
      · cases h

/-- How the loop fails with `e`, after its diversions. -/
inductive ProbeFails (p : Payload) (l : Layout) : WriterError → Layout → Prop
  | tooLarge {probe : Bytes} (h : pcBytes p.props = .ok probe)
  (hsize : i32Max < probe.length + p.writtenContentBytes) :
      ProbeFails p l (.bodyTooLarge (messageSizeMessage (probe.length + p.writtenContentBytes))) l
  | overflow {e : WriterError} (h : pcBytes p.props = .error e) (ho : isHeapPageOverflow e = true)
      (hnone : inlineHelpers p.props = 0) : ProbeFails p l e l
  | build {e : WriterError} (h : pcBytes p.props = .error e) (ho : isHeapPageOverflow e = false) :
    ProbeFails p l e l
  | write {e : WriterError} {prop : Nat × PcValue} {s : String} {l' : Layout} (hprop : prop ∈ p.props)
      (hs : helperString prop = some s) (h : l.writeDataChain (utf16leBytes s) = (.error e, l'))
      (ho : isHeapPageOverflow e = false) : ProbeFails p l e l'

theorem probeMessageSize_succ (fuel : Nat) (p : Payload) (l : Layout) : p.probeMessageSize
      (fuel + 1) l = match pcBytes p.props with
      | .ok probe =>
        if probe.length + p.writtenContentBytes ≤
          i32Max then (.ok (probe.length + p.writtenContentBytes, p), l)
        else (.error (.bodyTooLarge (messageSizeMessage (probe.length + p.writtenContentBytes))), l)
      | .error e =>
        if isHeapPageOverflow e then
          match p.escalateLargestInlineHelper l with
          | (.error e', l') => (.error e', l')
          | (.ok none, l') => (.error e, l')
          | (.ok (some p'), l') => p'.probeMessageSize fuel l'
        else (.error e, l) := by
  rw [Payload.probeMessageSize]
  rcases pcBytes p.props with e | probe
  · dsimp only
    split
    · simp only [bind, ExceptT.bind, ExceptT.mk, StateT.bind]
      rcases p.escalateLargestInlineHelper l with ⟨e' | _ | p', l'⟩ <;> rfl
    · rfl
  · dsimp only
    split <;> rfl

theorem probeMessageSize_spec (fuel : Nat) (p : Payload) (l : Layout) (hfuel : inlineHelpers p.props < fuel) :
    ∃ (done : List (Nat × String)) (p' : Payload) (l' : Layout), Escalated p l done p' l' ∧
      ((∃ probe, pcBytes p'.props = .ok probe ∧ probe.length + p'.writtenContentBytes ≤ i32Max ∧
          p.probeMessageSize fuel l = (.ok (probe.length + p'.writtenContentBytes, p'), l')) ∨
        ∃ e l'', p.probeMessageSize fuel l = (.error e, l'') ∧ ProbeFails p' l' e l'') := by
  induction fuel generalizing p l with
  | zero => exact absurd hfuel (Nat.not_lt_zero _)
  | succ fuel ih =>
    rw [probeMessageSize_succ]
    cases hprobe : pcBytes p.props with
    | ok probe =>
      refine ⟨[], p, l, .refl p l, ?_⟩
      dsimp only
      split
      · rename_i hsize
        exact .inl ⟨probe, hprobe, hsize, rfl⟩
      · rename_i hsize
        exact .inr ⟨_, l, rfl, .tooLarge hprobe (Nat.lt_of_not_le hsize)⟩
    | error e =>
      cases hoverflow : isHeapPageOverflow e with
      | false => exact ⟨[], p, l, .refl p l, .inr ⟨e, l, by simp [hoverflow], .build hprobe hoverflow⟩⟩
      | true =>
        simp only [hoverflow, if_true, escalateLargestInlineHelper_eq]
        rcases hlargest : largestHelper p.props with _ | ⟨i, s⟩
        · -- no helper is left to divert
          have hzero : inlineHelpers p.props = 0 := by
            refine List.countP_eq_zero.mpr fun prop hprop => ?_
            rw [largestHelper_eq_none hlargest prop hprop]
            exact Bool.false_ne_true
          exact ⟨[], p, l, .refl p l, .inr ⟨e, l, rfl, .overflow hprobe hoverflow hzero⟩⟩
        · dsimp only
          obtain ⟨prop, hprop, hs⟩ := largestHelper_eq_some hlargest
          rcases hwrite : l.writeDataChain (utf16leBytes s) with ⟨e' | bid, l₁⟩
          · refine ⟨[], p, l, .refl p l, .inr ⟨e', l₁, rfl, ?_⟩⟩
            exact .write (mem_of_getElem? hprop) hs hwrite (writeDataChain_error hwrite)
          · have hone := inlineHelpers_modify (nextSubnodeNid p.subnodeCounter) hprop hs
            have hless : inlineHelpers (p.diverted i s bid).props < fuel := by
              rw [← hone] at hfuel
              exact Nat.lt_of_succ_lt_succ hfuel
            obtain ⟨done, p', l', hrun, hend⟩ := ih (p.diverted i s bid) l₁ hless
            exact ⟨(i, s) :: done, p', l',
              .step ⟨⟨e, hprobe, hoverflow⟩, ⟨prop, hprop, hs⟩, hwrite⟩ hrun, hend⟩

theorem Escalated.number {done : List (Nat × String)} (h : Escalated p l done p' l')
    (hids : (p.props.map fst).Nodup) (hsize : (pidTagMessageSize, .i32 0) ∈ p.props) :
    ∀ prop ∈ p'.props, prop.1 = pidTagMessageSize → ∃ v, prop.2 = .i32 v := by
  obtain ⟨hlen, -, hhelpers, hsame⟩ := h.props
  obtain ⟨k, hk⟩ := List.mem_iff_getElem?.mp hsize
  intro prop hprop hpid
  obtain ⟨j, hj⟩ := List.mem_iff_getElem?.mp hprop
  have hids' : (p'.props.map fst)[j]? = some pidTagMessageSize := by rw [getElem?_map, hj, ← hpid]; rfl
  rw [h.inlineHelpers.2] at hids'
  have hkid : (p.props.map fst)[k]? = some pidTagMessageSize := by rw [getElem?_map, hk]; rfl
  obtain rfl : k = j := (getElem?_inj (List.getElem?_eq_some_iff.mp hkid).1 hids).mp (hkid.trans hids'.symm)
  have hkeep := hsame k fun d hd heq => by
    obtain ⟨prop', hprop', hs⟩ := hhelpers d hd
    rw [heq, hk] at hprop'
    obtain rfl := Option.some.inj hprop'
    rw [helperString_messageSize] at hs
    cases hs
  rw [hkeep, hk] at hj
  obtain rfl := Option.some.inj hj
  exact ⟨0, rfl⟩

/-- The string of the property at `j` is in the subnode that the property now names. -/
def InSubnode (l l' : Layout) (p : Payload) (j : Nat) (prop : Nat × PcValue)
    (props : List (Nat × PcValue)) : Prop :=
  ∃ (s : String) (nid bid : Nat), helperString prop = some s ∧
    props[j]? = some (prop.1, .subnodeString nid) ∧ ⟨nid, bid, 0⟩ ∈ p.subnodeEntries ∧
      (l.Sound → ∃ leaves, DataTree l'.Stores bid leaves ∧ leaves.flatten = utf16leBytes s)

/-- The loop ends after at most one diversion for each inline helper, each while the page overflows.
With a size, the context is built with it: its heap holds a record of every property, and the size
is the heap and what the subnodes hold. -/
theorem probeMessageSize_exact {p : Payload} (hids : (p.props.map fst).Nodup)
    (hsize : (pidTagMessageSize, .i32 0) ∈ p.props) (l : Layout) :
    ∃ (done : List (Nat × String)) (p' : Payload) (l' : Layout), Escalated p l done p' l' ∧
      (done.map fst).Nodup ∧
      (∀ d ∈ done, ∃ prop, p.props[d.1]? = some prop ∧ helperString prop = some d.2) ∧
      inlineHelpers p'.props + done.length = inlineHelpers p.props ∧
      ((∃ (size : Nat) (heap : Bytes), p.probeMessageSize (p.props.length + 1) l = (.ok (size, p'), l') ∧
          pcBytes (setMessageSize size p'.props) = .ok heap ∧ HoldsProps heap (setMessageSize size p'.props) ∧
          (l.Sound → Content l p.subnodeEntries p.writtenContentBytes →
            Content l' p'.subnodeEntries p'.writtenContentBytes) ∧ size = heap.length + p'.writtenContentBytes ∧
          size = heap.length + p.writtenContentBytes + (done.map fun d => (utf16leBytes d.2).length).sum ∧
          size ≤ i32Max ∧ (setMessageSize size p'.props).map fst = p.props.map fst ∧
          (pidTagMessageSize, .i32 (Int32.ofNat size)) ∈ setMessageSize size p'.props ∧
          ∀ j prop, p.props[j]? = some prop → prop.1 ≠ pidTagMessageSize →
            (setMessageSize size p'.props)[j]? = some prop ∨ InSubnode l l' p' j prop (setMessageSize size p'.props)) ∨
        ∃ e l'', p.probeMessageSize (p.props.length + 1) l = (.error e, l'') ∧ ProbeFails p' l' e l'') := by
  have hfuel : inlineHelpers p.props < p.props.length + 1 := Nat.lt_succ_of_le countP_le_length
  obtain ⟨done, p', l', hrun, hend⟩ := probeMessageSize_spec _ p l hfuel
  obtain ⟨hlen, hnodup, hhelpers, hsame⟩ := hrun.props
  obtain ⟨hcount, hpids⟩ := hrun.inlineHelpers
  refine ⟨done, p', l', hrun, hnodup, hhelpers, hcount, hend.imp (fun ⟨probe, hprobe, hmax, heq⟩ => ?_) id⟩
  obtain ⟨heap, hheap, hlength⟩ := pcBytes_setMessageSize (probe.length + p'.writtenContentBytes)
    (hrun.number hids hsize) hprobe
  refine ⟨_, heap, heq, hheap, pcBytes_holds hheap,
    fun hl => hrun.content hl (Nat.le_trans (Nat.le_add_left _ _) hmax),
    by rw [hlength], ?_, hmax, ?_, mem_setMessageSize _ ?_, fun j prop hprop hpid => ?_⟩
  · rw [hlength, hrun.bytes (Nat.le_trans (Nat.le_add_left _ _) hmax), Nat.add_assoc]
  · rw [map_fst_setMessageSize, hpids]
  · rw [hpids]
    exact mem_map_of_mem hsize
  · by_cases hdone : ∃ d ∈ done, d.1 = j
    · obtain ⟨d, hd, rfl⟩ := hdone
      obtain ⟨prop', hprop', hs⟩ := hhelpers d hd
      rw [hprop] at hprop'
      obtain rfl := Option.some.inj hprop'
      obtain ⟨nid, bid, hnow, hentry, htree⟩ := hrun.entries.2 d hd prop hprop
      exact .inr ⟨d.2, nid, bid, hs, getElem?_setMessageSize hnow hpid, hentry, htree⟩
    · have hkeep := hsame j fun d hd heq => hdone ⟨d, hd, heq⟩
      exact .inl (getElem?_setMessageSize (hkeep.trans hprop) hpid)

end

/-! ## A string that has to go -/

theorem isHeapPageOverflow_overflowMessage (heap : HeapBuilder) (cells : Bytes) :
    isHeapPageOverflow (.layout (heap.overflowMessage cells)) = true := by
  have hfirst : "heap page overflow: ".toList = "heap page overflow".toList ++ ": ".toList := by decide
  unfold isHeapPageOverflow Rust.contains HeapBuilder.overflowMessage
  simp only [String.toList_append, hfirst, append_assoc, decide_eq_true_eq]
  exact (prefix_append _ _).isInfix

theorem pcBytes_overflow {pid : Nat} {s : String} (h : 8156 < (utf16leBytes s).length)
    (rest : List (Nat × PcValue)) :
    ∃ e, pcBytes ((pid, .string s) :: rest) = .error e ∧ isHeapPageOverflow e = true := by
  have hover : HeapBuilder.projected (.new 0x6C) (utf16leBytes s) > maxBlockData := by
    show 12 + (utf16leBytes s).length + 8 > 8176
    omega
  refine ⟨_, ?_, isHeapPageOverflow_overflowMessage (.new 0x6C) (utf16leBytes s)⟩
  simp only [pcBytes, buildPcV2, encodeRecords, encodePcValue, onHeap, HeapBuilder.tryAlloc,
    if_pos hover, bind, Except.bind]

theorem length_utf16leBytes_replicate (n : Nat) :
    (utf16leBytes (String.ofList (replicate n 'a'))).length = n * 2 := by
  have hone : ((encodeUtf16 'a').flatMap (leBytes 2)).length = 2 := by decide
  rw [utf16leBytes, String.toList_ofList, length_flatMap, map_replicate, hone, sum_replicate, smul_eq_mul]

def subjectMessage (s : String) : Payload :=
  { props := [(pidTagSubject, .string s), (pidTagMessageSize, .i32 0)] }

theorem probe_subjectMessage [Crc32fast] {s : String} (hs : (utf16leBytes s).length = 8160) :
    ∃ r l', (subjectMessage s).probeMessageSize 3 Layout.new = (.ok r, l') := by
  obtain ⟨e, he, ho⟩ := pcBytes_overflow (s := s) (by omega) [(pidTagMessageSize, .i32 0)]
  have hlargest : largestHelper (subjectMessage s).props = some (0, s) := rfl
  obtain ⟨bid, l', hwrite⟩ :=
    writeDataChain_inRam (l := Layout.new) rfl (d := utf16leBytes s) (by rw [hs]; decide)
  obtain ⟨probe, hprobe, hsmall⟩ : ∃ probe, pcBytes
      ((subjectMessage s).diverted 0 s bid).props = .ok probe ∧ probe.length = 46 := ⟨_, rfl, rfl⟩
  have hwritten : ((subjectMessage s).diverted 0 s bid).writtenContentBytes = 8160 := by
    simp [Payload.diverted, subjectMessage, satAdd, PstReader.u64Max, hs]
  rw [probeMessageSize_succ, show pcBytes (subjectMessage s).props = .error e from he]
  simp only [ho, if_true, escalateLargestInlineHelper_eq, hlargest, hwrite]
  rw [probeMessageSize_succ, hprobe]
  simp only [hsmall, hwritten]
  exact ⟨_, _, rfl⟩

theorem probeMessageSize_exact_longSubject :
    letI := Crc32fast.ieee
    ∃ (s : String) (size : Nat) (heap : Bytes) (p' : Payload) (l' : Layout), (utf16leBytes s).length = 8160 ∧
      (subjectMessage s).probeMessageSize 3 Layout.new = (.ok (size, p'), l') ∧
        pcBytes (setMessageSize size p'.props) = .ok heap ∧ HoldsProps heap (setMessageSize size p'.props) ∧
        Content l' p'.subnodeEntries p'.writtenContentBytes ∧ size = heap.length + p'.writtenContentBytes ∧
        InSubnode Layout.new l' p' 0 (pidTagSubject, .string s) (setMessageSize size p'.props) := by
  let := Crc32fast.ieee
  obtain ⟨s, hs⟩ : ∃ s : String, (utf16leBytes s).length = 8160 := ⟨_, length_utf16leBytes_replicate 4080⟩
  obtain ⟨done, p', l', -, -, -, -, hend⟩ := probeMessageSize_exact (p := subjectMessage s)
    (show [pidTagSubject, pidTagMessageSize].Nodup by decide) (mem_cons_of_mem _ mem_cons_self) Layout.new
  rcases hend with ⟨size, heap, heq, hheap, hprops, hcontent, hsum, -, -, -, -, hvalues⟩ | ⟨e, l'', heq, -⟩
  · refine ⟨s, size, heap, p', l', hs, heq, hheap, hprops,
      hcontent (Reachable.inRam .refl).sound .nil, hsum, ?_⟩
    refine (hvalues 0 _ rfl (show pidTagSubject ≠ pidTagMessageSize by decide)).resolve_left fun hfirst => ?_
    -- were the string still inline, the heap would overflow
    obtain ⟨rest, hrest⟩ := head?_eq_some_iff.mp (head?_eq_getElem?.trans hfirst)
    obtain ⟨e, he, -⟩ := pcBytes_overflow (s := s) (by omega) rest
    rw [hrest, he] at hheap
    cases hheap
  · obtain ⟨r, l₀, hr⟩ := probe_subjectMessage hs
    cases hr.symm.trans heq

end PstWriter
