import PstDedupe.Foundations.GuardedRuns
import PstDedupe.PstDedupCli.AttachContentHash

/-!
# The budgets of strong hashing

Every update of the budget state is a `Step`: it keeps the two caps, and once the run is truncated
it takes no slot.
-/

namespace PstDedupCli

open DedupEngine Foundations List
open Rust (Bytes Bytes32 Sha256)
open PstReader (satAdd u64Max)

def Within (budgets : AttachContentHashBudgets) (s : AttachContentHashState) : Prop :=
  s.attachesDigested ≤ budgets.maxAttaches ∧ s.bytesDigested ≤ budgets.maxBytes

structure Step (budgets : AttachContentHashBudgets) (s t : AttachContentHashState) : Prop where
  within : Within budgets s → Within budgets t
  frozen : s.truncated = true → t.truncated = true ∧ t.attachesDigested = s.attachesDigested

theorem Step.of_same {budgets : AttachContentHashBudgets} {s t : AttachContentHashState}
    (hattaches : t.attachesDigested = s.attachesDigested) (hbytes : t.bytesDigested = s.bytesDigested)
    (htruncated : s.truncated = true → t.truncated = true) : Step budgets s t where
  within h := by
    unfold Within at *
    rw [hattaches, hbytes]
    exact h
  frozen h := ⟨htruncated h, hattaches⟩

inductive Move (budgets : AttachContentHashBudgets) (p : Progress) : Progress → Prop where
  | poll (polls : Nat) : Move budgets p { p with polls }
  | update {f : AttachContentHashState → AttachContentHashState} (h : Step budgets p.now (f p.now)) :
      Move budgets p { p with now := f p.now, past := p.now :: p.past }

abbrev Reach (budgets : AttachContentHashBudgets) := Relation.ReflTransGen (Move budgets)

variable {budgets : AttachContentHashBudgets} {p q : Progress}

theorem wp_update {f : AttachContentHashState → AttachContentHashState} (h : Step budgets p.now (f p.now)) :
    wp (update f) (fun _ q => Reach budgets p q ∧ q.now = f p.now) p :=
  ⟨.single (.update h), rfl⟩

theorem wp_getState {Q : AttachContentHashState → Progress → Prop} : wp getState Q p ↔ Q p.now p := Iff.rfl

theorem wp_setTruncated :
    wp setTruncated (fun _ q => Reach budgets p q ∧ q.now = { p.now with truncated := true }) p :=
  wp_update (.of_same rfl rfl fun _ => rfl)

theorem step_reserve {s : AttachContentHashState} (h : s.budgetExhausted budgets = false) :
    Step budgets s { s with attachesDigested := satAdd s.attachesDigested 1 } := by
  have hopen : s.truncated = false ∧ s.attachesDigested < budgets.maxAttaches := by
    simp [AttachContentHashState.budgetExhausted] at h
    exact ⟨h.1.1, h.1.2⟩
  refine ⟨fun hw => ⟨?_, hw.2⟩, fun htrunc => ?_⟩
  · show satAdd s.attachesDigested 1 ≤ _
    unfold satAdd
    omega
  · rw [hopen.1] at htrunc
    cases htrunc

/-! ### What a run of steps keeps -/

def Progress.history (p : Progress) : List AttachContentHashState := p.now :: p.past

/-- Once the older state is truncated, the newer one is, and no slot was taken in between. -/
def Frozen (newer older : AttachContentHashState) : Prop :=
  older.truncated = true → newer.truncated = true ∧ newer.attachesDigested = older.attachesDigested

structure Sound (budgets : AttachContentHashBudgets) (p : Progress) : Prop where
  within : ∀ s ∈ p.history, Within budgets s
  frozen : p.history.Pairwise Frozen

theorem Sound.start (budgets : AttachContentHashBudgets) : Sound budgets {} where
  within := by
    intro s hs
    obtain rfl := List.mem_singleton.mp hs
    exact ⟨Nat.zero_le _, Nat.zero_le _⟩
  frozen := pairwise_singleton _ _

theorem Sound.move (hp : Sound budgets p) (h : Move budgets p q) : Sound budgets q := by
  cases h with
  | poll polls => exact ⟨hp.within, hp.frozen⟩
  | @update f hstep =>
    refine ⟨fun s hs => ?_, List.pairwise_cons.mpr ⟨fun s hs htrunc => ?_, hp.frozen⟩⟩
    · rcases List.mem_cons.mp hs with rfl | hs
      · exact hstep.within (hp.within p.now mem_cons_self)
      · exact hp.within s hs
    · rcases List.mem_cons.mp hs with rfl | hs
      · exact hstep.frozen htrunc
      · have hnow := (List.pairwise_cons.mp hp.frozen).1 s hs htrunc
        have hnext := hstep.frozen hnow.1
        exact ⟨hnext.1, hnext.2.trans hnow.2⟩

theorem Sound.reach (hp : Sound budgets p) (h : Reach budgets p q) : Sound budgets q := by
  induction h with
  | refl => exact hp
  | tail _ hmove ih => exact ih.move hmove

/-! ## Exits and the read loop -/

section

variable {Node : Type} (pst : Pst Node) {depth : Nat}

theorem wp_cancelRequested (budgets : AttachContentHashBudgets) :
    wp (cancelRequested pst) (fun _ q => Reach budgets p q ∧ q.now = p.now) p :=
  ⟨.single (.poll _), rfl⟩

def Unread (budgets : AttachContentHashBudgets) (p : Progress) (r : AttachDigestResult)
    (q : Progress) : Prop :=
  Reach budgets p q ∧ r.isUnread = true ∧ q.now.attachesDigested = p.now.attachesDigested ∧
    q.now.bytesDigested = p.now.bytesDigested ∧ q.now.embeddedParsed = p.now.embeddedParsed

theorem Unread.trans {r : AttachDigestResult} {m : Progress} (h : Reach budgets p m)
    (hnow : m.now = p.now ∨ m.now = { p.now with truncated := true }) (hm : Unread budgets m r q) :
    Unread budgets p r q := by
  obtain ⟨hreach, hunread, hattaches, hbytes, hparsed⟩ := hm
  refine ⟨h.trans hreach, hunread, ?_⟩
  rcases hnow with hnow | hnow <;> rw [hnow] at hattaches hbytes hparsed <;>
    exact ⟨hattaches, hbytes, hparsed⟩

theorem wp_truncate_mark {mark : Hashing AttachDigestResult}
    (hmark : ∀ p, wp mark (Unread budgets p) p) (p : Progress) :
    wp (do setTruncated; mark) (Unread budgets p) p :=
  wp_setTruncated.bind fun _ m hm => (hmark m).mono fun _ _ h => h.trans hm.1 (.inr hm.2)

def ReadEnd (budgets : AttachContentHashBudgets) (fits : AttachContentHashState → Nat → Prop)
    (p : Progress) (r : Except AttachDigestResult Bytes) (q : Progress) : Prop :=
  match r with
  | .error r => Unread budgets p r q
  | .ok content => Reach budgets p q ∧ q.now = p.now ∧ fits p.now content.length

theorem wp_readLoop {«over» : AttachContentHashState → Nat → Nat → Bool}
    {mark : Hashing AttachDigestResult} (hmark : ∀ p, wp mark (Unread budgets p) p)
    {fits : AttachContentHashState → Nat → Prop}
    (hover : ∀ s seen n, «over» s seen n = false → fits s (seen + n))
    (reads : List (PstReader.Result Bytes)) {content : Bytes} (hfits : fits p.now content.length) :
    wp (readLoop pst «over» mark reads content) (ReadEnd budgets fits p) p := by
  induction reads generalizing p content with
  | nil =>
    unfold readLoop
    refine (wp_cancelRequested pst budgets).bind fun cancelled m hm => ?_
    split
    · exact (wp_truncate_mark hmark m).mono fun r q h => h.trans hm.1 (.inl hm.2)
    · exact ⟨hm.1, hm.2, hfits⟩
  | cons read rest ih =>
    unfold readLoop
    refine (wp_cancelRequested pst budgets).bind fun cancelled m hm => ?_
    split
    · exact (wp_truncate_mark hmark m).mono fun r q h => h.trans hm.1 (.inl hm.2)
    cases read with
    | error e => exact (hmark m).mono fun r q h => h.trans hm.1 (.inl hm.2)
    | ok chunk =>
      dsimp only
      split
      · exact ⟨hm.1, hm.2, hfits⟩
      refine wp_bind.mpr (wp_getState.mpr ?_)
      split
      · exact (wp_truncate_mark hmark m).mono fun r q h => h.trans hm.1 (.inl hm.2)
      · rename_i hroom
        have hfits' : fits m.now (content ++ chunk).length := by
          rw [length_append]
          exact hover _ _ _ (by simpa using hroom)
        refine (ih hfits').mono fun r q h => ?_
        unfold ReadEnd at h ⊢
        split at h
        · exact h.trans hm.1 (.inl hm.2)
        · exact ⟨hm.1.trans h.1, h.2.1.trans hm.2, hm.2 ▸ h.2.2⟩

theorem binaryOver_fits {s : AttachContentHashState} {seen n : Nat} (h : binaryOver budgets s seen n = false) :
    satAdd s.bytesDigested (bytesRead (seen + n)) ≤ budgets.maxBytes := by
  simp only [binaryOver, Bool.or_eq_false_iff, decide_eq_false_iff_not] at h
  unfold satAdd bytesRead at *
  omega

/-- What parsing does to the state: steps, and no byte is charged. -/
def Parses (budgets : AttachContentHashBudgets) (p q : Progress) : Prop :=
  Reach budgets p q ∧ q.now.bytesDigested = p.now.bytesDigested

theorem Parses.trans {m : Progress} (h : Parses budgets p m) (h' : Parses budgets m q) : Parses budgets p q :=
  ⟨h.1.trans h'.1, h'.2.trans h.2⟩

theorem wp_update_parses {f : AttachContentHashState → AttachContentHashState}
    (h : Step budgets p.now (f p.now)) (hbytes : (f p.now).bytesDigested = p.now.bytesDigested) :
    wp (update f) (fun _ q => Parses budgets p q ∧ q.now = f p.now) p :=
  (wp_update h).mono fun _ _ hq => ⟨⟨hq.1, by rw [hq.2, hbytes]⟩, hq.2⟩

theorem reach_hashChildren {hashChild : Attach → Hashing AttachDigestResult}
    (hchild : ∀ a p, wp (hashChild a) (fun _ q => Reach budgets p q) p) (ignoreInline : Bool)
    (children : List EmbeddedChildAttach) (p : Progress) :
    wp (hashChildren ignoreInline hashChild children) (fun _ q => Reach budgets p q) p := by
  induction children generalizing p with
  | nil => exact .refl
  | cons child rest ih =>
    unfold hashChildren
    split
    · exact ih p
    · refine (hchild _ p).bind fun dig m hm => ?_
      exact (ih m).bind fun _ _ h => hm.trans h

theorem exactly_one_result (r : AttachDigestResult) :
    [r.isReal, r.isEmbedded, r.isUnread, r.isDepthLimit].count true = 1 := by
  cases r <;> rfl

variable [Sha256] [Rust.Target]

theorem wp_markUnread (a : Attach) (p : Progress) : wp (markUnread a) (Unread budgets p) p := by
  have hstep : Step budgets p.now { p.now with unread := satAdd p.now.unread 1 } :=
    .of_same rfl rfl id
  exact (wp_update hstep).bind fun _ q hq => ⟨hq.1, rfl, congrArg (·.attachesDigested) hq.2,
    congrArg (·.bytesDigested) hq.2, congrArg (·.embeddedParsed) hq.2⟩

theorem wp_markUnparsed (a : Attach) (p : Progress) : wp (markUnparsed a) (Unread budgets p) p := by
  have hstep : Step budgets p.now { p.now with
      unread := satAdd p.now.unread 1, embeddedUnparsed := satAdd p.now.embeddedUnparsed 1 } :=
    .of_same rfl rfl id
  exact (wp_update hstep).bind fun _ q hq => ⟨hq.1, rfl, congrArg (·.attachesDigested) hq.2,
    congrArg (·.bytesDigested) hq.2, congrArg (·.embeddedParsed) hq.2⟩

theorem reach_hashBinaryUnderParent (parent : Node) (a : Attach)
    (hopen : p.now.budgetExhausted budgets = false) :
    wp (hashBinaryUnderParent pst budgets parent a) (fun _ q => Reach budgets p q) p := by
  unfold hashBinaryUnderParent
  split
  · exact (wp_markUnread a p).mono fun _ _ h => h.1
  have hstart : satAdd p.now.bytesDigested (bytesRead ([] : Bytes).length) ≤ budgets.maxBytes := by
    simp [AttachContentHashState.budgetExhausted] at hopen
    simp only [satAdd, bytesRead, length_nil]
    omega
  have hloop (reads : List (PstReader.Result Bytes)) :
      wp (readLoop pst (binaryOver budgets) (markUnread a) reads [])
        (ReadEnd budgets (fun s n => satAdd s.bytesDigested (bytesRead n) ≤ budgets.maxBytes) p) p :=
    wp_readLoop pst (wp_markUnread a) (fun _ _ _ => binaryOver_fits) reads hstart
  refine (hloop _).bind fun r m hm => ?_
  cases r with
  | error r => exact hm.1
  | ok content =>
    obtain ⟨hreach, hnow, hfits⟩ := hm
    dsimp only
    split
    · exact (wp_markUnread a m).mono fun _ _ h => hreach.trans h.1
    split
    · exact (wp_markUnread a m).mono fun _ _ h => hreach.trans h.1
    have hslot := step_reserve hopen
    have hstep : Step budgets m.now { m.now with
        attachesDigested := satAdd m.now.attachesDigested 1
        bytesDigested := satAdd m.now.bytesDigested (bytesRead content.length) } := by
      rw [hnow]
      exact ⟨fun hw => ⟨(hslot.within hw).1, hfits⟩, hslot.frozen⟩
    exact (wp_update hstep).bind fun _ _ h => hreach.trans h.1

/-! ## rfc822 bytes -/

theorem wp_pushUnread (size : Nat) (p : Progress) :
    wp (pushUnread size) (fun d q => Parses budgets p q ∧ d = attachUnreadSentinel "rfc822-part" size ∧
      q.now.attachesDigested = p.now.attachesDigested ∧ q.now.embeddedParsed = p.now.embeddedParsed) p := by
  have hstep : Step budgets p.now { p.now with
      unread := satAdd p.now.unread 1, embeddedUnparsed := satAdd p.now.embeddedUnparsed 1 } :=
    .of_same rfl rfl id
  exact (wp_update_parses hstep rfl).bind fun _ q hq => ⟨hq.1, rfl,
    congrArg (·.attachesDigested) hq.2, congrArg (·.embeddedParsed) hq.2⟩

theorem wp_truncate_pushUnread (size : Nat) (p : Progress) :
    wp (do setTruncated; pushUnread size) (fun d q => Parses budgets p q ∧
      d = attachUnreadSentinel "rfc822-part" size ∧
      q.now.attachesDigested = p.now.attachesDigested ∧ q.now.embeddedParsed = p.now.embeddedParsed) p := by
  have htrunc : Step budgets p.now { p.now with truncated := true } := .of_same rfl rfl fun _ => rfl
  refine (wp_update_parses htrunc rfl).bind fun _ m hm => ?_
  refine (wp_pushUnread size m).mono fun d q h => ⟨hm.1.trans h.1, h.2.1, ?_, ?_⟩
  · rw [h.2.2.1, hm.2]
  · rw [h.2.2.2, hm.2]

theorem parses_hashRfc822Part {parse : depth + 1 < maxEmbeddedMsgDepth → Bytes → Hashing (Option Rfc822Parsed)}
    (hparse : ∀ h raw p, wp (parse h raw) (fun _ q => Parses budgets p q) p) (body : String)
    (p : Progress) : wp (hashRfc822Part pst budgets depth parse body) (fun _ q => Parses budgets p q) p := by
  unfold hashRfc822Part
  refine (wp_cancelRequested pst budgets).bind fun cancelled m hm => ?_
  have hpolled : Parses budgets p m := ⟨hm.1, by rw [hm.2]⟩
  split
  · exact (wp_truncate_pushUnread _ m).mono fun _ _ h => hpolled.trans h.1
  refine wp_bind.mpr (wp_getState.mpr ?_)
  split
  · exact (wp_truncate_pushUnread _ m).mono fun _ _ h => hpolled.trans h.1
  rename_i hopen
  have hopen : m.now.budgetExhausted budgets = false := by
    by_contra h
    exact hopen (.inl (by simpa using h))
  split
  · have hdepth : Step budgets m.now
        { m.now with embeddedDepthLimit := satAdd m.now.embeddedDepthLimit 1 } :=
      .of_same rfl rfl id
    exact (wp_update_parses hdepth rfl).bind fun _ _ h => hpolled.trans h.1
  · refine (wp_update_parses (step_reserve hopen) rfl).bind fun _ n hn => ?_
    refine (hparse _ _ n).bind fun parsed o ho => ?_
    have hdone := (hpolled.trans hn.1).trans ho
    cases parsed with
    | none => exact (wp_pushUnread _ o).mono fun _ _ h => hdone.trans h.1
    | some nested =>
      have hparsed : Step budgets o.now
          { o.now with embeddedParsed := satAdd o.now.embeddedParsed 1 } := .of_same rfl rfl id
      exact (wp_update_parses hparsed rfl).bind fun _ _ h => hdone.trans h.1

omit [Rust.Target] in
theorem parses_multipartPart {hashPart : String → Hashing Bytes32}
    (hhash : ∀ body p, wp (hashPart body) (fun _ q => Parses budgets p q) p) (ignoreInline : Bool)
    (acc : MultipartAcc) (part : String) (p : Progress) :
    wp (multipartPart ignoreInline hashPart acc part) (fun _ q => Parses budgets p q) p := by
  have hsame : Parses budgets p p := ⟨.refl, rfl⟩
  unfold multipartPart
  dsimp only
  split
  · exact hsame
  split
  · exact hsame
  split
  · exact hsame
  split
  · split <;> exact hsame
  split
  · exact (hhash _ p).bind fun _ _ h => h
  · exact hsame

/-- Induction on the levels below the depth cap. -/
theorem parses_parseSimpleRfc822 (ignoreInline : Bool) (depth : Nat) (raw : Bytes) (p : Progress) :
    wp (parseSimpleRfc822 pst budgets ignoreInline depth raw) (fun _ q => Parses budgets p q) p := by
  have hsame : Parses budgets p p := ⟨.refl, rfl⟩
  rw [parseSimpleRfc822]
  split
  · exact hsame
  dsimp only
  split
  · split
    · exact hsame
    unfold parseMultipartRfc822
    dsimp only
    split
    · exact hsame
    have hpart : ∀ body p, wp (hashRfc822Part pst budgets depth
        (fun _ nested => parseSimpleRfc822 pst budgets ignoreInline (depth + 1) nested) body)
        (fun _ q => Parses budgets p q) p :=
      parses_hashRfc822Part pst fun _ raw p =>
        parses_parseSimpleRfc822 ignoreInline (depth + 1) raw p
    refine (wp_foldlM (I := Parses budgets p) hsame fun acc part m hm => ?_).bind fun _ _ h => h
    exact (parses_multipartPart hpart ignoreInline acc part m).mono fun _ _ h => hm.trans h
  · exact hsame
  termination_by maxEmbeddedMsgDepth - depth
  decreasing_by omega

theorem reach_hashRfc822Embedded (ignoreInline : Bool) (depth : Nat) (parent : Node) (a : Attach)
    (p : Progress) :
    wp (hashRfc822Embedded pst budgets ignoreInline depth parent a) (fun _ q => Reach budgets p q)
      p := by
  unfold hashRfc822Embedded
  refine wp_bind.mpr (wp_getState.mpr ?_)
  dsimp only
  split
  · exact (wp_truncate_mark (wp_markUnparsed a) p).mono fun _ _ h => h.1
  rename_i hcap
  split
  · exact (wp_truncate_mark (wp_markUnparsed a) p).mono fun _ _ h => h.1
  split
  · exact (wp_markUnparsed a p).mono fun _ _ h => h.1
  have hloop (reads : List (PstReader.Result Bytes)) : wp (readLoop pst (fun _ seen n => satAdd seen n >
          min (min budgets.perAttachMaxBytes (16 * 1024 * 1024))
            (budgets.maxBytes - p.now.bytesDigested)) (markUnparsed a) reads [])
        (ReadEnd budgets
          (fun s n => s = p.now → satAdd s.bytesDigested n ≤ budgets.maxBytes) p) p := by
    refine wp_readLoop pst (wp_markUnparsed a) (fun s seen n hroom hs => ?_) reads fun _ => ?_
    · simp only [decide_eq_false_iff_not] at hroom
      rw [hs]
      unfold satAdd at *
      omega
    · rw [length_nil]
      unfold satAdd
      omega
  refine (hloop _).bind fun r m hm => ?_
  cases r with
  | error r => exact hm.1
  | ok content =>
    obtain ⟨hreach, hnow, hfits⟩ := hm
    dsimp only
    split
    · exact (wp_markUnparsed a m).mono fun _ _ h => hreach.trans h.1
    split
    · exact (wp_markUnparsed a m).mono fun _ _ h => hreach.trans h.1
    refine (parses_parseSimpleRfc822 pst ignoreInline depth content m).bind fun parsed n hn => ?_
    cases parsed with
    | none => exact (wp_markUnparsed a n).mono fun _ _ h => (hreach.trans hn.1).trans h.1
    | some parsed =>
      have hbytes : satAdd n.now.bytesDigested content.length ≤ budgets.maxBytes := by
        rw [hn.2, hnow]
        exact hfits rfl
      have hstep : Step budgets n.now { n.now with
          bytesDigested := satAdd n.now.bytesDigested content.length
          embeddedParsed := satAdd n.now.embeddedParsed 1 } :=
        ⟨fun hw => ⟨hw.1, hbytes⟩, fun h => ⟨h, rfl⟩⟩
      exact (wp_update hstep).bind fun _ _ h => (hreach.trans hn.1).trans h.1

theorem reach_finalizeEmbeddedIdentity {hashChild : Attach → Hashing AttachDigestResult}
    (hchild : ∀ a p, wp (hashChild a) (fun _ q => Reach budgets p q) p) (ignoreInline : Bool)
    (depth : Nat) (fields : EmbeddedIdentityFields) (a : Attach) (p : Progress) :
    wp (finalizeEmbeddedIdentity pst budgets ignoreInline depth hashChild fields a)
      (fun _ q => Reach budgets p q) p := by
  unfold finalizeEmbeddedIdentity
  refine (wp_cancelRequested pst budgets).bind fun cancelled m hm => ?_
  split
  · exact (wp_truncate_mark (wp_markUnparsed a) m).mono fun _ _ h => hm.1.trans h.1
  dsimp only
  refine wp_bind.mpr (wp_getState.mpr ?_)
  split
  · exact (wp_truncate_mark (wp_markUnparsed a) m).mono fun _ _ h => hm.1.trans h.1
  rename_i hroom
  have hcharge (n : Nat) (hn : satAdd m.now.bytesDigested n ≤ budgets.maxBytes) :
      Step budgets m.now { m.now with bytesDigested := satAdd m.now.bytesDigested n } :=
    ⟨fun hw => ⟨hw.1, hn⟩, fun h => ⟨h, rfl⟩⟩
  refine (wp_update (hcharge _ (by omega))).bind fun _ n hn => ?_
  refine (reach_hashChildren hchild ignoreInline _ n).bind fun digests o ho => ?_
  have hparsed : Step budgets o.now { o.now with embeddedParsed := satAdd o.now.embeddedParsed 1 } :=
    .of_same rfl rfl id
  exact (wp_update hparsed).bind fun _ _ h => ((hm.1.trans hn.1).trans ho).trans h.1

theorem reach_hashEmbeddedAttachment
    {hashChild : depth < maxEmbeddedMsgDepth → Node → Attach → Hashing AttachDigestResult}
    (hchild : ∀ h nested a p, wp (hashChild h nested a) (fun _ q => Reach budgets p q) p)
    (ignoreInline : Bool) (parent : Node) (a : Attach) (p : Progress) :
    wp (hashEmbeddedAttachment pst budgets ignoreInline depth hashChild parent a)
      (fun _ q => Reach budgets p q) p := by
  have hmark (m : Progress) (hm : Reach budgets p m) : wp (markUnparsed a) (fun _ q => Reach budgets p q) m :=
    (wp_markUnparsed a m).mono fun _ _ h => hm.trans h.1
  have htruncate (m : Progress) (hm : Reach budgets p m) :
      wp (do setTruncated; markUnparsed a) (fun _ q => Reach budgets p q) m :=
    (wp_truncate_mark (wp_markUnparsed a) m).mono fun _ _ h => hm.trans h.1
  unfold hashEmbeddedAttachment
  refine wp_bind.mpr (wp_getState.mpr ?_)
  split
  · exact htruncate p .refl
  rename_i hopen
  have hopen : p.now.budgetExhausted budgets = false := by
    by_contra h
    exact hopen (.inr (by simpa using h))
  split
  · have hdepth : Step budgets p.now
        { p.now with embeddedDepthLimit := satAdd p.now.embeddedDepthLimit 1 } :=
      .of_same rfl rfl id
    exact (wp_update hdepth).bind fun _ _ h => h.1
  split
  · exact htruncate p .refl
  -- the slot is taken; every way on is a run of steps from here
  refine (wp_update (step_reserve hopen)).bind fun _ m hm => ?_
  split
  · split
    · exact hmark m hm.1
    · refine wp_bind.mpr (wp_getState.mpr ?_)
      dsimp only
      split
      · exact htruncate m hm.1
      · exact hmark m hm.1
      · split
        · exact hmark m hm.1
        · exact (reach_finalizeEmbeddedIdentity pst (hchild _ _) ignoreInline depth _ a m).mono
            fun _ _ h => hm.1.trans h
  split
  · exact (reach_hashRfc822Embedded pst ignoreInline depth parent a m).mono fun _ _ h => hm.1.trans h
  · exact hmark m hm.1

/-- Every call of `hash_attachment_for_identity`, at any depth, is a run of steps. Induction on the
levels below the depth cap. -/
theorem reach_hashAttachmentForIdentity (ignoreInline : Bool) (depth : Nat) (parent : Node)
    (a : Attach) (p : Progress) : wp (hashAttachmentForIdentity pst budgets ignoreInline depth parent a)
      (fun _ q => Reach budgets p q) p := by
  rw [hashAttachmentForIdentity]
  refine (wp_cancelRequested pst budgets).bind fun cancelled m hm => ?_
  split
  · exact (wp_truncate_mark (wp_markUnread a) m).mono fun _ _ h => hm.1.trans h.1
  split
  · exact (wp_markUnread a m).mono fun _ _ h => hm.1.trans h.1
  refine wp_bind.mpr (wp_getState.mpr ?_)
  split
  · exact (wp_truncate_mark (wp_markUnread a) m).mono fun _ _ h => hm.1.trans h.1
  rename_i hopen
  split
  · have hchild : ∀ (_ : depth < maxEmbeddedMsgDepth) nested a p,
        wp (hashAttachmentForIdentity pst budgets ignoreInline (depth + 1) nested a)
          (fun _ q => Reach budgets p q) p :=
      fun _ nested a p => reach_hashAttachmentForIdentity ignoreInline (depth + 1) nested a p
    exact (reach_hashEmbeddedAttachment pst hchild ignoreInline parent a m).mono
      fun _ _ h => hm.1.trans h
  · exact (reach_hashBinaryUnderParent pst parent a (by simpa using hopen)).mono
      fun _ _ h => hm.1.trans h
  termination_by maxEmbeddedMsgDepth - depth
  decreasing_by omega

theorem unread_of_truncated (ignoreInline : Bool) (depth : Nat) (parent : Node) (a : Attach)
    (htruncated : p.now.truncated = true) :
    wp (hashAttachmentForIdentity pst budgets ignoreInline depth parent a) (Unread budgets p) p := by
  rw [hashAttachmentForIdentity]
  refine (wp_cancelRequested pst budgets).bind fun cancelled m hm => ?_
  have hpolled {r : AttachDigestResult} {q : Progress} (h : Unread budgets m r q) :
      Unread budgets p r q := h.trans hm.1 (.inl hm.2)
  split
  · exact (wp_truncate_mark (wp_markUnread a) m).mono fun _ _ h => hpolled h
  split
  · exact (wp_markUnread a m).mono fun _ _ h => hpolled h
  refine wp_bind.mpr (wp_getState.mpr ?_)
  have hexhausted : m.now.budgetExhausted budgets = true := by
    rw [hm.2]
    simp [AttachContentHashState.budgetExhausted, htruncated]
  rw [if_pos hexhausted]
  exact (wp_truncate_mark (wp_markUnread a) m).mono fun _ _ h => hpolled h

theorem unread_part_of_truncated
    (parse : depth + 1 < maxEmbeddedMsgDepth → Bytes → Hashing (Option Rfc822Parsed)) (body : String)
    (htruncated : p.now.truncated = true) : wp (hashRfc822Part pst budgets depth parse body) (fun d q =>
      d = attachUnreadSentinel "rfc822-part" (Rust.asU32 (Rust.bytes body).length) ∧
      q.now.attachesDigested = p.now.attachesDigested ∧ q.now.embeddedParsed = p.now.embeddedParsed) p := by
  unfold hashRfc822Part
  refine (wp_cancelRequested pst budgets).bind fun cancelled m hm => ?_
  have hexhausted : m.now.budgetExhausted budgets = true := by
    rw [hm.2]
    simp [AttachContentHashState.budgetExhausted, htruncated]
  have hpush : wp (do setTruncated; pushUnread (Rust.asU32 (Rust.bytes body).length)) (fun d q =>
      d = attachUnreadSentinel "rfc822-part" (Rust.asU32 (Rust.bytes body).length) ∧
      q.now.attachesDigested = p.now.attachesDigested ∧ q.now.embeddedParsed = p.now.embeddedParsed) m := by
    have hunread : wp (do setTruncated; pushUnread (Rust.asU32 (Rust.bytes body).length)) (fun d q =>
        Parses budgets m q ∧
        d = attachUnreadSentinel "rfc822-part" (Rust.asU32 (Rust.bytes body).length) ∧
        q.now.attachesDigested = m.now.attachesDigested ∧
        q.now.embeddedParsed = m.now.embeddedParsed) m := wp_truncate_pushUnread _ m
    refine hunread.mono fun d q h => ?_
    rw [hm.2] at h
    exact h.2
  split
  · exact hpush
  refine wp_bind.mpr (wp_getState.mpr ?_)
  rw [if_pos (.inl hexhausted)]
  exact hpush

/-! ## Runs -/

inductive HashCall (Node : Type) where
  | forIdentity (ignoreInline : Bool) (depth : Nat) (parent : Node) (a : Attach)
  | stream (msgNid : Nat) (a : Attach)

def HashCall.run (budgets : AttachContentHashBudgets) : HashCall Node → Hashing AttachDigestResult
  | .forIdentity ignoreInline depth parent a =>
    hashAttachmentForIdentity pst budgets ignoreInline depth parent a
  | .stream msgNid a => hashAttachmentStream pst budgets msgNid a

def hashAll (budgets : AttachContentHashBudgets) : List (HashCall Node) → Hashing (List AttachDigestResult)
  | [] => pure []
  | call :: calls => do
    let result ← call.run pst budgets
    return result :: (← hashAll budgets calls)

theorem reach_call (call : HashCall Node) (p : Progress) :
    wp (call.run pst budgets) (fun _ q => Reach budgets p q) p := by
  cases call with
  | forIdentity ignoreInline depth parent a =>
    exact reach_hashAttachmentForIdentity pst ignoreInline depth parent a p
  | stream msgNid a =>
    unfold HashCall.run hashAttachmentStream
    dsimp only
    split
    · exact (wp_markUnread a p).mono fun _ _ h => h.1
    · exact reach_hashAttachmentForIdentity pst false 0 _ a p

theorem reach_hashAll (calls : List (HashCall Node)) (p : Progress) :
    wp (hashAll pst budgets calls) (fun results q =>
      Reach budgets p q ∧ results.length = calls.length) p := by
  induction calls generalizing p with
  | nil => exact ⟨.refl, rfl⟩
  | cons call calls ih =>
    refine (reach_call pst call p).bind fun result m hm => ?_
    exact (ih m).bind fun results q h => ⟨hm.trans h.1, congrArg Nat.succ h.2⟩

end

section

/-! ## A message admitted before the cut -/

local instance hashTarget : Rust.Target := .unix

local instance hashDigest : Sha256 := .fips

/-- An attached message without a body that holds one file of three bytes. -/
def forwarded : Attach where
  nid := 1
  filename := "fw.msg"
  declaredSize := 0
  attachMethod := some DedupEngine.attachEmbeddedMsg
  mimeTag := none
  isCloudLink := false

def forwardingPst : Pst Unit where
  messageNodeFromNbt _ := .ok ()
  openAttachData _ _ := .ok ⟨[.ok [1, 2, 3]], false⟩
  resolveEmbeddedRoot _ _ := .ok ()
  readIdentity _ _ := .ok {
    subject := none, submitTime := none, senderEmail := none, displayTo := none, displayCc := none
    displayBcc := none, bodyPlain := none, bodySha256 := none, recipients := []
    childAttachments := [{ forwarded with attachMethod := some 1, isInline := false }]
    crcSuspect := false }
  parseFromRfc2822 _ := none
  cancel _ := false

end

end PstDedupCli
