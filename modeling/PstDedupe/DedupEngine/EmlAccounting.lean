import PstDedupe.DedupEngine.EmlPack

/-!
# The counters of an EML write

Every attachment that a write reaches ends in one of three counters: a file part, a message inside,
or a failure with its event.
-/

namespace DedupEngine.EmlPack

open Rust Foundations List

variable {levels depth : Nat}

def writtenEmbed (att : Attachment) : Option NestedCanonicalMessage :=
  if att.attachMethod = some attachEmbeddedMsg ∧
    att.embeddedExtractLimit = false then att.embeddedMessage else none

/-- An attachment with those inside it. Where the source NID is missing, the attachments inside are
not opened. A message flagged `attachments_incomplete` counts once more. -/
def attReached : Nat → Attachment → Nat
  | 0, _ => 1
  | levels + 1, att =>
    match writtenEmbed att with
    | none => 1
    | some nested =>
      1 + (if nested.attachmentsIncomplete then 1 else 0) +
        if nested.sourceMsgNid.isNone then nested.attachments.length
        else (nested.attachments.map (attReached levels)).sum

/-- The attachments in the tree of a message that a write reaches. -/
def reached (opts : EmlWriteOpts) (levels : Nat) (atts : List Attachment) : Nat :=
  if opts.familyPolicy = .keepAttachmentsWithParent then (atts.map (attReached levels)).sum else 0

/-- A stream that opens is read to its end. -/
def AttachStreamSource.NoMidStreamErrors {σ : Type} (source : AttachStreamSource σ) : Prop :=
  ∀ s locus nid stream, (source.openAttach s locus nid).1 = .ok stream → stream.error = none

/-- The ledger stands for `n` attachments, each failure with its event. -/
structure Balanced (result : EmlWriteResult) (n : Nat) : Prop where
  events : result.attachmentsFailed = result.attachmentEvents.length
  total : result.attachmentsFileWritten + result.embeddedMessagesWritten + result.attachmentsFailed = n

theorem balanced_empty : Balanced {} 0 := ⟨rfl, rfl⟩

variable {σ : Type} {opts : EmlWriteOpts} {result : EmlWriteResult} {n : Nat}

theorem Balanced.softFail (h : Balanced result n) (event : EmlAttachEvent) (embedded : Bool) :
    Balanced (result.softFail event embedded) (n + 1) := by
  obtain ⟨hevents, htotal⟩ := h
  constructor
  · show result.attachmentsFailed + 1 = (result.attachmentEvents ++ [event]).length
    rw [length_append, hevents]
    rfl
  · show result.attachmentsFileWritten + result.embeddedMessagesWritten +
      (result.attachmentsFailed + 1) = n + 1
    omega

theorem Balanced.addNested {nested : EmlWriteResult} {inside : Nat} (h : Balanced result n)
    (hnested : Balanced nested inside) (incomplete : Bool) (subject : Option String)
    (pending : List EmlAttachEvent) :
    Balanced (result.addNested nested incomplete subject pending)
      (n + (1 + (if incomplete then 1 else 0) + pending.length + inside)) := by
  obtain ⟨hevents, htotal⟩ := h
  obtain ⟨hnestedEvents, hnestedTotal⟩ := hnested
  unfold EmlWriteResult.addNested
  cases incomplete with
  | false =>
    constructor
    · simp only [Bool.false_eq_true, if_false, length_append]
      omega
    · simp only [Bool.false_eq_true, if_false]
      omega
  | true =>
    constructor
    · simp only [if_true, length_append, length_singleton]
      omega
    · simp only [if_true]
      omega

/-- From every state the write returns, and its value satisfies `Q`. -/
def Returns {α : Type} (m : EmlM σ α) (Q : α → Prop) : Prop := ∀ s, ∃ a t, m s = (.ok a, t) ∧ Q a

theorem Returns.pure {α : Type} {a : α} {Q : α → Prop} (h : Q a) : Returns (pure a : EmlM σ α) Q :=
  fun s => ⟨a, s, rfl, h⟩

theorem Returns.bind {α β : Type} {m : EmlM σ α} {f : α → EmlM σ β} {P : α → Prop} {Q : β → Prop}
    (hm : Returns m P) (hf : ∀ a, P a → Returns (f a) Q) : Returns (m >>= f) Q := by
  intro s
  obtain ⟨a, t, hrun, ha⟩ := hm s
  obtain ⟨b, u, hnext, hb⟩ := hf a ha t
  refine ⟨b, u, ?_, hb⟩
  rw [show (m >>= f) s = ExceptT.bindCont f (m s).1 (m s).2 from rfl, hrun]
  exact hnext

/-- A prepared part, at its depth and with its readable body, stands for `n` attachments. -/
def ReadyFor (opts : EmlWriteOpts) (levels depth : Nat) (part : PreparedPart) (n : Nat) : Prop :=
  match part.body with
  | .memory _ => n = 1
  | .stream stream => stream.error = none ∧ n = 1
  | .nested msg writeDepth incomplete pending =>
    part.embedded = true ∧ writeDepth = depth + 1 ∧ ∃ below, levels = below + 1 ∧
      n = 1 + (if incomplete then 1 else 0) + pending.length + reached opts below msg.attachments

/-- Parts and a ledger that stand for `total` attachments. -/
def PreparedFor (opts : EmlWriteOpts) (levels depth total : Nat)
    (r : List PreparedPart × EmlWriteResult) : Prop :=
  ∃ failed sizes, Forall₂ (ReadyFor opts levels depth) r.1 sizes ∧ Balanced r.2 failed ∧
    failed + sizes.sum = total

theorem readyFor_nested (hkeep : opts.familyPolicy = .keepAttachmentsWithParent)
    {parent : CanonicalMessage} {nested : NestedCanonicalMessage} {att : Attachment}
    (hatt : writtenEmbed att = some nested) (filename : String) (levels depth : Nat) :
    ReadyFor opts (levels + 1) depth (prepareNested parent nested filename depth)
      (attReached (levels + 1) att) := by
  refine ⟨rfl, rfl, levels, rfl, ?_⟩
  unfold attReached
  rw [hatt]
  unfold reached
  rw [if_pos hkeep]
  dsimp only [prepareNested, nestedToCanonical]
  cases hnid : nested.sourceMsgNid with
  | some nid => simp
  | none =>
    cases hatts : nested.attachments with
    | nil => simp
    | cons a atts => simp

theorem openAttachBody_cases {source : AttachStreamSource σ} (hsource : source.NoMidStreamErrors)
    {parent : CanonicalMessage} {att : Attachment} {s t : σ} {body : AttachBody}
    (h : openAttachBody source parent att s = (.ok body, t)) :
    (∃ data, body = .memory data) ∨ ∃ stream, body = .stream stream ∧ stream.error = none := by
  unfold openAttachBody at h
  split at h
  · cases h
  split at h
  · cases h
    exact .inl ⟨_, rfl⟩
  split at h
  · cases h
  split at h
  · cases h
  next nid _ =>
  dsimp only at h
  have hopen := congrArg Prod.fst h
  cases hstream : (source.openAttach s parent.locus nid).1 with
  | error e =>
    rw [hstream] at hopen
    cases hopen
  | ok stream =>
    rw [hstream] at hopen
    cases hopen
    exact .inr ⟨stream, rfl, hsource s _ _ stream hstream⟩

theorem prepareOneAttach_ready {source : AttachStreamSource σ} (hsource : source.NoMidStreamErrors)
    (hkeep : opts.familyPolicy = .keepAttachmentsWithParent)
    (hdepth : depth + levels = opts.maxDepth) (parent : CanonicalMessage) (att : Attachment) (s : σ) :
    match (prepareOneAttach source opts depth parent att s).1 with
    | .ok part => ReadyFor opts levels depth part (attReached levels att)
    | .error _ => attReached levels att = 1 := by
  have hone (h : writtenEmbed att = none) : attReached levels att = 1 := by
    cases levels with
    | zero => rfl
    | succ levels =>
      unfold attReached
      rw [h]
  unfold prepareOneAttach
  dsimp only
  by_cases hmethod : att.attachMethod = some attachEmbeddedMsg
  · rw [if_pos hmethod]
    cases hlimit : att.embeddedExtractLimit with
    | true => exact hone (if_neg fun h => by rw [hlimit] at h; nomatch h.2)
    | false =>
      cases levels with
      | zero =>
        -- the depth limit
        rw [if_pos (by simp; omega)]
        rfl
      | succ levels =>
        rw [if_neg (by simp; omega)]
        have hembed : writtenEmbed att = att.embeddedMessage := if_pos ⟨hmethod, hlimit⟩
        cases hmsg : att.embeddedMessage with
        | none => exact hone (hembed.trans hmsg)
        | some nested => exact readyFor_nested hkeep (hembed.trans hmsg) _ levels depth
  · rw [if_neg hmethod]
    have hplain := hone (if_neg fun h => hmethod h.1)
    cases hopen : openAttachBody source parent att s with
    | mk opened t =>
      cases opened with
      | error e => exact hplain
      | ok body =>
        obtain ⟨data, rfl⟩ | ⟨stream, rfl, herror⟩ := openAttachBody_cases hsource hopen
        · exact hplain
        · exact ⟨herror, hplain⟩

theorem prepareAttachments_ready {source : AttachStreamSource σ}
    (hsource : source.NoMidStreamErrors) (hkeep : opts.familyPolicy = .keepAttachmentsWithParent)
    (hdepth : depth + levels = opts.maxDepth) (parent : CanonicalMessage) (atts : List Attachment)
    (h : Balanced result n) (idx : Nat) (s : σ) :
    PreparedFor opts levels depth (n + (atts.map (attReached levels)).sum)
      (prepareAttachments source opts depth parent result idx atts s).1 := by
  induction atts generalizing result n idx s with
  | nil => exact ⟨n, [], .nil, h, rfl⟩
  | cons att atts ih =>
    have hone := prepareOneAttach_ready hsource hkeep hdepth parent att s
    unfold prepareAttachments
    rw [map_cons, sum_cons]
    cases hprepared : prepareOneAttach source opts depth parent att s with
    | mk prepared t =>
      rw [hprepared] at hone
      cases prepared with
      | error e =>
        have hone : attReached levels att = 1 := hone
        obtain ⟨failed, sizes, hparts, hbalanced, hsum⟩ :=
          ih (h.softFail (emlAttachEventFromSoftFail parent att
          (asU32 idx) e) (isEmbeddedMessage att)) (idx + 1) t
        exact ⟨failed, sizes, hparts, hbalanced, by omega⟩
      | ok part =>
        obtain ⟨failed, sizes, hparts, hbalanced, hsum⟩ := ih h (idx + 1) t
        refine ⟨failed, attReached levels att :: sizes, .cons hone hparts, hbalanced, ?_⟩
        rw [sum_cons]
        omega

theorem readAll_ok {stream : AttachStream} (h : stream.error = none) : ∃ reads,
    stream.readAll = .ok reads := by
  unfold AttachStream.readAll
  split
  · exact ⟨_, rfl⟩
  · rw [h]
    exact ⟨_, rfl⟩

theorem returns_ofExcept {α : Type} {r : Except EmlWriteError α} (h : ∃ a, r = .ok a) :
    Returns (EmlM.ofExcept r : EmlM σ α) fun _ => True := by
  obtain ⟨a, rfl⟩ := h
  exact fun s => ⟨a, s, rfl, trivial⟩

theorem returns_ofState {α : Type} {x : σ → α × σ} {Q : α → Prop} (h : ∀ s, Q (x s).1) :
    Returns (EmlM.ofState x) Q :=
  fun s => ⟨(x s).1, (x s).2, rfl, h s⟩

/-- The ledger of a returned write stands for `n` attachments. -/
def Accounts (m : EmlM σ (Bytes × EmlWriteResult)) (n : Nat) : Prop := Returns m fun r => Balanced r.2 n

theorem accounts_plain {writeNested : Nat → CanonicalMessage → EmlM σ (Bytes × EmlWriteResult)}
    {part : PreparedPart} (h : Balanced result n)
    (hraw : ∃ text, streamAttachRaw part.body = .ok text)
    (hbase64 : ∃ text, streamAttachBase64Body part.body = .ok text)
    (hbody : ∀ m d i p, part.body ≠ .nested m d i p) :
    Accounts (writePreparedPart writeNested part result) (n + 1) := by
  obtain ⟨hevents, htotal⟩ := h
  unfold writePreparedPart
  dsimp only
  split
  · split
    · next m d i p heq => exact absurd heq (hbody m d i p)
    · refine (returns_ofExcept hraw).bind fun text _ => .pure ⟨hevents, ?_⟩
      show result.attachmentsFileWritten + (result.embeddedMessagesWritten + 1) +
        result.attachmentsFailed = n + 1
      omega
  · refine (returns_ofExcept hbase64).bind fun text _ => .pure ⟨hevents, ?_⟩
    show result.attachmentsFileWritten + 1 + result.embeddedMessagesWritten + result.attachmentsFailed = n + 1
    omega

theorem accounts_writePreparedPart {writeNested : Nat → CanonicalMessage → EmlM σ (Bytes × EmlWriteResult)}
    (hnested : ∀ below msg, levels = below + 1 →
      Accounts (writeNested (depth + 1) msg) (reached opts below msg.attachments))
    {part : PreparedPart} {size : Nat} (hpart : ReadyFor opts levels depth part size) (h : Balanced result n) :
    Accounts (writePreparedPart writeNested part result) (n + size) := by
  cases hbody : part.body with
  | memory data =>
    obtain rfl : size = 1 := by simpa [ReadyFor, hbody] using hpart
    exact accounts_plain h ⟨data, by rw [hbody]; rfl⟩ ⟨base64EncodeChunked data, by rw [hbody]; rfl⟩
      fun m d i p heq => by cases hbody.symm.trans heq
  | stream stream =>
    obtain ⟨herror, rfl⟩ : stream.error = none ∧ size = 1 := by simpa [ReadyFor, hbody] using hpart
    obtain ⟨reads, hreads⟩ := readAll_ok herror
    exact accounts_plain h ⟨reads.flatten, by rw [hbody, streamAttachRaw, hreads]; rfl⟩
      ⟨streamBase64FromReader reads, by rw [hbody, streamAttachBase64Body, hreads]; rfl⟩
      fun m d i p heq => by cases hbody.symm.trans heq
  | nested msg writeDepth incomplete pending =>
    unfold ReadyFor at hpart
    rw [hbody] at hpart
    obtain ⟨hembedded, rfl, below, rfl, rfl⟩ := hpart
    unfold writePreparedPart
    rw [if_pos hembedded, hbody]
    exact (hnested below msg rfl).bind fun r hr => .pure (h.addNested hr incomplete msg.subject pending)

theorem accounts_writePreparedParts {writeNested : Nat → CanonicalMessage → EmlM σ (Bytes × EmlWriteResult)}
    (hnested : ∀ below msg, levels = below + 1 →
      Accounts (writeNested (depth + 1) msg) (reached opts below msg.attachments))
    (boundary : String) {parts : List PreparedPart} {sizes : List Nat}
    (hparts : Forall₂ (ReadyFor opts levels depth) parts sizes) (h : Balanced result n) :
    Accounts (writePreparedParts writeNested boundary parts result) (n + sizes.sum) := by
  induction hparts generalizing result n with
  | nil => exact .pure h
  | cons hpart _ ih =>
    unfold writePreparedParts
    rw [sum_cons, ← Nat.add_assoc]
    refine (accounts_writePreparedPart hnested hpart h).bind fun first hfirst => ?_
    exact (ih hfirst).bind fun more hmore => .pure hmore

variable [Chrono]

theorem accounts_writeCanonicalEmlWith {source : AttachStreamSource σ} (hsource : source.NoMidStreamErrors)
    {writeNested : Nat → CanonicalMessage → EmlM σ (Bytes × EmlWriteResult)}
    (hdepth : depth + levels = opts.maxDepth) (hnested : ∀ below msg, levels = below + 1 →
      Accounts (writeNested (depth + 1) msg) (reached opts below msg.attachments)) (msg : CanonicalMessage) :
    Accounts (writeCanonicalEmlWith source opts writeNested depth msg)
      (reached opts levels msg.attachments) := by
  unfold writeCanonicalEmlWith reached
  by_cases hkeep : opts.familyPolicy = .keepAttachmentsWithParent
  · rw [if_pos hkeep]
    cases hatts : msg.attachments with
    | nil =>
      rw [if_neg (by simp)]
      exact .pure balanced_empty
    | cons att atts =>
      rw [if_pos (by simp [hkeep]), ← hatts]
      refine (returns_ofState (Q := PreparedFor opts levels depth _) fun s =>
        prepareAttachments_ready hsource hkeep hdepth msg msg.attachments balanced_empty 0 s).bind ?_
      rintro ⟨prepared, ledger⟩ ⟨failed, sizes, hparts, hbalanced, hsum⟩
      rw [Nat.zero_add] at hsum
      dsimp only
      split
      · next hempty =>
        -- no part is left, so all of them failed
        obtain rfl := List.isEmpty_iff.mp hempty
        cases hparts
        exact .pure (hsum ▸ hbalanced)
      · refine (accounts_writePreparedParts hnested _ hparts hbalanced).bind fun r hr => .pure ?_
        exact hsum ▸ hr
  · rw [if_neg hkeep, if_neg (by simp [hkeep])]
    exact .pure balanced_empty

theorem accounts_writeCanonicalEmlTo {source : AttachStreamSource σ} (hsource : source.NoMidStreamErrors)
    (levels depth : Nat) (hdepth : depth + levels = opts.maxDepth) (msg : CanonicalMessage) :
    Accounts (writeCanonicalEmlTo source opts levels depth msg) (reached opts levels msg.attachments) := by
  induction levels generalizing depth msg with
  | zero => exact accounts_writeCanonicalEmlWith hsource hdepth (fun _ _ h => absurd h (Nat.succ_ne_zero _).symm) msg
  | succ levels ih =>
    refine accounts_writeCanonicalEmlWith hsource hdepth (fun below msg hbelow => ?_) msg
    obtain rfl := Nat.succ.inj hbelow
    exact ih (depth + 1) (by omega) msg

/-- **The counters of a write**: every failure has its event, and every attachment that is reached
counts once. -/
theorem writeCanonicalEml_accounts {source : AttachStreamSource σ}
    (hsource : source.NoMidStreamErrors) (opts : EmlWriteOpts) (msg : CanonicalMessage) (s : σ) :
    ∃ text result t, writeCanonicalEml source opts msg s = (.ok (text, result), t) ∧
      result.attachmentsFailed = result.attachmentEvents.length ∧
      result.attachmentsFileWritten + result.embeddedMessagesWritten + result.attachmentsFailed
        = reached opts opts.maxDepth msg.attachments := by
  obtain ⟨⟨text, result⟩, t, hrun, hevents, htotal⟩ :=
    accounts_writeCanonicalEmlTo hsource opts.maxDepth 0 (Nat.zero_add _) msg s
  exact ⟨text, result, t, hrun, hevents, htotal⟩

omit [Chrono] in
theorem writeCanonicalEml_accounts_family :
    ∃ (_ : Chrono) (source : AttachStreamSource Unit) (msg : CanonicalMessage) (text : Bytes)
        (result : EmlWriteResult), writeCanonicalEml source {} msg () = (.ok (text, result), ()) ∧
      result.attachmentsFailed = result.attachmentEvents.length ∧
      result.attachmentsFileWritten + result.embeddedMessagesWritten + result.attachmentsFailed = 5 := by
  let chrono : Chrono := ⟨fun _ => none, nofun⟩
  let source : AttachStreamSource Unit := ⟨fun s _ _ => (.error (.other "no attach stream source"), s)⟩
  let inside : NestedCanonicalMessage :=
    { attachments := [{ data := some [1] }], attachmentsIncomplete := true, sourceMsgNid := some 5 }
  let msg : CanonicalMessage :=
    { locus := ⟨"a.pst", "a.pst", "", 4, false⟩
      attachments := [{ data := some [2] }, { streamAvailable := true, attachNid := some 9 },
        { attachMethod := some 5, embeddedMessage := some inside }] }
  have hsource : source.NoMidStreamErrors := fun _ _ _ _ h => nomatch h
  obtain ⟨text, result, t, hrun, hevents, htotal⟩ := writeCanonicalEml_accounts hsource {} msg ()
  have hreached : reached {} (EmlWriteOpts.maxDepth {}) msg.attachments = 5 := by decide
  exact ⟨chrono, source, msg, text, result, hrun, hevents, htotal.trans hreached⟩

end DedupEngine.EmlPack
