import PstDedupe.Foundations.Separator
import PstDedupe.MatterCore.Audit

/-!
# What a verified audit chain pins down

The hash chain carries the last entry hash back to the preimage of every row.
-/

namespace MatterCore

open Rust Foundations List Option Prod

namespace AuditHashFields

def labelledFields (f : AuditHashFields) : List (List Char × List Char) :=
  [('\n' :: "actor=".toList, f.actor.toList), ('\n' :: "action=".toList, f.action.toList),
    ('\n' :: "entity=".toList, f.entity.toList), ('\n' :: "params=".toList, f.paramsJson.toList),
    ('\n' :: "tool_version=".toList, f.toolVersion.toList)]

/-- No label of the preimage occurs in a field beside its place. -/
def Unambiguous (f : AuditHashFields) : Prop := Foundations.Unambiguous f.ts.toList f.labelledFields

instance (f : AuditHashFields) : Decidable f.Unambiguous :=
  inferInstanceAs (Decidable (Foundations.Unambiguous f.ts.toList f.labelledFields))

theorem isLabel (f : AuditHashFields) : ∀ p ∈ f.labelledFields, IsLabel p.1 := by
  intro p hp
  simp only [labelledFields, mem_cons, not_mem_nil, or_false] at hp
  rcases hp with rfl | rfl | rfl | rfl | rfl
  · exact ⟨'\n', "actor=".toList, rfl, by decide⟩
  · exact ⟨'\n', "action=".toList, rfl, by decide⟩
  · exact ⟨'\n', "entity=".toList, rfl, by decide⟩
  · exact ⟨'\n', "params=".toList, rfl, by decide⟩
  · exact ⟨'\n', "tool_version=".toList, rfl, by decide⟩

theorem toList_preimage (f : AuditHashFields) :
    (canonicalAuditPreimage f).toList = ("seq=" ++ toString f.seq ++ "\nts=").toList
      ++ (labelled f.ts.toList f.labelledFields
        ++ ("\nprev_hash=".toList ++ (f.prevHash.toList ++ "\n".toList))) := by
  have hlabels : "\nactor=".toList = '\n' :: "actor=".toList ∧
      "\naction=".toList = '\n' :: "action=".toList ∧
      "\nentity=".toList = '\n' :: "entity=".toList ∧
      "\nparams=".toList = '\n' :: "params=".toList ∧
      "\ntool_version=".toList = '\n' :: "tool_version=".toList :=
    ⟨rfl, rfl, rfl, rfl, rfl⟩
  obtain ⟨h₁, h₂, h₃, h₄, h₅⟩ := hlabels
  unfold canonicalAuditPreimage
  simp only [String.toList_append, append_assoc]
  rw [h₁, h₂, h₃, h₄, h₅]
  simp only [labelledFields, labelled, append_assoc]

end AuditHashFields

theorem preimage_inj {f g : AuditHashFields} (hseq : f.seq = g.seq)
    (hprev : f.prevHash.toList.length = g.prevHash.toList.length)
    (h : canonicalAuditPreimage f = canonicalAuditPreimage g) : f.prevHash = g.prevHash ∧
      labelled f.ts.toList f.labelledFields = labelled g.ts.toList g.labelledFields := by
  have htext := congrArg String.toList h
  rw [f.toList_preimage, g.toList_preimage, hseq, append_cancel_left_eq] at htext
  obtain ⟨hfields, htail⟩ := append_inj' htext (by simp [hprev])
  rw [append_cancel_left_eq, append_cancel_right_eq] at htail
  exact ⟨String.toList_inj.mp htail, hfields⟩

section

variable [Sha256] {prev : String} {rows : List AuditEvent}

theorem length_computeEntryHash (f : AuditHashFields) : (computeEntryHash f).toList.length = 64 := by
  rw [computeEntryHash, sha256Hex, length_hexEncode, (Sha256.digest _).2]

def lastHash (prev : String) (rows : List AuditEvent) : String :=
  (rows.getLast?.map AuditEvent.entryHash).getD prev

theorem verifyFrom_cons_eq_ok {n : Int} {row : AuditEvent} {rest : List AuditEvent} :
    verifyFrom n prev (row :: rest) = .ok () ↔
      row.seq = n ∧ row.prevHash = prev ∧ computeEntryHash row.toAuditHashFields = row.entryHash ∧
        verifyFrom (n + 1) row.entryHash rest = .ok () := by
  rw [verifyFrom]
  by_cases hseq : row.seq = n
  · by_cases hprev : row.prevHash = prev
    · by_cases hhash : computeEntryHash row.toAuditHashFields = row.entryHash
      · simp [hseq, hprev, hhash]
      · simp [hseq, hprev, hhash]
    · simp [hseq, hprev]
  · simp [hseq]

theorem verifyFrom_append_eq_ok {n : Int} {xs ys : List AuditEvent} : verifyFrom n prev (xs ++ ys) = .ok () ↔
      verifyFrom n prev xs = .ok () ∧ verifyFrom (n + xs.length) (lastHash prev xs) ys = .ok () := by
  induction xs generalizing n prev with
  | nil => simp [verifyFrom, lastHash]
  | cons x xs ih =>
    have hlast : lastHash x.entryHash xs = lastHash prev (x :: xs) := by
      unfold lastHash
      cases xs with
      | nil => rfl
      | cons y ys => simp [getLast?_cons]
    have hcount : n + 1 + (xs.length : Int) = n + ((x :: xs).length : Int) := by
      rw [length_cons]
      omega
    rw [cons_append, verifyFrom_cons_eq_ok, verifyFrom_cons_eq_ok, ih, hlast, hcount]
    tauto

theorem length_lastHash {n : Int} (hprev : prev.toList.length = 64)
    (h : verifyFrom n prev rows = .ok ()) : (lastHash prev rows).toList.length = 64 := by
  rcases eq_nil_or_concat' rows with rfl | ⟨rows, row, rfl⟩
  · exact hprev
  · obtain ⟨_, hrow⟩ := verifyFrom_append_eq_ok.mp h
    obtain ⟨_, _, hhash, _⟩ := verifyFrom_cons_eq_ok.mp hrow
    simp only [lastHash, getLast?_concat, map_some, getD_some]
    rw [← hhash]
    exact length_computeEntryHash _

theorem latestLink_of_verified (h : verifyAuditChain rows = .ok ()) :
    latestLink rows = (1 + (rows.length : Int), lastHash genesisPrevHash rows) := by
  rcases eq_nil_or_concat' rows with rfl | ⟨rows, row, rfl⟩
  · rfl
  · obtain ⟨_, hrow⟩ := verifyFrom_append_eq_ok.mp h
    obtain ⟨hseq, _⟩ := verifyFrom_cons_eq_ok.mp hrow
    simp only [latestLink, lastHash, getLast?_concat, map_some, getD_some]
    rw [hseq, length_append, length_singleton]
    congr 1

theorem verifyAuditChain_appendEvent (h : verifyAuditChain rows = .ok ()) (input : AuditEventInput)
    (ts : String) :
    verifyAuditChain (rows ++ [appendEvent rows input ts]) = .ok () := by
  refine verifyFrom_append_eq_ok.mpr ⟨h, verifyFrom_cons_eq_ok.mpr ?_⟩
  unfold appendEvent
  rw [latestLink_of_verified h]
  exact ⟨rfl, rfl, rfl, rfl⟩

theorem seq_of_verifyFrom {n : Int} (h : verifyFrom n prev rows = .ok ()) {i : Nat}
    {row : AuditEvent} (hrow : rows[i]? = some row) : row.seq = n + i := by
  induction rows generalizing n prev i with
  | nil => cases hrow
  | cons r rest ih =>
    obtain ⟨hseq, -, -, hrest⟩ := verifyFrom_cons_eq_ok.mp h
    cases i with
    | zero =>
      obtain rfl := Option.some.inj hrow
      simpa using hseq
    | succ i =>
      have hnext := ih hrest hrow
      omega

/-- **Only the end can be cut off.** A verified table made of rows of a verified table is its
beginning: leaving out, repeating or moving rows is found, whatever the hash. -/
theorem verifyAuditChain_prefix {rows' : List AuditEvent} (h : verifyAuditChain rows = .ok ())
    (h' : verifyAuditChain rows' = .ok ()) (hrows : ∀ row ∈ rows', row ∈ rows) : rows' <+: rows := by
  have hat {i : Nat} {row : AuditEvent} (hrow : rows'[i]? = some row) : rows[i]? = some row := by
    obtain ⟨j, hj⟩ := List.mem_iff_getElem?.mp (hrows row (mem_of_getElem? hrow))
    have hseq := (seq_of_verifyFrom h hj).symm.trans (seq_of_verifyFrom h' hrow)
    obtain rfl : j = i := by omega
    exact hj
  rw [prefix_iff_getElem?]
  exact fun i hi => hat (getElem?_eq_getElem hi)

def NoCollision (rows rows' : List AuditEvent) : Prop :=
  Forall₂ (fun r r' : AuditEvent => CollisionFree (bytes (canonicalAuditPreimage r.toAuditHashFields))
    (bytes (canonicalAuditPreimage r'.toAuditHashFields))) rows rows'

/-- Every verified table of this length with this last hash is this table. -/
def Pins (rows : List AuditEvent) : Prop :=
  ∀ rows', verifyAuditChain rows' = .ok () → rows'.length = rows.length →
    rows'.getLast?.map AuditEvent.entryHash = rows.getLast?.map AuditEvent.entryHash →
    NoCollision rows rows' → rows' = rows

theorem eq_of_lastHash {n : Int} (hprev : prev.toList.length = 64)
    {rows rows' : List AuditEvent} (hclear : ∀ r ∈ rows, r.toAuditHashFields.Unambiguous)
    (h : verifyFrom n prev rows = .ok ()) (h' : verifyFrom n prev rows' = .ok ())
    (hlast : lastHash prev rows' = lastHash prev rows) (hfree : NoCollision rows rows') : rows' = rows := by
  induction rows using reverseRecOn generalizing rows' with
  | nil => exact List.forall₂_nil_left_iff.mp hfree
  | append_singleton rows row ih =>
    rcases eq_nil_or_concat' rows' with rfl | ⟨rows', row', rfl⟩
    · exact absurd hfree.length_eq (by simp)
    have hlen : rows.length = rows'.length := by
      have := hfree.length_eq
      rw [length_append, length_append] at this
      simpa using this
    have hfreeRows : NoCollision rows rows' := by
      have htake := forall₂_take_append _ rows' [row'] hfree
      rwa [take_left' hlen] at htake
    have hfreeLast : NoCollision [row] [row'] := by
      have hdrop := forall₂_drop_append _ rows' [row'] hfree
      rwa [drop_left' hlen] at hdrop
    have hfreeRow := (List.forall₂_cons.mp hfreeLast).1
    obtain ⟨hrows, hrow⟩ := verifyFrom_append_eq_ok.mp h
    obtain ⟨hrows', hrow'⟩ := verifyFrom_append_eq_ok.mp h'
    obtain ⟨hseq, hlink, hhash, _⟩ := verifyFrom_cons_eq_ok.mp hrow
    obtain ⟨hseq', hlink', hhash', _⟩ := verifyFrom_cons_eq_ok.mp hrow'
    have hentry : row'.entryHash = row.entryHash := by
      simpa only [lastHash, getLast?_concat, map_some, getD_some] using hlast
    -- equal entry hashes: one preimage
    have hpre : canonicalAuditPreimage row.toAuditHashFields
        = canonicalAuditPreimage row'.toAuditHashFields := by
      apply bytes_injective
      apply hfreeRow
      apply digest_eq_of_sha256Hex
      exact hhash.trans (hentry.symm.trans hhash'.symm)
    have hsame : row.seq = row'.seq := by rw [hseq, hseq', hlen]
    obtain ⟨hprevs, hfields⟩ := preimage_inj hsame
      (by rw [hlink, hlink', length_lastHash hprev hrows, length_lastHash hprev hrows']) hpre
    have hlabels : row'.toAuditHashFields.labelledFields.map fst
        = row.toAuditHashFields.labelledFields.map fst := rfl
    obtain ⟨hts, hrest⟩ := labelled_inj row.toAuditHashFields.isLabel hlabels hfields.symm
      (hclear row (mem_append_right _ mem_cons_self))
    have hrowEq : row' = row := by
      simp only [AuditHashFields.labelledFields, List.cons.injEq, Prod.mk.injEq, true_and, and_true,
        String.toList_inj] at hrest
      obtain ⟨⟨seq, ts, actor, action, entity, params, tool, prevHash⟩, entry⟩ := row
      obtain ⟨⟨seq', ts', actor', action', entity', params', tool', prevHash'⟩, entry'⟩ := row'
      obtain ⟨rfl, rfl, rfl, rfl, rfl⟩ := hrest
      obtain rfl := String.toList_inj.mp hts
      obtain rfl : prevHash = prevHash' := hprevs
      obtain rfl : seq = seq' := hsame
      obtain rfl : entry' = entry := hentry
      rfl
    rw [hrowEq, ih (fun r hr => hclear r (mem_append_left _ hr)) hrows hrows'
      (by rw [← hlink, ← hlink', hprevs]) hfreeRows]

omit [Sha256] in
theorem exists_row_of_ambiguous {row : AuditEvent} (h : ¬ row.toAuditHashFields.Unambiguous) :
    ∃ row' : AuditEvent, row' ≠ row ∧ row'.seq = row.seq ∧ row'.prevHash = row.prevHash ∧
      row'.entryHash = row.entryHash ∧
      canonicalAuditPreimage row'.toAuditHashFields = canonicalAuditPreimage row.toAuditHashFields := by
  obtain ⟨ts, fields, hsame, htext, hother⟩ :=
    exists_labelled_eq (row.toAuditHashFields.isLabel) h
  -- the other texts under the same labels
  obtain ⟨actor, action, entity, params, tool, rfl⟩ : ∃ actor action entity params tool : List Char,
      fields = [('\n' :: "actor=".toList, actor), ('\n' :: "action=".toList, action),
        ('\n' :: "entity=".toList, entity),
        ('\n' :: "params=".toList, params), ('\n' :: "tool_version=".toList, tool)] := by
    simp only [AuditHashFields.labelledFields, map_cons, map_nil, map_eq_cons_iff,
      map_eq_nil_iff] at hsame
    obtain ⟨⟨_, actor⟩, _, rfl, rfl, ⟨_, action⟩, _, rfl, rfl, ⟨_, entity⟩, _, rfl, rfl,
      ⟨_, params⟩, _, rfl, rfl, ⟨_, tool⟩, _, rfl, rfl, rfl⟩ := hsame
    exact ⟨actor, action, entity, params, tool, rfl⟩
  let fields' : AuditHashFields := ⟨row.seq, String.ofList ts, String.ofList actor, String.ofList action,
    String.ofList entity, String.ofList params, String.ofList tool, row.prevHash⟩
  have hfields : fields'.labelledFields
      = [('\n' :: "actor=".toList, actor), ('\n' :: "action=".toList, action),
      ('\n' :: "entity=".toList, entity), ('\n' :: "params=".toList, params),
      ('\n' :: "tool_version=".toList, tool)] := by
    simp only [fields', AuditHashFields.labelledFields, String.toList_ofList]
  have hts : fields'.ts.toList = ts := String.toList_ofList
  refine ⟨{ fields' with entryHash := row.entryHash }, fun heq => hother ?_, rfl, rfl, rfl, ?_⟩
  · have hback : fields' = row.toAuditHashFields := congrArg AuditEvent.toAuditHashFields heq
    rw [← hts, ← hfields, hback]
    exact ⟨rfl, rfl⟩
  · apply String.toList_inj.mp
    rw [AuditHashFields.toList_preimage, AuditHashFields.toList_preimage]
    show _ ++ (labelled fields'.ts.toList fields'.labelledFields ++ _) = _
    rw [hts, hfields, htext]

/-- **What a verified table pins down.** The last hash determines the whole table, row by row and
field by field, iff no label of the preimage occurs in a field beside its place. -/
theorem verifyAuditChain_pins_iff {rows : List AuditEvent} (h : verifyAuditChain rows = .ok ()) :
    Pins rows ↔ ∀ r ∈ rows, r.toAuditHashFields.Unambiguous := by
  constructor
  · intro hpins row hrow
    by_contra hambiguous
    obtain ⟨row', hne, hseq, hprev, hentry, hpre⟩ := exists_row_of_ambiguous hambiguous
    obtain ⟨before, behind, rfl⟩ := append_of_mem hrow
    have hhash : computeEntryHash row'.toAuditHashFields = computeEntryHash row.toAuditHashFields := by
      rw [computeEntryHash, hpre, computeEntryHash]
    have hverify : verifyAuditChain (before ++ row' :: behind) = .ok () := by
      unfold verifyAuditChain at h ⊢
      rw [verifyFrom_append_eq_ok, verifyFrom_cons_eq_ok] at h ⊢
      rw [hseq, hprev, hentry, hhash]
      exact h
    have hlast : (before ++ row' :: behind).getLast?.map AuditEvent.entryHash
        = (before ++ row :: behind).getLast?.map AuditEvent.entryHash := by
      cases behind with
      | nil => simp [hentry]
      | cons r behind => simp
    have hfree : NoCollision (before ++ row :: behind) (before ++ row' :: behind) := by
      have hrefl : ∀ rows : List AuditEvent, NoCollision rows rows :=
        fun rows => List.forall₂_same.mpr fun _ _ _ => rfl
      refine rel_append (hrefl before) (.cons (fun _ => ?_) (hrefl behind))
      rw [hpre]
    have heq := hpins _ hverify (by simp) hlast hfree
    rw [append_cancel_left_eq, List.cons.injEq] at heq
    exact hne heq.1
  · intro hclear rows' h' hlen hlast hfree
    exact eq_of_lastHash (by decide) hclear h h' (by rw [lastHash, lastHash, hlast]) hfree

end

/-- Two inputs that differ in where the text between `alice` and `delete` belongs. -/
def sampleInput : AuditEventInput := ⟨"alice", "export\naction=delete", "item/7", "\x7b\x7d", "1.0"⟩
def movedInput : AuditEventInput := ⟨"alice\naction=export", "delete", "item/7", "\x7b\x7d", "1.0"⟩

def oneRow [Sha256] (input : AuditEventInput) : List AuditEvent :=
  [appendEvent [] input "2026-01-01T00:00:00Z"]

theorem verifyAuditChain_oneRow [Sha256] (input : AuditEventInput) :
    verifyAuditChain (oneRow input) = .ok () := by
  have hempty : verifyAuditChain [] = .ok () := rfl
  exact verifyAuditChain_appendEvent hempty input _

theorem verifyAuditChain_prefix_oneRow :
    letI := Sha256.fips
    oneRow sampleInput <+: oneRow sampleInput ++
      [appendEvent (oneRow sampleInput) movedInput "2026-01-02T00:00:00Z"] :=
  letI := Sha256.fips
  verifyAuditChain_prefix (verifyAuditChain_appendEvent (verifyAuditChain_oneRow sampleInput) movedInput _)
    (verifyAuditChain_oneRow sampleInput) fun _ hrow => mem_append_left _ hrow

def plainInput : AuditEventInput := ⟨"alice", "export", "item/7", "\x7b\x7d", "1.0"⟩

def twoRows [Sha256] (input : AuditEventInput) : List AuditEvent :=
  oneRow plainInput ++ [appendEvent (oneRow plainInput) input "2026-01-02T00:00:00Z"]

/-- Two plain rows are pinned down; with a label in the action of the second they are not. -/
theorem verifyAuditChain_pins_iff_twoRows :
    @Pins Sha256.fips (@twoRows Sha256.fips plainInput) ∧
      ¬ @Pins Sha256.fips (@twoRows Sha256.fips sampleInput) := by
  have hplain : ∀ r ∈ @twoRows Sha256.fips plainInput, r.toAuditHashFields.Unambiguous := by decide +kernel
  have hsample : ¬ ∀ r ∈ @twoRows Sha256.fips sampleInput, r.toAuditHashFields.Unambiguous := by decide +kernel
  let _ := Sha256.fips
  have hverify : ∀ input, verifyAuditChain (twoRows input) = .ok () := fun input =>
    verifyAuditChain_appendEvent (verifyAuditChain_oneRow plainInput) input _
  exact ⟨(verifyAuditChain_pins_iff (hverify plainInput)).mpr hplain, fun hpins =>
    hsample ((verifyAuditChain_pins_iff (hverify sampleInput)).mp hpins)⟩

theorem verifyAuditChain_accepts_moved_text :
    @verifyAuditChain Sha256.fips (@oneRow Sha256.fips sampleInput) = .ok () ∧
      @verifyAuditChain Sha256.fips (@oneRow Sha256.fips movedInput) = .ok () ∧
      (@oneRow Sha256.fips sampleInput).map AuditEvent.entryHash
        = (@oneRow Sha256.fips movedInput).map AuditEvent.entryHash ∧
      (@oneRow Sha256.fips sampleInput).map (fun r => canonicalAuditPreimage r.toAuditHashFields)
        = (@oneRow Sha256.fips movedInput).map (fun r => canonicalAuditPreimage r.toAuditHashFields) ∧
      (@oneRow Sha256.fips sampleInput).map (fun r => (r.actor, r.action))
        ≠ (@oneRow Sha256.fips movedInput).map (fun r => (r.actor, r.action)) := by
  let _ := Sha256.fips
  have hpre : (oneRow sampleInput).map (fun r => canonicalAuditPreimage r.toAuditHashFields)
      = (oneRow movedInput).map (fun r => canonicalAuditPreimage r.toAuditHashFields) := by
    decide +kernel
  refine ⟨verifyAuditChain_oneRow _, verifyAuditChain_oneRow _, ?_, hpre, by decide +kernel⟩
  -- the entry hash is a function of the preimage
  have hhash : ∀ input, (oneRow input).map AuditEvent.entryHash
      = ((oneRow input).map fun r => canonicalAuditPreimage r.toAuditHashFields).map
        fun p => sha256Hex (bytes p) := fun _ => rfl
  rw [hhash, hhash, hpre]

/-!
# Runs of the audit log

`append_event` takes its own transaction unless the connection is inside one.
-/

variable [Sha256] {conn : LogConn}

/-- A connection to the log: what is committed, and what an open outer transaction has made of
it. -/
structure LogConn where
  committed : List AuditEvent := []
  txn : Option (List AuditEvent) := none

inductive LogCall where
  | begin
  | append (input : AuditEventInput) (ts : String)
  | appendFails
  | commit
  | rollback

/-- `append_event` on a connection: its own transaction in autocommit mode, the outer one
otherwise. -/
def LogConn.append (conn : LogConn) (input : AuditEventInput) (ts : String) : LogConn :=
  match conn.txn with
  | none => { conn with committed := conn.committed ++ [appendEvent conn.committed input ts] }
  | some rows => { conn with txn := some (rows ++ [appendEvent rows input ts]) }

/-- One call. A `BEGIN` inside a transaction and an end outside one are not issued. -/
def LogConn.step (conn : LogConn) : LogCall → LogConn
  | .begin => { conn with txn := some (conn.txn.getD conn.committed) }
  | .append input ts => conn.append input ts
  | .appendFails => conn
  | .commit => { committed := conn.txn.getD conn.committed }
  | .rollback => { committed := conn.committed }

def LogConn.run (conn : LogConn) (calls : List LogCall) : LogConn := calls.foldl LogConn.step conn

def LogConn.Verified (conn : LogConn) : Prop :=
  verifyAuditChain conn.committed = .ok () ∧ ∀ rows ∈ conn.txn, verifyAuditChain rows = .ok ()

theorem LogConn.Verified.getD (h : conn.Verified) :
    verifyAuditChain (conn.txn.getD conn.committed) = .ok () := by
  cases htxn : conn.txn with
  | none => exact h.1
  | some rows => exact h.2 rows htxn

theorem LogConn.Verified.step (h : conn.Verified) (call : LogCall) : (conn.step call).Verified := by
  cases call with
  | begin => exact ⟨h.1, fun rows hrows => Option.mem_some_iff.mp hrows ▸ h.getD⟩
  | append input ts =>
    show (conn.append input ts).Verified
    unfold LogConn.append
    cases htxn : conn.txn with
    | none =>
      refine ⟨verifyAuditChain_appendEvent h.1 input ts, fun rows hrows => ?_⟩
      cases hrows
    | some rows =>
      have hrows := verifyAuditChain_appendEvent (h.2 rows htxn) input ts
      exact ⟨h.1, fun rows' hrows' => Option.mem_some_iff.mp hrows' ▸ hrows⟩
  | appendFails => exact h
  | commit => exact ⟨h.getD, fun rows hrows => by cases hrows⟩
  | rollback => exact ⟨h.1, fun rows hrows => by cases hrows⟩

theorem LogConn.Verified.run (h : conn.Verified) (calls : List LogCall) : (conn.run calls).Verified := by
  induction calls generalizing conn with
  | nil => exact h
  | cons call calls ih => exact ih (h.step call)

theorem eq_appendEvent_of_verified {rows : List AuditEvent} {row : AuditEvent}
    (h : verifyAuditChain (rows ++ [row]) = .ok ()) :
    row = appendEvent rows ⟨row.actor, row.action, row.entity, row.paramsJson, row.toolVersion⟩ row.ts := by
  obtain ⟨hrows, hrow⟩ := verifyFrom_append_eq_ok.mp h
  obtain ⟨hseq, hprev, hhash, _⟩ := verifyFrom_cons_eq_ok.mp hrow
  unfold appendEvent
  rw [latestLink_of_verified hrows, ← hseq, ← hprev]
  exact congrArg (AuditEvent.mk row.toAuditHashFields) hhash.symm

/-- **The verifier accepts exactly what runs of `append_event` leave behind**, in their own
transactions or inside outer ones that are committed or rolled back. -/
theorem verifyAuditChain_eq_ok_iff_run {rows : List AuditEvent} :
    verifyAuditChain rows = .ok () ↔ ∃ calls, LogConn.run {} calls = { committed := rows } := by
  constructor
  · intro h
    -- one call in its own transaction for each row
    induction rows using reverseRecOn with
    | nil => exact ⟨[], rfl⟩
    | append_singleton rows row ih =>
      obtain ⟨hrows, _⟩ := verifyFrom_append_eq_ok.mp h
      obtain ⟨calls, hcalls⟩ := ih hrows
      let input : AuditEventInput := ⟨row.actor, row.action, row.entity, row.paramsJson, row.toolVersion⟩
      have hrow : row = appendEvent rows input row.ts := eq_appendEvent_of_verified h
      refine ⟨calls ++ [.append input row.ts], ?_⟩
      unfold LogConn.run at hcalls ⊢
      rw [foldl_append, hcalls, hrow]
      rfl
  · rintro ⟨calls, hcalls⟩
    have hempty : LogConn.Verified {} := ⟨rfl, fun rows hrows => by cases hrows⟩
    have hrun := hempty.run calls
    rw [hcalls] at hrun
    exact hrun.1

end MatterCore
