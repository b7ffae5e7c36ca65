import PstDedupe.MatterCore.RedactedArtifact

/-!
# The redacted artifact under several clients

The steps of regenerations, creates, deletes and body updates of any number of clients interleave.
-/

namespace MatterCore

open Rust Foundations List Function

section Model

variable [BodySource] [Sha256]

/-! ## Steps -/

structure ArtifactStore where
  db : MatterDb
  nulls : List String := []
  /-- How many NULLs of the item came before the listing that its artifact was made from. -/
  listedAfter : String → Nat := fun _ => 0

inductive ArtifactCall where
  | redaction (p : PendingCall)
  | bodyWrite (itemId : String) (w : BodyWrite)
  | loaded (g : Regeneration)
  | listed (g : Regeneration) (rows : List ItemRedaction) (nulls : Nat)
  | marked (g : Regeneration) (rows : List ItemRedaction) (nulls : Nat)

def PendingCall.nulled : PendingCall → List String
  | .createRedaction row => [row.itemId]
  | .deleteRedaction existing => [existing.itemId]
  | .createGeomRedaction _ | .deleteGeomRedaction _ => []

def ArtifactCall.advance (matter now : String) (st : ArtifactStore) :
    ArtifactCall → ArtifactStore × Option ArtifactCall
  | .redaction p =>
    match p.txn matter st.db with
    | .ok db => ({ st with db := db, nulls := st.nulls ++ p.nulled }, none)
    | .error _ => (st, none)
  | .bodyWrite itemId w =>
    ({ st with db := st.db.updateItem matter itemId w.apply
               nulls := st.nulls ++ if w.nullArtifact then [itemId] else [] }, none)
  | .loaded g =>
    match st.db.listRedactions matter g.itemId with
    | .ok rows => (st, some (.listed g rows (st.nulls.count g.itemId)))
    | .error _ => (st, none)
  | .listed g rows nulls =>
    ({ st with db := persistStaleTxn (g.staleIds rows) now st.db }, some (.marked g rows nulls))
  | .marked g rows nulls =>
    let result := g.result rows now
    let db := storeArtifactTxn matter result st.db
    if result.redactedTextSha256.isNone then ({ st with db := db, nulls := st.nulls ++ [g.itemId] }, none)
    else ({ st with db := db, listedAfter := Function.update st.listedAfter g.itemId nulls }, none)

structure ArtifactState where
  store : ArtifactStore
  pending : List ArtifactCall := []

inductive ArtifactRequest where
  | redaction (call : RedactionCall)
  | update (itemId : String) (u : BodyUpdate)
  | regenerate (itemId displayBody : String)

def ArtifactRequest.read (matter : String) (db : MatterDb) : ArtifactRequest → Except CallError ArtifactCall
  | .redaction call => .redaction <$> call.read matter db
  | .update itemId u => (fun item => .bodyWrite itemId (u.write item)) <$> db.getItem itemId
  | .regenerate itemId displayBody => .loaded <$> readRegenerate matter db itemId displayBody

inductive ArtifactAction where
  | read (request : ArtifactRequest)
  | advance (i : Nat) (now : String)
  | abort (i : Nat)

def ArtifactState.step (matter : String) (s : ArtifactState) : ArtifactAction → ArtifactState
  | .read request =>
    match request.read matter s.store.db with
    | .ok call => { s with pending := s.pending ++ [call] }
    | .error _ => s
  | .advance i now =>
    match s.pending[i]? with
    | none => s
    | some call =>
      let (store, rest) := call.advance matter now s.store
      match rest with
      | some next => ⟨store, s.pending.set i next⟩
      | none => ⟨store, s.pending.eraseIdx i⟩
  | .abort i => { s with pending := s.pending.eraseIdx i }

/-! ## The law -/

def Item.currentBody (item : Item) : Except CallError (String × String) :=
  resolveRegenerateBodySource item.textSha256 item.htmlSha256 (BodySource.displayOf item.htmlSha256)

/-- The stored artifact hides every active redaction of the body as it is now. -/
def ArtifactFresh (matter : String) (db : MatterDb) (item : Item) : Prop :=
  ∀ sha ∈ item.redactedTextSha256, ∃ body digest ranges, item.currentBody = .ok (body, digest)
    ∧ sha = sha256Hex (bytes (buildRedactedText body ranges))
    ∧ ∀ row ∈ db.itemRedactions, row.itemId = item.id → row.matterId = matter →
      (resolveRedactionAgainstBody row body digest).status = .active →
        ((resolveRedactionAgainstBody row body digest).startUtf8,
          (resolveRedactionAgainstBody row body digest).endUtf8) ∈ ranges

/-- Every artifact is fresh, and none was made from a listing before the last NULL of its item. -/
structure ArtifactsCurrent (matter : String) (st : ArtifactStore) : Prop where
  fresh : ∀ item ∈ st.db.items, item.matterId = matter → ArtifactFresh matter st.db item
  notOverwritten : ∀ item ∈ st.db.items, item.matterId = matter → item.redactedTextSha256 ≠ none →
    st.listedAfter item.id = st.nulls.count item.id

def ArtifactCall.Sound (matter : String) (st : ArtifactStore) : ArtifactCall → Prop
  | .bodyWrite itemId w => ∀ item ∈ st.db.items, item.id = itemId → item.matterId = matter →
      w.nullArtifact = false → item.redactedTextSha256 ≠ none →
        (w.apply item).textSha256 = item.textSha256 ∧ (w.apply item).htmlSha256 = item.htmlSha256
  | .marked g rows nulls => g.activeRanges rows ≠ [] → nulls = st.nulls.count g.itemId
      ∧ ∀ item ∈ st.db.items, item.id = g.itemId → item.matterId = matter →
        item.textSha256 = g.textSha256 ∧ item.htmlSha256 = g.htmlSha256
          ∧ (presentDigest item.textSha256 = none → g.displayBody = BodySource.displayOf item.htmlSha256)
  | .redaction _ | .loaded _ | .listed _ _ _ => True

/-- The call that goes on is sound. -/
def ArtifactState.StepSound (matter : String) (s : ArtifactState) : ArtifactAction → Prop
  | .advance i _ => ∀ call ∈ s.pending[i]?, call.Sound matter s.store
  | .read _ | .abort _ => True

instance {matter : String} {st : ArtifactStore} : ∀ call : ArtifactCall, Decidable (call.Sound matter st)
  | .bodyWrite itemId w => inferInstanceAs (Decidable (∀ item ∈ st.db.items, item.id = itemId →
      item.matterId = matter → w.nullArtifact = false → item.redactedTextSha256 ≠ none →
        (w.apply item).textSha256 = item.textSha256 ∧ (w.apply item).htmlSha256 = item.htmlSha256))
  | .marked g rows nulls =>
    inferInstanceAs (Decidable (g.activeRanges rows ≠ [] → nulls = st.nulls.count g.itemId
      ∧ ∀ item ∈ st.db.items, item.id = g.itemId → item.matterId = matter →
        item.textSha256 = g.textSha256 ∧ item.htmlSha256 = g.htmlSha256
          ∧ (presentDigest item.textSha256 = none → g.displayBody = BodySource.displayOf item.htmlSha256)))
  | .redaction _ | .loaded _ | .listed _ _ _ => isTrue trivial

instance {matter : String} {s : ArtifactState} : ∀ a : ArtifactAction, Decidable (s.StepSound matter a)
  | .advance i _ => inferInstanceAs (Decidable (∀ call ∈ s.pending[i]?, call.Sound matter s.store))
  | .read _ | .abort _ => isTrue trivial

/-! ## What a step does to the redactions of an item -/

def SameRegion (row r : ItemRedaction) : Prop :=
  ∀ body digest, resolveRedactionAgainstBody row body digest = resolveRedactionAgainstBody r body digest

/-- Without a NULL of the item its redactions are among those before the step. -/
structure RowsKept (matter : String) (st st' : ArtifactStore) (itemId : String) : Prop where
  count_le : st.nulls.count itemId ≤ st'.nulls.count itemId
  rows : st'.nulls.count itemId = st.nulls.count itemId →
    ∀ row ∈ st'.db.itemRedactions, row.itemId = itemId → row.matterId = matter →
      ∃ r ∈ st.db.itemRedactions, r.itemId = itemId ∧ r.matterId = matter ∧ SameRegion row r

section Kept

variable {matter now itemId : String} {st st' : ArtifactStore}

omit [BodySource] [Sha256] in
theorem RowsKept.of_subset (hnulls : ∃ more, st'.nulls = st.nulls ++ more)
    (hrows : ∀ row ∈ st'.db.itemRedactions, row ∈ st.db.itemRedactions) : RowsKept matter st st' itemId where
  count_le := by
    obtain ⟨more, hmore⟩ := hnulls
    rw [hmore, count_append]
    omega
  rows _ row hrow hitem hmatter := ⟨row, hrows row hrow, hitem, hmatter, fun _ _ => rfl⟩

omit [BodySource] [Sha256] in
theorem rowsKept_txn {p : PendingCall} {db' : MatterDb} (h : p.txn matter st.db = .ok db') :
    RowsKept matter st { st with db := db', nulls := st.nulls ++ p.nulled } itemId := by
  cases p with
  | createRedaction row =>
    replace h : createRedactionTxn matter row st.db = .ok db' := h
    unfold createRedactionTxn at h
    split at h
    · cases h
    · cases h
      refine ⟨by rw [count_append]; omega, fun hcount r hr hitem hmatter => ?_⟩
      have hother : row.itemId ≠ itemId := by
        rintro rfl
        simp [PendingCall.nulled] at hcount
      rcases List.mem_append.mp hr with hr | hr
      · exact ⟨r, hr, hitem, hmatter, fun _ _ => rfl⟩
      · rw [List.mem_singleton.mp hr] at hitem
        exact absurd hitem hother
  | deleteRedaction existing =>
    cases h
    exact .of_subset ⟨_, rfl⟩ fun row hrow => mem_of_mem_filter hrow
  | createGeomRedaction row =>
    replace h : createGeomRedactionTxn matter row st.db = .ok db' := h
    unfold createGeomRedactionTxn at h
    split at h
    · cases h
    · cases h
      exact .of_subset ⟨_, rfl⟩ fun row hrow => hrow
  | deleteGeomRedaction existing =>
    cases h
    refine .of_subset ⟨_, rfl⟩ fun row hrow => ?_
    unfold deleteGeomRedactionTxn at hrow
    dsimp only at hrow
    split at hrow
    · exact hrow
    · exact hrow

theorem rowsKept_advance (call : ArtifactCall) (itemId : String) :
    RowsKept matter st (call.advance matter now st).1 itemId := by
  cases call with
  | redaction p =>
    cases htxn : p.txn matter st.db with
    | ok db' =>
      rw [ArtifactCall.advance, htxn]
      exact rowsKept_txn htxn
    | error e =>
      rw [ArtifactCall.advance, htxn]
      exact .of_subset ⟨[], by simp⟩ fun row hrow => hrow
  | bodyWrite id w => exact .of_subset ⟨_, rfl⟩ fun row hrow => hrow
  | loaded g =>
    have hstore : (ArtifactCall.advance matter now st (.loaded g)).1 = st := by
      rw [ArtifactCall.advance]
      split
      · rfl
      · rfl
    rw [hstore]
    exact .of_subset ⟨[], by simp⟩ fun row hrow => hrow
  | listed g rows nulls =>
    refine ⟨Nat.le_refl _, fun _ row hrow hitem hmatter => ?_⟩
    obtain ⟨r, hr, rfl⟩ := List.mem_map.mp hrow
    -- marking a row changes its status and the time of its update only
    by_cases hstale : r.id ∈ g.staleIds rows
    · rw [if_pos hstale] at hitem hmatter ⊢
      exact ⟨r, hr, hitem, hmatter,
        fun body digest => resolveRedactionAgainstBody_status r .stale now body digest⟩
    · rw [if_neg hstale] at hitem hmatter ⊢
      exact ⟨r, hr, hitem, hmatter, fun _ _ => rfl⟩
  | marked g rows nulls =>
    rw [ArtifactCall.advance]
    split
    · exact .of_subset ⟨_, rfl⟩ fun row hrow => hrow
    · exact .of_subset ⟨[], by simp⟩ fun row hrow => hrow

def ArtifactCall.Tracks (matter : String) (st : ArtifactStore) : ArtifactCall → Prop
  | .listed g rows nulls | .marked g rows nulls => nulls ≤ st.nulls.count g.itemId
      ∧ (nulls = st.nulls.count g.itemId → ∀ row ∈ st.db.itemRedactions, row.itemId = g.itemId →
          row.matterId = matter → ∃ r ∈ rows, SameRegion row r)
  | .redaction _ | .bodyWrite _ _ | .loaded _ => True

theorem RowsKept.tracks {g : Regeneration} {rows : List ItemRedaction} {nulls : Nat}
    (h : RowsKept matter st st' g.itemId) (ht : ArtifactCall.Tracks matter st (.marked g rows nulls)) :
    ArtifactCall.Tracks matter st' (.marked g rows nulls) := by
  refine ⟨Nat.le_trans ht.1 h.count_le, fun hnulls row hrow hitem hmatter => ?_⟩
  -- no NULL since the listing, so none in this step
  have hcount : st'.nulls.count g.itemId = st.nulls.count g.itemId := by
    have hle := h.count_le
    have hnle := ht.1
    omega
  obtain ⟨r, hr, hritem, hrmatter, hsame⟩ := h.rows hcount row hrow hitem hmatter
  obtain ⟨q, hq, hsame'⟩ := ht.2 (hnulls.trans hcount) r hr hritem hrmatter
  exact ⟨q, hq, fun body digest => (hsame body digest).trans (hsame' body digest)⟩

theorem ArtifactCall.Tracks.mono {call : ArtifactCall} (h : ∀ itemId, RowsKept matter st st' itemId)
    (ht : call.Tracks matter st) : call.Tracks matter st' := by
  cases call with
  | redaction p => trivial
  | bodyWrite id w => trivial
  | loaded g => trivial
  | listed g rows nulls => exact (h g.itemId).tracks ht
  | marked g rows nulls => exact (h g.itemId).tracks ht

theorem tracks_advance {call next : ArtifactCall} (ht : call.Tracks matter st)
    (h : (call.advance matter now st).2 = some next) : next.Tracks matter (call.advance matter now st).1 := by
  cases call with
  | redaction p =>
    cases htxn : p.txn matter st.db with
    | ok db' =>
      rw [ArtifactCall.advance, htxn] at h
      cases h
    | error e =>
      rw [ArtifactCall.advance, htxn] at h
      cases h
  | bodyWrite id w => cases h
  | loaded g =>
    cases hlist : st.db.listRedactions matter g.itemId with
    | error e =>
      rw [ArtifactCall.advance, hlist] at h
      cases h
    | ok rows =>
      rw [ArtifactCall.advance, hlist] at h ⊢
      cases h
      obtain ⟨_, _, hrows⟩ := bind_eq_ok.mp hlist
      cases hrows
      refine ⟨Nat.le_refl _, fun _ row hrow hitem hmatter => ⟨row, ?_, fun _ _ => rfl⟩⟩
      apply (sortBy_perm _ _).mem_iff.mpr
      exact List.mem_filter.mpr ⟨hrow, by simp [hitem, hmatter]⟩
  | listed g rows nulls =>
    have hnext : next = .marked g rows nulls := (Option.some.inj h).symm
    rw [hnext]
    exact (rowsKept_advance (.listed g rows nulls) g.itemId).tracks ht
  | marked g rows nulls =>
    rw [ArtifactCall.advance] at h
    split at h
    · cases h
    · cases h

end Kept

/-! ## What a step does to an item -/

section Items

variable {matter now : String} {st st' : ArtifactStore} {item : Item}

def ItemKept (st st' : ArtifactStore) (item : Item) : Prop :=
  ∃ old ∈ st.db.items, old.id = item.id ∧ old.matterId = item.matterId
    ∧ old.redactedTextSha256 = item.redactedTextSha256
    ∧ old.textSha256 = item.textSha256 ∧ old.htmlSha256 = item.htmlSha256
    ∧ st'.nulls.count item.id = st.nulls.count item.id ∧ st'.listedAfter item.id = st.listedAfter item.id

def JustStored (st st' : ArtifactStore) (item : Item) : ArtifactCall → Prop
  | .marked g rows nulls => item.id = g.itemId
      ∧ item.redactedTextSha256 = some (sha256Hex (bytes (buildRedactedText g.body (g.activeRanges rows))))
      ∧ item.currentBody = .ok (g.body, g.sourceDigest)
      ∧ st'.db.itemRedactions = st.db.itemRedactions
      ∧ nulls = st.nulls.count g.itemId ∧ st'.nulls = st.nulls ∧ st'.listedAfter item.id = nulls
  | _ => False

omit [BodySource] [Sha256] in
theorem mem_updateItem_cases {db : MatterDb} {itemId : String} {set : Item → Item}
    (hmatter : item.matterId = matter) (h : item ∈ (db.updateItem matter itemId set).items) :
    (∃ old ∈ db.items, old.id = itemId ∧ old.matterId = matter ∧ item = set old)
      ∨ (item ∈ db.items ∧ item.id ≠ itemId) := by
  obtain ⟨old, hold, rfl⟩ := MatterDb.mem_items_updateItem.mp h
  by_cases hid : old.id = itemId ∧ old.matterId = matter
  · rw [if_pos hid]
    exact .inl ⟨old, hold, hid.1, hid.2, rfl⟩
  · rw [if_neg hid] at hmatter ⊢
    exact .inr ⟨hold, fun heq => hid ⟨heq, hmatter⟩⟩

omit [BodySource] [Sha256] in
theorem ItemKept.of_mem (hmem : item ∈ st.db.items) (hnulls : st'.nulls.count item.id = st.nulls.count item.id)
    (hlisted : st'.listedAfter item.id = st.listedAfter item.id) : ItemKept st st' item :=
  ⟨item, hmem, rfl, rfl, rfl, rfl, rfl, hnulls, hlisted⟩

omit [BodySource] [Sha256] in
theorem count_append_other {nulls more : List String} {itemId other : String} (hmore : ∀ x ∈ more, x = other)
    (hne : itemId ≠ other) : (nulls ++ more).count itemId = nulls.count itemId := by
  have hzero : more.count itemId = 0 := count_eq_zero_of_not_mem fun hmem => hne (hmore itemId hmem)
  rw [count_append, hzero, Nat.add_zero]

omit [BodySource] [Sha256] in
theorem item_txn {p : PendingCall} {db' : MatterDb} (h : p.txn matter st.db = .ok db')
    (hitem : item ∈ db'.items) (hmatter : item.matterId = matter) : item.redactedTextSha256 = none
      ∨ ItemKept st { st with db := db', nulls := st.nulls ++ p.nulled } item := by
  cases p with
  | createRedaction row =>
    replace h : createRedactionTxn matter row st.db = .ok db' := h
    unfold createRedactionTxn at h
    split at h
    · cases h
    · cases h
      rcases mem_updateItem_cases hmatter hitem with ⟨old, _, _, _, rfl⟩ | ⟨hold, hne⟩
      · exact .inl rfl
      · exact .inr (.of_mem hold (count_append_other (fun x hx => List.mem_singleton.mp hx) hne) rfl)
  | deleteRedaction existing =>
    cases h
    rcases mem_updateItem_cases hmatter hitem with ⟨old, _, _, _, rfl⟩ | ⟨hold, hne⟩
    · exact .inl rfl
    · exact .inr (.of_mem hold (count_append_other (fun x hx => List.mem_singleton.mp hx) hne) rfl)
  | createGeomRedaction row =>
    replace h : createGeomRedactionTxn matter row st.db = .ok db' := h
    unfold createGeomRedactionTxn at h
    split at h
    · cases h
    · cases h
      rcases mem_updateItem_cases hmatter hitem with ⟨old, hold, _, _, rfl⟩ | ⟨hold, hne⟩
      · exact .inr ⟨old, hold, rfl, rfl, rfl, rfl, rfl, by simp [PendingCall.nulled], rfl⟩
      · exact .inr (.of_mem hold (by simp [PendingCall.nulled]) rfl)
  | deleteGeomRedaction existing =>
    cases h
    unfold deleteGeomRedactionTxn at hitem
    dsimp only at hitem
    split at hitem
    · rcases mem_updateItem_cases hmatter hitem with ⟨old, hold, _, _, rfl⟩ | ⟨hold, hne⟩
      · exact .inr ⟨old, hold, rfl, rfl, rfl, rfl, rfl, by simp [PendingCall.nulled], rfl⟩
      · exact .inr (.of_mem hold (by simp [PendingCall.nulled]) rfl)
    · exact .inr (.of_mem hitem (by simp [PendingCall.nulled]) rfl)

theorem resolveRegenerateBodySource_congr {textSha256 htmlSha256 : Option String}
    {display display' : String} (h : presentDigest textSha256 = none → display = display') :
    resolveRegenerateBodySource textSha256 htmlSha256 display
      = resolveRegenerateBodySource textSha256 htmlSha256 display' := by
  cases hpresent : presentDigest textSha256 with
  | none => rw [h hpresent]
  | some textSha =>
    unfold resolveRegenerateBodySource
    rw [hpresent]

omit [BodySource] [Sha256] in
theorem BodyWrite.kept_of_sound {w : BodyWrite} (hnull : w.nullArtifact = false)
    (hsound : item.redactedTextSha256 ≠ none →
      (w.apply item).textSha256 = item.textSha256 ∧ (w.apply item).htmlSha256 = item.htmlSha256) :
    (w.apply item).redactedTextSha256 = none ∨ (w.apply item).redactedTextSha256 = item.redactedTextSha256
        ∧ (w.apply item).textSha256 = item.textSha256 ∧ (w.apply item).htmlSha256 = item.htmlSha256 := by
  have hsame : (w.apply item).redactedTextSha256 = item.redactedTextSha256 := by
    unfold BodyWrite.apply
    rw [hnull]
    rfl
  by_cases hart : item.redactedTextSha256 = none
  · exact .inl (hsame.trans hart)
  · exact .inr ⟨hsame, hsound hart⟩

theorem item_advance {call : ArtifactCall} (hsound : call.Sound matter st)
    (hitem : item ∈ (call.advance matter now st).1.db.items) (hmatter : item.matterId = matter) :
    item.redactedTextSha256 = none ∨ ItemKept st (call.advance matter now st).1 item
      ∨ JustStored st (call.advance matter now st).1 item call := by
  cases call with
  | redaction p =>
    cases htxn : p.txn matter st.db with
    | ok db' =>
      rw [ArtifactCall.advance, htxn] at hitem ⊢
      rcases item_txn htxn hitem hmatter with hnone | hkept
      · exact .inl hnone
      · exact .inr (.inl hkept)
    | error e =>
      rw [ArtifactCall.advance, htxn] at hitem ⊢
      exact .inr (.inl (.of_mem hitem rfl rfl))
  | bodyWrite itemId w =>
    rcases mem_updateItem_cases hmatter hitem with ⟨old, hold, hid, hm, rfl⟩ | ⟨hold, hne⟩
    · cases hnull : w.nullArtifact with
      | true =>
        refine .inl ?_
        unfold BodyWrite.apply
        rw [hnull]
        rfl
      | false =>
        rcases BodyWrite.kept_of_sound hnull (hsound old hold hid hm hnull) with hnone | ⟨hart, htext, hhtml⟩
        · exact .inl hnone
        · have hids : (w.apply old).id = old.id ∧ (w.apply old).matterId = old.matterId := by
            unfold BodyWrite.apply
            rw [hnull]
            exact ⟨rfl, rfl⟩
          refine .inr (.inl ⟨old, hold, hids.1.symm, hids.2.symm, hart.symm, htext.symm, hhtml.symm, ?_, rfl⟩)
          simp [ArtifactCall.advance, hnull]
    · refine .inr (.inl (.of_mem hold (count_append_other (fun x hx => ?_) hne) rfl))
      split at hx
      · exact List.mem_singleton.mp hx
      · cases hx
  | loaded g =>
    have hstore : (ArtifactCall.advance matter now st (.loaded g)).1 = st := by
      rw [ArtifactCall.advance]
      split
      · rfl
      · rfl
    rw [hstore] at hitem ⊢
    exact .inr (.inl (.of_mem hitem rfl rfl))
  | listed g rows nulls => exact .inr (.inl (.of_mem hitem rfl rfl))
  | marked g rows nulls =>
    by_cases hranges : g.activeRanges rows = []
    · -- nothing to redact: the artifact is cleared
      have hresult : (g.result rows now).redactedTextSha256 = none ∧
          (g.result rows now).itemId = g.itemId := by
        unfold Regeneration.result
        rw [hranges]
        exact ⟨rfl, rfl⟩
      rw [ArtifactCall.advance, if_pos (by rw [hresult.1]; rfl)] at hitem ⊢
      rcases mem_updateItem_cases hmatter hitem with ⟨old, hold, hid, hm, rfl⟩ | ⟨hold, hne⟩
      · exact .inl hresult.1
      · rw [hresult.2] at hne
        exact .inr (.inl (.of_mem hold (count_append_other (fun x hx => List.mem_singleton.mp hx) hne) rfl))
    · have hresult : (g.result rows now).redactedTextSha256
            = some (sha256Hex (bytes (buildRedactedText g.body (g.activeRanges rows))))
          ∧ (g.result rows now).itemId = g.itemId := by
        unfold Regeneration.result
        rw [if_neg fun h => hranges (List.length_eq_zero_iff.mp h)]
        exact ⟨rfl, rfl⟩
      obtain ⟨hnulls, hread⟩ := hsound hranges
      rw [ArtifactCall.advance, if_neg (by rw [hresult.1]; simp)] at hitem ⊢
      rcases mem_updateItem_cases hmatter hitem with ⟨old, hold, hid, hm, rfl⟩ | ⟨hold, hne⟩
      · rw [hresult.2] at hid
        obtain ⟨htext, hhtml, hdisplay⟩ := hread old hold hid hm
        refine .inr (.inr ⟨hid, hresult.1, ?_, rfl, hnulls, rfl, ?_⟩)
        · show resolveRegenerateBodySource old.textSha256 old.htmlSha256 _ = _
          rw [← resolveRegenerateBodySource_congr hdisplay, htext, hhtml]
          exact g.source_eq
        · show Function.update st.listedAfter g.itemId nulls old.id = nulls
          rw [hid, update_self]
      · rw [hresult.2] at hne
        exact .inr (.inl (.of_mem hold rfl (update_of_ne hne _ _)))

end Items

/-! ## Runs -/

section Runs

variable {matter now : String} {st : ArtifactStore} {call : ArtifactCall}

theorem ArtifactFresh.of_kept {st' : ArtifactStore} {item old : Item} (h : ArtifactFresh matter st.db old)
    (hid : old.id = item.id) (hart : old.redactedTextSha256 = item.redactedTextSha256)
    (htext : old.textSha256 = item.textSha256) (hhtml : old.htmlSha256 = item.htmlSha256)
    (hrows : RowsKept matter st st' item.id) (hcount : st'.nulls.count item.id = st.nulls.count item.id) :
    ArtifactFresh matter st'.db item := by
  intro sha hsha
  obtain ⟨body, digest, ranges, hbody, hdigest, hranges⟩ := h sha (hart ▸ hsha)
  have hcurrent : item.currentBody = old.currentBody := by
    unfold Item.currentBody
    rw [htext, hhtml]
  refine ⟨body, digest, ranges, hcurrent.trans hbody, hdigest, fun row hrow hitem hmatter => ?_⟩
  obtain ⟨r, hr, hritem, hrmatter, hsame⟩ := hrows.rows hcount row hrow hitem hmatter
  rw [hsame body digest]
  exact hranges r hr (hritem.trans hid.symm) hrmatter

theorem fresh_of_justStored {st' : ArtifactStore} {item : Item} (h : JustStored st st' item call)
    (ht : call.Tracks matter st) :
    ArtifactFresh matter st'.db item ∧ st'.listedAfter item.id = st'.nulls.count item.id := by
  cases call with
  | redaction p => cases h
  | bodyWrite itemId w => cases h
  | loaded g => cases h
  | listed g rows nulls => cases h
  | marked g rows nulls =>
    obtain ⟨hid, hart, hbody, hrows, hnulls, hsame, hlisted⟩ := h
    refine ⟨fun sha hsha => ?_, by rw [hlisted, hsame, hid, hnulls]⟩
    rw [hart, Option.mem_some_iff] at hsha
    refine ⟨g.body, g.sourceDigest, g.activeRanges rows, hbody, hsha.symm,
      fun row hrow hitem hmatter hactive => ?_⟩
    rw [hrows] at hrow
    obtain ⟨r, hr, hsameRegion⟩ := ht.2 hnulls row hrow (hitem.trans hid) hmatter
    rw [hsameRegion g.body g.sourceDigest] at hactive ⊢
    have hresolved : resolveRedactionAgainstBody r g.body g.sourceDigest ∈ g.resolved rows :=
      List.mem_map.mpr ⟨r, hr, rfl⟩
    exact List.mem_map.mpr ⟨_, List.mem_filter.mpr ⟨hresolved, decide_eq_true hactive⟩, rfl⟩

theorem ArtifactsCurrent.advance (h : ArtifactsCurrent matter st) (ht : call.Tracks matter st)
    (hsound : call.Sound matter st) : ArtifactsCurrent matter (call.advance matter now st).1 where
  fresh item hitem hmatter := by
    rcases item_advance hsound hitem hmatter with hnone | hkept | hstored
    · intro sha hsha
      rw [hnone] at hsha
      cases hsha
    · obtain ⟨old, hold, hid, hm, hart, htext, hhtml, hcount, -⟩ := hkept
      exact (h.fresh old hold (hm.trans hmatter)).of_kept hid hart htext hhtml
        (rowsKept_advance call item.id) hcount
    · exact (fresh_of_justStored hstored ht).1
  notOverwritten item hitem hmatter hart := by
    rcases item_advance hsound hitem hmatter with hnone | hkept | hstored
    · exact absurd hnone hart
    · obtain ⟨old, hold, hid, hm, hart', -, -, hcount, hlisted⟩ := hkept
      have hsame := h.notOverwritten old hold (hm.trans hmatter) (hart' ▸ hart)
      rw [hcount, hlisted, ← hid]
      exact hsame
    · exact (fresh_of_justStored hstored ht).2

structure ArtifactState.Inv (matter : String) (s : ArtifactState) : Prop where
  current : ArtifactsCurrent matter s.store
  tracks : ∀ call ∈ s.pending, call.Tracks matter s.store

theorem ArtifactRequest.tracks_read {request : ArtifactRequest} {db : MatterDb}
    (h : request.read matter db = .ok call) : call.Tracks matter st := by
  cases request with
  | redaction _ | update _ _ =>
    obtain ⟨_, _, heq⟩ := bind_eq_ok.mp h
    cases heq
    trivial
  | regenerate itemId displayBody =>
    obtain ⟨_, _, heq⟩ := bind_eq_ok.mp h
    cases heq
    trivial

theorem ArtifactState.Inv.step {s : ArtifactState} {a : ArtifactAction} (h : s.Inv matter)
    (hsound : s.StepSound matter a) : (s.step matter a).Inv matter := by
  cases a with
  | read request =>
    cases hread : request.read matter s.store.db with
    | error e =>
      rw [ArtifactState.step, hread]
      exact h
    | ok call =>
      rw [ArtifactState.step, hread]
      refine ⟨h.current, fun c hc => ?_⟩
      rcases List.mem_append.mp hc with hc | hc
      · exact h.tracks c hc
      · rw [List.mem_singleton.mp hc]
        exact ArtifactRequest.tracks_read hread
  | advance i now =>
    cases hcall : s.pending[i]? with
    | none =>
      rw [ArtifactState.step, hcall]
      exact h
    | some call =>
      have hmem : call ∈ s.pending := mem_of_getElem? hcall
      have hcurrent : ArtifactsCurrent matter (call.advance matter now s.store).1 :=
        h.current.advance (h.tracks call hmem) (hsound call hcall)
      have hothers : ∀ c ∈ s.pending, c.Tracks matter (call.advance matter now s.store).1 :=
        fun c hc => (h.tracks c hc).mono (rowsKept_advance call)
      rw [ArtifactState.step, hcall]
      dsimp only
      cases hrest : (call.advance matter now s.store).2 with
      | none => exact ⟨hcurrent, fun c hc => hothers c (mem_of_mem_eraseIdx hc)⟩
      | some next =>
        refine ⟨hcurrent, fun c hc => ?_⟩
        rcases mem_or_eq_of_mem_set hc with hc | rfl
        · exact hothers c hc
        · exact tracks_advance (h.tracks call hmem) hrest
  | abort i => exact ⟨h.current, fun c hc => h.tracks c (mem_of_mem_eraseIdx hc)⟩

/-- **Current artifacts over all interleavings.** -/
theorem artifactsCurrent_of_guarded (h : ArtifactsCurrent matter st) (actions : List ArtifactAction)
    (hguarded : Guarded (ArtifactState.step matter) (ArtifactState.StepSound matter) ⟨st, []⟩ actions) :
    Along (ArtifactState.step matter) (fun s => ArtifactsCurrent matter s.store) ⟨st, []⟩ actions := by
  have hinv : ArtifactState.Inv matter ⟨st, []⟩ := ⟨h, fun call hcall => by cases hcall⟩
  exact (Along.of_guarded (fun s a hs hsound => hs.step hsound) hinv hguarded).mono fun s hs => hs.current

end Runs

end Model

/-! ## A create between the reads and the store -/

section Race

/-- A matter whose items all show the text `ab`. -/
local instance : BodySource := ⟨fun _ => .error "not found", fun _ => "ab"⟩

local instance : Sha256 := .fips

def halfRedacted : MatterDb where
  items := [{ id := "i", matterId := "m", redactionCount := 1 }]
  itemRedactions := [
    { id := "a", itemId := "i", matterId := "m", startUtf8 := 0, endUtf8 := 1, exactQuote := "a"
      bodyDigest := "d", reason := .pii, status := .active, createdAt := "t", updatedAt := "t" }]

def redactSecond : ArtifactRequest :=
  .redaction (.createRedaction { itemId := "i", startUtf8 := 1, endUtf8 := 2, exactQuote := "b"
                                 displayBody := "ab", bodyDigest := "d", reason := "pii" } "b" "t")

theorem artifactsCurrent_halfRedacted : ArtifactsCurrent "m" { db := halfRedacted } := by
  constructor
  · intro item hitem _ sha hsha
    rw [List.mem_singleton.mp hitem] at hsha
    cases hsha
  · intro item hitem _ hart
    rw [List.mem_singleton.mp hitem] at hart
    exact absurd rfl hart

theorem artifactsCurrent_of_guarded_create :
    Along (ArtifactState.step "m") (fun s => ArtifactsCurrent "m" s.store) ⟨{ db := halfRedacted }, []⟩
      [.read redactSecond, .advance 0 "t", .read (.regenerate "i" "ab"), .advance 0 "t",
        .advance 0 "t", .advance 0 "t"] :=
  artifactsCurrent_of_guarded artifactsCurrent_halfRedacted
    [.read redactSecond, .advance 0 "t", .read (.regenerate "i" "ab"), .advance 0 "t", .advance 0 "t",
      .advance 0 "t"] (by decide +kernel)

/-- It comes between the listing of a regeneration and its store: the artifact keeps the
character. -/
theorem artifactsCurrent_broken_by_create :
    let s := [ArtifactAction.read (.regenerate "i" "ab"), .advance 0 "t", .read redactSecond, .advance 1 "t",
      .advance 0 "t", .advance 0 "t"].foldl (ArtifactState.step "m") ⟨{ db := halfRedacted }, []⟩
    ArtifactsCurrent "m" { db := halfRedacted }
      ∧ s.store.db.items.map Item.redactedTextSha256 = [some (sha256Hex (bytes "[REDACTED]b"))]
      ∧ s.store.db.items.map Item.redactionCount = [2] ∧ ¬ ArtifactsCurrent "m" s.store := by
  refine ⟨artifactsCurrent_halfRedacted, by decide +kernel, by decide +kernel, fun h => ?_⟩
  have hlisted := h.notOverwritten
  revert hlisted
  decide +kernel

end Race

end MatterCore
