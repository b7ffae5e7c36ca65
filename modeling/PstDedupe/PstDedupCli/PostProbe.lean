import PstDedupe.PstDedupCli.Scan

/-!
# Rows and candidates after the probe

A row, its candidate and its answer meet under the key of file name and NID.
-/

namespace PstDedupCli

open DedupEngine List
open Rust (HashMap RandomState)

/-! ## The messages of a scan -/

/-- A recoverable message at the end of the probe: its buffered row, the reasons it had before the
probe, and its candidate. -/
structure Scanned where
  row : ReportRow
  pre : List IntegrityReason
  candidate : RecoverableScanItem

namespace Scanned

def skipReason (m : Scanned) : Option IntegrityReason := newProbeFail m.pre m.candidate

def key (m : Scanned) : String × Nat := keyOfRow m.row

end Scanned

def reconcile [Rust.Target] [RandomState] (ctx : GroupingContext) (files : List FileScanStats)
    (scanned : List Scanned) : PostProbe :=
  strictPostProbe ctx files (scanned.map Scanned.row) (scanned.map Scanned.pre)
    (scanned.map Scanned.candidate)

def kept (scanned : List Scanned) : List Scanned := scanned.filter fun m => m.skipReason.isNone

def answers [Rust.Target] (ctx : GroupingContext) (scanned : List Scanned) :
    List (RecoverableScanItem × DedupResult) :=
  let ordered := ((kept scanned).map Scanned.candidate).insertionSort
    fun a b => a.scanOrder ≤ b.scanOrder
  ordered.zip (feed ctx (messageRefsOf (scanned.map Scanned.row)) ordered).2

/-- Where a message was found, and whether the probe makes strict mode skip it. -/
structure Found (files : List FileScanStats) where
  pst : Fin files.length
  nid : Nat
  skipped : Bool

namespace Found

variable {files : List FileScanStats}

def key (f : Found files) : String × Nat := (files[f.pst].name, f.nid)

structure Holds (f : Found files) (m : Scanned) : Prop where
  index : m.row.message.pstIndex = f.pst
  rowName : m.row.message.pstName = files[f.pst].name
  rowNid : m.row.message.nid = f.nid
  path : m.candidate.locus.sourcePath = files[f.pst].path
  name : m.candidate.locus.sourcePst = files[f.pst].name
  nid : m.candidate.locus.nid = f.nid
  skipped : m.skipReason.isSome = f.skipped

end Found

/-- Every emitted row is that of a message the probe left, with the integrity of its own candidate
and the answer computed for it; no row names a skipped message as its original; and the duplicates
of the files add up to those of the rebuild. -/
structure KeepsApart [Rust.Target] [RandomState] (ctx : GroupingContext) (files : List FileScanStats)
    (scanned : List Scanned) : Prop where
  own : ∀ row ∈ (reconcile ctx files scanned).rows, ∃ m ∈ kept scanned, row.message = m.row.message ∧
    row.integrity = m.candidate.integrity ∧ (m.candidate, row.result) ∈ answers ctx scanned
  originals : ∀ row ∈ (reconcile ctx files scanned).rows, ∀ original tier boundBy,
    row.result = .duplicateOf original tier boundBy →
    ∀ m ∈ scanned, m.skipReason.isSome → m.row.message ≠ original
  sums : ((reconcile ctx files scanned).files.map FileScanStats.duplicates).sum
    = (reconcile ctx files scanned).rebuild.index.duplicateCount

/-- No message that survives the probe shares its file name and NID with another message. -/
def NoClash {files : List FileScanStats} (found : List (Found files)) : Prop :=
  found.Pairwise fun f g => f.skipped = false ∨ g.skipped = false → f.key ≠ g.key

/-! ## The strict branch, read off -/

theorem strictReasons_eq (scanned : List Scanned) :
    strictReasons (scanned.map Scanned.pre) (scanned.map Scanned.candidate)
      = scanned.map fun m => (m.candidate, m.skipReason) := by
  apply ext_getElem?
  intro i
  unfold strictReasons
  rw [getElem?_map, getElem?_zipIdx, getElem?_map, getElem?_map]
  cases hi : scanned[i]? with
  | none => rfl
  | some m =>
    show some (m.candidate, newProbeFail ((scanned.map Scanned.pre).getD (0 + i) []) m.candidate) = _
    rw [Nat.zero_add, getD_eq_getElem?_getD, getElem?_map, hi]
    rfl

section

variable [Rust.Target] {ctx : GroupingContext} {scanned : List Scanned}

theorem map_fst_answers (ctx : GroupingContext) (scanned : List Scanned) :
    ((answers ctx scanned).map Prod.fst).Perm ((kept scanned).map Scanned.candidate) := by
  unfold answers
  rw [map_fst_zip (le_of_eq (feed_answered ctx _ _).length.symm)]
  exact perm_insertionSort _ _

theorem map_snd_answers (ctx : GroupingContext) (scanned : List Scanned) :
    (answers ctx scanned).map Prod.snd = (feed ctx (messageRefsOf (scanned.map Scanned.row))
      (((kept scanned).map Scanned.candidate).insertionSort
        fun a b => a.scanOrder ≤ b.scanOrder)).2 := by
  unfold answers
  rw [map_snd_zip (le_of_eq (feed_answered ctx _ _).length)]

theorem mem_answers {p : RecoverableScanItem × DedupResult} (h : p ∈ answers ctx scanned) :
    ∃ m ∈ kept scanned, m.candidate = p.1 :=
  List.mem_map.mp ((map_fst_answers ctx scanned).mem_iff.mp (mem_map_of_mem h))

theorem exists_answer {m : Scanned} (h : m ∈ kept scanned) : ∃ r, (m.candidate, r) ∈ answers ctx scanned := by
  have hmem := (map_fst_answers ctx scanned).mem_iff.mpr (mem_map_of_mem h)
  obtain ⟨⟨c, r⟩, hp, rfl⟩ := List.mem_map.mp hmem
  exact ⟨r, hp⟩

variable [RandomState] {files : List FileScanStats}

theorem reconcile_kept (ctx : GroupingContext) (files : List FileScanStats) (scanned : List Scanned) :
    (reconcile ctx files scanned).candidates = (kept scanned).map Scanned.candidate := by
  show ((strictReasons _ _).filter _).map Prod.fst = _
  rw [strictReasons_eq, filter_map, map_map]
  rfl

theorem reconcile_rebuild (ctx : GroupingContext) (files : List FileScanStats)
    (scanned : List Scanned) : (reconcile ctx files scanned).rebuild = rebuildDedupResultsWithCtx
      ((kept scanned).map Scanned.candidate) (messageRefsOf (scanned.map Scanned.row)) ctx := by
  rw [← reconcile_kept ctx files]
  rfl

theorem reconcile_results (ctx : GroupingContext) (files : List FileScanStats)
    (scanned : List Scanned) : (reconcile ctx files scanned).rebuild.results = HashMap.insertAll
      ((answers ctx scanned).map fun p => (keyOfCandidate p.1, p.2)) ∅ := by
  rw [reconcile_rebuild, HashMap.insertAll, foldl_map]
  rfl

theorem reconcile_rows (ctx : GroupingContext) (files : List FileScanStats) (scanned : List Scanned) :
    (reconcile ctx files scanned).rows = (scanned.map Scanned.row).filterMap
      (rewriteRow (candIntegrity ((kept scanned).map Scanned.candidate))
        (some (reconcile ctx files scanned).rebuild.results) true) := by
  rw [← reconcile_kept ctx files]
  rfl

/-- The keys of the messages: row and candidate agree, the file is on record, and a surviving
message shares its key with no other. -/
structure KeysApart (files : List FileScanStats) (scanned : List Scanned) : Prop where
  agree : ∀ m ∈ scanned, keyOfCandidate m.candidate = m.key
  listed : ∀ m ∈ scanned, ∃ f ∈ files, f.name = m.key.1
  apart : scanned.Pairwise fun m n => m.skipReason.isNone ∨ n.skipReason.isNone → m.key ≠ n.key

omit [Rust.Target] [RandomState] in
theorem KeysApart.eq_of_key (h : KeysApart files scanned) {m n : Scanned} (hm : m ∈ kept scanned)
    (hn : n ∈ scanned) (hkey : m.key = n.key) : m = n := by
  obtain ⟨hin, hnone⟩ := List.mem_filter.mp hm
  have hsymm : Std.Symm fun m n : Scanned =>
      m.skipReason.isNone ∨ n.skipReason.isNone → m.key ≠ n.key :=
    ⟨fun m n hmn hor hkey => hmn hor.symm hkey.symm⟩
  by_contra hne
  exact h.apart.forall hin hn hne (Or.inl hnone) hkey

theorem KeysApart.rewriteRow_eq_some (h : KeysApart files scanned) {m : Scanned} (hm : m ∈ scanned)
    {row : ReportRow}
    (hrow : rewriteRow (candIntegrity ((kept scanned).map Scanned.candidate))
      (some (reconcile ctx files scanned).rebuild.results) true m.row = some row) :
    m ∈ kept scanned ∧ row.message = m.row.message ∧ row.integrity = m.candidate.integrity ∧
      (m.candidate, row.result) ∈ answers ctx scanned := by
  unfold rewriteRow at hrow
  split at hrow
  · rename_i integ hget
    -- the candidate found under the key is the message's own
    obtain ⟨c, hc, hpair⟩ := List.mem_map.mp (HashMap.mem_of_get_insertAll hget)
    obtain ⟨n, hn, rfl⟩ := List.mem_map.mp hc
    obtain ⟨hkey, rfl⟩ := Prod.mk.inj hpair
    obtain rfl : n = m := by
      apply h.eq_of_key hn hm
      rw [← h.agree n (List.mem_filter.mp hn).1, hkey]
      rfl
    -- and so is the answer
    obtain ⟨r, hr⟩ : ∃ r, (n.candidate, r) ∈ answers ctx scanned := exists_answer hn
    have hsome : keyOfRow n.row ∈ ((answers ctx scanned).map
        fun p => (keyOfCandidate p.1, p.2)).map Prod.fst := by
      rw [map_map]
      exact List.mem_map.mpr ⟨_, hr, hkey⟩
    obtain ⟨result, hresult⟩ := HashMap.isSome_get_insertAll hsome
    rw [← reconcile_results ctx files] at hresult
    have hanswer := hresult
    rw [reconcile_results] at hanswer
    obtain ⟨p, hp, hpair⟩ := List.mem_map.mp (HashMap.mem_of_get_insertAll hanswer)
    obtain ⟨hpkey, rfl⟩ := Prod.mk.inj hpair
    obtain ⟨n', hn', hcand⟩ := mem_answers hp
    obtain rfl : n' = n := by
      apply h.eq_of_key hn' hm
      rw [← h.agree n' (List.mem_filter.mp hn').1, hcand, hpkey]
      rfl
    simp only [Option.bind_some, hresult, Option.getD_some] at hrow
    obtain rfl := Option.some.inj hrow
    refine ⟨hn, rfl, rfl, ?_⟩
    rw [hcand]
    exact hp
  · cases hrow

omit [Rust.Target] [RandomState] in
theorem KeysApart.messageRefOf_eq (h : KeysApart files scanned) {m : Scanned} (hm : m ∈ kept scanned) :
    messageRefOf (messageRefsOf (scanned.map Scanned.row)) m.candidate = m.row.message := by
  have hin := (List.mem_filter.mp hm).1
  have hkey : (m.candidate.locus.sourcePst, m.candidate.locus.nid) = m.key := h.agree m hin
  have hsome : m.key ∈ ((scanned.map Scanned.row).map fun row => (keyOfRow row, row.message)).map
      Prod.fst := by
    rw [map_map, map_map]
    exact mem_map_of_mem (f := Scanned.key) hin
  obtain ⟨message, hget⟩ := HashMap.isSome_get_insertAll hsome
  obtain ⟨row, hrow, hpair⟩ := List.mem_map.mp (HashMap.mem_of_get_insertAll hget)
  obtain ⟨n, hn, rfl⟩ := List.mem_map.mp hrow
  obtain ⟨hnkey, rfl⟩ := Prod.mk.inj hpair
  obtain rfl : m = n := h.eq_of_key hm hn hnkey.symm
  unfold messageRefOf messageRefsOf
  rw [hkey, hget]
  rfl

omit [RandomState] in
theorem KeysApart.original_survives (h : KeysApart files scanned)
    {p : RecoverableScanItem × DedupResult} (hp : p ∈ answers ctx scanned) {original : MessageRef}
    {tier : DedupTier} {boundBy : BoundBy} (hr : p.2 = .duplicateOf original tier boundBy) :
    ∃ m ∈ kept scanned, original = m.row.message := by
  have hmem := (of_mem_zip hp).2
  rw [hr] at hmem
  obtain ⟨c, hc, horiginal⟩ := (feed_answered ctx (messageRefsOf (scanned.map Scanned.row)) _).names
    original tier boundBy hmem
  rw [mem_insertionSort] at hc
  obtain ⟨m, hm, rfl⟩ := List.mem_map.mp hc
  exact ⟨m, hm, horiginal.trans (h.messageRefOf_eq hm)⟩

end

/-! ## Counting the duplicates of a file -/

theorem map_updateFirst {α β : Type} {p : α → Bool} {f : α → α} {g : α → β}
    (hfg : ∀ x, g (f x) = g x) (xs : List α) : (updateFirst p f xs).map g = xs.map g := by
  induction xs with
  | nil => rfl
  | cons x xs ih =>
    rw [updateFirst]
    split
    · rw [map_cons, map_cons, hfg]
    · rw [map_cons, map_cons, ih]

theorem sum_updateFirst {p : FileScanStats → Bool} {files : List FileScanStats}
    (h : ∃ f ∈ files, p f = true) :
    ((updateFirst p (fun f => { f with duplicates := f.duplicates + 1 }) files).map
      FileScanStats.duplicates).sum = (files.map FileScanStats.duplicates).sum + 1 := by
  induction files with
  | nil =>
    obtain ⟨f, hf, _⟩ := h
    cases hf
  | cons x xs ih =>
    rw [updateFirst]
    by_cases hx : p x = true
    · rw [if_pos hx, map_cons, sum_cons, map_cons, sum_cons]
      show x.duplicates + 1 + _ = _
      omega
    · rw [if_neg hx, map_cons, sum_cons, ih, map_cons, sum_cons]
      · omega
      · obtain ⟨f, hf, hpf⟩ := h
        rcases List.mem_cons.mp hf with rfl | hf
        · exact absurd hpf hx
        · exact ⟨f, hf, hpf⟩

theorem sum_countDuplicates {entries : List (Sigma fun _ : String × Nat => DedupResult)}
    {files : List FileScanStats} (h : ∀ e ∈ entries, e.2.isDuplicate →
    ∃ f ∈ files, f.name = e.1.1) : ((entries.foldl (fun files entry =>
      if entry.2.isDuplicate then
        updateFirst (fun f => f.name == entry.1.1 || Rust.endsWith f.path entry.1.1)
          (fun f => { f with duplicates := f.duplicates + 1 }) files
      else files) files).map FileScanStats.duplicates).sum
      = (files.map FileScanStats.duplicates).sum + entries.countP fun e => e.2.isDuplicate := by
  induction entries generalizing files with
  | nil => rfl
  | cons entry rest ih =>
    rw [foldl_cons, countP_cons]
    by_cases hdup : entry.2.isDuplicate = true
    · rw [if_pos hdup, if_pos hdup, ih, sum_updateFirst]
      · omega
      · obtain ⟨f, hf, hname⟩ := h entry mem_cons_self hdup
        exact ⟨f, hf, by rw [hname, beq_self_eq_true, Bool.true_or]⟩
      · -- counting leaves the names alone
        intro e he hd
        obtain ⟨f, hf, hname⟩ := h e (mem_cons_of_mem _ he) hd
        have hin : f.name ∈ files.map FileScanStats.name := mem_map_of_mem hf
        rw [← map_updateFirst (p := fun f => f.name == entry.1.1 || Rust.endsWith f.path entry.1.1)
          (f := fun f => { f with duplicates := f.duplicates + 1 }) (fun f => rfl) files] at hin
        obtain ⟨f', hf', hf'name⟩ := List.mem_map.mp hin
        exact ⟨f', hf', hf'name.trans hname⟩
    · rw [if_neg hdup, if_neg hdup, ih fun e he => h e (mem_cons_of_mem _ he)]
      omega

theorem names_applyStrictSkips (skips : List SkipRecord) (files : List FileScanStats) :
    (skips.foldl applyStrictSkip files).map FileScanStats.name = files.map FileScanStats.name := by
  induction skips generalizing files with
  | nil => rfl
  | cons skip rest ih =>
    rw [foldl_cons, ih, applyStrictSkip]
    exact map_updateFirst (by intro f; rfl) files

section

variable [Rust.Target] [RandomState] {ctx : GroupingContext} {scanned : List Scanned}
  {files : List FileScanStats}

theorem KeysApart.sums (h : KeysApart files scanned) :
    ((reconcile ctx files scanned).files.map FileScanStats.duplicates).sum
      = (reconcile ctx files scanned).rebuild.index.duplicateCount := by
  have hkept : ((kept scanned).map Scanned.key).Nodup := by
    rw [Nodup, pairwise_map]
    exact (h.apart.filter _).imp_of_mem fun hm _ hne => hne (Or.inl (List.mem_filter.mp hm).2)
  have hkeys : (((answers ctx scanned).map fun p => (keyOfCandidate p.1, p.2)).map Prod.fst).Nodup := by
    rw [map_map]
    have hagree : (kept scanned).map (keyOfCandidate ∘ Scanned.candidate)
        = (kept scanned).map Scanned.key :=
      map_congr_left fun m hm => h.agree m (List.mem_filter.mp hm).1
    have hperm := (map_fst_answers ctx scanned).map keyOfCandidate
    rw [map_map, map_map, hagree] at hperm
    exact hperm.nodup_iff.mpr hkept
  have hentries := HashMap.entries_insertAll hkeys
  rw [← reconcile_results ctx files] at hentries
  have hvisit :=
    (RandomState.visit_perm (reconcile ctx files scanned).rebuild.results.entries).trans hentries
  show ((recomputePerFileDupFromResults _ (reconcile ctx files scanned).rebuild.results).map _).sum = _
  unfold recomputePerFileDupFromResults
  rw [sum_countDuplicates]
  · have hzero : ∀ fs : List FileScanStats,
        ((fs.map fun f => { f with duplicates := 0 }).map FileScanStats.duplicates).sum = 0 := by
      intro fs
      induction fs with
      | nil => rfl
      | cons f fs ih => exact (Nat.zero_add _).trans ih
    have hcount : (answers ctx scanned).countP (fun p => p.2.isDuplicate)
        = ((answers ctx scanned).map Prod.snd).countP DedupResult.isDuplicate := by
      rw [countP_map]
      rfl
    rw [hzero, Nat.zero_add, hvisit.countP_eq, map_map, countP_map, reconcile_rebuild]
    refine hcount.trans ?_
    rw [map_snd_answers]
    exact (feed_answered ctx _ _).count.symm
  · intro e he _
    have hmem := hvisit.mem_iff.mp he
    rw [map_map] at hmem
    obtain ⟨p, hp, rfl⟩ := List.mem_map.mp hmem
    obtain ⟨m, hm, hcand⟩ := mem_answers hp
    have hin := (List.mem_filter.mp hm).1
    obtain ⟨f, hf, hname⟩ := h.listed m hin
    -- the skips change tallies, not names
    have hname' : f.name ∈ ((((strictReasons (scanned.map Scanned.pre)
        (scanned.map Scanned.candidate)).filterMap fun p => p.2.map (skipRecordOf p.1)).foldl
          applyStrictSkip files).map fun f => { f with duplicates := 0 }).map FileScanStats.name := by
      rw [map_map]
      show f.name ∈ (foldl applyStrictSkip files _).map FileScanStats.name
      rw [names_applyStrictSkips]
      exact mem_map_of_mem hf
    obtain ⟨f', hf', hf'name⟩ := List.mem_map.mp hname'
    refine ⟨f', hf', hf'name.trans (hname.trans ?_)⟩
    rw [← h.agree m hin, hcand]
    rfl

theorem KeysApart.keepsApart (h : KeysApart files scanned) : KeepsApart ctx files scanned where
  own := by
    intro row hrow
    rw [reconcile_rows] at hrow
    obtain ⟨old, hold, heq⟩ := List.mem_filterMap.mp hrow
    obtain ⟨m, hm, rfl⟩ := List.mem_map.mp hold
    exact ⟨m, h.rewriteRow_eq_some hm heq⟩
  originals := by
    intro row hrow original tier boundBy hr m hm hskip hsame
    rw [reconcile_rows] at hrow
    obtain ⟨old, hold, heq⟩ := List.mem_filterMap.mp hrow
    obtain ⟨n, hn, rfl⟩ := List.mem_map.mp hold
    obtain ⟨_, _, _, hanswer⟩ := h.rewriteRow_eq_some hn heq
    obtain ⟨s, hs, horiginal⟩ := h.original_survives hanswer hr
    -- the surviving message and the skipped one would share their key
    have hkey : s.key = m.key := by
      unfold Scanned.key keyOfRow
      rw [hsame, horiginal]
    obtain rfl : s = m := h.eq_of_key hs hm hkey
    have hnone := (List.mem_filter.mp hs).2
    rw [Option.isNone_iff_eq_none] at hnone
    rw [hnone] at hskip
    cases hskip
  sums := h.sums

end

/-! ## When nothing is mixed up -/

theorem pairwise_of_forall₂ {α β : Type} {R : α → β → Prop} {P : α → α → Prop} {Q : β → β → Prop}
    {xs : List α} {ys : List β} (h : Forall₂ R xs ys) (hxs : xs.Pairwise P)
    (hPQ : ∀ x y x' y', R x y → R x' y' → P x x' → Q y y') : ys.Pairwise Q := by
  induction h with
  | nil => exact .nil
  | @cons x y xs ys hxy htail ih =>
    rw [pairwise_cons] at hxs ⊢
    refine ⟨fun y' hy' => ?_, ih hxs.2⟩
    obtain ⟨i, hi⟩ := List.mem_iff_getElem?.mp hy'
    have hlt : i < xs.length := htail.length_eq ▸ (List.getElem?_eq_some_iff.mp hi).1
    obtain ⟨hlt', rfl⟩ := List.getElem?_eq_some_iff.mp hi
    exact hPQ _ _ _ _ hxy (htail.get hlt hlt') (hxs.1 _ (getElem_mem hlt))

theorem Found.Holds.key_eq {files : List FileScanStats} {f : Found files} {m : Scanned}
    (h : f.Holds m) : m.key = f.key ∧ keyOfCandidate m.candidate = f.key :=
  ⟨Prod.ext h.rowName h.rowNid, Prod.ext h.name h.nid⟩

theorem KeysApart.of_holds {files : List FileScanStats} {found : List (Found files)}
    {scanned : List Scanned} (h : Forall₂ Found.Holds found scanned) (hclash : NoClash found) :
    KeysApart files scanned := by
  have hfound : ∀ m ∈ scanned, ∃ f : Found files, f.Holds m := by
    intro m hm
    obtain ⟨i, hi⟩ := List.mem_iff_getElem?.mp hm
    obtain ⟨hlt, rfl⟩ := List.getElem?_eq_some_iff.mp hi
    exact ⟨_, h.get (h.length_eq ▸ hlt) hlt⟩
  refine ⟨fun m hm => ?_, fun m hm => ?_, ?_⟩
  · obtain ⟨f, hf⟩ := hfound m hm
    exact hf.key_eq.2.trans hf.key_eq.1.symm
  · obtain ⟨f, hf⟩ := hfound m hm
    exact ⟨files[f.pst], getElem_mem f.pst.2, hf.rowName.symm⟩
  · apply pairwise_of_forall₂ h hclash
    intro f m g n hf hg hfg hnone
    rw [hf.key_eq.1, hg.key_eq.1]
    apply hfg
    rw [← hf.skipped, ← hg.skipped]
    exact hnone.imp Option.isSome_eq_false_iff.mpr Option.isSome_eq_false_iff.mpr

def markedMessage {files : List FileScanStats} (k : Nat) (f : Found files) : Scanned where
  row :=
    { message :=
        { pstIndex := f.pst
          pstName := files[f.pst].name
          folderPath := ""
          nid := f.nid
          subject := Nat.repr k
          submitTime := none
          sender := ""
          size := 0 }
      result := .unique
      integrity := {} }
  pre := []
  candidate :=
    { locus := ⟨files[f.pst].path, files[f.pst].name, "", f.nid, false⟩
      messageIdNorm := none
      contentHash := default
      integrity :=
        { degraded := true
          degradedReasons := replicate k .dataTruncated
            ++ if f.skipped then [.attachStreamCrc] else [] }
      scanOrder := k }

theorem skipReason_markedMessage {files : List FileScanStats} (k : Nat) (f : Found files) :
    (markedMessage k f).skipReason = if f.skipped then some .attachStreamCrc else none := by
  show find? _ (replicate k IntegrityReason.dataTruncated
    ++ if f.skipped then [.attachStreamCrc] else []) = _
  rw [find?_append, List.find?_eq_none.mpr, Option.none_or]
  · cases f.skipped <;> rfl
  · intro r hr
    rw [eq_of_mem_replicate hr]
    simp [IntegrityReason.isAttachProbeFail]

theorem holds_markedMessage {files : List FileScanStats} (k : Nat) (f : Found files) :
    f.Holds (markedMessage k f) := by
  refine ⟨rfl, rfl, rfl, rfl, rfl, rfl, ?_⟩
  rw [skipReason_markedMessage]
  cases f.skipped <;> rfl

def markedMessages {files : List FileScanStats} (found : List (Found files)) : List Scanned :=
  found.zipIdx.map fun p => markedMessage p.2 p.1

theorem mem_markedMessages {files : List FileScanStats} {found : List (Found files)} {m : Scanned} :
    m ∈ markedMessages found ↔ ∃ k f, found[k]? = some f ∧ m = markedMessage k f := by
  unfold markedMessages
  constructor
  · intro hm
    obtain ⟨⟨f, k⟩, hp, rfl⟩ := List.mem_map.mp hm
    exact ⟨k, f, List.mem_zipIdx_iff_getElem?.mp hp, rfl⟩
  · rintro ⟨k, f, hk, rfl⟩
    exact List.mem_map.mpr ⟨(f, k), List.mem_zipIdx_iff_getElem?.mpr hk, rfl⟩

theorem holds_markedMessages {files : List FileScanStats} (found : List (Found files)) :
    Forall₂ Found.Holds found (markedMessages found) := by
  rw [forall₂_iff_get]
  refine ⟨by simp [markedMessages], fun i hi hi' => ?_⟩
  simp only [markedMessages, get_eq_getElem, getElem_map, getElem_zipIdx]
  exact holds_markedMessage _ _

theorem mem_kept_markedMessages {files : List FileScanStats} {found : List (Found files)}
    {m : Scanned} : m ∈ kept (markedMessages found) ↔
      ∃ k f, found[k]? = some f ∧ f.skipped = false ∧ m = markedMessage k f := by
  unfold kept
  rw [mem_filter, mem_markedMessages]
  constructor
  · rintro ⟨⟨k, f, hk, rfl⟩, hnone⟩
    refine ⟨k, f, hk, ?_, rfl⟩
    rw [skipReason_markedMessage] at hnone
    cases hskip : f.skipped with
    | false => rfl
    | true =>
      rw [hskip] at hnone
      cases hnone
  · rintro ⟨k, f, hk, hskip, rfl⟩
    refine ⟨⟨k, f, hk, rfl⟩, ?_⟩
    rw [skipReason_markedMessage, hskip]
    rfl

section

variable [Rust.Target] [RandomState]

theorem not_keepsApart_of_clash (ctx : GroupingContext) {files : List FileScanStats}
    {found : List (Found files)} {i j : Nat} {f g : Found files} (hi : found[i]? = some f)
    (hj : found[j]? = some g) (hij : i ≠ j) (hkept : f.skipped = false ∨ g.skipped = false)
    (hkey : f.key = g.key) : ¬ KeepsApart ctx files (markedMessages found) := by
  intro happart
  -- some surviving message stands under the key
  have hsome : f.key ∈ ((((kept (markedMessages found)).map Scanned.candidate).map
      fun c => (keyOfCandidate c, c.integrity))).map Prod.fst := by
    rw [map_map, map_map]
    rcases hkept with hf | hg
    · exact List.mem_map.mpr ⟨_, mem_kept_markedMessages.mpr ⟨i, f, hi, hf, rfl⟩, rfl⟩
    · exact List.mem_map.mpr ⟨_, mem_kept_markedMessages.mpr ⟨j, g, hj, hg, rfl⟩, hkey.symm⟩
  obtain ⟨integ, hget⟩ := HashMap.isSome_get_insertAll hsome
  obtain ⟨c, hc, hpair⟩ := List.mem_map.mp (HashMap.mem_of_get_insertAll hget)
  obtain ⟨n, hn, rfl⟩ := List.mem_map.mp hc
  obtain ⟨_, rfl⟩ := Prod.mk.inj hpair
  obtain ⟨p, h, _, hskip, rfl⟩ := mem_kept_markedMessages.mp hn
  -- the row of any other message under the key takes its integrity
  have hother : ∀ x e, found[x]? = some e → e.key = f.key → x = p := by
    intro x e hx hekey
    obtain ⟨row, hrow, hold, hnew⟩ : ∃ row, rewriteRow
        (candIntegrity ((kept (markedMessages found)).map Scanned.candidate))
        (some (reconcile ctx files (markedMessages found)).rebuild.results) true (markedMessage x e).row
          = some row ∧ row.message = (markedMessage x e).row.message ∧
        row.integrity = (markedMessage p h).candidate.integrity := by
      unfold rewriteRow
      rw [show (candIntegrity ((kept (markedMessages found)).map Scanned.candidate)).get
        (keyOfRow (markedMessage x e).row) = some (markedMessage p h).candidate.integrity from
        (congrArg _ hekey).trans hget]
      exact ⟨_, rfl, rfl, rfl⟩
    have hmem : row ∈ (reconcile ctx files (markedMessages found)).rows := by
      rw [reconcile_rows]
      exact List.mem_filterMap.mpr ⟨_, mem_map_of_mem (mem_markedMessages.mpr ⟨x, e, hx, rfl⟩), hrow⟩
    obtain ⟨m, hm, hmessage, hinteg, _⟩ := happart.own row hmem
    rw [hold] at hmessage
    rw [hnew] at hinteg
    obtain ⟨q, e', _, hskip', rfl⟩ := mem_kept_markedMessages.mp hm
    have hxq : x = q := Rust.repr_injective (congrArg MessageRef.subject hmessage)
    have hlen := congrArg (fun integ => integ.degradedReasons.length) hinteg
    simp only [markedMessage, hskip, hskip', Bool.false_eq_true, if_false, append_nil,
      length_replicate] at hlen
    omega
  exact hij ((hother i f hi rfl).trans (hother j g hj hkey.symm).symm)

/-- **When reconciliation keeps messages apart.** Whatever the messages contain, rows, candidates
and answers stay with their messages exactly when no surviving message shares its file name and NID
with another message. -/
theorem strictPostProbe_keepsApart_iff (ctx : GroupingContext) {files : List FileScanStats}
    (found : List (Found files)) :
    (∀ scanned, Forall₂ Found.Holds found scanned → KeepsApart ctx files scanned) ↔ NoClash found := by
  constructor
  · intro hall
    unfold NoClash
    rw [pairwise_iff_getElem]
    intro i j hi hj hij hkept hkey
    exact not_keepsApart_of_clash ctx (getElem?_eq_getElem hi) (getElem?_eq_getElem hj)
      (Nat.ne_of_lt hij) hkept hkey (hall _ (holds_markedMessages found))
  · intro hclash scanned hholds
    exact (KeysApart.of_holds hholds hclash).keepsApart

end

def sameNameFiles : List FileScanStats :=
  [⟨"/a/mail.pst", "mail.pst", .opened, 1, 1, 0, 0, ∅⟩, ⟨"/b/mail.pst", "mail.pst", .opened, 1, 1,
    0, 0, ∅⟩, ⟨"/c/other.pst", "other.pst", .opened, 1, 1, 1, 0, ∅⟩]

def sameNameFound : List (Found sameNameFiles) :=
  [⟨⟨0, by decide⟩, 0x200024, false⟩, ⟨⟨1, by decide⟩, 0x200024, true⟩, ⟨⟨2, by decide⟩, 0x200044, false⟩]

/-- The message of `/b` fails the probe; the one in the third mailbox is a copy of the one in
`/a`. -/
def sameNameScan : List Scanned :=
  (sameNameFound.zip [some "<1@x>", some "<2@x>", some "<1@x>"]).zipIdx.map fun ((f, mid), k) =>
    let m := markedMessage k f
    { m with candidate := { m.candidate with messageIdNorm := mid } }

theorem strictPostProbe_mixes_sameName :
    Forall₂ Found.Holds sameNameFound sameNameScan ∧
      ¬ @KeepsApart .unix .inOrder {} sameNameFiles sameNameScan := by
  refine ⟨?_, fun h => ?_⟩
  · exact .cons ⟨rfl, rfl, rfl, rfl, rfl, rfl, by decide⟩ (.cons ⟨rfl, rfl, rfl, rfl, rfl,
      rfl, by decide⟩ (.cons ⟨rfl, rfl, rfl, rfl, rfl, rfl, by decide⟩ .nil))
  · let _ : Rust.Target := .unix
    let _ : RandomState := .inOrder
    -- the last row calls the skipped message its original
    have hrow : (reconcile {} sameNameFiles sameNameScan).rows[2]?.map ReportRow.result
        = some (.duplicateOf (markedMessage 1 sameNameFound[1]).row.message .messageId .messageId) := by
      decide +kernel
    obtain ⟨row, hget, hresult⟩ := Option.map_eq_some_iff.mp hrow
    have hskipped : sameNameScan[1].skipReason.isSome := by decide
    exact h.originals row (mem_of_getElem? hget) _ _ _ hresult sameNameScan[1]
      (getElem_mem _) hskipped rfl

end PstDedupCli
