import PstDedupe.DedupEngine.KeepSetRuns

/-!
# Which peer a finalize run takes (`finalize_with_materialize_opts` in `keepset.rs`)

Where loading a message depends on its locus only, the walk over a group is a choice among its
ranked members: the first that is complete, or else the first that can be loaded.
-/

namespace DedupEngine

open List Option Prod

open Rust (RandomState)
open Foundations (setAll usable failures chosen answers completes upTo)

variable {σ : Type}

/-! ## The choice of a group -/

section Choice

variable [Rust.Target] (f : MessageLocus → Answer) (r : ResolvedKeepSet)

omit [Rust.Target] in
def answerOf (i : Nat) : Answer := f (itemAt r.items i).locus

def peersOf (group : List Nat) : List Nat := rankOrder r.items r.rankCtx group

omit [Rust.Target] in
def materializes (i : Nat) : Bool := answers (answerOf f r) i

omit [Rust.Target] in
def isIncomplete (i : Nat) : Bool :=
  match answerOf f r i with
  | .ok answer => isAttachIncomplete (keptMessage r.items i answer)
  | .error _ => false

omit [Rust.Target] in
def accepts (promote : Bool) (i : Nat) : Bool := materializes f r i && !(promote && isIncomplete f r i)

def winnerOf (promote : Bool) (group : List Nat) : Option Nat :=
  ((peersOf r group).find? (accepts f r promote)).or ((peersOf r group).find? (materializes f r))

def triedPeers (promote : Bool) (group : List Nat) : List Nat := upTo (accepts f r promote) (peersOf r group)

omit [Rust.Target] in
/-- The ledger rows of a member that gave way to `winner`. -/
def skipRecords (winner i : Nat) : List SoftSkipAttachRecord :=
  match answerOf f r i with
  | .ok answer =>
    softSkipRecordsForMsg (keptMessage r.items i answer) (itemAt r.items winner).locus.sourcePath
      (itemAt r.items winner).locus.nid
  | .error _ => []

/-- The ledger rows of a group: those of the incomplete members that were asked and are not the
winner. -/
def recordsOf (promote : Bool) (group : List Nat) : List SoftSkipAttachRecord :=
  match winnerOf f r promote group with
  | some winner =>
    ((triedPeers f r promote group).filter fun i => promote && isIncomplete f r i && i !=
      winner).flatMap (skipRecords f r winner)
  | none => []

variable {f r}

omit [Rust.Target] in
theorem accepts_eq (promote : Bool) :
    accepts f r promote = completes (answerOf f r) (completeAnswer promote r.items) := by
  funext i
  unfold accepts materializes isIncomplete completes answers completeAnswer
  cases answerOf f r i <;> rfl

omit [Rust.Target] in
theorem materializes_of_accepts {promote : Bool} {i : Nat} (h : accepts f r promote i = true) :
    materializes f r i = true := by
  unfold accepts at h
  exact (Bool.and_eq_true _ _ ▸ h).1

def logOf (f : MessageLocus → Answer) (r : ResolvedKeepSet) (promote : Bool) (group : List Nat) :
    List (Nat × Answer) :=
  (triedPeers f r promote group).map fun i => (i, answerOf f r i)

variable {promote : Bool} {group : List Nat}

theorem firstComplete_logOf : (firstComplete promote r.items (logOf f r promote group)).map fst
    = (peersOf r group).find? (accepts f r promote) := by
  unfold firstComplete logOf
  rw [Foundations.find_usable_map, ← accepts_eq]
  exact Foundations.find_upTo _ _

theorem isSome_firstComplete_logOf : (firstComplete promote r.items (logOf f r promote group)).isSome
    = ((peersOf r group).find? (accepts f r promote)).isSome := by
  rw [← firstComplete_logOf, isSome_map]

theorem usable_logOf : (usable (logOf f r promote group)).map fst
    = (triedPeers f r promote group).filter (materializes f r) := Foundations.map_fst_usable _

theorem failures_logOf : failures (logOf f r promote group)
    = (triedPeers f r promote group).filter fun i => !materializes f r i := Foundations.failures_map _

theorem chosen_logOf : (chosen (completeAnswer promote r.items) (logOf f r promote group)).map fst
    = winnerOf f r promote group := by
  have hfirst : (firstComplete promote r.items (logOf f r promote group)).map fst
      = (peersOf r group).find? (accepts f r promote) := firstComplete_logOf
  unfold winnerOf chosen
  unfold firstComplete at hfirst
  cases hfind : (peersOf r group).find? (accepts f r promote) with
  | some w =>
    rw [hfind] at hfirst
    obtain ⟨p, hp, rfl⟩ := Option.map_eq_some_iff.mp hfirst
    rw [hp]
    rfl
  | none =>
    rw [hfind, map_eq_none_iff] at hfirst
    have hall : triedPeers f r promote group = peersOf r group := Foundations.upTo_eq_self hfind
    rw [hfirst, none_or, none_or, ← head?_map, usable_logOf, hall, head?_filter]

/-! ## The walk of a group -/

theorem incomplete_of_tried {i winner : Nat} (hi : i ∈ triedPeers f r promote group)
    (hw : winnerOf f r promote group = some winner) (hne : i ≠ winner) :
    materializes f r i = (promote && isIncomplete f r i) := by
  have hnot : accepts f r promote i = false := by
    rcases List.mem_append.mp hi with hi | hi
    · have hpassed := mem_takeWhile_imp hi
      rwa [Bool.not_eq_true'] at hpassed
    · have hfirst : (peersOf r group).find? (accepts f r promote) = some i := Option.mem_toList.mp hi
      unfold winnerOf at hw
      rw [hfirst] at hw
      exact absurd (Option.some.inj hw) hne
  unfold accepts at hnot
  cases hm : materializes f r i with
  | false =>
    have hno : isIncomplete f r i = false := by
      unfold materializes answers at hm
      unfold isIncomplete
      cases ha : answerOf f r i with
      | ok answer =>
        rw [ha] at hm
        cases hm
      | error e => rfl
    rw [hno, Bool.and_false]
  | true =>
    rw [hm, Bool.true_and, Bool.not_eq_false'] at hnot
    exact hnot.symm

omit [Rust.Target] in
theorem flatMap_keptUsable (winner : Nat) (is : List Nat) :
    ((keptUsable r.items (is.map fun i => (i, answerOf f r i))).filter fun p => p.1 != winner).flatMap
        (fun p => softSkipRecordsForMsg p.2 (itemAt r.items winner).locus.sourcePath
        (itemAt r.items winner).locus.nid)
      = (is.filter fun i => materializes f r i && i != winner).flatMap (skipRecords f r winner) := by
  unfold keptUsable
  induction is with
  | nil => rfl
  | cons i is ih =>
    rw [map_cons, filter_cons]
    unfold materializes answers at *
    cases ha : answerOf f r i with
    | error e =>
      rw [Foundations.usable_error]
      exact ih
    | ok answer =>
      have hrows : skipRecords f r winner i = softSkipRecordsForMsg (keptMessage r.items i answer)
          (itemAt r.items winner).locus.sourcePath (itemAt r.items winner).locus.nid := by
        unfold skipRecords
        rw [ha]
      rw [Foundations.usable_ok, map_cons, filter_cons]
      dsimp only
      rw [show (Except.ok answer : Answer).isOk = true from rfl, Bool.true_and]
      split
      · rw [flatMap_cons, flatMap_cons, ih, hrows]
      · exact ih

section Walks

variable {w w' : Walk σ}

theorem Walked.skipped_filter (h : Walked promote r.items 0 w (logOf f r promote group) w')
    (hw : w.softSkipped = []) {winner : Nat} (hwinner : winnerOf f r promote group = some winner) :
    w'.softSkipped.filter (fun p => p.1 != winner)
      = (keptUsable r.items (logOf f r promote group)).filter fun p => p.1 != winner := by
  have hmap : (keptUsable r.items (logOf f r promote group)).map fst
      = (triedPeers f r promote group).filter (materializes f r) := by
    rw [← usable_logOf]
    unfold keptUsable
    rw [List.map_map]
    rfl
  generalize hkept : keptUsable r.items (logOf f r promote group) = kept at hmap
  rw [h.skipped_eq, hw, hkept]
  unfold winnerOf at hwinner
  cases hfind : (peersOf r group).find? (accepts f r promote) with
  | some x =>
    rw [hfind] at hwinner
    obtain rfl : x = winner := Option.some.inj hwinner
    have hfirst : (firstComplete promote r.items (logOf f r promote group)).isSome
        = ((peersOf r group).find? (accepts f r promote)).isSome := isSome_firstComplete_logOf
    rw [hfind] at hfirst
    obtain ⟨q, hq⟩ := Option.isSome_iff_exists.mp hfirst
    rw [hq]
    dsimp only
    rw [nil_append]
    -- the winner is the last that was asked
    have hlast : kept.map fst = ((peersOf r group).takeWhile fun i => !accepts f r promote i).filter
        (materializes f r) ++ [x] := by
      rw [hmap]
      unfold triedPeers upTo
      rw [hfind, toList_some, filter_append,
        filter_cons_of_pos (materializes_of_accepts (find?_some hfind)), filter_nil]
    obtain ⟨kept₁, kept₂, rfl, -, hone⟩ := List.map_eq_append_iff.mp hlast
    obtain ⟨p, rest, rfl, hp, hrest⟩ := List.map_eq_cons_iff.mp hone
    obtain rfl := List.map_eq_nil_iff.mp hrest
    rw [dropLast_concat, filter_append, filter_cons_of_neg (by rw [hp]; simp), filter_nil, append_nil]
  | none =>
    rw [hfind, none_or] at hwinner
    have hfirst : (firstComplete promote r.items (logOf f r promote group)).isSome
        = ((peersOf r group).find? (accepts f r promote)).isSome := isSome_firstComplete_logOf
    rw [hfind] at hfirst
    have hnil : firstComplete promote r.items (logOf f r promote group) = none := by simpa using hfirst
    rw [hnil]
    dsimp only
    rw [nil_append]
    -- the winner is the first that was asked and could be loaded
    have hhead : kept.map fst = (peersOf r group).filter (materializes f r) := by
      rw [hmap]
      unfold triedPeers
      rw [Foundations.upTo_eq_self hfind]
    cases kept with
    | nil => rfl
    | cons p rest =>
      have hp : p.1 = winner := by
        rw [← head?_filter, ← hhead] at hwinner
        exact Option.some.inj hwinner
      rw [tail_cons, filter_cons_of_neg (by rw [hp]; simp)]

theorem Walked.reason_accepted (h : Walked promote r.items 0 w (logOf f r promote group) w')
    (hhard : w.hadHardFail = false) (hsoft : w.hadSoftSkip = false) {x : Nat}
    (hx : (peersOf r group).find? (accepts f r promote) = some x) :
    w'.promoteReason ≠ some .modeCFallbackAllPeersIncomplete ∧
      (w'.promoteReason = none ↔ (peersOf r group).head? = some x) := by
  have hfirst : (firstComplete promote r.items (logOf f r promote group)).isSome = true := by
    rw [isSome_firstComplete_logOf, hx]
    rfl
  have hmodeC : w'.modeCFallback = false := by
    rw [h.modeC_eq, Option.isNone_eq_false_iff.mpr hfirst, Bool.false_and]
  have hattempt := h.attempt_eq hfirst
  have htried : triedPeers f r promote group
      = ((peersOf r group).takeWhile fun i => !accepts f r promote i) ++ [x] := by
    unfold triedPeers upTo
    rw [hx]
    rfl
  have hlength : w'.acceptedAttempt
      = ((peersOf r group).takeWhile fun i => !accepts f r promote i).length := by
    have hlog : (logOf f r promote group).length = (triedPeers f r promote group).length := length_map _
    rw [htried, length_append, length_singleton] at hlog
    omega
  have hhead : ((peersOf r group).takeWhile fun i => !accepts f r promote i) = [] ↔
      (peersOf r group).head? = some x := by
    cases hpeers : peersOf r group with
    | nil =>
      rw [hpeers] at hx
      cases hx
    | cons y ys =>
      rw [hpeers, find?_cons] at hx
      rw [takeWhile_cons]
      cases hy : accepts f r promote y with
      | true =>
        rw [hy] at hx
        exact ⟨fun _ => hx, fun _ => rfl⟩
      | false =>
        rw [hy] at hx
        refine ⟨nofun, fun hyx => ?_⟩
        obtain rfl : y = x := Option.some.inj hyx
        rw [find?_some hx] at hy
        cases hy
  have hreason : w'.promoteReason = none ↔ w'.promoted = false := by
    unfold Walk.promoteReason
    rw [hmodeC]
    cases w'.promoted with
    | false => exact ⟨fun _ => rfl, fun _ => rfl⟩
    | true => cases w'.hadSoftSkip <;> exact ⟨nofun, nofun⟩
  refine ⟨?_, ?_⟩
  · unfold Walk.promoteReason
    rw [hmodeC]
    cases w'.promoted <;> cases w'.hadSoftSkip <;> nofun
  · rw [hreason, ← hhead]
    unfold Walk.promoted
    constructor
    · intro hno
      simp only [Bool.or_eq_false_iff, decide_eq_false_iff_not, Nat.not_lt, Nat.le_zero] at hno
      rw [hlength] at hno
      exact eq_nil_of_length_eq_zero hno.1.1
    · intro hnil
      rw [hnil, nil_append] at htried
      have hmaterializes := materializes_of_accepts (find?_some hx)
      have husable : (usable (logOf f r promote group)).length = 1 := by
        rw [← length_map (f := fst), usable_logOf, htried, filter_cons_of_pos hmaterializes]
        rfl
      have hfailures : failures (logOf f r promote group) = [] := by
        rw [failures_logOf, htried, filter_cons_of_neg (by rw [hmaterializes]; decide), filter_nil]
      rw [h.soft_eq hfirst, h.hard_eq, hlength, hnil, husable, hfailures, hhard, hsoft]
      rfl

theorem Walked.reason_fallback (h : Walked promote r.items 0 w (logOf f r promote group) w')
    (hw : w.softSkipped = []) (hnone : (peersOf r group).find? (accepts f r promote) = none)
    {x : Nat} (hx : (peersOf r group).find? (materializes f r) = some x) :
    w'.promoteReason = some .modeCFallbackAllPeersIncomplete := by
  have hfirst : (firstComplete promote r.items (logOf f r promote group)).isNone = true := by
    have hsome : (firstComplete promote r.items (logOf f r promote group)).isSome
        = ((peersOf r group).find? (accepts f r promote)).isSome := isSome_firstComplete_logOf
    rw [hnone] at hsome
    simpa using hsome
  have hpick : (pick promote r.items w.softSkipped (logOf f r promote group)).isSome = true := by
    rw [hw, pick_nil, isSome_map, ← isSome_map (f := fst), chosen_logOf]
    unfold winnerOf
    rw [hnone, hx]
    rfl
  unfold Walk.promoteReason
  rw [h.modeC_eq, hfirst, hpick]
  rfl

end Walks

/-- What promotion makes of a group, from the answers for its members. -/
structure GroupOutcome (f : MessageLocus → Answer) (r : ResolvedKeepSet) (promote : Bool)
    (verdict : Nat → Verdict)
    (group : List Nat) : Prop where
  /-- The first member that the walk stops at wins; it has no promotion reason iff it is first of
  all. -/
  accepted : ∀ w, (peersOf r group).find? (accepts f r promote) = some w →
    (∀ i ∈ group, (verdict i).role = .unique ↔ i = w) ∧
      (verdict w).promoteReason ≠ some .modeCFallbackAllPeersIncomplete ∧
      ((verdict w).promoteReason = none ↔ (peersOf r group).head? = some w)
  fallback : (peersOf r group).find? (accepts f r promote) = none →
    ∀ w, (peersOf r group).find? (materializes f r) = some w →
      (∀ i ∈ group, (verdict i).role = .unique ↔ i = w) ∧
        (verdict w).promoteReason = some .modeCFallbackAllPeersIncomplete
  failed : (peersOf r group).find? (materializes f r) = none → ∀ i ∈ group,
    (verdict i).role = .materializeFailed

theorem mem_of_mem_peersOf {i : Nat} (h : i ∈ peersOf r group) : i ∈ group :=
  (rankOrder_perm _ _ _).mem_iff.mp h

theorem mem_of_winnerOf {w : Nat} (h : winnerOf f r promote group = some w) : w ∈ group ∧
    materializes f r w = true := by
  rcases Option.or_eq_some_iff.mp h with h | ⟨-, h⟩
  · exact ⟨mem_of_mem_peersOf (mem_of_find?_eq_some h), materializes_of_accepts (find?_some h)⟩
  · exact ⟨mem_of_mem_peersOf (mem_of_find?_eq_some h), find?_some h⟩

end Choice

section Step

variable [Rust.Target] {c : Client σ} {f : MessageLocus → Answer} {opts : MaterializeFinalizeOpts}
  {s s' : Session σ}
  {gIdx : Nat} {group : List Nat}

/-- The client answers by the place alone. -/
def Client.LoadsBy (c : Client σ) (f : MessageLocus → Answer) : Prop :=
  ∀ env locus, (c.materialize env locus).2 = f locus

theorem groupRun_logOf (hc : c.LoadsBy f) :
    (groupRun c opts s group).2 = logOf f s.resolved opts.promoteOnAttachFail group := by
  unfold groupRun logOf triedPeers
  rw [accepts_eq]
  have hask : ∀ env, ∀ i ∈ peersOf s.resolved group,
      (askPeer c s.resolved.items env i).2 = answerOf f s.resolved i :=
    fun env i _ => hc env _
  exact Foundations.askUntil_stateless hask _

theorem finalizeGroup_writes (hne : group ≠ [])
    (h : finalizeGroup c opts s gIdx group = (s', .ok ())) : let w := groupWalk c opts s group
    (∀ x, w.finalWinner = some x →
      s'.resolved.verdicts = setAll group (finalVerdict s.resolved.boundBy w.failed x w.promoted
        w.promoteReason) s.resolved.verdicts ∧
        s'.resolved.softSkipAttachRecords = s.resolved.softSkipAttachRecords ++
          (w.softSkipped.filter fun p => p.1 != x).flatMap
          fun p => softSkipRecordsForMsg p.2 (itemAt w.items x).locus.sourcePath (itemAt w.items x).locus.nid) ∧
      (w.finalWinner = none →
        s'.resolved.verdicts = setAll group (fun _ => { role := .materializeFailed }) s.resolved.verdicts ∧
          s'.resolved.softSkipAttachRecords = s.resolved.softSkipAttachRecords) := by
  intro w
  have hempty : group.isEmpty = false := by simpa using hne
  unfold finalizeGroup at h
  simp only [hempty, Bool.false_eq_true, if_false] at h
  split at h
  next x hx =>
    have hwx : w.finalWinner = some x := hx
    refine ⟨fun y hy => ?_, fun hnone => absurd (hwx.symm.trans hnone) (some_ne_none x)⟩
    obtain rfl : x = y := Option.some.inj (hwx.symm.trans hy)
    split at h
    · cases h
    · split at h
      · cases h
      · cases h
        exact ⟨rfl, rfl⟩
  next hnone =>
    have hwnone : w.finalWinner = none := hnone
    refine ⟨fun y hy => absurd (hwnone.symm.trans hy) (some_ne_none y).symm, fun _ => ?_⟩
    cases h
    exact ⟨rfl, rfl⟩

theorem finalizeGroup_outcome (hc : c.LoadsBy f) (hne : group ≠ []) (hnodup : group.Nodup)
    (hlt : ∀ i ∈ group, i < s.resolved.verdicts.length)
    (hitems : ∀ i ∈ group, i < s.resolved.items.length)
    (h : finalizeGroup c opts s gIdx group = (s', .ok ())) :
    GroupOutcome f s.resolved opts.promoteOnAttachFail s'.resolved.verdict group ∧
      s'.resolved.softSkipAttachRecords
        = s.resolved.softSkipAttachRecords ++ recordsOf f s.resolved opts.promoteOnAttachFail group := by
  obtain ⟨-, hwalk⟩ := groupWalk_spec c opts s hnodup
  rw [groupRun_logOf hc] at hwalk
  obtain ⟨hwon, hlost⟩ := finalizeGroup_writes hne h
  have hwinner : (groupWalk c opts s group).finalWinner
      = winnerOf f s.resolved opts.promoteOnAttachFail group := by
    rw [hwalk.winner_of_nil rfl, chosen_logOf]
  -- a winner is unique, and no other member is
  have hunique : ∀ w, winnerOf f s.resolved opts.promoteOnAttachFail group = some w →
      (∀ i ∈ group, (s'.resolved.verdict i).role = .unique ↔ i = w) ∧
        (s'.resolved.verdict w).promoteReason = (groupWalk c opts s group).promoteReason := by
    intro w hw
    obtain ⟨hmem, hloads⟩ := mem_of_winnerOf hw
    have hverdicts := (hwon w (hwinner.trans hw)).1
    have hnot : w ∉ (groupWalk c opts s group).failed := by
      rw [hwalk.failed_eq, nil_append, failures_logOf, mem_filter]
      rintro ⟨-, hfails⟩
      rw [hloads] at hfails
      cases hfails
    refine ⟨fun i hi => ?_, ?_⟩
    · rw [verdict_of_setAll hverdicts hi (hlt i hi), role_finalVerdict]
      refine ⟨And.left, ?_⟩
      rintro rfl
      exact ⟨rfl, hnot⟩
    · rw [verdict_of_setAll hverdicts hmem (hlt w hmem)]
      unfold finalVerdict
      rw [if_neg (by simpa using hnot), if_pos rfl]
  refine ⟨⟨fun w hw => ?_, fun hnone w hw => ?_, fun hnone i hi => ?_⟩, ?_⟩
  · have hwin : winnerOf f s.resolved opts.promoteOnAttachFail group = some w := by
      unfold winnerOf
      rw [hw]
      rfl
    obtain ⟨hrole, hreason⟩ := hunique w hwin
    rw [hreason]
    exact ⟨hrole, hwalk.reason_accepted rfl rfl hw⟩
  · have hwin : winnerOf f s.resolved opts.promoteOnAttachFail group = some w := by
      unfold winnerOf
      rw [hnone]
      exact hw
    obtain ⟨hrole, hreason⟩ := hunique w hwin
    rw [hreason]
    exact ⟨hrole, hwalk.reason_fallback rfl hnone hw⟩
  · have hwin : winnerOf f s.resolved opts.promoteOnAttachFail group = none := by
      unfold winnerOf
      rw [hnone, or_none, find?_eq_none]
      exact fun j hj hacc => List.find?_eq_none.mp hnone j hj (materializes_of_accepts hacc)
    rw [verdict_of_setAll (hlost (hwinner.trans hwin)).1 hi (hlt i hi)]
  · cases hwin : winnerOf f s.resolved opts.promoteOnAttachFail group with
    | none =>
      unfold recordsOf
      rw [(hlost (hwinner.trans hwin)).2, hwin, append_nil]
    | some w =>
      have hlocus : (itemAt (groupWalk c opts s group).items w).locus = (itemAt s.resolved.items w).locus := by
        have happlied : (groupWalk c opts s group).items
            = applyAnswers s.resolved.items (logOf f s.resolved opts.promoteOnAttachFail group) :=
              hwalk.items_eq
        rw [happlied]
        by_cases hok : ∃ answer, (w, .ok answer) ∈ logOf f s.resolved opts.promoteOnAttachFail group
        · obtain ⟨answer, hanswer⟩ := hok
          have hlog : ((logOf f s.resolved opts.promoteOnAttachFail group).map fst).Nodup := by
            rw [← groupRun_logOf (c := c) hc]
            exact groupRun_nodup hnodup
          rw [itemAt_applyAnswers_of_ok hlog (hitems w (mem_of_winnerOf hwin).1) hanswer,
            mergeSoftFidelity_locus]
        · rw [itemAt_applyAnswers_of_not_ok fun answer hanswer => hok ⟨answer, hanswer⟩]
      rw [(hwon w (hwinner.trans hwin)).2, hlocus, hwalk.skipped_filter rfl hwin]
      unfold logOf recordsOf
      rw [flatMap_keptUsable, hwin]
      dsimp only
      have hfilter : ((triedPeers f s.resolved opts.promoteOnAttachFail group).filter
          fun i => materializes f s.resolved i && i != w)
          = (triedPeers f s.resolved opts.promoteOnAttachFail group).filter fun i =>
              opts.promoteOnAttachFail && isIncomplete f s.resolved i && i != w := by
        refine filter_congr fun i hi => ?_
        by_cases hother : i = w
        · rw [hother, bne_self_eq_false, Bool.and_false, Bool.and_false]
        · rw [incomplete_of_tried hi hwin hother]
      rw [hfilter]

end Step

/-! ## The run -/

section Run

variable [Rust.Target] {c : Client σ} {f : MessageLocus → Answer} {opts : MaterializeFinalizeOpts}
  {r₀ r : ResolvedKeepSet}
  {s s' : Session σ} {k : Nat} {promote : Bool} {group : List Nat} {verdict verdict' : Nat → Verdict}

structure SameMembers (r r₀ : ResolvedKeepSet) (group : List Nat) : Prop where
  items : ∀ i ∈ group, itemAt r.items i = itemAt r₀.items i
  rankCtx : r.rankCtx = r₀.rankCtx

theorem SameMembers.peersOf_eq (h : SameMembers r r₀ group) : peersOf r group = peersOf r₀ group := by
  unfold peersOf rankOrder Rust.sortBy
  rw [h.rankCtx, ← List.map_id (insertionSort _ group)]
  refine (map_insertionSort _ _ id group fun a ha b hb => ?_).trans (by rw [List.map_id])
  dsimp only [id]
  rw [h.items a ha, h.items b hb]

omit [Rust.Target] in
theorem SameMembers.answerOf_eq (h : SameMembers r r₀ group) {i : Nat} (hi : i ∈ group) :
    answerOf f r i = answerOf f r₀ i := by
  unfold answerOf
  rw [h.items i hi]

omit [Rust.Target] in
theorem SameMembers.isIncomplete_eq (h : SameMembers r r₀ group) {i : Nat} (hi : i ∈ group) :
    isIncomplete f r i = isIncomplete f r₀ i := by
  unfold isIncomplete keptMessage
  rw [h.answerOf_eq hi, h.items i hi]

omit [Rust.Target] in
theorem SameMembers.materializes_eq (h : SameMembers r r₀ group) {i : Nat} (hi : i ∈ group) :
    materializes f r i = materializes f r₀ i := by
  unfold materializes answers
  rw [h.answerOf_eq hi]

omit [Rust.Target] in
theorem SameMembers.accepts_eq (h : SameMembers r r₀ group) {i : Nat} (hi : i ∈ group) :
    accepts f r promote i = accepts f r₀ promote i := by
  unfold accepts
  rw [h.materializes_eq hi, h.isIncomplete_eq hi]

theorem SameMembers.find_accepts_eq (h : SameMembers r r₀ group) :
    (peersOf r group).find? (accepts f r promote) = (peersOf r₀ group).find? (accepts f r₀ promote) := by
  rw [h.peersOf_eq]
  exact find?_congr fun i hi => h.accepts_eq (mem_of_mem_peersOf hi)

theorem SameMembers.find_materializes_eq (h : SameMembers r r₀ group) :
    (peersOf r group).find? (materializes f r) = (peersOf r₀ group).find? (materializes f r₀) := by
  rw [h.peersOf_eq]
  exact find?_congr fun i hi => h.materializes_eq (mem_of_mem_peersOf hi)

theorem SameMembers.recordsOf_eq (h : SameMembers r r₀ group) :
    recordsOf f r promote group = recordsOf f r₀ promote group := by
  have hwinner : winnerOf f r promote group = winnerOf f r₀ promote group := by
    unfold winnerOf
    rw [h.find_accepts_eq, h.find_materializes_eq]
  have htried : triedPeers f r promote group = triedPeers f r₀ promote group := by
    unfold triedPeers
    rw [h.peersOf_eq]
    exact Foundations.upTo_congr fun i hi => h.accepts_eq (mem_of_mem_peersOf hi)
  have hmem : ∀ i ∈ triedPeers f r₀ promote group, i ∈ group :=
    fun i hi => mem_of_mem_peersOf (Foundations.mem_of_mem_upTo hi)
  unfold recordsOf
  rw [hwinner, htried]
  cases hw : winnerOf f r₀ promote group with
  | none => rfl
  | some w =>
    dsimp only
    have hfilter : (triedPeers f r₀ promote group).filter (fun i => promote && isIncomplete f r i && i != w)
        = (triedPeers f r₀ promote group).filter fun i => promote && isIncomplete f r₀ i && i != w :=
      filter_congr fun i hi => by rw [h.isIncomplete_eq (hmem i hi)]
    rw [hfilter]
    refine flatMap_congr fun i hi => ?_
    have hi := hmem i (mem_of_mem_filter hi)
    unfold skipRecords keptMessage
    rw [h.answerOf_eq hi, h.items i hi, h.items w (mem_of_winnerOf hw).1]

theorem GroupOutcome.congr (h : GroupOutcome f r promote verdict group) (hsame : SameMembers r r₀ group)
    (hverdict : ∀ i ∈ group, verdict' i = verdict i) : GroupOutcome f r₀ promote verdict' group := by
  have hunique : ∀ w, (∀ i ∈ group, (verdict i).role = .unique ↔ i = w) → ∀ i ∈ group,
      (verdict' i).role = .unique ↔ i = w :=
    fun w hw i hi => by rw [hverdict i hi, hw i hi]
  constructor
  · intro w hw
    have hmem : w ∈ group := mem_of_mem_peersOf (mem_of_find?_eq_some hw)
    rw [← hsame.find_accepts_eq] at hw
    obtain ⟨hrole, hreason, hnone⟩ := h.accepted w hw
    rw [hverdict w hmem, ← hsame.peersOf_eq]
    exact ⟨hunique w hrole, hreason, hnone⟩
  · intro hnone w hw
    have hmem : w ∈ group := mem_of_mem_peersOf (mem_of_find?_eq_some hw)
    rw [← hsame.find_accepts_eq] at hnone
    rw [← hsame.find_materializes_eq] at hw
    obtain ⟨hrole, hreason⟩ := h.fallback hnone w hw
    rw [hverdict w hmem]
    exact ⟨hunique w hrole, hreason⟩
  · intro hnone i hi
    rw [← hsame.find_materializes_eq] at hnone
    rw [hverdict i hi]
    exact h.failed hnone i hi

structure WinnerInv (c : Client σ) (f : MessageLocus → Answer) (opts : MaterializeFinalizeOpts)
    (r₀ : ResolvedKeepSet) (k : Nat)
    (s : Session σ) : Prop where
  run : RunInv c opts r₀ k s
  outcome : ∀ j < k, ∀ g, r₀.groups[j]? = some g →
    GroupOutcome f r₀ opts.promoteOnAttachFail s.resolved.verdict g
  records : s.resolved.softSkipAttachRecords
    = (r₀.groups.take k).flatMap (recordsOf f r₀ opts.promoteOnAttachFail)

theorem WinnerInv.step (hc : c.LoadsBy f) (hwf : r₀.WellFormed) (h : WinnerInv c f opts r₀ k s)
    (hg : r₀.groups[k]? = some group) (hstep : finalizeGroup c opts s k group = (s', .ok ())) :
    WinnerInv c f opts r₀ (k + 1) s' := by
  have hne := hwf.partition.nonempty group (mem_of_getElem? hg)
  have hnodup := hwf.group_nodup hg
  have hlt : ∀ i ∈ group, i < r₀.items.length := fun i hi => hwf.group_lt hg hi
  have hsame : SameMembers s.resolved r₀ group := ⟨fun i hi => h.run.itemAt_eq hwf hg hi, h.run.rankCtx_eq⟩
  have hdone := groupStep_of_ok hne hnodup hstep
  obtain ⟨houtcome, hrecords⟩ := finalizeGroup_outcome hc hne hnodup
    (fun i hi => by rw [h.run.verdicts_length]; exact hlt i hi)
    (fun i hi => by rw [h.run.items_length]; exact hlt i hi) hstep
  refine ⟨h.run.step hwf hg hdone, fun j hj g hgj => ?_, ?_⟩
  · rcases Nat.lt_succ_iff_lt_or_eq.mp hj with hlt | rfl
    · -- another group
      refine (h.outcome j hlt g hgj).congr ⟨fun _ _ => rfl, rfl⟩ fun i hi =>
        RunInv.verdict_other hdone fun hig => ?_
      have := hwf.partition.place_eq_of_mem hgj hg hi hig
      omega
    · obtain rfl := Option.some.inj (hg.symm.trans hgj)
      exact houtcome.congr hsame fun _ _ => rfl
  · rw [hrecords, h.records, hsame.recordsOf_eq, take_add_one, hg, toList_some, flatMap_append,
      flatMap_singleton]

theorem winnerInv_finalizeGroups (hc : c.LoadsBy f) (hwf : r₀.WellFormed) :
    ∀ (groups : List (List Nat)) (k : Nat)
    (s s' : Session σ), r₀.groups.drop k = groups → WinnerInv c f opts r₀ k s →
      finalizeGroups c opts k groups s = (s', .ok ()) → WinnerInv c f opts r₀ (k + groups.length) s' := by
  intro groups
  induction groups with
  | nil =>
    intro k s s' _ h hrun
    cases hrun
    exact h
  | cons group groups ih =>
    intro k s s' hdrop h hrun
    have hg : r₀.groups[k]? = some group := by
      rw [← head?_drop, hdrop]
      rfl
    have hrest : r₀.groups.drop (k + 1) = groups := by
      rw [← drop_drop, hdrop]
      rfl
    unfold finalizeGroups at hrun
    split at hrun
    next s₁ hstep =>
      rw [length_cons, Nat.add_comm groups.length, ← Nat.add_assoc]
      exact ih (k + 1) s₁ s' hrest (h.step hc hwf hg hstep) hrun
    next => cases hrun

omit [Rust.Target] in
theorem skipRecords_ne_nil {i w : Nat} (h : isIncomplete f r i = true) : skipRecords f r w i ≠ [] := by
  unfold isIncomplete at h
  unfold skipRecords
  cases ha : answerOf f r i with
  | error e =>
    rw [ha] at h
    cases h
  | ok answer =>
    dsimp only
    unfold softSkipRecordsForMsg
    dsimp only
    split
    · exact cons_ne_nil _ _
    next hsome =>
      rw [ne_eq, map_eq_nil_iff]
      intro hnil
      rw [hnil] at hsome
      exact hsome rfl

/-- **Which peer wins.** Where loading is a function of the locus, every group's unique member is
the first in rank order that can be loaded and, under Mode A, is complete, or else the first that
can be loaded; and the ledger has the rows of the incomplete members that were asked before it or
passed over. -/
theorem finalize_winner [RandomState] (hr : r.Reached) (c : Client σ) (f : MessageLocus → Answer)
    (hc : c.LoadsBy f) (opts : MaterializeFinalizeOpts) (env : σ) (s : Session σ) (count : Nat)
    (hrun : finalizeWithMaterializeOpts c opts env r = (s, .ok count)) :
    (∀ g ∈ r.groups, GroupOutcome f r opts.promoteOnAttachFail s.resolved.verdict g) ∧
      s.resolved.softSkipAttachRecords = r.groups.flatMap (recordsOf f r opts.promoteOnAttachFail) ∧
      (∀ w i, isIncomplete f r i = true → skipRecords f r w i ≠ []) ∧
      (opts.promoteOnAttachFail = false → ∀ g ∈ r.groups, ∀ w,
      (peersOf r g).find? (materializes f r) = some w →
        ∀ i ∈ g, (s.resolved.verdict i).role = .unique ↔ i = w) := by
  have hwf := hr.wellFormed
  have hinv : WinnerInv c f opts r r.groups.length s := by
    unfold finalizeWithMaterializeOpts at hrun
    split at hrun
    next s' hgroups =>
      cases hrun
      have hstart : WinnerInv c f opts r 0 (.start env r) :=
        ⟨.start hwf env, fun j hj => absurd hj (Nat.not_lt_zero j), rfl⟩
      have hend := winnerInv_finalizeGroups hc hwf r.groups 0 _ _ (drop_zero ..) hstart hgroups
      rwa [Nat.zero_add] at hend
    next => cases hrun
  have houtcome : ∀ g ∈ r.groups, GroupOutcome f r opts.promoteOnAttachFail s.resolved.verdict g := by
    intro g hg
    obtain ⟨k, hk⟩ := List.mem_iff_getElem?.mp hg
    exact hinv.outcome k (List.getElem?_eq_some_iff.mp hk).1 g hk
  refine ⟨houtcome, ?_, fun w i => skipRecords_ne_nil, fun hoff g hg w hw => ?_⟩
  · rw [hinv.records, take_length]
  · have haccepts : accepts f r opts.promoteOnAttachFail = materializes f r := by
      funext i
      unfold accepts
      rw [hoff, Bool.false_and, Bool.not_false, Bool.and_true]
    exact ((houtcome g hg).accepted w (by rw [haccepts]; exact hw)).1

end Run

def loadsFlagged (locus : MessageLocus) : Answer :=
  .ok { locus := locus, attachments := if locus.sourcePath = "/a/mail.pst" then [{ filename := "1.doc" }] else [] }

theorem finalize_winner_flagged :
    letI := Rust.Target.unix
    letI := RandomState.inOrder
    let items := [sampleItem "/a/mail.pst" (some "m") 1, sampleItem "/b/mail.pst" (some "m") 1]
    let r := resolveGroupsWithGrouping items .parentsOnly {} {}
    let c : Client Unit := ⟨fun env locus => (env, loadsFlagged locus), fun env _ => (env, .ok ())⟩
    ∃ s count, finalizeWithMaterializeOpts c ⟨true⟩ () r = (s, .ok count) ∧
      (∀ i ∈ [0, 1], (s.resolved.verdict i).role = .unique ↔ i = 1) ∧
        (s.resolved.verdict 1).promoteReason ≠ none ∧
      s.resolved.softSkipAttachRecords.map (·.msgNid) = [1] := by
  let target := Rust.Target.unix
  let order := RandomState.inOrder
  intro items r c
  have hreached : r.Reached := .resolve items .parentsOnly {} {}
  obtain ⟨s, count, hrun⟩ := finalize_returns c ⟨true⟩ () hreached.wellFormed fun env _ => ⟨env, rfl⟩
  obtain ⟨houtcome, hrecords, -, -⟩ :=
    finalize_winner hreached c loadsFlagged (fun _ _ => rfl) ⟨true⟩ () s count hrun
  have hgroup := houtcome [0, 1] (by decide +kernel)
  obtain ⟨hrole, -, hreason⟩ := hgroup.accepted 1 (by decide +kernel)
  refine ⟨s, count, hrun, hrole, fun hnone => ?_, ?_⟩
  · exact absurd (hreason.mp hnone) (by decide +kernel)
  · rw [hrecords]
    decide +kernel

end DedupEngine
