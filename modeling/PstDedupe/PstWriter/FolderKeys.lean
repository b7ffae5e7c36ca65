import PstDedupe.PstWriter.FolderPlan

/-!
# Folder keys and the folders that are written

QC compares the normalized key of a folder read back with the key it expects for a source path.
-/

namespace PstWriter

open Rust Foundations List

/-- What `sanitizeSegment` makes: no forbidden character, not empty, and no dot or space at the
end. -/
structure SegmentForm (s : String) : Prop where
  chars : ∀ c ∈ s.toList, isForbidden c = false ∧ isControl c = false
  ne_empty : s ≠ ""
  last : ∀ c, s.toList.getLast? = some c → c ≠ '.' ∧ c ≠ ' '

theorem segmentForm_underscore : SegmentForm "_" where
  chars := List.all_iff_forall_prop.mp (by decide)
  ne_empty := by decide
  last := by
    intro c hc
    rw [show c = '_' from (Option.some.inj hc).symm]
    decide

theorem segmentForm_uniqueMail : SegmentForm "Unique Mail" where
  chars := List.all_iff_forall_prop.mp (by decide)
  ne_empty := by decide
  last := by
    intro c hc
    rw [show c = 'l' from (Option.some.inj hc).symm]
    decide

theorem segmentForm_sanitizeSegment (s : String) : SegmentForm (sanitizeSegment s) := by
  unfold sanitizeSegment
  dsimp only
  generalize hout : trim (String.ofList (s.toList.map fun c =>
    if isForbidden c || isControl c then '_' else c)) = out
  -- the characters are allowed from the first pass on, and later passes only drop some
  have hchars : ∀ c ∈ out.toList, isForbidden c = false ∧ isControl c = false := by
    intro c hc
    rw [← hout] at hc
    have hmem := mem_of_mem_trim hc
    rw [String.toList_ofList] at hmem
    obtain ⟨d, _, hd⟩ := List.mem_map.mp hmem
    split at hd
    · rw [← hd]
      decide
    · rename_i hallowed
      rw [← hd]
      simpa using hallowed
  split
  · rw [if_neg (by decide)]
    exact segmentForm_underscore
  split
  · exact segmentForm_underscore
  rename_i hne
  refine ⟨?_, hne, ?_⟩
  · intro c hc
    rw [String.toList_ofList, mem_reverse] at hc
    exact hchars c (List.mem_reverse.mp ((dropWhile_sublist _).subset hc))
  · intro c hc
    rw [String.toList_ofList, getLast?_reverse] at hc
    have hnot := head?_dropWhile_not hc
    simpa using hnot

theorem sanitizeSegment_eq_self {s : String} (h : SegmentForm s) (htrim : trim s = s) :
    sanitizeSegment s = s := by
  have hmap : s.toList.map (fun c => if isForbidden c || isControl c then '_' else c) = s.toList := by
    refine map_chars_eq_self fun c hc => ?_
    rw [(h.chars c hc).1, (h.chars c hc).2]
    rfl
  have hdots : ¬ ((s = "" || s = "." || s = "..") = true) := by
    intro hdot
    rw [Bool.or_eq_true, Bool.or_eq_true, decide_eq_true_iff, decide_eq_true_iff, decide_eq_true_iff] at hdot
    rcases hdot with (hdot | hdot) | hdot
    · exact h.ne_empty hdot
    · exact (h.last '.' (by rw [hdot]; rfl)).1 rfl
    · exact (h.last '.' (by rw [hdot]; rfl)).1 rfl
  have hpop : (s.toList.reverse.dropWhile fun c => c = '.' || c = ' ') = s.toList.reverse := by
    apply dropWhile_eq_self
    intro c hc
    rw [head?_reverse] at hc
    simpa using h.last c hc
  unfold sanitizeSegment
  dsimp only
  rw [hmap, String.ofList_toList, htrim, if_neg hdots, hpop, reverse_reverse, String.ofList_toList,
    if_neg h.ne_empty]

/-- A name as it stands in a written path that can be read back: sanitized, and trimmed also of the
whitespace that is neither a dot nor a space. -/
structure PathName (s : String) : Prop extends SegmentForm s where
  trimmed : trim s = s

namespace PathName

variable {s : String}

theorem slash_notMem (h : PathName s) : '/' ∉ s.toList := by
  intro hmem
  exact absurd (h.chars _ hmem).1 (by decide)

theorem ne_dot (h : PathName s) : s ≠ "." := by
  intro hdot
  exact (h.last '.' (by rw [hdot]; rfl)).1 rfl

theorem ne_dotdot (h : PathName s) : s ≠ ".." := by
  intro hdot
  exact (h.last '.' (by rw [hdot]; rfl)).1 rfl

theorem first_not (h : PathName s) {c : Char} (hc : s.toList.head? = some c) :
    isWhitespace c = false ∧ c ≠ '/' := by
  constructor
  · rw [← h.trimmed] at hc
    unfold trim at hc
    rw [String.toList_ofList] at hc
    exact head?_trimMatches hc
  · intro hslash
    exact h.slash_notMem (hslash ▸ mem_of_head? hc)

theorem last_not (h : PathName s) {c : Char} (hc : s.toList.getLast? = some c) :
    isWhitespace c = false ∧ c ≠ '/' := by
  constructor
  · rw [← h.trimmed] at hc
    unfold trim at hc
    rw [String.toList_ofList] at hc
    exact getLast?_trimMatches hc
  · intro hslash
    exact h.slash_notMem (hslash ▸ mem_of_getLast? hc)

theorem root : PathName "Root" := by
  refine ⟨⟨List.all_iff_forall_prop.mp (by decide), by decide, ?_⟩, by decide⟩
  intro c hc
  have hlast : (some 't' : Option Char) = some c := hc
  rw [← Option.some.inj hlast]
  decide

theorem topOfPersonalFolders : PathName "Top of Personal Folders" := by
  refine ⟨⟨List.all_iff_forall_prop.mp (by decide), by decide, ?_⟩, by decide⟩
  intro c hc
  rw [show c = 's' from (Option.some.inj hc).symm]
  decide

end PathName

theorem rawSegments_of_pathNames {names : List String} (h : ∀ s ∈ names, PathName s) :
    rawSegments names = some names := by
  induction names with
  | nil => rfl
  | cons s rest ih =>
    have hs := h s mem_cons_self
    have hskip : ¬ ((s = "" || s = ".") = true) := by
      rw [Bool.or_eq_true, decide_eq_true_iff, decide_eq_true_iff, not_or]
      exact ⟨hs.ne_empty, hs.ne_dot⟩
    rw [rawSegments, hs.trimmed, if_neg hskip, if_neg hs.ne_dotdot, ih fun t ht => h t (mem_cons_of_mem _ ht)]
    rfl

section Join

variable {names : List String}

theorem ends_join (hne : names ≠ []) (h : ∀ s ∈ names, PathName s) {c : Char}
    (hc : (join "/" names).toList.head? = some c ∨ (join "/" names).toList.getLast? = some c) :
    isWhitespace c = false ∧ c ≠ '/' := by
  rcases hc with hc | hc
  · cases names with
    | nil => exact absurd rfl hne
    | cons s rest =>
      have hs := h s mem_cons_self
      rw [head?_join hs.ne_empty] at hc
      exact hs.first_not hc
  · rw [getLast?_join fun s hs => (h s hs).ne_empty] at hc
    obtain ⟨s, hs, hc⟩ := Option.bind_eq_some_iff.mp hc
    exact (h s (mem_of_getLast? hs)).last_not hc

theorem trim_join (hne : names ≠ []) (h : ∀ s ∈ names, PathName s) :
    trim (join "/" names) = join "/" names := by
  unfold trim
  rw [trimMatches_eq_self, String.ofList_toList]
  · exact fun c hc => (ends_join hne h (.inl hc)).1
  · exact fun c hc => (ends_join hne h (.inr hc)).1

theorem trimWhere_join (hne : names ≠ []) (h : ∀ s ∈ names, PathName s) :
    trimWhere (· = '/') (join "/" names) = join "/" names := by
  unfold trimWhere
  rw [trimMatches_eq_self, String.ofList_toList]
  · exact fun c hc => decide_eq_false (ends_join hne h (.inl hc)).2
  · exact fun c hc => decide_eq_false (ends_join hne h (.inr hc)).2

theorem replaceChar_join (h : ∀ s ∈ names, PathName s) :
    replaceChar (join "/" names) '\\' '/' = join "/" names := by
  have hmap : (join "/" names).toList.map (fun x => if x = '\\' then '/' else x)
      = (join "/" names).toList := by
    refine map_chars_eq_self fun c hc => if_neg fun hback => ?_
    rcases mem_join hc with hslash | ⟨s, hs, hmem⟩
    · rw [hback] at hslash
      exact absurd (List.mem_singleton.mp hslash) (by decide)
    · rw [hback] at hmem
      exact absurd ((h s hs).chars _ hmem).1 (by decide)
  unfold replaceChar
  rw [hmap, String.ofList_toList]

theorem join_ne_empty (hne : names ≠ []) (h : ∀ s ∈ names, PathName s) : join "/" names ≠ "" := by
  cases names with
  | nil => exact absurd rfl hne
  | cons s rest =>
    have hs := h s mem_cons_self
    intro hempty
    have hhead := head?_join hs.ne_empty rest
    rw [hempty] at hhead
    have hnil : s.toList = [] := List.head?_eq_none_iff.mp hhead.symm
    exact hs.ne_empty (String.toList_eq_nil_iff.mp hnil)

theorem normalizeFolderPathKey_join (hne : names ≠ []) (h : ∀ s ∈ names, PathName s)
    (hstrip : stripLeadingFolderAliases names ≠ [])
    (hdepth : (stripLeadingFolderAliases names).length ≤ maxFolderDepth) :
    normalizeFolderPathKey (join "/" names)
      = join "/" ((stripLeadingFolderAliases names).map toAsciiLowercase) := by
  have hkept : ∀ s ∈ stripLeadingFolderAliases names, PathName s :=
    fun s hs => h s ((dropWhile_sublist _).subset hs)
  have hmap : (stripLeadingFolderAliases names).map (fun s => toAsciiLowercase (sanitizeSegment s))
      = (stripLeadingFolderAliases names).map toAsciiLowercase := by
    refine map_congr_left fun s hs => ?_
    rw [sanitizeSegment_eq_self (hkept s hs).toSegmentForm (hkept s hs).trimmed]
  have hsplit : split (join "/" names) '/' = names := split_join rfl hne fun s hs => (h s hs).slash_notMem
  unfold normalizeFolderPathKey
  dsimp only
  rw [trim_join hne h, replaceChar_join h, trimWhere_join hne h, if_neg (join_ne_empty hne h),
    hsplit, rawSegments_of_pathNames h]
  dsimp only
  rw [if_neg hstrip, if_neg (Nat.not_lt.mpr hdepth), hmap]

end Join

theorem normalizeFolderPathKey_emittedPath {names : List String} (hne : names ≠ [])
    (h : ∀ s ∈ names, PathName s)
    (halias : ∀ s, names.head? = some s → isLeadingFolderAlias s = false)
    (hdepth : names.length ≤ maxFolderDepth) :
    normalizeFolderPathKey (emittedPath names) = join "/" (names.map toAsciiLowercase) := by
  have hall : ∀ s ∈ "Root" :: "Top of Personal Folders" :: names, PathName s := by
    intro s hs
    rcases List.mem_cons.mp hs with rfl | hs
    · exact .root
    rcases List.mem_cons.mp hs with rfl | hs
    · exact .topOfPersonalFolders
    · exact h s hs
  have hstrip : stripLeadingFolderAliases ("Root" :: "Top of Personal Folders" :: names) = names := by
    unfold stripLeadingFolderAliases
    rw [dropWhile_cons_of_pos (by decide +kernel), dropWhile_cons_of_pos (by decide +kernel)]
    cases names with
    | nil => rfl
    | cons s rest => exact dropWhile_cons_of_neg (by simp [halias s rfl])
  have hjoin := normalizeFolderPathKey_join (cons_ne_nil _ _) hall
  rw [hstrip] at hjoin
  exact hjoin hne hdepth

theorem allowed_of_isDigit {c : Char} (h : c.isDigit) : isForbidden c = false ∧ isControl c = false := by
  have hrange : 48 ≤ c.toNat ∧ c.toNat ≤ 57 := by
    unfold Char.isDigit at h
    rw [Bool.and_eq_true, decide_eq_true_iff, decide_eq_true_iff] at h
    exact h
  constructor
  · refine decide_eq_false fun hmem => ?_
    -- none of the forbidden characters is a digit
    simp only [mem_cons, not_mem_nil, or_false] at hmem
    rcases hmem with rfl | rfl | rfl | rfl | rfl | rfl | rfl | rfl | rfl <;> revert h <;> decide
  · unfold isControl
    rw [Bool.or_eq_false_iff, decide_eq_false_iff_not, Bool.and_eq_false_iff, decide_eq_false_iff_not]
    omega

namespace SegmentForm

variable {s : String}

theorem append (h : SegmentForm s) {suffix : String} {c : Char}
    (hchars : ∀ c ∈ suffix.toList, isForbidden c = false ∧ isControl c = false)
    (hlast : suffix.toList.getLast? = some c) (hc : c ≠ '.' ∧ c ≠ ' ') : SegmentForm (s ++ suffix) where
  chars := by
    intro d hd
    rw [String.toList_append] at hd
    rcases List.mem_append.mp hd with hd | hd
    · exact h.chars d hd
    · exact hchars d hd
  ne_empty := by
    intro hempty
    have htoList := congrArg String.toList hempty
    rw [String.toList_append] at htoList
    exact h.ne_empty (String.toList_eq_nil_iff.mp (List.append_eq_nil_iff.mp htoList).1)
  last := by
    intro d hd
    rw [String.toList_append, getLast?_append, hlast] at hd
    rw [show d = c from (Option.some.inj hd).symm]
    exact hc

theorem append_bracketed (h : SegmentForm s) (n : Nat) {l r : String} {c : Char}
    (hl : ∀ c ∈ l.toList, isForbidden c = false ∧ isControl c = false)
    (hr : ∀ c ∈ r.toList, isForbidden c = false ∧ isControl c = false)
    (hlast : r.toList.getLast? = some c) (hc : c ≠ '.' ∧ c ≠ ' ') :
    SegmentForm (s ++ l ++ Nat.repr n ++ r) := by
  rw [String.append_assoc, String.append_assoc]
  refine h.append ?_ ?_ hc
  · intro d hd
    simp only [String.toList_append, mem_append] at hd
    rcases hd with hd | hd | hd
    · exact hl d hd
    · exact allowed_of_isDigit (isDigit_of_mem_repr hd)
    · exact hr d hd
  · simp only [String.toList_append, getLast?_append, hlast, Option.some_or]

end SegmentForm

section Prefixes

variable [UnicodeTables]

theorem segmentForm_freeLabel {stem : String} (h : SegmentForm stem) (usedKeys : List String)
    (path : String) (attempt remaining : Nat) :
    SegmentForm (freeLabel usedKeys stem path attempt remaining) := by
  induction remaining generalizing attempt with
  | zero => exact h.append_bracketed _ (List.all_iff_forall_prop.mp (by decide)) (List.all_iff_forall_prop.mp (by decide)) rfl (by decide)
  | succ remaining ih =>
    have hcandidate : SegmentForm
        (if attempt = 0 then stem else stem ++ " (" ++ Nat.repr (attempt + 1) ++ ")") := by
      split
      · exact h
      · exact h.append_bracketed _ (List.all_iff_forall_prop.mp (by decide))
          (List.all_iff_forall_prop.mp (by decide)) rfl (by decide)
    rw [freeLabel]
    generalize (if attempt = 0 then stem else stem ++ " (" ++ Nat.repr (attempt + 1) ++ ")")
      = candidate at hcandidate ⊢
    split
    · exact ih (attempt + 1)
    · exact hcandidate

variable [Target]

theorem segmentForm_uniqueSourcePrefixes {sources : List String} {path label : String}
    (h : (uniqueSourcePrefixes sources).get path = some label) : SegmentForm label := by
  unfold uniqueSourcePrefixes at h
  -- the labels of the map built so far
  have hfold : ∀ (paths : List String) (st : List String × HashMap String String),
      (∀ p l, st.2.get p = some l → SegmentForm l) →
        ∀ p l, (paths.foldl labelSource st).2.get p = some l → SegmentForm l := by
    intro paths
    induction paths with
    | nil => exact fun _ hst => hst
    | cons q rest ih =>
      intro st hst
      refine ih (labelSource st q) fun p l hl => ?_
      rw [labelSource, HashMap.get_insert] at hl
      split at hl
      · rw [← Option.some.inj hl]
        exact segmentForm_freeLabel (segmentForm_sanitizeSegment _) _ _ _ _
      · exact hst p l hl
  refine hfold _ _ (fun p l hl => ?_) path label h
  cases hl

end Prefixes

theorem segments_of_parseFolderPath {path : String} {segs : List String} {degraded : Bool}
    (h : parseFolderPath path = .segments segs degraded) : segs ≠ [] ∧ ∀ s ∈ segs, SegmentForm s := by
  unfold parseFolderPath at h
  dsimp only at h
  split at h
  · cases h
  split at h
  · cases h
  rename_i raw _
  split at h
  · cases h
  rename_i hne
  split at h
  · cases h
  cases h
  refine ⟨fun hnil => hne (List.map_eq_nil_iff.mp hnil), fun s hs => ?_⟩
  obtain ⟨t, _, rfl⟩ := List.mem_map.mp hs
  exact segmentForm_sanitizeSegment t

end PstWriter
