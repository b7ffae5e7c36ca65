import PstDedupe.Foundations.GuardedRuns
import PstDedupe.PstWriter.FolderKeys

/-!
# Prefixes of several sources

`unique_source_prefixes` gives every source the first of its numbered labels whose key is unused,
and after 10 000 attempts a last one that it does not look up.
-/

namespace PstWriter

open Rust Foundations List

variable [UnicodeTables] {st : LabelState}

def numberedLabel (stem : String) (attempt : Nat) : String :=
  if attempt = 0 then stem else stem ++ " (" ++ Nat.repr (attempt + 1) ++ ")"

def forcedLabel (stem path : String) : String := stem ++ " [" ++ Nat.repr (bytes path).length ++ "]"

def labelChoices (stem path : String) : List String :=
  (range 10001).map (numberedLabel stem) ++ [forcedLabel stem path]

section Labels

variable {usedKeys : List String} {stem path : String}

theorem freeLabel_cases (usedKeys : List String) (stem path : String) (attempt remaining : Nat) :
    (∃ i, attempt ≤ i ∧ i < attempt + remaining ∧ caseFoldKey (numberedLabel stem i) ∉ usedKeys ∧
      freeLabel usedKeys stem path attempt remaining = numberedLabel stem i) ∨
    ((∀ i, attempt ≤ i → i < attempt + remaining → caseFoldKey (numberedLabel stem i) ∈ usedKeys) ∧
      freeLabel usedKeys stem path attempt remaining = forcedLabel stem path) := by
  induction remaining generalizing attempt with
  | zero => exact .inr ⟨fun i _ _ => by omega, rfl⟩
  | succ remaining ih =>
    have hstep : freeLabel usedKeys stem path attempt (remaining + 1) =
        if caseFoldKey (numberedLabel stem attempt) ∈ usedKeys then freeLabel usedKeys stem path
          (attempt + 1) remaining
        else numberedLabel stem attempt := rfl
    rw [hstep]
    by_cases hused : caseFoldKey (numberedLabel stem attempt) ∈ usedKeys
    · rw [if_pos hused]
      obtain ⟨i, hle, hlt, hfree, heq⟩ | ⟨hall, heq⟩ := ih (attempt + 1)
      · exact .inl ⟨i, by omega, by omega, hfree, heq⟩
      · refine .inr ⟨fun i hle hlt => ?_, heq⟩
        -- the first attempt, or one of the rest
        obtain rfl | hne := Nat.eq_or_lt_of_le hle
        · exact hused
        · exact hall i hne (by omega)
    · rw [if_neg hused]
      exact .inl ⟨attempt, Nat.le_refl _, by omega, hused, rfl⟩

theorem freeLabel_mem (usedKeys : List String) (stem path : String) :
    freeLabel usedKeys stem path 0 10001 ∈ labelChoices stem path := by
  unfold labelChoices
  obtain ⟨i, -, hlt, -, heq⟩ | ⟨-, heq⟩ := freeLabel_cases usedKeys stem path 0 10001
  · rw [heq]
    exact mem_append_left _ (mem_map_of_mem (List.mem_range.mpr (by omega)))
  · rw [heq]
    exact mem_append_right _ mem_cons_self

theorem key_freeLabel_notMem_iff : caseFoldKey (freeLabel usedKeys stem path 0 10001) ∉ usedKeys ↔
    ∃ label ∈ labelChoices stem path, caseFoldKey label ∉ usedKeys := by
  constructor
  · exact fun h => ⟨_, freeLabel_mem usedKeys stem path, h⟩
  · rintro ⟨label, hlabel, hfree⟩
    obtain ⟨i, -, -, hfree, heq⟩ | ⟨hall, heq⟩ := freeLabel_cases usedKeys stem path 0 10001
    · rw [heq]
      exact hfree
    · rw [heq]
      obtain hlabel | hlabel := List.mem_append.mp hlabel
      · obtain ⟨i, hi, rfl⟩ := List.mem_map.mp hlabel
        exact absurd (hall i (Nat.zero_le i) (by simpa using hi)) hfree
      · rwa [← List.mem_singleton.mp hlabel]

end Labels

variable [Target]

abbrev LabelState := List String × HashMap String String

/-- One of the labels for the path is not taken. -/
def FindsFree (st : LabelState) (path : String) : Prop :=
  ∃ label ∈ labelChoices (fileStemLabel path) path, caseFoldKey label ∉ st.1

theorem nodup_labelSource_iff (hst : st.1.Nodup) (path : String) :
    (labelSource st path).1.Nodup ↔ FindsFree st path := by
  unfold labelSource FindsFree
  rw [nodup_cons, key_freeLabel_notMem_iff]
  exact and_iff_left hst

structure Reserved (done : List String) (st : LabelState) : Prop where
  keys : st.1 = done.reverse.map fun path => caseFoldKey ((st.2.get path).getD "")
  labels : ∀ path, path ∈ done ↔ ∃ label, st.2.get path = some label

theorem Reserved.labelSource {done : List String} (h : Reserved done st) {path : String}
    (hpath : path ∉ done) : Reserved (done ++ [path]) (labelSource st path) := by
  have hget (q : String) : (PstWriter.labelSource st path).2.get q =
      if q = path then some (freeLabel st.1 (fileStemLabel path) path 0 10001) else st.2.get q :=
    HashMap.get_insert _ _ _ _
  constructor
  · rw [reverse_append, reverse_singleton, singleton_append, map_cons, hget, if_pos rfl]
    show caseFoldKey _ :: st.1 = _
    rw [h.keys]
    congr 1
    refine map_congr_left fun q hq => ?_
    have hne : q ≠ path := fun heq => hpath (heq ▸ List.mem_reverse.mp hq)
    rw [hget, if_neg hne]
  · intro q
    rw [hget, mem_append, mem_singleton]
    by_cases hq : q = path
    · rw [if_pos hq]
      exact iff_of_true (.inr hq) ⟨_, rfl⟩
    · rw [if_neg hq, ← h.labels q]
      exact or_iff_left hq

theorem reserved_foldl {done paths : List String} (h : Reserved done st)
    (hnodup : (done ++ paths).Nodup) : Reserved (done ++ paths) (paths.foldl labelSource st) := by
  induction paths generalizing done st with
  | nil => rwa [append_nil]
  | cons path paths ih =>
    have hsplit : done ++ path :: paths = done ++ [path] ++ paths := by simp
    have hnew : path ∉ done := fun hmem =>
      (List.nodup_append.mp hnodup).2.2 path hmem path mem_cons_self rfl
    rw [hsplit] at hnodup ⊢
    exact ih (h.labelSource hnew) hnodup

theorem suffix_foldl (paths : List String) (st : LabelState) : st.1 <:+ (paths.foldl labelSource st).1 := by
  induction paths generalizing st with
  | nil => exact suffix_rfl
  | cons path paths ih => exact (suffix_cons _ st.1).trans (ih (labelSource st path))

theorem nodup_foldl_iff (paths : List String) (hst : st.1.Nodup) :
    (paths.foldl labelSource st).1.Nodup ↔ Guarded labelSource FindsFree st paths := by
  induction paths generalizing st with
  | nil => exact iff_of_true hst trivial
  | cons path paths ih =>
    constructor
    · intro h
      have hnext : (labelSource st path).1.Nodup := h.sublist (suffix_foldl paths _).sublist
      exact ⟨(nodup_labelSource_iff hst path).mp hnext, (ih hnext).mp h⟩
    · intro h
      exact (ih ((nodup_labelSource_iff hst path).mpr h.1)).mpr h.2

/-- What the planner relies on: each source has a sanitized label, two sources have labels with
different keys, and the order in which the sources are listed does not matter. -/
structure PrefixesApart (sources : List String) : Prop where
  labelled : ∀ path ∈ sources, ∃ label, (uniqueSourcePrefixes sources).get path = some label ∧
    SegmentForm label
  apart : ∀ p ∈ sources, ∀ q ∈ sources, p ≠ q → ∀ l m, (uniqueSourcePrefixes sources).get p = some l →
    (uniqueSourcePrefixes sources).get q = some m → caseFoldKey l ≠ caseFoldKey m
  orderFree : ∀ sources', sources'.Perm sources → uniqueSourcePrefixes sources' = uniqueSourcePrefixes sources

theorem uniqueSourcePrefixes_perm {sources sources' : List String} (h : sources'.Perm sources) :
    uniqueSourcePrefixes sources' = uniqueSourcePrefixes sources := by
  unfold uniqueSourcePrefixes sortStrings
  rw [sortBy_eq_of_perm h]

theorem reserved_sources (sources : List String) : Reserved (vecDedup (sortStrings sources))
    ((vecDedup (sortStrings sources)).foldl labelSource ([], ∅)) := by
  have hstart : Reserved [] (([], ∅) : LabelState) := by
    refine ⟨rfl, fun path => iff_of_false (not_mem_nil) ?_⟩
    rintro ⟨label, hlabel⟩
    cases hlabel
  exact reserved_foldl hstart (nodup_vecDedup_sortStrings sources)

/-- **The prefixes of sources** differ under case folding if and only if each source in turn finds
one of its labels free. -/
theorem prefixesApart_iff (sources : List String) :
    PrefixesApart sources ↔ Guarded labelSource FindsFree ([], ∅) (vecDedup (sortStrings sources)) := by
  have hreserved := reserved_sources sources
  have hlabels (path : String) (hpath : path ∈ sources) :
      ∃ label, (uniqueSourcePrefixes sources).get path = some label :=
    (hreserved.labels path).mp (mem_vecDedup_sortStrings.mpr hpath)
  rw [← nodup_foldl_iff _ nodup_nil, hreserved.keys,
    nodup_map_iff_inj_on (List.nodup_reverse.mpr (nodup_vecDedup_sortStrings sources))]
  constructor
  · intro h p hp q hq hkey
    by_contra hne
    have hp : p ∈ sources := mem_vecDedup_sortStrings.mp (List.mem_reverse.mp hp)
    have hq : q ∈ sources := mem_vecDedup_sortStrings.mp (List.mem_reverse.mp hq)
    obtain ⟨l, hl⟩ := hlabels p hp
    obtain ⟨m, hm⟩ := hlabels q hq
    refine h.apart p hp q hq hne l m hl hm ?_
    unfold uniqueSourcePrefixes at hl hm
    rwa [hl, hm] at hkey
  · intro hinj
    refine ⟨fun path hpath => ?_, fun p hp q hq hne l m hl hm hkey => hne ?_,
      fun _ => uniqueSourcePrefixes_perm⟩
    · obtain ⟨label, hlabel⟩ := hlabels path hpath
      exact ⟨label, hlabel, segmentForm_uniqueSourcePrefixes hlabel⟩
    · refine hinj _ (List.mem_reverse.mpr (mem_vecDedup_sortStrings.mpr hp)) _
        (List.mem_reverse.mpr (mem_vecDedup_sortStrings.mpr hq)) ?_
      unfold uniqueSourcePrefixes at hl hm
      rwa [hl, hm]

theorem keys_subset {choices : List String} (paths : List String) (st : LabelState)
    (hchoices : ∀ path ∈ paths, labelChoices (fileStemLabel path) path = choices) :
    ∀ key ∈ (paths.foldl labelSource st).1, key ∈ st.1 ∨ key ∈ choices.map caseFoldKey := by
  induction paths generalizing st with
  | nil => exact fun key hkey => .inl hkey
  | cons path paths ih =>
    intro key hkey
    obtain hkey | hkey := ih (labelSource st path) (fun q hq => hchoices q (mem_cons_of_mem _ hq)) key hkey
    · obtain rfl | hkey := List.mem_cons.mp hkey
      · rw [← hchoices path mem_cons_self]
        exact .inr (mem_map_of_mem (freeLabel_mem st.1 _ path))
      · exact .inl hkey
    · exact .inr hkey

theorem not_prefixesApart_of_many {sources : List String} (hnodup : sources.Nodup) {stem : String} {n : Nat}
    (hstem : ∀ path ∈ sources, fileStemLabel path = stem) (hbytes : ∀ path ∈ sources, (bytes path).length = n)
    (hmany : 10002 < sources.length) : ¬PrefixesApart sources := by
  intro h
  rw [prefixesApart_iff, ← nodup_foldl_iff _ nodup_nil] at h
  have hsubset : ((vecDedup (sortStrings sources)).foldl labelSource ([], ∅)).1 ⊆
      ((range 10001).map (numberedLabel stem) ++ [stem ++ " [" ++ Nat.repr n ++ "]"]).map caseFoldKey := by
    intro key hkey
    refine (keys_subset _ _ (fun path hpath => ?_) key hkey).resolve_left not_mem_nil
    have hpath : path ∈ sources := mem_vecDedup_sortStrings.mp hpath
    rw [hstem path hpath, labelChoices, forcedLabel, hbytes path hpath]
  have hlength : ((vecDedup (sortStrings sources)).foldl labelSource ([], ∅)).1.length = sources.length := by
    rw [(reserved_sources sources).keys, length_map, length_reverse]
    exact ((perm_ext_iff_of_nodup (nodup_vecDedup_sortStrings sources) hnodup).mpr
      fun _ => mem_vecDedup_sortStrings).length_eq
  have hle := (h.subperm hsubset).length_le
  rw [hlength, length_map, length_append, length_map, length_range, length_singleton] at hle
  omega

end PstWriter

namespace PstWriter

open Rust Foundations List

def sameStemPath (i : Nat) : String :=
  String.ofList ('/' :: (replicate i 'x' ++ replicate (10002 - i) 'y' ++ '/' :: "a.pst".toList))

theorem fileStemLabel_sameStemPath (i : Nat) : @fileStemLabel .unix (sameStemPath i) = "a" := by
  have hdir : '/' ∉ replicate i 'x' ++ replicate (10002 - i) 'y' := by
    intro h
    obtain h | h := List.mem_append.mp h
    · exact absurd (eq_of_mem_replicate h) (by decide)
    · exact absurd (eq_of_mem_replicate h) (by decide)
  have hname : unixFileName (sameStemPath i) = some "a.pst" := by
    unfold unixFileName split sameStemPath
    rw [String.toList_ofList, splitChars, if_pos rfl, splitChars_append hdir,
      show splitChars '/' "a.pst".toList = ["a.pst".toList] by decide]
    have hlast : ∀ front : List String,
        ((front ++ ["a.pst"]).filter fun c => c != "" && c != ".").getLast? = some "a.pst" := by
      intro front
      rw [filter_append, show ["a.pst"].filter (fun c => c != "" && c != ".") = ["a.pst"] by decide,
        getLast?_append, getLast?_singleton]
      rfl
    have hsplit := hlast ["", String.ofList (replicate i 'x' ++ replicate (10002 - i) 'y')]
    rw [show ([[], replicate i 'x' ++ replicate (10002 - i) 'y', "a.pst".toList]).map String.ofList =
      ["", String.ofList (replicate i 'x' ++ replicate (10002 - i) 'y')] ++ ["a.pst"] from rfl, hsplit]
    rfl
  show sanitizeSegment (((unixFileName (sameStemPath i)).map _).getD "source") = "a"
  rw [hname]
  decide

theorem length_bytes_sameStemPath {i : Nat} (hi : i ≤ 10002) : (bytes (sameStemPath i)).length = 10009 := by
  have hflat (n : Nat) (c : Char) (hc : c.utf8Size = 1) :
      ((replicate n c).flatMap String.utf8EncodeChar).length = n := by
    simp [length_flatMap, hc]
  unfold bytes sameStemPath
  rw [String.toList_ofList, flatMap_cons, flatMap_append, flatMap_append, length_append,
    length_append, length_append, hflat i 'x' (by decide), hflat (10002 - i) 'y' (by decide),
    show (String.utf8EncodeChar '/').length = 1 by decide,
    show (('/' :: "a.pst".toList).flatMap String.utf8EncodeChar).length = 6 by decide]
  omega

theorem sameStemPath_injective : Function.Injective sameStemPath := by
  intro i j h
  have hcount : (sameStemPath i).toList.count 'x' = (sameStemPath j).toList.count 'x' := by rw [h]
  unfold sameStemPath at hcount
  simpa [count_cons, count_append, count_replicate] using hcount

/-- The last of these sources gets the label of the one before it. -/
theorem prefixes_collide_sameStem : ∃ (_ : UnicodeTables) (_ : Target) (sources : List String),
    sources.Nodup ∧ ¬PrefixesApart sources := by
  let _ : UnicodeTables := .ascii
  let _ : Target := .unix
  have hnodup : ((range 10003).map sameStemPath).Nodup := List.nodup_range.map sameStemPath_injective
  have hstem : ∀ path ∈ (range 10003).map sameStemPath, fileStemLabel path = "a" := by
    intro path hpath
    obtain ⟨i, -, rfl⟩ := List.mem_map.mp hpath
    exact fileStemLabel_sameStemPath i
  have hbytes : ∀ path ∈ (range 10003).map sameStemPath, (bytes path).length = 10009 := by
    intro path hpath
    obtain ⟨i, hi, rfl⟩ := List.mem_map.mp hpath
    exact length_bytes_sameStemPath (Nat.le_of_lt_succ (List.mem_range.mp hi))
  exact ⟨.ascii, .unix, (range 10003).map sameStemPath, hnodup,
    not_prefixesApart_of_many hnodup hstem hbytes (by rw [length_map, length_range]; decide)⟩

end PstWriter
