import PstDedupe.Rust.Paths

/-!
# Logical paths of a package (`ingest-purview/src/path_safety.rs`)

A decoded path is trimmed, tested and cut at `/`, and its segments are joined again without the
empty ones and the dots.
-/

namespace IngestPurview

open Rust List

structure PathRejected where
  code : String
  message : String
  deriving DecidableEq, Repr

def zipPathTraversal : String := "zip_path_traversal"
def zipAbsolutePath : String := "zip_absolute_path"
def zipEmptyPath : String := "zip_empty_path"
def zipUnsafePath : String := "zip_unsafe_path"

def reservedDeviceNames : List String := ["CON", "PRN", "AUX", "NUL",
  "COM1", "COM2", "COM3", "COM4", "COM5", "COM6", "COM7", "COM8", "COM9",
  "LPT1", "LPT2", "LPT3", "LPT4", "LPT5", "LPT6", "LPT7", "LPT8", "LPT9"]

def isReservedDeviceName (segment : String) : Bool :=
  reservedDeviceNames.contains (toAsciiUppercase ((split segment '.').headD segment))

def isAsciiAlphabetic (b : UInt8) : Bool := (65 ≤ b && b ≤ 90) || (97 ≤ b && b ≤ 122)

/-- `C:` at the start of a text, on its bytes. -/
def hasDrive (s : String) : Bool :=
  match bytes s with
  | drive :: colon :: _ => colon == 0x3A && isAsciiAlphabetic drive
  | _ => false

def collectParts (trimmed : String) : List String → Except PathRejected (List String)
  | [] => pure []
  | part :: rest =>
    if part = "" ∨ part = "." then collectParts trimmed rest
    else if part = ".." then throw ⟨zipPathTraversal, "path traversal segment in: " ++ trimmed⟩
    else if isReservedDeviceName part then throw ⟨zipUnsafePath, "reserved device name: " ++ part⟩
    else do return part :: (← collectParts trimmed rest)

def trimmedPath (raw : String) : String := trim (replaceChar raw '\\' '/')

def sanitizeLogicalPath (raw : String) : Except PathRejected String :=
  if raw.toList.contains '\x00' then throw ⟨zipUnsafePath, "path contains NUL"⟩
  else if raw.toList.any isControl then throw ⟨zipUnsafePath, "path contains control characters"⟩
  else
    let trimmed := trimmedPath raw
    if trimmed = "" ∨ trimmed = "." then throw ⟨zipEmptyPath, "empty path"⟩
    else if startsWith trimmed "/" then throw ⟨zipAbsolutePath, "absolute path: " ++ trimmed⟩
    else if startsWith trimmed "//" ∨ startsWith trimmed "\\\\" then
      throw ⟨zipAbsolutePath, "UNC/absolute path: " ++ trimmed⟩
    else if hasDrive trimmed then throw ⟨zipAbsolutePath, "drive-absolute path: " ++ trimmed⟩
    else do
      let outParts ← collectParts trimmed (split trimmed '/')
      if outParts = [] then throw ⟨zipEmptyPath, "path resolved empty"⟩ else pure (join "/" outParts)

example : sanitizeLogicalPath "mail\\Inbox\\a.eml" = .ok "mail/Inbox/a.eml" := by decide +kernel
example : sanitizeLogicalPath "a/../../b" = .error
    ⟨zipPathTraversal, "path traversal segment in: a/../../b"⟩ := by
  decide +kernel

def keptParts (raw : String) : List String :=
  (split (trimmedPath raw) '/').filter fun part => part ≠ "" ∧ part ≠ "."

def Passes (part : String) : Prop := part ≠ ".." ∧ isReservedDeviceName part = false

theorem collectParts_eq_ok {trimmed : String} {parts out : List String} :
    collectParts trimmed parts = .ok out ↔
      out = parts.filter (fun part => part ≠ "" ∧ part ≠ ".") ∧ ∀ part ∈ out, Passes part := by
  induction parts generalizing out with
  | nil =>
    refine ⟨fun h => ?_, fun h => by rw [h.1]; rfl⟩
    cases h
    exact ⟨rfl, fun _ h => by cases h⟩
  | cons part rest ih =>
    rw [collectParts]
    by_cases hskip : part = "" ∨ part = "."
    · have hdrop : ¬ (part ≠ "" ∧ part ≠ ".") := by tauto
      rw [if_pos hskip, ih, filter_cons_of_neg (by simpa using hdrop)]
    have hkeep : part ≠ "" ∧ part ≠ "." := by tauto
    rw [if_neg hskip, filter_cons_of_pos (by simpa using hkeep)]
    by_cases hup : part = ".."
    · rw [if_pos hup]
      refine ⟨(fun h => by cases h), fun h => ?_⟩
      exact absurd hup (h.2 part (by rw [h.1]; exact mem_cons_self)).1
    rw [if_neg hup]
    by_cases hreserved : isReservedDeviceName part = true
    · rw [if_pos hreserved]
      refine ⟨(fun h => by cases h), fun h => ?_⟩
      have hfalse := (h.2 part (by rw [h.1]; exact mem_cons_self)).2
      rw [hreserved] at hfalse
      cases hfalse
    rw [if_neg hreserved]
    have hpass : Passes part := ⟨hup, by simpa using hreserved⟩
    constructor
    · intro h
      cases hrest : collectParts trimmed rest with
      | error e =>
        rw [hrest] at h
        cases h
      | ok more =>
        rw [hrest] at h
        cases h
        obtain ⟨heq, hall⟩ := ih.mp hrest
        exact ⟨by rw [← heq], List.forall_mem_cons.mpr ⟨hpass, hall⟩⟩
    · rintro ⟨rfl, hall⟩
      rw [ih.mpr ⟨rfl, fun part hpart => hall part (mem_cons_of_mem _ hpart)⟩]
      rfl

structure Accepted (raw p : String) : Prop where
  noControl : ∀ c ∈ raw.toList, isControl c = false
  notEmpty : trimmedPath raw ≠ "" ∧ trimmedPath raw ≠ "."
  notRooted : (trimmedPath raw).toList.head? ≠ some '/'
  noDrive : hasDrive (trimmedPath raw) = false
  parts : keptParts raw ≠ []
  passes : ∀ part ∈ keptParts raw, Passes part
  joined : p = join "/" (keptParts raw)

theorem startsWith_char {s : String} {pat : String} {c : Char} {rest : List Char}
    (h : pat.toList = c :: rest) (hstart : startsWith s pat = true) : s.toList.head? = some c := by
  unfold startsWith at hstart
  rw [h] at hstart
  cases hs : s.toList with
  | nil =>
    rw [hs] at hstart
    cases hstart
  | cons d ds =>
    rw [hs, isPrefixOf_cons_cons] at hstart
    simp only [Bool.and_eq_true, beq_iff_eq] at hstart
    rw [hstart.1]
    rfl

theorem startsWith_slash {s : String} (h : s.toList.head? = some '/') : startsWith s "/" = true := by
  unfold startsWith
  cases hs : s.toList with
  | nil =>
    rw [hs] at h
    cases h
  | cons d ds =>
    rw [hs] at h
    obtain rfl := Option.some.inj h
    rfl

theorem backslash_notMem_trimmedPath (raw : String) : '\\' ∉ (trimmedPath raw).toList := by
  intro h
  have hmem := mem_of_mem_trim h
  unfold replaceChar at hmem
  rw [String.toList_ofList] at hmem
  obtain ⟨c, -, hc⟩ := List.mem_map.mp hmem
  split at hc
  · exact absurd hc (by decide)
  · rename_i hne
    exact hne hc

theorem sanitizeLogicalPath_eq_ok {raw p : String} : sanitizeLogicalPath raw = .ok p ↔ Accepted raw p := by
  unfold sanitizeLogicalPath
  constructor
  · intro h
    split at h
    · cases h
    split at h
    · cases h
    rename_i hcontrol
    dsimp only at h
    split at h
    · cases h
    rename_i hempty
    split at h
    · cases h
    rename_i hslash
    split at h
    · cases h
    split at h
    · cases h
    rename_i hdrive
    cases hparts : collectParts (trimmedPath raw) (split (trimmedPath raw) '/') with
    | error e =>
      rw [hparts] at h
      cases h
    | ok outParts =>
      have hkept := collectParts_eq_ok.mp hparts
      have hout : outParts = keptParts raw := hkept.1
      rw [hparts] at h
      replace h : (if outParts = [] then throw ⟨zipEmptyPath,
        "path resolved empty"⟩ else pure (join "/" outParts) :
        Except PathRejected String) = .ok p := h
      rw [hout] at hkept h
      split at h
      · cases h
      rename_i hne
      rw [not_or] at hempty
      exact ⟨by simpa using hcontrol, hempty,
        mt startsWith_slash hslash, by simpa using hdrive, hne, hkept.2, (Except.ok.inj h).symm⟩
  · intro h
    have hnul : raw.toList.contains '\x00' = false := by
      rw [contains_eq_mem, decide_eq_false_iff_not]
      intro hmem
      exact absurd (h.noControl _ hmem) (by decide)
    have hcontrol : raw.toList.any isControl = false := by simpa using h.noControl
    have hslash : startsWith (trimmedPath raw) "/" = false := by
      rw [Bool.eq_false_iff]
      exact fun hstart => h.notRooted (startsWith_char rfl hstart)
    have hunc : ¬ (startsWith (trimmedPath raw) "//" = true ∨ startsWith (trimmedPath raw) "\\\\" = true) := by
      rintro (hstart | hstart)
      · exact h.notRooted (startsWith_char rfl hstart)
      · exact backslash_notMem_trimmedPath raw (mem_of_mem_head? (startsWith_char rfl hstart))
    have hcollect : collectParts (trimmedPath raw) (split (trimmedPath raw) '/') = .ok (keptParts raw) :=
      collectParts_eq_ok.mpr ⟨rfl, h.passes⟩
    rw [hnul, hcontrol]
    dsimp only
    rw [if_neg Bool.false_ne_true, if_neg Bool.false_ne_true, if_neg (not_or.mpr h.notEmpty), hslash,
      if_neg Bool.false_ne_true, if_neg hunc, h.noDrive, if_neg Bool.false_ne_true, hcollect]
    simp only [bind, Except.bind]
    rw [if_neg h.parts, h.joined]
    rfl

theorem mem_splitChars {sep c : Char} {cs piece : List Char} (hpiece : piece ∈ splitChars sep cs)
    (hc : c ∈ piece) :
    c ∈ cs ∧ c ≠ sep := by
  induction cs generalizing piece with
  | nil =>
    rw [splitChars, mem_singleton] at hpiece
    rw [hpiece] at hc
    cases hc
  | cons x xs ih =>
    rw [splitChars] at hpiece
    split at hpiece
    · rcases List.mem_cons.mp hpiece with rfl | hpiece
      · cases hc
      · exact (ih hpiece hc).imp_left (mem_cons_of_mem _)
    · rename_i hne
      split at hpiece
      · rw [mem_singleton] at hpiece
        rw [hpiece, mem_singleton] at hc
        exact ⟨by rw [hc]; exact mem_cons_self, by rwa [hc]⟩
      · rename_i first more hsplit
        rw [hsplit] at ih
        rcases List.mem_cons.mp hpiece with rfl | hpiece
        · rcases List.mem_cons.mp hc with rfl | hc
          · exact ⟨mem_cons_self, hne⟩
          · exact (ih mem_cons_self hc).imp_left (mem_cons_of_mem _)
        · exact (ih (mem_cons_of_mem _ hpiece) hc).imp_left (mem_cons_of_mem _)

theorem splitChars_ne_nil (sep : Char) (cs : List Char) : splitChars sep cs ≠ [] := by
  cases cs with
  | nil => exact cons_ne_nil _ _
  | cons x xs =>
    rw [splitChars]
    split
    · exact cons_ne_nil _ _
    · split <;> exact cons_ne_nil _ _

theorem join_split (s : String) : join "/" (split s '/') = s := by
  have hchars : ∀ cs : List Char, (join "/" ((splitChars '/' cs).map String.ofList)).toList = cs := by
    intro cs
    induction cs with
    | nil => rfl
    | cons x xs ih =>
      rw [splitChars]
      have hne := splitChars_ne_nil '/' xs
      cases hsplit : splitChars '/' xs with
      | nil => exact absurd hsplit hne
      | cons first more =>
        rw [hsplit] at ih
        split
        · rename_i hx
          rw [hx, map_cons, map_cons, join_cons_cons, String.toList_append, String.toList_append,
            ← map_cons, ih]
          rfl
        · cases more with
          | nil =>
            rw [← ih]
            simp [join]
          | cons second more =>
            rw [map_cons, map_cons, join_cons_cons] at ih ⊢
            simp only [String.toList_append, String.toList_ofList, cons_append] at ih ⊢
            rw [ih]
  rw [← String.toList_inj]
  exact hchars s.toList

theorem length_join_filter (q : String → Bool) (names : List String) :
    (join "/" (names.filter q)).length ≤ (join "/" names).length := by
  induction names with
  | nil => exact Nat.le_refl _
  | cons s rest ih =>
    have hcons : ∀ names : List String, names ≠ [] →
        (join "/" (s :: names)).length = s.length + 1 + (join "/" names).length := by
      intro names hne
      cases names with
      | nil => exact absurd rfl hne
      | cons t names =>
        rw [join_cons_cons, String.length_append, String.length_append]
        rfl
    rcases rest with _ | ⟨t, rest⟩
    · rw [filter_cons]
      split
      · exact Nat.le_refl _
      · exact Nat.zero_le _
    · have hall := hcons (t :: rest) (cons_ne_nil _ _)
      rw [filter_cons]
      split
      · by_cases hnil : (t :: rest).filter q = []
        · rw [hnil, hall]
          show s.length ≤ _
          omega
        · rw [hcons _ hnil, hall]
          omega
      · omega

variable {raw p part : String}

theorem mem_keptParts (h : part ∈ keptParts raw) : part ≠ "" ∧ part ≠ "." ∧
    ∀ c ∈ part.toList, c ∈ (trimmedPath raw).toList ∧ c ≠ '/' := by
  obtain ⟨hsplit, hkeep⟩ := List.mem_filter.mp h
  obtain ⟨piece, hpiece, rfl⟩ := List.mem_map.mp hsplit
  obtain ⟨hne, hdot⟩ := of_decide_eq_true hkeep
  refine ⟨hne, hdot, fun c hc => mem_splitChars hpiece ?_⟩
  rwa [String.toList_ofList] at hc

theorem hasDrive_join (h : part ≠ "") (rest : List String) :
    hasDrive (join "/" (part :: rest)) = hasDrive part := by
  cases rest with
  | nil => rfl
  | cons s rest =>
    unfold hasDrive
    rw [join_cons_cons, bytes_append, bytes_append]
    rcases hbytes : bytes part with _ | ⟨first, _ | ⟨second, more⟩⟩
    · exact absurd (bytes_injective (hbytes.trans bytes_empty.symm)) h
    · rfl
    · rfl

theorem Accepted.chars (h : Accepted raw p) : ∀ c ∈ p.toList, isControl c = false ∧ c ≠ '\\' := by
  intro c hc
  rw [h.joined] at hc
  rcases mem_join hc with hslash | ⟨part, hpart, hmem⟩
  · rw [List.mem_singleton.mp hslash]
    decide
  · have htrimmed := ((mem_keptParts hpart).2.2 c hmem).1
    refine ⟨?_, fun heq => ?_⟩
    · have hreplaced := mem_of_mem_trim htrimmed
      unfold replaceChar at hreplaced
      rw [String.toList_ofList] at hreplaced
      obtain ⟨x, hx, rfl⟩ := List.mem_map.mp hreplaced
      split
      · decide
      · exact h.noControl x hx
    · rw [heq] at htrimmed
      exact backslash_notMem_trimmedPath raw htrimmed

theorem trimmedPath_eq_trim (h : '\\' ∉ p.toList) : trimmedPath p = trim p := by
  have hmap : p.toList.map (fun x => if x = '\\' then '/' else x) = p.toList :=
    map_chars_eq_self fun c hc => if_neg fun (heq : c = '\\') => h (heq ▸ hc)
  unfold trimmedPath replaceChar
  rw [hmap, String.ofList_toList]

theorem Accepted.split_eq (h : Accepted raw p) : split p '/' = keptParts raw := by
  rw [h.joined]
  exact split_join rfl h.parts fun part hpart hslash => ((mem_keptParts hpart).2.2 _ hslash).2 rfl

theorem trim_eq_of_accepted (h : Accepted raw p) (hagain : Accepted p p) : trim p = p := by
  have htrim := trimmedPath_eq_trim fun hmem => (h.chars _ hmem).2 rfl
  have hle : p.length ≤ (trim p).length := by
    conv_lhs => rw [hagain.joined]
    refine (length_join_filter _ _).trans (le_of_eq ?_)
    rw [join_split, htrim]
  have hinfix := trimMatches_isInfix isWhitespace p.toList
  have hsame : trimMatches isWhitespace p.toList = p.toList := by
    refine hinfix.eq_of_length (le_antisymm hinfix.length_le ?_)
    unfold trim at hle
    rwa [String.length_ofList, ← String.length_toList] at hle
  unfold trim
  rw [hsame, String.ofList_toList]

/-- A segment without the spaces and dots at its end, as Windows reads it. -/
def stripTrailing (segment : String) : String :=
  String.ofList (segment.toList.reverse.dropWhile fun c => c = ' ' ∨ c = '.').reverse

def BadSegment (segment : String) : Prop :=
  segment = "" ∨ segment = "." ∨ segment = ".." ∨ isReservedDeviceName segment = true

/-- No root, no drive, and no segment that leads elsewhere. -/
structure PackageRelative (p : String) : Prop where
  notRooted : p.toList.head? ≠ some '/'
  noDrive : hasDrive p = false
  segments : ∀ segment ∈ split p '/', ¬ BadSegment segment ∧ ¬ BadSegment (stripTrailing segment)

/-- The form of a sanitized path: relative, with `/` separators, no control character and no white
space around. -/
structure Normal (p : String) : Prop extends PackageRelative p where
  chars : ∀ c ∈ p.toList, isControl c = false ∧ c ≠ '\\'
  trimmed : trim p = p

/-- Nothing is exposed by dropping segments: the first that is kept begins with no white space and
no drive, the last ends with no white space, and no name is bad without the spaces and dots at its
end. -/
structure ExposesNothing (raw : String) : Prop where
  first : ∀ part, (keptParts raw).head? = some part →
    hasDrive part = false ∧ ∀ c, part.toList.head? = some c → isWhitespace c = false
  last : ∀ part, (keptParts raw).getLast? = some part → ∀ c, part.toList.getLast? = some c →
    isWhitespace c = false
  names : ∀ part ∈ keptParts raw, ¬ BadSegment (stripTrailing part)

theorem Normal.accepted (h : Normal p) : Accepted p p := by
  have hpath : trimmedPath p = p := (trimmedPath_eq_trim fun hmem => (h.chars _ hmem).2 rfl).trans h.trimmed
  have hgood : ∀ part ∈ split p '/', part ≠ "" ∧ part ≠ "." ∧ Passes part := by
    intro part hpart
    have hbad := (h.segments part hpart).1
    unfold BadSegment at hbad
    push Not at hbad
    exact ⟨hbad.1, hbad.2.1, hbad.2.2.1, by simpa using hbad.2.2.2⟩
  have hkept : keptParts p = split p '/' := by
    unfold keptParts
    rw [hpath]
    exact List.filter_eq_self.mpr fun part hpart =>
      decide_eq_true ⟨(hgood part hpart).1, (hgood part hpart).2.1⟩
  refine ⟨fun c hc => (h.chars c hc).1, ?_, ?_, ?_, ?_, ?_, ?_⟩
  · rw [hpath]
    refine ⟨fun hnil => ?_, fun hdot => ?_⟩
    · exact (hgood "" (by rw [hnil]; exact mem_singleton_self _)).1 rfl
    · exact (hgood "." (by rw [hdot]; exact mem_singleton_self _)).2.1 rfl
  · rw [hpath]
    exact h.notRooted
  · rw [hpath]
    exact h.noDrive
  · rw [hkept]
    exact mt List.map_eq_nil_iff.mp (splitChars_ne_nil '/' _)
  · rw [hkept]
    exact fun part hpart => (hgood part hpart).2.2
  · rw [hkept, join_split]

theorem Accepted.normal (h : Accepted raw p) (hexposes : ExposesNothing raw) : Normal p := by
  obtain ⟨first, rest, hparts⟩ := exists_cons_of_ne_nil h.parts
  have hmem : first ∈ keptParts raw := by
    rw [hparts]
    exact mem_cons_self
  have hfirst := mem_keptParts hmem
  have hjoined := h.joined
  rw [hparts] at hjoined
  obtain ⟨hdrive, hhead⟩ := hexposes.first first (by rw [hparts]; rfl)
  have hp : p.toList.head? = first.toList.head? := by rw [hjoined, head?_join hfirst.1]
  have htrim : trimMatches isWhitespace p.toList = p.toList := by
    refine trimMatches_eq_self (fun c hc => hhead c (hp ▸ hc)) fun c hc => ?_
    rw [h.joined, getLast?_join fun part hpart => (mem_keptParts hpart).1] at hc
    obtain ⟨last, hlast, hc⟩ := Option.bind_eq_some_iff.mp hc
    exact hexposes.last last hlast c hc
  refine ⟨⟨?_, ?_, ?_⟩, h.chars, ?_⟩
  · rw [hp]
    exact fun hslash => (hfirst.2.2 '/' (mem_of_mem_head? hslash)).2 rfl
  · rw [hjoined, hasDrive_join hfirst.1, hdrive]
  · rw [h.split_eq]
    intro part hpart
    obtain ⟨hne, hdot, -⟩ := mem_keptParts hpart
    obtain ⟨hup, hreserved⟩ := h.passes part hpart
    refine ⟨?_, hexposes.names part hpart⟩
    rintro (hbad | hbad | hbad | hbad)
    · exact hne hbad
    · exact hdot hbad
    · exact hup hbad
    · rw [hreserved] at hbad
      cases hbad
  · unfold trim
    rw [htrim, String.ofList_toList]

/-- A sanitized path is accepted again, unchanged, and stays below the package exactly when dropping
segments has exposed nothing. A path that has the form already is accepted unchanged. -/
theorem sanitizeLogicalPath_sound_iff (raw : String) : (∀ p, sanitizeLogicalPath raw = .ok p →
      ((sanitizeLogicalPath p = .ok p ∧ PackageRelative p) ↔ ExposesNothing raw)) ∧
      (Normal raw → sanitizeLogicalPath raw = .ok raw) := by
  have hnormal : ∀ p, Normal p → sanitizeLogicalPath p = .ok p :=
    fun p h => sanitizeLogicalPath_eq_ok.mpr h.accepted
  refine ⟨fun p hok => ?_, hnormal raw⟩
  have h := sanitizeLogicalPath_eq_ok.mp hok
  constructor
  · rintro ⟨hagain, hrel⟩
    have htrim := trim_eq_of_accepted h (sanitizeLogicalPath_eq_ok.mp hagain)
    have hchars : trimMatches isWhitespace p.toList = p.toList := by
      have hlist := congrArg String.toList htrim
      rwa [trim, String.toList_ofList] at hlist
    refine ⟨fun part hpart => ⟨?_, fun c hc => ?_⟩, fun part hpart c hc => ?_, fun part hpart => ?_⟩
    · obtain ⟨rest, hparts⟩ := List.head?_eq_some_iff.mp hpart
      have hne := (mem_keptParts (mem_of_mem_head? hpart)).1
      have hdrive := hrel.noDrive
      rwa [h.joined, hparts, hasDrive_join hne] at hdrive
    · obtain ⟨rest, hparts⟩ := List.head?_eq_some_iff.mp hpart
      have hne := (mem_keptParts (mem_of_mem_head? hpart)).1
      have hhead : (trimMatches isWhitespace p.toList).head? = some c := by
        rw [hchars, h.joined, hparts, head?_join hne, hc]
      exact head?_trimMatches hhead
    · have hlast : (trimMatches isWhitespace p.toList).getLast? = some c := by
        rw [hchars, h.joined, getLast?_join fun part hpart => (mem_keptParts hpart).1, hpart]
        exact hc
      exact getLast?_trimMatches hlast
    · exact (hrel.segments part (by rw [h.split_eq]; exact hpart)).2
  · intro hexposes
    have hform := h.normal hexposes
    exact ⟨hnormal p hform, hform.toPackageRelative⟩

theorem sanitizeLogicalPath_sound_iff_mail :
    sanitizeLogicalPath "mail\\a.eml" = .ok "mail/a.eml" ∧
      sanitizeLogicalPath "mail/a.eml" = .ok "mail/a.eml" ∧
      PackageRelative "mail/a.eml" := by
  have hok : sanitizeLogicalPath "mail\\a.eml" = .ok "mail/a.eml" := by decide +kernel
  have hparts : keptParts "mail\\a.eml" = ["mail", "a.eml"] := by decide +kernel
  refine ⟨hok, ((sanitizeLogicalPath_sound_iff "mail\\a.eml").1 "mail/a.eml" hok).mpr ?_⟩
  refine ⟨fun part hpart => ?_, fun part hpart c hc => ?_, fun part hpart => ?_⟩
  · rw [hparts] at hpart
    obtain rfl := Option.some.inj hpart
    refine ⟨by decide, fun c hc => ?_⟩
    obtain rfl := Option.some.inj hc
    decide
  · rw [hparts] at hpart
    obtain rfl := Option.some.inj hpart
    obtain rfl := Option.some.inj hc
    decide
  · rw [hparts] at hpart
    unfold BadSegment
    revert part
    decide +kernel

/-- The dot is dropped and the drive behind it is left, which the sanitizer itself takes for an
absolute path. -/
theorem sanitizeLogicalPath_exposes_drive :
    sanitizeLogicalPath "./C:/x" = .ok "C:/x" ∧
      sanitizeLogicalPath "C:/x" = .error ⟨zipAbsolutePath, "drive-absolute path: C:/x"⟩ ∧
      ¬ ∀ raw p, sanitizeLogicalPath raw = .ok p → sanitizeLogicalPath p = .ok p ∧ PackageRelative p := by
  have hfirst : sanitizeLogicalPath "./C:/x" = .ok "C:/x" := by decide +kernel
  have hsecond : sanitizeLogicalPath "C:/x" = .error ⟨zipAbsolutePath, "drive-absolute path: C:/x"⟩ := by
    decide +kernel
  refine ⟨hfirst, hsecond, fun h => ?_⟩
  have hagain := (h _ _ hfirst).1
  rw [hsecond] at hagain
  cases hagain

end IngestPurview
