import Mathlib

/-!
# Multipart texts (RFC 2046)

An `Entity` is a header and a body: a leaf, a multipart with a boundary, or a message inside.
-/

namespace Foundations

open List

variable {c : UInt8}

/-! ## Lines -/

def consHead (c : UInt8) : List (List UInt8) → List (List UInt8)
  | [] => [[c]]
  | l :: ls => (c :: l) :: ls

def textLines : List UInt8 → List (List UInt8)
  | [] => [[]]
  | [c] => [[c]]
  | c :: d :: rest =>
    if c = 13 ∧ d = 10 then [] :: textLines rest
    else consHead c (textLines (d :: rest))

def unlines : List (List UInt8) → List UInt8
  | [] => []
  | [l] => l
  | l :: ls => l ++ 13 :: 10 :: unlines ls

theorem textLines_cons_cons (c d : UInt8) (rest : List UInt8) : textLines (c :: d :: rest)
      = if c = 13 ∧ d = 10 then [] :: textLines rest else consHead c (textLines (d :: rest)) := rfl

theorem textLines_ne_nil (t : List UInt8) : textLines t ≠ [] := by
  induction t using textLines.induct with
  | case1 => exact cons_ne_nil _ _
  | case2 c => exact cons_ne_nil _ _
  | case3 c d rest h ih =>
    rw [textLines, if_pos h]
    exact cons_ne_nil _ _
  | case4 c d rest h ih =>
    rw [textLines, if_neg h]
    cases hl : textLines (d :: rest) with
    | nil => exact absurd hl ih
    | cons l ls => exact cons_ne_nil _ _

theorem consHead_append {ls : List (List UInt8)} (h : ls ≠ []) (ms : List (List UInt8)) :
    consHead c (ls ++ ms) = consHead c ls ++ ms := by
  cases ls with
  | nil => exact absurd rfl h
  | cons l ls => rfl

theorem textLines_append (a b : List UInt8) : textLines (a ++ 13 :: 10 :: b) = textLines a ++ textLines b := by
  induction a using textLines.induct with
  | case1 =>
    rw [nil_append, textLines_cons_cons, if_pos ⟨rfl, rfl⟩]
    rfl
  | case2 c =>
    have hcr : ¬ (c = 13 ∧ (13 : UInt8) = 10) := fun h => absurd h.2 (by decide)
    rw [singleton_append, textLines_cons_cons, if_neg hcr, textLines_cons_cons, if_pos ⟨rfl, rfl⟩]
    rfl
  | case3 c d rest h ih =>
    rw [cons_append, cons_append, textLines_cons_cons, if_pos h, ih, textLines_cons_cons, if_pos h,
      cons_append]
  | case4 c d rest h ih =>
    rw [cons_append] at ih
    rw [cons_append, cons_append, textLines_cons_cons, if_neg h, ih, textLines_cons_cons, if_neg h,
      consHead_append (textLines_ne_nil _)]

theorem unlines_consHead {ls : List (List UInt8)} (h : ls ≠ []) :
    unlines (consHead c ls) = c :: unlines ls := by
  cases ls with
  | nil => exact absurd rfl h
  | cons l ls =>
    cases ls with
    | nil => rfl
    | cons m ls => rfl

theorem unlines_textLines (t : List UInt8) : unlines (textLines t) = t := by
  induction t using textLines.induct with
  | case1 => rfl
  | case2 c => rfl
  | case3 c d rest h ih =>
    rw [textLines, if_pos h]
    cases hl : textLines rest with
    | nil => exact absurd hl (textLines_ne_nil rest)
    | cons l ls =>
      rw [unlines, nil_append, ← hl, ih, h.1, h.2]
      exact cons_ne_nil _ _
  | case4 c d rest h ih => rw [textLines, if_neg h, unlines_consHead (textLines_ne_nil _), ih]

theorem textLines_of_notMem {t : List UInt8} (h : 13 ∉ t) : textLines t = [t] := by
  induction t using textLines.induct with
  | case1 => rfl
  | case2 c => rfl
  | case3 c d rest hcd ih => exact absurd (hcd.1 ▸ mem_cons_self) h
  | case4 c d rest hcd ih =>
    rw [textLines, if_neg hcd, ih fun hmem => h (mem_cons_of_mem c hmem)]
    rfl

theorem mem_of_mem_textLines {t l : List UInt8} (h : l ∈ textLines t) (hc : c ∈ l) : c ∈ t := by
  have hmem : ∀ ls : List (List UInt8), l ∈ ls → c ∈ unlines ls := by
    intro ls hl
    induction ls with
    | nil => cases hl
    | cons m ls ih =>
      cases ls with
      | nil => exact List.mem_singleton.mp hl ▸ hc
      | cons n ls =>
        rcases List.mem_cons.mp hl with rfl | hl
        · exact mem_append_left _ hc
        · exact mem_append_right _ (mem_cons_of_mem _ (mem_cons_of_mem _ (ih hl)))
  rw [← unlines_textLines t]
  exact hmem _ h

/-! ## Reading -/

/-- `--` and the boundary: what a delimiter line begins with. -/
def delimiter (b : List UInt8) : List UInt8 := 45 :: 45 :: b

/-- The delimiter and `--`: what the last one begins with. -/
def closeDelimiter (b : List UInt8) : List UInt8 := delimiter b ++ [45, 45]

def readHeader : List (List UInt8) → List (List UInt8) × List (List UInt8)
  | [] => ([], [])
  | [] :: rest => ([], rest)
  | (c :: l) :: rest => ((c :: l) :: (readHeader rest).1, (readHeader rest).2)

def collectParts (b : List UInt8) : List (List UInt8) → Option (List (List (List UInt8)))
  | [] => none
  | l :: rest =>
    if closeDelimiter b <+: l then some [[]]
    else if delimiter b <+: l then (collectParts b rest).map ([] :: ·)
    else (collectParts b rest).map fun
      | [] => [[l]]
      | p :: ps => (l :: p) :: ps

def splitParts (b : List UInt8) (body : List (List UInt8)) : Option (List (List (List UInt8))) :=
  match body.dropWhile fun l => ¬ delimiter b <+: l with
  | [] => none
  | l :: rest => if closeDelimiter b <+: l then some [] else collectParts b rest

/-! ## Entities -/

inductive Entity where
  | leaf (header : List (List UInt8)) (content data : List UInt8)
  | multipart (header : List (List UInt8)) (boundary : List UInt8) (parts : List Entity)
      (epilogue : List (List UInt8))
  | message (header : List (List UInt8)) (inner : Entity)

/-- How a reader understands a header: the boundary of a multipart, and the encoding of a
content. -/
structure HeaderReader where
  boundary : List (List UInt8) → Option (List UInt8)
  decode : List (List UInt8) → List UInt8 → Option (List UInt8)

namespace Entity

mutual

def lines : Entity → List (List UInt8)
  | leaf header content _ => header ++ [] :: textLines content
  | multipart header b parts epilogue =>
    header ++ [] :: (partLines b parts ++ closeDelimiter b :: epilogue)
  | message header inner => header ++ [] :: inner.lines

def partLines (b : List UInt8) : List Entity → List (List UInt8)
  | [] => []
  | p :: ps => delimiter b :: (p.lines ++ partLines b ps)

end

mutual

def Recovered (reader : HeaderReader) : Entity → Prop
  | leaf header content data =>
    reader.boundary header = none ∧ ∃ body, readHeader (leaf header content data).lines =
      (header, body) ∧ reader.decode header (unlines body) = some data
  | multipart header b parts epilogue =>
    reader.boundary header = some b ∧
    (∃ body, readHeader (multipart header b parts epilogue).lines = (header, body) ∧
      splitParts b body = some (parts.map lines)) ∧ AllRecovered reader parts
  | message header inner =>
    reader.boundary header = none ∧
    readHeader (message header inner).lines = (header, inner.lines) ∧ Recovered reader inner

def AllRecovered (reader : HeaderReader) : List Entity → Prop
  | [] => True
  | p :: ps => Recovered reader p ∧ AllRecovered reader ps

end

mutual

def ContentClear (b : List UInt8) : Entity → Prop
  | leaf _ content _ => ∀ l ∈ textLines content, ¬ delimiter b <+: l
  | multipart _ _ parts _ => AllContentClear b parts
  | message _ inner => ContentClear b inner

def AllContentClear (b : List UInt8) : List Entity → Prop
  | [] => True
  | p :: ps => ContentClear b p ∧ AllContentClear b ps

end

mutual

/-- No leaf declares a boundary, and no line of one begins with the delimiter of a multipart around
it. -/
def Clear (reader : HeaderReader) : Entity → Prop
  | leaf header _ _ => reader.boundary header = none
  | multipart _ b parts _ => AllContentClear b parts ∧ AllClear reader parts
  | message _ inner => Clear reader inner

def AllClear (reader : HeaderReader) : List Entity → Prop
  | [] => True
  | p :: ps => Clear reader p ∧ AllClear reader ps

end

mutual

def Apart (b : List UInt8) : Entity → Prop
  | leaf _ _ _ => True
  | multipart _ b' parts _ => ¬ delimiter b <+: closeDelimiter b' ∧ AllApart b parts
  | message _ inner => Apart b inner

def AllApart (b : List UInt8) : List Entity → Prop
  | [] => True
  | p :: ps => Apart b p ∧ AllApart b ps

end

/-- A header line: not empty, and it begins with another character than a delimiter line. -/
def HeaderLine (l : List UInt8) : Prop := ∃ c rest, l = c :: rest ∧ c ≠ 45

mutual

def WellFormed (reader : HeaderReader) : Entity → Prop
  | leaf header content data =>
    (∀ l ∈ header, HeaderLine l) ∧ reader.decode header content = some data
  | multipart header b parts epilogue =>
    (∀ l ∈ header, HeaderLine l) ∧ reader.boundary header = some b ∧ parts ≠ [] ∧
      (∀ l ∈ epilogue, l = []) ∧ AllApart b parts ∧ AllWellFormed reader parts
  | message header inner =>
    (∀ l ∈ header, HeaderLine l) ∧ reader.boundary header = none ∧ WellFormed reader inner

def AllWellFormed (reader : HeaderReader) : List Entity → Prop
  | [] => True
  | p :: ps => WellFormed reader p ∧ AllWellFormed reader ps

end

end Entity

/-! ## Cutting a body -/

section Split

variable {b : List UInt8}

theorem delimiter_of_closeDelimiter {l : List UInt8} (h : closeDelimiter b <+: l) : delimiter b <+: l :=
  (prefix_append (delimiter b) [45, 45]).trans h

theorem not_closeDelimiter_delimiter : ¬ closeDelimiter b <+: delimiter b := by
  intro h
  have hlen := h.length_le
  unfold closeDelimiter at hlen
  rw [length_append] at hlen
  have htwo : ([45, 45] : List UInt8).length = 2 := rfl
  omega

theorem collectParts_append_close {p : List (List UInt8)} (hp : ∀ l ∈ p, ¬ delimiter b <+: l)
    (epilogue : List (List UInt8)) : collectParts b (p ++ closeDelimiter b :: epilogue) = some [p] := by
  induction p with
  | nil => rw [nil_append, collectParts, if_pos (prefix_refl _)]
  | cons l p ih =>
    have hl := hp l mem_cons_self
    rw [cons_append, collectParts, if_neg (mt delimiter_of_closeDelimiter hl), if_neg hl,
      ih fun m hm => hp m (mem_cons_of_mem l hm)]
    rfl

theorem collectParts_append_delimiter {p : List (List UInt8)} (hp : ∀ l ∈ p, ¬ delimiter b <+: l)
    (rest : List (List UInt8)) :
    collectParts b (p ++ delimiter b :: rest) = (collectParts b rest).map (p :: ·) := by
  induction p with
  | nil =>
    rw [nil_append, collectParts, if_neg not_closeDelimiter_delimiter, if_pos (prefix_refl _)]
  | cons l p ih =>
    have hl := hp l mem_cons_self
    rw [cons_append, collectParts, if_neg (mt delimiter_of_closeDelimiter hl), if_neg hl,
      ih fun m hm => hp m (mem_cons_of_mem l hm), Option.map_map]
    rfl

theorem not_delimiter_of_mem_collectParts {body : List (List UInt8)} {parts : List (List (List UInt8))}
    (h : collectParts b body = some parts) : ∀ p ∈ parts, ∀ l ∈ p, ¬ delimiter b <+: l := by
  induction body generalizing parts with
  | nil => cases h
  | cons line rest ih =>
    rw [collectParts] at h
    split at h
    · cases h
      intro p hp l hl
      rw [List.mem_singleton.mp hp] at hl
      cases hl
    split at h
    · obtain ⟨read, hread, rfl⟩ := Option.map_eq_some_iff.mp h
      intro p hp l hl
      rcases List.mem_cons.mp hp with rfl | hp
      · cases hl
      · exact ih hread p hp l hl
    · rename_i hline
      obtain ⟨read, hread, rfl⟩ := Option.map_eq_some_iff.mp h
      intro p hp l hl
      cases read with
      | nil =>
        rw [List.mem_singleton.mp hp] at hl
        rw [List.mem_singleton.mp hl]
        exact hline
      | cons q read =>
        rcases List.mem_cons.mp hp with rfl | hp
        · rcases List.mem_cons.mp hl with rfl | hl
          · exact hline
          · exact ih hread q mem_cons_self l hl
        · exact ih hread p (mem_cons_of_mem q hp) l hl

end Split

namespace Entity

variable {b : List UInt8}

theorem collectParts_partLines (p : Entity) (ps : List Entity)
    (h : ∀ q ∈ p :: ps, ∀ l ∈ q.lines, ¬ delimiter b <+: l) (epilogue : List (List UInt8)) :
    collectParts b (p.lines ++ (partLines b ps ++ closeDelimiter b :: epilogue))
      = some ((p :: ps).map lines) := by
  have hp := h p mem_cons_self
  induction ps generalizing p with
  | nil =>
    rw [partLines, nil_append, collectParts_append_close hp]
    rfl
  | cons q ps ih =>
    have hrest := ih q (fun r hr => h r (mem_cons_of_mem p hr))
      (h q (mem_cons_of_mem p mem_cons_self))
    rw [partLines, cons_append, collectParts_append_delimiter hp, append_assoc, hrest]
    rfl

theorem splitParts_eq_some_iff {parts : List Entity} (hne : parts ≠ []) (epilogue : List (List UInt8)) :
    splitParts b (partLines b parts ++ closeDelimiter b :: epilogue) = some (parts.map lines)
      ↔ ∀ p ∈ parts, ∀ l ∈ p.lines, ¬ delimiter b <+: l := by
  cases parts with
  | nil => exact absurd rfl hne
  | cons p ps =>
    have hsplit : splitParts b (partLines b (p :: ps) ++ closeDelimiter b :: epilogue)
        = collectParts b (p.lines ++ (partLines b ps ++ closeDelimiter b :: epilogue)) := by
      unfold splitParts
      rw [partLines, cons_append, append_assoc, dropWhile_cons_of_neg (by simp)]
      exact if_neg not_closeDelimiter_delimiter
    rw [hsplit]
    constructor
    · intro h q hq l hl
      exact not_delimiter_of_mem_collectParts h _ (mem_map_of_mem hq) l hl
    · exact fun h => collectParts_partLines p ps h epilogue

/-! ## Reading an entity back -/

theorem readHeader_append {header : List (List UInt8)} (h : ∀ l ∈ header, HeaderLine l)
    (body : List (List UInt8)) : readHeader (header ++ [] :: body) = (header, body) := by
  induction header with
  | nil => rfl
  | cons l header ih =>
    obtain ⟨c, rest, rfl, _⟩ := h _ mem_cons_self
    rw [cons_append, readHeader, ih fun m hm => h m (mem_cons_of_mem _ hm)]

theorem HeaderLine.not_delimiter {b l : List UInt8} (h : HeaderLine l) : ¬ delimiter b <+: l := by
  obtain ⟨c, rest, rfl, hc⟩ := h
  intro hdash
  exact hc (List.cons_prefix_cons.mp hdash).1.symm

theorem not_delimiter_nil : ¬ delimiter b <+: [] :=
  fun h => absurd (List.prefix_nil.mp h) (cons_ne_nil _ _)

section Content

variable {reader : HeaderReader} {b : List UInt8}

theorem forall_lines_header {header body : List (List UInt8)} (h : ∀ l ∈ header, HeaderLine l) :
    (∀ l ∈ header ++ [] :: body, ¬ delimiter b <+: l) ↔ ∀ l ∈ body, ¬ delimiter b <+: l := by
  constructor
  · exact fun hall l hl => hall l (mem_append_right _ (mem_cons_of_mem _ hl))
  · intro hbody l hl
    rcases List.mem_append.mp hl with hl | hl
    · exact (h l hl).not_delimiter
    rcases List.mem_cons.mp hl with rfl | hl
    · exact not_delimiter_nil
    · exact hbody l hl

mutual

theorem forall_lines_iff : ∀ e : Entity, WellFormed reader e → Apart b e →
    ((∀ l ∈ e.lines, ¬ delimiter b <+: l) ↔ ContentClear b e)
  | leaf header content data, hform, _ => by
    rw [WellFormed] at hform
    rw [lines, ContentClear]
    exact forall_lines_header hform.1
  | multipart header b' parts epilogue, hform, hapart => by
    rw [WellFormed] at hform
    rw [Apart] at hapart
    rw [lines, ContentClear, forall_lines_header hform.1,
      ← forall_partLines_iff hapart.1 parts hform.2.2.2.2.2 hapart.2]
    constructor
    · exact fun hall l hl => hall l (mem_append_left _ hl)
    · intro hparts l hl
      rcases List.mem_append.mp hl with hl | hl
      · exact hparts l hl
      rcases List.mem_cons.mp hl with rfl | hl
      · exact hapart.1
      · rw [hform.2.2.2.1 l hl]
        exact not_delimiter_nil
  | message header inner, hform, hapart => by
    rw [WellFormed] at hform
    rw [Apart] at hapart
    rw [lines, ContentClear, forall_lines_header hform.1]
    exact forall_lines_iff inner hform.2.2 hapart

theorem forall_partLines_iff {b' : List UInt8} (hapart : ¬ delimiter b <+: closeDelimiter b') :
    ∀ parts : List Entity, AllWellFormed reader parts → AllApart b parts →
      ((∀ l ∈ partLines b' parts, ¬ delimiter b <+: l) ↔ AllContentClear b parts)
  | [], _, _ => by
    rw [partLines, AllContentClear]
    exact ⟨fun _ => trivial, fun _ l hl => by cases hl⟩
  | p :: ps, hform, happart => by
    rw [AllWellFormed] at hform
    rw [AllApart] at happart
    have hp := forall_lines_iff p hform.1 happart.1
    have hps := forall_partLines_iff hapart ps hform.2 happart.2
    rw [partLines, AllContentClear, ← hp, ← hps]
    constructor
    · intro hall
      exact ⟨fun l hl => hall l (mem_cons_of_mem _ (mem_append_left _ hl)),
        fun l hl => hall l (mem_cons_of_mem _ (mem_append_right _ hl))⟩
    · rintro ⟨hfirst, hrest⟩ l hl
      rcases List.mem_cons.mp hl with rfl | hl
      · exact fun h => hapart (h.trans (prefix_append _ _))
      · rcases List.mem_append.mp hl with hl | hl
        · exact hfirst l hl
        · exact hrest l hl

end

theorem allContentClear_iff (parts : List Entity) (hform : AllWellFormed reader parts)
    (hapart : AllApart b parts) :
    (∀ p ∈ parts, ∀ l ∈ p.lines, ¬ delimiter b <+: l) ↔ AllContentClear b parts := by
  induction parts with
  | nil =>
    rw [AllContentClear]
    exact ⟨fun _ => trivial, fun _ p hp => by cases hp⟩
  | cons p ps ih =>
    rw [AllWellFormed] at hform
    rw [AllApart] at hapart
    rw [AllContentClear, ← forall_lines_iff p hform.1 hapart.1, ← ih hform.2 hapart.2, forall_mem_cons]

end Content

mutual

theorem recovered_iff {reader : HeaderReader} : ∀ e : Entity, WellFormed reader e →
    (Recovered reader e ↔ Clear reader e)
  | leaf header content data, hform => by
    rw [WellFormed] at hform
    rw [Recovered, Clear, lines]
    refine ⟨fun h => h.1, fun h => ⟨h, textLines content, readHeader_append hform.1 _, ?_⟩⟩
    rw [unlines_textLines]
    exact hform.2
  | multipart header b parts epilogue, hform => by
    rw [WellFormed] at hform
    obtain ⟨hheader, hboundary, hne, _, hapart, hparts⟩ := hform
    have hsplit := splitParts_eq_some_iff (b := b) hne epilogue
    rw [allContentClear_iff parts hparts hapart] at hsplit
    rw [Recovered, Clear, lines, readHeader_append hheader, allRecovered_iff parts hparts, ← hsplit]
    constructor
    · rintro ⟨_, ⟨body, hbody, hread⟩, hall⟩
      rw [← (Prod.mk.inj hbody).2] at hread
      exact ⟨hread, hall⟩
    · rintro ⟨hread, hall⟩
      exact ⟨hboundary, ⟨_, rfl, hread⟩, hall⟩
  | message header inner, hform => by
    rw [WellFormed] at hform
    rw [Recovered, Clear, lines, readHeader_append hform.1, recovered_iff inner hform.2.2]
    exact ⟨fun h => h.2.2, fun h => ⟨hform.2.1, rfl, h⟩⟩

theorem allRecovered_iff {reader : HeaderReader} : ∀ parts : List Entity,
    AllWellFormed reader parts → (AllRecovered reader parts ↔ AllClear reader parts)
  | [], _ => by rw [AllRecovered, AllClear]
  | p :: ps, hform => by
    rw [AllWellFormed] at hform
    rw [AllRecovered, AllClear, recovered_iff p hform.1, allRecovered_iff ps hform.2]

end

/-! ## Clear inside multiparts -/

def ClearIn (reader : HeaderReader) (around : List (List UInt8)) (e : Entity) : Prop :=
  Clear reader e ∧ ∀ b ∈ around, ContentClear b e

section ClearIn

variable {reader : HeaderReader} {around : List (List UInt8)} {b : List UInt8}
  {header : List (List UInt8)} {parts : List Entity}

theorem allContentClear_iff_forall :
    AllContentClear b parts ↔ ∀ p ∈ parts, ContentClear b p := by
  induction parts with
  | nil => simp [AllContentClear]
  | cons p ps ih => rw [AllContentClear, ih, forall_mem_cons]

theorem allClear_iff_forall : AllClear reader parts ↔ ∀ p ∈ parts, Clear reader p := by
  induction parts with
  | nil => simp [AllClear]
  | cons p ps ih => rw [AllClear, ih, forall_mem_cons]

theorem clearIn_nil {e : Entity} : ClearIn reader [] e ↔ Clear reader e :=
  ⟨fun h => h.1, fun h => ⟨h, fun _ hb => by cases hb⟩⟩

theorem clearIn_leaf {content data : List UInt8} : ClearIn reader around (leaf header content data)
    ↔ reader.boundary header = none ∧ ∀ b ∈ around, ∀ l ∈ textLines content, ¬ delimiter b <+: l := by
  unfold ClearIn
  rw [Clear]
  simp only [ContentClear]

theorem clearIn_message {inner : Entity} :
    ClearIn reader around (message header inner) ↔ ClearIn reader around inner := by
  unfold ClearIn
  rw [Clear]
  simp only [ContentClear]

theorem clearIn_multipart {epilogue : List (List UInt8)} :
    ClearIn reader around (multipart header b parts epilogue) ↔ ∀ p ∈ parts,
      ClearIn reader (b :: around) p := by
  unfold ClearIn
  rw [Clear, allContentClear_iff_forall, allClear_iff_forall]
  simp only [ContentClear, allContentClear_iff_forall, forall_mem_cons]
  constructor
  · rintro ⟨⟨hown, hclear⟩, haround⟩ p hp
    exact ⟨hclear p hp, hown p hp, fun b' hb' => haround b' hb' p hp⟩
  · intro h
    exact ⟨⟨fun p hp => (h p hp).2.1, fun p hp => (h p hp).1⟩, fun b' hb' p hp => (h p hp).2.2 b' hb'⟩

end ClearIn

end Entity

end Foundations
