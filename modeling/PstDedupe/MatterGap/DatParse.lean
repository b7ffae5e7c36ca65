import PstDedupe.MatterProduce.LoadFile

/-!
# Load files read back (`matter-gap/src/dat_parse.rs`)

`parseConcordance` reads the header and the records of a load file.
-/

namespace MatterGap

open Rust MatterProduce List

variable {cs : List Char} {c : Char} {fields : List String}

inductive DatError where
  | notUtf8
  | empty
  deriving DecidableEq, Repr

def stripUtf8Bom (bs : List UInt8) : List UInt8 := if utf8Bom.isPrefixOf bs then bs.drop utf8Bom.length else bs

def decodeDatChars (raw : List Char) : List Char :=
  let s := trimMatches isWhitespace raw
  let s := if s.head? = some datQualifier then s.tail else s
  let s := if s.getLast? = some datQualifier then s.dropLast else s
  s.map fun c => if c = datNewline then '\n' else c

def decodeDatField (raw : String) : String := String.ofList (decodeDatChars raw.toList)

def splitDatLine (line : String) : List String := (split line datSeparator).map decodeDatField

def parseConcordance (bs : List UInt8) : Except DatError (List String × List (List String)) :=
  match String.fromUTF8? ⟨(stripUtf8Bom bs).toArray⟩ with
  | none => .error .notUtf8
  | some text =>
    match (lines text).filter (trim · ≠ "") with
    | [] => .error .empty
    | headerLine :: rest => .ok (splitDatLine headerLine, rest.map splitDatLine)

theorem trimMatches_eq_self {p : Char → Bool} {c d : Char} (hc : p c = false) (hd : p d = false) :
    trimMatches p (c :: cs ++ [d]) = c :: cs ++ [d] := by
  unfold trimMatches
  rw [cons_append, dropWhile_cons_of_neg (by simp [hc]), ← cons_append, reverse_append,
    reverse_singleton, singleton_append, dropWhile_cons_of_neg (by simp [hd]), reverse_cons,
    reverse_reverse]

theorem decodeDatChars_qualified (cs : List Char) :
    decodeDatChars (datQualifier :: cs ++ [datQualifier])
      = cs.map fun c => if c = datNewline then '\n' else c := by
  have hspace : isWhitespace datQualifier = false := by decide
  have hlast : (cs ++ [datQualifier]).getLast? = some datQualifier := by simp
  unfold decodeDatChars
  rw [trimMatches_eq_self hspace hspace]
  simp only [cons_append, head?_cons, if_true, tail_cons, hlast, dropLast_concat]

theorem decodeDatField_qualified (value : String) : decodeDatField (qualifiedDatField value)
      = String.ofList ((newlines value.toList).map fun c => if c = datNewline then '\n' else c) := by
  unfold decodeDatField qualifiedDatField encodeDatField
  rw [String.toList_append, String.toList_append, String.toList_ofList, String.toList_ofList]
  have hsingle : [datQualifier] ++ encodeDatChars value.toList ++ [datQualifier]
      = datQualifier :: encodeDatChars value.toList ++ [datQualifier] := rfl
  rw [hsingle, decodeDatChars_qualified, encodeDatChars_eq, map_map]
  congr 1
  refine map_congr_left fun c _ => ?_
  show (if (if c = '\n' then datNewline else c) = datNewline then '\n' else if c =
    '\n' then datNewline else c) = _
  by_cases hc : c = '\n'
  · rw [if_pos hc, if_pos rfl, hc]
    rfl
  · rw [if_neg hc]

theorem mem_newlines {d : Char} (hline : d ≠ '\n') (hreturn : d ≠ '\r') : d ∈ newlines cs ↔ d ∈ cs := by
  fun_induction newlines cs with
  | case1 => rfl
  | case2 cs ih => simp only [mem_cons, hline, hreturn, false_or, ih]
  | case3 cs hnot ih => simp only [mem_cons, hline, hreturn, false_or, ih]
  | case4 c cs hcrlf hcr ih => simp only [mem_cons, ih]

theorem decodeDatField_eq_iff (value : String) :
    decodeDatField (qualifiedDatField value) = unified value ↔ datNewline ∉ value.toList := by
  rw [decodeDatField_qualified, unified,
    String.ofList_inj, ← mem_newlines (d := datNewline) (by decide) (by decide)]
  constructor
  · intro h hmem
    have hback : datNewline ∈ (newlines value.toList).map fun c => if c = datNewline then '\n' else c := by
      rw [h]
      exact hmem
    obtain ⟨c, -, hc⟩ := List.mem_map.mp hback
    split_ifs at hc with hmark
    · exact absurd hc (by decide)
    · exact hmark hc
  · intro hmark
    have hkeep : ∀ c ∈ newlines value.toList, (if c = datNewline then '\n' else c) = c := by
      intro c hc
      exact if_neg fun (heq : c = datNewline) => hmark (heq ▸ hc)
    rw [map_congr_left hkeep, map_id']

theorem mem_qualifiedDatField {value : String} (h : c ∈ (qualifiedDatField value).toList) :
    c = datQualifier ∨ c = datNewline ∨ c ∈ newlines value.toList ∧ c ≠ '\n' := by
  unfold qualifiedDatField encodeDatField at h
  rw [String.toList_append, String.toList_append, String.toList_ofList, String.toList_ofList,
    encodeDatChars_eq] at h
  rcases List.mem_append.mp h with h | h
  · rcases List.mem_append.mp h with h | h
    · exact .inl (List.mem_singleton.mp h)
    · obtain ⟨d, hd, hc⟩ := List.mem_map.mp h
      split_ifs at hc with hline
      · exact .inr (.inl hc.symm)
      · exact .inr (.inr ⟨hc ▸ hd, hc ▸ hline⟩)
  · exact .inl (List.mem_singleton.mp h)

theorem separator_mem_qualifiedDatField {value : String} :
    datSeparator ∈ (qualifiedDatField value).toList ↔ datSeparator ∈ value.toList := by
  constructor
  · intro h
    rcases mem_qualifiedDatField h with h | h | ⟨h, -⟩
    · exact absurd h (by decide)
    · exact absurd h (by decide)
    · exact (mem_newlines (by decide) (by decide)).mp h
  · intro h
    unfold qualifiedDatField encodeDatField
    rw [String.toList_append, String.toList_append, String.toList_ofList (l := encodeDatChars _),
      encodeDatChars_eq]
    refine mem_append_left _ (mem_append_right _ (List.mem_map.mpr ⟨datSeparator,
      (mem_newlines (by decide) (by decide)).mpr h, ?_⟩))
    decide

theorem mem_newlines_ne_return : '\r' ∉ newlines cs := by
  fun_induction newlines cs with
  | case1 => exact not_mem_nil
  | case2 cs ih => exact not_mem_cons_of_ne_of_not_mem (by decide) ih
  | case3 cs hnot ih => exact not_mem_cons_of_ne_of_not_mem (by decide) ih
  | case4 c cs hcrlf hcr ih => exact not_mem_cons_of_ne_of_not_mem (Ne.symm hcr) ih

theorem newlines_eq_self (h : '\r' ∉ cs) : newlines cs = cs := by
  induction cs with
  | nil => rfl
  | cons c cs ih =>
    obtain ⟨hc, hcs⟩ := not_or.mp (mt List.mem_cons.mpr h)
    rw [newlines_cons (Ne.symm hc), ih hcs]

theorem decodeDatField_eq_self_iff (value : String) :
    decodeDatField (qualifiedDatField value) = value ↔ datNewline ∉ value.toList ∧ '\r' ∉ value.toList := by
  constructor
  · intro h
    have hreturn : '\r' ∉ value.toList := by
      rw [← h, decodeDatField_qualified, String.toList_ofList]
      intro hmem
      obtain ⟨c, hc, heq⟩ := List.mem_map.mp hmem
      split_ifs at heq with hmark
      · exact absurd heq (by decide)
      · exact mem_newlines_ne_return (heq ▸ hc)
    refine ⟨(decodeDatField_eq_iff value).mp ?_, hreturn⟩
    rw [h, unified, newlines_eq_self hreturn, String.ofList_toList]
  · rintro ⟨hmark, hreturn⟩
    rw [(decodeDatField_eq_iff value).mpr hmark, unified, newlines_eq_self hreturn, String.ofList_toList]

theorem toList_join (c : Char) (ss : List String) :
    (join (String.ofList [c]) ss).toList = [c].intercalate (ss.map String.toList) := by
  fun_induction join (String.ofList [c]) ss with
  | case1 => rfl
  | case2 s => simp
  | case3 s rest hne ih =>
    rw [String.toList_append, String.toList_append, String.toList_ofList, ih]
    cases rest with
    | nil => exact absurd rfl (hne ·)
    | cons t rest => simp only [map_cons, intercalate_cons_cons]

theorem splitDatLine_datLine (hne : fields ≠ []) (h : ∀ f ∈ fields, datSeparator ∉ f.toList) :
    splitDatLine (datLine fields) = fields.map fun f => decodeDatField (qualifiedDatField f) := by
  have hsplit : split (datLine fields) datSeparator = fields.map qualifiedDatField := by
    refine split_join String.toList_ofList (by simpa using hne) fun q hq => ?_
    obtain ⟨f, hf, rfl⟩ := List.mem_map.mp hq
    exact fun hmem => h f hf (separator_mem_qualifiedDatField.mp hmem)
  unfold splitDatLine
  rw [hsplit, map_map]
  rfl

theorem length_splitDatLine_lt {f : String} (hf : f ∈ fields) (h : datSeparator ∈ f.toList) :
    fields.length < (splitDatLine (datLine fields)).length := by
  have hne : (fields.map qualifiedDatField).map String.toList ≠ [] := by
    intro hnil
    rw [map_eq_nil_iff, map_eq_nil_iff] at hnil
    rw [hnil] at hf
    exact nomatch hf
  have hmem : (qualifiedDatField f).toList ∈ (fields.map qualifiedDatField).map String.toList :=
    mem_map_of_mem (mem_map_of_mem hf)
  have hcount : 0 < (qualifiedDatField f).toList.count datSeparator :=
    List.count_pos_iff.mpr (separator_mem_qualifiedDatField.mpr h)
  have hsum := List.sum_pos_iff_exists_pos_nat.mpr ⟨_, mem_map_of_mem (f := count datSeparator) hmem, hcount⟩
  unfold splitDatLine split datLine
  rw [toList_join, length_map, length_map, length_splitChars_intercalate hne, length_map, length_map]
  omega

/-- Neither the mark of a column nor that of a line break. -/
def Unmarked (value : String) : Prop := datSeparator ∉ value.toList ∧ datNewline ∉ value.toList

instance (value : String) : Decidable (Unmarked value) :=
  inferInstanceAs (Decidable (datSeparator ∉ value.toList ∧ datNewline ∉ value.toList))

theorem splitDatLine_eq_iff (hne : fields ≠ []) (g : String → String) :
    splitDatLine (datLine fields) = fields.map g ↔
      ∀ f ∈ fields, datSeparator ∉ f.toList ∧ decodeDatField (qualifiedDatField f) = g f := by
  constructor
  · intro h
    have hseparator : ∀ f ∈ fields, datSeparator ∉ f.toList := by
      intro f hf hmem
      have hlt := length_splitDatLine_lt hf hmem
      rw [h, length_map] at hlt
      omega
    rw [splitDatLine_datLine hne hseparator, map_inj_left] at h
    exact fun f hf => ⟨hseparator f hf, h f hf⟩
  · intro h
    rw [splitDatLine_datLine hne fun f hf => (h f hf).1, map_inj_left]
    exact fun f hf => (h f hf).2

theorem lineEnd_notMem_datLine (fields : List String) (hc : c = '\n' ∨ c = '\r') :
    c ∉ (datLine fields).toList := by
  have hfield : ∀ f, c ∉ (qualifiedDatField f).toList := by
    intro f hmem
    rcases mem_qualifiedDatField hmem with h | h | ⟨h, hline⟩
    · rcases hc with rfl | rfl <;> exact absurd h (by decide)
    · rcases hc with rfl | rfl <;> exact absurd h (by decide)
    · rcases hc with rfl | rfl
      · exact hline rfl
      · exact mem_newlines_ne_return h
  have hseparator : c ≠ datSeparator := by
    rcases hc with rfl | rfl <;> decide
  intro hmem
  rcases mem_join hmem with h | ⟨s, hs, h⟩
  · rw [String.toList_ofList] at h
    exact hseparator (List.mem_singleton.mp h)
  · obtain ⟨f, -, rfl⟩ := List.mem_map.mp hs
    exact hfield f h

theorem datLine_head (hne : fields ≠ []) : (datLine fields).toList.head? = some datQualifier := by
  cases fields with
  | nil => exact absurd rfl hne
  | cons f rest =>
    have hfield : (qualifiedDatField f).toList.head? = some datQualifier := by
      simp [qualifiedDatField]
    unfold datLine
    cases rest with
    | nil => exact hfield
    | cons g rest =>
      show (qualifiedDatField f ++ _ ++ _).toList.head? = _
      rw [String.toList_append, String.toList_append, append_assoc, head?_append, hfield]
      rfl

theorem eq_nil_of_trimMatches {p : Char → Bool} (h : trimMatches p cs = []) (hc : c ∈ cs) : p c = true := by
  unfold trimMatches at h
  rw [reverse_eq_nil_iff, dropWhile_eq_nil_iff] at h
  by_contra hnot
  cases hdrop : cs.dropWhile p with
  | nil => exact hnot (List.dropWhile_eq_nil_iff.mp hdrop c hc)
  | cons d ds =>
    have hd : ¬ p d = true := by
      have hhead := head_dropWhile_not p (l := cs) (by rw [hdrop]; simp)
      simpa [hdrop] using hhead
    exact hd (h d (by rw [hdrop]; simp))

theorem trim_datLine_ne (hne : fields ≠ []) : trim (datLine fields) ≠ "" := by
  intro h
  have hnil : trimMatches isWhitespace (datLine fields).toList = [] := by
    rw [← String.toList_ofList (l := trimMatches _ _)]
    exact congrArg String.toList h
  have hspace := eq_nil_of_trimMatches hnil (mem_of_head? (datLine_head hne))
  exact absurd hspace (by decide)

theorem parseConcordance_written {header : List String} {rows : List (List String)}
    (hheader : header ≠ []) (hrows : ∀ row ∈ rows, row ≠ []) :
    parseConcordance (utf8Bom ++ bytes (terminatedLines (datLine header :: rows.map datLine)))
      = .ok (splitDatLine (datLine header), (rows.map datLine).map splitDatLine) := by
  have hlines : ∀ line ∈ datLine header :: rows.map datLine, ∃ fields, fields ≠ [] ∧
      datLine fields = line := by
    intro line hline
    rcases List.mem_cons.mp hline with rfl | hline
    · exact ⟨header, hheader, rfl⟩
    · obtain ⟨row, hrow, rfl⟩ := List.mem_map.mp hline
      exact ⟨row, hrows row hrow, rfl⟩
  have hread : lines (terminatedLines (datLine header :: rows.map datLine)) = datLine header ::
      rows.map datLine := by
    refine lines_terminated (fun line hline => ?_) (fun line hline hlast => ?_)
    · obtain ⟨fields, -, rfl⟩ := hlines line hline
      exact lineEnd_notMem_datLine fields (.inl rfl)
    · obtain ⟨fields, -, rfl⟩ := hlines line hline
      exact lineEnd_notMem_datLine fields (.inr rfl) (mem_of_getLast? hlast)
  have hnotBlank : (datLine header :: rows.map datLine).filter (trim · ≠ "") = datLine header ::
      rows.map datLine := by
    refine List.filter_eq_self.mpr fun line hline => ?_
    obtain ⟨fields, hne, rfl⟩ := hlines line hline
    exact decide_eq_true (trim_datLine_ne hne)
  have hstrip (bs : List UInt8) : stripUtf8Bom (utf8Bom ++ bs) = bs := rfl
  unfold parseConcordance
  rw [hstrip, fromUtf8_bytes]
  simp only [hread, hnotBlank]

/-- **Load files are read back iff nothing in them is marked**: the header, whose line ends come
back as newlines, and a record for every row, up to line ends. -/
theorem parseConcordance_writeLoadDat_iff (rows : List LoadRow) (fieldMap : Option (List FieldMapEntry))
    (hincluded : ∀ map, fieldMap = some map → ∃ e ∈ map, e.«include» = true) :
    parseConcordance (writeLoadDatMapped rows fieldMap)
        = .ok (loadHeaders fieldMap, rows.map fun row => (loadValues fieldMap row).map unified)
      ↔ (∀ header ∈ loadHeaders fieldMap, Unmarked header ∧ '\r' ∉ header.toList) ∧
        ∀ row ∈ rows, ∀ value ∈ loadValues fieldMap row, Unmarked value := by
  have hvalues (row : LoadRow) : loadValues fieldMap row ≠ [] := by
    cases fieldMap with
    | none => exact cons_ne_nil _ _
    | some map =>
      obtain ⟨e, he, hin⟩ := hincluded map rfl
      exact ne_nil_of_mem (mem_map_of_mem (List.mem_filter.mpr ⟨he, hin⟩))
  have hheader : loadHeaders fieldMap ≠ [] := by
    cases fieldMap with
    | none => exact cons_ne_nil _ _
    | some map =>
      obtain ⟨e, he, hin⟩ := hincluded map rfl
      exact ne_nil_of_mem (mem_map_of_mem (List.mem_filter.mpr ⟨he, hin⟩))
  have hread :=
    parseConcordance_written hheader (show ∀ values ∈ rows.map (loadValues fieldMap), values ≠ [] by
    intro values hmem
    obtain ⟨row, -, rfl⟩ := List.mem_map.mp hmem
    exact hvalues row)
  have hrecords : ((rows.map (loadValues fieldMap)).map datLine).map splitDatLine
        = (rows.map fun row => (loadValues fieldMap row).map unified)
      ↔ ∀ row ∈ rows, ∀ value ∈ loadValues fieldMap row, Unmarked value := by
    rw [map_map, map_map, map_inj_left]
    refine forall₂_congr fun row _ => (splitDatLine_eq_iff (hvalues row) unified).trans ?_
    exact forall₂_congr fun value _ => and_congr_right fun _ => decodeDatField_eq_iff value
  have hheaders : splitDatLine (datLine (loadHeaders fieldMap)) = loadHeaders fieldMap
      ↔ ∀ header ∈ loadHeaders fieldMap, Unmarked header ∧ '\r' ∉ header.toList := by
    have hline := splitDatLine_eq_iff hheader id
    rw [map_id] at hline
    rw [hline]
    refine forall₂_congr fun header _ => ?_
    rw [id, decodeDatField_eq_self_iff, Unmarked, and_assoc]
  unfold writeLoadDatMapped
  rw [map_map] at hread
  rw [show (rows.map fun row => datLine (loadValues fieldMap row)) = rows.map
    (datLine ∘ loadValues fieldMap) from rfl, hread,
    Except.ok.injEq, Prod.mk.injEq, ← map_map]
  exact and_congr hheaders hrecords

theorem parseConcordance_writeLoadDat_subject :
    parseConcordance (writeLoadDatMapped [{ subject := "a\r\nb" }] (some [⟨"SUBJECT", "Subject",
      true⟩])) = .ok (["Subject"], [["a\nb"]]) :=
  (parseConcordance_writeLoadDat_iff [{ subject := "a\r\nb" }] (some [⟨"SUBJECT", "Subject",
    true⟩]) (by simp)).mpr
    (by decide +kernel)

/-- A paragraph sign in a subject is read as the end of the field. -/
theorem parseConcordance_writeLoadDat_pilcrow :
    parseConcordance (writeLoadDatMapped [{ subject := "see ¶ 4" }] (some [⟨"SUBJECT", "Subject",
      true⟩])) ≠ .ok (["Subject"], [["see ¶ 4"]]) := by
  decide +kernel

end MatterGap
