import PstDedupe.MatterProduce.Layout

/-!
# The Concordance load file (`matter-produce/src/dat.rs`)

A load file is a byte order mark, a header line and a line for every produced document.
-/

namespace MatterProduce

open Rust List

def utf8Bom : List UInt8 := [0xEF, 0xBB, 0xBF]

def datQualifier : Char := 'þ'

def datSeparator : Char := '¶'

def datNewline : Char := '®'

def datFields : List String :=
  ["BEGBATES", "ENDBATES", "CONTROL_NUMBER", "ITEM_ID", "PARENT_ITEM_ID", "FAMILY_ID", "CUSTODIAN",
    "FILE_NAME", "FILE_EXT",
    "FILE_CATEGORY", "MIME_TYPE", "FILE_SIZE", "SHA256", "DATE_SENT", "DATE_RECEIVED",
      "DATE_CREATED", "FROM", "TO", "CC",
    "BCC", "SUBJECT", "NATIVE_PATH", "TEXT_PATH", "HAS_REDACTED_TEXT", "WITHHELD", "PROD_STATUS"]

structure LoadRow where
  controlNumber : String := ""
  /-- Last page Bates; empty means same as `controlNumber`. -/
  endBates : String := ""
  itemId : String := ""
  parentItemId : String := ""
  familyId : String := ""
  custodian : String := ""
  fileName : String := ""
  fileExt : String := ""
  fileCategory : String := ""
  mimeType : String := ""
  fileSize : String := ""
  sha256 : String := ""
  dateSent : String := ""
  dateReceived : String := ""
  dateCreated : String := ""
  «from» : String := ""
  «to» : String := ""
  cc : String := ""
  bcc : String := ""
  subject : String := ""
  nativePath : String := ""
  textPath : String := ""
  hasRedactedText : String := ""
  withheld : String := ""
  prodStatus : String := ""
  textSha256 : String := ""
  deriving DecidableEq, Repr

namespace LoadRow

variable (row : LoadRow)

def endBatesOrControl : String :=
  let t := trim row.endBates
  if t = "" then row.controlNumber else t

def fieldValues : List String :=
  [row.controlNumber, row.endBatesOrControl, row.controlNumber, row.itemId, row.parentItemId,
    row.familyId, row.custodian,
    row.fileName, row.fileExt, row.fileCategory, row.mimeType, row.fileSize, row.sha256,
      row.dateSent, row.dateReceived,
    row.dateCreated, row.from, row.«to», row.cc, row.bcc, row.subject, row.nativePath, row.textPath,
      row.hasRedactedText,
    row.withheld, row.prodStatus]

def valueForSource (source : String) : String :=
  match toAsciiUppercase (trim source) with
  | "BEGBATES" => row.controlNumber
  | "ENDBATES" => row.endBatesOrControl
  | "CONTROL_NUMBER" => row.controlNumber
  | "ITEM_ID" => row.itemId
  | "PARENT_ITEM_ID" => row.parentItemId
  | "FAMILY_ID" => row.familyId
  | "CUSTODIAN" => row.custodian
  | "FILE_NAME" => row.fileName
  | "FILE_EXT" => row.fileExt
  | "FILE_CATEGORY" => row.fileCategory
  | "MIME_TYPE" => row.mimeType
  | "FILE_SIZE" => row.fileSize
  | "SHA256" => row.sha256
  | "DATE_SENT" => row.dateSent
  | "DATE_RECEIVED" => row.dateReceived
  | "DATE_CREATED" => row.dateCreated
  | "FROM" => row.from
  | "TO" => row.«to»
  | "CC" => row.cc
  | "BCC" => row.bcc
  | "SUBJECT" => row.subject
  | "NATIVE_PATH" => row.nativePath
  | "TEXT_PATH" => row.textPath
  | "HAS_REDACTED_TEXT" => row.hasRedactedText
  | "WITHHELD" => row.withheld
  | "PROD_STATUS" => row.prodStatus
  | _ => ""

end LoadRow

structure FieldMapEntry where
  source : String
  header : String
  «include» : Bool := true
  deriving DecidableEq, Repr

def mappedHeaders (fieldMap : List FieldMapEntry) : List String :=
  (fieldMap.filter (·.«include»)).map (·.header)

def LoadRow.mappedValues (row : LoadRow) (fieldMap : List FieldMapEntry) : List String :=
  (fieldMap.filter (·.«include»)).map fun e => row.valueForSource e.source

def encodeDatChars : List Char → List Char
  | [] => []
  | '\r' :: '\n' :: cs => datNewline :: encodeDatChars cs
  | '\r' :: cs => datNewline :: encodeDatChars cs
  | '\n' :: cs => datNewline :: encodeDatChars cs
  | c :: cs => c :: encodeDatChars cs

def encodeDatField (value : String) : String := String.ofList (encodeDatChars value.toList)

def qualifiedDatField (field : String) : String :=
  String.ofList [datQualifier] ++ encodeDatField field ++ String.ofList [datQualifier]

/-- `write_dat_line`, without the newline. -/
def datLine (fields : List String) : String :=
  join (String.ofList [datSeparator]) (fields.map qualifiedDatField)

def loadHeaders (fieldMap : Option (List FieldMapEntry)) : List String :=
  match fieldMap with
  | some map => mappedHeaders map
  | none => datFields

def loadValues (fieldMap : Option (List FieldMapEntry)) (row : LoadRow) : List String :=
  match fieldMap with
  | some map => row.mappedValues map
  | none => row.fieldValues

def writeLoadDatMapped (rows : List LoadRow) (fieldMap : Option (List FieldMapEntry)) : List UInt8 :=
  utf8Bom ++ bytes (terminatedLines (datLine (loadHeaders fieldMap) ::
    rows.map fun row => datLine (loadValues fieldMap row)))

def newlines : List Char → List Char
  | [] => []
  | '\r' :: '\n' :: cs => '\n' :: newlines cs
  | '\r' :: cs => '\n' :: newlines cs
  | c :: cs => c :: newlines cs

def unified (value : String) : String := String.ofList (newlines value.toList)

example : unified "a\r\nb\rc\n" = "a\nb\nc\n" := by decide +kernel

theorem newlines_cons {c : Char} {cs : List Char} (h : c ≠ '\r') : newlines (c :: cs) = c :: newlines cs := by
  rw [newlines]
  · exact fun _ hc => absurd hc h
  · exact h

theorem encodeDatChars_eq (cs : List Char) :
    encodeDatChars cs = (newlines cs).map fun c => if c = '\n' then datNewline else c := by
  fun_induction encodeDatChars cs with
  | case1 => rfl
  | case2 cs ih =>
    rw [newlines, ih]
    rfl
  | case3 cs hnot ih =>
    rw [newlines, ih]
    · rfl
    · exact hnot
  | case4 cs ih =>
    rw [newlines_cons (by decide), ih]
    rfl
  | case5 c cs hcrlf hcr hlf ih =>
    rw [newlines_cons hcr, ih, map_cons, if_neg hlf]

/-!
# The image load file (`matter-produce/src/opt.rs`)

A line for every page image: seven fields without a qualifier.
-/

def optAsciiField (s : String) (allowBackslash : Bool) : String :=
  let out := String.ofList (s.toList.filterMap fun c =>
    if c = ',' || (isControl c && decide (c.toNat < 128)) || isWhitespace c then none
    else if c = '\\' || c = '/' then if allowBackslash then some '\\' else none
    else if c.toNat < 128 then some c
    else some '_')
  if out = "" then "_" else out

def encodeOptLine («alias» volume relativePath : String) (pageIndex pageCount : Nat) : String :=
  let aliasField := optAsciiField «alias» false
  let vol := optVolumeToken volume
  let path := optAsciiField relativePath true
  let (docBreak, count) := if pageIndex = 0 then ("Y", Nat.repr pageCount) else ("", "")
  aliasField ++ "," ++ vol ++ "," ++ path ++ "," ++ docBreak ++ ",,," ++ count

example : encodeOptLine "PROD000001" "VOL, 001" "IMAGES\\001\\PROD000001.TIF" 0 2
    = "PROD000001,VOL001,IMAGES\\001\\PROD000001.TIF,Y,,,2" := by decide +kernel

theorem optAsciiField_eq_self {s : String} (hne : s ≠ "") {allowBackslash : Bool}
    (h : ∀ c ∈ s.toList, isPrefixChar c = true ∨ c = '.' ∨ c = '\\' ∧ allowBackslash = true) :
    optAsciiField s allowBackslash = s := by
  have hkeep : s.toList.filterMap (fun c =>
      if c = ',' || (isControl c && decide (c.toNat < 128)) || isWhitespace c then none
      else if c = '\\' || c = '/' then if allowBackslash then some '\\' else none
      else if c.toNat < 128 then some c
      else some '_') = s.toList := by
    rw [filterMap_congr (g := some) fun c hc => ?_, filterMap_some]
    rcases h c hc with hplain | rfl | ⟨rfl, hallow⟩
    · have hcode := toNat_of_isPrefixChar hplain
      have hcomma : c ≠ ',' := ne_of_isPrefixChar hplain (by decide)
      have hback : c ≠ '\\' := ne_of_isPrefixChar hplain (by decide)
      have hslash : c ≠ '/' := ne_of_isPrefixChar hplain (by decide)
      have hascii : c.toNat < 128 := by omega
      simp [hcomma, hback, hslash, hascii, isControl_of_isPrefixChar hplain,
        isWhitespace_of_isPrefixChar hplain]
    · simp +decide
    · simp +decide [hallow]
  unfold optAsciiField
  rw [hkeep, String.ofList_toList]
  exact if_neg hne

theorem mem_optVolumeToken {name : String} {c : Char} (h : c ∈ (optVolumeToken name).toList) :
    c ≠ ',' ∧ c.toNat < 128 ∧ isControl c = false := by
  unfold optVolumeToken at h
  dsimp only at h
  split_ifs at h with hempty
  · have hvol : ∀ d ∈ "VOL".toList, d ≠ ',' ∧ d.toNat < 128 ∧ isControl d = false :=
      List.all_iff_forall_prop.mp (by decide)
    exact hvol c h
  · unfold sanitizeFilenamePart at h
    rw [String.toList_ofList, String.toList_ofList] at h
    obtain ⟨d, hd, rfl⟩ := List.mem_map.mp h
    obtain ⟨e, he, rfl⟩ := List.mem_map.mp hd
    have hcomma : e ≠ ',' := by
      have hkept := (List.mem_filter.mp he).2
      simp only [Bool.and_eq_true, decide_eq_true_eq] at hkept
      exact hkept.1
    have hunderscore : '_' ≠ ',' ∧ '_'.toNat < 128 ∧ isControl '_' = false := by decide
    by_cases hascii : (decide (e.toNat < 128) && !isControl e) = true
    · rw [if_pos hascii]
      obtain ⟨hcode, hcontrol⟩ := (Bool.and_eq_true _ _).mp hascii
      have hplain : e ≠ ',' ∧ e.toNat < 128 ∧ isControl e = false :=
        ⟨hcomma, of_decide_eq_true hcode, by simpa using hcontrol⟩
      split_ifs
      · exact hunderscore
      · exact hplain
    · rw [if_neg hascii]
      split_ifs
      · exact hunderscore
      · exact hunderscore

theorem encodeOptLine_eq_join (bates volume relativePath : String) (pageIndex pageCount : Nat) :
    encodeOptLine bates volume relativePath pageIndex pageCount
      = join "," [optAsciiField bates false, optVolumeToken volume, optAsciiField relativePath true,
          if pageIndex = 0 then "Y" else "", "", "", if pageIndex = 0 then Nat.repr pageCount else ""] := by
  unfold encodeOptLine
  apply String.toList_injective
  by_cases hfirst : pageIndex = 0
  · simp [hfirst, join]
  · simp [hfirst, join]

section

variable {raw : String} {seq width : Nat}

theorem formatControl_ne_empty : formatControl (effectiveBatesPrefix raw) seq width ≠ "" := by
  intro hempty
  have hlist := congrArg String.toList hempty
  rw [toList_formatControl] at hlist
  exact zeroPadded_ne_nil width seq (List.append_eq_nil_iff.mp hlist).2

theorem mem_imageRelpath {layout : VolumeLayout} {folderIdx : Nat} {bates : String} {c : Char}
    (hname : ∀ c ∈ (layout.imagesName.getD imagesDir).toList, isPrefixChar c = true)
    (hbates : ∀ c ∈ bates.toList, isPrefixChar c = true)
    (h : c ∈ (layout.imageRelpath folderIdx bates).toList) :
    isPrefixChar c = true ∨ c = '.' ∨ c = '\\' := by
  have htif : ∀ d ∈ ".TIF".toList, isPrefixChar d = true ∨ d = '.' ∨ d = '\\' :=
    List.all_iff_forall_prop.mp (by decide)
  have hback : ∀ d ∈ "\\".toList, d = '\\' := List.all_iff_forall_prop.mp (by decide)
  unfold VolumeLayout.imageRelpath at h
  rw [sanitizeFilenamePart_of_isPrefixChar hbates] at h
  simp only [String.toList_append, mem_append] at h
  rcases h with ((((h | h) | h) | h) | h) | h
  · exact .inl (hname c h)
  · exact .inr (.inr (hback c h))
  · exact .inl (isPrefixChar_of_mem_imageShard h)
  · exact .inr (.inr (hback c h))
  · exact .inl (hbates c h)
  · exact htif c h

/-- **The image load file matches the disk**: a line has seven fields, its alias is the number of
the page and its path that of the file that was written, and it is one line of ASCII; other pages
have other aliases and paths. -/
theorem encodeOptLine_matches (haccepts : acceptsPrefix raw = true)
    (dataName nativesName textName imagesName volume : String)
    (seq width folderIdx pageIndex pageCount : Nat) :
    let layout := VolumeLayout.createWithLayout dataName nativesName textName (some imagesName)
    let bates (n : Nat) := formatControl (effectiveBatesPrefix raw) n width
    let rel := layout.imageRelpath folderIdx (bates seq)
    let line := encodeOptLine (bates seq) volume rel pageIndex pageCount
    (∃ docBreak count, split line ',' = [bates seq, optVolumeToken volume, rel, docBreak, "", "", count]) ∧
    writtenPath rel
      = [layout.imagesName.getD imagesDir, VolumeLayout.imageShard folderIdx, bates seq ++ ".TIF"] ∧
    (∀ dir, layout.imageFolderDir folderIdx = some dir → writtenPath rel = dir ++
    [bates seq ++ ".TIF"]) ∧ (∀ c ∈ line.toList, c.toNat < 128 ∧ isControl c = false) ∧
    ∀ seq' folderIdx', seq' ≠ seq → bates seq' ≠ bates seq ∧
      layout.imageRelpath folderIdx' (bates seq') ≠ rel := by
  intro layout bates rel line
  have hname : ∀ c ∈ (layout.imagesName.getD imagesDir).toList, isPrefixChar c = true :=
    fun c hc => isPrefixChar_of_mem_imagesName hc
  have hbates (n : Nat) : ∀ c ∈ (bates n).toList, isPrefixChar c = true :=
    fun c hc => isPrefixChar_of_mem_formatControl haccepts hc
  have hrel (c : Char) (hc : c ∈ rel.toList) : isPrefixChar c = true ∨ c = '.' ∨ c = '\\' :=
    mem_imageRelpath hname (hbates seq) hc
  have halias : optAsciiField (bates seq) false = bates seq :=
    optAsciiField_eq_self formatControl_ne_empty fun c hc => .inl (hbates seq c hc)
  have hpath : optAsciiField rel true = rel := by
    refine optAsciiField_eq_self (fun hempty => ?_) fun c hc => ?_
    · have hlist := congrArg String.toList hempty
      simp [rel, VolumeLayout.imageRelpath] at hlist
    · rcases hrel c hc with h | h | h
      · exact .inl h
      · exact .inr (.inl h)
      · exact .inr (.inr ⟨h, rfl⟩)
  have hwritten (n f : Nat) : writtenPath (layout.imageRelpath f (bates n))
      = [layout.imagesName.getD imagesDir, VolumeLayout.imageShard f, bates n ++ ".TIF"] :=
    writtenPath_imageRelpath hname (hbates n)
  have hline : line
      = join "," [bates seq, optVolumeToken volume, rel, if pageIndex = 0 then "Y" else "", "", "",
      if pageIndex = 0 then Nat.repr pageCount else ""] := by
    show encodeOptLine _ _ _ _ _ = _
    rw [encodeOptLine_eq_join, halias, hpath]
  -- every field is ASCII on one line, without a comma
  have hfields : ∀ f ∈ [bates seq, optVolumeToken volume, rel, if pageIndex = 0 then "Y" else "", "", "",
      if pageIndex = 0 then Nat.repr pageCount else ""], ∀ c ∈ f.toList, c ≠ ',' ∧ c.toNat < 128 ∧ isControl c = false := by
    have hplain {c : Char} (hc : isPrefixChar c = true) : c ≠ ',' ∧ c.toNat < 128 ∧ isControl c = false := by
      have hcode := toNat_of_isPrefixChar hc
      exact ⟨ne_of_isPrefixChar hc (by decide), by omega, isControl_of_isPrefixChar hc⟩
    have hempty : ∀ c ∈ "".toList, c ≠ ',' ∧ c.toNat < 128 ∧ isControl c = false :=
      List.all_iff_forall_prop.mp (by decide)
    simp only [forall_mem_cons]
    refine ⟨fun c hc => hplain (hbates seq c hc), fun c hc => mem_optVolumeToken hc,
      fun c hc => ?_, ?_, hempty, hempty, ?_,
      fun _ h => nomatch h⟩
    · rcases hrel c hc with h | rfl | rfl
      · exact hplain h
      · decide
      · decide
    · split_ifs
      · exact List.all_iff_forall_prop.mp (by decide)
      · exact hempty
    · split_ifs
      · intro c hc
        refine hplain ?_
        have hdigit := isDigit_of_mem_repr hc
        unfold isPrefixChar
        simp [Char.isAlphanum, hdigit]
      · exact hempty
  refine ⟨⟨if pageIndex = 0 then "Y" else "", if pageIndex = 0 then Nat.repr pageCount else "", ?_⟩,
    hwritten seq folderIdx,
    fun dir hdir => ?_, fun c hc => ?_, fun seq' folderIdx' hne => ?_⟩
  · rw [hline]
    exact split_join (by decide) (cons_ne_nil _ _) fun f hf hcomma => (hfields f hf ',' hcomma).1 rfl
  · unfold VolumeLayout.imageFolderDir at hdir
    obtain ⟨name, hsome, rfl⟩ := Option.map_eq_some_iff.mp hdir
    rw [hwritten seq folderIdx, hsome]
    rfl
  · rw [hline] at hc
    rcases mem_join hc with hc | ⟨f, hf, hc⟩
    · have hcomma : ∀ d ∈ ",".toList, d.toNat < 128 ∧ isControl d = false :=
        List.all_iff_forall_prop.mp (by decide)
      exact hcomma c hc
    · exact (hfields f hf c hc).2
  · have hbatesNe : bates seq' ≠ bates seq := fun heq => hne (formatControl_injective _ _ heq)
    refine ⟨hbatesNe, fun heq => hbatesNe ?_⟩
    -- the same path would be the same file
    have hsame := congrArg writtenPath heq
    rw [hwritten seq' folderIdx', hwritten seq folderIdx] at hsame
    simp only [cons.injEq, and_true] at hsame
    exact (String.append_left_inj ".TIF").mp hsame.2.2

theorem encodeOptLine_matches_defaults :
    let layout := VolumeLayout.createWithLayout "DATA" "NATIVES" "TEXT" (some "IMAGES")
    let bates := formatControl (effectiveBatesPrefix "PROD") 7 6
    writtenPath (layout.imageRelpath 1 bates) = ["IMAGES", "001", "PROD000007.TIF"] ∧
    ∃ docBreak count, split (encodeOptLine bates "VOL, 001" (layout.imageRelpath 1 bates) 0 2) ','
      = ["PROD000007", "VOL001", "IMAGES\\001\\PROD000007.TIF", docBreak, "", "", count] := by
  obtain ⟨hfields, hwritten, -⟩ := encodeOptLine_matches
    (show acceptsPrefix "PROD" = true by decide +kernel) "DATA" "NATIVES" "TEXT" "IMAGES"
    "VOL, 001" 7 6 1 0 2
  have hname : ["IMAGES", "001", "PROD000007.TIF"]
      = [(VolumeLayout.createWithLayout "DATA" "NATIVES" "TEXT" (some "IMAGES")).imagesName.getD
      imagesDir, VolumeLayout.imageShard 1, formatControl (effectiveBatesPrefix "PROD") 7 6 ++ ".TIF"] := by decide +kernel
  refine ⟨hwritten.trans hname.symm, ?_⟩
  obtain ⟨docBreak, count, hsplit⟩ := hfields
  refine ⟨docBreak, count, hsplit.trans ?_⟩
  have hbates : formatControl (effectiveBatesPrefix "PROD") 7 6 = "PROD000007" ∧
      optVolumeToken "VOL, 001" = "VOL001" ∧
      (VolumeLayout.createWithLayout "DATA" "NATIVES" "TEXT" (some "IMAGES")).imageRelpath 1 "PROD000007"
        = "IMAGES\\001\\PROD000007.TIF" := by
    decide +kernel
  simp only [hbates]

end

end MatterProduce
