import PstDedupe.Rust.Paths
import PstDedupe.Rust.Text

/-!
# Control numbers (`matter-produce/src/params.rs`, `matter-produce/src/layout.rs`, `matter-produce/src/run.rs`)

A control number is the Bates prefix and a sequence number with leading zeros.
-/

namespace MatterProduce

open Rust List Function

variable {c : Char}

def isPrefixChar (c : Char) : Bool := c.isAlphanum || c = '_' || c = '-'

def effectiveBatesPrefix (raw : String) : String := trim raw

/-- The check of the parameters and of the profile. -/
def acceptsPrefix (raw : String) : Bool :=
  let batesPrefix := trim raw
  batesPrefix ≠ "" && batesPrefix.toList.all isPrefixChar

/-- `{seq:0width$}`. -/
def zeroPadded (width n : Nat) : List Char :=
  replicate (width - (Nat.toDigits 10 n).length) '0' ++ Nat.toDigits 10 n

def formatControl (batesPrefix : String) (seq width : Nat) : String :=
  batesPrefix ++ String.ofList (zeroPadded width seq)

def isReservedInFileName (c : Char) : Bool := c ∈ ['/', '\\', ':', '*', '?', '"', '<', '>', '|']

def sanitizeFilenamePart (s : String) : String :=
  String.ofList (s.toList.map fun c => if isReservedInFileName c || isControl c then '_' else c)

example : formatControl "PROD" 42 6 = "PROD000042" := by decide +kernel

theorem isDigit_of_mem_zeroPadded {width n : Nat} (h : c ∈ zeroPadded width n) : c.isDigit := by
  rcases List.mem_append.mp h with h | h
  · rw [(List.mem_replicate.mp h).2]
    decide
  · exact Nat.isDigit_of_mem_toDigits (by decide) (by decide) h

theorem zeroPadded_ne_nil (width n : Nat) : zeroPadded width n ≠ [] :=
  append_ne_nil_of_right_ne_nil _ Nat.toDigits_ne_nil

theorem ofDigitChars_zeroPadded (width n : Nat) : Nat.ofDigitChars 10 (zeroPadded width n) 0 = n := by
  unfold zeroPadded
  rw [Nat.ofDigitChars_append, Nat.ofDigitChars_replicate_zero, Nat.mul_zero, Nat.ofDigitChars_ten_toDigits]

theorem zeroPadded_injective (width : Nat) : Injective (zeroPadded width) := by
  intro m n h
  rw [← ofDigitChars_zeroPadded width m, h, ofDigitChars_zeroPadded]

theorem toList_formatControl (batesPrefix : String) (seq width : Nat) :
    (formatControl batesPrefix seq width).toList = batesPrefix.toList ++ zeroPadded width seq := by
  unfold formatControl
  rw [String.toList_append, String.toList_ofList]

theorem formatControl_injective (batesPrefix : String) (width : Nat) :
    Injective fun seq => formatControl batesPrefix seq width := by
  intro m n h
  have hlist := congrArg String.toList h
  simp only [toList_formatControl] at hlist
  exact zeroPadded_injective width (append_cancel_left hlist)

theorem isPrefixChar_of_mem_formatControl {raw : String} {seq width : Nat}
    (haccepts : acceptsPrefix raw = true)
    (h : c ∈ (formatControl (effectiveBatesPrefix raw) seq width).toList) :
    isPrefixChar c = true := by
  rw [toList_formatControl] at h
  rcases List.mem_append.mp h with h | h
  · have hall : (trim raw).toList.all isPrefixChar = true := ((Bool.and_eq_true _ _).mp haccepts).2
    exact List.all_eq_true.mp hall c h
  · have hdigit := isDigit_of_mem_zeroPadded h
    unfold isPrefixChar
    simp [Char.isAlphanum, hdigit]

theorem toNat_of_isPrefixChar (h : isPrefixChar c = true) :
    (48 ≤ c.toNat ∧ c.toNat ≤ 57) ∨ (65 ≤ c.toNat ∧ c.toNat ≤ 90) ∨ (97 ≤ c.toNat ∧ c.toNat ≤ 122) ∨
      c.toNat = 95 ∨ c.toNat = 45 := by
  unfold isPrefixChar at h
  simp only [Char.isAlphanum, Char.isAlpha, Char.isUpper, Char.isLower, Char.isDigit,
    Bool.or_eq_true, Bool.and_eq_true, decide_eq_true_eq, ge_iff_le, UInt32.le_iff_toNat_le] at h
  rcases h with (((h | h) | h) | rfl) | rfl
  · exact .inr (.inl h)
  · exact .inr (.inr (.inl h))
  · exact .inl h
  · decide
  · decide

theorem ne_of_isPrefixChar {c d : Char} (h : isPrefixChar c = true) (hd : isPrefixChar d = false) : c ≠ d := by
  rintro rfl
  rw [h] at hd
  exact nomatch hd

theorem isControl_of_isPrefixChar (h : isPrefixChar c = true) : isControl c = false := by
  have hcode := toNat_of_isPrefixChar h
  unfold isControl
  simp only [Bool.or_eq_false_iff, Bool.and_eq_false_iff, decide_eq_false_iff_not]
  omega

theorem isWhitespace_of_isPrefixChar (h : isPrefixChar c = true) : isWhitespace c = false := by
  have hcode := toNat_of_isPrefixChar h
  unfold isWhitespace
  simp only [Bool.or_eq_false_iff, Bool.and_eq_false_iff, decide_eq_false_iff_not, beq_eq_false_iff_ne, ne_eq]
  omega

theorem isReservedInFileName_of_isPrefixChar (h : isPrefixChar c = true) : isReservedInFileName c = false := by
  have hreserved : ∀ d ∈ ['/', '\\', ':', '*', '?', '"', '<', '>', '|'], isPrefixChar d = false := List.all_iff_forall_prop.mp (by decide)
  unfold isReservedInFileName
  rw [decide_eq_false_iff_not]
  exact fun hmem => ne_of_isPrefixChar h (hreserved c hmem) rfl

theorem sanitizeFilenamePart_of_isPrefixChar {s : String}
    (h : ∀ c ∈ s.toList, isPrefixChar c = true) : sanitizeFilenamePart s = s := by
  have hkeep : s.toList.map (fun c => if isReservedInFileName c || isControl c then '_' else c)
      = s.toList := by
    rw [map_congr_left (g := id) fun c hc => ?_, map_id]
    rw [isReservedInFileName_of_isPrefixChar (h c hc), isControl_of_isPrefixChar (h c hc)]
    rfl
  unfold sanitizeFilenamePart
  rw [hkeep, String.ofList_toList]

end MatterProduce

/-!
# The folders of a production volume (`matter-produce/src/layout.rs`)

Names of folders and files under the root of a volume.
-/

namespace MatterProduce

open Rust List Function

variable {c : Char}

def imagesDir : String := "IMAGES"

def optSafeFolderSegment (name : String) : String :=
  let s := String.ofList (name.toList.filterMap fun c =>
    if c = ',' || isWhitespace c || (isControl c && decide (c.toNat < 128)) then none
    else if c.isAlphanum || c = '_' || c = '-' then some c
    else some '_')
  if s = "" then imagesDir else s

def optVolumeToken (name : String) : String :=
  let stripped := String.ofList ((name.toList.filter fun c => c ≠ ',' && !isWhitespace c).map fun c =>
    if c.toNat < 128 && !isControl c then c else '_')
  let s := sanitizeFilenamePart stripped
  if s = "" then "VOL" else s

structure VolumeLayout where
  dataName : String
  nativesName : String
  textName : String
  imagesName : Option String
  deriving DecidableEq, Repr

def VolumeLayout.createWithLayout (dataName nativesName textName : String)
    (imagesName : Option String) : VolumeLayout where
  dataName := trim dataName
  nativesName := trim nativesName
  textName := trim textName
  imagesName := ((imagesName.map trim).filter (· ≠ "")).map optSafeFolderSegment

namespace VolumeLayout

variable (layout : VolumeLayout)

/-- `{:03}` of a folder index, which is one at least. -/
def imageShard (folderIdx : Nat) : String := String.ofList (zeroPadded 3 (max folderIdx 1))

def imageRelpath (folderIdx : Nat) (bates : String) : String :=
  layout.imagesName.getD imagesDir ++ "\\" ++ imageShard folderIdx ++ "\\" ++
    sanitizeFilenamePart bates ++ ".TIF"

def imageFolderDir (folderIdx : Nat) : Option (List String) :=
  layout.imagesName.map fun name => [name, imageShard folderIdx]

end VolumeLayout

/-- Where the writer puts a file of the volume: `root.join(rel.replace('\\', "/"))`, its parts under
the root. -/
def writtenPath (rel : String) : List String := split (replaceChar rel '\\' '/') '/'

theorem isPrefixChar_of_mem_optSafeFolderSegment {name : String}
    (h : c ∈ (optSafeFolderSegment name).toList) : isPrefixChar c = true := by
  unfold optSafeFolderSegment at h
  dsimp only at h
  split_ifs at h with hempty
  · have himages : ∀ d ∈ imagesDir.toList, isPrefixChar d = true := List.all_iff_forall_prop.mp (by decide)
    exact himages c h
  · rw [String.toList_ofList] at h
    obtain ⟨d, -, hd⟩ := List.mem_filterMap.mp h
    split_ifs at hd with hdrop hkeep
    · obtain rfl := Option.some.inj hd
      exact hkeep
    · obtain rfl := Option.some.inj hd
      decide

theorem isPrefixChar_of_mem_imagesName {dataName nativesName textName : String} {imagesName : Option String}
    (h : c ∈ ((VolumeLayout.createWithLayout dataName nativesName textName
      imagesName).imagesName.getD imagesDir).toList) :
    isPrefixChar c = true := by
  unfold VolumeLayout.createWithLayout at h
  cases hname : (imagesName.map trim).filter (· ≠ "") with
  | none =>
    rw [hname] at h
    have himages : ∀ d ∈ imagesDir.toList, isPrefixChar d = true := List.all_iff_forall_prop.mp (by decide)
    exact himages c h
  | some name =>
    rw [hname] at h
    exact isPrefixChar_of_mem_optSafeFolderSegment h

theorem isPrefixChar_of_mem_imageShard {folderIdx : Nat}
    (h : c ∈ (VolumeLayout.imageShard folderIdx).toList) : isPrefixChar c = true := by
  unfold VolumeLayout.imageShard at h
  rw [String.toList_ofList] at h
  have hdigit := isDigit_of_mem_zeroPadded h
  unfold isPrefixChar
  simp [Char.isAlphanum, hdigit]

theorem map_slash_of_notMem {cs : List Char} (h : '\\' ∉ cs) :
    cs.map (fun x => if x = '\\' then '/' else x) = cs := by
  have hkeep : ∀ c ∈ cs, (fun x => if x = '\\' then '/' else x) c = id c :=
    fun c hc => if_neg fun (heq : c = '\\') => h (heq ▸ hc)
  rw [map_congr_left hkeep, map_id]

theorem writtenPath_parts {a b c : String} (h : ∀ part ∈ [a, b, c], '\\' ∉ part.toList ∧
    '/' ∉ part.toList) : writtenPath (a ++ "\\" ++ b ++ "\\" ++ c) = [a, b, c] := by
  have hslash : "\\".toList = ['\\'] := by decide
  have hjoin : replaceChar (a ++ "\\" ++ b ++ "\\" ++ c) '\\' '/' = join "/" [a, b, c] := by
    unfold replaceChar
    simp only [String.toList_append, map_append, hslash, map_slash_of_notMem (h a (by simp)).1,
      map_slash_of_notMem (h b (by simp)).1, map_slash_of_notMem (h c (by simp)).1]
    apply String.toList_injective
    simp [join]
  unfold writtenPath
  rw [hjoin]
  exact split_join (by decide) (cons_ne_nil _ _) fun part hpart => (h part hpart).2

theorem writtenPath_imageRelpath {layout : VolumeLayout} {folderIdx : Nat} {bates : String}
    (hname : ∀ c ∈ (layout.imagesName.getD imagesDir).toList, isPrefixChar c = true)
    (hbates : ∀ c ∈ bates.toList, isPrefixChar c = true) : writtenPath (layout.imageRelpath folderIdx bates)
      = [layout.imagesName.getD imagesDir, VolumeLayout.imageShard folderIdx, bates ++ ".TIF"] := by
  have hslash : isPrefixChar '/' = false ∧ isPrefixChar '\\' = false := by decide
  have hplain (s : String) (h : ∀ c ∈ s.toList, isPrefixChar c = true) : '\\' ∉ s.toList ∧ '/' ∉ s.toList :=
    ⟨fun hmem => ne_of_isPrefixChar (h _ hmem) hslash.2 rfl,
      fun hmem => ne_of_isPrefixChar (h _ hmem) hslash.1 rfl⟩
  have hfile : '\\' ∉ (bates ++ ".TIF").toList ∧ '/' ∉ (bates ++ ".TIF").toList := by
    have htif : '\\' ∉ ".TIF".toList ∧ '/' ∉ ".TIF".toList := by decide
    rw [String.toList_append, mem_append, mem_append, not_or, not_or]
    exact ⟨⟨(hplain bates hbates).1, htif.1⟩, (hplain bates hbates).2, htif.2⟩
  unfold VolumeLayout.imageRelpath
  have hassoc : layout.imagesName.getD imagesDir ++ "\\" ++ VolumeLayout.imageShard folderIdx ++
      "\\" ++ bates ++ ".TIF"
      = layout.imagesName.getD imagesDir ++ "\\" ++ VolumeLayout.imageShard folderIdx ++ "\\" ++
        (bates ++ ".TIF") :=
    String.append_assoc
  rw [sanitizeFilenamePart_of_isPrefixChar hbates, hassoc]
  refine writtenPath_parts ?_
  simp only [forall_mem_cons]
  exact ⟨hplain _ hname, hplain _ fun c hc => isPrefixChar_of_mem_imageShard hc, hfile, fun _ h => nomatch h⟩

end MatterProduce
