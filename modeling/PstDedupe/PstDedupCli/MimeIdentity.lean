import PstDedupe.Foundations.Separator
import PstDedupe.Rust.Paths
import PstDedupe.PstDedupCli.AttachHashBudgets

/-!
# What a nested multipart message is identified by

A multipart message that is attached as bytes is cut at its delimiters and read part by part.
-/

namespace Rust

open List Option

variable {c : Char} {cs : List Char}

/-! ## Searches -/

variable {pat front rest : List Char}

theorem splitOnceChars_skip (h : c ∉ front) : splitOnceChars (c :: cs) (front ++ rest) =
      (splitOnceChars (c :: cs) rest).map fun cut => (front ++ cut.1, cut.2) := by
  induction front with
  | nil => exact Option.map_id'.symm ▸ rfl
  | cons x front ih =>
    rw [mem_cons, not_or] at h
    have hne : (c :: cs).isPrefixOf (x :: (front ++ rest)) = false := by simp [isPrefixOf, h.1]
    rw [cons_append, splitOnceChars, hne, ih h.2]
    simp [Option.map_map, Function.comp_def]

theorem splitOnceChars_self (h : pat ≠ []) : splitOnceChars pat (pat ++ rest) = some ([], rest) := by
  cases pat with
  | nil => exact absurd rfl h
  | cons c cs =>
    have hstart : (c :: cs).isPrefixOf (c :: (cs ++ rest)) = true := by
      rw [ isPrefixOf_iff_prefix]
      exact prefix_append (c :: cs) rest
    rw [cons_append, splitOnceChars, if_pos hstart]
    simp

structure Clean (pat front : List Char) : Prop where
  clear : ¬pat <:+: front
  last : ∀ t, t <:+ front → t ≠ [] → ¬t <+: pat

theorem Clean.tail (h : Clean pat (c :: front)) : Clean pat front where
  clear hwithin := h.clear (hwithin.trans (suffix_cons c front).isInfix)
  last t ht := h.last t (ht.trans (suffix_cons c front))

theorem splitOnceChars_append (hpat : pat ≠ []) (h : Clean pat front) :
    splitOnceChars pat (front ++ (pat ++ rest)) = some (front, rest) := by
  induction front with
  | nil => exact splitOnceChars_self hpat
  | cons c front ih =>
    have hno : pat.isPrefixOf (c :: (front ++ (pat ++ rest))) = false := by
      rw [Bool.eq_false_iff, Ne, isPrefixOf_iff_prefix]
      intro hstart
      -- the pattern ends inside the text, or reaches over its end
      obtain hle | hle := Nat.le_total pat.length (c :: front).length
      · exact h.clear (prefix_of_prefix_length_le hstart (prefix_append (c :: front) _) hle).isInfix
      · exact h.last _ suffix_rfl (cons_ne_nil c front)
          (prefix_of_prefix_length_le (prefix_append (c :: front) _) hstart hle)
    rw [cons_append, splitOnceChars, hno, ih h.tail]
    rfl

theorem splitStrChars_flatMap (hpat : pat ≠ []) {pieces : List (List Char)} (h : ∀ p ∈ pieces, Clean pat p)
    (hrest : splitOnceChars pat rest = none) {fuel : Nat} (hfuel : pieces.length < fuel) :
    splitStrChars pat fuel (pieces.flatMap (· ++ pat) ++ rest) = pieces ++ [rest] := by
  induction pieces generalizing fuel with
  | nil =>
    cases fuel with
    | zero => omega
    | succ fuel =>
      show splitStrChars pat (fuel + 1) rest = [rest]
      rw [splitStrChars, hrest]
  | cons p pieces ih =>
    cases fuel with
    | zero => omega
    | succ fuel =>
      rw [flatMap_cons, append_assoc, append_assoc, splitStrChars,
        splitOnceChars_append hpat (h p mem_cons_self)]
      show p :: _ = _
      rw [ih (fun q hq => h q (mem_cons_of_mem _ hq)) (Nat.lt_of_succ_lt_succ hfuel)]
      rfl

theorem dropWhile_notMem (h : c ∉ cs) : cs.dropWhile (· == c) = cs := by
  cases cs with
  | nil => rfl
  | cons x cs =>
    rw [mem_cons, not_or] at h
    rw [dropWhile_cons_of_neg (by simpa using Ne.symm h.1)]

theorem trimEndMatches_eq (h : c ∉ cs) : trimEndMatches (String.ofList cs) c = String.ofList cs := by
  unfold trimEndMatches
  rw [String.toList_ofList, dropWhile_notMem (by simpa using h), reverse_reverse]

theorem trimEndMatches_concat (h : c ∉ cs) :
    trimEndMatches (String.ofList (cs ++ [c])) c = String.ofList cs := by
  unfold trimEndMatches
  rw [String.toList_ofList, reverse_append, reverse_singleton, singleton_append,
    dropWhile_cons_of_pos (by simp), dropWhile_notMem (by simpa using h), reverse_reverse]

end Rust

namespace PstDedupCli

open DedupEngine Foundations List Option
open Rust (Bytes Bytes32 Sha256 CollisionFree Clean Target bytes trim toAsciiLowercase splitChars
  splitStr splitOnceChars
  splitOnceChars_skip splitOnceChars_self trimStartMatches trimStartChars)
open PstReader (satAdd)

/-! ## Header lines -/

/-- `Name: value`. -/
def headerLine (h : String × String) : List Char := h.1.toList ++ ':' :: ' ' :: h.2.toList

def headerChars : Headers → List Char
  | [] => []
  | [h] => headerLine h
  | h :: rest => headerLine h ++ '\r' :: '\n' :: headerChars rest

/-- A header on one line. -/
structure HeaderOk (h : String × String) : Prop where
  colon : ':' ∉ h.1.toList
  line : '\r' ∉ headerLine h ∧ '\n' ∉ headerLine h
  unfolded : h.1.toList.head? ≠ some ' ' ∧ h.1.toList.head? ≠ some '\t'

def readHeader (h : String × String) : String × String :=
  (toAsciiLowercase (trim h.1), trim h.2)

theorem trim_blank (s : String) : trim (String.ofList (' ' :: s.toList)) = trim s := by
  unfold trim Rust.trimMatches
  rw [String.toList_ofList, dropWhile_cons_of_pos (by decide)]

section HeaderLines

variable {h : String × String} {hs : Headers} {acc : Headers × Option (String × String)}

theorem unfoldLine_headerLine (hok : HeaderOk h) {raw : String}
    (hraw : Rust.trimEndMatches raw '\r' = String.ofList (headerLine h)) :
    unfoldLine acc raw = (acc.1 ++ acc.2.toList, some (readHeader h)) := by
  have hblank : (Rust.startsWith (String.ofList (headerLine h)) " " ||
      Rust.startsWith (String.ofList (headerLine h)) "\t") = false := by
    show ([' '].isPrefixOf (String.ofList (headerLine h)).toList ||
      ['\t'].isPrefixOf (String.ofList (headerLine h)).toList) = false
    rw [String.toList_ofList]
    unfold headerLine
    cases hname : h.1.toList with
    | nil => simp [isPrefixOf]
    | cons c cs =>
      have hc := hok.unfolded
      rw [hname] at hc
      simp only [head?_cons, Ne, some_inj] at hc
      simp [isPrefixOf, Ne.symm hc.1, Ne.symm hc.2]
  have hcut : Rust.splitOnce (String.ofList (headerLine h)) ":"
      = some (h.1, String.ofList (' ' :: h.2.toList)) := by
    show (splitOnceChars [':'] (String.ofList (headerLine h)).toList).map _ = _
    rw [String.toList_ofList]
    unfold headerLine
    rw [splitOnceChars_skip hok.colon,
      show ':' :: ' ' :: h.2.toList = [':'] ++ ' ' :: h.2.toList from rfl, splitOnceChars_self (by simp)]
    simp
  unfold unfoldLine
  simp only [hraw, hblank, hcut, map_some, trim_blank]
  rfl

theorem headerChars_cons (h h' : String × String) (hs : Headers) :
    headerChars (h :: h' :: hs) = headerLine h ++ '\r' :: '\n' :: headerChars (h' :: hs) := rfl

def unfolded (done : Headers × Option (String × String)) : Headers := done.1 ++ done.2.toList

theorem foldl_unfoldLine (hok : ∀ h ∈ hs, HeaderOk h) (hne : hs ≠ []) :
    unfolded (((splitChars '\n' (headerChars hs)).map String.ofList).foldl unfoldLine acc) =
      unfolded acc ++ hs.map readHeader := by
  induction hs generalizing acc with
  | nil => exact absurd rfl hne
  | cons h hs ih =>
    have hline := (hok h mem_cons_self).line
    cases hs with
    | nil =>
      have hsplit : splitChars '\n' (headerLine h) = [headerLine h] := by
        have hone := Rust.splitChars_intercalate (cons_ne_nil (headerLine h) []) (by simpa using hline.2)
        rwa [intercalate_singleton] at hone
      rw [show headerChars [h] = headerLine h from rfl, hsplit, map_singleton, foldl_cons,
        foldl_nil, unfoldLine_headerLine (hok h mem_cons_self) (Rust.trimEndMatches_eq hline.1)]
      rfl
    | cons h' hs =>
      have hcr : '\n' ∉ headerLine h ++ ['\r'] := by simpa using hline.2
      have hsplit : splitChars '\n' (headerChars (h :: h' :: hs)) =
          (headerLine h ++ ['\r']) :: splitChars '\n' (headerChars (h' :: hs)) := by
        rw [headerChars_cons, ← Rust.splitChars_append hcr]
        simp
      rw [hsplit, map_cons, foldl_cons,
        unfoldLine_headerLine (hok h mem_cons_self) (Rust.trimEndMatches_concat hline.1),
        ih (fun x hx => hok x (mem_cons_of_mem _ hx)) (cons_ne_nil _ _)]
      simp [unfolded]

theorem unfoldHeaders_headerChars (hok : ∀ h ∈ hs, HeaderOk h) :
    unfoldHeaders (String.ofList (headerChars hs)) = hs.map readHeader := by
  by_cases hne : hs = []
  · subst hne
    decide
  · show unfolded (((splitChars '\n' (String.ofList (headerChars hs)).toList).map _).foldl _ _) = _
    rw [String.toList_ofList, foldl_unfoldLine hok hne]
    rfl

theorem splitOnceChars_headerChars (hok : ∀ h ∈ hs, HeaderOk h) (body : List Char) :
    splitOnceChars ['\r', '\n', '\r', '\n']
      (headerChars hs ++ '\r' :: '\n' :: '\r' :: '\n' :: body) = some (headerChars hs, body) := by
  induction hs with
  | nil => exact splitOnceChars_self (by simp)
  | cons h hs ih =>
    have hline := (hok h mem_cons_self).line
    cases hs with
    | nil =>
      show splitOnceChars _ (headerLine h ++ _) = _
      rw [splitOnceChars_skip hline.1,
        show '\r' :: '\n' :: '\r' :: '\n' :: body = ['\r', '\n', '\r', '\n'] ++ body from rfl,
        splitOnceChars_self (by simp)]
      simp [headerChars]
    | cons h' hs =>
      have hnext := hok h' (by simp)
      -- the next line is not empty, and does not begin with a carriage return
      obtain ⟨c, cs, hcs, hc⟩ : ∃ c cs, headerChars (h' :: hs) = c :: cs ∧ c ≠ '\r' := by
        have hne : headerLine h' ≠ [] := by
          unfold headerLine
          simp
        obtain ⟨c, line, hc⟩ := exists_cons_of_ne_nil hne
        refine ⟨c, ?_⟩
        have hnot : c ≠ '\r' := by
          rintro rfl
          exact hnext.line.1 (by rw [hc]; exact mem_cons_self)
        cases hs with
        | nil => exact ⟨line, hc, hnot⟩
        | cons h'' hs => exact ⟨_, by rw [headerChars_cons, hc]; rfl, hnot⟩
      have hrest := ih fun x hx => hok x (mem_cons_of_mem _ hx)
      rw [hcs, cons_append] at hrest
      rw [headerChars_cons, append_assoc, splitOnceChars_skip hline.1, cons_append,
        cons_append, hcs, cons_append]
      have hfirst : ['\r', '\n', '\r', '\n'].isPrefixOf
          ('\r' :: '\n' :: c :: (cs ++ '\r' :: '\n' :: '\r' :: '\n' :: body)) = false := by
        simp [isPrefixOf, Ne.symm hc]
      have hsecond : ['\r', '\n', '\r', '\n'].isPrefixOf
          ('\n' :: c :: (cs ++ '\r' :: '\n' :: '\r' :: '\n' :: body)) = false := by
        simp [isPrefixOf]
      rw [splitOnceChars, hfirst, splitOnceChars, hsecond, if_neg Bool.false_ne_true,
        if_neg Bool.false_ne_true, hrest, ← hcs]
      rfl

end HeaderLines

/-! ## Parts -/

structure MimePart where
  contentType : String
  disposition : Option String
  body : String

inductive PartKind where
  | plain
  | html
  | message
  | file
  deriving DecidableEq

def partKind (contentType : String) : PartKind :=
  if Rust.startsWith contentType "text/plain" then .plain
  else if Rust.startsWith contentType "text/html" then .html
  else if Rust.contains contentType "message/rfc822" || Rust.startsWith contentType "message/" then .message
  else .file

namespace MimePart

variable (p : MimePart)

def headers : Headers :=
  ("Content-Type", p.contentType) :: p.disposition.toList.map fun d => ("Content-Disposition", d)

def chars : List Char := headerChars p.headers ++ '\r' :: '\n' :: '\r' :: '\n' :: p.body.toList

def piece : List Char := '\r' :: '\n' :: (p.chars ++ ['\r', '\n'])

def readBody : String := p.body ++ "\r\n"

def kind : PartKind := partKind (toAsciiLowercase (trim p.contentType))

structure Ok : Prop where
  contentType : '\r' ∉ p.contentType.toList ∧ '\n' ∉ p.contentType.toList
  disposition : ∀ d ∈ p.disposition, '\r' ∉ d.toList ∧ '\n' ∉ d.toList

/-- What the part adds to the digests: nothing, the digest of a nested message, or that of its
body. -/
def slot : Option (Option String) :=
  match p.kind with
  | .plain => none
  | .html => none
  | .message => some none
  | .file => some (some p.readBody)

end MimePart

theorem MimePart.Ok.headers {p : MimePart} (h : p.Ok) : ∀ x ∈ p.headers, HeaderOk x := by
  have hnames : ∀ name ∈ ["Content-Type", "Content-Disposition"], ':' ∉ name.toList ∧
      ('\r' ∉ name.toList ∧ '\n' ∉ name.toList) ∧ name.toList.head? ≠ some ' ' ∧
        name.toList.head? ≠ some '\t' := by decide +kernel
  have hok {name value : String} (hname : name ∈ ["Content-Type", "Content-Disposition"])
      (hvalue : '\r' ∉ value.toList ∧ '\n' ∉ value.toList) : HeaderOk (name, value) := by
    obtain ⟨hcolon, hline, hblank⟩ := hnames name hname
    refine ⟨hcolon, ?_, hblank⟩
    unfold headerLine
    simp [hline, hvalue]
  intro x hx
  obtain rfl | hx := List.mem_cons.mp hx
  · exact hok (by simp) h.contentType
  · obtain ⟨d, hd, rfl⟩ := List.mem_map.mp hx
    exact hok (by simp) (h.disposition d (Option.mem_toList.mp hd))

theorem MimePart.exists_chars (p : MimePart) : ∃ cs, p.chars = 'C' :: cs := by
  have hline : headerLine ("Content-Type", p.contentType) = 'C' ::
      ("ontent-Type".toList ++ ':' :: ' ' :: p.contentType.toList) := by
    unfold headerLine
    rw [show "Content-Type".toList = 'C' :: "ontent-Type".toList by decide]
    rfl
  unfold MimePart.chars MimePart.headers
  cases p.disposition with
  | none => exact ⟨_, by rw [show headerChars (_ :: List.map _ none.toList) = headerLine _ from rfl, hline]; rfl⟩
  | some d => exact ⟨_, by rw [toList_some, map_singleton, headerChars_cons, hline]; rfl⟩

theorem headerValue_cons {h : String × String} {hs : Headers} {name : String}
    (hname : h.1 = toAsciiLowercase name) :
    headerValue (h :: hs) name = some h.2 := by
  unfold headerValue
  rw [find?_cons_of_pos (by simpa using hname)]
  rfl

theorem splitHeadersBody_entity {hs : Headers} (hok : ∀ h ∈ hs, HeaderOk h) (body : List Char) :
    splitHeadersBody (String.ofList (headerChars hs ++ '\r' :: '\n' :: '\r' :: '\n' :: body)) =
      some (String.ofList (headerChars hs), String.ofList body) := by
  have hcut : Rust.splitOnce
      (String.ofList (headerChars hs ++ '\r' :: '\n' :: '\r' :: '\n' :: body)) "\r\n\r\n" =
      some (String.ofList (headerChars hs), String.ofList body) := by
    show (splitOnceChars ['\r', '\n', '\r', '\n'] (String.ofList _).toList).map _ = _
    rw [String.toList_ofList, splitOnceChars_headerChars hok]
    rfl
  unfold splitHeadersBody
  rw [hcut]

theorem trimStart_piece (p : MimePart) :
    trimStartMatches (trimStartMatches (String.ofList p.piece) "\r\n") "\n" =
      String.ofList (p.chars ++ ['\r', '\n']) := by
  obtain ⟨cs, hcs⟩ : ∃ cs, p.chars ++ ['\r', '\n'] = 'C' :: cs := by
    obtain ⟨cs, hcs⟩ := p.exists_chars
    exact ⟨_, by rw [hcs]; rfl⟩
  have hstop (pat : List Char) (c : Char) (hc : c ≠ 'C') (n : Nat) :
      trimStartChars (c :: pat) n ('C' :: cs) = 'C' :: cs := by
    cases n with
    | zero => rfl
    | succ n =>
      rw [trimStartChars, if_neg]
      simp [isPrefixOf, hc]
  have hfirst : trimStartMatches (String.ofList p.piece) "\r\n" = String.ofList ('C' :: cs) := by
    unfold MimePart.piece
    rw [hcs]
    show String.ofList (trimStartChars ['\r', '\n'] (String.ofList _).length (String.ofList _).toList) = _
    rw [String.toList_ofList, String.length_ofList, length_cons, trimStartChars, if_pos (by simp [isPrefixOf])]
    exact congrArg _ (hstop _ _ (by decide) _)
  rw [hfirst, hcs]
  show String.ofList (trimStartChars ['\n'] (String.ofList _).length (String.ofList _).toList) = _
  rw [String.toList_ofList, hstop _ _ (by decide)]

/-! ## Messages -/

structure MimeMessage where
  headers : Headers
  boundary : String
  parts : List MimePart

namespace MimeMessage

variable (m : MimeMessage)

def delimiter : List Char := '-' :: '-' :: m.boundary.toList

def body : List Char :=
  ([] :: m.parts.map MimePart.piece).flatMap (· ++ m.delimiter) ++ ['-', '-', '\r', '\n']

def text : String := String.ofList (headerChars m.headers ++ '\r' :: '\n' :: '\r' :: '\n' :: m.body)

def contentType : String := (headerValue (m.headers.map readHeader) "content-type").getD ""

structure Ok : Prop where
  headers : ∀ h ∈ m.headers, HeaderOk h
  multipart : isMultipart m.contentType = true
  boundary : mimeParam m.contentType "boundary" = some m.boundary
  line : '\r' ∉ m.delimiter ∧ '\n' ∉ m.delimiter
  parts : ∀ p ∈ m.parts, p.Ok
  clear : ∀ p ∈ m.parts, ¬m.delimiter <:+: p.chars

end MimeMessage

theorem mimeParam_ne_empty {contentType name v : String} (h : mimeParam contentType name = some v) :
    v ≠ "" := by
  unfold mimeParam at h
  obtain ⟨part, -, hpart⟩ := exists_of_findSome?_eq_some h
  split at hpart
  · cases hpart
  · dsimp only at hpart
    split at hpart
    next hv =>
      obtain rfl := Option.some.inj hpart
      exact of_decide_eq_true (Bool.and_eq_true_iff.mp hv).2
    · cases hpart

section Message

variable {m : MimeMessage}

theorem clean_piece {delimiter : List Char} (hne : delimiter ≠ [])
    (hline : '\r' ∉ delimiter ∧ '\n' ∉ delimiter) {p : MimePart}
    (hclear : ¬delimiter <:+: p.chars) : Clean delimiter p.piece := by
  have hhead {c : Char} {cs : List Char} (hc : c ∉ delimiter) (h : delimiter <:+: c :: cs) :
      delimiter <:+: cs := by
    obtain hstart | hwithin := List.infix_cons_iff.mp h
    · obtain hnil | ⟨t, ht, -⟩ := List.prefix_cons_iff.mp hstart
      · exact absurd hnil hne
      · exact absurd (ht ▸ mem_cons_self) hc
    · exact hwithin
  have hlast {c : Char} {cs : List Char} (hc : c ∉ delimiter) (h : delimiter <:+: cs ++ [c]) :
      delimiter <:+: cs := by
    obtain hsuffix | hwithin := List.infix_concat_iff.mp h
    · obtain hnil | ⟨t, ht, -⟩ := List.suffix_concat_iff.mp hsuffix
      · exact absurd hnil hne
      · exact absurd (ht ▸ mem_concat_self) hc
    · exact hwithin
  constructor
  · intro h
    unfold MimePart.piece at h
    rw [show p.chars ++ ['\r', '\n'] = p.chars ++ ['\r'] ++ ['\n'] by simp] at h
    exact hclear (hlast hline.1 (hlast hline.2 (hhead hline.2 (hhead hline.1 h))))
  · intro t ht htne hstart
    -- a piece ends in a newline
    obtain ⟨t', ht'⟩ : ∃ t', t = t' ++ ['\n'] := by
      have hend : t.getLast htne = '\n' := by
        rw [ht.getLast htne]
        unfold MimePart.piece
        simp
      exact ⟨t.dropLast, by rw [← hend, dropLast_append_getLast]⟩
    exact hline.2 (hstart.subset (ht' ▸ mem_concat_self))

theorem splitStr_body (hm : m.Ok) : splitStr (String.ofList m.body) ("--" ++ m.boundary) =
    "" :: ((m.parts.map MimePart.piece).map String.ofList ++ ["--\r\n"]) := by
  have hdelimiter : ("--" ++ m.boundary).toList = m.delimiter := by
    rw [String.toList_append]
    rfl
  have hrest : splitOnceChars m.delimiter ['-', '-', '\r', '\n'] = none := by
    obtain ⟨c, cs, hcs⟩ : ∃ c cs, m.boundary.toList = c :: cs :=
      exists_cons_of_ne_nil (fun h => mimeParam_ne_empty hm.boundary (String.toList_eq_nil_iff.mp h))
    have hc : c ≠ '\r' := by
      rintro rfl
      exact hm.line.1 (by unfold MimeMessage.delimiter; simp [hcs])
    unfold MimeMessage.delimiter
    simp [hcs, splitOnceChars, isPrefixOf, hc]
  have hclean : ∀ p ∈ [] :: m.parts.map MimePart.piece, Clean m.delimiter p := by
    intro p hp
    obtain rfl | hp := List.mem_cons.mp hp
    · refine ⟨fun h => ?_, fun t ht htne => absurd (List.suffix_nil.mp ht) htne⟩
      cases List.infix_nil.mp h
    · obtain ⟨p, hmem, rfl⟩ := List.mem_map.mp hp
      exact clean_piece (cons_ne_nil _ _) hm.line (hm.clear p hmem)
  have hne : m.delimiter ≠ [] := cons_ne_nil _ _
  have hlength : ∀ pieces : List (List Char), pieces.length ≤ (pieces.flatMap (· ++ m.delimiter)).length := by
    intro pieces
    induction pieces with
    | nil => exact Nat.zero_le _
    | cons p pieces ih =>
      rw [flatMap_cons, length_append, length_append, length_cons]
      unfold MimeMessage.delimiter at ih ⊢
      rw [length_cons]
      omega
  unfold splitStr
  rw [String.toList_ofList, String.length_ofList, hdelimiter, MimeMessage.body,
    Rust.splitStrChars_flatMap hne hclean hrest]
  · rw [map_append, map_cons]
    rfl
  · have hall := hlength ([] :: m.parts.map MimePart.piece)
    rw [length_append]
    show _ < _ + 4
    omega

end Message

/-! ## The part loop -/

variable [Sha256]

def Fills (slot : Option String) (digest : Bytes32) : Prop :=
  ∀ body ∈ slot, digest = Sha256.digest (bytes body)

def MimePart.step (hashPart : String → Hashing Bytes32) (acc : MultipartAcc) (p : MimePart) :
    Hashing MultipartAcc :=
  match p.kind with
  | .plain => pure { acc with textBody := p.readBody, sawText := true }
  | .html => pure (if acc.sawText then acc else { acc with textBody := p.readBody, sawText := true })
  | .message => do
    let digest ← hashPart p.readBody
    pure { acc with childDigests := acc.childDigests ++ [digest] }
  | .file => pure { acc with childDigests := acc.childDigests ++ [Sha256.digest (bytes p.readBody)] }

theorem multipartPart_piece (hashPart : String → Hashing Bytes32) (acc : MultipartAcc)
    {p : MimePart} (hp : p.Ok) :
    multipartPart false hashPart acc (String.ofList p.piece) = p.step hashPart acc := by
  have hstart : (decide (String.ofList (p.chars ++ ['\r', '\n']) = "") ||
      Rust.startsWith (String.ofList (p.chars ++ ['\r', '\n'])) "--") = false := by
    obtain ⟨cs, hcs⟩ := p.exists_chars
    show (decide (String.ofList _ = String.ofList []) || ['-',
      '-'].isPrefixOf (String.ofList _).toList) = false
    rw [hcs, String.toList_ofList]
    simp [isPrefixOf]
  have hcut : splitHeadersBody (String.ofList (p.chars ++ ['\r', '\n'])) =
      some (String.ofList (headerChars p.headers), p.readBody) := by
    have hbody : String.ofList (p.body.toList ++ ['\r', '\n']) = p.readBody := by
      rw [String.ofList_append, String.ofList_toList]
      rfl
    rw [← hbody, ← splitHeadersBody_entity hp.headers]
    unfold MimePart.chars
    simp
  have htype : (headerValue (unfoldHeaders (String.ofList (headerChars p.headers)))
      "content-type").getD "text/plain" =
      trim p.contentType := by
    have hname : (readHeader ("Content-Type", p.contentType)).1 = toAsciiLowercase "content-type" := by
      show toAsciiLowercase (trim "Content-Type") = _
      decide +kernel
    rw [unfoldHeaders_headerChars hp.headers, MimePart.headers, map_cons, headerValue_cons hname]
    rfl
  unfold multipartPart
  simp only [trimStart_piece, hstart, hcut, htype]
  unfold MimePart.step MimePart.kind partKind
  -- the kinds, in the order of the tests
  cases hplain : Rust.startsWith (toAsciiLowercase (trim p.contentType)) "text/plain" with
  | true => simp
  | false =>
    cases hhtml : Rust.startsWith (toAsciiLowercase (trim p.contentType)) "text/html" with
    | true => cases acc.sawText <;> simp
    | false =>
      cases hmessage : Rust.contains (toAsciiLowercase (trim p.contentType)) "message/rfc822" ||
          Rust.startsWith (toAsciiLowercase (trim p.contentType)) "message/" with
      | true => simp
      | false => simp

def keptText (text : String) (saw : Bool) (parts : List MimePart) : String :=
  match (parts.filter fun p => p.kind = .plain).getLast? with
  | some p => p.readBody
  | none => if saw then text else ((parts.find? fun p => p.kind = .html).map MimePart.readBody).getD text

theorem wp_steps (hashPart : String → Hashing Bytes32) (parts : List MimePart) (acc : MultipartAcc)
    (s : Progress) :
    wp (parts.foldlM (MimePart.step hashPart) acc)
      (fun out _ => out.textBody = keptText acc.textBody acc.sawText parts ∧
      ∃ digests, out.childDigests = acc.childDigests ++ digests ∧
        Forall₂ Fills (parts.filterMap MimePart.slot) digests) s := by
  induction parts generalizing acc s with
  | nil => exact ⟨by cases hsaw : acc.sawText <;> rfl, [], (append_nil _).symm, .nil⟩
  | cons p parts ih =>
    rw [foldlM_cons]
    cases hkind : p.kind with
    | plain =>
      rw [show p.step hashPart acc = pure _ by rw [MimePart.step, hkind], pure_bind]
      refine (ih { acc with textBody := p.readBody, sawText := true } s).mono fun out _ h => ⟨?_, ?_⟩
      · rw [h.1]
        unfold keptText
        rw [filter_cons_of_pos (by simpa using hkind), getLast?_cons]
        cases (parts.filter fun p => p.kind = .plain).getLast? <;> rfl
      · rw [filterMap_cons_none (by rw [MimePart.slot, hkind])]
        exact h.2
    | html =>
      rw [show p.step hashPart acc = pure _ by rw [MimePart.step, hkind], pure_bind]
      have hslot : (p :: parts).filterMap MimePart.slot = parts.filterMap MimePart.slot :=
        filterMap_cons_none (by rw [MimePart.slot, hkind])
      have hkept (saw : Bool) : keptText acc.textBody saw (p :: parts) =
          if saw then keptText acc.textBody true parts else keptText p.readBody true parts := by
        unfold keptText
        rw [filter_cons_of_neg (by simp [hkind]), find?_cons_of_pos (by simpa using hkind)]
        cases saw <;> rfl
      rw [hslot, hkept]
      cases hsaw : acc.sawText with
      | true =>
        have hrest := ih acc s
        rwa [hsaw] at hrest
      | false => exact ih { acc with textBody := p.readBody, sawText := true } s
    | message =>
      rw [show p.step hashPart acc = hashPart p.readBody >>=
        _ by rw [MimePart.step, hkind], LawfulMonad.bind_assoc]
      simp only [pure_bind]
      have hany : wp (hashPart p.readBody) (fun _ _ => True) s := trivial
      refine hany.bind fun digest t _ =>
        (ih { acc with childDigests := acc.childDigests ++ [digest] } t).mono fun out _ h => ⟨?_, ?_⟩
      · rw [h.1]
        unfold keptText
        rw [filter_cons_of_neg (by simp [hkind]), find?_cons_of_neg (by simp [hkind])]
      · obtain ⟨digests, hout, hfills⟩ := h.2
        rw [filterMap_cons_some (by rw [MimePart.slot, hkind])]
        exact ⟨digest :: digests, by rw [hout, append_assoc]; rfl, .cons (fun _ h => nomatch h) hfills⟩
    | file =>
      rw [show p.step hashPart acc = pure _ by rw [MimePart.step, hkind], pure_bind]
      refine (ih _ s).mono fun out _ h => ⟨?_, ?_⟩
      · rw [h.1]
        unfold keptText
        rw [filter_cons_of_neg (by simp [hkind]), find?_cons_of_neg (by simp [hkind])]
      · obtain ⟨digests, hout, hfills⟩ := h.2
        rw [filterMap_cons_some (by rw [MimePart.slot, hkind])]
        refine ⟨_ :: digests, by rw [hout, append_assoc]; rfl, .cons (fun body hbody => ?_) hfills⟩
        rw [Option.mem_some_iff.mp hbody]

theorem foldlM_pieces (hashPart : String → Hashing Bytes32) {parts : List MimePart}
    (hparts : ∀ p ∈ parts, p.Ok) (acc : MultipartAcc) :
    ((parts.map MimePart.piece).map String.ofList).foldlM (multipartPart false hashPart) acc =
      parts.foldlM (MimePart.step hashPart) acc := by
  induction parts generalizing acc with
  | nil => rfl
  | cons p parts ih =>
    rw [map_cons, map_cons, foldlM_cons, foldlM_cons,
      multipartPart_piece hashPart acc (hparts p mem_cons_self)]
    exact congrArg _ (funext fun acc => ih (fun q hq => hparts q (mem_cons_of_mem _ hq)) acc)

section Reading

variable {Node : Type} (pst : Pst Node) {m : MimeMessage}

omit [Sha256] in
theorem wp_readLoop_content {«over» : AttachContentHashState → Nat → Nat → Bool}
    {mark : Hashing AttachDigestResult} {chunks : List Bytes}
    (hchunks : ∀ chunk ∈ chunks, chunk ≠ []) (before : Bytes) (s : Progress) :
    wp (readLoop pst «over» mark (chunks.map .ok) before)
      (fun r _ => ∀ content, r = .ok content → content = before ++ chunks.flatten) s := by
  induction chunks generalizing before s with
  | nil =>
    unfold readLoop
    refine (wp_cancelRequested pst {}).bind fun cancelled t _ => ?_
    cases cancelled with
    | true =>
      intro _ h
      cases h
    | false =>
      intro content h
      cases h
      simp
  | cons chunk chunks ih =>
    rw [map_cons]
    unfold readLoop
    refine (wp_cancelRequested pst {}).bind fun cancelled t _ => ?_
    cases cancelled with
    | true =>
      intro _ h
      cases h
    | false =>
      rw [if_neg Bool.false_ne_true]
      dsimp only
      rw [if_neg (hchunks chunk mem_cons_self)]
      refine wp_bind.mpr (wp_getState.mpr ?_)
      split
      · intro _ h
        cases h
      · refine (ih (fun c hc => hchunks c (mem_cons_of_mem _ hc)) (before ++ chunk) t).mono
          fun r _ h content hr => ?_
        rw [h content hr, flatten_cons, append_assoc]

theorem multipartPart_skip (hashPart : String → Hashing Bytes32) (acc : MultipartAcc) {piece : String}
    (h : piece = "" ∨ piece = "--\r\n") : multipartPart false hashPart acc piece = pure acc := by
  unfold multipartPart
  have hskip : ∀ piece ∈ ["", "--\r\n"], trimStartMatches (trimStartMatches piece "\r\n") "\n" = piece ∧
      (piece = "" || Rust.startsWith piece "--") = true := by decide +kernel
  obtain ⟨htrim, hstart⟩ := hskip piece (by simpa using h)
  rw [htrim]
  exact if_pos hstart

omit [Sha256] in
theorem wp_readLoop_single (hcancel : ∀ n, pst.cancel n = false)
    {«over» : AttachContentHashState → Nat → Nat → Bool} {mark : Hashing AttachDigestResult}
    {content : Bytes} (hne : content ≠ []) (hover : ∀ s, «over» s 0 content.length = false)
    (s : Progress) :
    wp (readLoop pst «over» mark [.ok content] []) (fun r _ => r = .ok content) s := by
  have hpoll (s : Progress) : wp (cancelRequested pst) (fun cancelled _ => cancelled = false) s :=
    hcancel s.polls
  unfold readLoop
  refine (hpoll s).bind fun cancelled t h => ?_
  rw [h, if_neg Bool.false_ne_true]
  dsimp only
  rw [if_neg hne]
  refine wp_bind.mpr (wp_getState.mpr ?_)
  rw [length_nil, hover, if_neg Bool.false_ne_true]
  unfold readLoop
  refine (hpoll t).bind fun cancelled u h => ?_
  rw [h, if_neg Bool.false_ne_true]
  exact congrArg Except.ok (nil_append content)

variable [Target]

theorem wp_parse_text (hm : m.Ok) (budgets : AttachContentHashBudgets) (depth : Nat) (s : Progress) :
    wp (parseSimpleRfc822 pst budgets false depth (bytes m.text)) (fun r _ => ∃ digests,
      r = some (rfc822Parsed pst (m.headers.map readHeader) (keptText "" false m.parts) digests) ∧
      Forall₂ Fills (m.parts.filterMap MimePart.slot) digests) s := by
  have hsections : rfc822Sections (bytes m.text) = some (m.headers.map readHeader, String.ofList m.body) := by
    unfold rfc822Sections MimeMessage.text
    rw [Rust.fromUtf8_bytes, bind_some, splitHeadersBody_entity hm.headers, map_some,
      unfoldHeaders_headerChars hm.headers]
  rw [parseSimpleRfc822, hsections]
  show wp (if isMultipart m.contentType then _ else _) _ s
  rw [if_pos hm.multipart]
  rw [show mimeParam ((headerValue (m.headers.map readHeader) "content-type").getD "") "boundary" =
    _ from hm.boundary]
  show wp (parseMultipartRfc822 pst budgets false depth _ _ _ _) _ s
  unfold parseMultipartRfc822
  rw [splitStr_body hm, if_neg (by simp)]
  refine wp.bind (P := fun out _ => out.textBody = keptText "" false m.parts ∧
    Forall₂ Fills (m.parts.filterMap MimePart.slot) out.childDigests) ?_ fun out _ h => ?_
  · rw [foldlM_cons, multipartPart_skip _ _ (.inl rfl), pure_bind, foldlM_append, foldlM_pieces _ hm.parts]
    refine (wp_steps _ m.parts {} s).bind fun out t h => ?_
    rw [foldlM_cons, multipartPart_skip _ _ (.inr rfl), pure_bind, foldlM_nil]
    obtain ⟨digests, hout, hfills⟩ := h.2
    rw [nil_append] at hout
    subst hout
    exact ⟨h.1, hfills⟩
  · exact ⟨out.childDigests, by rw [h.1]; rfl, h.2⟩

end Reading

/-! ## Identities -/

/-- One call of `hash_rfc822_embedded`, with inline parts counted. -/
structure Rfc822Call (Node : Type) where
  pst : Pst Node
  budgets : AttachContentHashBudgets
  depth : Nat
  parent : Node
  attach : Attach
  before : Progress

namespace Rfc822Call

variable {Node : Type} [Target] (call : Rfc822Call Node)

def result : AttachDigestResult :=
  ((hashRfc822Embedded call.pst call.budgets false call.depth call.parent call.attach).run call.before).1

/-- The attachment streams the text of the message, in any pieces. -/
def Carries (m : MimeMessage) : Prop :=
  ∃ (stream : AttachStream) (chunks : List Bytes),
    call.pst.openAttachData call.parent call.attach.nid = .ok stream ∧
    stream.reads = chunks.map .ok ∧ (∀ chunk ∈ chunks, chunk ≠ []) ∧ chunks.flatten = bytes m.text

def perCap : Nat :=
  min (min call.budgets.perAttachMaxBytes (16 * 1024 * 1024))
    (call.budgets.maxBytes - call.before.now.bytesDigested)

/-- What the call parses, in the state in which the read loop ends. -/
def Parses (parsed : Rfc822Parsed) : Prop :=
  ∃ stream content t, call.pst.openAttachData call.parent call.attach.nid = .ok stream ∧
    (readLoop call.pst (fun _ seen n => satAdd seen n > call.perCap) (markUnparsed call.attach)
      stream.reads []).run
      call.before = (.ok content, t) ∧
    ((parseSimpleRfc822 call.pst call.budgets false call.depth content).run t).1 = some parsed

variable {call}

theorem exists_parsed {d : Bytes32} {n : Nat} (h : call.result = .embedded d n) :
    ∃ parsed, call.Parses parsed ∧ d = parsed.identity call.depth := by
  have hrun : wp (hashRfc822Embedded call.pst call.budgets false call.depth call.parent call.attach)
      (fun r _ => ∀ d n, r = .embedded d n → ∃ parsed, call.Parses parsed ∧ d = parsed.identity call.depth)
      call.before := by
    unfold hashRfc822Embedded
    refine wp_bind.mpr (wp_getState.mpr ?_)
    dsimp only
    split
    · exact fun _ _ h => nomatch h
    split
    · exact fun _ _ h => nomatch h
    cases hopen : call.pst.openAttachData call.parent call.attach.nid with
    | error e => exact fun _ _ h => nomatch h
    | ok stream =>
      have hend : wp (readLoop call.pst (fun _ seen n => satAdd seen n > call.perCap) (markUnparsed call.attach)
          stream.reads []) (fun r t => ReadEnd {} (fun _ _ => True) call.before r t ∧
            (readLoop call.pst (fun _ seen n => satAdd seen n > call.perCap)
              (markUnparsed call.attach) stream.reads
              []).run call.before = (r, t)) call.before :=
        ⟨wp_readLoop call.pst (wp_markUnparsed call.attach) (fun _ _ _ _ => trivial) _ trivial, rfl⟩
      refine hend.bind fun r t hread => ?_
      cases r with
      | error r =>
        rintro d n rfl
        exact nomatch hread.1.2.1
      | ok content =>
        dsimp only
        split
        · exact fun _ _ h => nomatch h
        split
        · exact fun _ _ h => nomatch h
        have hparse : wp (parseSimpleRfc822 call.pst call.budgets false call.depth content)
            (fun r _ => ∀ parsed, r = some parsed → call.Parses parsed) t :=
          fun parsed h => ⟨stream, content, t, hopen, hread.2, h⟩
        refine hparse.bind fun r u h => ?_
        cases r with
        | none => exact fun _ _ h => nomatch h
        | some parsed =>
          intro d n heq
          obtain rfl : parsed.identity call.depth = d := by cases heq; rfl
          exact ⟨parsed, h parsed rfl, rfl⟩
  exact hrun d n h

theorem Parses.of_carries {parsed : Rfc822Parsed} {m : MimeMessage} (h : call.Parses parsed)
    (hm : m.Ok) (hcarries : call.Carries m) : ∃ digests,
      parsed = rfc822Parsed call.pst (m.headers.map readHeader) (keptText "" false m.parts) digests ∧
      Forall₂ Fills (m.parts.filterMap MimePart.slot) digests := by
  obtain ⟨stream, content, t, hopen, hread, hparse⟩ := h
  obtain ⟨stream', chunks, hopen', hreads, hchunks, hflat⟩ := hcarries
  obtain rfl : stream = stream' := by
    rw [hopen] at hopen'
    exact Except.ok.inj hopen'
  have hcontent : content = bytes m.text := by
    rw [hreads] at hread
    have hall := wp_readLoop_content call.pst hchunks [] call.before content
      (congrArg Prod.fst hread)
    rw [hall, nil_append, hflat]
  subst hcontent
  obtain ⟨digests, heq, hfills⟩ := wp_parse_text call.pst hm call.budgets call.depth t
  exact ⟨digests, Option.some.inj (hparse.symm.trans heq), hfills⟩

end Rfc822Call

/-! ## What an identity says -/

section Identity

variable [Target] {Node : Type} {call₁ call₂ : Rfc822Call Node} {m₁ m₂ : MimeMessage}

def Rfc822Parsed.preimage (parsed : Rfc822Parsed) (depth : Nat) : Bytes :=
  embeddedMsgHashDomain ++ [UInt8.ofNat depth] ++
    (embeddedHeaderHash parsed.subject parsed.submitTime parsed.sender).1 ++ (hashFullBody parsed.body).1 ++
    (embeddedRecipientsHash parsed.displayTo parsed.displayCc parsed.displayBcc none).1 ++
    (embeddedAttachmentsHash parsed.childDigests).1

def attachmentsPreimage (digests : List Bytes32) : Bytes := digests.flatMap fun d => d.1 ++ bytes ";"

/-- SHA-256 does not collide on the preimages that are compared. -/
structure ToldApart (call₁ call₂ : Rfc822Call Node) (m₁ m₂ : MimeMessage) (p₁ p₂ : Rfc822Parsed) : Prop where
  identity : CollisionFree (p₁.preimage call₁.depth) (p₂.preimage call₂.depth)
  body : CollisionFree (bytes (normalizeBodyText p₁.body)) (bytes (normalizeBodyText p₂.body))
  attachments : CollisionFree (attachmentsPreimage p₁.childDigests) (attachmentsPreimage p₂.childDigests)
  files : ∀ a b : String, some a ∈ m₁.parts.filterMap MimePart.slot →
    some b ∈ m₂.parts.filterMap MimePart.slot →
    CollisionFree (bytes a) (bytes b)

/-- One text, as the body hash reads it; as many other parts; and where both have a file, one
body. -/
structure SameParts (m₁ m₂ : MimeMessage) : Prop where
  text : normalizeBodyText (keptText "" false m₁.parts) = normalizeBodyText (keptText "" false m₂.parts)
  files : Forall₂ (fun s t : Option String => ∀ a ∈ s, ∀ b ∈ t, a = b)
    (m₁.parts.filterMap MimePart.slot) (m₂.parts.filterMap MimePart.slot)

omit [Target] [Sha256] in
theorem attachmentsPreimage_injective : Function.Injective attachmentsPreimage := by
  have heq (ds : List Bytes32) : attachmentsPreimage ds = terminated 0x3b (ds.map Subtype.val) := by
    have hsemi : bytes ";" = [0x3b] := by decide +kernel
    unfold attachmentsPreimage terminated
    rw [hsemi, flatMap_map]
  have hwidth : ∀ ds : List Bytes32, ∀ p ∈ ds.map Subtype.val, p.length = 32 := by
    intro ds p hp
    obtain ⟨d, -, rfl⟩ := List.mem_map.mp hp
    exact d.2
  intro ds ds' h
  rw [heq, heq] at h
  exact List.map_injective_iff.mpr Subtype.val_injective (terminated_inj_of_width (hwidth ds) (hwidth ds') h)

theorem Rfc822Parsed.parts_of_preimage {p₁ p₂ : Rfc822Parsed} {depth₁ depth₂ : Nat}
    (h : p₁.preimage depth₁ = p₂.preimage depth₂) : hashFullBody p₁.body = hashFullBody p₂.body ∧
      embeddedAttachmentsHash p₁.childDigests = embeddedAttachmentsHash p₂.childDigests := by
  have hwidth (d d' : Bytes32) : d.1.length = d'.1.length := d.2.trans d'.2.symm
  obtain ⟨h, hattachments⟩ := append_inj' h (hwidth _ _)
  obtain ⟨h, -⟩ := append_inj' h (hwidth _ _)
  obtain ⟨-, hbody⟩ := append_inj' h (hwidth _ _)
  exact ⟨Subtype.ext hbody, Subtype.ext hattachments⟩

end Identity

end PstDedupCli

namespace PstDedupCli

open DedupEngine Foundations List Option
open Rust (Bytes Bytes32 Sha256 CollisionFree Target bytes trim toAsciiLowercase)

local instance : Target := .unix
local instance : Sha256 := .fips

def alternative (second : Bool) : MimeMessage where
  headers := [("Subject", "Offer"), ("Content-Type", "multipart/mixed; boundary=b1")]
  boundary := "b1"
  parts := [⟨"text/plain", none, "Hello"⟩, ⟨"text/html", none,
    if second then "<p>2</p>" else "<p>1</p>"⟩, ⟨"application/pdf", some "attachment", "%PDF"⟩]

def alternatives : Pst Bool where
  messageNodeFromNbt _ := .error .io
  openAttachData second _ := .ok ⟨[.ok (bytes (alternative second).text)], false⟩
  resolveEmbeddedRoot _ _ := .error .io
  readIdentity _ _ := .error .io
  parseFromRfc2822 _ := none
  cancel _ := false

def alternativeCall (second : Bool) : Rfc822Call Bool where
  pst := alternatives
  budgets := {}
  depth := 0
  parent := second
  attach := ⟨0x8025, "offer.eml", 0, some 1, some "message/rfc822", false⟩
  before := {}

theorem alternative_ok (second : Bool) : (alternative second).Ok := by
  have hheaders : ∀ b, (∀ h ∈ (alternative b).headers, ':' ∉ h.1.toList ∧
      ('\r' ∉ headerLine h ∧ '\n' ∉ headerLine h) ∧ h.1.toList.head? ≠ some ' ' ∧ h.1.toList.head? ≠ some '\t') ∧
    isMultipart (alternative b).contentType = true ∧
    mimeParam (alternative b).contentType "boundary" = some (alternative b).boundary ∧
    ('\r' ∉ (alternative b).delimiter ∧ '\n' ∉ (alternative b).delimiter) := by decide +kernel
  have hparts : ∀ b, ∀ p ∈ (alternative b).parts, ('\r' ∉ p.contentType.toList ∧ '\n' ∉ p.contentType.toList) ∧
      (∀ d ∈ p.disposition, '\r' ∉ d.toList ∧ '\n' ∉ d.toList) ∧ ¬(alternative b).delimiter <:+: p.chars := by
    decide +kernel
  obtain ⟨hlines, hmultipart, hboundary, hline⟩ := hheaders second
  exact ⟨fun h hh => ⟨(hlines h hh).1, (hlines h hh).2.1, (hlines h hh).2.2⟩, hmultipart, hboundary, hline,
    fun p hp => ⟨(hparts second p hp).1, (hparts second p hp).2.1⟩, fun p hp => (hparts second p hp).2.2⟩

theorem alternative_facts : ∀ b, bytes (alternative b).text ≠ [] ∧
    (bytes (alternative b).text).length ≤ 1024 ∧
    (bytes (alternative b).text).length = (bytes (alternative false).text).length ∧
    keptText "" false (alternative b).parts = "Hello\r\n" ∧
    (alternative b).parts.filterMap MimePart.slot = [some "%PDF\r\n"] ∧
    (alternative b).parts.map MimePart.kind = [.plain, .html, .file] := by
  -- texts as characters, which the kernel need not encode
  simp only [MimeMessage.text, bytes, keptText, MimePart.slot, MimePart.kind, partKind,
    Rust.startsWith, Rust.contains, toAsciiLowercase, trim, String.toList_ofList]
  decide +kernel

theorem alternative_carries (second : Bool) : (alternativeCall second).Carries (alternative second) := by
  refine ⟨_, [bytes (alternative second).text], rfl, rfl, fun chunk h => ?_, flatten_singleton⟩
  rw [List.mem_singleton.mp h]
  exact (alternative_facts second).1

def alternativeParsed : Rfc822Parsed :=
  rfc822Parsed alternatives ((alternative false).headers.map readHeader) "Hello\r\n"
    [Sha256.digest (bytes "%PDF\r\n")]

theorem alternative_parsed {second : Bool} {digests : List Bytes32}
    (h : Forall₂ Fills ((alternative second).parts.filterMap MimePart.slot) digests) :
    rfc822Parsed alternatives ((alternative second).headers.map readHeader)
      (keptText "" false (alternative second).parts) digests = alternativeParsed := by
  obtain ⟨-, -, -, hkept, hslots, -⟩ := alternative_facts second
  rw [hslots] at h
  obtain ⟨d, ds, hd, hds, rfl⟩ := List.forall₂_cons_left_iff.mp h
  obtain rfl := List.forall₂_nil_left_iff.mp hds
  rw [hkept, hd _ rfl]
  rfl

theorem alternative_result (second : Bool) : (alternativeCall second).result =
    .embedded (alternativeParsed.identity 0) (bytes (alternative second).text).length := by
  obtain ⟨hne, hle, -⟩ := alternative_facts second
  have hrun : wp (hashRfc822Embedded alternatives {} false 0 second (alternativeCall second).attach)
      (fun r _ =>
      r = .embedded (alternativeParsed.identity 0) (bytes (alternative second).text).length) {} := by
    unfold hashRfc822Embedded
    refine wp_bind.mpr (wp_getState.mpr ?_)
    dsimp only
    rw [if_neg (by decide), if_neg (by simp [alternativeCall])]
    refine wp.bind (P := fun r _ => r = .ok (bytes (alternative second).text)) ?_ fun r t hr => ?_
    · refine wp_readLoop_single alternatives (fun _ => rfl) hne (fun _ => ?_) {}
      unfold PstReader.satAdd
      rw [decide_eq_false_iff_not]
      omega
    · subst hr
      refine (wp_parse_text alternatives (alternative_ok second) {} 0 t).bind fun r u hr => ?_
      obtain ⟨digests, rfl, hfills⟩ := hr
      rw [alternative_parsed hfills]
      rfl
  exact hrun

end PstDedupCli
