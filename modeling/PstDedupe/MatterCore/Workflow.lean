import PstDedupe.Rust.Paths
import PstDedupe.MatterCore.MatterDb

/-!
# The validation and the binding of workflows

A body of ordered nodes is validated, its `${key}` placeholders are collected by a scan over the
bytes of every string leaf, and a second scan, over bytes and characters, puts the text of a run
parameter in the place of each.
-/

namespace MatterCore

open Rust Prod
open List hiding set

/-! ## The body -/

inductive WorkflowNodeType where
  | job
  | profileRun
  | gate
deriving DecidableEq

structure WorkflowNode where
  id : String
  nodeType : WorkflowNodeType
  enabled : Bool := true
  softFail : Bool := false
  kind : Option String := none
  profile : Option String := none
  params : JsonValue := .object []

structure WorkflowBody where
  version : Nat
  name : Option String := none
  description : Option String := none
  nodes : List WorkflowNode

structure BoundNode where
  nodeId : String
  nodeType : WorkflowNodeType
  kindOrProfile : String
  softFail : Bool
  enabled : Bool
  params : JsonValue

structure WorkflowPlan where
  nodes : List BoundNode

structure WorkflowValidation where
  body : WorkflowBody
  placeholders : List String

def workflowBodyVersion : Nat := 1

def allowedWorkflowJobKinds : List String :=
  ["ingest", "extract_pst", "classify", "office_extract", "pdf_extract", "ics_extract", "teams_extract", "ocr",
    "fts_index", "dedupe", "thread", "neardup", "cull", "promote", "qc", "produce", "gap"]

def hardGateKinds : List String := ["require_qc_pass", "require_has_sources"]

def isAllowedWorkflowJobKind (kind : String) : Bool := allowedWorkflowJobKinds.contains kind

def isHardGateKind (kind : String) : Bool := hardGateKinds.contains kind

/-! ## Placeholders -/

def byteChar (b : UInt8) : Char := Char.ofNat b.toNat

def utf8 (cs : List Char) : List UInt8 := cs.flatMap String.utf8EncodeChar

def asciiText (key : List UInt8) : String := String.ofList (key.map byteChar)

def isKeyStart (c : Char) : Bool := c.isAlpha || c == '_'

def isKeyChar (c : Char) : Bool := c.isAlphanum || c == '_'

def keyAt : List UInt8 → Option (List UInt8)
  | dollar :: brace :: start :: rest =>
    let name := rest.takeWhile fun b => isKeyChar (byteChar b)
    if dollar = 0x24 ∧ brace = 0x7B ∧ isKeyStart (byteChar start) = true
        ∧ (rest.drop name.length).head? = some 0x7D then
      some (start :: name)
    else none
  | _ => none

/-- The loop of `find_placeholders`, with the bytes of the last placeholder it still has to step
over. -/
def findFrom : Nat → List UInt8 → List String
  | _, [] => []
  | skip + 1, _ :: bytes => findFrom skip bytes
  | 0, b :: bytes =>
    match keyAt (b :: bytes) with
    | some key => asciiText key :: findFrom (key.length + 2) bytes
    | none => findFrom 0 bytes

def findPlaceholders (s : String) : List String := findFrom 0 (utf8 s.toList)

mutual

def collectPlaceholdersInto : JsonValue → BTreeSet String → BTreeSet String
  | .string s, out => (findPlaceholders s).foldl BTreeSet.insert out
  | .array items, out => collectItemsInto items out
  | .object fields, out => collectFieldsInto fields out
  | _, out => out

def collectItemsInto : List JsonValue → BTreeSet String → BTreeSet String
  | [], out => out
  | v :: rest, out => collectItemsInto rest (collectPlaceholdersInto v out)

def collectFieldsInto : List (String × JsonValue) → BTreeSet String → BTreeSet String
  | [], out => out
  | (_, v) :: rest, out => collectFieldsInto rest (collectPlaceholdersInto v out)

end

/-! ## Binding -/

/-- The text of a float, as the JSON library writes it. -/
class FloatText where
  display : Float → String

section Binding

variable [FloatText]

def numberToString : JsonNumber → String
  | .posInt n => toString n
  | .negInt n => toString n
  | .float x => FloatText.display x

def scalarToString (key : String) : JsonValue → Except CallError String
  | .null => .ok ""
  | .bool b => .ok (if b then "true" else "false")
  | .number n => .ok (numberToString n)
  | .string s => .ok s
  | .array _ | .object _ =>
    .error (.other ("workflow run_params['" ++ key ++ "'] must be a scalar (string/number/bool/null)"))

def runParam (runParams : List (String × JsonValue)) (key : String) : Except CallError JsonValue :=
  match runParams.lookup key with
  | some value => .ok value
  | none => .error (.other ("workflow bind missing run_params key: " ++ key))

/-- The loop of `substitute_string`: of the last placeholder it still has to step over so many
bytes. -/
def substituteFrom (runParams : List (String × JsonValue)) : Nat → List Char → Except CallError (List Char)
  | _, [] => .ok []
  | skip + 1, c :: cs => substituteFrom runParams (skip + 1 - c.utf8Size) cs
  | 0, c :: cs =>
    match keyAt (utf8 (c :: cs)) with
    | some key => do
      let value ← runParam runParams (asciiText key)
      let text ← scalarToString (asciiText key) value
      let rest ← substituteFrom runParams (key.length + 2) cs
      .ok (text.toList ++ rest)
    | none => do
      let rest ← substituteFrom runParams 0 cs
      .ok (c :: rest)

def substituteString (s : String) (runParams : List (String × JsonValue)) : Except CallError String := do
  let chars ← substituteFrom runParams 0 s.toList
  .ok (String.ofList chars)

mutual

def bindValue (runParams : List (String × JsonValue)) : JsonValue → Except CallError JsonValue
  | .string s => do
    let bound ← substituteString s runParams
    .ok (.string bound)
  | .array items => do
    let bound ← bindItems runParams items
    .ok (.array bound)
  | .object fields => do
    let bound ← bindFields runParams fields
    .ok (.object bound)
  | other => .ok other

def bindItems (runParams : List (String × JsonValue)) : List JsonValue → Except CallError (List JsonValue)
  | [] => .ok []
  | v :: rest => do
    let bound ← bindValue runParams v
    let others ← bindItems runParams rest
    .ok (bound :: others)

/-- A map is visited in the order of its keys, which is the order the insertions rebuild. -/
def bindFields (runParams : List (String × JsonValue)) :
    List (String × JsonValue) → Except CallError (List (String × JsonValue))
  | [] => .ok []
  | (k, v) :: rest => do
    let bound ← bindValue runParams v
    let others ← bindFields runParams rest
    .ok ((k, bound) :: others)

end

def checkScalars : List (String × JsonValue) → Except CallError Unit
  | [] => .ok ()
  | (k, v) :: rest => do
    let _ ← scalarToString k v
    checkScalars rest

def bindNode (runParams : List (String × JsonValue)) (node : WorkflowNode) : Except CallError BoundNode := do
  let boundParams ← bindValue runParams node.params
  let kindOrProfile := match node.nodeType with
    | .job | .gate => node.kind.getD ""
    | .profileRun => node.profile.getD ""
  let softFail := match node.nodeType with
    | .gate => false
    | _ => node.softFail
  .ok ⟨node.id, node.nodeType, kindOrProfile, softFail, node.enabled, boundParams⟩

def bindNodes (runParams : List (String × JsonValue)) : List WorkflowNode → Except CallError (List BoundNode)
  | [] => .ok []
  | node :: rest => do
    let bound ← bindNode runParams node
    let others ← bindNodes runParams rest
    .ok (bound :: others)

def bindObject (body : WorkflowBody) (paramsMap : List (String × JsonValue)) :
    Except CallError WorkflowPlan := do
  checkScalars paramsMap
  let nodes ← bindNodes paramsMap body.nodes
  .ok ⟨nodes⟩

def bindWorkflow (body : WorkflowBody) : JsonValue → Except CallError WorkflowPlan
  | .object paramsMap => bindObject body paramsMap
  | .null => bindObject body []
  | _ => .error (.other "workflow run_params must be a JSON object")

end Binding

/-! ## Validation -/

def nonBlank (field : Option String) (missing : String) : Except CallError String :=
  match (field.map trim).filter (fun s => s != "") with
  | some text => .ok text
  | none => .error (.other missing)

def validateKind (node : WorkflowNode) (id : String) : Except CallError Unit :=
  match node.nodeType with
  | .job => do
    let kind ← nonBlank node.kind ("workflow job node '" ++ id ++ "' missing kind")
    if !isAllowedWorkflowJobKind kind then .error (.other ("unknown workflow job kind: " ++ kind))
    else if node.profile.isSome then .error (.other ("workflow job node '" ++ id ++ "' must not set profile"))
    else .ok ()
  | .profileRun => do
    let _ ← nonBlank node.profile ("workflow profile_run node '" ++ id ++ "' missing profile")
    if node.kind.isSome then .error (.other ("workflow profile_run node '" ++ id ++ "' must not set kind"))
    else .ok ()
  | .gate => do
    let kind ← nonBlank node.kind ("workflow gate node '" ++ id ++ "' missing kind")
    if !isHardGateKind kind then .error (.other ("unknown workflow gate kind: " ++ kind))
    else if node.softFail then
      .error (.other ("workflow gate '" ++ kind
        ++ "' cannot set soft_fail:true (defensibility gates hard-fail only)"))
    else if node.profile.isSome then .error (.other ("workflow gate node '" ++ id ++ "' must not set profile"))
    else .ok ()

def isObject : JsonValue → Bool
  | .object _ => true
  | _ => false

def validateNodes (seenIds : List String) : List WorkflowNode → Except CallError Unit
  | [] => .ok ()
  | node :: rest => do
    let id := trim node.id
    if id = "" then .error (.other "workflow node id cannot be empty")
    if seenIds.contains id then .error (.other ("duplicate workflow node id: " ++ id))
    if !isObject node.params then .error (.other ("workflow node '" ++ id ++ "' params must be a JSON object"))
    validateKind node id
    validateNodes (id :: seenIds) rest

def validateWorkflow (body : WorkflowBody) : Except CallError Unit :=
  if body.version ≠ workflowBodyVersion then
    .error (.other s!"unknown workflow body version: {body.version} (expected {workflowBodyVersion})")
  else if body.nodes.isEmpty then .error (.other "workflow body must contain at least one node")
  else validateNodes [] body.nodes

def collectNodes : List WorkflowNode → BTreeSet String → BTreeSet String
  | [], set => set
  | node :: rest, set => collectNodes rest (collectPlaceholdersInto node.params set)

def validateWorkflowDetailed (body : WorkflowBody) : Except CallError WorkflowValidation := do
  validateWorkflow body
  .ok ⟨body, (collectNodes body.nodes BTreeSet.empty).elems⟩

/-! ## Bytes and characters -/

variable {c : Char} {cs rest : List Char} {key : String}

@[simp] theorem utf8_cons (c : Char) (cs : List Char) : utf8 (c :: cs) = String.utf8EncodeChar c ++
    utf8 cs := rfl

@[simp] theorem utf8_append (xs ys : List Char) : utf8 (xs ++ ys) = utf8 xs ++ utf8 ys := flatMap_append

theorem utf8EncodeChar_ascii (h : c.toNat < 128) : String.utf8EncodeChar c = [UInt8.ofNat c.toNat] := by
  have hval : c.val.toNat = c.toNat := rfl
  unfold String.utf8EncodeChar
  simp only [hval]
  rw [if_pos (by omega)]

theorem byteChar_ofNat (h : c.toNat < 128) : byteChar (UInt8.ofNat c.toNat) = c := by
  unfold byteChar
  rw [UInt8.toNat_ofNat', Nat.mod_eq_of_lt (by omega), Char.ofNat_toNat]

theorem toNat_byteChar (b : UInt8) : (byteChar b).toNat = b.toNat := by
  have hlt := b.toNat_lt
  have hvalid : b.toNat.isValidChar := by
    unfold Nat.isValidChar
    omega
  unfold byteChar Char.ofNat
  rw [dif_pos hvalid]
  rfl

theorem wide_of_mem_utf8EncodeChar (h : 128 ≤ c.toNat) {b : UInt8}
    (hb : b ∈ String.utf8EncodeChar c) : 128 ≤ b.toNat := by
  by_contra hlow
  have hmem : b ∈ bytes (String.ofList [c]) := by simpa [bytes] using hb
  obtain ⟨d, hd, heq⟩ := mem_bytes_ascii hmem (by omega)
  rw [String.toList_ofList, mem_singleton] at hd
  subst hd
  omega

theorem exists_of_utf8_eq_cons {b : UInt8} {bs : List UInt8} (h : utf8 cs = b :: bs)
    (hb : b.toNat < 128) : ∃ rest, cs = byteChar b :: rest ∧ utf8 rest = bs := by
  cases cs with
  | nil => cases h
  | cons c rest =>
    rw [utf8_cons] at h
    by_cases hc : c.toNat < 128
    · rw [utf8EncodeChar_ascii hc, singleton_append] at h
      obtain ⟨rfl, hrest⟩ := List.cons.inj h
      exact ⟨rest, by rw [byteChar_ofNat hc], hrest⟩
    · have hne : String.utf8EncodeChar c ≠ [] := by
        rw [← length_pos_iff, String.length_utf8EncodeChar]
        exact Char.utf8Size_pos c
      obtain ⟨b', bs', henc⟩ := exists_cons_of_ne_nil hne
      rw [henc, cons_append] at h
      obtain ⟨rfl, -⟩ := List.cons.inj h
      have hmem : b' ∈ String.utf8EncodeChar c := henc ▸ mem_cons_self
      have hwide := wide_of_mem_utf8EncodeChar (by omega) hmem
      omega

theorem exists_of_utf8_eq_append {front bs : List UInt8} (h : utf8 cs = front ++ bs)
    (hfront : ∀ b ∈ front, b.toNat < 128) : ∃ rest, cs = front.map byteChar ++ rest ∧ utf8 rest = bs := by
  induction front generalizing cs with
  | nil => exact ⟨cs, rfl, h⟩
  | cons b front ih =>
    obtain ⟨rest, rfl, hrest⟩ := exists_of_utf8_eq_cons h (hfront b mem_cons_self)
    obtain ⟨rest', rfl, hrest'⟩ := ih hrest fun x hx => hfront x (mem_cons_of_mem _ hx)
    exact ⟨rest', rfl, hrest'⟩

theorem map_byteChar_utf8 (h : ∀ c ∈ cs, c.toNat < 128) : (utf8 cs).map byteChar = cs := by
  induction cs with
  | nil => rfl
  | cons c cs ih =>
    have hc := h c mem_cons_self
    rw [utf8_cons, utf8EncodeChar_ascii hc, map_append, ih fun d hd => h d (mem_cons_of_mem _ hd),
      map_singleton, byteChar_ofNat hc]
    rfl

/-! ## Where a placeholder opens -/

/-- The keys a placeholder may have: an ASCII letter or `_`, then letters, digits and `_`. -/
def IsKey (key : String) : Prop :=
  ∃ c cs, key.toList = c :: cs ∧ isKeyStart c = true ∧ ∀ d ∈ cs, isKeyChar d = true

def Opens (cs : List Char) (key : String) (rest : List Char) : Prop :=
  IsKey key ∧ cs = '$' :: '{' :: (key.toList ++ '}' :: rest)

theorem isKeyChar_of_isKeyStart (h : isKeyStart c = true) : isKeyChar c = true := by
  simp only [isKeyStart, isKeyChar, Char.isAlphanum, Bool.or_eq_true] at h ⊢
  exact h.elim (fun h => .inl (.inl h)) .inr

theorem ascii_of_isKeyChar (h : isKeyChar c = true) : c.toNat < 128 := by
  have hval : c.val.toNat = c.toNat := rfl
  simp [isKeyChar, Char.isAlphanum, Char.isAlpha, Char.isUpper, Char.isLower, Char.isDigit,
    UInt32.le_iff_toNat_le]
    at h
  rcases h with ((h | h) | h) | rfl
  · omega
  · omega
  · omega
  · decide

theorem IsKey.isKeyChar (h : IsKey key) : ∀ d ∈ key.toList, isKeyChar d = true := by
  obtain ⟨c, cs, heq, hc, hcs⟩ := h
  intro d hd
  rw [heq] at hd
  rcases List.mem_cons.mp hd with rfl | hd
  · exact isKeyChar_of_isKeyStart hc
  · exact hcs d hd

theorem IsKey.ascii (h : IsKey key) : ∀ d ∈ key.toList, d.toNat < 128 :=
  fun d hd => ascii_of_isKeyChar (h.isKeyChar d hd)

theorem IsKey.asciiText (h : IsKey key) : asciiText (utf8 key.toList) = key := by
  unfold MatterCore.asciiText
  rw [map_byteChar_utf8 h.ascii, String.ofList_toList]

theorem IsKey.length_utf8 (h : IsKey key) : (utf8 key.toList).length = key.toList.length := by
  rw [← length_map (f := byteChar), map_byteChar_utf8 h.ascii]

theorem takeWhile_key {cs : List Char} (h : ∀ d ∈ cs, isKeyChar d = true) (bs : List UInt8) :
    (utf8 cs ++ 0x7D :: bs).takeWhile (fun b => isKeyChar (byteChar b)) = utf8 cs := by
  induction cs with
  | nil => exact takeWhile_cons_of_neg (by decide)
  | cons c cs ih =>
    have hc := h c mem_cons_self
    have hascii := ascii_of_isKeyChar hc
    rw [utf8_cons, utf8EncodeChar_ascii hascii, singleton_append, cons_append,
      takeWhile_cons_of_pos (by rwa [byteChar_ofNat hascii]), ih fun d hd => h d (mem_cons_of_mem _ hd)]

theorem keyAt_of_opens (h : Opens cs key rest) : keyAt (utf8 cs) = some (utf8 key.toList) := by
  obtain ⟨⟨c, cs', hkey, hc, hcs⟩, rfl⟩ := h
  have hascii := ascii_of_isKeyChar (isKeyChar_of_isKeyStart hc)
  have hbytes : utf8 ('$' :: '{' :: (key.toList ++ '}' :: rest))
      = 0x24 :: 0x7B :: UInt8.ofNat c.toNat :: (utf8 cs' ++ 0x7D :: utf8 rest) := by
    rw [hkey, utf8_cons, utf8_cons, cons_append, utf8_cons, utf8_append, utf8_cons,
      utf8EncodeChar_ascii hascii]
    rfl
  rw [hbytes, hkey, utf8_cons, utf8EncodeChar_ascii hascii]
  unfold keyAt
  dsimp only
  rw [takeWhile_key hcs, drop_left, byteChar_ofNat hascii, if_pos ⟨rfl, rfl, hc, rfl⟩]
  rfl

theorem opens_of_keyAt {name : List UInt8} (h : keyAt (utf8 cs) = some name) :
    ∃ key rest, Opens cs key rest := by
  unfold keyAt at h
  split at h
  next dollar brace start bs heq =>
    dsimp only at h
    split at h
    next hcond =>
      obtain ⟨rfl, rfl, hstart, hclose⟩ := hcond
      have hname : ∀ b ∈ bs.takeWhile (fun b => isKeyChar (byteChar b)), isKeyChar (byteChar b) = true :=
        fun b hb => mem_takeWhile_imp (p := fun b => isKeyChar (byteChar b)) hb
      have hcut := List.prefix_iff_eq_append.mp ( takeWhile_prefix (fun b => isKeyChar (byteChar b)) (l := bs))
      obtain ⟨tail, htail⟩ := List.head?_eq_some_iff.mp hclose
      rw [htail] at hcut
      generalize bs.takeWhile (fun b => isKeyChar (byteChar b)) = letters at hname hcut
      have hkeys : ∀ b ∈ start :: letters, isKeyChar (byteChar b) = true := by
        intro b hb
        rcases List.mem_cons.mp hb with rfl | hb
        · exact isKeyChar_of_isKeyStart hstart
        · exact hname b hb
      have hsplit : utf8 cs = ([0x24, 0x7B] ++ (start :: letters) ++ [0x7D]) ++ tail := by
        rw [heq, ← hcut]
        simp
      obtain ⟨rest, hrest, -⟩ := exists_of_utf8_eq_append hsplit (by
        intro b hb
        simp only [mem_append, mem_cons, not_mem_nil, or_false] at hb
        rcases hb with ((rfl | rfl) | hb) | rfl
        · decide
        · decide
        · have hascii := ascii_of_isKeyChar (hkeys b (List.mem_cons.mpr hb))
          rwa [toNat_byteChar] at hascii
        · decide)
      refine ⟨String.ofList ((start :: letters).map byteChar), rest,
        ⟨byteChar start, letters.map byteChar, ?_, hstart, ?_⟩, ?_⟩
      · rw [String.toList_ofList, map_cons]
      · intro d hd
        obtain ⟨b, hb, rfl⟩ := List.mem_map.mp hd
        exact hname b hb
      · rw [hrest, String.toList_ofList]
        simp only [map_append, map_cons, map_nil, append_assoc, cons_append, nil_append]
        rfl
    next => cases h
  next => cases h

theorem keyAt_eq_none (h : ∀ key rest, ¬ Opens cs key rest) : keyAt (utf8 cs) = none := by
  cases hkey : keyAt (utf8 cs) with
  | none => rfl
  | some name =>
    obtain ⟨key, rest, hopens⟩ := opens_of_keyAt hkey
    exact absurd hopens (h key rest)

/-- A text in pieces: the characters kept, and the holes that placeholders leave. -/
inductive Segment where
  | kept (c : Char)
  | hole (key : String)

inductive Segmented : List Char → List Segment → Prop where
  | nil : Segmented [] []
  | hole {key : String} {rest : List Char} {segs : List Segment} (hkey : IsKey key)
    (hrest : Segmented rest segs) :
      Segmented ('$' :: '{' :: (key.toList ++ '}' :: rest)) (.hole key :: segs)
  | kept {c : Char} {cs : List Char} {segs : List Segment} (hopen : ∀ key rest, ¬ Opens (c :: cs) key rest)
      (hrest : Segmented cs segs) : Segmented (c :: cs) (.kept c :: segs)

theorem exists_segmented (cs : List Char) : ∃ segs, Segmented cs segs := by
  induction hn : cs.length using Nat.strongRecOn generalizing cs with
  | ind n ih =>
    subst hn
    cases cs with
    | nil => exact ⟨[], .nil⟩
    | cons c cs =>
      by_cases hopens : ∃ key rest, Opens (c :: cs) key rest
      · obtain ⟨key, rest, hkey, heq⟩ := hopens
        obtain ⟨segs, hsegs⟩ := ih rest.length (by rw [heq]; simp; omega) rest rfl
        exact ⟨.hole key :: segs, by rw [heq]; exact .hole hkey hsegs⟩
      · obtain ⟨segs, hsegs⟩ := ih cs.length (by simp) cs rfl
        exact ⟨_, .kept (fun key rest h => hopens ⟨key, rest, h⟩) hsegs⟩

def holes : List Segment → List String
  | [] => []
  | .kept _ :: segs => holes segs
  | .hole key :: segs => key :: holes segs

theorem findFrom_skip (front bs : List UInt8) : findFrom front.length (front ++ bs) = findFrom 0 bs := by
  induction front with
  | nil => rfl
  | cons b front ih => exact ih

theorem findFrom_wide {front : List UInt8} (h : ∀ b ∈ front, 128 ≤ b.toNat) (bs : List UInt8) :
    findFrom 0 (front ++ bs) = findFrom 0 bs := by
  induction front with
  | nil => rfl
  | cons b front ih =>
    have hb := h b mem_cons_self
    have hnone : keyAt (b :: (front ++ bs)) = none := by
      unfold keyAt
      split
      next heq =>
        obtain ⟨rfl, -⟩ := List.cons.inj heq
        exact if_neg fun hcond => absurd (hcond.1 ▸ hb) (by decide)
      next => rfl
    rw [cons_append, findFrom, hnone]
    exact ih fun x hx => h x (mem_cons_of_mem _ hx)

theorem findFrom_segmented {segs : List Segment} (h : Segmented cs segs) :
    findFrom 0 (utf8 cs) = holes segs := by
  induction h with
  | nil => rfl
  | @hole key rest segs hkey _ ih =>
    have hopens : Opens ('$' :: '{' :: (key.toList ++ '}' :: rest)) key rest := ⟨hkey, rfl⟩
    have hat := keyAt_of_opens hopens
    have hbytes : utf8 ('$' :: '{' :: (key.toList ++ '}' :: rest))
        = 0x24 :: ((0x7B :: (utf8 key.toList ++ [0x7D])) ++ utf8 rest) := by
      rw [utf8_cons, utf8_cons, utf8_append, utf8_cons, cons_append, append_assoc]
      rfl
    have hlen : (utf8 key.toList).length + 2 = (0x7B :: (utf8 key.toList ++ [0x7D])).length := by simp
    rw [hbytes] at hat ⊢
    rw [findFrom, hat]
    dsimp only
    -- the scan goes on behind the closing brace
    rw [hlen, findFrom_skip, ih, hkey.asciiText]
    rfl
  | @kept c cs segs hopen _ ih =>
    have hnone := keyAt_eq_none hopen
    rw [utf8_cons] at hnone ⊢
    by_cases hc : c.toNat < 128
    · rw [utf8EncodeChar_ascii hc, singleton_append] at hnone ⊢
      rw [findFrom, hnone]
      exact ih
    -- the scan steps through the bytes of a wider character one by one, and none of them is a `$`
    · rw [findFrom_wide fun b hb => wide_of_mem_utf8EncodeChar (by omega) hb]
      exact ih

def Settled {α : Type} (keys names : List String) (P : α → Prop) : Except CallError α → Prop
  | .ok a => (∀ name ∈ names, name ∈ keys) ∧ P a
  | .error err => ∃ name ∈ names, name ∉ keys ∧ err = .other ("workflow bind missing run_params key: " ++ name)

section Settled

variable {α β : Type} {keys names names' : List String} {P : α → Prop} {Q : β → Prop}

theorem settled_ok {a : α} (h : P a) : Settled keys [] P (.ok a) := ⟨by simp, h⟩

theorem Settled.bind {r : Except CallError α} {f : α → Except CallError β} (h : Settled keys names P r)
    (hf : ∀ a, P a → Settled keys names' Q (f a)) : Settled keys (names ++ names') Q (r >>= f) := by
  cases r with
  | error err =>
    obtain ⟨name, hname, hrest⟩ := h
    exact ⟨name, mem_append_left _ hname, hrest⟩
  | ok a =>
    obtain ⟨hnames, ha⟩ := h
    have hnext := hf a ha
    show Settled keys (names ++ names') Q (f a)
    cases hr : f a with
    | error err =>
      rw [hr] at hnext
      obtain ⟨name, hname, hrest⟩ := hnext
      exact ⟨name, mem_append_right _ hname, hrest⟩
    | ok b =>
      rw [hr] at hnext
      refine ⟨fun name hname => ?_, hnext.2⟩
      rcases List.mem_append.mp hname with hname | hname
      · exact hnames name hname
      · exact hnext.1 name hname

theorem Settled.map {r : Except CallError α} {f : α → Except CallError β} (h : Settled keys names P r)
    (hf : ∀ a, P a → Settled keys [] Q (f a)) : Settled keys names Q (r >>= f) := by
  have hbind := h.bind hf
  rwa [append_nil] at hbind

theorem Settled.isOk_iff {r : Except CallError α} (h : Settled keys names P r) :
    (∃ a, r = .ok a) ↔ ∀ name ∈ names, name ∈ keys := by
  cases r with
  | ok a => exact ⟨fun _ => h.1, fun _ => ⟨a, rfl⟩⟩
  | error err =>
    obtain ⟨name, hname, hmissing, -⟩ := h
    refine ⟨fun hok => ?_, fun hall => absurd (hall name hname) hmissing⟩
    obtain ⟨a, ha⟩ := hok
    cases ha

end Settled

/-! ## The substitution -/

def IsScalar : JsonValue → Prop
  | .array _ | .object _ => False
  | _ => True

section Substitution

variable [FloatText] {runParams : List (String × JsonValue)}

/-- The text of a run parameter. -/
def paramText (runParams : List (String × JsonValue)) (key : String) : String :=
  match runParams.lookup key with
  | some value => (scalarToString key value).toOption.getD ""
  | none => ""

/-- What a piece of the text becomes: of a hole the text of its parameter, as it stands. -/
def filled (runParams : List (String × JsonValue)) : Segment → List Char
  | .kept c => [c]
  | .hole key => (paramText runParams key).toList

/-- The text with every hole filled and every other character kept. -/
def Filled (runParams : List (String × JsonValue)) (s out : String) : Prop :=
  ∃ segs, Segmented s.toList segs ∧ out.toList = segs.flatMap (filled runParams)

theorem exists_scalarToString {v : JsonValue} (h : IsScalar v) (key : String) : ∃ text,
    scalarToString key v = .ok text := by
  cases v with
  | array | object => cases h
  | null | bool | number | string => exact ⟨_, rfl⟩

theorem runParam_settled (hscalar : ∀ entry ∈ runParams, IsScalar entry.2) (key : String) :
    Settled (runParams.map fst) [key] (fun value => scalarToString key value = .ok (paramText runParams key))
      (runParam runParams key) := by
  unfold runParam paramText
  cases hl : runParams.lookup key with
  | none =>
    refine ⟨key, mem_singleton_self key, fun hmem => ?_, rfl⟩
    obtain ⟨entry, hentry, rfl⟩ := List.mem_map.mp hmem
    exact absurd (List.lookup_eq_none_iff.mp hl entry hentry) (by simp)
  | some value =>
    obtain ⟨front, back, heq, -⟩ := List.lookup_eq_some_iff.mp hl
    have hmem : (key, value) ∈ runParams := heq ▸ mem_append_right _ mem_cons_self
    obtain ⟨text, htext⟩ := exists_scalarToString (hscalar _ hmem) key
    refine ⟨fun name hname => ?_, ?_⟩
    · rw [List.mem_singleton.mp hname]
      exact List.mem_map.mpr ⟨_, hmem, rfl⟩
    · show scalarToString key value = .ok ((scalarToString key value).toOption.getD "")
      rw [htext]
      rfl

theorem substituteFrom_skip {front : List Char} (h : ∀ c ∈ front, c.toNat < 128) (cs : List Char) :
    substituteFrom runParams front.length (front ++ cs) = substituteFrom runParams 0 cs := by
  induction front with
  | nil => rfl
  | cons c front ih =>
    have hc := h c mem_cons_self
    have hsize : c.utf8Size = 1 := by
      rw [← String.length_utf8EncodeChar, utf8EncodeChar_ascii hc]
      rfl
    rw [length_cons, cons_append, substituteFrom, hsize]
    exact ih fun d hd => h d (mem_cons_of_mem _ hd)

theorem substituteFrom_settled (hscalar : ∀ entry ∈ runParams, IsScalar entry.2) {cs : List Char}
    {segs : List Segment} (h : Segmented cs segs) :
    Settled (runParams.map fst) (holes segs) (fun out => out = segs.flatMap (filled runParams))
      (substituteFrom runParams 0 cs) := by
  induction h with
  | nil => exact settled_ok rfl
  | @hole key rest segs hkey _ ih =>
    have hopens : Opens ('$' :: '{' :: (key.toList ++ '}' :: rest)) key rest := ⟨hkey, rfl⟩
    have hat := keyAt_of_opens hopens
    have hascii : ∀ d ∈ '{' :: (key.toList ++ ['}']), d.toNat < 128 := by
      intro d hd
      simp only [mem_cons, mem_append, not_mem_nil, or_false] at hd
      rcases hd with rfl | hd | rfl
      · decide
      · exact hkey.ascii d hd
      · decide
    have hsplit : '{' :: (key.toList ++ '}' :: rest) = ('{' :: (key.toList ++ ['}'])) ++ rest := by simp
    have hlen : (utf8 key.toList).length + 2 = ('{' :: (key.toList ++ ['}'])).length := by
      rw [hkey.length_utf8]
      simp
    rw [substituteFrom, hat]
    dsimp only
    rw [hkey.asciiText, hsplit, hlen, substituteFrom_skip hascii]
    -- the lookup may fail for this key; its text cannot, and the rest is the hypothesis
    refine (runParam_settled hscalar key).bind fun value hvalue => ?_
    rw [hvalue]
    refine ih.map fun out hout => settled_ok ?_
    rw [hout]
    rfl
  | @kept c cs segs hopen _ ih =>
    rw [substituteFrom, keyAt_eq_none hopen]
    refine ih.map fun out hout => settled_ok ?_
    rw [hout]
    rfl

theorem substituteString_settled (hscalar : ∀ entry ∈ runParams, IsScalar entry.2) (s : String) :
    Settled (runParams.map fst) (findPlaceholders s) (Filled runParams s) (substituteString s runParams) := by
  obtain ⟨segs, hsegs⟩ := exists_segmented s.toList
  unfold findPlaceholders
  rw [findFrom_segmented hsegs]
  refine (substituteFrom_settled hscalar hsegs).map fun out hout => settled_ok ⟨segs, hsegs, ?_⟩
  rw [String.toList_ofList, hout]

/-! ## Trees and nodes -/

inductive Bound (runParams : List (String × JsonValue)) : JsonValue → JsonValue → Prop where
  | null : Bound runParams .null .null
  | bool (b : Bool) : Bound runParams (.bool b) (.bool b)
  | number (n : JsonNumber) : Bound runParams (.number n) (.number n)
  | string {s out : String} (hfilled : Filled runParams s out) : Bound runParams (.string s) (.string out)
  | array {items items' : List JsonValue} (hitems : Forall₂ (Bound runParams) items items') :
      Bound runParams (.array items) (.array items')
  | object {fields fields' : List (String × JsonValue)} (hkeys : fields'.map fst = fields.map fst)
      (hvalues : Forall₂ (fun field field' => Bound runParams field.2 field'.2) fields fields') :
      Bound runParams (.object fields) (.object fields')

mutual

def leafKeys : JsonValue → List String
  | .string s => findPlaceholders s
  | .array items => itemKeys items
  | .object fields => fieldKeys fields
  | _ => []

def itemKeys : List JsonValue → List String
  | [] => []
  | v :: rest => leafKeys v ++ itemKeys rest

def fieldKeys : List (String × JsonValue) → List String
  | [] => []
  | (_, v) :: rest => leafKeys v ++ fieldKeys rest

end

mutual

theorem bindValue_settled (hscalar : ∀ entry ∈ runParams, IsScalar entry.2) : ∀ v : JsonValue,
    Settled (runParams.map fst) (leafKeys v) (Bound runParams v) (bindValue runParams v)
  | .null => settled_ok .null
  | .bool b => settled_ok (.bool b)
  | .number n => settled_ok (.number n)
  | .string s => (substituteString_settled hscalar s).map fun _ hfilled => settled_ok (.string hfilled)
  | .array items => (bindItems_settled hscalar items).map fun _ hitems => settled_ok (.array hitems)
  | .object fields => (bindFields_settled hscalar fields).map fun _ hfields => settled_ok (.object hfields.1 hfields.2)

theorem bindItems_settled (hscalar : ∀ entry ∈ runParams, IsScalar entry.2) : ∀ items : List JsonValue,
    Settled (runParams.map fst) (itemKeys items) (Forall₂ (Bound runParams) items) (bindItems runParams items)
  | [] => settled_ok .nil
  | v :: rest => (bindValue_settled hscalar v).bind fun _ hbound =>
      (bindItems_settled hscalar rest).map fun _ hrest => settled_ok (.cons hbound hrest)

theorem bindFields_settled (hscalar : ∀ entry ∈ runParams, IsScalar entry.2) :
    ∀ fields : List (String × JsonValue),
    Settled (runParams.map fst) (fieldKeys fields)
      (fun fields' => fields'.map fst = fields.map fst ∧
        Forall₂ (fun field field' => Bound runParams field.2 field'.2) fields fields')
      (bindFields runParams fields)
  | [] => settled_ok ⟨rfl, .nil⟩
  | (k, v) :: rest => (bindValue_settled hscalar v).bind fun _ hbound =>
      (bindFields_settled hscalar rest).map fun _ hrest =>
        settled_ok ⟨congrArg (k :: ·) hrest.1, .cons hbound hrest.2⟩

end

/-- A node of the plan: the node's own fields, the kind or the profile its type asks for, and bound
params. -/
structure BoundNode.Of (runParams : List (String × JsonValue)) (node : WorkflowNode)
    (bound : BoundNode) : Prop where
  nodeId : bound.nodeId = node.id
  nodeType : bound.nodeType = node.nodeType
  enabled : bound.enabled = node.enabled
  softFail : bound.softFail = (node.softFail && node.nodeType != .gate)
  kindOrProfile : bound.kindOrProfile
    = (if node.nodeType = .profileRun then node.profile else node.kind).getD ""
  params : Bound runParams node.params bound.params

theorem bindNode_settled (hscalar : ∀ entry ∈ runParams, IsScalar entry.2) (node : WorkflowNode) :
    Settled (runParams.map fst) (leafKeys node.params) (BoundNode.Of runParams node)
      (bindNode runParams node) := by
  refine (bindValue_settled hscalar node.params).map fun bound hbound => settled_ok ?_
  refine ⟨rfl, rfl, rfl, ?_, ?_, hbound⟩
  · cases node.nodeType with
    | gate => exact (Bool.and_false _).symm
    | job | profileRun => exact (Bool.and_true _).symm
  · cases node.nodeType with
    | job | profileRun | gate => rfl

def nodeKeys (nodes : List WorkflowNode) : List String := nodes.flatMap fun node => leafKeys node.params

theorem bindNodes_settled (hscalar : ∀ entry ∈ runParams, IsScalar entry.2) (nodes : List WorkflowNode) :
    Settled (runParams.map fst) (nodeKeys nodes) (Forall₂ (BoundNode.Of runParams) nodes)
      (bindNodes runParams nodes) := by
  induction nodes with
  | nil => exact settled_ok .nil
  | cons node rest ih =>
    exact (bindNode_settled hscalar node).bind fun _ hbound => ih.map fun _ hrest =>
      settled_ok (.cons hbound hrest)

theorem checkScalars_ok (h : ∀ entry ∈ runParams, IsScalar entry.2) : checkScalars runParams = .ok () := by
  induction runParams with
  | nil => rfl
  | cons entry rest ih =>
    obtain ⟨text, htext⟩ := exists_scalarToString (h entry mem_cons_self) entry.1
    rw [checkScalars, htext]
    exact ih fun x hx => h x (mem_cons_of_mem _ hx)

theorem bindObject_settled (hscalar : ∀ entry ∈ runParams, IsScalar entry.2) (body : WorkflowBody) :
    Settled (runParams.map fst) (nodeKeys body.nodes)
      (fun plan => Forall₂ (BoundNode.Of runParams) body.nodes plan.nodes) (bindObject body runParams) := by
  unfold bindObject
  rw [checkScalars_ok hscalar]
  exact (bindNodes_settled hscalar body.nodes).map fun _ hnodes => settled_ok hnodes

end Substitution

/-! ## The collection -/

theorem mem_foldl_insert {name : String} (names : List String) (out : BTreeSet String) :
    name ∈ names.foldl BTreeSet.insert out ↔ name ∈ names ∨ name ∈ out := by
  induction names generalizing out with
  | nil => simp
  | cons n names ih =>
    rw [foldl_cons, ih, mem_cons]
    show name ∈ names ∨ name ∈ BTreeSet.insertInto n out.elems ↔ _
    rw [BTreeSet.mem_insertInto, ← or_assoc, or_comm (a := name ∈ names)]
    rfl

mutual

theorem mem_collectPlaceholdersInto {name : String} : ∀ (v : JsonValue) (out : BTreeSet String),
    name ∈ collectPlaceholdersInto v out ↔ name ∈ leafKeys v ∨ name ∈ out
  | .null, _ | .bool _, _ | .number _, _ => by simp [collectPlaceholdersInto, leafKeys]
  | .string s, out => mem_foldl_insert (findPlaceholders s) out
  | .array items, out => mem_collectItemsInto items out
  | .object fields, out => mem_collectFieldsInto fields out

theorem mem_collectItemsInto {name : String} : ∀ (items : List JsonValue) (out : BTreeSet String),
    name ∈ collectItemsInto items out ↔ name ∈ itemKeys items ∨ name ∈ out
  | [], _ => by simp [collectItemsInto, itemKeys]
  | v :: rest, out => by
    rw [collectItemsInto, mem_collectItemsInto rest, mem_collectPlaceholdersInto v, itemKeys,
      mem_append, or_left_comm, or_assoc]

theorem mem_collectFieldsInto {name : String} : ∀ (fields : List (String × JsonValue)) (out : BTreeSet String),
    name ∈ collectFieldsInto fields out ↔ name ∈ fieldKeys fields ∨ name ∈ out
  | [], _ => by simp [collectFieldsInto, fieldKeys]
  | (_, v) :: rest, out => by
    rw [collectFieldsInto, mem_collectFieldsInto rest, mem_collectPlaceholdersInto v, fieldKeys,
      mem_append, or_left_comm, or_assoc]

end

theorem mem_collectNodes {name : String} (nodes : List WorkflowNode) (set : BTreeSet String) :
    name ∈ collectNodes nodes set ↔ name ∈ nodeKeys nodes ∨ name ∈ set := by
  induction nodes generalizing set with
  | nil => simp [collectNodes, nodeKeys]
  | cons node rest ih =>
    rw [collectNodes, ih, mem_collectPlaceholdersInto, nodeKeys, nodeKeys, flatMap_cons, mem_append,
      or_left_comm, or_assoc]

theorem mem_placeholders {body : WorkflowBody} {report : WorkflowValidation}
    (h : validateWorkflowDetailed body = .ok report) (name : String) :
    name ∈ report.placeholders ↔ name ∈ nodeKeys body.nodes := by
  unfold validateWorkflowDetailed at h
  cases hv : validateWorkflow body with
  | error err =>
    rw [hv] at h
    cases h
  | ok =>
    rw [hv] at h
    cases h
    have hmem := @mem_collectNodes name body.nodes BTreeSet.empty
    exact hmem.trans (or_iff_left not_mem_nil)

/-- **Binding is exact.** It succeeds when every reported name has a value, and then fills the holes
and nothing else. -/
theorem bindWorkflow_exact [FloatText] {body : WorkflowBody} {report : WorkflowValidation}
    {runParams : List (String × JsonValue)} (hvalid : validateWorkflowDetailed body = .ok report)
    (hscalar : ∀ entry ∈ runParams, IsScalar entry.2) :
    ((∃ plan, bindWorkflow body (.object runParams) = .ok plan) ↔
      ∀ name ∈ report.placeholders, name ∈ runParams.map fst) ∧
    ∀ plan, bindWorkflow body (.object runParams) = .ok plan →
      Forall₂ (BoundNode.Of runParams) body.nodes plan.nodes := by
  have hsettled := bindObject_settled hscalar body
  refine ⟨hsettled.isOk_iff.trans ?_, fun plan hplan => ?_⟩
  · simp only [mem_placeholders hvalid]
  · rw [show bindObject body runParams = .ok plan from hplan] at hsettled
    exact hsettled.2

def ingestBody : WorkflowBody :=
  ⟨1, none, none, [⟨"n1", .job, true, false, some "ingest", none,
    .object [("path", .string "$\x7bsource_path\x7d")]⟩]⟩

theorem validate_ingestBody : validateWorkflowDetailed ingestBody = .ok ⟨ingestBody, ["source_path"]⟩ := by
  unfold validateWorkflowDetailed
  rw [show validateWorkflow ingestBody = .ok () from by decide +kernel]
  rfl

theorem bindWorkflow_exact_ingest :
    ∃ plan, @bindWorkflow ⟨toString⟩ ingestBody (.object [("source_path", .string "in")]) = .ok plan :=
  (@bindWorkflow_exact ⟨toString⟩ ingestBody _ [("source_path", .string "in")] validate_ingestBody
    (by simp [IsScalar])).1.mpr fun _ hname => hname

end MatterCore
