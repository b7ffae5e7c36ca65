import PstDedupe.DedupEngine.Index

/-!
# The scan after the attachment probe (`pst-dedup-cli/src/scan.rs`)

With the deep attachment preflight on, `run_scan` keeps its report rows back until the attachments
have been probed.
-/

namespace PstDedupCli

open DedupEngine
open Rust (HashMap RandomState)

structure ReportRow where
  message : MessageRef
  result : DedupResult
  integrity : RecoverableIntegrity
  deriving DecidableEq, Repr

inductive FileScanStatus where
  | opened
  | partially
  | failed
  deriving DecidableEq, Repr

structure FileScanStats where
  path : String
  name : String
  status : FileScanStatus := .opened
  messages : Nat := 0
  recoverableMessages : Nat := 0
  duplicates : Nat := 0
  skipped : Nat := 0
  skippedByReason : HashMap String Nat := ∅

structure SkipRecord where
  sourcePath : String
  sourcePst : String
  folderPath : String
  isOrphaned : Bool
  nid : Nat
  reason : IntegrityReason
  detail : String
  deriving DecidableEq, Repr

def tallyReason (map : HashMap String Nat) (reason : IntegrityReason) : HashMap String Nat :=
  map.update reason.asStr (· + 1)

/-- `if let Some(x) = xs.iter_mut().find(p) { f(x) }`. -/
def updateFirst {α : Type} (p : α → Bool) (f : α → α) : List α → List α
  | [] => []
  | x :: xs => if p x then f x :: xs else x :: updateFirst p f xs

def newProbeFail (pre : List IntegrityReason) (c : RecoverableScanItem) : Option IntegrityReason :=
  c.integrity.degradedReasons.find? fun r => r.isAttachProbeFail && !pre.contains r

def strictReasons (pre : List (List IntegrityReason)) (candidates : List RecoverableScanItem) :
    List (RecoverableScanItem × Option IntegrityReason) :=
  candidates.zipIdx.map fun (c, i) => (c, newProbeFail (pre.getD i []) c)

def skipRecordOf (c : RecoverableScanItem) (reason : IntegrityReason) : SkipRecord where
  sourcePath := c.locus.sourcePath
  sourcePst := c.locus.sourcePst
  folderPath := c.locus.folderPath
  isOrphaned := c.locus.isOrphaned
  nid := c.locus.nid
  reason := reason
  detail := "strict deep-attach-preflight skip: " ++ reason.asStr

def applyStrictSkip (files : List FileScanStats) (skip : SkipRecord) : List FileScanStats :=
  updateFirst (fun f => f.path == skip.sourcePath) (fun f =>
    { f with
      skipped := f.skipped + 1
      skippedByReason := tallyReason f.skippedByReason skip.reason
      recoverableMessages := f.recoverableMessages - 1
      messages := f.messages - 1
      status := if f.status = .opened then .partially else f.status }) files

def keyOfCandidate (c : RecoverableScanItem) : String × Nat := (c.locus.sourcePst, c.locus.nid)

def keyOfRow (row : ReportRow) : String × Nat := (row.message.pstName, row.message.nid)

def messageRefsOf (rows : List ReportRow) : MessageRefs :=
  HashMap.insertAll (rows.map fun row => (keyOfRow row, row.message)) ∅

def candIntegrity (candidates : List RecoverableScanItem) : HashMap (String × Nat) RecoverableIntegrity :=
  HashMap.insertAll (candidates.map fun c => (keyOfCandidate c, c.integrity)) ∅

def recomputePerFileDupFromResults [RandomState] (files : List FileScanStats)
    (results : HashMap (String × Nat) DedupResult) : List FileScanStats :=
  (RandomState.visit results.entries).foldl (fun files entry =>
    if entry.2.isDuplicate then
      updateFirst (fun f => f.name == entry.1.1 || Rust.endsWith f.path entry.1.1)
        (fun f => { f with duplicates := f.duplicates + 1 }) files
    else files) (files.map fun f => { f with duplicates := 0 })

/-- One buffered row after the probe; `none` when it is left out of the report. -/
def rewriteRow (integrity : HashMap (String × Nat) RecoverableIntegrity)
    (rebuilt : Option (HashMap (String × Nat) DedupResult)) (omitMissing : Bool) (row : ReportRow) :
    Option ReportRow :=
  match integrity.get (keyOfRow row) with
  | some integ =>
    some { row with
      integrity := integ
      result := (rebuilt.bind fun map => map.get (keyOfRow row)).getD row.result }
  | none => if omitMissing then none else some row

structure PostProbe where
  candidates : List RecoverableScanItem
  skips : List SkipRecord
  files : List FileScanStats
  rebuild : RebuildDedupOutcome
  rows : List ReportRow

def strictPostProbe [Rust.Target] [RandomState] (ctx : GroupingContext) (files : List FileScanStats)
    (rows : List ReportRow) (pre : List (List IntegrityReason))
    (candidates : List RecoverableScanItem) : PostProbe :=
  let reasons := strictReasons pre candidates
  let skips := reasons.filterMap fun (c, reason) => reason.map (skipRecordOf c)
  let kept := (reasons.filter fun (_, reason) => reason.isNone).map Prod.fst
  let rebuild := rebuildDedupResultsWithCtx kept (messageRefsOf rows) ctx
  { candidates := kept
    skips := skips
    files := recomputePerFileDupFromResults (skips.foldl applyStrictSkip files) rebuild.results
    rebuild := rebuild
    rows := rows.filterMap (rewriteRow (candIntegrity kept) (some rebuild.results) true) }

end PstDedupCli
