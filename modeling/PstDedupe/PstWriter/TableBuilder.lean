import PstDedupe.PstReader.CrcScopes
import PstDedupe.PstWriter.FolderPlan
import PstDedupe.PstWriter.HeapBuilder

/-!
# Tables being built (`pst-writer/src/production.rs`)

The attachment table and the recipient table of a message share a scheme: cells go to a paged heap,
or to subnodes when they are long, and the row matrix is a data tree under a subnode of its own.
-/

namespace PstWriter

open Rust Foundations List
open PstReader (satAdd)

abbrev LayoutM := ExceptT WriterError (StateM Layout)

def LayoutM.of {α : Type} (f : Layout → Result α × Layout) : LayoutM α := f

def LayoutM.ofResult {α : Type} (r : Result α) : LayoutM α := LayoutM.of fun l => (r, l)

structure SlEntry where
  nid : Nat
  bidData : Nat
  bidSub : Nat
  deriving DecidableEq, Repr

/-- `next_subnode_nid`: the low five bits keep it apart from a HID. -/
def nextSubnodeNid (counter : Nat) : Nat := ((counter + 1) <<< 5) ||| 0x1F

/-- The first of `windows(2)` with equal NIDs. -/
def firstRepeat : List SlEntry → Option Nat
  | a :: b :: rest => if a.nid = b.nid then some a.nid else firstRepeat (b :: rest)
  | _ => none

def slBlock (sorted : List SlEntry) : Bytes :=
  leBytes 1 0x02 ++ leBytes 1 0 ++ leBytes 2 sorted.length ++ leBytes 4 0
    ++ sorted.flatMap fun e => leBytes 8 e.nid ++ leBytes 8 e.bidData ++ leBytes 8 e.bidSub

def Layout.addSubnodeLeaf (l : Layout) (entries : List SlEntry) : Result Nat × Layout :=
  let sorted := sortBy (fun a b => compare a.nid b.nid) entries
  match firstRepeat sorted with
  | some nid => (.error (.layout ("duplicate SLENTRY nid 0x" ++ hexUpper nid)), l)
  | none =>
    if (slBlock sorted).length > maxBlockData then
      (.error (.layout (toString sorted.length
        ++ " subnode entries exceed v1's single-SLBLOCK capacity")), l)
    else
      let (bid, l) := l.pushInternal (slBlock sorted)
      (.ok bid, l)

inductive TcColType where
  | i32 | i64 | bool | time | stringRef | binaryRef | multiI32Ref
  deriving DecidableEq, Repr

def TcColType.width : TcColType → Nat
  | i64 | time => 8
  | i32 | stringRef | binaryRef | multiI32Ref => 4
  | bool => 1

def TcColType.propType : TcColType → Nat
  | i32 => ptypInteger32
  | i64 => ptypInteger64
  | bool => ptypBoolean
  | time => ptypTime
  | stringRef => ptypString
  | binaryRef => ptypBinary
  | multiI32Ref => 0x1003

/-- `TcColumnTuple`. -/
structure TcColumn where
  propId : Nat
  propType : Nat
  ibData : Nat
  cbData : Nat
  iBit : Nat
  deriving DecidableEq, Repr

def columnsFrom (offset iBit : Nat) : List (Nat × TcColType) → List TcColumn × Nat
  | [] => ([], offset)
  | (tag, ty) :: rest =>
    let (columns, stop) := columnsFrom (offset + ty.width) (iBit + 1) rest
    (⟨tag, ty.propType, offset, ty.width, iBit⟩ :: columns, stop)

def buildTemplateTcColumns (specs : List (Nat × TcColType)) : List TcColumn × Nat :=
  let group8 := specs.filter fun s => s.2.width == 8
  let group4 := specs.filter fun s => s.2.width == 4
  let group1 := specs.filter fun s => s.2.width != 8 && s.2.width != 4
  let (columns, offset) := columnsFrom 0 0 (group8 ++ group4 ++ group1)
  (columns, offset + (specs.length + 7) / 8)

def tcinfo (columns : List TcColumn) (totalRowWidth : Nat) : Bytes :=
  leBytes 1 0x7C ++ leBytes 1 columns.length ++ leBytes 2 0 ++ leBytes 2 0 ++ leBytes 2 0
    ++ leBytes 2 totalRowWidth ++ leBytes 4 0 ++ leBytes 4 0
    ++ columns.flatMap fun c =>
      leBytes 2 c.propId ++ leBytes 2 c.propType ++ leBytes 2 c.ibData ++ leBytes 1 c.cbData
        ++ leBytes 1 c.iBit

def maxHeapValueSize : Nat := 2048

structure TcValues where
  heap : PagedHeapBuilder
  tableSubs : List SlEntry
  extraContentBytes : Nat
  subCounter : Nat

def TcValues.start : TcValues := ⟨.new 0xBC, [], 0, 0⟩

variable [Crc32fast]

def TcValues.allocTcValue (t : TcValues) (bytes : Bytes) : LayoutM (Nat × TcValues) :=
  if bytes.length > maxHeapValueSize then do
    let nid := nextSubnodeNid t.subCounter
    let bid ← LayoutM.of (·.writeDataChain bytes)
    pure (asU32 nid, { t with
      subCounter := t.subCounter + 1
      tableSubs := t.tableSubs ++ [⟨nid, bid, 0⟩]
      extraContentBytes := satAdd t.extraContentBytes bytes.length })
  else do
    let (hid, heap) ← LayoutM.ofResult (t.heap.tryAlloc bytes)
    pure (hid, { t with heap })

def setRowBit (start : Nat) (row : Bytes) (bit : Nat) : Bytes :=
  row.modify (start + bit / 8) (· ||| UInt8.ofNat (1 <<< (bit % 8)))

structure TableBuilt where
  heap : Bytes
  tableBidSub : Nat
  extraContentBytes : Nat
  deriving DecidableEq

def TcValues.buildRowIndex (t : TcValues) (rowIds : List Nat) : Result (Nat × TcValues) := do
  let records := (range rowIds.length).zipWith (fun i id => (id, leBytes 4 i)) rowIds
  let (hidRowIndex, heap) ← buildBthU32Checked t.heap 4 4 records
  pure (hidRowIndex, { t with heap })

def TcValues.buildTcinfo (t : TcValues) (columns : List TcColumn)
    (totalRowWidth hidRowIndex : Nat) : Result (Nat × TcValues) := do
  let (hidTcinfo, heap) ← t.heap.tryAlloc (tcinfo columns totalRowWidth)
  let heap ← heap.patchU32 hidTcinfo 10 hidRowIndex
  pure (hidTcinfo, { t with heap })

def TcValues.finishTable (t : TcValues) (hidTcinfo : Nat) (rowMatrix : Bytes) (rowWidth : Nat) :
    LayoutM TableBuilt := do
  let (matrixBid, matrixBytes) ← LayoutM.of (·.writeRowMatrixTree rowMatrix rowWidth)
  let matrixNid := nextSubnodeNid t.subCounter
  let heap ← LayoutM.ofResult (t.heap.patchU32 hidTcinfo 14 matrixNid)
  let tableBidSub ← LayoutM.of (·.addSubnodeLeaf (t.tableSubs ++ [⟨matrixNid, matrixBid, 0⟩]))
  pure ⟨heap.finalize hidTcinfo, tableBidSub, satAdd t.extraContentBytes matrixBytes⟩

def pidTagAttachSize : Nat := 0x0E20
def pidTagAttachFilename : Nat := 0x3704
def pidTagAttachMethod : Nat := 0x3705
def pidTagRenderingPosition : Nat := 0x370B
def pidTagLtpRowId : Nat := 0x67F2
def pidTagLtpRowVer : Nat := 0x67F3

def attachmentTableColumns : List (Nat × TcColType) := [
  (pidTagAttachSize, .i32), (pidTagAttachFilename, .stringRef), (pidTagAttachMethod, .i32),
  (pidTagRenderingPosition, .i32), (pidTagLtpRowId, .i32), (pidTagLtpRowVer, .i32)]

structure AttachRow where
  attachNid : Nat
  size : Nat
  method : Int32
  filename : String

def attachCell (row : AttachRow) (i fnameHid propId : Nat) : Result Bytes :=
  if propId = pidTagAttachSize then .ok (leBytes 4 row.size)
  else if propId = pidTagAttachFilename then .ok (leBytes 4 fnameHid)
  else if propId = pidTagAttachMethod then .ok (leBytes 4 row.method.toUInt32.toNat)
  else if propId = pidTagRenderingPosition then .ok (leBytes 4 0xFFFFFFFF)
  else if propId = pidTagLtpRowId then .ok (leBytes 4 row.attachNid)
  else if propId = pidTagLtpRowVer then .ok (leBytes 4 (i + 1))
  else .error (.layout ("build_attachment_table_strategy_a: unexpected column prop 0x"
    ++ hexUpper propId))

def fillAttachRow (row : AttachRow) (i fnameHid rowWidth : Nat) : List TcColumn → Bytes → Result Bytes
  | [], bytes => pure bytes
  | col :: rest, bytes => do
    let cell ← attachCell row i fnameHid col.propId
    if col.ibData + col.cbData > rowWidth ∨ col.cbData > 4 then
      throw (.layout ("build_attachment_table_strategy_a: column 0x" ++ hexUpper col.propId
        ++ " out of row bounds (ib=" ++ toString col.ibData ++ " cb=" ++ toString col.cbData
        ++ " row_width=" ++ toString rowWidth ++ ")"))
    else
      fillAttachRow row i fnameHid rowWidth rest (patchBytes bytes col.ibData (cell.take col.cbData))

def attachRows (columns : List TcColumn) (rowWidth bitmapStart : Nat) :
    Nat → List AttachRow → TcValues → LayoutM (Bytes × TcValues)
  | _, [], t => pure ([], t)
  | i, row :: rest, t => do
    let (fnameHid, t) ← t.allocTcValue (utf16leBytes row.filename)
    let bytes ← LayoutM.ofResult
      (fillAttachRow row i fnameHid rowWidth columns (replicate rowWidth 0))
    let bytes := (columns.map TcColumn.iBit).foldl (setRowBit bitmapStart) bytes
    let (matrix, t) ← attachRows columns rowWidth bitmapStart (i + 1) rest t
    pure (bytes ++ matrix, t)

def buildAttachmentTableStrategyA (rows : List AttachRow) : LayoutM TableBuilt :=
  let (columns, totalRowWidth) := buildTemplateTcColumns attachmentTableColumns
  if rows.isEmpty then
    throw (.layout ("build_attachment_table_strategy_a called with zero rows; "
      ++ "omit NID_ATTACHMENT_TABLE instead"))
  else if totalRowWidth = 0 then
    throw (.layout "attachment TC row_width is 0; cannot pack row matrix")
  else do
    let bitmapStart := totalRowWidth - (columns.length + 7) / 8
    let (rowMatrix, t) ← attachRows columns totalRowWidth bitmapStart 0 rows .start
    let (hidRowIndex, t) ← LayoutM.ofResult (t.buildRowIndex (rows.map fun r => asU32 r.attachNid))
    let (hidTcinfo, t) ← LayoutM.ofResult (t.buildTcinfo columns totalRowWidth hidRowIndex)
    t.finishTable hidTcinfo rowMatrix totalRowWidth

inductive WriteRecipientType where
  | to | cc | bcc
  | other (v : Nat)
  deriving DecidableEq, Repr

def WriteRecipientType.toMapi : WriteRecipientType → Nat
  | .to => 1
  | .cc => 2
  | .bcc => 3
  | .other v => v

def WriteRecipientType.isBcc : WriteRecipientType → Bool
  | .bcc => true
  | _ => false

structure WriteRecipient where
  recipientType : WriteRecipientType
  displayName : Option String
  addressType : Option String
  emailAddress : Option String
  smtpAddress : Option String
  deriving DecidableEq, Repr

def recipientClassRank : WriteRecipientType → Nat
  | .to => 0
  | .cc => 1
  | .bcc => 2
  | .other _ => 3

def orderRecipientsForTc (rows : List WriteRecipient) : List WriteRecipient :=
  sortBy (fun a b => compare (recipientClassRank a.recipientType) (recipientClassRank b.recipientType))
    rows

def nonBlank (s : Option String) : Option String := (s.map trim).filter (· ≠ "")

def resolveRecipientAddressType (recip : WriteRecipient) : String :=
  match nonBlank recip.addressType with
  | some t => t
  | none =>
    if (nonBlank recip.smtpAddress).isSome then "SMTP"
    else
      match nonBlank recip.emailAddress with
      | none => ""
      | some email =>
        if contains (toAsciiUppercase email) "/O=" then "EX"
        else if email.toList.contains '@' then "SMTP"
        else ""

def synthesizeRecipientRecordKey (rowId : Nat) (email display addrType : String) : Bytes :=
  let seed := leBytes 4 rowId ++ bytes addrType ++ [0] ++ bytes email ++ [0] ++ bytes display
  [0x0C150001, 0x0C150002, 0x0C150003, 0x0C150004].flatMap fun salt =>
    leBytes 4 (Crc32fast.hash (leBytes 4 salt ++ seed)).toNat

def buildFolderEntryId (folderNid : Nat) (providerUid : Bytes) : Bytes :=
  leBytes 4 0 ++ providerUid ++ leBytes 4 folderNid

def synthesizeRecipientSearchKey (addrType email : String) (smtp : Option String) : Bytes :=
  let ty := if addrType = "" then "UNKNOWN" else addrType
  bytes (toAsciiUppercase ty ++ ":" ++ toAsciiUppercase (smtp.getD email))

def pidTagRecipientType : Nat := 0x0C15
def pidTagResponsibility : Nat := 0x0E0F
def pidTagRecordKey : Nat := 0x0FF9
def pidTagObjectType : Nat := 0x0FFE
def pidTagEntryId : Nat := 0x0FFF
def pidTagDisplayName : Nat := 0x3001
def pidTagAddressType : Nat := 0x3002
def pidTagEmailAddress : Nat := 0x3003
def pidTagSearchKey : Nat := 0x300B
def pidTagDisplayType : Nat := 0x3900
def pidTagSmtpAddress : Nat := 0x39FE
def pidTag7BitDisplayName : Nat := 0x39FF
def pidTagSendRichInfo : Nat := 0x3A40

def recipientTableColumns : List (Nat × TcColType) := [
  (pidTagRecipientType, .i32), (pidTagResponsibility, .bool), (pidTagRecordKey, .binaryRef),
  (pidTagObjectType, .i32), (pidTagEntryId, .binaryRef), (pidTagDisplayName, .stringRef),
  (pidTagAddressType, .stringRef), (pidTagEmailAddress, .stringRef), (pidTagSearchKey, .binaryRef),
  (pidTagDisplayType, .i32), (pidTagSmtpAddress, .stringRef), (pidTag7BitDisplayName, .stringRef),
  (pidTagSendRichInfo, .bool), (pidTagLtpRowId, .i32), (pidTagLtpRowVer, .i32)]

structure RecipientTexts where
  display : String
  email : String
  addrType : String
  smtp : Option String

def WriteRecipient.texts (recip : WriteRecipient) : RecipientTexts where
  display := (nonBlank recip.displayName).getD ""
  email := (nonBlank recip.emailAddress).getD ""
  addrType := resolveRecipientAddressType recip
  smtp := nonBlank recip.smtpAddress

structure RecipientHids where
  display : Nat
  addrType : Nat
  email : Nat
  sevenBit : Nat
  recordKey : Nat
  entryId : Nat
  searchKey : Nat
  smtp : Option Nat

def TcValues.allocRecipient (t : TcValues) (texts : RecipientTexts) (rowId : Nat) :
    LayoutM (RecipientHids × TcValues) := do
  let sevenBit := if texts.display ≠ "" then texts.display
    else if texts.email ≠ "" then texts.email else texts.smtp.getD ""
  let recordKeyBytes := synthesizeRecipientRecordKey rowId texts.email texts.display texts.addrType
  let entryIdBytes := buildFolderEntryId rowId recordKeyBytes
  let searchKeyBytes := synthesizeRecipientSearchKey texts.addrType texts.email texts.smtp
  let (display, t) ← t.allocTcValue (utf16leBytes texts.display)
  let (addrType, t) ← t.allocTcValue (utf16leBytes texts.addrType)
  let (email, t) ← t.allocTcValue (utf16leBytes texts.email)
  let (sevenBit, t) ← t.allocTcValue (utf16leBytes sevenBit)
  let (recordKey, t) ← t.allocTcValue recordKeyBytes
  let (entryId, t) ← t.allocTcValue entryIdBytes
  let (searchKey, t) ← t.allocTcValue searchKeyBytes
  match texts.smtp with
  | none => pure (⟨display, addrType, email, sevenBit, recordKey, entryId, searchKey, none⟩, t)
  | some s => do
    let (smtp, t) ← t.allocTcValue (utf16leBytes s)
    pure (⟨display, addrType, email, sevenBit, recordKey, entryId, searchKey, some smtp⟩, t)

def copyColBytes (row : Bytes) (ib cb : Nat) (val : Bytes) : Result Bytes :=
  if ib + cb > row.length ∨ cb > val.length then
    .error (.layout ("recipient TC column out of bounds (ib=" ++ toString ib ++ " cb=" ++ toString cb
      ++ " row_len=" ++ toString row.length ++ " val_len=" ++ toString val.length ++ ")"))
  else .ok (patchBytes row ib (val.take cb))

def copyColByte (row : Bytes) (name : String) (ib cb : Nat) (v : UInt8) : Result Bytes :=
  if cb < 1 then
    .error (.layout ("build_recipient_table_tc: " ++ name ++ " column width 0"))
  else .ok (patchBytes row ib [v])

/-- `(i as u32).saturating_add(1)`. -/
def recipientRowId (i : Nat) : Nat := min (asU32 i + 1) (2 ^ 32 - 1)

def fillRecipientCell (recip : WriteRecipient) (hids : RecipientHids) (rowId i : Nat) (row : Bytes)
    (col : TcColumn) : Result (Bytes × Bool) :=
  let put (val : Bytes) : Result (Bytes × Bool) := do
    let row ← copyColBytes row col.ibData col.cbData val
    pure (row, true)
  let putByte (name : String) (v : UInt8) : Result (Bytes × Bool) := do
    let row ← copyColByte row name col.ibData col.cbData v
    pure (row, true)
  if col.propId = pidTagRecipientType then put (leBytes 4 recip.recipientType.toMapi)
  else if col.propId = pidTagResponsibility then putByte "Responsibility" 1
  else if col.propId = pidTagRecordKey then put (leBytes 4 hids.recordKey)
  else if col.propId = pidTagObjectType then put (leBytes 4 6)
  else if col.propId = pidTagEntryId then put (leBytes 4 hids.entryId)
  else if col.propId = pidTagDisplayName then put (leBytes 4 hids.display)
  else if col.propId = pidTagAddressType then put (leBytes 4 hids.addrType)
  else if col.propId = pidTagEmailAddress then put (leBytes 4 hids.email)
  else if col.propId = pidTagSearchKey then put (leBytes 4 hids.searchKey)
  else if col.propId = pidTagDisplayType then put (leBytes 4 0)
  else if col.propId = pidTagSmtpAddress then
    match hids.smtp with
    | some hid => put (leBytes 4 hid)
    | none => pure (row, false)
  else if col.propId = pidTag7BitDisplayName then put (leBytes 4 hids.sevenBit)
  else if col.propId = pidTagSendRichInfo then putByte "SendRichInfo" 0
  else if col.propId = pidTagLtpRowId then put (leBytes 4 rowId)
  else if col.propId = pidTagLtpRowVer then put (leBytes 4 (recipientRowId i))
  else .error (.layout ("build_recipient_table_tc: unexpected column prop 0x" ++ hexUpper col.propId))

def fillRecipientRow (recip : WriteRecipient) (hids : RecipientHids) (rowId i : Nat) :
    List TcColumn → Bytes → Result (Bytes × List Nat)
  | [], row => pure (row, [])
  | col :: rest, row => do
    let (row, present) ← fillRecipientCell recip hids rowId i row col
    let (row, bits) ← fillRecipientRow recip hids rowId i rest row
    pure (row, if present then col.iBit :: bits else bits)

def recipientRows (columns : List TcColumn) (rowWidth bitmapStart : Nat) :
    Nat → List WriteRecipient → TcValues → LayoutM (Bytes × TcValues)
  | _, [], t => pure ([], t)
  | i, recip :: rest, t => do
    let (hids, t) ← t.allocRecipient recip.texts (recipientRowId i)
    let (row, bits) ← LayoutM.ofResult
      (fillRecipientRow recip hids (recipientRowId i) i columns (replicate rowWidth 0))
    let row := bits.foldl (setRowBit bitmapStart) row
    let (matrix, t) ← recipientRows columns rowWidth bitmapStart (i + 1) rest t
    pure (row ++ matrix, t)

def buildRecipientTableStrategyA (rows : List WriteRecipient) : LayoutM TableBuilt :=
  let (columns, totalRowWidth) := buildTemplateTcColumns recipientTableColumns
  if totalRowWidth = 0 then throw (.layout "recipient TC row_width is 0; cannot pack row matrix")
  else do
    let bitmapStart := totalRowWidth - (columns.length + 7) / 8
    let (rowMatrix, t) ← recipientRows columns totalRowWidth bitmapStart 0 rows .start
    if rows.isEmpty then do
      let (hidTcinfo, t) ← LayoutM.ofResult (t.buildTcinfo columns totalRowWidth 0)
      let heap ← LayoutM.ofResult (t.heap.patchU32 hidTcinfo 14 0)
      pure ⟨heap.finalize hidTcinfo, 0, 0⟩
    else do
      let (hidRowIndex, t) ← LayoutM.ofResult
        (t.buildRowIndex ((range rows.length).map recipientRowId))
      let (hidTcinfo, t) ← LayoutM.ofResult (t.buildTcinfo columns totalRowWidth hidRowIndex)
      t.finishTable hidTcinfo rowMatrix totalRowWidth

end PstWriter
