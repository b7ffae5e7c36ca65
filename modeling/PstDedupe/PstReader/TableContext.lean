import PstDedupe.PstReader.PropContext

/-!
# Reading a table (`pst-reader/src/ltp/tc.rs`)

`loadInner` reads TCINFO, the row matrix and the row index; the `getRow…` functions cut cells out of
the matrix.
-/

namespace PstReader

open Foundations Rust List

variable [PointerWidth]

abbrev SubnodeResolver := Nat → Result Slice

structure TcColumnDesc where
  propId : Nat
  propType : Nat
  ibData : Nat
  cbData : UInt8
  iBit : UInt8
  ibData_lt : ibData < 256 ^ 2

/-- `TcInfo`; `rgib` is an array of four. -/
structure TcInfo where
  cCols : UInt8
  rgib : Fin 4 → Nat
  hidRowIndex : Hid
  hnidRows : Nat
  columns : List TcColumnDesc

/-- The row matrix: its bytes and how many rows of `rowSize` they hold. -/
structure RowMatrix (rowSize : Nat) where
  rowData : Slice
  rowCount : Nat
  rowCount_mul_le : rowCount * rowSize ≤ rowData.len

/-- `data.len().checked_div(row_size).unwrap_or(0)` rows. -/
def RowMatrix.ofData (rowData : Slice) (rowSize : Nat) : RowMatrix rowSize :=
  ⟨rowData, rowData.len / rowSize, Nat.div_mul_le_self _ _⟩

structure TableContext where
  heap : Heap
  info : TcInfo
  rowSize : Nat
  rows : RowMatrix rowSize
  rowIds : List Nat
  cellSubnodes : HashMap Nat Slice

def TableContext.rowCount (table : TableContext) : Nat := table.rows.rowCount

/-! ## Loading -/

omit [PointerWidth] in
theorem u16_lt (n : { n : Nat // n < 256 ^ 2 }) : n.1 < 256 ^ 2 := n.2

def parseColumns (data : Slice) : List Nat → Reader (List TcColumnDesc)
  | [] => pure []
  | i :: is => do
    let colOffset ← addUsize 18 (← mulUsize i 8)
    let colEnd ← addUsize colOffset 8
    if colEnd > data.len then pure []
    else
      let colData ← data.range colOffset (← addUsize colOffset 8)
      let propId ← (← colData.range 0 2).readLe 2
      let propType ← (← colData.range 2 4).readLe 2
      let ibData ← readU16 (← colData.range 4 6)
      let cbData ← colData.at 6
      let iBit ← colData.at 7
      let rest ← parseColumns data is
      pure ({ propId, propType, ibData := ibData.1, cbData, iBit, ibData_lt := u16_lt ibData } :: rest)

def parseTcInfo (data : Slice) : Reader TcInfo :=
  if data.len < 18 then throw (.dataTruncated 18 data.len)
  else do
    let _bType ← data.at 0
    let cCols ← data.at 1
    let rgib0 ← (← data.range 2 4).readLe 2
    let rgib1 ← (← data.range 4 6).readLe 2
    let rgib2 ← (← data.range 6 8).readLe 2
    let rgib3 ← (← data.range 8 10).readLe 2
    let hidRowIndex ← (← data.range 10 14).readLe 4
    let hnidRows ← (← data.range 14 18).readLe 4
    let columns ← parseColumns data (range cCols.toNat)
    pure { cCols, rgib := ![rgib0, rgib1, rgib2, rgib3], hidRowIndex := ⟨hidRowIndex⟩, hnidRows, columns }

def extendFromSlice (out more : Slice) : Reader Slice :=
  if h : (out.bytes ++ more.bytes).length ≤ isizeMax then pure ⟨out.bytes ++ more.bytes, h⟩
  else panic .capacityOverflow

def extractRowsLoop (payload : Slice) (rowSize rowBytesPerBlock : Nat) : Nat → Slice → Nat → Reader Slice
  | 0, out, _ => pure out
  | fuel + 1, out, offset =>
    if offset < payload.len then do
      let remaining ← subUsize payload.len offset
      if remaining > maxBlockData then
        let out ← extendFromSlice out
          (← payload.range offset (← addUsize offset rowBytesPerBlock))
        extractRowsLoop payload rowSize rowBytesPerBlock fuel out (← addUsize offset maxBlockData)
      else
        let n := remaining / rowSize
        extendFromSlice out (← payload.range offset (← addUsize offset (← mulUsize n rowSize)))
    else pure out

def unpackRows (payload : Slice) (rowSize : Nat) : Reader (RowMatrix rowSize) :=
  if rowSize = 0 then throw (.resourceLimit "TC row width is 0; cannot unpack row matrix")
  else
    let rowsPerBlock := maxBlockData / rowSize
    if rowsPerBlock = 0 then
      throw (.resourceLimit s!"TC row width {rowSize} exceeds block payload {maxBlockData}")
    else do
      let rowBytesPerBlock ← mulUsize rowsPerBlock rowSize
      let out ← extractRowsLoop payload rowSize rowBytesPerBlock payload.len .empty 0
      pure (.ofData out rowSize)

def collectCellSubnode (resolver : SubnodeResolver) (rowData : Slice) (rowStart : Nat)
    (out : HashMap Nat Slice) (col : TcColumnDesc) : Reader (HashMap Nat Slice) :=
  if col.cbData ≠ 4 ∨ ¬(col.propType = 0x001F ∨ col.propType = 0x001E ∨ col.propType = 0x0102) then
    pure out
  else do
    let dataOffset ← addUsize rowStart col.ibData
    let dataEnd ← addUsize dataOffset 4
    if dataEnd > rowData.len then pure out
    else
      let hnid ← (← rowData.range dataOffset (← addUsize dataOffset 4)).readLe 4
      if hnid = 0 then pure out
      else if (⟨hnid⟩ : Hid).hidType = 0 ∨ (out.get hnid).isSome then pure out
      else
        match resolver hnid with
        | .ok bytes => pure (out.insert hnid bytes)
        | .error (.subnodeNotFound _) => pure out
        | .error e => throw e

def collectCellSubnodes (info : TcInfo) {rowSize : Nat} (rows : RowMatrix rowSize)
    (resolver : SubnodeResolver) : Reader (HashMap Nat Slice) :=
  if rowSize = 0 ∨ rows.rowCount = 0 then pure ∅
  else
    (range rows.rowCount).foldlM (fun out rowIndex => do
      let rowStart ← mulUsize rowIndex rowSize
      info.columns.foldlM (collectCellSubnode resolver rows.rowData rowStart) out) ∅

/-- The error of a computation as a value: `match f() { Ok(..) => .., Err(e) => .. }`. -/
def attempt {α : Type} (m : Reader α) : Reader (Result α) := ExceptT.mk (m.run.map .ok)

def applyRowIndex (rowIds : List Nat) (rec : BthRecord) : Reader (List Nat) :=
  if rec.key.len < 4 then pure rowIds
  else do
    let rowId ← (← rec.key.range 0 4).readLe 4
    let put (rowIndex : Nat) := if rowIndex < rowIds.length then rowIds.set rowIndex rowId else rowIds
    if rec.data.len ≥ 4 then return put (← (← rec.data.range 0 4).readLe 4)
    else if rec.data.len = 2 then return put (← (← rec.data.range 0 2).readLe 2)
    else if rec.data.len = 1 then return put (← rec.data.at 0).toNat
    else pure rowIds

def loadRowIds (heap : Heap) (info : TcInfo) (rowCount : Nat) : Reader (List Nat) :=
  let rowIds := replicate rowCount 0
  if info.hidRowIndex.isNull ∨ rowCount = 0 then pure rowIds
  else do
    match ← attempt (readBthHeader heap info.hidRowIndex) with
    | .error _ => pure rowIds
    | .ok bthHeader =>
      match ← attempt (collectRecords heap bthHeader) with
      | .error _ => pure rowIds
      | .ok records => records.foldlM applyRowIndex rowIds

def loadRows (heap : Heap) (info : TcInfo) (resolver : Option SubnodeResolver) (rowSize : Nat) :
    Reader (RowMatrix rowSize) :=
  if info.hnidRows = 0 then pure ⟨.empty, 0, by rw [Nat.zero_mul]; exact Nat.zero_le _⟩
  else if (⟨info.hnidRows⟩ : Hid).hidType = 0 then do
    let inlineData ← heap.get ⟨info.hnidRows⟩
    pure (.ofData inlineData rowSize)
  else
    match resolver with
    | none => throw (.subnodeNotFound info.hnidRows)
    | some resolve => do
      let payload ← ExceptT.mk (.ok (resolve info.hnidRows))
      unpackRows payload rowSize

def loadCells (info : TcInfo) {rowSize : Nat} (rows : RowMatrix rowSize)
    (resolver : Option SubnodeResolver) : Reader (HashMap Nat Slice) :=
  match resolver with
  | none => pure ∅
  | some resolve => collectCellSubnodes info rows resolve

def loadInner (data : Slice) (resolver : Option SubnodeResolver) : Reader TableContext := do
  let heap ← Heap.parse data (blockSizeOf data)
  let tcData ← heap.get heap.header.hidUserRoot
  let info ← parseTcInfo tcData
  let rows ← loadRows heap info resolver (info.rgib 3)
  let cellSubnodes ← loadCells info rows resolver
  let rowIds ← loadRowIds heap info rows.rowCount
  pure { heap, info, rowSize := info.rgib 3, rows, rowIds, cellSubnodes }

/-! ## Rows and cells -/

def TableContext.column (table : TableContext) (propId : Nat) : Option TcColumnDesc :=
  table.info.columns.find? (·.propId = propId)

def TableContext.getRowU32 (table : TableContext) (rowIndex propId : Nat) : Reader (Option Nat) :=
  match table.column propId with
  | none => pure none
  | some col => do
    let rowStart ← mulUsize rowIndex table.rowSize
    let dataOffset ← addUsize rowStart col.ibData
    let dataEnd ← addUsize dataOffset col.cbData.toNat
    if dataEnd > table.rows.rowData.len then pure none
    else if col.cbData = 4 then
      return some (← (← table.rows.rowData.range dataOffset dataEnd).readLe 4)
    else if col.cbData = 2 then
      return some (← (← table.rows.rowData.range dataOffset dataEnd).readLe 2)
    else if col.cbData = 1 then return some (← table.rows.rowData.at dataOffset).toNat
    else pure none

/-- `get_row_u64`; both sides of the source's `||` are computed here. -/
def TableContext.getRowU64 (table : TableContext) (rowIndex propId : Nat) : Reader (Option Nat) :=
  match table.column propId with
  | none => pure none
  | some col => do
    let rowStart ← mulUsize rowIndex table.rowSize
    let dataOffset ← addUsize rowStart col.ibData
    let dataEnd ← addUsize dataOffset 8
    if col.cbData ≠ 8 ∨ dataEnd > table.rows.rowData.len then pure none
    else return some (← (← table.rows.rowData.range dataOffset dataEnd).readLe 8)

def TableContext.cellBytes (table : TableContext) (hnid : Nat) : Reader Slice :=
  if (⟨hnid⟩ : Hid).hidType = 0 then table.heap.get ⟨hnid⟩
  else
    match table.cellSubnodes.get hnid with
    | some bytes => pure bytes
    | none => throw (.subnodeNotFound hnid)

/-- `get_row_string`; both sides of the source's `&&` are computed here. -/
def TableContext.getRowString (table : TableContext) (rowIndex propId : Nat) : Reader (Option String) :=
  match table.column propId with
  | none => pure none
  | some col =>
    if col.propType ≠ 0x001F then pure none
    else do
      let rowStart ← mulUsize rowIndex table.rowSize
      let dataOffset ← addUsize rowStart col.ibData
      let dataEnd ← addUsize dataOffset 4
      if col.cbData = 4 ∧ dataEnd ≤ table.rows.rowData.len then
        let hnid ← (← table.rows.rowData.range dataOffset dataEnd).readLe 4
        if hnid = 0 then pure (some "")
        else
          let bytes ← table.cellBytes hnid
          return some (← decodeUtf16le bytes)
      else pure none

end PstReader

/-!
# The reader never panics

Loading a table and cutting cells out of it, for every content of the file.
-/

namespace PstReader

open Foundations Rust List

variable [PointerWidth]

theorem safe_parseColumns (data : Slice) {is : List Nat} (his : ∀ i ∈ is, i < 256) :
    NoPanic (parseColumns data is) := by
  have hmax : 2 ^ 31 - 1 ≤ isizeMax := isizeMax_ge
  have husize := usizeMax_eq
  induction is with
  | nil => trivial
  | cons i is ih =>
    have hi := his i mem_cons_self
    unfold parseColumns
    simp (disch := omega) only [addUsize_eq, mulUsize_eq, pure_bind]
    split
    · trivial
    rw [Slice.range_eq (by omega) (by omega), pure_bind]
    have hcol : (data.sub (18 + i * 8) (18 + i * 8 + 8)).len = 8 := by
      rw [data.len_sub (by omega) (by omega)]
      omega
    refine Slice.safe_field (by omega) (by omega) fun propId _ => ?_
    refine Slice.safe_field (by omega) (by omega) fun propType _ => ?_
    rw [Slice.range_eq (by omega) (by omega), pure_bind]
    refine (safe_readU16 (by rw [Slice.len_sub _ (by omega) (by omega)])).bind fun ibData _ => ?_
    refine (Slice.safe_at (by omega)).bind fun cbData _ => ?_
    refine (Slice.safe_at (by omega)).bind fun iBit _ => ?_
    exact (ih fun j hj => his j (mem_cons_of_mem _ hj)).bind fun _ _ => trivial

theorem safe_parseTcInfo (data : Slice) : NoPanic (parseTcInfo data) := by
  unfold parseTcInfo
  split
  · exact safe_throw
  refine (Slice.safe_at (by omega)).bind fun _bType _ => ?_
  refine (Slice.safe_at (by omega)).bind fun cCols _ => ?_
  refine Slice.safe_field (by omega) (by omega) fun rgib0 _ => ?_
  refine Slice.safe_field (by omega) (by omega) fun rgib1 _ => ?_
  refine Slice.safe_field (by omega) (by omega) fun rgib2 _ => ?_
  refine Slice.safe_field (by omega) (by omega) fun rgib3 _ => ?_
  refine Slice.safe_field (by omega) (by omega) fun hidRowIndex _ => ?_
  refine Slice.safe_field (by omega) (by omega) fun hnidRows _ => ?_
  have hcols : NoPanic (parseColumns data (range cCols.toNat)) :=
    safe_parseColumns data fun i hi => (List.mem_range.mp hi).trans cCols.toNat_lt
  exact hcols.bind fun _ _ => trivial

theorem extendFromSlice_eq {out more : Slice} (h : out.len + more.len ≤ isizeMax) :
    extendFromSlice out more = pure ⟨out.bytes ++ more.bytes, by rwa [length_append]⟩ :=
  dif_pos (by rwa [length_append])

theorem extractRowsLoop_spec (payload : Slice) {rowSize : Nat}
    (hwidth : maxBlockData / rowSize * rowSize ≤ maxBlockData) (fuel : Nat) (out : Slice)
    {offset : Nat} (hout : out.len ≤ offset) (hoffset : offset ≤ payload.len) : ∃ rows : Slice,
      extractRowsLoop payload rowSize (maxBlockData / rowSize * rowSize) fuel out offset = pure rows ∧
      rows.bytes = out.bytes
        ++ extractRowsFrom rowSize (maxBlockData / rowSize) fuel (payload.bytes.drop offset) := by
  have hmax : 2 ^ 31 - 1 ≤ isizeMax := isizeMax_ge
  have husize := usizeMax_eq
  have hlen := payload.len_le
  have hblock : maxBlockData = 8176 := rfl
  induction fuel generalizing out offset with
  | zero => exact ⟨out, rfl, by rw [extractRowsFrom, append_nil]⟩
  | succ fuel ih =>
    have hrest : (payload.bytes.drop offset).length = payload.len - offset := length_drop ..
    unfold extractRowsLoop
    split
    case isFalse hend =>
      have hnil : payload.bytes.drop offset = [] := eq_nil_of_length_eq_zero (by omega)
      refine ⟨out, rfl, ?_⟩
      rw [hnil]
      simp [extractRowsFrom]
    case isTrue hmore =>
      have hne : payload.bytes.drop offset ≠ [] := by
        intro h
        rw [h, length_nil] at hrest
        omega
      rw [subUsize_eq (by omega), pure_bind]
      split
      case isTrue hfull =>
        -- a full block: its rows, and on to the next block
        have hsub := payload.len_sub (a := offset) (b := offset + maxBlockData / rowSize * rowSize)
          (by omega) (by omega)
        rw [addUsize_eq (by omega), pure_bind, Slice.range_eq (by omega) (by omega), pure_bind,
          extendFromSlice_eq (by omega), pure_bind, addUsize_eq (by omega), pure_bind]
        have hgrown : (⟨out.bytes ++ (payload.sub offset
            (offset + maxBlockData / rowSize * rowSize)).bytes, by
              rw [length_append]; unfold Slice.len at *; omega⟩ : Slice).len
            ≤ offset + maxBlockData := by
          unfold Slice.len at *
          rw [length_append]
          omega
        obtain ⟨rows, hrun, hrows⟩ := ih _ hgrown (by omega)
        refine ⟨rows, hrun, ?_⟩
        rw [hrows, extractRowsFrom, if_neg hne, if_pos (by omega), append_assoc]
        simp only [Slice.sub, Nat.add_sub_cancel_left, drop_drop]
      case isFalse hlast =>
        -- the last block: its whole rows
        have hrows : (payload.len - offset) / rowSize * rowSize ≤ payload.len - offset :=
          Nat.div_mul_le_self _ _
        have hsub := payload.len_sub (a := offset)
          (b := offset + (payload.len - offset) / rowSize * rowSize) (by omega) (by omega)
        dsimp only
        rw [mulUsize_eq (by omega), pure_bind, addUsize_eq (by omega), pure_bind,
          Slice.range_eq (by omega) (by omega), pure_bind, extendFromSlice_eq (by omega)]
        refine ⟨_, rfl, ?_⟩
        rw [extractRowsFrom, if_neg hne, if_neg (by omega), hrest]
        simp only [Slice.sub, Nat.add_sub_cancel_left]

theorem unpackRows_eq (payload : Slice) (rowSize : Nat) : ∃ r, (unpackRows payload rowSize).run = .ok r ∧
      r.map (fun rows => (rows.rowData.bytes, rows.rowCount))
        = extractRowsPerBlock payload.bytes rowSize := by
  have hmax : 2 ^ 31 - 1 ≤ isizeMax := isizeMax_ge
  have husize := usizeMax_eq
  have hwidth : maxBlockData / rowSize * rowSize ≤ maxBlockData := Nat.div_mul_le_self _ _
  have hblock : maxBlockData = 8176 := rfl
  unfold unpackRows extractRowsPerBlock
  split
  · exact ⟨_, rfl, rfl⟩
  dsimp only
  split
  · exact ⟨_, rfl, rfl⟩
  obtain ⟨out, hrun, hout⟩ := extractRowsLoop_spec payload hwidth payload.len .empty
    (Nat.zero_le 0) (Nat.zero_le _)
  rw [mulUsize_eq (by omega), pure_bind, hrun, pure_bind]
  refine ⟨_, rfl, ?_⟩
  have hbytes : out.bytes = extractRowsFrom rowSize (maxBlockData / rowSize) payload.bytes.length
      payload.bytes := by
    simpa [Slice.empty, Slice.len] using hout
  rw [← hbytes]
  rfl

theorem safe_unpackRows (payload : Slice) (rowSize : Nat) : NoPanic (unpackRows payload rowSize) := by
  obtain ⟨r, hrun, _⟩ := unpackRows_eq payload rowSize
  exact noPanic_iff.mpr ⟨r, hrun⟩

theorem safe_loadRows (heap : Heap) (info : TcInfo) (resolver : Option SubnodeResolver)
    (rowSize : Nat) : NoPanic (loadRows heap info resolver rowSize) := by
  unfold loadRows
  split
  · trivial
  split
  · exact (safe_get heap _).bind fun _ _ => trivial
  split
  · exact safe_throw
  · exact (safe_liftExcept _).bind fun payload _ => safe_unpackRows payload rowSize

/-! ### Cells and row ids -/

theorem row_start_lt {rowSize rowIndex : Nat} (rows : RowMatrix rowSize)
    (h : rowIndex < rows.rowCount) : rowIndex * rowSize ≤ rows.rowData.len :=
  (Nat.mul_le_mul_right _ (Nat.le_of_lt h)).trans rows.rowCount_mul_le

theorem safe_collectCellSubnode (resolver : SubnodeResolver) (rowData : Slice) {rowStart : Nat}
    (hstart : rowStart ≤ rowData.len) (out : HashMap Nat Slice) (col : TcColumnDesc) :
    NoPanic (collectCellSubnode resolver rowData rowStart out col) := by
  have hmax : 2 ^ 31 - 1 ≤ isizeMax := isizeMax_ge
  have husize := usizeMax_eq
  have hlen := rowData.len_le
  have hib := col.ibData_lt
  unfold collectCellSubnode
  split
  · trivial
  simp (disch := omega) only [addUsize_eq, pure_bind]
  split
  · trivial
  refine Slice.safe_field (by omega) (by omega) fun hnid _ => ?_
  split
  · trivial
  split
  · trivial
  split
  · trivial
  · trivial
  · exact safe_throw

theorem safe_collectCellSubnodes (info : TcInfo) {rowSize : Nat} (rows : RowMatrix rowSize)
    (resolver : SubnodeResolver) : NoPanic (collectCellSubnodes info rows resolver) := by
  have husize := usizeMax_eq
  have hlen := rows.rowData.len_le
  unfold collectCellSubnodes
  split
  · trivial
  refine safe_foldlM trivial fun out rowIndex hrow _ => ?_
  have hstart := row_start_lt rows (List.mem_range.mp hrow)
  rw [mulUsize_eq (by omega), pure_bind]
  exact safe_foldlM trivial fun out col _ _ =>
    safe_collectCellSubnode resolver rows.rowData hstart out col

omit [PointerWidth] in
theorem safe_attempt {α : Type} {m : Reader α} (hm : NoPanic m) : NoPanic (attempt m) := by
  obtain ⟨r, hrun⟩ := noPanic_iff.mp hm
  refine noPanic_iff.mpr ⟨.ok r, ?_⟩
  show m.run.map Except.ok = _
  rw [hrun]
  rfl

theorem safe_applyRowIndex (rowIds : List Nat) (rec : BthRecord) : NoPanic (applyRowIndex rowIds rec) := by
  unfold applyRowIndex
  split
  · trivial
  refine Slice.safe_field (by omega) (by omega) fun rowId _ => ?_
  dsimp only
  split
  · exact Slice.safe_field (by omega) (by omega) fun _ _ => trivial
  split
  · exact Slice.safe_field (by omega) (by omega) fun _ _ => trivial
  split
  · exact (Slice.safe_at (by omega)).bind fun _ _ => trivial
  · trivial

theorem safe_loadRowIds (heap : Heap) (info : TcInfo) (rowCount : Nat) :
    NoPanic (loadRowIds heap info rowCount) := by
  unfold loadRowIds
  dsimp only
  split
  · trivial
  refine (safe_attempt (safe_readBthHeader heap _)).bind fun header _ => ?_
  split
  · trivial
  refine (safe_attempt (safe_collectRecords heap _)).bind fun records _ => ?_
  split
  · trivial
  · exact safe_foldlM trivial fun rowIds rec _ _ => safe_applyRowIndex rowIds rec

theorem safe_loadInner (data : Slice) (resolver : Option SubnodeResolver) :
    NoPanic (loadInner data resolver) := by
  refine (safe_parse data _).bind fun heap _ => ?_
  refine (safe_get heap _).bind fun tcData _ => ?_
  refine (safe_parseTcInfo tcData).bind fun info _ => ?_
  refine (safe_loadRows heap info resolver _).bind fun rows _ => ?_
  have hcells : NoPanic (loadCells info rows resolver) := by
    unfold loadCells
    split
    · trivial
    · exact safe_collectCellSubnodes info rows _
  refine hcells.bind fun cellSubnodes _ => ?_
  exact (safe_loadRowIds heap info _).bind fun _ _ => trivial

variable (table : TableContext) {rowIndex : Nat}

theorem safe_getRowU32 (h : rowIndex < table.rowCount) (propId : Nat) :
    NoPanic (table.getRowU32 rowIndex propId) := by
  have hmax : 2 ^ 31 - 1 ≤ isizeMax := isizeMax_ge
  have husize := usizeMax_eq
  have hlen := table.rows.rowData.len_le
  have hstart := row_start_lt table.rows h
  unfold TableContext.getRowU32
  split
  · trivial
  rename_i col _
  have hib := col.ibData_lt
  have hcb : col.cbData.toNat < 256 := col.cbData.toNat_lt
  simp (disch := omega) only [addUsize_eq, mulUsize_eq, pure_bind]
  split
  · trivial
  split
  · rename_i hwidth
    have hfour : col.cbData.toNat = 4 := by rw [hwidth]; rfl
    exact Slice.safe_field (by omega) (by omega) fun _ _ => trivial
  split
  · rename_i hwidth
    have htwo : col.cbData.toNat = 2 := by rw [hwidth]; rfl
    exact Slice.safe_field (by omega) (by omega) fun _ _ => trivial
  split
  · rename_i hwidth
    have hone : col.cbData.toNat = 1 := by rw [hwidth]; rfl
    exact (Slice.safe_at (by omega)).bind fun _ _ => trivial
  · trivial

theorem safe_getRowU64 (h : rowIndex < table.rowCount) (propId : Nat) :
    NoPanic (table.getRowU64 rowIndex propId) := by
  have hmax : 2 ^ 31 - 1 ≤ isizeMax := isizeMax_ge
  have husize := usizeMax_eq
  have hlen := table.rows.rowData.len_le
  have hstart := row_start_lt table.rows h
  unfold TableContext.getRowU64
  split
  · trivial
  rename_i col _
  have hib := col.ibData_lt
  simp (disch := omega) only [addUsize_eq, mulUsize_eq, pure_bind]
  split
  · trivial
  · exact Slice.safe_field (by omega) (by omega) fun _ _ => trivial

theorem safe_getRowString (h : rowIndex < table.rowCount) (propId : Nat) :
    NoPanic (table.getRowString rowIndex propId) := by
  have hmax : 2 ^ 31 - 1 ≤ isizeMax := isizeMax_ge
  have husize := usizeMax_eq
  have hlen := table.rows.rowData.len_le
  have hstart := row_start_lt table.rows h
  unfold TableContext.getRowString
  split
  · trivial
  split
  · trivial
  rename_i col _ _
  have hib := col.ibData_lt
  simp (disch := omega) only [addUsize_eq, mulUsize_eq, pure_bind]
  split
  · refine Slice.safe_field (by omega) (by omega) fun hnid _ => ?_
    split
    · trivial
    have hcell : NoPanic (table.cellBytes hnid) := by
      unfold TableContext.cellBytes
      split
      · exact safe_get table.heap _
      split
      · trivial
      · exact safe_throw
    refine hcell.bind fun bytes _ => ?_
    exact (safe_decodeUtf16le bytes).bind fun _ _ => trivial
  · trivial

/-- **No file content makes the reader panic.** Any heap, any HID; any node data behind a table or a
property context, with any subnodes; every cell of a row the table counts, which is how every caller
walks it; every property. Each of them ends in a value or in a `PstError`. -/
theorem reader_never_panics :
    (∀ (heap : Heap) (hid : Hid), NoPanic (heap.get hid)) ∧
    (∀ (data : Slice) (resolver : Option SubnodeResolver), NoPanic (loadInner data resolver)) ∧
    (∀ (table : TableContext) (row : Fin table.rowCount) (propId : Nat),
      NoPanic (table.getRowU32 row propId) ∧ NoPanic (table.getRowU64 row propId) ∧
      NoPanic (table.getRowString row propId)) ∧ (∀ (data : Slice) (subnodes : HashMap Nat Slice),
      NoPanic (PropContext.loadWithSubnodes data subnodes) ∧ NoPanic (referencedSubnodeNids data)) ∧
    (∀ (pc : PropContext) (propId : Nat),
      NoPanic (pc.get propId) ∧ NoPanic (pc.getObject propId) ∧ NoPanic (pc.getRawHnid propId) ∧
      NoPanic (pc.propValueByteLen propId)) := by
  refine ⟨safe_get, safe_loadInner, fun table row propId => ?_, fun data subnodes => ?_, fun pc propId => ?_⟩
  · exact ⟨safe_getRowU32 table row.2 propId, safe_getRowU64 table row.2 propId,
      safe_getRowString table row.2 propId⟩
  · exact ⟨safe_loadWithSubnodes data subnodes, safe_referencedSubnodeNids data⟩
  · exact ⟨pc.safe_get propId, safe_getObject pc propId, safe_getRawHnid pc propId,
      safe_propValueByteLen pc propId⟩

end PstReader
