import RelationalStore.Rdb.ResultSet.Cursor
import RelationalStore.Rdb.ResultSet.Window

/-! # The shared result set

A part of the result is copied into a block of 2 MiB, and the position is kept twice. -/

namespace RelationalStore

structure SqliteSharedResultSet where
  stmt : Stmt
  sharedBlock : Option SharedBlock
  lowMem : Bool
  ashmem : Bool
  rowPos : Int
  rowCount : Int
  isOnlyFillBlock : Bool
  blockCapacity : Nat
  isClosed : Bool
  lastErr : Option RdbError

def DEFAULT_BLOCK_SIZE : Nat := 2 * 1024 * 1024

namespace SqliteSharedResultSet

def create (stmt : Stmt) (ashmem isOnlyFillBlock : Bool) : SqliteSharedResultSet :=
  match stmt.count with
  | (.ok count, stmt) =>
    ⟨stmt, none, false, ashmem, initPos, count, isOnlyFillBlock, 0, false, none⟩
  | (.error err, stmt) =>
    ⟨stmt, none, false, ashmem, initPos, invalidCount, isOnlyFillBlock, 0, false, some err⟩

variable (s : SqliteSharedResultSet)

def getBlock : SqliteSharedResultSet :=
  if s.sharedBlock.isSome ∨ s.isClosed ∨ s.lowMem then s
  else
    match if s.ashmem then SharedBlock.create DEFAULT_BLOCK_SIZE else none with
    | none => { s with lowMem := true }
    | some block => { s with sharedBlock := some block }

def getRowCount : Except RdbError Int :=
  match s.lastErr with
  | some err => .error err
  | none =>
    if s.rowCount ≠ invalidCount then .ok s.rowCount
    else if s.isClosed then .error .alreadyClosed
    else .ok s.rowCount

def toUInt32 (x : Int) : Nat := (x % 2 ^ 32).toNat

def pickFillBlockStartPosition (resultSetPosition blockCapacity : Nat) : Nat :=
  resultSetPosition - blockCapacity / 3

section
variable (memcpyS : Nat → Bool)

def executeForSharedBlock (stmt : Stmt) (block : SharedBlock) (start required : Nat) :
    Except RdbError Unit × SharedBlock × Stmt :=
  match block.clear with
  | (.ok, block) =>
    match block.setColumnNum stmt.query.decls.length with
    | (.ok, block) =>
      match stmt.fillBlockInfo memcpyS
        ⟨some block, start, 0, required, 0, false, stmt.query.decls.length, false⟩ with
      | (.ok (), info, stmt) =>
        let block := info.sharedBlock.getD block
        let block := block.setStartPos info.startPos
        let block := block.setBlockPos (toUInt32 (required - info.startPos))
        (.ok (), block.setLastPos (info.startPos + block.rowNums), stmt)
      | (.error err, info, stmt) => (.error err, info.sharedBlock.getD block, stmt)
    | (_, block) => (.error .error, block, stmt)
  | (_, block) => (.error .error, block, stmt)

variable (s : SqliteSharedResultSet)

def fillStart (requiredPos : Nat) : Nat :=
  if s.isOnlyFillBlock then requiredPos
  else pickFillBlockStartPosition requiredPos s.blockCapacity

def fillBlock (requiredPos : Nat) :
    Except RdbError Unit × SqliteSharedResultSet :=
  match s.sharedBlock with
  | none => (.error .error, s)
  | some block =>
    match executeForSharedBlock memcpyS s.stmt block.clear.2 (s.fillStart requiredPos)
      requiredPos with
    | (.ok (), block, stmt) =>
      (if requiredPos ≥ block.lastPos then .error .noMoreRows else .ok (),
        { s with sharedBlock := some block, stmt := stmt, blockCapacity := block.rowNums })
    | (.error err, block, stmt) => (.error err, { s with sharedBlock := some block, stmt := stmt })

def Misses (block : SharedBlock) (oldPosition : Int)
    (newPosition : Nat) : Prop :=
  newPosition < block.startPos ∨ newPosition ≥ block.lastPos ∨ oldPosition = s.rowCount

instance (block : SharedBlock) (oldPosition : Int)
    (newPosition : Nat) : Decidable (s.Misses block oldPosition newPosition) :=
  inferInstanceAs (Decidable (_ ∨ _))

def recount : Except RdbError Unit × SqliteSharedResultSet :=
  if s.rowCount ≠ invalidCount then
    let lastPos := (s.sharedBlock.map (·.lastPos)).getD 0
    let rowCount := if lastPos > 2 ^ 31 - 1 then invalidCount else lastPos
    (.error .rowOutRange,
      { s with rowCount := rowCount, rowPos := if s.rowPos > rowCount then rowCount else s.rowPos })
  else (.error .noMoreRows, s)

def onGo (oldPosition : Int) (newPosition : Nat) :
    Except RdbError Unit × SqliteSharedResultSet :=
  if s.isClosed then (.error .alreadyClosed, s)
  else
    match s.getBlock.sharedBlock with
    | none => (.error .error, s.getBlock)
    | some block =>
      if s.Misses block oldPosition newPosition then
        match s.getBlock.fillBlock memcpyS newPosition with
        | (.error .noMoreRows, s) => s.recount
        | res => res
      else (.ok (), s.getBlock)

def updateBlockPos (position : Nat) :
    Except RdbError Unit × SqliteSharedResultSet :=
  match s.onGo memcpyS s.rowPos position with
  | (.ok (), s) =>
    let block := s.sharedBlock.map fun block =>
      if position ≠ (block.startPos + block.blockPos) % 2 ^ 32 then
        block.setBlockPos (toUInt32 (position - block.startPos))
      else block
    (.ok (), { s with sharedBlock := block })
  | (.error err, s) => (.error err, s)

def goToRow (position : Int) :
    Except RdbError Unit × SqliteSharedResultSet :=
  if s.isClosed then (.error .alreadyClosed, s)
  else
    match s.getRowCount with
    | .error err => (.error err, s)
    | .ok rowCnt =>
      if position ≥ rowCnt ∨ position < 0 then
        (.error .rowOutRange,
          { s with rowPos := if position ≥ rowCnt ∧ rowCnt ≠ 0 then rowCnt else s.rowPos })
      else if position = s.rowPos then (.ok (), s)
      else
        match s.updateBlockPos memcpyS position.toNat with
        | (.ok (), s) => (.ok (), { s with rowPos := position })
        | (.error err, s) => (.error err, s)

/-! The calls of `AbsResultSet` that go by `GoToRow` and `GetRowCount`. -/

def goToLastRow : Except RdbError Unit × SqliteSharedResultSet :=
  match s.getRowCount with
  | .error err => (.error err, s)
  | .ok rowCnt => if rowCnt = 0 then (.error .rowOutRange, s) else s.goToRow memcpyS (rowCnt - 1)

def nav : Nav → Except RdbError Unit × SqliteSharedResultSet
  | .goToRow position => s.goToRow memcpyS position.toInt
  | .goTo offset => s.goToRow memcpyS (toInt32 (s.rowPos + offset.toInt))
  | .goToFirstRow => s.goToRow memcpyS 0
  | .goToLastRow => s.goToLastRow memcpyS
  | .goToNextRow => s.goToRow memcpyS (toInt32 (s.rowPos + 1))
  | .goToPreviousRow => s.goToRow memcpyS (s.rowPos - 1)

end

def isStarted : Bool := s.rowPos ≠ initPos

def isAtFirstRow : Bool := s.rowPos = 0

def isEnded : Except RdbError Bool :=
  s.getRowCount.map fun rowCnt => rowCnt = 0 ∨ s.rowPos = rowCnt

def isAtLastRow : Except RdbError Bool :=
  s.getRowCount.map fun rowCnt => s.rowPos = rowCnt - 1

def checkState (columnIndex : Int) : Except RdbError Unit :=
  if s.isClosed then .error .alreadyClosed
  else if s.sharedBlock.isNone then .error .error
  else if s.rowPos < 0 ∨ s.rowPos ≥ s.rowCount then .error .rowOutRange
  else if columnIndex ≥ s.stmt.query.decls.length ∨ columnIndex < 0 then .error .columnOutRange
  else .ok ()

def get (col : Int) :
    Except RdbError ValueObject × SqliteSharedResultSet :=
  match s.getBlock.checkState col, s.getBlock.sharedBlock with
  | .error err, _ => (.error err, s.getBlock)
  | .ok (), none => (.ok .null, s.getBlock)
  | .ok (), some block =>
    match block.getCellUnit block.blockPos col.toNat with
    | none => (.error .error, s.getBlock)
    | some _ =>
      match block.readCell block.blockPos col.toNat with
      | some value => (.ok value, s.getBlock)
      | none => (.error .invalidObjectType, s.getBlock)

end SqliteSharedResultSet

end RelationalStore
