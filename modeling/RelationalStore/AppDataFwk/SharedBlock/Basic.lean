import RelationalStore.Theory.Memory

/-! # The shared block

The rows of a result in one mapping of `mSize` bytes, the header included. -/

namespace RelationalStore

inductive BlockStatus where
  | ok
  | badValue
  | noMemory
  | invalidOperation
  | ashmemError
  | setPortError
  deriving DecidableEq, Repr

inductive CellUnitType where
  | null
  | integer
  | float
  | string
  | blob
  | asset
  | assets
  | floats
  | bigint
  deriving DecidableEq, Repr

namespace CellUnitType

def code : CellUnitType → Nat
  | null => 0
  | integer => 1
  | float => 2
  | string => 3
  | blob => 4
  | asset => 5
  | assets => 6
  | floats => 7
  | bigint => 8

def ofCode? : Nat → Option CellUnitType
  | 0 => some null
  | 1 => some integer
  | 2 => some float
  | 3 => some string
  | 4 => some blob
  | 5 => some asset
  | 6 => some assets
  | 7 => some floats
  | 8 => some bigint
  | _ => none

@[simp] theorem ofCode?_code (t : CellUnitType) : ofCode? t.code = some t := by cases t <;> rfl

theorem code_lt (t : CellUnitType) : t.code < 9 := by cases t <;> decide

end CellUnitType

structure SharedBlock where
  mData : Mem
  mSize : Nat
  mReadOnly : Bool

namespace SharedBlock

abbrev colMaxNum : Nat := 32767

/-! ### The header -/

variable (b : SharedBlock)

def unusedOffset : Nat := b.mData.word 0 4
def rowNums : Nat := b.mData.word 4 4
def columnNums : Nat := b.mData.word 8 4
def startPos : Nat := b.mData.word 12 4
def lastPos : Nat := b.mData.word 16 4
def blockPos : Nat := b.mData.word 20 4
def groupOffset (groupPos : Nat) : Nat := b.mData.word (24 + 4 * groupPos) 4

def setWord (b : SharedBlock) (a v : Nat) : SharedBlock :=
  { b with mData := b.mData.setWord a 4 v }

def setUnusedOffset (v : Nat) : SharedBlock := b.setWord 0 v
def setRowNums (v : Nat) : SharedBlock := b.setWord 4 v
def setColumnNums (v : Nat) : SharedBlock := b.setWord 8 v
def setStartPos (v : Nat) : SharedBlock := b.setWord 12 v
def setLastPos (v : Nat) : SharedBlock := b.setWord 16 v
def setBlockPos (v : Nat) : SharedBlock := b.setWord 20 v
def setGroupOffset (groupPos v : Nat) : SharedBlock :=
  b.setWord (24 + 4 * groupPos) v

/-! ### Addresses and cells -/

def offsetToPtr (offset bufferSize : Nat) : Option Nat :=
  if (offset + bufferSize) % 2 ^ 32 > b.mSize then none else some offset

def rowSlot (row : Nat) : Nat := b.groupOffset (row / 128) + 4 * (row % 128)

def rowOffset (row : Nat) : Nat := b.mData.word (b.rowSlot row) 4

def cellAddr (row column : Nat) : Nat := b.rowOffset row + 12 * column

def cellType (cell : Nat) : Nat := b.mData.word cell 4

def cellOffset (cell : Nat) : Nat := b.mData.word (cell + 4) 4

def cellSize (cell : Nat) : Nat := b.mData.word (cell + 8) 4

def cellBits (cell : Nat) : Nat := b.mData.word (cell + 4) 8

/-! ### Creation -/

def clear : BlockStatus × SharedBlock :=
  if b.mReadOnly then (.invalidOperation, b)
  else
    let b := b.setUnusedOffset (536 + 512)
    let b := b.setRowNums 0
    let b := b.setColumnNums 0
    let b := b.setStartPos 0
    let b := b.setLastPos 0
    let b := b.setBlockPos 0
    let b := { b with mData := b.mData.blit 24 (fun _ => 0) 512 }
    (.ok, b.setGroupOffset 0 536)

def create (size : Nat) : Option SharedBlock :=
  if size % 2 ^ 32 < 2 ^ 31 ∧ 536 ≤ size % 2 ^ 32 then
    some (clear { mData := fun _ => 0, mSize := size, mReadOnly := false }).2
  else none

/-! ### Rows -/

def setColumnNum (numColumns : Nat) : BlockStatus × SharedBlock :=
  if b.mReadOnly then (.invalidOperation, b)
  else
    let cur := b.columnNums
    if (cur > 0 ∨ b.rowNums > 0) ∧ cur ≠ numColumns then (.invalidOperation, b)
    else if numColumns > colMaxNum then (.invalidOperation, b)
    else (.ok, b.setColumnNums numColumns)

def alignedOffset : Nat :=
  (b.unusedOffset + (2 ^ 32 - b.unusedOffset) % 4) % 2 ^ 32

def alloc (size : Nat) : Nat × SharedBlock :=
  let nextFreeOffset := (b.alignedOffset + size) % 2 ^ 32
  if nextFreeOffset > b.mSize then (0, b)
  else (b.alignedOffset, b.setUnusedOffset nextFreeOffset)

def allocGroup (groupPos : Nat) : SharedBlock :=
  if b.groupOffset groupPos = 0 then
    let (offset, b) := b.alloc 512
    b.setGroupOffset groupPos offset
  else b

def allocRowOffset : Option Nat × SharedBlock :=
  let groupPos := b.rowNums / 128
  if groupPos ≥ 128 then (none, b)
  else
    let b := b.allocGroup groupPos
    if b.groupOffset groupPos = 0 then (none, b)
    else
      let rowPos := b.rowNums % 128
      let group := b.offsetToPtr (b.groupOffset groupPos) 0
      let b := b.setRowNums (b.rowNums + 1)
      match group with
      | none => (none, b)
      | some group => (some (group + 4 * rowPos), b)

def allocRow : BlockStatus × SharedBlock :=
  match b.allocRowOffset with
  | (none, b) => (.noMemory, b)
  | (some rowOffset, b) =>
    let (fieldDirOffset, b) := b.alloc (b.columnNums * 12)
    if fieldDirOffset = 0 then (.noMemory, b.setRowNums (b.rowNums - 1))
    else (.ok, b.setWord rowOffset fieldDirOffset)

def freeLastRow : BlockStatus × SharedBlock :=
  if b.rowNums > 0 then (.ok, b.setRowNums (b.rowNums - 1)) else (.ok, b)

/-! ### Cells -/

def setCell (cell : Nat) (type : CellUnitType) (offset size : Nat) :
    SharedBlock :=
  ((b.setWord cell type.code).setWord (cell + 4) offset).setWord (cell + 8) size

abbrev Buffer := Option (Nat → UInt8)

section
-- Whether `memcpy_s` returns `EOK` for this `destMax` and `count`. The function belongs to the
-- bounds checking library; a call that fails leaves the destination alone.
variable (memcpyS : Nat → Bool)

def putBlobOrString (b : SharedBlock) (row column : Nat) (value : Buffer) (size : Nat)
    (type : CellUnitType) : BlockStatus × SharedBlock :=
  match value with
  | none => (.badValue, b)
  | some value =>
    if row ≥ b.rowNums ∨ column ≥ b.columnNums then (.badValue, b)
    else
      let cell := b.cellAddr row column
      let offset := b.unusedOffset
      let endOffset := (offset + size) % 2 ^ 32
      if endOffset > b.mSize then (.noMemory, b)
      else
        let b := b.setUnusedOffset endOffset
        if size ≠ 0 ∧ memcpyS size = false then (.noMemory, b)
        else
          let b := { b with mData := b.mData.blit offset value size }
          (.ok, b.setCell cell type offset size)

def putBlob (b : SharedBlock) (row column : Nat) (value : Buffer) (size : Nat) :=
  b.putBlobOrString memcpyS row column value size .blob

def putString (b : SharedBlock) (row column : Nat) (value : Buffer) (sizeIncludingNull : Nat) :=
  b.putBlobOrString memcpyS row column value sizeIncludingNull .string

def putAsset (b : SharedBlock) (row column : Nat) (value : Buffer) (size : Nat) :=
  b.putBlobOrString memcpyS row column value size .asset

def putAssets (b : SharedBlock) (row column : Nat) (value : Buffer) (size : Nat) :=
  b.putBlobOrString memcpyS row column value size .assets

def putFloats (b : SharedBlock) (row column : Nat) (value : Buffer) (size : Nat) :=
  b.putBlobOrString memcpyS row column value size .floats

def putBigInt (b : SharedBlock) (row column : Nat) (value : Buffer) (size : Nat) :=
  b.putBlobOrString memcpyS row column value size .bigint

end

def putBits (row column : Nat) (type : CellUnitType) (bits : Nat) :
    BlockStatus × SharedBlock :=
  if row ≥ b.rowNums ∨ column ≥ b.columnNums then (.badValue, b)
  else
    let cell := b.cellAddr row column
    let b := b.setWord cell type.code
    (.ok, { b with mData := b.mData.setWord (cell + 4) 8 bits })

def putLong (row column : Nat) (value : Int64) : BlockStatus × SharedBlock :=
  b.putBits row column .integer value.toUInt64.toNat

def putDouble (row column : Nat) (value : UInt64) : BlockStatus × SharedBlock :=
  b.putBits row column .float value.toNat

def putNull (row column : Nat) : BlockStatus × SharedBlock :=
  if row ≥ b.rowNums ∨ column ≥ b.columnNums then (.badValue, b)
  else
    (.ok, b.setCell (b.cellAddr row column) .null 0 0)

/-! ### Reading -/

def getCellUnit (row column : Nat) : Option Nat :=
  if row ≥ b.rowNums ∨ column ≥ b.columnNums then none else some (b.cellAddr row column)

def getString (cell : Nat) : List UInt8 :=
  match b.offsetToPtr (b.cellOffset cell) (b.cellSize cell) with
  | none => []
  | some value =>
    if b.cellSize cell < 1 then [] else b.mData.read value (b.mData.strlen value (b.mSize - value))

def getBlob (cell : Nat) : List UInt8 :=
  match b.offsetToPtr (b.cellOffset cell) (b.cellSize cell) with
  | none => []
  | some value => b.mData.read value (b.cellSize cell)

def getRawData (cell : Nat) : Option Nat :=
  b.offsetToPtr (b.cellOffset cell) (b.cellSize cell)

inductive CellValue where
  | null
  | integer (value : Int64)
  | float (bits : UInt64)
  | string (text : List UInt8)
  | bytes (type : CellUnitType) (data : List UInt8)
  deriving DecidableEq, Repr

def readCell (row column : Nat) : Option CellValue :=
  match b.getCellUnit row column with
  | none => none
  | some cell =>
    match CellUnitType.ofCode? (b.cellType cell) with
    | none => none
    | some .null => some .null
    | some .integer => some (.integer (Int64.ofUInt64 (UInt64.ofNat (b.cellBits cell))))
    | some .float => some (.float (UInt64.ofNat (b.cellBits cell)))
    | some .string => some (.string (b.getString cell))
    | some type => some (.bytes type (b.getBlob cell))

end SharedBlock

end RelationalStore
