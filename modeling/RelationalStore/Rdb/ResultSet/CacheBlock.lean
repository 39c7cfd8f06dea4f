import RelationalStore.Theory.Chunks
import RelationalStore.Rdb.Values.RawNumbers
import RelationalStore.Rdb.ResultSet.AbsResultSet

/-! # The rows of a statement

`ExecuteForRows` collects the rows that a statement returns, up to a number of them. -/

namespace RelationalStore

open List

/-! ## The block -/

structure CacheBlock where
  rows : List (OrderedMap String ValueObject)
  columns : List String
  maxCount : Nat
  isFull : Bool
  hasException : Bool

structure ParserEnv where
  json : Values.JsonLibrary
  now : Nat
  bigEndian : Bool

def ParserEnv.dataLen (env : ParserEnv) (type : CellUnitType) (data : List UInt8) : Nat :=
  match type with
  | .asset => (Values.RawDataParser.parserRawData env.json env.now data .empty).1
  | .assets => (Values.RawDataParser.parserRawDataAssets env.json env.now data []).1
  | .floats => (Values.RawDataParser.parserRawDataFloats env.bigEndian data []).1
  | .bigint => (Values.RawDataParser.parserRawDataBigInt data .default).1
  | _ => data.length

namespace CacheBlock

def create (maxCount : Nat) (columns : List String) : CacheBlock :=
  ⟨[], columns, maxCount, false, false⟩

def clear (b : CacheBlock) : BlockStatus × CacheBlock := (.ok, { b with rows := [] })

def setColumnNum (b : CacheBlock) (_ : Nat) : BlockStatus × CacheBlock := (.ok, b)

def allocRow (b : CacheBlock) : BlockStatus × CacheBlock :=
  if b.rows.length ≥ b.maxCount then (.ok, { b with isFull := true })
  else (.ok, { b with rows := b.rows ++ [.empty] })

def freeLastRow (b : CacheBlock) : BlockStatus × CacheBlock :=
  (.ok, { b with rows := b.rows.dropLast })

def putWith (b : CacheBlock) (row column : Nat)
    (store : Option (OrderedMap String ValueObject → String → OrderedMap String ValueObject)) :
    BlockStatus × CacheBlock :=
  if b.isFull then (.ok, b)
  else
    match b.rows[row]?, b.columns[column]?, store with
    | some bucket, some name, some store =>
      (.ok, { b with rows := b.rows.set row (store bucket name) })
    | _, _, _ => (.badValue, { b with hasException := true })

def putString (b : CacheBlock) (row column : Nat) (value : Option (List UInt8)) :=
  b.putWith row column
    (value.map fun text bucket name => bucket.insert name (.string text.dropLast))

def putLong (b : CacheBlock) (row column : Nat) (value : Int64) :=
  b.putWith row column (some fun bucket name => bucket.insert name (.integer value))

def putDouble (b : CacheBlock) (row column : Nat) (bits : UInt64) :=
  b.putWith row column (some fun bucket name => bucket.insert name (.float bits))

def putNull (b : CacheBlock) (row column : Nat) :=
  b.putWith row column (some fun bucket name => bucket.insert name .null)

def putBlob (b : CacheBlock) (row column : Nat) (value : Option (List UInt8)) :=
  b.putWith row column
    (value.map fun data bucket name => bucket.insertOrAssign name (.bytes .blob data))

def putRaw (type : CellUnitType) (env : ParserEnv) (b : CacheBlock) (row column : Nat)
    (value : Option (List UInt8)) :=
  b.putWith row column (value.bind fun data =>
    if env.dataLen type data = 0 then none
    else some fun bucket name => bucket.insertOrAssign name (.bytes type data))

def putAsset := putRaw .asset

def putAssets := putRaw .assets

def putFloats := putRaw .floats

def putBigInt := putRaw .bigint

def put (env : ParserEnv) (b : CacheBlock) (row column : Nat) (decl : Option String) :
    SqliteValue → BlockStatus × CacheBlock
  | .text bytes => b.putString row column (some (bytes ++ [0]))
  | .integer value => b.putLong row column value
  | .float bits => b.putDouble row column bits
  | .blob bytes =>
    let blob := if bytes = [] then none else some bytes
    match decl.elim .blob blobType with
    | .asset => b.putAsset env row column blob
    | .assets => b.putAssets env row column blob
    | .floats => b.putFloats env row column blob
    | .bigint => b.putBigInt env row column blob
    | _ => b.putBlob row column blob
  | .null => b.putNull row column

end CacheBlock

/-! ## The loop -/

structure CacheBlockInfo where
  sharedBlock : CacheBlock
  startPos : Nat
  addedRows : Nat
  requiredPos : Nat
  totalRows : Int
  isCountAllRows : Bool
  columnNum : Nat
  isFull : Bool

section
variable (env : ParserEnv)

namespace CacheBlock

def fillColumns (addedRows : Nat) :
    Nat → List (Option String × SqliteValue) → CacheBlock → FillOneRowResult × CacheBlock
  | _, [], b => (.success, b)
  | pos, (decl, v) :: cells, b =>
    match b.put env addedRows pos decl v with
    | (.ok, b) => fillColumns addedRows (pos + 1) cells b
    | (_, b) => (.isFull, b)

def fillOneRow (b : CacheBlock) (cells : List (Option String × SqliteValue))
    (numColumns addedRows : Nat) : FillOneRowResult × CacheBlock :=
  match b.allocRow with
  | (.ok, b) =>
    match fillColumns env addedRows 0 (cells.take numColumns) b with
    | (.success, b) => (.success, b)
    | (.isFull, b) => (.isFull, b.freeLastRow.2)
  | (_, b) => (.isFull, b)

end CacheBlock

namespace CacheBlockInfo

def forRows (maxCount : Nat) (colNames : List String) : CacheBlockInfo :=
  ⟨.create maxCount colNames, 0, 0, 0, -1, true, 0, false⟩

variable (info : CacheBlockInfo)

def filled (res : FillOneRowResult × CacheBlock) : CacheBlockInfo :=
  match res with
  | (.success, b) => { info with sharedBlock := b, addedRows := info.addedRows + 1 }
  | (.isFull, b) => { info with sharedBlock := b, isFull := true }

def fillRow (cells : List (Option String × SqliteValue)) :
    CacheBlockInfo :=
  let res := info.sharedBlock.fillOneRow env cells info.columnNum info.addedRows
  if res.1 = .isFull ∧ info.addedRows ≠ 0 ∧ info.startPos + info.addedRows ≤ info.requiredPos then
    let b := (res.2.clear.2.setColumnNum info.columnNum).2
    let info := { info with startPos := info.startPos + info.addedRows, addedRows := 0 }
    info.filled (b.fillOneRow env cells info.columnNum info.addedRows)
  else info.filled res

def onRow (isFull : Bool) (info : CacheBlockInfo) (cells : List (Option String × SqliteValue)) :
    Bool × CacheBlockInfo :=
  let info := { info with totalRows := info.totalRows + 1 }
  if (info.startPos : Int) ≥ info.totalRows ∨ isFull then (isFull, info)
  else
    let info := info.fillRow env cells
    (info.isFull, info)

def fillLoop (retryTime : Nat) :
    Nat → Nat → Bool → CacheBlockInfo → Stmt → Except RdbError Unit × CacheBlockInfo
  | 0, _, _, info, _ => (.error .error, info)
  | fuel + 1, retryCount, isFull, info, stmt =>
    if isFull ∧ info.isCountAllRows = false then (.ok (), info)
    else
      match stmt.step with
      | (.row, stmt) =>
        let res := info.onRow env isFull stmt.cells
        fillLoop retryTime fuel 0 res.1 res.2 stmt
      | (.done, _) => (.ok (), info)
      | (.error err, stmt) =>
        if err = .sqliteBusy ∨ err = .sqliteLocked then
          if retryCount ≥ retryTime then (.error .databaseBusy, info)
          else fillLoop retryTime fuel (retryCount + 1) isFull info stmt
        else (.error err, info)

def fillSharedBlock (stmt : Stmt) (retryTime : Nat) :
    Except RdbError Unit × CacheBlockInfo :=
  fillLoop env retryTime (stmt.ahead + 1) 0 false { info with totalRows := 0, addedRows := 0 } stmt

end CacheBlockInfo

/-! ## The serializer -/

inductive SeriCode where
  | ok
  | full
  | error
  deriving DecidableEq

inductive SeriCall where
  | addRow (addedRows : Nat)
  | put (row column : Nat) (value : SqliteValue)
  | putOther (row column : Nat)
  | reset (startPos : Nat)
  | finish (addedRows totalRows : Nat)

structure SharedBlockSerializerInfo where
  sharedBlock : CacheBlock
  anumColumns : Nat
  atotalRows : Nat
  astartPos : Nat
  raddedRows : Nat
  isFull : Bool

namespace SharedBlockSerializerInfo

def create (b : CacheBlock) (numColumns startPos : Nat) : SharedBlockSerializerInfo :=
  ⟨b, numColumns, 0, startPos, 0, false⟩

variable (s : SharedBlockSerializerInfo)

def addRow (addedRows : Nat) :
    SeriCode × SharedBlockSerializerInfo :=
  match s.sharedBlock.allocRow with
  | (.ok, b) => (.ok, { s with sharedBlock := b, raddedRows := addedRows + 1 })
  | (.noMemory, b) => (.full, { s with sharedBlock := b, isFull := true })
  | (_, b) => (.full, { s with sharedBlock := b })

def answer (res : BlockStatus × CacheBlock) :
    SeriCode × SharedBlockSerializerInfo :=
  match res with
  | (.ok, b) => (.ok, { s with sharedBlock := b })
  | (.noMemory, b) => (.full, { s with sharedBlock := b.freeLastRow.2, isFull := true })
  | (_, b) => (.full, { s with sharedBlock := b.freeLastRow.2 })

def putOther : SeriCode × SharedBlockSerializerInfo :=
  (.error, { s with sharedBlock := s.sharedBlock.freeLastRow.2 })

def reset (startPos : Nat) :
    SeriCode × SharedBlockSerializerInfo :=
  match s.sharedBlock.clear with
  | (.ok, b) =>
    match b.setColumnNum s.anumColumns with
    | (.ok, b) =>
      (.ok, { s with sharedBlock := b, astartPos := startPos, raddedRows := 0, isFull := false })
    | (_, b) => (.error, { s with sharedBlock := b })
  | (_, b) => (.error, { s with sharedBlock := b })

def finish (addedRows totalRows : Nat) :
    SeriCode × SharedBlockSerializerInfo :=
  (.ok, { s with raddedRows := addedRows, atotalRows := totalRows })

def call (decls : List (Option String)) (s : SharedBlockSerializerInfo) :
    SeriCall → SeriCode × SharedBlockSerializerInfo
  | .addRow addedRows => s.addRow addedRows
  | .put row column value =>
    s.answer (s.sharedBlock.put env row column (decls.getD column none) value)
  | .putOther _ _ => s.putOther
  | .reset startPos => s.reset startPos
  | .finish addedRows totalRows => s.finish addedRows totalRows

end SharedBlockSerializerInfo

inductive FillPath where
  | plain
  | opt (calls : List SeriCall) (step : Except RdbError Unit)

def CacheBlockInfo.fillSharedBlockOpt (info : CacheBlockInfo) (decls : List (Option String))
    (calls : List SeriCall) (step : Except RdbError Unit) : Except RdbError Unit × CacheBlockInfo :=
  let s := final (SharedBlockSerializerInfo.call env decls)
    (.create info.sharedBlock info.columnNum info.startPos) calls
  (step, { info with
    sharedBlock := s.sharedBlock, totalRows := s.atotalRows, startPos := s.astartPos
    addedRows := s.raddedRows, isFull := s.isFull })

/-! ## The statement -/

namespace Stmt

variable (path : FillPath)

def fillCacheBlockInfo (stmt : Stmt) (info : CacheBlockInfo) (retryTime : Nat) :
    Except RdbError Unit × CacheBlockInfo :=
  let res :=
    match path with
    | .plain => info.fillSharedBlock env stmt retryTime
    | .opt calls step => info.fillSharedBlockOpt env stmt.query.decls calls step
  match res with
  | (.error err, info) => (.error err, info)
  | (.ok (), info) =>
    if info.isFull ∧ info.totalRows > 0 ∧ info.addedRows = 0 then (.error .error, info)
    else (.ok (), info)

def getRows (stmt : Stmt) (colNames : List String) (maxCount : Nat) :
    Except RdbError (List (OrderedMap String ValueObject)) :=
  if colNames = [] then .ok []
  else
    match stmt.fillCacheBlockInfo env path (.forRows maxCount colNames) 0 with
    | (.error err, _) => .error err
    | (.ok (), info) =>
      if info.sharedBlock.hasException then .error .error else .ok info.sharedBlock.rows

def E_SQLITE_IOERR_FULL : RdbError := .other 14800075

def executeForRows (stmt : Stmt) (colNames : List String)
    (bound : Except RdbError Unit) (noSpace : Bool) (maxCount : Nat) :
    Except RdbError (List (OrderedMap String ValueObject)) :=
  match bound with
  | .error err => .error err
  | .ok () =>
    match stmt.getRows env path colNames maxCount with
    | .ok rows => .ok rows
    | .error .noMoreRows => .ok []
    | .error err =>
      .error (if err = .sqliteIoerr ∧ noSpace then E_SQLITE_IOERR_FULL else err)

end Stmt

end

variable {env : ParserEnv} {q : NamedQuery} {b : CacheBlock} {maxCount k i : Nat}

/-! ## Values -/

def SqliteValue.Storable (env : ParserEnv) (decl : Option String) : SqliteValue → Prop
  | blob bytes => bytes ≠ [] ∧ env.dataLen (decl.elim .blob blobType) bytes ≠ 0
  | _ => True

namespace CacheBlock

structure Stores (store : OrderedMap String ValueObject → String → OrderedMap String ValueObject)
    (x : ValueObject) : Prop where
  find_self : ∀ {bucket name}, (∀ y ∈ bucket.find name, y = x) →
    (store bucket name).find name = some x
  find_other : ∀ {bucket name key}, key ≠ name → (store bucket name).find key = bucket.find key

theorem stores_insert (x : ValueObject) : Stores (fun bucket name => bucket.insert name x) x where
  find_self {bucket name} h := by
    rw [OrderedMap.find_insert, if_pos rfl]
    cases hfind : bucket.find name with
    | none => rfl
    | some y => exact congrArg some (h y hfind)
  find_other h := (OrderedMap.find_insert _).trans (if_neg h)

theorem stores_insertOrAssign (x : ValueObject) :
    Stores (fun bucket name => bucket.insertOrAssign name x) x where
  find_self _ := (OrderedMap.find_insertOrAssign _).trans (if_pos rfl)
  find_other h := (OrderedMap.find_insertOrAssign _).trans (if_neg h)

theorem allocRow_full (h : b.maxCount ≤ b.rows.length) :
    b.allocRow = (.ok, { b with isFull := true }) := if_pos h

theorem allocRow_room (h : b.rows.length < b.maxCount) :
    b.allocRow = (.ok, { b with rows := b.rows ++ [.empty] }) := if_neg (Nat.not_le_of_lt h)

theorem put_blob (env : ParserEnv) (b : CacheBlock) (row column : Nat) (decl : Option String)
    (bytes : List UInt8) : b.put env row column decl (.blob bytes) =
      b.putRaw (decl.elim .blob blobType) env row column
        (if bytes = [] then none else some bytes) := by
  have hblob (value : Option (List UInt8)) (h : value ≠ some []) :
      b.putBlob row column value = b.putRaw .blob env row column value := by
    cases value with
    | none => rfl
    | some data =>
      refine congrArg (b.putWith row column) ?_
      have hlen : env.dataLen .blob data ≠ 0 := fun hzero =>
        h (congrArg some (eq_nil_of_length_eq_zero hzero))
      rw [Option.bind_some, if_neg hlen]
      rfl
  have hne : (if bytes = [] then none else some bytes) ≠ some [] := by
    split
    · exact nofun
    next h => exact fun heq => h (Option.some.inj heq)
  unfold put
  dsimp only
  cases decl with
  | none => exact hblob _ hne
  | some decl =>
    have hmem := blobType_mem decl
    rw [Option.elim_some]
    generalize blobType decl = type at hmem
    simp only [mem_cons, not_mem_nil, or_false] at hmem
    rcases hmem with rfl | rfl | rfl | rfl | rfl
    · rfl
    · rfl
    · rfl
    · rfl
    · exact hblob _ hne

theorem put_storable (h : v.Storable env decl) :
    ∃ store, Stores store (v.object decl) ∧
      ∀ b row column, put env b row column decl v = b.putWith row column (some store) := by
  cases v with
  | null => exact ⟨_, stores_insert _, fun _ _ _ => rfl⟩
  | integer value => exact ⟨_, stores_insert _, fun _ _ _ => rfl⟩
  | float bits => exact ⟨_, stores_insert _, fun _ _ _ => rfl⟩
  | text bytes =>
    refine ⟨_, stores_insert _, fun b row column => ?_⟩
    rw [put, putString, Option.map_some, dropLast_concat]
    rfl
  | blob bytes =>
    refine ⟨_, stores_insertOrAssign _, fun b row column => ?_⟩
    rw [put_blob, putRaw, if_neg h.1, Option.bind_some, if_neg h.2]
    rfl

theorem put_not_storable (h : ¬ v.Storable env decl) (b : CacheBlock) (row column : Nat) :
    b.put env row column decl v = b.putWith row column none := by
  cases v with
  | blob bytes =>
    rw [put_blob, putRaw]
    congr 1
    split
    · rfl
    next hne => rw [Option.bind_some, if_pos (Decidable.not_not.mp fun hlen => h ⟨hne, hlen⟩)]
  | _ => exact absurd trivial h

theorem put_eq (env : ParserEnv) (decl : Option String) (v : SqliteValue) :
    ∃ store, ∀ b row column, put env b row column decl v = b.putWith row column store := by
  rcases Classical.em (v.Storable env decl) with h | h
  · obtain ⟨store, _, heq⟩ := put_storable h
    exact ⟨some store, heq⟩
  · exact ⟨none, put_not_storable h⟩

section
variable {store : Option (OrderedMap String ValueObject → String → OrderedMap String ValueObject)}
  {row column : Nat}

theorem putWith_full (h : b.isFull) : b.putWith row column store = (.ok, b) := if_pos h

theorem putWith_none (h : b.isFull = false) :
    b.putWith row column none = (.badValue, { b with hasException := true }) := by
  unfold putWith
  rw [if_neg (by simp [h])]
  split
  next hnone => exact nomatch hnone
  · rfl

theorem putWith_cases (b : CacheBlock) (row column : Nat)
    (store : Option (OrderedMap String ValueObject → String → OrderedMap String ValueObject)) :
    (∃ rows, b.putWith row column store = (.ok, { b with rows := rows })) ∨
      b.putWith row column store = (.badValue, { b with hasException := true }) := by
  unfold putWith
  split
  · exact .inl ⟨b.rows, rfl⟩
  split
  · exact .inl ⟨_, rfl⟩
  · exact .inr rfl

theorem putWith_last {rows : List (OrderedMap String ValueObject)}
    {store : OrderedMap String ValueObject → String → OrderedMap String ValueObject}
    (h : b.isFull = false) (hrows : b.rows = rows ++ [bucket])
    (hname : b.columns[column]? = some name) :
    b.putWith rows.length column (some store) =
      (.ok, { b with rows := rows ++ [store bucket name] }) := by
  unfold putWith
  rw [if_neg (by simp [h]), hrows, hname, getElem?_concat_length]
  dsimp only
  rw [set_append_right _ _ (Nat.le_refl _), Nat.sub_self]
  rfl

end

end CacheBlock

/-! ## Rows

A bucket keeps one value for each name, so it has the values of all columns just when columns of one
name have one value. -/

/-- Columns of one name have one value in the row. -/
def NamedQuery.SameNamed (q : NamedQuery) (row : Nat) : Prop :=
  ∀ c ∈ q.columnsAt row, ∀ c' ∈ q.columnsAt row, c.1 = c'.1 → c.2 = c'.2

theorem NamedQuery.column_of_cell (hrow : q.rows[k]? = some row) (hv : row[i]? = some v) :
    ∃ name decl, q.names[i]? = some name ∧ q.decls[i]? = some decl ∧
      (q.columnsAt k)[i]? = some (name, v.object decl) := by
  have hp : k < q.rows.length := (List.getElem?_eq_some_iff.mp hrow).1
  have hi : i < q.decls.length := by
    rw [← q.width row (mem_of_getElem? hrow)]
    exact (List.getElem?_eq_some_iff.mp hv).1
  obtain ⟨decl, row', v', hdecl, hrow', hv', hvalue⟩ := q.cell hp hi
  cases hrow.symm.trans hrow'
  cases hv.symm.trans hv'
  have hname := List.getElem?_eq_getElem (l := q.names) (q.names_length.symm ▸ hi)
  exact ⟨_, decl, hname, hdecl, (getElem?_columnsAt hp).mpr ⟨hname, hvalue⟩⟩

/-- A block takes all values of the row. -/
def NamedQuery.RowStorable (env : ParserEnv) (q : NamedQuery) (row : Nat) : Prop :=
  ∀ cells ∈ q.rows[row]?, ∀ i : Nat, ∀ decl ∈ q.decls[i]?, ∀ v ∈ cells[i]?, v.Storable env decl

namespace CacheBlock

structure Holds (bucket : OrderedMap String ValueObject) (columns : List (String × ValueObject)) :
    Prop where
  find_eq : ∀ c ∈ columns, bucket.find c.1 = some c.2
  mem : ∀ {name x}, bucket.find name = some x → (name, x) ∈ columns

theorem holds_empty : Holds .empty [] where
  find_eq _ h := nomatch h
  mem h := nomatch h

theorem Holds.store {columns : List (String × ValueObject)}
    {store : OrderedMap String ValueObject → String → OrderedMap String ValueObject}
    (h : Holds bucket columns) (hstore : Stores store x)
    (hsame : ∀ c ∈ columns, c.1 = name → c.2 = x) :
    Holds (store bucket name) (columns ++ [(name, x)]) := by
  have hself : (store bucket name).find name = some x :=
    hstore.find_self fun y hy => hsame _ (h.mem hy) rfl
  refine ⟨fun c hc => ?_, fun {key y} hfind => ?_⟩
  · rcases mem_append.mp hc with hc | hc
    · by_cases hname : c.1 = name
      · rw [hname, hself, hsame c hc hname]
      · rw [hstore.find_other hname, h.find_eq c hc]
    · obtain rfl := mem_singleton.mp hc
      exact hself
  · by_cases hname : key = name
    · subst hname
      rw [hself] at hfind
      cases hfind
      exact mem_append_right _ mem_cons_self
    · rw [hstore.find_other hname] at hfind
      exact mem_append_left _ (h.mem hfind)

end CacheBlock

open CacheBlock

/-! ## The calls for a statement -/

def SeriCall.puts (row : Nat) : Nat → List SqliteValue → List SeriCall
  | _, [] => []
  | column, v :: cells => .put row column v :: puts row (column + 1) cells

def SeriCall.script : Nat → List (List SqliteValue) → List SeriCall
  | n, [] => [.finish n n]
  | n, cells :: rows => (.addRow n :: puts n 0 cells) ++ script (n + 1) rows

namespace SharedBlockSerializerInfo
variable {s : SharedBlockSerializerInfo} {decls : List (Option String)} {calls : List SeriCall}

def Accepts (env : ParserEnv) (decls : List (Option String)) (s : SharedBlockSerializerInfo)
    (calls : List SeriCall) : Prop :=
  ∀ t ∈ trace (call env decls) s calls, t.ret = .ok

theorem accepts_cons : Accepts env decls s (c :: calls) ↔
    (call env decls s c).1 = .ok ∧ Accepts env decls (call env decls s c).2 calls :=
  forall_mem_cons

theorem accepts_append : Accepts env decls s (calls ++ calls') ↔
    Accepts env decls s calls ∧ Accepts env decls (final (call env decls) s calls) calls' := by
  unfold Accepts
  rw [trace_append, forall_mem_append]

theorem call_addRow (env : ParserEnv) (decls : List (Option String)) (s : SharedBlockSerializerInfo)
    (n : Nat) : call env decls s (.addRow n) =
      (.ok, { s with sharedBlock := s.sharedBlock.allocRow.2, raddedRows := n + 1 }) := by
  rw [call, addRow]
  rcases Nat.lt_or_ge s.sharedBlock.rows.length s.sharedBlock.maxCount with h | h
  · rw [CacheBlock.allocRow_room h]
  · rw [CacheBlock.allocRow_full h]

theorem hasException_call (s : SharedBlockSerializerInfo) (c : SeriCall)
    (h : s.sharedBlock.hasException ∨
      (∀ row column, c ≠ .putOther row column) ∧ (call env decls s c).1 ≠ .ok) :
    (call env decls s c).2.sharedBlock.hasException := by
  cases c with
  | addRow addedRows =>
    rw [call_addRow] at h ⊢
    dsimp only
    rw [CacheBlock.allocRow]
    split <;> exact h.resolve_right fun hrefused => hrefused.2 rfl
  | put row column v =>
    obtain ⟨store, heq⟩ := CacheBlock.put_eq env (decls.getD column none) v
    rw [call, heq] at h ⊢
    rcases s.sharedBlock.putWith_cases row column store with ⟨rows, hput⟩ | hput
    · rw [hput] at h ⊢
      exact h.resolve_right fun hrefused => hrefused.2 rfl
    · rw [hput]
      rfl
  | putOther row column => exact h.resolve_right fun hrefused => hrefused.1 row column rfl
  | reset startPos => exact h.resolve_right fun hrefused => hrefused.2 rfl
  | finish addedRows totalRows => exact h.resolve_right fun hrefused => hrefused.2 rfl

theorem ne_putOther_of_mem_puts (h : c ∈ SeriCall.puts row column cells) (r i : Nat) :
    c ≠ .putOther r i := by
  induction cells generalizing column with
  | nil => exact nomatch h
  | cons v cells ih =>
    rcases mem_cons.mp h with rfl | h
    · exact nofun
    · exact ih h

theorem ne_putOther_of_mem_script {rows : List (List SqliteValue)} (h : c ∈ SeriCall.script n rows)
    (r i : Nat) : c ≠ .putOther r i := by
  induction rows generalizing n with
  | nil =>
    obtain rfl := mem_singleton.mp h
    exact nofun
  | cons cells rows ih =>
    rcases mem_append.mp h with h | h
    · rcases mem_cons.mp h with rfl | h
      · exact nofun
      · exact ne_putOther_of_mem_puts h r i
    · exact ih h

theorem puts_full (env : ParserEnv) (decls : List (Option String)) (k i : Nat)
    (cells : List SqliteValue) (h : s.sharedBlock.isFull) :
    Accepts env decls s (SeriCall.puts k i cells) ∧
      final (call env decls) s (SeriCall.puts k i cells) = s := by
  induction cells generalizing i with
  | nil => exact ⟨fun _ ht => (nomatch ht), rfl⟩
  | cons v cells ih =>
    have hcall : call env decls s (.put k i v) = (.ok, s) := by
      obtain ⟨store, heq⟩ := CacheBlock.put_eq env (decls.getD i none) v
      rw [call, heq, CacheBlock.putWith_full h]
      rfl
    rw [SeriCall.puts, accepts_cons, final, hcall]
    exact ⟨⟨rfl, (ih (i + 1)).1⟩, (ih (i + 1)).2⟩

variable {rows : List (OrderedMap String ValueObject)} {bucket : OrderedMap String ValueObject}

theorem call_put (env : ParserEnv) (hfull : s.sharedBlock.isFull = false)
    (hrows : s.sharedBlock.rows = rows ++ [bucket]) (hname : s.sharedBlock.columns[i]? = some name)
    (hdecl : decls[i]? = some decl) (v : SqliteValue) :
    (v.Storable env decl ∧ ∃ store, Stores store (v.object decl) ∧
      call env decls s (.put rows.length i v) = (.ok, { s with
        sharedBlock := { s.sharedBlock with rows := rows ++ [store bucket name] } })) ∨
    (¬ v.Storable env decl ∧ (call env decls s (.put rows.length i v)).1 = .full) := by
  rw [call, getD_eq_getElem?_getD, hdecl, Option.getD_some]
  by_cases h : v.Storable env decl
  · obtain ⟨store, hstore, heq⟩ := CacheBlock.put_storable h
    refine .inl ⟨h, store, hstore, ?_⟩
    rw [heq, CacheBlock.putWith_last hfull hrows hname]
    rfl
  · refine .inr ⟨h, ?_⟩
    rw [CacheBlock.put_not_storable h, CacheBlock.putWith_none hfull]
    rfl

theorem puts_last (env : ParserEnv) {cells row : List SqliteValue}
    (hfull : s.sharedBlock.isFull = false)
    (hrows : s.sharedBlock.rows = rows ++ [bucket]) (hnames : s.sharedBlock.columns = q.names)
    (hrow : q.rows[rows.length]? = some row) (hcells : row.drop i = cells) :
    (Accepts env q.decls s (SeriCall.puts rows.length i cells) ↔
      ∀ j ≥ i, ∀ decl ∈ q.decls[j]?, ∀ v ∈ row[j]?, v.Storable env decl) ∧
    (Accepts env q.decls s (SeriCall.puts rows.length i cells) → ∃ bucket',
      final (call env q.decls) s (SeriCall.puts rows.length i cells) = { s with
        sharedBlock := { s.sharedBlock with rows := rows ++ [bucket'] } } ∧
      (q.SameNamed rows.length → Holds bucket ((q.columnsAt rows.length).take i) →
        Holds bucket' (q.columnsAt rows.length))) := by
  induction cells generalizing i s bucket with
  | nil =>
    have hle : row.length ≤ i := drop_eq_nil_iff.mp hcells
    refine ⟨⟨fun _ j hj decl _ v hv => ?_, fun _ _ ht => by cases ht⟩,
      fun _ => ⟨bucket, ?_, ?_⟩⟩
    · exact absurd (List.getElem?_eq_some_iff.mp hv).1 (by omega)
    · rw [← hrows]
      rfl
    · intro _ hbucket
      have hlen := congrArg List.length (q.names_columnsAt rows.length)
      rw [length_map, q.names_length, ← q.width row (mem_of_getElem? hrow)] at hlen
      rwa [take_of_length_le (by omega)] at hbucket
  | cons v cells ih =>
    obtain ⟨hv, hdrop⟩ := getElem?_of_drop hcells
    obtain ⟨name, decl, hname, hdecl, hcol⟩ := NamedQuery.column_of_cell hrow hv
    rw [SeriCall.puts, accepts_cons, final]
    rcases call_put env hfull hrows (hnames ▸ hname) hdecl v with
      ⟨hstorable, store, hstore, hcall⟩ | ⟨hnot, hcall⟩
    · rw [hcall]
      obtain ⟨hiff, hfinal⟩ := ih (s := { s with
        sharedBlock := { s.sharedBlock with rows := rows ++ [store bucket name] } })
        hfull rfl hnames hdrop
      refine ⟨⟨fun h j hj => ?_, fun h => ⟨rfl, hiff.mpr fun j hj => h j (by omega)⟩⟩, fun h => ?_⟩
      · rcases Nat.eq_or_lt_of_le hj with rfl | hlt
        · intro decl' hdecl' v' hv'
          cases hdecl.symm.trans hdecl'
          cases hv.symm.trans hv'
          exact hstorable
        · exact hiff.mp h.2 j hlt
      · obtain ⟨bucket', hend, hholds⟩ := hfinal h.2
        refine ⟨bucket', hend, fun hsame hbucket => hholds hsame ?_⟩
        rw [take_add_one, hcol, Option.toList_some]
        exact hbucket.store hstore fun c hc => hsame c (mem_of_mem_take hc) _
          (mem_of_getElem? hcol)
    · refine ⟨⟨fun h => ?_, fun h => ?_⟩, fun h => ?_⟩
      · cases hcall.symm.trans h.1
      · exact absurd (h i (Nat.le_refl i) decl hdecl v hv) hnot
      · cases hcall.symm.trans h.1

structure Stands (q : NamedQuery) (maxCount k : Nat) (s : SharedBlockSerializerInfo) : Prop where
  columns : s.sharedBlock.columns = q.names
  maxCount_eq : s.sharedBlock.maxCount = maxCount
  full : s.sharedBlock.isFull = decide (maxCount < k)
  hasException : s.sharedBlock.hasException = false
  length : s.sharedBlock.rows.length = min maxCount k
  holds : ∀ {j bucket}, s.sharedBlock.rows[j]? = some bucket → q.SameNamed j →
    Holds bucket (q.columnsAt j)
  isFull : s.isFull = false

theorem stands_create (q : NamedQuery) (maxCount : Nat) :
    Stands q maxCount 0 (.create (.create maxCount q.names) 0 0) where
  columns := rfl
  maxCount_eq := rfl
  full := (decide_eq_false (Nat.not_lt_zero _)).symm
  hasException := rfl
  length := (Nat.min_zero _).symm
  holds h := nomatch h
  isFull := rfl

theorem Stands.addRow (h : Stands q maxCount k s) (hk : k < maxCount) :
    call env q.decls s (.addRow k) = (.ok, { s with
      sharedBlock := { s.sharedBlock with rows := s.sharedBlock.rows ++ [.empty] }
      raddedRows := k + 1 }) := by
  have hlen := h.length
  rw [call_addRow, CacheBlock.allocRow_room]
  rw [h.maxCount_eq]
  omega

theorem Stands.push (h : Stands q maxCount k s) (hk : k < maxCount)
    (hbucket : q.SameNamed k → Holds bucket (q.columnsAt k)) (n : Nat) :
    Stands q maxCount (k + 1) { s with
      sharedBlock := { s.sharedBlock with rows := s.sharedBlock.rows ++ [bucket] }
      raddedRows := n } := by
  have hlen : s.sharedBlock.rows.length = k := h.length.trans (Nat.min_eq_right (Nat.le_of_lt hk))
  refine ⟨h.columns, h.maxCount_eq, ?_, h.hasException, ?_, fun {j b} hj hsame => ?_, h.isFull⟩
  · refine h.full.trans ?_
    rw [decide_eq_false (by omega), decide_eq_false (by omega)]
  · dsimp only
    rw [length_append, length_singleton]
    omega
  · rcases Nat.lt_or_ge j s.sharedBlock.rows.length with hlt | hge
    · exact h.holds ((getElem?_append_left hlt).symm.trans hj) hsame
    · have hlast := (getElem?_append_right hge).symm.trans hj
      have hlt := (List.getElem?_eq_some_iff.mp hlast).1
      rw [length_singleton] at hlt
      obtain rfl : j = k := by omega
      rw [hlen, Nat.sub_self] at hlast
      cases hlast
      exact hbucket hsame

theorem Stands.onRow (env : ParserEnv) (h : Stands q maxCount k s) (hrow : q.rows[k]? = some row) :
    (Accepts env q.decls s (.addRow k :: SeriCall.puts k 0 row) ↔
      (k < maxCount → q.RowStorable env k)) ∧
    (Accepts env q.decls s (.addRow k :: SeriCall.puts k 0 row) →
      Stands q maxCount (k + 1)
        (final (call env q.decls) s (.addRow k :: SeriCall.puts k 0 row))) := by
  rw [accepts_cons, final]
  rcases Nat.lt_or_ge k maxCount with hk | hk
  · have hlen : s.sharedBlock.rows.length = k := h.length.trans (Nat.min_eq_right (Nat.le_of_lt hk))
    have hfull : s.sharedBlock.isFull = false := h.full.trans (decide_eq_false (by omega))
    obtain ⟨hiff, hfinal⟩ := puts_last env (s := { s with
      sharedBlock := { s.sharedBlock with rows := s.sharedBlock.rows ++ [.empty] }
      raddedRows := k + 1 }) hfull rfl h.columns (hlen ▸ hrow) drop_zero
    rw [hlen] at hiff hfinal
    have hstorable : (∀ j ≥ 0, ∀ decl ∈ q.decls[j]?, ∀ v ∈ row[j]?, v.Storable env decl) ↔
        (k < maxCount → q.RowStorable env k) := by
      constructor
      · intro hall _ row' hrow' j
        cases hrow.symm.trans hrow'
        exact hall j (Nat.zero_le j)
      · exact fun hall j _ => hall hk row hrow j
    rw [h.addRow hk]
    refine ⟨(and_iff_right rfl).trans (hiff.trans hstorable), fun haccepts => ?_⟩
    obtain ⟨bucket, hend, hholds⟩ := hfinal haccepts.2
    rw [hend]
    exact h.push hk (fun hsame => hholds hsame holds_empty) (k + 1)
  · have hlen : s.sharedBlock.rows.length = maxCount := h.length.trans (Nat.min_eq_left hk)
    rw [call_addRow, CacheBlock.allocRow_full (by rw [hlen, h.maxCount_eq])]
    obtain ⟨haccepts, hend⟩ := puts_full env q.decls k 0 row (s := { s with
      sharedBlock := { s.sharedBlock with isFull := true }, raddedRows := k + 1 }) rfl
    refine ⟨iff_of_true ⟨rfl, haccepts⟩ fun hlt => absurd hlt (Nat.not_lt_of_le hk), fun _ => ?_⟩
    rw [hend]
    refine ⟨h.columns, h.maxCount_eq, ?_, h.hasException, ?_, h.holds, h.isFull⟩
    · exact (decide_eq_true (Nat.lt_succ_of_le hk)).symm
    · exact hlen.trans (Nat.min_eq_left (Nat.le_succ_of_le hk)).symm

theorem Stands.script (env : ParserEnv) {rows : List (List SqliteValue)} (h : Stands q maxCount k s)
    (hrows : q.rows.drop k = rows) (hk : k ≤ q.rows.length) :
    (Accepts env q.decls s (SeriCall.script k rows) ↔
      ∀ j ≥ k, j < min maxCount q.rows.length → q.RowStorable env j) ∧
    (Accepts env q.decls s (SeriCall.script k rows) →
      Stands q maxCount q.rows.length (final (call env q.decls) s (SeriCall.script k rows))) := by
  induction rows generalizing k s with
  | nil =>
    have hle : q.rows.length ≤ k := drop_eq_nil_iff.mp hrows
    obtain rfl : k = q.rows.length := Nat.le_antisymm hk hle
    refine ⟨⟨fun _ j hj hlt => absurd hlt (by omega), fun _ => ?_⟩, fun _ => ?_⟩
    · exact forall_mem_singleton.mpr rfl
    · exact ⟨h.columns, h.maxCount_eq, h.full, h.hasException, h.length, h.holds, h.isFull⟩
  | cons row rows ih =>
    obtain ⟨hrow, hdrop⟩ := getElem?_of_drop hrows
    have hlt : k < q.rows.length := (List.getElem?_eq_some_iff.mp hrow).1
    obtain ⟨hiff, hnext⟩ := h.onRow env hrow
    rw [SeriCall.script, accepts_append, final_append]
    refine ⟨⟨fun haccepts j hj => ?_, fun hall => ?_⟩, fun haccepts => ?_⟩
    · rcases Nat.eq_or_lt_of_le hj with rfl | hj
      · exact fun hmin => hiff.mp haccepts.1 (by omega)
      · exact (ih (hnext haccepts.1) hdrop hlt).1.mp haccepts.2 j hj
    · have hfirst := hiff.mpr fun hmax => hall k (Nat.le_refl k) (by omega)
      exact ⟨hfirst, (ih (hnext hfirst) hdrop hlt).1.mpr fun j hj => hall j (by omega)⟩
    · exact (ih (hnext haccepts.1) hdrop hlt).2 haccepts.2

end SharedBlockSerializerInfo

/-! ## The loop collects empty buckets -/

theorem CacheBlock.fillOneRow_zero (env : ParserEnv) (b : CacheBlock)
    (cells : List (Option String × SqliteValue)) (n : Nat) :
    b.fillOneRow env cells 0 n = (.success, b.allocRow.2) := by
  rw [fillOneRow]
  rcases Nat.lt_or_ge b.rows.length b.maxCount with h | h
  · rw [allocRow_room h]
    rfl
  · rw [allocRow_full h]
    rfl

namespace CacheBlockInfo
variable {info : CacheBlockInfo}

structure Blank (maxCount k : Nat) (info : CacheBlockInfo) : Prop where
  startPos : info.startPos = 0
  totalRows : info.totalRows = k
  columnNum : info.columnNum = 0
  isFull : info.isFull = false
  hasException : info.sharedBlock.hasException = false
  maxCount_eq : info.sharedBlock.maxCount = maxCount
  rows : info.sharedBlock.rows = List.replicate (min maxCount k) .empty

theorem Blank.onRow (env : ParserEnv) (h : Blank maxCount k info)
    (cells : List (Option String × SqliteValue)) :
    (info.onRow env false cells).1 = false ∧
      Blank maxCount (k + 1) (info.onRow env false cells).2 := by
  have hrow : info.onRow env false cells = (info.isFull, { info with
      sharedBlock := info.sharedBlock.allocRow.2, totalRows := info.totalRows + 1
      addedRows := info.addedRows + 1 }) := by
    have hstart : ¬ ((info.startPos : Int) ≥ info.totalRows + 1 ∨ false) := by
      rintro (hge | hfull)
      · rw [h.startPos, h.totalRows] at hge
        omega
      · exact nomatch hfull
    unfold CacheBlockInfo.onRow
    dsimp only
    rw [if_neg hstart]
    unfold fillRow
    dsimp only
    rw [h.columnNum, CacheBlock.fillOneRow_zero, if_neg fun hfull => nomatch hfull.1]
    simp only [filled]
  have hlen : info.sharedBlock.rows.length = min maxCount k := by
    rw [h.rows, length_replicate]
  obtain ⟨hex, hmax, hrows⟩ : info.sharedBlock.allocRow.2.hasException = false ∧
      info.sharedBlock.allocRow.2.maxCount = maxCount ∧
      info.sharedBlock.allocRow.2.rows = List.replicate (min maxCount (k + 1)) .empty := by
    rcases Nat.lt_or_ge k maxCount with hk | hk
    · rw [CacheBlock.allocRow_room (by rw [hlen, h.maxCount_eq]; omega)]
      refine ⟨h.hasException, h.maxCount_eq, ?_⟩
      dsimp only
      rw [h.rows, Nat.min_eq_right (Nat.le_of_lt hk), Nat.min_eq_right hk, replicate_succ']
    · rw [CacheBlock.allocRow_full (by rw [hlen, h.maxCount_eq]; omega)]
      refine ⟨h.hasException, h.maxCount_eq, ?_⟩
      dsimp only
      rw [h.rows, Nat.min_eq_left hk, Nat.min_eq_left (Nat.le_succ_of_le hk)]
  rw [hrow]
  exact ⟨h.isFull, h.startPos, by simp [h.totalRows], h.columnNum, h.isFull, hex, hmax, hrows⟩

theorem Blank.fillLoop (env : ParserEnv) (stmt : Stmt) (retryTime retryCount : Nat)
    (h : Blank maxCount stmt.next info) (hfaults : stmt.faults = [])
    (hnext : stmt.next ≤ stmt.query.rows.length) (hfuel : stmt.ahead < fuel) :
    ∃ info', fillLoop env retryTime fuel retryCount false info stmt = (.ok (), info') ∧
      Blank maxCount stmt.query.rows.length info' := by
  induction fuel generalizing retryCount info stmt with
  | zero => exact absurd hfuel (Nat.not_lt_zero _)
  | succ fuel ih =>
    rw [CacheBlockInfo.fillLoop, if_neg fun hfull => nomatch hfull.1]
    rcases stmt.step_cases with ⟨cells, faults, hcells, hstep, hle⟩ | ⟨faults, hend, hstep, _⟩ |
      ⟨err, faults, hlen, _⟩
    · rw [hstep]
      have hlt := (List.getElem?_eq_some_iff.mp hcells).1
      have hnil : faults = [] := by simpa [hfaults] using hle
      obtain ⟨hfull, hblank⟩ := h.onRow env (stmt.query.decls.zip cells)
      have hcur : Stmt.cells ⟨stmt.query, stmt.next + 1, some cells, faults⟩ =
        stmt.query.decls.zip cells := rfl
      dsimp only
      rw [hcur, hfull]
      refine ih _ 0 hblank hnil hlt ?_
      unfold Stmt.ahead at hfuel ⊢
      simp only [hfaults, hnil] at hfuel ⊢
      omega
    · rw [hstep]
      exact ⟨info, rfl, Nat.le_antisymm hnext hend ▸ h⟩
    · rw [hfaults] at hlen
      exact nomatch hlen

end CacheBlockInfo

/-! ## The rows that are returned -/

def NamedQuery.stmt (q : NamedQuery) : Stmt := ⟨q.toQuery, 0, none, []⟩

def NamedQuery.serializer (q : NamedQuery) (maxCount : Nat) : SharedBlockSerializerInfo :=
  .create (.create maxCount q.names) 0 0

open SharedBlockSerializerInfo

def FillPath.Documented (env : ParserEnv) (q : NamedQuery) (maxCount : Nat) : FillPath → Prop
  | plain => True
  | opt calls step =>
    Follows (call env q.decls) (· = .ok) (q.serializer maxCount) (SeriCall.script 0 q.rows) calls ∧
      (Accepts env q.decls (q.serializer maxCount) calls → step = .ok ())

/-- The result is the first `count` rows in order, each with the values of all columns under their
names. -/
def NamedQuery.ReturnsRows (q : NamedQuery) (count : Nat)
    (ret : Except RdbError (List (OrderedMap String ValueObject))) : Prop :=
  ∃ rows, ret = .ok rows ∧ rows.length = count ∧ ∀ {j bucket}, rows[j]? = some bucket →
    ∀ c ∈ q.columnsAt j, bucket.find c.1 = some c.2

theorem NamedQuery.exists_columnsAt (q : NamedQuery) (p : Nat) : ∃ c, c ∈ q.columnsAt p := by
  obtain ⟨name, hname⟩ := exists_mem_of_ne_nil q.names q.names_ne
  rw [← q.names_columnsAt p] at hname
  obtain ⟨c, hc, _⟩ := mem_map.mp hname
  exact ⟨c, hc⟩

theorem Stmt.getRows_plain (env : ParserEnv) (q : NamedQuery) (maxCount : Nat) :
    q.stmt.getRows env .plain q.names maxCount =
      .ok (List.replicate (min maxCount q.rows.length) .empty) := by
  have hstart : CacheBlockInfo.Blank maxCount 0
      ⟨.create maxCount q.names, 0, 0, 0, 0, true, 0, false⟩ :=
    ⟨rfl, rfl, rfl, rfl, rfl, rfl, by rw [Nat.min_zero]; rfl⟩
  obtain ⟨info, hfill, hblank⟩ := hstart.fillLoop env q.stmt 0 0 rfl (Nat.zero_le _)
    (Nat.lt_add_one q.stmt.ahead)
  have hinfo : q.stmt.fillCacheBlockInfo env .plain (.forRows maxCount q.names) 0 =
      (.ok (), info) := by
    unfold fillCacheBlockInfo CacheBlockInfo.fillSharedBlock CacheBlockInfo.forRows
    dsimp only
    rw [hfill]
    exact if_neg fun h => Bool.false_ne_true (hblank.isFull.symm.trans h.1)
  rw [getRows, if_neg q.names_ne, hinfo]
  dsimp only
  rw [hblank.hasException, hblank.rows]
  rfl

theorem Stmt.getRows_opt_eq (env : ParserEnv) (q : NamedQuery) (maxCount : Nat)
    (calls : List SeriCall) (step : Except RdbError Unit) :
    let s := final (call env q.decls) (q.serializer maxCount) calls
    q.stmt.getRows env (.opt calls step) q.names maxCount =
      match step with
      | .error err => .error err
      | .ok () =>
        if s.isFull ∧ (s.atotalRows : Int) > 0 ∧ s.raddedRows = 0 then .error .error
        else if s.sharedBlock.hasException then .error .error
        else .ok s.sharedBlock.rows := by
  intro s
  rw [getRows, if_neg q.names_ne]
  cases step with
  | error err => rfl
  | ok =>
    let info := CacheBlockInfo.forRows maxCount q.names
    let filled := (info.fillSharedBlockOpt env q.decls calls (.ok ())).2
    by_cases h : s.isFull ∧ (s.atotalRows : Int) > 0 ∧ s.raddedRows = 0
    · have hfill : q.stmt.fillCacheBlockInfo env (.opt calls (.ok ())) info 0 =
        (.error .error, filled) := if_pos h
      rw [hfill]
      exact (if_pos h).symm
    · have hfill : q.stmt.fillCacheBlockInfo env (.opt calls (.ok ())) info 0 =
        (.ok (), filled) := if_neg h
      rw [hfill]
      exact (if_neg h).symm

theorem Stmt.getRows_opt {step : Except RdbError Unit}
    (h : (FillPath.opt calls step).Documented env q maxCount) :
    ((∀ j < min maxCount q.rows.length, q.RowStorable env j) ∧
      ∃ rows, q.stmt.getRows env (.opt calls step) q.names maxCount = .ok rows ∧
        rows.length = min maxCount q.rows.length ∧
        ∀ {j bucket}, rows[j]? = some bucket → q.SameNamed j → Holds bucket (q.columnsAt j)) ∨
    (¬ (∀ j < min maxCount q.rows.length, q.RowStorable env j) ∧
      ∃ err, q.stmt.getRows env (.opt calls step) q.names maxCount = .error err) := by
  obtain ⟨hfollows, hstep⟩ := h
  obtain ⟨hiff, hfinal⟩ := (stands_create q maxCount).script env drop_zero
    (Nat.zero_le _)
  have hall : (∀ j < min maxCount q.rows.length, q.RowStorable env j) ↔
      Accepts env q.decls (q.serializer maxCount) (SeriCall.script 0 q.rows) :=
    ⟨fun h => hiff.mpr fun j _ => h j, fun h j => hiff.mp h j (Nat.zero_le j)⟩
  rw [getRows_opt_eq]
  rcases hfollows.completed_or_refused with ⟨rfl, haccepts⟩ | ⟨t, hscript, hrun, hrefused⟩
  · have hstands : Stands q maxCount q.rows.length
        (final (call env q.decls) (q.serializer maxCount) (SeriCall.script 0 q.rows)) :=
      hfinal haccepts
    refine .inl ⟨hall.mpr haccepts, _, ?_, hstands.length, hstands.holds⟩
    rw [hstep haccepts, hstands.isFull, hstands.hasException]
    rfl
  · refine .inr ⟨fun hstorable => hrefused (hall.mp hstorable t hscript), ?_⟩
    have hex : (final (call env q.decls) (q.serializer maxCount) calls).sharedBlock.hasException =
        true := by
      refine final_of_post (I := fun s => s.sharedBlock.hasException)
        (fun s c h => hasException_call s c (.inl h)) hrun ?_
      rw [post_of_mem_trace hrun]
      refine hasException_call _ _
        (.inr ⟨ne_putOther_of_mem_script (call_mem_of_mem_trace hscript), ?_⟩)
      rwa [← ret_of_mem_trace hrun]
    cases step with
    | error err => exact ⟨err, rfl⟩
    | ok =>
      refine ⟨.error, ?_⟩
      rw [hex]
      exact ite_id _

theorem NamedQuery.returnsRows_iff {rows : List (OrderedMap String ValueObject)} {count : Nat}
    (hlen : rows.length = count)
    (hholds : ∀ {j bucket}, rows[j]? = some bucket → q.SameNamed j → Holds bucket (q.columnsAt j)) :
    q.ReturnsRows count (.ok rows) ↔ ∀ j < count, q.SameNamed j := by
  constructor
  · rintro ⟨rows', hrows, _, hfind⟩ j hj c hc c' hc' hname
    cases hrows
    have hbucket := List.getElem?_eq_getElem (l := rows) (hlen ▸ hj)
    have hc := hfind hbucket c hc
    rw [hname, hfind hbucket c' hc'] at hc
    exact (Option.some.inj hc).symm
  · refine fun hsame => ⟨rows, rfl, hlen, fun {j bucket} hbucket => ?_⟩
    have hj : j < count := hlen ▸ (List.getElem?_eq_some_iff.mp hbucket).1
    exact (hholds hbucket (hsame j hj)).find_eq

theorem Stmt.executeForRows_error {path : FillPath} {noSpace : Bool} {err : RdbError}
    (h : q.stmt.getRows env path q.names maxCount = .error err) {count : Nat} (hcount : 0 < count) :
    ¬ q.ReturnsRows count (q.stmt.executeForRows env path q.names (.ok ()) noSpace maxCount) := by
  rintro ⟨rows, hrows, hlen, _⟩
  unfold executeForRows at hrows
  dsimp only at hrows
  rw [h] at hrows
  split at hrows
  next hok => exact nomatch hok
  · cases hrows
    exact absurd hlen (Nat.ne_of_lt hcount)
  · exact nomatch hrows

theorem executeForRows_returns_iff (env : ParserEnv) (q : NamedQuery) (maxCount : Nat)
    (path : FillPath) (noSpace : Bool) (hpath : path.Documented env q maxCount) :
    q.ReturnsRows (min maxCount q.rows.length)
        (q.stmt.executeForRows env path q.names (.ok ()) noSpace maxCount) ↔
      min maxCount q.rows.length = 0 ∨ path ≠ .plain ∧
        ∀ j < min maxCount q.rows.length, q.RowStorable env j ∧ q.SameNamed j := by
  cases path with
  | plain =>
    rw [Stmt.executeForRows, Stmt.getRows_plain]
    constructor
    · rintro ⟨rows, hrows, hlen, hfind⟩
      cases hrows
      refine .inl (Nat.eq_zero_of_not_pos fun hpos => ?_)
      obtain ⟨c, hc⟩ := q.exists_columnsAt 0
      exact nomatch hfind (getElem?_replicate_of_lt hpos) c hc
    · rintro (hzero | ⟨hne, _⟩)
      · refine ⟨_, rfl, length_replicate, fun {j bucket} hbucket => ?_⟩
        rw [hzero] at hbucket
        exact nomatch hbucket
      · exact absurd rfl hne
  | opt calls step =>
    rcases Stmt.getRows_opt hpath with ⟨hstorable, rows, hrows, hlen, hholds⟩ | ⟨hnot, err, herr⟩
    · rw [Stmt.executeForRows, hrows]
      refine (NamedQuery.returnsRows_iff hlen hholds).trans ⟨fun hsame => ?_, ?_⟩
      · exact .inr ⟨nofun, fun j hj => ⟨hstorable j hj, hsame j hj⟩⟩
      · rintro (hzero | ⟨_, hall⟩) j hj
        · exact absurd hj (by omega)
        · exact (hall j hj).2
    · have hpos : 0 < min maxCount q.rows.length := by
        refine Nat.pos_of_ne_zero fun hzero => hnot fun j hj => ?_
        exact absurd hj (by omega)
      refine ⟨fun h => absurd h (Stmt.executeForRows_error herr hpos), ?_⟩
      rintro (hzero | ⟨_, hall⟩)
      · exact absurd hzero (Nat.ne_of_gt hpos)
      · exact absurd (fun j hj => (hall j hj).1) hnot

def oneRow : NamedQuery where
  decls := [some "INTEGER"]
  rows := [[.integer 1]]
  rows_lt := by decide
  width := by decide
  size_lt := by decide
  names := ["id"]
  names_length := rfl
  names_ne := nofun

def oneRowPath : FillPath := .opt [.addRow 0, .put 0 0 (.integer 1), .finish 1 1] (.ok ())

theorem oneRowPath_documented (env : ParserEnv) (maxCount : Nat) :
    oneRowPath.Documented env oneRow (maxCount + 1) :=
  ⟨.next rfl (.next rfl (.next rfl (.nil _))), fun _ => rfl⟩

theorem executeForRows_returns_oneRow :
    oneRow.ReturnsRows 1 (oneRow.stmt.executeForRows ⟨Values.assetJson, 0, false⟩ oneRowPath
      oneRow.names (.ok ()) false 5) := by
  refine (executeForRows_returns_iff ⟨Values.assetJson, 0, false⟩ oneRow 5 oneRowPath false
    (oneRowPath_documented _ 4)).mpr (.inr ⟨nofun, fun j hj => ⟨?_, ?_⟩⟩)
  · obtain rfl : j = 0 := Nat.lt_one_iff.mp hj
    intro cells hcells i decl _ v hv
    cases hcells
    obtain rfl := mem_singleton.mp (mem_of_getElem? hv)
    trivial
  · obtain rfl : j = 0 := Nat.lt_one_iff.mp hj
    intro c hc c' hc' _
    obtain rfl := mem_singleton.mp hc
    obtain rfl := mem_singleton.mp hc'
    rfl

theorem not_returns_oneRow_plain :
    oneRow.stmt.executeForRows ⟨Values.assetJson, 0, false⟩ .plain oneRow.names (.ok ()) false 5 =
        .ok [.empty] ∧
      ¬ oneRow.ReturnsRows 1
        (oneRow.stmt.executeForRows ⟨Values.assetJson, 0, false⟩ .plain oneRow.names (.ok ()) false
          5) := by
  have hrows : oneRow.stmt.executeForRows ⟨Values.assetJson, 0, false⟩ .plain oneRow.names (.ok ())
      false 5 = .ok [.empty] := by
    rw [Stmt.executeForRows, Stmt.getRows_plain]
    rfl
  refine ⟨hrows, ?_⟩
  rw [hrows]
  rintro ⟨rows, hok, _, hfind⟩
  cases hok
  exact nomatch hfind (j := 0) rfl ("id", .integer 1) (mem_singleton.mpr rfl)

end RelationalStore
