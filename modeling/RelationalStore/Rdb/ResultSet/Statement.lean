import RelationalStore.AppDataFwk.SharedBlock.Basic
import RelationalStore.Rdb.Errno

/-! # Queries and statements

A statement delivers the rows of a query one after the other and then starts again. -/

namespace RelationalStore

inductive SqliteValue where
  | null
  | integer (value : Int64)
  | float (bits : UInt64)
  | text (bytes : List UInt8)
  | blob (bytes : List UInt8)
  deriving DecidableEq, Repr

def SqliteValue.size : SqliteValue → Nat
  | text bytes | blob bytes => bytes.length
  | _ => 0

abbrev ValueObject := SharedBlock.CellValue

def strToUpper (s : String) : String := s.map Char.toUpper

def truncateAfterFirstParen (str : String) : String :=
  String.ofList (str.toList.takeWhile (· ≠ '('))

def blobType (decl : String) : CellUnitType :=
  let type := truncateAfterFirstParen (strToUpper decl)
  if type = "ASSET" then .asset
  else if type = "ASSETS" then .assets
  else if type = "FLOATVECTOR" then .floats
  else if type = "UNLIMITED INT" then .bigint
  else .blob

def SqliteValue.object (decl : Option String) : SqliteValue → ValueObject
  | null => .null
  | integer value => .integer value
  | float bits => .float bits
  | text bytes => .string bytes
  | blob bytes => .bytes (decl.elim .blob blobType) bytes

structure Query where
  decls : List (Option String)
  rows : List (List SqliteValue)
  rows_lt : rows.length < 2 ^ 31
  width : ∀ row ∈ rows, row.length = decls.length
  size_lt : ∀ row ∈ rows, ∀ v ∈ row, v.size + 1 < 2 ^ 31

def Query.value (q : Query) (row column : Nat) : Option ValueObject :=
  match q.rows[row]?, q.decls[column]? with
  | some cells, some decl => cells[column]?.map (·.object decl)
  | _, _ => none

theorem Query.cell (q : Query) (hp : p < q.rows.length) (hi : i < q.decls.length) :
    ∃ decl cells v, q.decls[i]? = some decl ∧ q.rows[p]? = some cells ∧ cells[i]? = some v ∧
      q.value p i = some (v.object decl) := by
  have hcells : q.rows[p]? = some q.rows[p] := List.getElem?_eq_getElem hp
  have hdecl : q.decls[i]? = some q.decls[i] := List.getElem?_eq_getElem hi
  have hlen : i < q.rows[p].length := by
    rw [q.width _ (List.getElem_mem hp)]
    exact hi
  have hv : q.rows[p][i]? = some q.rows[p][i] := List.getElem?_eq_getElem hlen
  refine ⟨_, _, _, hdecl, hcells, hv, ?_⟩
  rw [Query.value, hcells, hdecl]
  simp only [hv, Option.map_some]

inductive StepCode where
  | row
  | done
  | error (err : RdbError)

structure Stmt where
  query : Query
  next : Nat
  row : Option (List SqliteValue)
  faults : List (Option RdbError)

namespace Stmt

def deliver (s : Stmt) : StepCode × Stmt :=
  match s.query.rows[s.next]? with
  | some row => (.row, { s with next := s.next + 1, row := some row })
  | none => (.done, { s with next := 0, row := none })

def step (s : Stmt) : StepCode × Stmt :=
  match s.faults with
  | [] => s.deliver
  | none :: faults => { s with faults := faults }.deliver
  | some err :: faults =>
    if err = .sqliteBusy ∨ err = .sqliteLocked then
      (.error err, { s with row := none, faults := faults })
    else (.error err, { s with next := 0, row := none, faults := faults })

def reset (s : Stmt) : Stmt := { s with next := 0, row := none }

def columnOf (decl : Option String) (v : SqliteValue) : Except RdbError ValueObject :=
  match v, decl with
  | .blob _, none => .error .error
  | .blob [], some _ => .ok .null
  | v, decl => .ok (v.object decl)

def getColumn (s : Stmt) (index : Int) : Except RdbError ValueObject :=
  if index ≥ s.query.decls.length ∨ index < 0 then .error .columnOutRange
  else
    columnOf (s.query.decls.getD index.toNat none)
      ((s.row.bind (·[index.toNat]?)).getD .null)

end Stmt

/-- The values that `GetColumn` returns as they are: blobs need a declared type and a byte. -/
def SqliteValue.Readable (decl : Option String) : SqliteValue → Prop
  | blob bytes => decl ≠ none ∧ bytes ≠ []
  | _ => True

theorem Stmt.columnOf_eq_iff : columnOf decl v = .ok (v.object decl) ↔ v.Readable decl := by
  cases v with
  | blob bytes =>
    cases decl <;> cases bytes <;> simp [columnOf, SqliteValue.object, SqliteValue.Readable]
  | _ => simp [columnOf, SqliteValue.Readable]

def Query.RowReadable (q : Query) (row : Nat) : Prop :=
  ∀ cells ∈ q.rows[row]?, ∀ i : Nat, ∀ decl ∈ q.decls[i]?, ∀ v ∈ cells[i]?, v.Readable decl

/-- The current row of the statement is row `p` of its query. -/
def Stmt.OnRow (s : Stmt) (p : Nat) : Prop := s.row = s.query.rows[p]?

theorem Stmt.getColumn_eq {s : Stmt} (hrow : s.OnRow p) (hp : p < s.query.rows.length)
    (hi : i < s.query.decls.length) : ∃ decl v, s.query.decls[i]? = some decl ∧
      (∃ cells, s.query.rows[p]? = some cells ∧ cells[i]? = some v) ∧
      s.getColumn i = columnOf decl v ∧ s.query.value p i = some (v.object decl) := by
  obtain ⟨decl, cells, v, hdecl, hcells, hv, hvalue⟩ := s.query.cell hp hi
  refine ⟨decl, v, hdecl, ⟨cells, hcells, hv⟩, ?_, hvalue⟩
  rw [getColumn, if_neg (by omega), hrow, hcells, Int.toNat_natCast, List.getD_eq_getElem?_getD,
    hdecl, Option.bind_some, hv]
  rfl

theorem Stmt.getColumn_iff {s : Stmt} (hrow : s.OnRow p) (hp : p < s.query.rows.length) :
    (∀ i < s.query.decls.length, ∃ x, s.query.value p i = some x ∧ s.getColumn i = .ok x) ↔
      s.query.RowReadable p := by
  constructor
  · intro h cells hcells i decl hdecl v hv
    have hi : i < s.query.decls.length := (List.getElem?_eq_some_iff.mp hdecl).1
    obtain ⟨decl', v', hdecl', ⟨cells', hcells', hv'⟩, hget, hvalue⟩ := s.getColumn_eq hrow hp hi
    obtain ⟨x, hx, hgetx⟩ := h i hi
    rw [Option.mem_def] at hcells hdecl hv
    rw [hdecl'] at hdecl
    rw [hcells'] at hcells
    cases hdecl
    cases hcells
    rw [hv'] at hv
    cases hv
    rw [hvalue] at hx
    cases hx
    exact columnOf_eq_iff.mp (hget.symm.trans hgetx)
  · intro h i hi
    obtain ⟨decl, v, hdecl, ⟨cells, hcells, hv⟩, hget, hvalue⟩ := s.getColumn_eq hrow hp hi
    exact ⟨_, hvalue, hget.trans (columnOf_eq_iff.mpr (h cells hcells i decl hdecl v hv))⟩

end RelationalStore
