import RelationalStore.Rdb.Errno
import RelationalStore.Theory.Run

/-! # The statement of the vector engine

`Bind` makes a step in advance to learn the columns of a SELECT, and the next `Step` is passed over.
-/

namespace RelationalStore

variable {A V : Type}

structure EngineError where
  code : RdbError
  ne_noMoreRows : code ≠ .noMoreRows
  ne_columnOutRange : code ≠ .columnOutRange

structure EngineStmt (A : Type) where
  sql : String
  args : List A
  pos : Nat
  deriving DecidableEq

namespace EngineStmt

variable (rows : String → List A → List (List V))

def step (h : EngineStmt A) (fail : Option EngineError) :
    Except RdbError Unit × EngineStmt A :=
  match fail with
  | some e => (.error e.code, h)
  | none =>
    if h.pos < (rows h.sql h.args).length then (.ok (), { h with pos := h.pos + 1 })
    else (.error .noMoreRows, { h with pos := (rows h.sql h.args).length + 1 })

theorem step_cases (h : EngineStmt A) (fail : Option EngineError) :
    (∃ e, fail = some e ∧ h.step rows fail = (.error e.code, h)) ∨
    (h.pos < (rows h.sql h.args).length ∧
      h.step rows fail = (.ok (), { h with pos := h.pos + 1 })) ∨
    ((rows h.sql h.args).length ≤ h.pos ∧ h.step rows fail =
      (.error .noMoreRows, { h with pos := (rows h.sql h.args).length + 1 })) := by
  cases fail with
  | some e => exact .inl ⟨e, rfl, rfl⟩
  | none =>
    rcases Nat.lt_or_ge h.pos (rows h.sql h.args).length with hlt | hle
    · exact .inr (.inl ⟨hlt, if_pos hlt⟩)
    · exact .inr (.inr ⟨hle, if_neg (Nat.not_lt.mpr hle)⟩)

def reset (h : EngineStmt A) (fail : Option EngineError) : EngineStmt A :=
  if fail.isSome then h else { h with pos := 0 }

def bind (h : EngineStmt A) (args : List A) : EngineStmt A :=
  { h with args := args ++ h.args.drop args.length }

def row (h : EngineStmt A) : Option (List V) :=
  if h.pos = 0 then none else (rows h.sql h.args)[h.pos - 1]?

end EngineStmt

/-! ## Texts -/

def PRAGMA_VERSION : String := "PRAGMA user_version"

def tryEatSymbol (symbol : Char) (text : List Char) : Option (List Char) :=
  match text.dropWhile (· = ' ') with
  | [] => none
  | c :: rest => if c = symbol then some rest else none

variable (text : List Char)

def tryEatNumber : Option (List Char) :=
  let digits := text.dropWhile (· = ' ')
  if digits.takeWhile Char.isDigit = [] then none else some (digits.dropWhile Char.isDigit)

def endWithNull : Bool := text.all (· = ' ')

def setsVersion : Bool :=
  match tryEatSymbol '=' text with
  | none => false
  | some text =>
    match tryEatNumber text with
    | none => false
    | some text => endWithNull text || (tryEatSymbol ';' text).isSome

def isVersionPragma (sql : String) : Bool := PRAGMA_VERSION.toList.isPrefixOf sql.toList

def isSelect (sql : String) : Bool :=
  let text := sql.toList.dropWhile fun c => c.toNat ≤ 32 || c.toNat = 127
  3 < text.length && (text.take 3).map Char.toUpper = "SEL".toList

theorem isSelect_of_isVersionPragma (h : isVersionPragma sql) : isSelect sql = false := by
  obtain ⟨rest, hrest⟩ := List.isPrefixOf_iff_prefix.mp h
  rw [isSelect, ← hrest]
  simp [PRAGMA_VERSION]

/-! ## The statement -/

structure RdStatement (A : Type) where
  readOnly : Bool
  bound : Bool
  isStepInPrepare : Bool
  stepCnt : Nat
  sql : String
  stmtHandle : Option (EngineStmt A)
  columnCount : Nat
  deriving DecidableEq

structure PrepareAnswers where
  hasDb : Bool
  setVersion : Option RdbError
  rdSqlPrepare : Option EngineError
  rdSqlFinalize : Option EngineError
  rdSqlColCnt : Nat

structure BindAnswers where
  rdSqlReset : Option EngineError
  rdSqlBind : Option (Nat × EngineError)
  rdSqlStep : Option EngineError
  rdSqlColCnt : Nat
  resetAfterStep : Option EngineError

def BindAnswers.taken (o : BindAnswers) (args : List A) : List A :=
  match o.rdSqlBind with
  | some (index, _) => args.take index
  | none => args

def engineAnswer (fail : Option EngineError) : Except RdbError Unit :=
  match fail with
  | some e => .error e.code
  | none => .ok ()

inductive RdValue (V : Type) where
  | version (value : Int)
  | column (value : Option V)

def columnOf (row : Option (List V)) (index : Int) : Option V :=
  row.bind fun values => values[index.toNat]?

namespace RdStatement

def new : RdStatement A := ⟨false, false, false, 0, "", none, 0⟩

variable (s : RdStatement A)

def finalize (fail : Option EngineError) : RdStatement A :=
  match s.stmtHandle, fail with
  | some _, none => { s with stmtHandle := none, sql := "", columnCount := 0, readOnly := false }
  | _, _ => s

def prepare (sql : String) (o : PrepareAnswers) :
    Except RdbError Unit × RdStatement A :=
  if o.hasDb = false then (.error .error, s)
  else if isVersionPragma sql then
    if sql.length = PRAGMA_VERSION.length then (.ok (), { s with sql, readOnly := true })
    else if setsVersion (sql.toList.drop PRAGMA_VERSION.length) = false then
      (.error .incorrectSql, s)
    else
      -- the text is taken even if the version cannot be set
      match o.setVersion with
      | some err => (.error err, { s with sql, readOnly := false })
      | none => (.ok (), { s with sql, readOnly := false })
  else if s.sql = sql then (.ok (), s)
  else
    match o.rdSqlPrepare with
    | some e => (.error e.code, s)
    | none =>
      (.ok (), { s.finalize o.rdSqlFinalize with
        sql
        stmtHandle := some ⟨sql, [], 0⟩
        columnCount := o.rdSqlColCnt
        readOnly := isSelect sql })

def reset (s : RdStatement A) (fail : Option EngineError) : Except RdbError Unit × RdStatement A :=
  match s.stmtHandle with
  | none => (.ok (), s)
  | some h =>
    (engineAnswer fail,
      { s with stepCnt := 0, isStepInPrepare := false, stmtHandle := some (h.reset fail) })

def isValid (index : Int) : Except RdbError Unit :=
  if s.stmtHandle = none then .error .alreadyClosed
  else if index < 0 ∨ s.columnCount ≤ index then .error .columnOutRange
  else .ok ()

section
variable (rows : String → List A → List (List V))

def step (s : RdStatement A) (fail : Option EngineError) :
    Except RdbError Unit × List String × RdStatement A :=
  match s.stmtHandle with
  | none => (.ok (), [], s)
  | some h =>
    if s.isStepInPrepare ∧ s.stepCnt = 1 then
      (.ok (), [], { s with stepCnt := s.stepCnt + 1 })
    else
      ((h.step rows fail).1, [h.sql],
        { s with stmtHandle := some (h.step rows fail).2, stepCnt := s.stepCnt + 1 })

variable (s : RdStatement A)

def preGetColCount (o : BindAnswers) :
    Except RdbError Unit × List String × RdStatement A :=
  if s.isStepInPrepare = false ∧ s.readOnly then
    match step rows { s with isStepInPrepare := true } o.rdSqlStep with
    | (.ok (), ran, s) => (.ok (), ran, { s with columnCount := o.rdSqlColCnt })
    | (.error err, ran, s) =>
      if err = .noMoreRows then
        (.ok (), ran, (reset { s with columnCount := o.rdSqlColCnt } o.resetAfterStep).2)
      else (.error err, ran, { s with isStepInPrepare := false })
  else (.ok (), [], s)

def bindArgs (args : List A) (o : BindAnswers) : RdStatement A :=
  let reset (h : EngineStmt A) := if s.bound then h.reset o.rdSqlReset else h
  { s with bound := true, stmtHandle := s.stmtHandle.map fun h => (reset h).bind (o.taken args) }

def bind (args : List A) (o : BindAnswers) :
    Except RdbError Unit × List String × RdStatement A :=
  match o.rdSqlBind with
  | some (index, e) =>
    if index < args.length then (.error e.code, [], s.bindArgs args o)
    else (s.bindArgs args o).preGetColCount rows o
  | none => (s.bindArgs args o).preGetColCount rows o

def bindAndStep (args : List A) (o : BindAnswers) (fail : Option EngineError) :
    Except RdbError Unit × List String × RdStatement A :=
  match s.bind rows args o with
  | (.error err, ran, s) => (.error err, ran, s)
  | (.ok (), ran, s) =>
    ((s.step rows fail).1, ran ++ (s.step rows fail).2.1, (s.step rows fail).2.2)

def execute (args : List A) (o : BindAnswers) (fail : Option EngineError) :
    Except RdbError Unit × List String × RdStatement A :=
  -- the text that sets a version is longer, so this is never so
  if s.readOnly = false ∧ s.sql = PRAGMA_VERSION then (.ok (), [], s)
  else s.bindAndStep rows args o fail

def row (s : RdStatement A) : Option (List V) := s.stmtHandle.bind (·.row rows)

def getColumn (index : Int) : Except RdbError (Option V) :=
  (s.isValid index).map fun _ => columnOf (s.row rows) index

def executeForValue (args : List A) (o : BindAnswers)
    (fail : Option EngineError) (getVersion : Except RdbError Int) :
    Except RdbError (RdValue V) × List String × RdStatement A :=
  if s.readOnly ∧ s.sql = PRAGMA_VERSION then (getVersion.map .version, [], s)
  else
    match s.bindAndStep rows args o fail with
    | (.ok (), ran, s) => ((s.getColumn rows 0).map .column, ran, s)
    | (.error err, ran, s) =>
      if err = .noMoreRows then ((s.getColumn rows 0).map .column, ran, s)
      else (.error err, ran, s)

end

end RdStatement

/-! ## Runs -/

inductive RdCall (A : Type) where
  | prepare (sql : String) (o : PrepareAnswers)
  | bind (args : List A) (o : BindAnswers)
  | step (fail : Option EngineError)
  | reset (fail : Option EngineError)
  | execute (args : List A) (o : BindAnswers) (fail : Option EngineError)
  | executeForValue (args : List A) (o : BindAnswers) (fail : Option EngineError)
      (getVersion : Except RdbError Int)

structure RdAnswer where
  ret : Except RdbError Unit
  ran : List String

def RdStatement.call (rows : String → List A → List (List V)) (s : RdStatement A) :
    RdCall A → RdAnswer × RdStatement A
  | .prepare sql o => (⟨(s.prepare sql o).1, []⟩, (s.prepare sql o).2)
  | .bind args o =>
    let res := s.bind rows args o
    (⟨res.1, res.2.1⟩, res.2.2)
  | .step fail =>
    let res := s.step rows fail
    (⟨res.1, res.2.1⟩, res.2.2)
  | .reset fail => (⟨(s.reset fail).1, []⟩, (s.reset fail).2)
  | .execute args o fail =>
    let res := s.execute rows args o fail
    (⟨res.1, res.2.1⟩, res.2.2)
  | .executeForValue args o fail getVersion =>
    let res := s.executeForValue rows args o fail getVersion
    (⟨res.1.map fun _ => (), res.2.1⟩, res.2.2)

structure RdAccount (A : Type) where
  accepted : Option String
  args : List A
  steps : Option Nat
  columns : List Nat

def counted (steps : Option Nat) : Except RdbError Unit → Option Nat
  | .ok () => steps
  | .error err => if err = .noMoreRows ∨ err = .columnOutRange then steps else none

namespace RdAccount

def new : RdAccount A := ⟨none, [], none, []⟩

def bind (g : RdAccount A) (args : List A) (o : BindAnswers) (steps : Option Nat) : RdAccount A :=
  { g with
    args := o.taken args ++ g.args.drop (o.taken args).length
    steps
    columns := o.rdSqlColCnt :: g.columns }

def next (g : RdAccount A) (ret : Except RdbError Unit) : RdCall A → RdAccount A
  | .prepare sql o =>
    match ret with
    | .ok () => if g.accepted = some sql then g else ⟨some sql, [], none, [o.rdSqlColCnt]⟩
    | .error _ => g
  | .bind args o => g.bind args o (counted (some 0) ret)
  | .step _ => { g with steps := counted (g.steps.map (· + 1)) ret }
  | .reset _ => { g with steps := counted (some 0) ret }
  | .execute args o _ => g.bind args o (counted (some 1) ret)
  | .executeForValue args o _ _ => g.bind args o (counted (some 1) ret)

end RdAccount

def RdStatement.accountedCall (rows : String → List A → List (List V))
    (s : RdStatement A × RdAccount A) (c : RdCall A) : RdAnswer × RdStatement A × RdAccount A :=
  ((s.1.call rows c).1, (s.1.call rows c).2, s.2.next (s.1.call rows c).1.ret c)

def columnInRange (count : Nat) (row : List V) (index : Int) : Except RdbError (Option V) :=
  if index < 0 ∨ count ≤ index then .error .columnOutRange else .ok (columnOf (some row) index)

/-- The `k + 1`-st step, in the state that it leads to: an error of the engine, a row if there are
as many, or the end of the rows. The columns of the row are in the range of a count of the
engine. -/
def RdStatement.Steps (rows : List (List V)) (columns : List Nat)
    (column : Int → Except RdbError (Option V)) (k : Nat) (fail : Option EngineError)
    (ret : Except RdbError Unit) : Prop :=
  (∃ e, fail = some e ∧ ret = .error e.code) ∨
    (ret = .ok () ∧ ∃ h : k < rows.length, ∃ count ∈ columns,
      ∀ index, column index = columnInRange count rows[k] index) ∨
    (ret = .error .noMoreRows ∧ rows.length ≤ k)

/-- A call runs only the accepted text, and a `Step` of a SELECT comes to the row that follows those
already stepped to. -/
structure RdStatement.Right (rows : String → List A → List (List V))
    (t : Transition (RdStatement A × RdAccount A) (RdCall A) RdAnswer) : Prop where
  runs : ∀ sql ∈ t.ret.ran, t.pre.2.accepted = some sql
  steps : ∀ fail sql k, t.call = .step fail → t.pre.2.accepted = some sql → isSelect sql →
    t.pre.2.steps = some k →
    RdStatement.Steps (rows sql t.pre.2.args) t.pre.2.columns (t.post.1.getColumn rows) k fail
      t.ret.ret

namespace RdStatement

def Ready (s : RdStatement A) (o : BindAnswers) : Prop :=
  ∀ h, s.stmtHandle = some h → s.readOnly →
    (h.pos = 0 ∨ (s.bound ∧ o.rdSqlReset = none)) ∧
      if s.isStepInPrepare then 2 ≤ s.stepCnt else s.stepCnt ≤ 1

/-- A version is read or set only while the engine has no statement, and a SELECT is bound only when
it is ready. -/
def Careful (s : RdStatement A) : RdCall A → Prop
  | .prepare sql _ => isVersionPragma sql → s.stmtHandle = none
  | .bind _ o => s.Ready o
  | .step _ => True
  | .reset _ => True
  | .execute _ o _ => s.Ready o
  | .executeForValue _ o _ _ => s.Ready o

end RdStatement

end RelationalStore
