import RelationalStore.Theory.Run
import RelationalStore.Rdb.ResultSet.Cursor
import RelationalStore.Rdb.ResultSet.FillBlock

/-! # The step result set

It moves forward by stepping its statement; to move back it resets the statement first. -/

namespace RelationalStore

structure StepResultSet where
  stmt : Stmt
  rowPos : Int
  rowCount : Int
  isSupportCountRow : Bool
  isGotoNextRowReturnLastError : Bool
  isClosed : Bool
  lastErr : Option RdbError

namespace StepResultSet

def create (stmt : Stmt) (preCount isGotoNextRowReturnLastError : Bool) : StepResultSet :=
  let s : StepResultSet :=
    ⟨stmt, initPos, invalidCount, true, isGotoNextRowReturnLastError, false, none⟩
  if preCount then
    match stmt.count with
    | (.ok count, stmt) => { s with stmt := stmt, rowCount := count }
    | (.error .notSupport, stmt) => { s with stmt := stmt, isSupportCountRow := false }
    | (.error err, stmt) => { s with stmt := stmt, lastErr := some err }
  else { s with isSupportCountRow := false }

def reset (s : StepResultSet) : StepResultSet :=
  let s := { s with rowPos := initPos }
  if s.isClosed then s else { s with stmt := s.stmt.reset }

def stepRetrying : Nat → Stmt → StepCode × Stmt
  | 0, stmt => stmt.step
  | retries + 1, stmt =>
    match stmt.step with
    | (.error err, stmt) =>
      if err = .sqliteLocked ∨ err = .sqliteBusy then stepRetrying retries stmt
      else (.error err, stmt)
    | res => res

def STEP_QUERY_RETRY_MAX_TIMES : Nat := 50

variable (s : StepResultSet)

def counted : Prop := s.isSupportCountRow ∨ s.rowCount ≠ invalidCount

instance : Decidable s.counted := inferInstanceAs (Decidable (_ ∨ _))

def afterStep : StepCode × Stmt → Except RdbError Unit × StepResultSet
  | (.row, stmt) => (.ok (), { s with stmt := stmt, rowPos := s.rowPos + 1 })
  | (.done, stmt) =>
    if s.counted then
      (.error .rowOutRange, { s with
        stmt := stmt, rowPos := if s.rowCount ≠ 0 then s.rowCount else s.rowPos })
    else
      (.error .rowOutRange, { s with
        stmt := stmt, rowPos := s.rowPos + 1, rowCount := s.rowPos + 1 })
  | (.error err, stmt) =>
    if err = .sqliteLocked ∨ err = .sqliteBusy then
      (.error .stepResultQueryExceeded, { s with stmt := stmt })
    else (.error err, { { s with stmt := stmt }.reset with rowPos := s.rowCount })

def goToNextRow : Except RdbError Unit × StepResultSet :=
  match s.isGotoNextRowReturnLastError, s.lastErr with
  | true, some err => (.error err, s)
  | _, _ =>
    if s.isClosed then (.error .alreadyClosed, s)
    else s.afterStep (stepRetrying (STEP_QUERY_RETRY_MAX_TIMES + 1) s.stmt)

def goForward : Nat → StepResultSet → Except RdbError Unit × StepResultSet
  | 0, s => (.ok (), s)
  | distance + 1, s =>
    match s.goToNextRow with
    | (.ok (), s) => goForward distance s
    | (.error err, s) => (.error err, s)

def goToRow (position : Int) : Except RdbError Unit × StepResultSet :=
  if s.isClosed then (.error .alreadyClosed, s)
  else
    match s.lastErr with
    | some err => (.error err, s)
    | none =>
      if s.isSupportCountRow ∧ position ≥ s.rowCount then
        (.error .rowOutRange, { s with rowPos := if s.rowCount ≠ 0 then s.rowCount else s.rowPos })
      else if position < 0 then (.error .rowOutRange, s)
      else
        let s := if position < s.rowPos then s.reset else s
        goForward (position - s.rowPos).toNat s

def countRows : Nat → StepResultSet → Except RdbError Unit × StepResultSet
  | 0, s => (.error .error, s)
  | fuel + 1, s =>
    match s.goToNextRow with
    | (.ok (), s) => countRows fuel s
    | (.error .rowOutRange, s) => (.ok (), s)
    | (.error err, s) => (.error err, s)

def absGetRowCount : Except RdbError Int :=
  match s.lastErr with
  | some err => .error err
  | none =>
    if s.rowCount ≠ invalidCount then .ok s.rowCount
    else if s.isClosed then .error .alreadyClosed
    else .ok s.rowCount

def getRowCount : Except RdbError Int × StepResultSet :=
  if s.counted then (s.absGetRowCount, s)
  else
    match countRows (s.stmt.query.rows.length - s.stmt.next + 1) s with
    | (.error err, s) => (.error err, s)
    | (.ok (), s') =>
      let s' := { s' with rowCount := s'.rowPos }
      (.ok s'.rowCount, if s.rowPos ≠ initPos then (s'.goToRow s.rowPos).2 else s'.reset)

def goToLastRow : Except RdbError Unit × StepResultSet :=
  match s.getRowCount with
  | (.error err, s) => (.error err, s)
  | (.ok rowCnt, s) => if rowCnt = 0 then (.error .rowOutRange, s) else s.goToRow (rowCnt - 1)

def nav : Nav → Except RdbError Unit × StepResultSet
  | .goToRow position => s.goToRow position.toInt
  | .goTo offset => s.goToRow (toInt32 (s.rowPos + offset.toInt))
  | .goToFirstRow => s.goToRow 0
  | .goToLastRow => s.goToLastRow
  | .goToNextRow => s.goToNextRow
  | .goToPreviousRow => s.goToRow (s.rowPos - 1)

def isStarted : Bool := s.rowPos ≠ initPos

def isAtFirstRow : Bool := s.rowPos = 0

def isEnded : Except RdbError Bool × StepResultSet :=
  match s.getRowCount with
  | (.error err, s) => (.error err, s)
  | (.ok rowCnt, s) => (.ok (rowCnt = 0 ∨ s.rowPos = rowCnt), s)

def isAtLastRow : Except RdbError Bool × StepResultSet :=
  match s.getRowCount with
  | (.error err, s) => (.error err, s)
  | (.ok rowCnt, s) => (.ok (s.rowPos = rowCnt - 1), s)

def endedCounted : Bool :=
  match s.absGetRowCount with
  | .error _ => true
  | .ok rowCnt => rowCnt = 0 ∨ s.rowPos = rowCnt

def get (column : Int) : Except RdbError ValueObject :=
  if s.isClosed then .error .alreadyClosed
  else if s.rowPos = initPos ∨ (s.counted ∧ s.endedCounted) then .error .rowOutRange
  else s.stmt.getColumn column

end StepResultSet

inductive CursorAnswer where
  | done
  | bool (answer : Bool)
  | value (value : ValueObject)

def StepResultSet.call (s : StepResultSet) :
    CursorCall → Except RdbError CursorAnswer × StepResultSet
  | .nav c => ((s.nav c).1.map fun _ => .done, (s.nav c).2)
  | .get column => ((s.get column).map .value, s)
  | .isStarted => (.ok (.bool s.isStarted), s)
  | .isEnded => (s.isEnded.1.map .bool, s.isEnded.2)
  | .isAtFirstRow => (.ok (.bool s.isAtFirstRow), s)
  | .isAtLastRow => (s.isAtLastRow.1.map .bool, s.isAtLastRow.2)

namespace StepResultSet

/-! ### Stepping without faults -/

variable {s : StepResultSet}

structure Ready (s : StepResultSet) : Prop where
  opened : s.isClosed = false
  noErr : s.lastErr = none
  faults : s.stmt.faults = []

theorem stepRetrying_faultless {stmt : Stmt} (h : stmt.faults = []) :
    stepRetrying retries stmt = stmt.deliver := by
  have hstep : stmt.step = stmt.deliver := by simp only [Stmt.step, h]
  cases retries with
  | zero => exact hstep
  | succ retries =>
    rw [stepRetrying, hstep, Stmt.deliver]
    cases stmt.query.rows[stmt.next]? <;> rfl

theorem goToNextRow_eq (h : s.Ready) : s.goToNextRow = s.afterStep s.stmt.deliver := by
  unfold goToNextRow
  split
  next herr =>
    rw [h.noErr] at herr
    exact nomatch herr
  · rw [h.opened, stepRetrying_faultless h.faults]
    rfl

def ended (s : StepResultSet) : StepResultSet :=
  if s.counted then
    { s with stmt := s.stmt.reset, rowPos := if s.rowCount ≠ 0 then s.rowCount else s.rowPos }
  else { s with stmt := s.stmt.reset, rowPos := s.rowPos + 1, rowCount := s.rowPos + 1 }

theorem goToNextRow_row (h : s.Ready) (hrow : s.stmt.query.rows[s.stmt.next]? = some cells) :
    s.goToNextRow = (.ok (), { s with
      stmt := { s.stmt with next := s.stmt.next + 1, row := some cells }
      rowPos := s.rowPos + 1 }) := by
  simp only [goToNextRow_eq h, Stmt.deliver, hrow, afterStep]

theorem goToNextRow_done (h : s.Ready) (hend : s.stmt.query.rows.length ≤ s.stmt.next) :
    s.goToNextRow = (.error .rowOutRange, s.ended) := by
  have hrow : s.stmt.query.rows[s.stmt.next]? = none := List.getElem?_eq_none hend
  simp only [goToNextRow_eq h, Stmt.deliver, hrow, afterStep, ended]
  split <;> rfl

def advance (s : StepResultSet) : Nat → StepResultSet
  | 0 => s
  | k + 1 => { s with
      stmt := { s.stmt with
        next := s.stmt.next + (k + 1), row := s.stmt.query.rows[s.stmt.next + k]? }
      rowPos := s.rowPos + (k + 1 : Nat) }

theorem advance_succ (hrow : s.stmt.query.rows[s.stmt.next]? = some cells) :
    ({ s with
      stmt := { s.stmt with next := s.stmt.next + 1, row := some cells }
      rowPos := s.rowPos + 1 } : StepResultSet).advance k = s.advance (k + 1) := by
  cases k with
  | zero => simp only [advance, Nat.add_zero, hrow]; rfl
  | succ k =>
    simp only [advance, Nat.add_assoc, Nat.add_comm 1, Int.add_assoc]
    congr 2
    omega

@[simp] theorem advance_rowPos : (s.advance k).rowPos = s.rowPos + k := by
  cases k <;> simp [advance]

@[simp] theorem advance_next : (s.advance k).stmt.next = s.stmt.next + k := by cases k <;> rfl

@[simp] theorem advance_query : (s.advance k).stmt.query = s.stmt.query := by cases k <;> rfl

@[simp] theorem advance_rowCount : (s.advance k).rowCount = s.rowCount := by cases k <;> rfl

@[simp] theorem advance_isSupportCountRow :
    (s.advance k).isSupportCountRow = s.isSupportCountRow := by cases k <;> rfl

theorem Ready.advance (h : s.Ready) : (s.advance k).Ready := by
  cases k with
  | zero => exact h
  | succ k => exact ⟨h.opened, h.noErr, h.faults⟩

theorem goForward_ok (h : s.Ready) (hk : s.stmt.next + k ≤ s.stmt.query.rows.length) :
    goForward k s = (.ok (), s.advance k) := by
  induction k generalizing s with
  | zero => rfl
  | succ k ih =>
    have hrow := List.getElem?_eq_getElem (l := s.stmt.query.rows) (i := s.stmt.next) (by omega)
    rw [goForward, goToNextRow_row h hrow, ← advance_succ hrow]
    exact ih ⟨h.opened, h.noErr, h.faults⟩ (by dsimp only; omega)

theorem goForward_end (h : s.Ready) (hle : s.stmt.next ≤ s.stmt.query.rows.length)
    (hk : s.stmt.query.rows.length < s.stmt.next + k) :
    goForward k s =
      (.error .rowOutRange, (s.advance (s.stmt.query.rows.length - s.stmt.next)).ended) := by
  induction k generalizing s with
  | zero => omega
  | succ k ih =>
    rw [goForward]
    by_cases hend : s.stmt.query.rows.length ≤ s.stmt.next
    · rw [goToNextRow_done h hend, Nat.sub_eq_zero_of_le hend]
      rfl
    · have hrow := List.getElem?_eq_getElem (l := s.stmt.query.rows) (i := s.stmt.next) (by omega)
      have hdist : s.stmt.query.rows.length - s.stmt.next =
          s.stmt.query.rows.length - (s.stmt.next + 1) + 1 := by omega
      rw [goToNextRow_row h hrow, hdist, ← advance_succ hrow]
      exact ih ⟨h.opened, h.noErr, h.faults⟩ (by dsimp only; omega) (by dsimp only; omega)

theorem countRows_of_goForward (h : goForward k s = (.error .rowOutRange, s')) :
    countRows k s = (.ok (), s') := by
  induction k generalizing s with
  | zero => cases h
  | succ k ih =>
    rw [goForward] at h
    rw [countRows]
    rcases hnext : s.goToNextRow with ⟨err | ⟨⟩, s₁⟩ <;> rw [hnext] at h
    · cases h
      rfl
    · exact ih h

theorem countRows_end (h : s.Ready) (hk : s.stmt.query.rows.length - s.stmt.next < fuel)
    (hle : s.stmt.next ≤ s.stmt.query.rows.length) :
    countRows fuel s = (.ok (), (s.advance (s.stmt.query.rows.length - s.stmt.next)).ended) :=
  countRows_of_goForward (goForward_end h hle (by omega))

end StepResultSet

end RelationalStore
