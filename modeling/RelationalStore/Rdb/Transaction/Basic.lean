import Mathlib
import RelationalStore.Rdb.Errno
import RelationalStore.Theory.Run
import RelationalStore.Theory.Savepoint

/-! # The transaction stack of a store

The outermost transaction is one of the connection, an inner one a savepoint of its depth. -/

namespace RelationalStore

inductive TransType where
  | rollbackSelf
  | rollbackParent
  deriving DecidableEq

structure BaseTransaction where
  type : TransType
  childFailure : Bool
  id : Int
  deriving DecidableEq

inductive TransSql where
  | empty
  | txn (cmd : TxnCmd String)

def TransSql.text : TransSql → String
  | empty => ";"
  | txn .begin => "BEGIN EXCLUSIVE;"
  | txn .commit => "COMMIT;"
  | txn .rollback => "ROLLBACK;"
  | txn (.savepoint name) => "SAVEPOINT " ++ name ++ ";"
  | txn (.rollbackTo name) => "ROLLBACK TO " ++ name ++ ";"

namespace BaseTransaction

def ofSize (size : Nat) : BaseTransaction := ⟨.rollbackSelf, false, Int.bmod size (2 ^ 32)⟩

variable (t : BaseTransaction)

def transStr : String := "TRANS_STR" ++ toString t.id

def getTransactionStr : TransSql :=
  if t.id = 0 then .txn .begin else .txn (.savepoint t.transStr)

def getCommitStr : TransSql :=
  if t.id = 0 then .txn .commit else .empty

def getRollbackStr : TransSql :=
  if t.id = 0 then .txn .rollback else .txn (.rollbackTo t.transStr)

end BaseTransaction

inductive StmtOutcome where
  | done
  | noStatement (err : RdbError)
  | failed (err : RdbError)

structure Store (D : Type) where
  hasPool : Bool
  isReadOnly : Bool
  isVector : Bool
  stack : List BaseTransaction
  inTransaction : Bool
  db : Db String D

variable {D : Type}

def getStatement : StmtOutcome → Except RdbError Unit
  | .noStatement err => .error err
  | _ => .ok ()

variable (sql : TransSql)

def TransSql.run (db : Db String D) : Option (Db String D) :=
  match sql with
  | .empty => some db
  | .txn cmd => db.exec cmd

def TransSql.execute (db : Db String D) :
    StmtOutcome → Except RdbError (Db String D)
  | .failed err | .noStatement err => .error err
  | .done =>
    match sql.run db with
    | none => .error .sqliteError
    | some db => .ok db

namespace Store

variable (s : Store D)

def checkUsable : Except RdbError Unit :=
  if s.hasPool = false then .error .alreadyClosed
  else if s.isReadOnly ∨ s.isVector then .error .notSupport
  else .ok ()

def isInTransaction : Bool :=
  if s.isReadOnly ∨ s.isVector then false else s.hasPool && s.inTransaction

def beginTransaction (o : StmtOutcome) : Except RdbError Unit × Store D :=
  match s.checkUsable with
  | .error err => (.error err, s)
  | .ok () =>
    let transaction := BaseTransaction.ofSize s.stack.length
    match getStatement o with
    | .error err => (.error err, s)
    | .ok () =>
      match transaction.getTransactionStr.execute s.db o with
      | .error err => (.error err, s)
      | .ok db =>
        (.ok (), { s with db := db, inTransaction := true, stack := transaction :: s.stack })

def markParent (transaction : BaseTransaction) : List BaseTransaction → List BaseTransaction
  | [] => []
  | parent :: rest =>
    if transaction.type ≠ .rollbackSelf then { parent with childFailure := true } :: rest
    else parent :: rest

def rollBack (o : StmtOutcome) : Except RdbError Unit × Store D :=
  match s.checkUsable with
  | .error err => (.error err, s)
  | .ok () =>
    match s.stack with
    | [] => (.error .noTransactionInSession, s)
    | transaction :: rest =>
      let s := { s with stack := markParent transaction rest }
      match getStatement o with
      | .error _ => (.error .databaseBusy, s)
      | .ok () =>
        match transaction.getRollbackStr.execute s.db o with
        | .error err => (.error err, s)
        | .ok db =>
          let inTransaction := if s.stack = [] then false else s.inTransaction
          (.ok (), { s with db := db, inTransaction := inTransaction })

def commit (o : StmtOutcome) : Except RdbError Unit × Store D :=
  match s.checkUsable with
  | .error err => (.error err, s)
  | .ok () =>
    match s.stack with
    | [] => (.ok (), s)
    | transaction :: rest =>
      let sqlStr := transaction.getCommitStr
      if sqlStr.text.length ≤ 1 then (.ok (), { s with stack := rest })
      else
        match getStatement o with
        | .error _ => (.error .databaseBusy, s)
        | .ok () =>
          match sqlStr.execute s.db o with
          | .error err => (.error err, s)
          | .ok db =>
            let inTransaction := if rest = [] then false else s.inTransaction
            (.ok (), { s with db := db, inTransaction := inTransaction, stack := rest })

end Store

inductive TxnCall (D : Type) where
  | beginTransaction (o : StmtOutcome)
  | commit (o : StmtOutcome)
  | rollBack (o : StmtOutcome)
  | write (f : D → D)

def Store.call (s : Store D) : TxnCall D → Except RdbError Unit × Store D
  | .beginTransaction o => s.beginTransaction o
  | .commit o => s.commit o
  | .rollBack o => s.rollBack o
  | .write f => (.ok (), { s with db := s.db.write f })

def Store.opened (d : D) : Store D := ⟨true, false, false, [], false, ⟨d, none⟩⟩

/-! ### What a call does -/

theorem TransSql.execute_cases (db : Db String D) (o : StmtOutcome) :
    (∃ err, sql.execute db o = .error err ∧ (o = .done → sql.run db = none)) ∨
      ∃ db', o = .done ∧ sql.run db = some db' ∧ sql.execute db o = .ok db' := by
  cases o with
  | noStatement err | failed err => exact .inl ⟨err, rfl, nofun⟩
  | done =>
    cases hrun : sql.run db with
    | none => exact .inl ⟨.sqliteError, by rw [execute, hrun], fun _ => rfl⟩
    | some db' => exact .inr ⟨db', rfl, rfl, by rw [execute, hrun]⟩

def stackOf : Nat → List BaseTransaction
  | 0 => []
  | d + 1 => BaseTransaction.ofSize d :: stackOf d

@[simp] theorem length_stackOf : (stackOf d).length = d := by
  induction d with
  | zero => rfl
  | succ d ih => rw [stackOf, List.length_cons, ih]

theorem stackOf_eq_nil : stackOf d = [] ↔ d = 0 := by
  cases d with
  | zero => exact ⟨fun _ => rfl, fun _ => rfl⟩
  | succ d => exact ⟨nofun, nofun⟩

namespace Store
variable {s : Store D} {o : StmtOutcome}

theorem markParent_ofSize : markParent (.ofSize n) rest = rest := by
  cases rest <;> rfl

section
variable (hs : s.checkUsable = .ok ())
include hs

theorem beginTransaction_cases :
    (∃ err, s.beginTransaction o = (.error err, s)) ∨
      ∃ db, (BaseTransaction.ofSize s.stack.length).getTransactionStr.run s.db = some db ∧
        s.beginTransaction o = (.ok (), { s with
          db := db, inTransaction := true, stack := .ofSize s.stack.length :: s.stack }) := by
  unfold beginTransaction
  simp only [hs]
  rcases TransSql.execute_cases (BaseTransaction.ofSize s.stack.length).getTransactionStr s.db o
    with ⟨err, herr, _⟩ | ⟨db, rfl, hrun, hok⟩
  · refine .inl ?_
    rw [herr]
    cases o with
    | noStatement err' => exact ⟨err', rfl⟩
    | failed err' | done => exact ⟨err, rfl⟩
  · exact .inr ⟨db, hrun, by rw [hok]; rfl⟩

theorem rollBack_cases (hstack : s.stack = stackOf (d + 1)) :
    (∃ err, s.rollBack o = (.error err, { s with stack := stackOf d }) ∧
        (o = .done → (BaseTransaction.ofSize d).getRollbackStr.run s.db = none)) ∨
      ∃ db, o = .done ∧ (BaseTransaction.ofSize d).getRollbackStr.run s.db = some db ∧
        s.rollBack o = (.ok (), { s with
          db := db, inTransaction := if d = 0 then false else s.inTransaction
          stack := stackOf d }) := by
  unfold rollBack
  simp only [hs, hstack, stackOf, markParent_ofSize, stackOf_eq_nil]
  rcases TransSql.execute_cases (BaseTransaction.ofSize d).getRollbackStr s.db o
    with ⟨err, herr, hdone⟩ | ⟨db, rfl, hrun, hok⟩
  · refine .inl ?_
    rw [herr]
    cases o with
    | noStatement err' => exact ⟨.databaseBusy, rfl, nofun⟩
    | failed err' | done => exact ⟨err, rfl, hdone⟩
  · exact .inr ⟨db, rfl, hrun, by rw [hok]; rfl⟩

theorem rollBack_nil (hstack : s.stack = []) :
    s.rollBack o = (.error .noTransactionInSession, s) := by
  unfold rollBack
  simp only [hs, hstack]

theorem commit_inner (hstack : s.stack = stackOf (d + 1))
    (hid : (BaseTransaction.ofSize d).id ≠ 0) :
    s.commit o = (.ok (), { s with stack := stackOf d }) := by
  unfold commit
  simp only [hs, hstack, stackOf, BaseTransaction.getCommitStr, hid, if_false]
  exact if_pos (by decide)

theorem commit_outer (hstack : s.stack = stackOf (d + 1))
    (hid : (BaseTransaction.ofSize d).id = 0) :
    (∃ err, s.commit o = (.error err, s)) ∨
      ∃ db, s.db.exec .commit = some db ∧
        s.commit o = (.ok (), { s with
          db := db, inTransaction := if d = 0 then false else s.inTransaction
          stack := stackOf d }) := by
  have hlong : ¬ (TransSql.txn .commit).text.length ≤ 1 := by decide
  unfold commit
  simp only [hs, hstack, stackOf, BaseTransaction.getCommitStr, hid, if_true, stackOf_eq_nil, hlong,
    if_false]
  rcases TransSql.execute_cases (.txn .commit) s.db o with ⟨err, herr, _⟩ | ⟨db, rfl, hrun, hok⟩
  · refine .inl ?_
    rw [herr]
    cases o with
    | noStatement err' => exact ⟨.databaseBusy, rfl⟩
    | failed err' | done => exact ⟨err, rfl⟩
  · exact .inr ⟨db, hrun, by rw [hok]; rfl⟩

theorem commit_nil (hstack : s.stack = []) :
    s.commit o = (.ok (), s) := by
  unfold commit
  simp only [hs, hstack]

end

end Store

namespace BaseTransaction

theorem id_eq_zero (h : d < 2 ^ 32) : (ofSize d).id = 0 ↔ d = 0 := by
  simp only [ofSize, Int.bmod_def]
  omega

@[simp] theorem id_ofSize_zero : (ofSize 0).id = 0 := rfl

theorem transStr_ne (h : i < d) (hd : d < 2 ^ 32) :
    (ofSize d).transStr ≠ (ofSize i).transStr := by
  intro heq
  have hid : (ofSize d).id = (ofSize i).id :=
    Int.repr_injective (String.append_right_inj _ |>.mp heq)
  simp only [ofSize, Int.bmod_def] at hid
  omega

end BaseTransaction

end RelationalStore
