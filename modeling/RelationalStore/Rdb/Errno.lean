/-! The error codes of `rdb_errno.h` that the modelled functions return. `E_OK` is the `ok` of an
`Except`; codes that only pass through from a statement are `other`. -/

namespace RelationalStore

inductive RdbError where
  | error
  | notSupport
  | invalidArgs
  | invalidArgsNew
  | emptyTableName
  | emptyValuesBucket
  | invalidConflictFlag
  | incorrectSql
  | columnOutRange
  | rowOutRange
  | noTransactionInSession
  | noMoreRows
  | stepResultQueryExceeded
  | alreadyClosed
  | invalidObjectType
  | databaseBusy
  | attachedDatabaseExist
  | sqliteError
  | sqlitePerm
  | sqliteAbort
  | sqliteBusy
  | sqliteLocked
  | sqliteNomem
  | sqliteReadonly
  | sqliteInterrupt
  | sqliteIoerr
  | sqliteCorrupt
  | sqliteFull
  | sqliteCantopen
  | sqliteSchema
  | sqliteToobig
  | sqliteConstraint
  | sqliteMismatch
  | sqliteMisuse
  | sqliteMetaRecovered
  | cancel
  | dbNotExist
  | invalidFilePath
  | invalidBindArgsCount
  | argsReadConOverload
  | invalidSecretKey
  | other (code : Int)
  deriving DecidableEq, Repr

def sqliteBusy : Int := 5
def sqliteLocked : Int := 6
def sqliteRow : Int := 100
def sqliteDone : Int := 101

def errNo : Int → Except RdbError Unit
  | 0 => .ok ()
  | 1 => .error .sqliteError
  | 3 => .error .sqlitePerm
  | 4 => .error .sqliteAbort
  | 5 => .error .sqliteBusy
  | 6 => .error .sqliteLocked
  | 7 => .error .sqliteNomem
  | 8 => .error .sqliteReadonly
  | 9 => .error .sqliteInterrupt
  | 10 => .error .sqliteIoerr
  | 11 => .error .sqliteCorrupt
  | 13 => .error .sqliteFull
  | 14 => .error .sqliteCantopen
  | 17 => .error .sqliteSchema
  | 18 => .error .sqliteToobig
  | 19 => .error .sqliteConstraint
  | 20 => .error .sqliteMismatch
  | 21 => .error .sqliteMisuse
  | 26 => .error .sqliteCorrupt
  | 66 => .error .sqliteMetaRecovered
  | 100 => .ok ()
  | 101 => .error .noMoreRows
  | code => .error (.other (-code))

theorem errNo_eq_ok : errNo rc = .ok () ↔ rc = 0 ∨ rc = sqliteRow := by
  unfold errNo sqliteRow
  split <;> simp_all

end RelationalStore
