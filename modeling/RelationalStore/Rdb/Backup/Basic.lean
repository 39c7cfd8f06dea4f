import RelationalStore.Rdb.Errno
import RelationalStore.Theory.Crash

/-! # Backup to a file

An older backup is moved aside to `path.tmp`, and removed or put back after the export. -/

namespace RelationalStore

inductive BackupContent where
  | unfinished
  | complete (call : Nat)
  deriving DecidableEq

structure BackupFiles where
  db : Option BackupContent
  wal : Bool
  shm : Bool
  tmp : Option BackupContent
  deriving DecidableEq

structure DirtyRemovals where
  db : Bool
  shm : Bool
  wal : Bool

structure SqlRun where
  err : Option RdbError
  writes : Bool
  wal : Bool
  shm : Bool

inductive BackupSql where
  | attach
  | journalMode
  | exportDatabase
  | detach
  deriving DecidableEq

def BackupSql.text : BackupSql → String
  | attach => "ATTACH ? AS backup KEY ?"
  | journalMode => "PRAGMA backup.journal_mode=WAL"
  | exportDatabase => "SELECT export_database('backup')"
  | detach => "detach backup"

def BackupSql.numParameters (sql : BackupSql) : Nat := sql.text.toList.count '?'

structure BackupStore where
  isReadOnly : Bool
  isMemoryRdb : Bool
  isVector : Bool
  isEncrypt : Bool
  haSingle : Bool

structure BackupCall where
  id : Nat
  emptyPath : Bool
  getDataBasePath : Option RdbError
  isSlaveDbName : Bool
  slaveAtPath : Bool
  firstDirty : DirtyRemovals
  deletesDb : Bool
  renamesAside : Bool
  conn : Option RdbError
  setDefaultEncryptAlgo : Option RdbError
  attach : SqlRun
  prepareJournalMode : Option RdbError
  journalMode : SqlRun
  prepareExport : Option RdbError
  exportDatabase : SqlRun
  prepareDetach : Option RdbError
  detach : SqlRun
  walAfterClose : Bool
  shmAfterClose : Bool
  connBackup : SqlRun
  lastDirty : DirtyRemovals
  renamesBack : Bool
  deletesTmp : Bool

def SqlRun.code (o : SqlRun) : Except RdbError Unit :=
  match o.err with
  | none => .ok ()
  | some err => .error err

namespace BackupFiles
variable {f : BackupFiles}

def removeDb (f : BackupFiles) : BackupFiles := { f with db := none }

def removeShm (f : BackupFiles) : BackupFiles := { f with shm := false }

def removeWal (f : BackupFiles) : BackupFiles :=
  { f with wal := false, db := if f.wal then f.db.map fun _ => .unfinished else f.db }

def removeTmp (f : BackupFiles) : BackupFiles := { f with tmp := none }

def touch (f : BackupFiles) (o : SqlRun) : BackupFiles :=
  if o.writes then { f with db := some (f.db.getD .unfinished), wal := o.wal, shm := o.shm } else f

def getDestPath (f : BackupFiles) : Except RdbError BackupContent :=
  match (if f.tmp.isSome then f.tmp else f.db) with
  | some content => .ok content
  | none => .error .invalidFilePath

end BackupFiles

def deleteFile (there : BackupFiles → Bool) (remove : BackupFiles → BackupFiles) (ok : Bool) :
    Durable BackupFiles Bool :=
  .step fun f => if there f && !ok then (false, f) else (true, remove f)

def deleteDirtyFiles (o : DirtyRemovals) : Durable BackupFiles Bool := do
  let res ← deleteFile (·.db.isSome) (·.removeDb) o.db
  let res' ← deleteFile (·.shm) (·.removeShm) o.shm
  let res'' ← deleteFile (·.wal) (·.removeWal) o.wal
  pure (res'' && (res' && res))

def renameAside (ok : Bool) : Durable BackupFiles Bool :=
  .step fun f =>
    if f.db.isSome && ok then (true, { f with tmp := f.db, db := none }) else (false, f)

def renameBack (ok : Bool) : Durable BackupFiles Bool :=
  .step fun f =>
    if f.tmp.isSome && ok then (true, { f with db := f.tmp, tmp := none }) else (false, f)

def BackupSql.prepare (stmt sql : BackupSql) : Option RdbError → BackupSql
  | none => sql
  | some _ => stmt

def BackupSql.run (sql : BackupSql) (call : Nat) (o : SqlRun) : Durable BackupFiles Unit :=
  match sql with
  | .attach | .journalMode => .step fun f => ((), f.touch o)
  | .exportDatabase => do
    .step fun f => ((), if o.writes then { f.touch o with db := some .unfinished } else f)
    .step fun f => ((), if o.err = none then { f with db := some (.complete call) } else f)
  | .detach => .step fun f => ((), if o.writes then { f with wal := o.wal, shm := o.shm } else f)

def BackupSql.execute (stmt : BackupSql) (args call : Nat) (o : SqlRun) :
    Durable BackupFiles (Except RdbError Unit) :=
  if args ≠ stmt.numParameters then pure (.error .invalidBindArgsCount)
  else do
    stmt.run call o
    pure o.code

namespace BackupCall
variable (c : BackupCall)

def exportAttached : Durable BackupFiles (Except RdbError Unit) := do
  let stmt := BackupSql.attach.prepare .journalMode c.prepareJournalMode
  match ← stmt.execute 0 c.id c.journalMode with
  | .error err => pure (.error err)
  | .ok () =>
    let stmt := stmt.prepare .exportDatabase c.prepareExport
    let ret ← stmt.execute 0 c.id c.exportDatabase
    let stmt := stmt.prepare .detach c.prepareDetach
    let res ← stmt.execute 0 c.id c.detach
    pure (match res with
      | .ok () => ret
      | .error err => .error err)

def exportToFile (isEncrypt : Bool) : Durable BackupFiles (Except RdbError Unit) :=
  match c.conn, if isEncrypt then c.setDefaultEncryptAlgo else none with
  | some err, _ | none, some err => pure (.error err)
  | none, none => do
    match ← BackupSql.attach.execute 2 c.id c.attach with
    | .error err => pure (.error err)
    | .ok () =>
      let ret ← c.exportAttached
      .step fun f => ((), { f with wal := c.walAfterClose, shm := c.shmAfterClose })
      pure ret

def exportByConn : Durable BackupFiles (Except RdbError Unit) :=
  match c.conn with
  | some err => pure (.error err)
  | none => do
    BackupSql.exportDatabase.run c.id c.connBackup
    pure c.connBackup.code

def backupSlaveDb : Durable BackupFiles (Except RdbError Unit) :=
  if c.slaveAtPath then c.exportByConn
  else
    match c.conn with
    | some err => pure (.error err)
    | none => pure c.connBackup.code

variable (st : BackupStore)

def innerBackup : Durable BackupFiles (Except RdbError Unit) :=
  if st.isReadOnly then pure (.error .notSupport)
  else if st.isVector then c.exportByConn
  else if !st.haSingle && c.isSlaveDbName then c.backupSlaveDb
  else c.exportToFile st.isEncrypt

def putBack : Durable BackupFiles Unit := do
  if ← deleteDirtyFiles c.lastDirty then discard (renameBack c.renamesBack)
  else pure ()

def dropTmp : Durable BackupFiles Unit :=
  discard (deleteFile (·.tmp.isSome) (·.removeTmp) c.deletesTmp)

def exportAndCommit : Durable BackupFiles (Except RdbError Unit) := do
  let ret ← c.innerBackup st
  let wal ← .look (·.wal)
  (if ret ≠ .ok () ∨ wal then c.putBack else c.dropTmp)
  pure ret

def moveAsideAndExport : Durable BackupFiles (Except RdbError Unit) := do
  if ← .look (·.tmp.isSome) then do
    discard (deleteFile (·.db.isSome) (·.removeDb) c.deletesDb)
    c.exportAndCommit st
  else if ← .look (·.db.isSome) then do
    if ← renameAside c.renamesAside then c.exportAndCommit st
    else pure (.error .error)
  else c.exportAndCommit st

def tryGetMasterSlaveBackupPath : Bool :=
  c.emptyPath && !st.haSingle && !st.isVector

def backup : Durable BackupFiles (Except RdbError Unit) :=
  if st.isReadOnly || st.isMemoryRdb then pure (.error .notSupport)
  else if c.tryGetMasterSlaveBackupPath st then c.backupSlaveDb
  else
    match c.getDataBasePath with
    | some err => pure (.error err)
    | none => do
      if ← .look (·.wal) then
        if ← deleteDirtyFiles c.firstDirty then c.moveAsideAndExport st
        else pure (.error .error)
      else c.moveAsideAndExport st

end BackupCall

end RelationalStore
