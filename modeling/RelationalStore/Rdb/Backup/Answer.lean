import RelationalStore.Rdb.Backup.Crash

/-! # What the code of a backup says

`Backup` returns the code of `InnerBackup`, but keeps the copy only without a `-wal` file. -/

namespace RelationalStore

open Durable BackupFiles

/-- Neither the file at the path nor the one aside is from call `n`. -/
def BackupFiles.Older (n : Nat) (f : BackupFiles) : Prop :=
  f.db ≠ some (.complete n) ∧ f.tmp ≠ some (.complete n)
  deriving Decidable

namespace BackupCall
variable (c : BackupCall) (st : BackupStore) (f : BackupFiles)

/-- The call gets past its checks, the leftovers and the older backup. -/
def Reaches : Prop :=
  st.isReadOnly = false ∧ st.isMemoryRdb = false ∧ c.getDataBasePath = none ∧
    (f.wal → (f.db.isSome → c.firstDirty.db) ∧ (f.shm → c.firstDirty.shm) ∧
      c.firstDirty.wal) ∧
    (f.tmp.isSome ∨ f.wal ∨ f.db = none ∨ c.renamesAside)
  deriving Decidable

/-- Every statement of `InnerBackup` that is executed succeeds. -/
def Succeeds : Prop :=
  c.conn = none ∧
    if st.isVector ∨ st.haSingle = false ∧ c.isSlaveDbName then c.connBackup.err = none
    else (st.isEncrypt → c.setDefaultEncryptAlgo = none) ∧ c.attach.err = none ∧
      c.prepareJournalMode = none ∧ c.journalMode.err = none ∧ c.exportDatabase.err = none ∧
      c.detach.err = none
  deriving Decidable

/-- A `-wal` file is there when `InnerBackup` returns. -/
def LeavesWal : Prop :=
  if st.isVector ∨ (st.haSingle = false ∧ c.isSlaveDbName) ∧ c.slaveAtPath then
    c.connBackup.writes ∧ c.connBackup.wal
  else ¬ (st.haSingle = false ∧ c.isSlaveDbName) ∧ c.walAfterClose
  deriving Decidable

/-- The call answers `E_OK` only for a copy of its own at the path, and an error when it threw away
the copy that it had exported. -/
def AnswersTruly : Prop :=
  ((c.backup st).answer f = .ok () → ((c.backup st).leaves f).db = some (.complete c.id)) ∧
  (c.Succeeds st ∧ c.Exports st → ((c.backup st).leaves f).db ≠ some (.complete c.id) →
    (c.backup st).answer f ≠ .ok ())

end BackupCall

theorem SqlRun.code_eq_ok {o : SqlRun} : o.code = .ok () ↔ o.err = none := by
  cases h : o.err <;> simp [SqlRun.code, h]

namespace BackupSql
variable {sql : BackupSql} {args n : Nat} {o : SqlRun} {f : BackupFiles}

theorem numParameters_eq : sql.numParameters = if sql = .attach then 2 else 0 := by
  cases sql <;> decide

@[simp] theorem tmp_run : ((sql.run n o).leaves f).tmp = f.tmp := by
  cases sql <;> simp only [run, touch, leaves_step, leaves_bind] <;> (repeat' split) <;> rfl

theorem db_run (sql : BackupSql) (hsql : sql ≠ .exportDatabase) (h : f.db ≠ some (.complete n)) :
    ((sql.run n o).leaves f).db ≠ some (.complete n) := by
  have htouch : (f.touch o).db ≠ some (.complete n) := by
    unfold touch
    split
    · cases hdb : f.db with
      | none => simp
      | some content => simpa [hdb] using h
    · exact h
  cases sql with
  | attach | journalMode => exact htouch
  | exportDatabase => exact absurd rfl hsql
  | detach =>
    simp only [run, leaves_step]
    split <;> exact h

theorem db_run_export (h : o.err = none) :
    ((exportDatabase.run n o).leaves f).db = some (.complete n) := by
  simp [run, h]

theorem db_run_detach : ((detach.run n o).leaves f).db = f.db := by
  simp only [run, leaves_step]
  split <;> rfl

theorem answer_execute (h : sql ≠ .attach) : (sql.execute 0 n o).answer f = o.code := by
  simp [execute, numParameters_eq, h]

theorem answer_execute_attach : (attach.execute 0 n o).answer f ≠ .ok () := by
  simp [execute, numParameters_eq]

theorem leaves_execute (h : sql ≠ .attach) :
    (sql.execute 0 n o).leaves f = (sql.run n o).leaves f := by
  simp [execute, numParameters_eq, h]

end BackupSql

namespace BackupCall
variable {c : BackupCall} {st : BackupStore} {f : BackupFiles}

theorem exportAttached_of_prepared (h : c.prepareJournalMode = none) :
    c.exportAttached.answer f = (match c.journalMode.code with
      | .error err => .error err
      | .ok () => match c.detach.code with
        | .ok () => c.exportDatabase.code
        | .error err => .error err) ∧
    (c.journalMode.err = none → c.exportAttached.leaves f =
      ((BackupSql.prepare (BackupSql.prepare .journalMode .exportDatabase c.prepareExport) .detach
        c.prepareDetach).run c.id c.detach).leaves
      (((BackupSql.prepare .journalMode .exportDatabase c.prepareExport).run c.id
        c.exportDatabase).leaves ((BackupSql.journalMode.run c.id c.journalMode).leaves f))) := by
  have hstmt : BackupSql.prepare .journalMode .exportDatabase c.prepareExport ≠ .attach := by
    cases c.prepareExport <;> simp [BackupSql.prepare]
  have hstmt' : BackupSql.prepare (BackupSql.prepare .journalMode .exportDatabase c.prepareExport)
      .detach c.prepareDetach ≠ .attach := by
    cases c.prepareDetach
    · simp [BackupSql.prepare]
    · exact hstmt
  have hjournal : BackupSql.prepare .attach .journalMode c.prepareJournalMode = .journalMode := by
    rw [h]
    rfl
  simp only [exportAttached, answer_bind, leaves_bind, hjournal]
  rw [BackupSql.answer_execute (by decide), BackupSql.leaves_execute (by decide)]
  cases hcode : c.journalMode.code with
  | error err =>
    refine ⟨rfl, fun hnone => ?_⟩
    rw [SqlRun.code_eq_ok.mpr hnone] at hcode
    cases hcode
  | ok =>
    simp only [answer_bind, leaves_bind, answer_pure, leaves_pure]
    rw [BackupSql.answer_execute hstmt', BackupSql.answer_execute hstmt,
      BackupSql.leaves_execute hstmt', BackupSql.leaves_execute hstmt]
    exact ⟨rfl, fun _ => rfl⟩

theorem exportAttached_ok : c.exportAttached.answer f = .ok () ↔
    c.prepareJournalMode = none ∧ c.journalMode.err = none ∧ c.exportDatabase.err = none ∧
      c.detach.err = none := by
  cases hprep : c.prepareJournalMode with
  | none =>
    rw [(exportAttached_of_prepared hprep).1, ← SqlRun.code_eq_ok, ← SqlRun.code_eq_ok,
      ← SqlRun.code_eq_ok]
    cases c.journalMode.code <;> cases c.detach.code <;> simp
  | some err =>
    -- `ATTACH` runs again, without the arguments it needs
    have hattach : BackupSql.prepare .attach .journalMode c.prepareJournalMode = .attach := by
      rw [hprep]
      rfl
    simp only [exportAttached, answer_bind, hattach]
    cases hcode : (BackupSql.attach.execute 0 c.id c.journalMode).answer f with
    | error err => simp
    | ok => exact absurd hcode BackupSql.answer_execute_attach

theorem exportAttached_tmp : (c.exportAttached.leaves f).tmp = f.tmp := by
  have hexecute : ∀ (sql : BackupSql) args o g,
      ((sql.execute args c.id o).leaves g).tmp = g.tmp := by
    intro sql args o g
    unfold BackupSql.execute
    split <;> simp
  simp only [exportAttached, leaves_bind]
  split
  · exact hexecute ..
  · simp only [leaves_bind, leaves_pure]
    rw [hexecute, hexecute, hexecute]

theorem exportAttached_db (hok : c.exportAttached.answer f = .ok ()) :
    (c.prepareExport = none → (c.exportAttached.leaves f).db = some (.complete c.id)) ∧
    (c.prepareExport ≠ none → f.db ≠ some (.complete c.id) →
      (c.exportAttached.leaves f).db ≠ some (.complete c.id)) := by
  obtain ⟨hprep, hjournal, hexport, hdetach⟩ := exportAttached_ok.mp hok
  rw [(exportAttached_of_prepared hprep).2 hjournal]
  constructor
  · intro hnone
    rw [hnone]
    cases c.prepareDetach with
    | none => exact BackupSql.db_run_detach.trans (BackupSql.db_run_export hexport)
    | some err => exact BackupSql.db_run_export hdetach
  · intro hsome hdb
    obtain ⟨err, herr⟩ := Option.ne_none_iff_exists'.mp hsome
    rw [herr]
    have hagain : ((BackupSql.journalMode.run c.id c.exportDatabase).leaves
        ((BackupSql.journalMode.run c.id c.journalMode).leaves f)).db ≠ some (.complete c.id) :=
      BackupSql.db_run _ (by decide) (BackupSql.db_run _ (by decide) hdb)
    cases c.prepareDetach with
    | none => exact BackupSql.db_run .detach (by decide) hagain
    | some err => exact BackupSql.db_run .journalMode (by decide) hagain

structure Exported (c : BackupCall) (st : BackupStore) (f g : BackupFiles) : Prop where
  wal : g.wal ↔ c.LeavesWal st
  tmp : g.tmp = f.tmp
  copied : c.Exports st → g.db = some (.complete c.id)
  older : ¬ c.Exports st → f.db ≠ some (.complete c.id) → g.db ≠ some (.complete c.id)

theorem exportToFile_ok {isEncrypt : Bool} : (c.exportToFile isEncrypt).answer f = .ok () ↔
    c.conn = none ∧ (isEncrypt → c.setDefaultEncryptAlgo = none) ∧ c.attach.err = none ∧
      c.prepareJournalMode = none ∧ c.journalMode.err = none ∧ c.exportDatabase.err = none ∧
      c.detach.err = none := by
  have hattach : (BackupSql.attach.execute 2 c.id c.attach).answer f = c.attach.code := by
    simp [BackupSql.execute, BackupSql.numParameters_eq]
  have halgo : (isEncrypt → c.setDefaultEncryptAlgo = none) ↔
      (if isEncrypt then c.setDefaultEncryptAlgo else none) = none := by
    cases isEncrypt <;> simp
  rw [halgo]
  unfold exportToFile
  split
  next err algo hconn => simp [hconn]
  next err hconn halgo => simp [halgo]
  next hconn halgo =>
    simp only [answer_bind, hattach, hconn, halgo, true_and]
    rw [← SqlRun.code_eq_ok (o := c.attach)]
    cases c.attach.code with
    | error err => simp
    | ok => simpa using exportAttached_ok

theorem innerBackup_ok (hro : st.isReadOnly = false) :
    (c.innerBackup st).answer f = .ok () ↔ c.Succeeds st := by
  unfold innerBackup Succeeds
  rw [hro]
  by_cases hvector : st.isVector
  · simp only [hvector, if_true, true_or, Bool.false_eq_true, if_false, exportByConn]
    cases c.conn <;> simp [SqlRun.code_eq_ok]
  by_cases hslave : st.haSingle = false ∧ c.isSlaveDbName
  · simp only [hvector, hslave, backupSlaveDb, exportByConn]
    cases c.conn <;> cases c.slaveAtPath <;> simp [SqlRun.code_eq_ok]
  · have hbranch : ¬ ((!st.haSingle && c.isSlaveDbName)) := by simpa using hslave
    simp only [hvector, hslave, hbranch, if_false, Bool.false_eq_true, or_false]
    exact exportToFile_ok

theorem exportByConn_exported (hexports : c.Exports st)
    (hconn : st.isVector ∨ (st.haSingle = false ∧ c.isSlaveDbName) ∧ c.slaveAtPath)
    (hwal : f.wal = false) (hok : c.exportByConn.answer f = .ok ()) :
    Exported c st f (c.exportByConn.leaves f) := by
  unfold exportByConn at hok ⊢
  split at hok
  next => simp at hok
  next =>
    have herr : c.connBackup.err = none := SqlRun.code_eq_ok.mp hok
    refine ⟨?_, BackupSql.tmp_run, fun _ => BackupSql.db_run_export herr,
      fun hn => absurd hexports hn⟩
    simp only [LeavesWal, if_pos hconn, leaves_bind, leaves_pure, BackupSql.run, leaves_step, herr]
    cases hwrites : c.connBackup.writes
    · simp [hwal]
    · simp [BackupFiles.touch, hwrites]

theorem exportToFile_exported (hplain : c.tryGetMasterSlaveBackupPath st = false)
    (hvector : ¬ st.isVector) (hname : ¬ (st.haSingle = false ∧ c.isSlaveDbName))
    (hok : (c.exportToFile st.isEncrypt).answer f = .ok ()) :
    Exported c st f ((c.exportToFile st.isEncrypt).leaves f) := by
  have hexports : c.Exports st ↔ c.prepareExport = none := by
    rw [Exports, if_neg (by simp [hplain]), or_iff_right hvector, if_neg hname]
  obtain ⟨hconn, halgo, hattach, hrest⟩ := exportToFile_ok.mp hok
  have hnone : (if st.isEncrypt then c.setDefaultEncryptAlgo else none) = none := by
    cases h : st.isEncrypt
    · rfl
    · exact halgo h
  have hleaves : (c.exportToFile st.isEncrypt).leaves f =
      { c.exportAttached.leaves ((BackupSql.attach.run c.id c.attach).leaves f) with
        wal := c.walAfterClose, shm := c.shmAfterClose } := by
    simp [exportToFile, hconn, hnone, BackupSql.execute, BackupSql.numParameters_eq,
      SqlRun.code_eq_ok.mpr hattach]
  have hdb := exportAttached_db (exportAttached_ok (c := c)
    (f := (BackupSql.attach.run c.id c.attach).leaves f) |>.mpr hrest)
  rw [hleaves]
  refine ⟨?_, exportAttached_tmp.trans BackupSql.tmp_run,
    fun h => hdb.1 (hexports.mp h), fun h hold => hdb.2 (fun hn => h (hexports.mpr hn)) ?_⟩
  · rw [LeavesWal, if_neg (by simp [hvector, hname]), and_iff_right hname]
  · exact BackupSql.db_run _ (by decide) hold

theorem innerBackup_exported (hplain : c.tryGetMasterSlaveBackupPath st = false)
    (hro : st.isReadOnly = false) (hwal : f.wal = false)
    (hok : (c.innerBackup st).answer f = .ok ()) :
    Exported c st f ((c.innerBackup st).leaves f) := by
  unfold innerBackup at hok ⊢
  rw [if_neg (by simp [hro])] at hok ⊢
  by_cases hvector : st.isVector
  · rw [if_pos hvector] at hok ⊢
    refine exportByConn_exported ?_ (.inl hvector) hwal hok
    rw [Exports, if_neg (by simp [hplain])]
    exact .inl hvector
  rw [if_neg hvector] at hok ⊢
  by_cases hslave : !st.haSingle && c.isSlaveDbName
  · rw [if_pos hslave] at hok ⊢
    simp only [Bool.and_eq_true, Bool.not_eq_true'] at hslave
    have hexports : c.Exports st ↔ c.slaveAtPath := by
      rw [Exports, if_neg (by simp [hplain]), or_iff_right hvector, if_pos hslave]
    by_cases hpath : c.slaveAtPath
    · rw [backupSlaveDb, if_pos hpath] at hok ⊢
      exact exportByConn_exported (hexports.mpr hpath) (.inr ⟨hslave, hpath⟩) hwal hok
    · -- the slave is written, and the path is left alone
      have hsame : c.backupSlaveDb.leaves f = f := by
        rw [backupSlaveDb, if_neg hpath]
        split <;> rfl
      rw [hsame]
      refine ⟨?_, rfl, fun h => absurd (hexports.mp h) hpath, fun _ h => h⟩
      simp [LeavesWal, hvector, hslave, hpath, hwal]
  · rw [if_neg hslave] at hok ⊢
    exact exportToFile_exported hplain hvector (by simpa using hslave) hok

section
variable {there : BackupFiles → Bool} {remove : BackupFiles → BackupFiles} {ok : Bool}

theorem answer_deleteFile :
    (deleteFile there remove ok).answer f ↔ (there f → ok) := by
  simp only [deleteFile, answer_step]
  split <;> simp_all

theorem leaves_deleteFile :
    (deleteFile there remove ok).leaves f = if there f && !ok then f else remove f := by
  simp only [deleteFile, leaves_step]
  split <;> rfl

theorem deleteFile_frame (remove : BackupFiles → BackupFiles) (φ : BackupFiles → α)
    (h : ∀ f, φ (remove f) = φ f) : φ ((deleteFile there remove ok).leaves f) = φ f := by
  rw [leaves_deleteFile]
  split
  · rfl
  · exact h f

end

variable {o : DirtyRemovals}

theorem answer_deleteDirtyFiles : (deleteDirtyFiles o).answer f ↔
    (f.db.isSome → o.db) ∧ (f.shm → o.shm) ∧ (f.wal → o.wal) := by
  simp only [deleteDirtyFiles, answer_bind, answer_pure, Bool.and_eq_true, answer_deleteFile]
  rw [deleteFile_frame (·.removeDb) (·.shm) fun _ => rfl,
    deleteFile_frame (·.removeShm) (·.wal) fun _ => rfl,
    deleteFile_frame (·.removeDb) (·.wal) fun _ => rfl]
  exact ⟨fun ⟨h1, h2, h3⟩ => ⟨h3, h2, h1⟩, fun ⟨h1, h2, h3⟩ => ⟨h3, h2, h1⟩⟩

theorem tmp_deleteDirtyFiles :
    ((deleteDirtyFiles o).leaves f).tmp = f.tmp := by
  simp only [deleteDirtyFiles, leaves_bind, leaves_pure]
  rw [deleteFile_frame (·.removeWal) (·.tmp) fun _ => rfl,
    deleteFile_frame (·.removeShm) (·.tmp) fun _ => rfl,
    deleteFile_frame (·.removeDb) (·.tmp) fun _ => rfl]

theorem db_deleteDirtyFiles : ((deleteDirtyFiles o).leaves f).db =
    if o.db then none else if f.wal && o.wal then f.db.map fun _ => .unfinished else f.db := by
  have hdb : ((deleteFile (·.db.isSome) (·.removeDb) o.db).leaves f).db =
      if o.db then none else f.db := by
    rw [leaves_deleteFile]
    cases o.db <;> cases h : f.db <;> simp [removeDb, h]
  simp only [deleteDirtyFiles, leaves_bind, leaves_pure]
  rw [leaves_deleteFile]
  simp only [apply_ite BackupFiles.db, removeWal]
  rw [deleteFile_frame (·.removeShm) (·.db) fun _ => rfl,
    deleteFile_frame (·.removeShm) (·.wal) fun _ => rfl,
    deleteFile_frame (·.removeDb) (·.wal) fun _ => rfl, hdb]
  cases o.db <;> cases o.wal <;> cases f.wal <;> simp

theorem deleteDirtyFiles_done (hres : (deleteDirtyFiles o).answer f) :
    ((deleteDirtyFiles o).leaves f).db = none ∧ ((deleteDirtyFiles o).leaves f).wal = false := by
  obtain ⟨hdb, -, hwal⟩ := answer_deleteDirtyFiles.mp hres
  constructor
  · rw [db_deleteDirtyFiles]
    cases hf : f.db with
    | none => simp
    | some content => simp [hdb (by simp [hf])]
  · simp only [deleteDirtyFiles, leaves_bind, leaves_pure]
    rw [leaves_deleteFile, deleteFile_frame (·.removeShm) (·.wal) fun _ => rfl,
      deleteFile_frame (·.removeDb) (·.wal) fun _ => rfl]
    cases hf : f.wal with
    | false =>
      simp only [Bool.false_and, Bool.false_eq_true, if_false, removeWal]
    | true => simp [hwal hf, removeWal]

theorem db_putBack (htmp : f.tmp ≠ some (.complete c.id)) :
    (c.putBack.leaves f).db = some (.complete c.id) ↔ f.db = some (.complete c.id) ∧
      c.lastDirty.db = false ∧ (f.wal → c.lastDirty.wal = false) := by
  have hdb := db_deleteDirtyFiles (f := f) (o := c.lastDirty)
  have htmp' := tmp_deleteDirtyFiles (f := f) (o := c.lastDirty)
  simp only [putBack, leaves_bind]
  cases hres : (deleteDirtyFiles c.lastDirty).answer f with
  | true =>
    obtain ⟨hgone, -⟩ := answer_deleteDirtyFiles.mp hres
    have hnone := (deleteDirtyFiles_done hres).1
    refine iff_of_false ?_ fun ⟨hcopy, hkept, _⟩ => ?_
    · rw [if_pos rfl]
      change ((renameBack c.renamesBack).leaves _).db ≠ _
      simp only [renameBack, leaves_step]
      split
      · simpa [htmp'] using htmp
      · simp [hnone]
    · simp [hgone (by simp [hcopy])] at hkept
  | false =>
    simp only [Bool.false_eq_true, if_false, leaves_pure, hdb]
    cases c.lastDirty.db <;> cases c.lastDirty.wal <;> cases hwal : f.wal <;>
      cases f.db <;> simp

theorem db_dropTmp : (c.dropTmp.leaves f).db = f.db := by
  change ((deleteFile (·.tmp.isSome) (·.removeTmp) c.deletesTmp).leaves f).db = _
  rw [leaves_deleteFile]
  split <;> rfl

theorem answer_exportAndCommit :
    (c.exportAndCommit st).answer f = (c.innerBackup st).answer f := rfl

theorem leaves_exportAndCommit (hok : (c.innerBackup st).answer f = .ok ()) :
    (c.exportAndCommit st).leaves f = if ((c.innerBackup st).leaves f).wal
      then c.putBack.leaves ((c.innerBackup st).leaves f)
      else c.dropTmp.leaves ((c.innerBackup st).leaves f) := by
  change Durable.leaves (if (c.innerBackup st).answer f ≠ .ok () ∨ ((c.innerBackup st).leaves f).wal
    then c.putBack else c.dropTmp) _ = _
  by_cases hleft : ((c.innerBackup st).leaves f).wal
  · rw [if_pos (.inr hleft), if_pos hleft, leaves_look]
  · rw [if_neg (by simp [hok, hleft]), if_neg hleft, leaves_look]

theorem db_exportAndCommit (hplain : c.tryGetMasterSlaveBackupPath st = false)
    (hro : st.isReadOnly = false) (hwal : f.wal = false) (hold : f.Older c.id)
    (hok : (c.innerBackup st).answer f = .ok ()) :
    ((c.exportAndCommit st).leaves f).db = some (.complete c.id) ↔ c.Exports st ∧
      (c.LeavesWal st → c.lastDirty.db = false ∧ c.lastDirty.wal = false) := by
  have H := innerBackup_exported hplain hro hwal hok
  have hcopy : ((c.innerBackup st).leaves f).db = some (.complete c.id) ↔ c.Exports st :=
    ⟨fun h => by_contra fun hn => H.older hn hold.1 h, H.copied⟩
  have htmp : ((c.innerBackup st).leaves f).tmp ≠ some (.complete c.id) := by
    rw [H.tmp]
    exact hold.2
  rw [leaves_exportAndCommit hok, ← H.wal]
  by_cases hleft : ((c.innerBackup st).leaves f).wal
  · rw [if_pos hleft, db_putBack htmp, hcopy]
    simp [hleft]
  · rw [if_neg hleft, db_dropTmp, hcopy]
    simp [hleft]

theorem moveAsideAndExport_cases (st : BackupStore) (hwal : f.wal = false) (hold : f.Older c.id) :
    (¬ (f.tmp.isSome ∨ f.db = none ∨ c.renamesAside) ∧
      (c.moveAsideAndExport st).answer f ≠ .ok ()) ∨
    (f.tmp.isSome ∨ f.db = none ∨ c.renamesAside) ∧ ∃ g : BackupFiles,
      g.wal = false ∧ g.Older c.id ∧
      (c.moveAsideAndExport st).answer f = (c.exportAndCommit st).answer g ∧
      (c.moveAsideAndExport st).leaves f = (c.exportAndCommit st).leaves g := by
  by_cases htmp : f.tmp.isSome
  · refine .inr ⟨.inl htmp, (deleteFile (·.db.isSome) (·.removeDb) c.deletesDb).leaves f, ?_, ?_,
      ?_⟩
    · rw [deleteFile_frame (·.removeDb) (·.wal) fun _ => rfl, hwal]
    · refine ⟨?_, ?_⟩
      · rw [leaves_deleteFile]
        split
        · exact hold.1
        · simp [removeDb]
      · rw [deleteFile_frame (·.removeDb) (·.tmp) fun _ => rfl]
        exact hold.2
    · simp only [moveAsideAndExport, answer_bind, leaves_bind, answer_look, leaves_look, htmp]
      exact ⟨rfl, rfl⟩
  by_cases hdb : f.db.isSome
  · by_cases hrename : c.renamesAside
    · refine .inr ⟨.inr (.inr hrename), { f with tmp := f.db, db := none }, hwal,
        ⟨nofun, hold.1⟩, ?_⟩
      simp [moveAsideAndExport, renameAside, htmp, hdb, hrename]
    · refine .inl ⟨by simp_all [Option.isSome_iff_ne_none], ?_⟩
      simp [moveAsideAndExport, renameAside, htmp, hdb, hrename]
  · refine .inr ⟨.inr (.inl (by simpa using hdb)), f, hwal, hold, ?_⟩
    simp [moveAsideAndExport, htmp, hdb]

theorem backup_cases (hplain : c.tryGetMasterSlaveBackupPath st = false) (hold : f.Older c.id) :
    (¬ c.Reaches st f ∧ (c.backup st).answer f ≠ .ok ()) ∨
    c.Reaches st f ∧ ∃ g : BackupFiles,
      g.wal = false ∧ g.Older c.id ∧
      (c.backup st).answer f = (c.exportAndCommit st).answer g ∧
      (c.backup st).leaves f = (c.exportAndCommit st).leaves g := by
  unfold backup
  rw [hplain]
  by_cases husable : st.isReadOnly || st.isMemoryRdb
  · rw [if_pos husable]
    refine .inl ⟨fun h => ?_, nofun⟩
    simp [h.1, h.2.1] at husable
  rw [if_neg husable]
  simp only [Bool.or_eq_true, not_or, Bool.not_eq_true] at husable
  cases hpath : c.getDataBasePath with
  | some err =>
    refine .inl ⟨fun h => ?_, nofun⟩
    have hnone := h.2.2.1
    rw [hpath] at hnone
    cases hnone
  | none =>
    cases hwal : f.wal with
    | false =>
      have hreaches : c.Reaches st f ↔ f.tmp.isSome ∨ f.db = none ∨ c.renamesAside := by
        simp [Reaches, husable, hpath, hwal]
      rw [hreaches]
      simpa [hwal] using moveAsideAndExport_cases st hwal hold
    | true =>
      have hreaches : c.Reaches st f ↔ (deleteDirtyFiles c.firstDirty).answer f := by
        simp [Reaches, husable, hpath, hwal, answer_deleteDirtyFiles]
      rw [hreaches]
      cases hres : (deleteDirtyFiles c.firstDirty).answer f with
      | false => exact .inl ⟨nofun, by simp [hwal, hres]⟩
      | true =>
        obtain ⟨hdb, hclean⟩ := deleteDirtyFiles_done hres
        have hold' : ((deleteDirtyFiles c.firstDirty).leaves f).Older c.id :=
          ⟨by simp [hdb], by rw [tmp_deleteDirtyFiles]; exact hold.2⟩
        rcases moveAsideAndExport_cases st hclean hold' with ⟨hstop, -⟩ | ⟨-, g, hg⟩
        · exact absurd (.inr (.inl hdb)) hstop
        · exact .inr ⟨rfl, g, by simpa [hwal, hres] using hg⟩

end BackupCall

theorem backup_answersTruly_iff (st : BackupStore) (c : BackupCall) (f : BackupFiles)
    (hplain : c.tryGetMasterSlaveBackupPath st = false) (hold : f.Older c.id) :
    c.AnswersTruly st f ↔ (c.Reaches st f → c.Succeeds st → c.Exports st ∧
      (c.LeavesWal st → c.lastDirty.db = false ∧ c.lastDirty.wal = false)) := by
  have hfirst : c.AnswersTruly st f ↔ ((c.backup st).answer f = .ok () →
      ((c.backup st).leaves f).db = some (.complete c.id)) :=
    ⟨fun h => h.1, fun h => ⟨h, fun _ hdb hok => hdb (h hok)⟩⟩
  rw [hfirst]
  rcases BackupCall.backup_cases hplain hold with
    ⟨hstop, herr⟩ | ⟨hreaches, g, hwal, hg, hans, hend⟩
  · exact ⟨fun _ h => absurd h hstop, fun _ h => absurd h herr⟩
  · have hro := hreaches.1
    rw [hans, hend, BackupCall.answer_exportAndCommit]
    constructor
    · intro h _ hs
      have hok := (BackupCall.innerBackup_ok (f := g) hro).mpr hs
      exact (BackupCall.db_exportAndCommit hplain hro hwal hg hok).mp (h hok)
    · intro h hok
      exact (BackupCall.db_exportAndCommit hplain hro hwal hg hok).mpr
        (h hreaches ((BackupCall.innerBackup_ok hro).mp hok))

theorem backup_answersTruly_smooth : (BackupCall.smooth 1).AnswersTruly .plain
    ⟨some (.complete 0), false, false, none⟩ :=
  (backup_answersTruly_iff .plain (.smooth 1) _ (by decide) (by decide)).mpr (by decide)

theorem not_answersTruly_of_wal :
    ¬ { BackupCall.smooth 1 with walAfterClose := true }.AnswersTruly .plain
      ⟨some (.complete 0), false, false, none⟩ := by
  intro h
  exact absurd (h.1 rfl) (by decide)

end RelationalStore
