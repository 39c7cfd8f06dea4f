import RelationalStore.Rdb.Backup.Basic

/-! # What a crash of a backup leaves

The files are `Intact` when a restore finds a whole backup. -/

namespace RelationalStore

def BackupFiles.Intact (f : BackupFiles) : Prop :=
  (∃ n, f.tmp = some (.complete n)) ∨ f.tmp = none ∧ f.wal = false ∧ ∃ n, f.db = some (.complete n)

/-- The files after a backup that made its copy and removed `path.tmp`. -/
def BackupFiles.Committed (f : BackupFiles) : Prop :=
  f.tmp = none ∧ f.wal = false ∧ ∃ n, f.db = some (.complete n)

def BackupFiles.Aside (n : Nat) (f : BackupFiles) : Prop := f.tmp = some (.complete n)

/-- The call exports to the path: through the connection, or by an export that is prepared. One that
is meant for the slave database leaves the path alone. -/
def BackupCall.Exports (st : BackupStore) (c : BackupCall) : Prop :=
  if c.tryGetMasterSlaveBackupPath st then c.slaveAtPath = false
  else st.isVector ∨
    if st.haSingle = false ∧ c.isSlaveDbName then c.slaveAtPath = true else c.prepareExport = none
  deriving Decidable

namespace BackupFiles
variable {f : BackupFiles} {n : Nat}

theorem Aside.intact (h : f.Aside n) : f.Intact := .inl ⟨n, h⟩

theorem Committed.intact (h : f.Committed) : f.Intact := .inr h

theorem Intact.aside_of_tmp (h : f.Intact) (htmp : f.tmp.isSome) : ∃ n, f.Aside n := by
  rcases h with h | ⟨hnone, -⟩
  · exact h
  · simp [hnone] at htmp

theorem Intact.aside_of_wal (h : f.Intact) (hwal : f.wal = true) : ∃ n, f.Aside n := by
  rcases h with h | ⟨-, hnone, -⟩
  · exact h
  · simp [hnone] at hwal

theorem Intact.committed_of_tmp (h : f.Intact) (htmp : f.tmp = none) : f.Committed := by
  rcases h with ⟨n, h⟩ | h
  · simp [htmp] at h
  · exact h

theorem Intact.getDestPath (h : f.Intact) : ∃ n, f.getDestPath = .ok (.complete n) := by
  rcases h with ⟨n, h⟩ | ⟨htmp, -, n, hdb⟩
  · exact ⟨n, by simp [BackupFiles.getDestPath, h]⟩
  · exact ⟨n, by simp [BackupFiles.getDestPath, htmp, hdb]⟩

end BackupFiles

open BackupFiles Durable

variable {n call : Nat} {C P : BackupFiles → Prop}

theorem deleteFile_triple (hgone : ∀ f, P f → Q true (remove f) ∧ C (remove f))
    (hstays : ∀ f, P f → Q false f ∧ C f) : Triple C P (deleteFile there remove ok) Q := by
  apply Triple.step
  intro f hf
  split
  · exact hstays f hf
  · exact hgone f hf

theorem deleteDirtyFiles_triple :
    Triple (Aside n) (Aside n) (deleteDirtyFiles o)
      fun res f => Aside n f ∧ (res = true → f.wal = false) := by
  have hdelete : ∀ (there : BackupFiles → Bool) (remove : BackupFiles → BackupFiles) ok,
      (∀ f, (remove f).tmp = f.tmp) →
      Triple (Aside n) (Aside n) (deleteFile there remove ok) fun _ => Aside n := by
    intro there remove ok hremove
    apply deleteFile_triple
    · intro f hf
      have hkeeps : Aside n (remove f) := (hremove f).trans hf
      exact ⟨hkeeps, hkeeps⟩
    · exact fun f hf => ⟨hf, hf⟩
  refine Triple.bind (hdelete (·.db.isSome) (·.removeDb) o.db fun _ => rfl) fun res => ?_
  refine Triple.bind (hdelete (·.shm) (·.removeShm) o.shm fun _ => rfl) fun res' => ?_
  refine Triple.bind (Q := fun res f => Aside n f ∧ (res = true → f.wal = false)) ?_ fun res'' => ?_
  · exact deleteFile_triple (fun f hf => ⟨⟨hf, fun _ => rfl⟩, hf⟩) fun f hf => ⟨⟨hf, nofun⟩, hf⟩
  · refine Triple.pure fun f hf => ⟨hf.1, fun h => hf.2 ?_⟩
    simp only [Bool.and_eq_true] at h
    exact h.1

theorem BackupFiles.Aside.touch {f : BackupFiles} (h : f.Aside n) (o : SqlRun) :
    (f.touch o).Aside n := by
  unfold BackupFiles.touch
  split <;> exact h

theorem BackupSql.run_triple (sql : BackupSql) (o : SqlRun) :
    Triple (Aside n) (Aside n) (sql.run call o) fun _ f =>
      Aside n f ∧ (sql = .exportDatabase → o.err = none → f.db = some (.complete call)) := by
  cases sql with
  | attach | journalMode =>
    apply Triple.step
    intro f hf
    exact ⟨⟨hf.touch o, nofun⟩, hf.touch o⟩
  | exportDatabase =>
    apply Triple.bind (Q := fun _ => Aside n)
    · apply Triple.step
      intro f hf
      have hkeeps :
          Aside n (if o.writes then { f.touch o with db := some .unfinished } else f) := by
        split
        · exact hf.touch o
        · exact hf
      exact ⟨hkeeps, hkeeps⟩
    · intro _
      apply Triple.step
      intro f hf
      split
      next => exact ⟨⟨hf, fun _ _ => rfl⟩, hf⟩
      next herr => exact ⟨⟨hf, fun _ h => absurd h herr⟩, hf⟩
  | detach =>
    apply Triple.step
    intro f hf
    have hkeeps : Aside n (if o.writes then { f with wal := o.wal, shm := o.shm } else f) := by
      split <;> exact hf
    exact ⟨⟨hkeeps, nofun⟩, hkeeps⟩

theorem SqlRun.err_eq_none {o : SqlRun} (h : o.code = .ok ()) : o.err = none := by
  cases herr : o.err with
  | none => rfl
  | some err => simp [SqlRun.code, herr] at h

theorem BackupSql.execute_triple (sql : BackupSql) (args : Nat) (o : SqlRun) :
    Triple (Aside n) (Aside n) (sql.execute args call o) fun ret f =>
      Aside n f ∧ (sql = .exportDatabase → ret = .ok () → f.db = some (.complete call)) := by
  apply Triple.ite
  · exact fun _ => Triple.pure fun f hf => ⟨hf, nofun⟩
  · intro _
    apply (BackupSql.run_triple sql o).bind
    intro _
    exact Triple.pure fun f hf => ⟨hf.1, fun hsql h => hf.2 hsql (SqlRun.err_eq_none h)⟩

theorem BackupSql.execute_detach_triple (φ : Option BackupContent → Prop) (args : Nat)
    (o : SqlRun) :
    Triple (Aside n) (fun f => Aside n f ∧ φ f.db) (BackupSql.detach.execute args call o)
      fun _ f => Aside n f ∧ φ f.db := by
  apply Triple.ite
  · exact fun _ => Triple.pure fun f hf => hf
  · intro _
    refine Triple.bind (Q := fun _ f => Aside n f ∧ φ f.db) ?_ fun _ => Triple.pure fun f hf => hf
    apply Triple.step
    intro f hf
    split <;> exact ⟨hf, hf.1⟩

namespace BackupCall
variable {c : BackupCall} {st : BackupStore}

theorem exportAttached_triple :
    Triple (Aside n) (Aside n) c.exportAttached fun ret f =>
      Aside n f ∧ (ret = .ok () → c.prepareExport = none → f.db = some (.complete c.id)) := by
  refine Triple.bind (BackupSql.execute_triple _ _ _) fun journal => ?_
  cases journal with
  | error err => exact Triple.pure fun f hf => ⟨hf.1, nofun⟩
  | ok =>
    refine Triple.bind ((BackupSql.execute_triple _ _ _).conseq (fun _ h => h) (fun _ h => h.1)
      fun _ _ h => h) fun ret => ?_
    have hstmt : c.prepareExport = none →
        BackupSql.prepare (BackupSql.attach.prepare .journalMode c.prepareJournalMode)
          .exportDatabase c.prepareExport = .exportDatabase := fun h => by rw [h]; rfl
    generalize BackupSql.prepare _ .exportDatabase c.prepareExport = stmt at hstmt ⊢
    cases hdetach : c.prepareDetach with
    | none =>
      -- the detachment runs, and the file is what the export left
      refine Triple.bind (BackupSql.execute_detach_triple (fun content =>
        stmt = .exportDatabase → ret = .ok () → content = some (.complete c.id)) _ _) fun res => ?_
      refine Triple.pure fun f hf => ⟨hf.1, fun hret hprep => hf.2 (hstmt hprep) ?_⟩
      cases res with
      | ok => exact hret
      | error err => cases hret
    | some err =>
      -- the statement that was executed before runs again
      refine Triple.bind ((BackupSql.execute_triple _ _ _).conseq (fun _ h => h) (fun _ h => h.1)
        fun _ _ h => h) fun res => ?_
      refine Triple.pure fun f hf => ⟨hf.1, fun hret hprep => hf.2 (hstmt hprep) ?_⟩
      cases res with
      | ok => rfl
      | error err => cases hret

theorem exportToFile_triple :
    Triple (Aside n) (Aside n) (c.exportToFile isEncrypt) fun ret f =>
      Aside n f ∧ (ret = .ok () → c.prepareExport = none → f.db = some (.complete c.id)) := by
  unfold exportToFile
  split
  · exact Triple.pure fun f hf => ⟨hf, nofun⟩
  · exact Triple.pure fun f hf => ⟨hf, nofun⟩
  · refine Triple.bind (BackupSql.execute_triple _ _ _) fun attached => ?_
    cases attached with
    | error err => exact Triple.pure fun f hf => ⟨hf.1, nofun⟩
    | ok =>
      refine Triple.bind (exportAttached_triple.conseq (fun _ h => h) (fun _ h => h.1)
        fun _ _ h => h) fun ret => ?_
      refine Triple.bind (Triple.step fun f hf => ?_) fun _ => Triple.pure fun f hf => hf
      exact ⟨hf, hf.1⟩

theorem exportByConn_triple :
    Triple (Aside n) (Aside n) c.exportByConn fun ret f =>
      Aside n f ∧ (ret = .ok () → f.db = some (.complete c.id)) := by
  unfold exportByConn
  split
  · exact Triple.pure fun f hf => ⟨hf, nofun⟩
  · refine Triple.bind (BackupSql.run_triple _ _) fun _ =>
      Triple.pure fun f hf => ⟨hf.1, fun h => ?_⟩
    exact hf.2 rfl (SqlRun.err_eq_none h)

theorem innerBackup_triple (hplain : c.tryGetMasterSlaveBackupPath st = false)
    (hexports : c.Exports st) :
    Triple (Aside n) (Aside n) (c.innerBackup st) fun ret f =>
      Aside n f ∧ (ret = .ok () → f.db = some (.complete c.id)) := by
  apply Triple.ite
  · exact fun _ => Triple.pure fun f hf => ⟨hf, nofun⟩
  intro _
  apply Triple.ite
  · exact fun _ => exportByConn_triple
  intro hvector
  rw [Exports, if_neg (by simp [hplain]), or_iff_right hvector] at hexports
  apply Triple.ite
  · intro hslave
    rw [if_pos (by simpa using hslave)] at hexports
    rw [backupSlaveDb, if_pos hexports]
    exact exportByConn_triple
  · intro hfile
    rw [if_neg (by simpa using hfile)] at hexports
    exact exportToFile_triple.conseq (fun _ h => h) (fun _ h => h)
      fun _ _ h => ⟨h.1, fun hret => h.2 hret hexports⟩

theorem putBack_triple : Triple Intact (Aside n) c.putBack fun _ => Intact := by
  refine Triple.bind (deleteDirtyFiles_triple.conseq (fun _ h => h.intact) (fun _ h => h)
    fun _ _ h => h) fun res => ?_
  apply Triple.ite
  · rintro rfl
    refine Triple.bind (Q := fun _ => Intact) (Triple.step fun f hf => ?_)
      fun _ => Triple.pure fun f hf => hf
    have hback : Intact { f with db := f.tmp, tmp := none } := .inr ⟨rfl, hf.2 rfl, n, hf.1⟩
    split
    · exact ⟨hback, hback⟩
    · exact ⟨hf.1.intact, hf.1.intact⟩
  · exact fun _ => Triple.pure fun f hf => hf.1.intact

theorem dropTmp_triple (n call : Nat) :
    Triple Intact (fun f => Aside n f ∧ f.wal = false ∧ f.db = some (.complete call)) c.dropTmp
      fun _ => Intact := by
  refine Triple.bind (Q := fun _ => Intact) (deleteFile_triple ?_ ?_)
    fun _ => Triple.pure fun f hf => hf
  · rintro f ⟨-, hwal, hdb⟩
    have hnew : Intact f.removeTmp := .inr ⟨rfl, hwal, call, hdb⟩
    exact ⟨hnew, hnew⟩
  · rintro f ⟨haside, -⟩
    exact ⟨haside.intact, haside.intact⟩

theorem exportAndCommit_triple (hplain : c.tryGetMasterSlaveBackupPath st = false)
    (hexports : c.Exports st) :
    Triple Intact (Aside n) (c.exportAndCommit st) fun _ => Intact := by
  refine Triple.bind ((innerBackup_triple hplain hexports).conseq (fun _ h => h.intact)
    (fun _ h => h) fun _ _ h => h) fun ret => ?_
  refine Triple.bind (Q := fun wal f =>
    (Aside n f ∧ (ret = .ok () → f.db = some (.complete c.id))) ∧ f.wal = wal)
    (Triple.look fun f hf => ⟨hf, rfl⟩) fun wal => ?_
  refine Triple.bind (Q := fun _ => Intact) (Triple.ite (fun _ => ?_) fun hdone => ?_)
    fun _ => Triple.pure fun f hf => hf
  · exact putBack_triple.conseq (fun _ h => h) (fun _ h => h.1.1) fun _ _ h => h
  · simp only [not_or, not_not, Bool.not_eq_true] at hdone
    refine (dropTmp_triple n c.id).conseq (fun _ h => h) (fun f h => ?_)
      fun _ _ h => h
    exact ⟨h.1.1, h.2.trans hdone.2, h.1.2 hdone.1⟩

theorem moveAsideAndExport_triple (hplain : c.tryGetMasterSlaveBackupPath st = false)
    (hexports : c.Exports st) :
    Triple Intact Intact (c.moveAsideAndExport st) fun _ => Intact := by
  refine Triple.bind (Q := fun tmp f => Intact f ∧ f.tmp.isSome = tmp)
    (Triple.look fun f hf => ⟨hf, rfl⟩) fun tmp => ?_
  apply Triple.ite
  · rintro rfl
    apply Triple.exists_pre (fun f hf => Intact.aside_of_tmp hf.1 hf.2)
    intro n
    refine Triple.bind (Q := fun _ => Aside n) ?_ fun _ =>
      exportAndCommit_triple hplain hexports
    refine Triple.bind (Q := fun _ => Aside n) (deleteFile_triple ?_ ?_)
      fun _ => Triple.pure fun f hf => hf
    · exact fun f hf => ⟨hf, Aside.intact hf⟩
    · exact fun f hf => ⟨hf, hf.intact⟩
  intro htmp
  refine Triple.bind (Q := fun db f => Committed f ∧ f.db.isSome = db)
    (Triple.look fun f hf => ⟨?_, rfl⟩) fun db => ?_
  · have hnone : f.tmp.isSome = false := hf.2.trans (Bool.not_eq_true _ ▸ htmp)
    exact hf.1.committed_of_tmp (by simpa using hnone)
  apply Triple.ite
  · rintro rfl
    refine Triple.bind (Q := fun ok f => if ok then ∃ n, Aside n f else Intact f) ?_ fun ok => ?_
    · apply Triple.step
      rintro f ⟨hf, -⟩
      obtain ⟨n, hdb⟩ := hf.2.2
      split
      · exact ⟨⟨n, hdb⟩, Aside.intact (n := n) hdb⟩
      · exact ⟨hf.intact, hf.intact⟩
    · apply Triple.ite
      · rintro rfl
        apply Triple.exists_pre (fun f hf => hf)
        exact fun n => exportAndCommit_triple hplain hexports
      · intro hok
        exact Triple.pure fun f hf => by simpa [hok] using hf
  · -- a committed backup is there
    intro hdb f hf
    obtain ⟨⟨-, -, n, hsome⟩, hnone⟩ := hf
    rw [hsome] at hnone
    exact absurd hnone.symm hdb

theorem backup_triple (hexports : c.Exports st) :
    Triple Intact Intact (c.backup st) fun _ => Intact := by
  apply Triple.ite
  · exact fun _ => Triple.pure fun f hf => hf
  intro _
  apply Triple.ite
  · intro hslave
    rw [Exports, if_pos hslave] at hexports
    simp only [backupSlaveDb, hexports, Bool.false_eq_true, if_false]
    split <;> exact Triple.pure fun f hf => hf
  intro hplain
  rw [Bool.not_eq_true] at hplain
  split
  · exact Triple.pure fun f hf => hf
  refine Triple.bind (Q := fun wal f => Intact f ∧ f.wal = wal)
    (Triple.look fun f hf => ⟨hf, rfl⟩) fun wal => ?_
  apply Triple.ite
  · rintro rfl
    apply Triple.exists_pre (fun f hf => Intact.aside_of_wal hf.1 hf.2)
    intro n
    refine Triple.bind (deleteDirtyFiles_triple.conseq (fun _ h => h.intact) (fun _ h => h)
      fun _ _ h => h) fun res => ?_
    apply Triple.ite
    · exact fun _ => (moveAsideAndExport_triple hplain hexports).conseq (fun _ h => h)
        (fun _ h => h.1.intact) fun _ _ h => h
    · exact fun _ => Triple.pure fun f hf => hf.1.intact
  · exact fun _ => (moveAsideAndExport_triple hplain hexports).conseq (fun _ h => h)
      (fun _ h => h.1) fun _ _ h => h

end BackupCall

def BackupCall.smooth (id : Nat) : BackupCall :=
  let run : SqlRun := ⟨none, true, true, true⟩
  let removals : DirtyRemovals := ⟨true, true, true⟩
  { id, emptyPath := false, getDataBasePath := none, isSlaveDbName := false,
    slaveAtPath := false, firstDirty := removals, deletesDb := true, renamesAside := true,
    conn := none, setDefaultEncryptAlgo := none, attach := run, prepareJournalMode := none,
    journalMode := run, prepareExport := none, exportDatabase := run, prepareDetach := none,
    detach := run, walAfterClose := false, shmAfterClose := false, connBackup := run, lastDirty :=
    removals, renamesBack := true, deletesTmp := true }

def BackupStore.plain : BackupStore := ⟨false, false, false, false, true⟩

end RelationalStore
