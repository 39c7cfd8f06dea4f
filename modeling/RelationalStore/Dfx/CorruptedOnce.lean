import RelationalStore.Theory.Run

/-! # Reports of corrupted databases

That a corruption has been reported is kept in a file and in one flag for all databases. -/

namespace RelationalStore.RdbFaultHiViewReporter

open RdbFaultHiViewReporter

def DB_CORRUPTED_POSTFIX : String := ".corruptedflg"

structure CorruptionFlags where
  exists_ : String → Bool := fun _ => false
  memCorruptReportedFlg : Bool := false

variable (s : CorruptionFlags)

def isReportCorruptedFault (dbPath : String) : Bool :=
  if dbPath = "" ∨ s.memCorruptReportedFlg then false
  else if s.exists_ (dbPath ++ DB_CORRUPTED_POSTFIX) then false
  else true

def createCorruptedFlag (dbPath : String) : CorruptionFlags :=
  if dbPath = "" then { s with memCorruptReportedFlg := true }
  else
    { exists_ := Function.update s.exists_ (dbPath ++ DB_CORRUPTED_POSTFIX) true
      memCorruptReportedFlg := true }

def deleteCorruptedFlag (dbPath : String) : CorruptionFlags :=
  if dbPath = "" then s
  else { s with exists_ := Function.update s.exists_ (dbPath ++ DB_CORRUPTED_POSTFIX) false }

def reportCorruptedOnce (dbPath : String) : Bool × CorruptionFlags :=
  if isReportCorruptedFault s dbPath then (true, createCorruptedFlag s dbPath) else (false, s)

def reportRestore (dbPath : String) (repair : Bool) :
    Bool × CorruptionFlags :=
  if isReportCorruptedFault s dbPath ∧ repair then (false, s)
  else (true, { deleteCorruptedFlag s dbPath with memCorruptReportedFlg := false })

inductive CorruptionCall where
  | reportCorruptedOnce (dbPath : String)
  | reportRestore (dbPath : String) (repair : Bool)
  | restart

def CorruptionFlags.call : CorruptionCall → Bool × CorruptionFlags
  | .reportCorruptedOnce dbPath => reportCorruptedOnce s dbPath
  | .reportRestore dbPath repair => reportRestore s dbPath repair
  | .restart => (false, { s with memCorruptReportedFlg := false })

/-! ## The account of the calls -/

structure CorruptionAccount where
  reported : String → Bool := fun _ => false
  recent : Bool := false

def CorruptionAccount.next (a : CorruptionAccount) : CorruptionCall → CorruptionAccount
  | .reportCorruptedOnce dbPath =>
    if a.reported dbPath ∨ dbPath = "" then a
    else { reported := Function.update a.reported dbPath true, recent := true }
  | .reportRestore dbPath _ =>
    { reported := Function.update a.reported dbPath false, recent := false }
  | .restart => { a with recent := false }

def accountedReport (s : CorruptionFlags × CorruptionAccount) (c : CorruptionCall) :
    Bool × (CorruptionFlags × CorruptionAccount) :=
  ((s.1.call c).1, ((s.1.call c).2, s.2.next c))

/-- A report writes the event just when its database has not been reported since it was last
restored. -/
def ReportedOnce
    (t : Transition (CorruptionFlags × CorruptionAccount) CorruptionCall Bool) : Prop :=
  ∀ dbPath, t.call = .reportCorruptedOnce dbPath → dbPath ≠ "" →
    t.ret = !t.pre.2.reported dbPath

/-- A report that is due follows a restart or a restore, with no other due report between. -/
def DueAlone (s : CorruptionFlags × CorruptionAccount) (c : CorruptionCall) : Prop :=
  ∀ dbPath, c = .reportCorruptedOnce dbPath → dbPath ≠ "" → s.2.reported dbPath = false →
    s.2.recent = false

structure FlagsAgree (s : CorruptionFlags × CorruptionAccount) : Prop where
  file : ∀ dbPath, dbPath ≠ "" → s.1.exists_ (dbPath ++ DB_CORRUPTED_POSTFIX) = s.2.reported dbPath
  mem : s.1.memCorruptReportedFlg = s.2.recent

section
variable {s : CorruptionFlags × CorruptionAccount} {dbPath : String}

theorem FlagsAgree.isReport (h : FlagsAgree s) (hpath : dbPath ≠ "") :
    isReportCorruptedFault s.1 dbPath = (!s.2.recent && !s.2.reported dbPath) := by
  rw [isReportCorruptedFault, h.mem, h.file dbPath hpath]
  cases s.2.recent <;> cases s.2.reported dbPath <;> simp [hpath]

theorem FlagsAgree.update (h : FlagsAgree s) (hpath : dbPath ≠ "") (b m : Bool) :
    FlagsAgree (⟨Function.update s.1.exists_ (dbPath ++ DB_CORRUPTED_POSTFIX) b, m⟩,
      ⟨Function.update s.2.reported dbPath b, m⟩) := by
  refine ⟨fun other hother => ?_, rfl⟩
  dsimp only
  by_cases heq : other = dbPath
  · subst heq
    rw [Function.update_self, Function.update_self]
  · have hfile : other ++ DB_CORRUPTED_POSTFIX ≠ dbPath ++ DB_CORRUPTED_POSTFIX :=
      fun h => heq (String.append_left_inj _ |>.mp h)
    rw [Function.update_of_ne hfile, Function.update_of_ne heq]
    exact h.file other hother

theorem FlagsAgree.next (h : FlagsAgree s) (c : CorruptionCall) (hdue : DueAlone s c) :
    FlagsAgree (accountedReport s c).2 := by
  cases c with
  | reportCorruptedOnce dbPath =>
    by_cases hpath : dbPath = ""
    · subst hpath
      have hfalse : isReportCorruptedFault s.1 "" = false := if_pos (.inl rfl)
      simpa [accountedReport, CorruptionFlags.call, CorruptionAccount.next,
        reportCorruptedOnce, hfalse] using h
    · cases hreported : s.2.reported dbPath with
      | true =>
        simpa [accountedReport, CorruptionFlags.call, CorruptionAccount.next,
          reportCorruptedOnce, h.isReport hpath, hreported] using h
      | false =>
        have hrecent := hdue dbPath rfl hpath hreported
        simpa [accountedReport, CorruptionFlags.call, CorruptionAccount.next,
          reportCorruptedOnce, h.isReport hpath, hreported, hrecent, hpath,
          createCorruptedFlag] using h.update hpath true true
  | reportRestore dbPath repair =>
    by_cases hpath : dbPath = ""
    · subst hpath
      have hfalse : isReportCorruptedFault s.1 "" = false := if_pos (.inl rfl)
      simp only [accountedReport, CorruptionFlags.call, CorruptionAccount.next,
        reportRestore, hfalse, deleteCorruptedFlag, Bool.false_eq_true,
        false_and, if_false, if_true]
      refine ⟨fun other hother => ?_, rfl⟩
      exact (h.file other hother).trans (Function.update_of_ne hother ..).symm
    · have hfresh := h.update hpath false false
      by_cases hskip : isReportCorruptedFault s.1 dbPath ∧ repair
      · -- A repair of a database with no flag: the account changes as little as the flags.
        have hclear := hskip.1
        rw [h.isReport hpath, Bool.and_eq_true, Bool.not_eq_true', Bool.not_eq_true'] at hclear
        have hfile := (h.file dbPath hpath).trans hclear.2
        have hmem := h.mem.trans hclear.1
        rw [Function.update_eq_self_iff.mpr hfile.symm] at hfresh
        simp only [accountedReport, CorruptionFlags.call, CorruptionAccount.next,
          reportRestore, if_pos hskip]
        exact ⟨hfresh.file, hmem⟩
      · simpa only [accountedReport, CorruptionFlags.call, CorruptionAccount.next,
          reportRestore, if_neg hskip, deleteCorruptedFlag, if_neg hpath]
          using hfresh
  | restart => exact ⟨h.file, rfl⟩

theorem FlagsAgree.reportedOnce_iff (h : FlagsAgree s) (c : CorruptionCall) :
    ReportedOnce (transition accountedReport s c) ↔ DueAlone s c := by
  refine forall_congr' fun dbPath => imp_congr_right fun hcall => imp_congr_right fun hpath => ?_
  subst hcall
  have hret : (transition accountedReport s (.reportCorruptedOnce dbPath)).ret =
      (!s.2.recent && !s.2.reported dbPath) := by
    rw [← h.isReport hpath]
    change (reportCorruptedOnce s.1 dbPath).1 = _
    rw [reportCorruptedOnce]
    split
    · rename_i hreport; exact hreport.symm
    · rename_i hreport; exact (Bool.eq_false_iff.mpr hreport).symm
  rw [hret]
  change (_ = !s.2.reported dbPath) ↔ _
  cases s.2.recent <;> cases s.2.reported dbPath <;> simp

end

theorem reportedOnce_run_iff (calls : List CorruptionCall) :
    (∀ t ∈ trace accountedReport ({}, {}) calls, ReportedOnce t) ↔
      ∀ t ∈ trace accountedReport ({}, {}) calls, DueAlone t.pre t.call :=
  trace_forall_iff (I := FlagsAgree) (fun _ c h hdue => h.next c hdue)
    (fun _ c h => h.reportedOnce_iff c) ⟨fun _ _ => rfl, rfl⟩

theorem reportedOnce_second_database :
    ¬ ∀ t ∈ trace accountedReport ({}, {})
      [.reportCorruptedOnce "/data/a.db", .reportCorruptedOnce "/data/b.db"], ReportedOnce t := by
  intro h
  have hsecond := h _ (List.mem_cons_of_mem _ List.mem_cons_self) "/data/b.db" rfl (by decide)
  exact absurd hsecond (by decide)

end RelationalStore.RdbFaultHiViewReporter
