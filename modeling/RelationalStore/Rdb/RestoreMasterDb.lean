import RelationalStore.Rdb.Errno

/-! # Restoring the database from a backup file

The backup is checked, the files of the database are deleted, and the backup is copied there. -/

namespace RelationalStore

structure OpenAnswers where
  getDbPath : Option RdbError
  checkDbNotExist : Option RdbError
  openDatabase : Option RdbError
  configure : Option RdbError
  integrity : Except RdbError String

def OpenAnswers.innerOpen (a : OpenAnswers) : Except RdbError Unit × Option String :=
  match a.getDbPath, a.checkDbNotExist, a.openDatabase, a.configure with
  | some err, _, _, _ => (.error err, none)
  | none, some err, _, _ => (.error err, none)
  | none, none, some err, _ => (.error err, none)
  | none, none, none, some err => (.error err, none)
  | none, none, none, none =>
    match a.integrity with
    | .error _ => (.ok (), none)
    | .ok answer => (.ok (), if answer = "ok" then none else some answer)

def retryIter (isEncrypt : Bool) (first second : Except RdbError Unit) : Except RdbError Unit :=
  match first with
  | .ok () => .ok ()
  | .error err => if err = .sqliteCorrupt ∧ isEncrypt then second else .error err

inductive FileCopy (D : Type) where
  | sourceUnopened
  | destUnopened
  | written (contents : Option D)
  deriving DecidableEq, Repr

structure RestoreCall (D : Type) where
  isEncrypt : Bool
  isSamePath : Bool
  check : OpenAnswers
  checkAgain : OpenAnswers
  walSize : Nat
  removes : Bool
  removesAgain : Bool
  copy : FileCopy D
  init : Except RdbError Unit
  initAgain : Except RdbError Unit
  rebuild : Except RdbError Unit

structure StoreFiles (D : Type) where
  contents : Option D
  isDeleted : Bool
  deriving DecidableEq, Repr

variable {D : Type}

def StoreFiles.delete (s : StoreFiles D) (removes : Bool) : StoreFiles D :=
  ⟨if removes then none else s.contents, true⟩

namespace RestoreCall

def checkIntegrity (c : RestoreCall D) : Bool :=
  (retryIter c.isEncrypt c.check.innerOpen.1 c.checkAgain.innerOpen.1).isOk

def copyFile (c : RestoreCall D) (s : StoreFiles D) : Bool × StoreFiles D :=
  match c.copy with
  | .sourceUnopened | .destUnopened => (false, s)
  | .written contents => (true, if c.isSamePath then { s with contents } else s)

def restoreMasterDb (c : RestoreCall D) (s : StoreFiles D) : Except RdbError Unit × StoreFiles D :=
  if !c.checkIntegrity then (.error .sqliteCorrupt, s)
  else if c.walSize ≠ 0 then (.error .sqliteCorrupt, s)
  else
    let (copyRet, s) := c.copyFile (s.delete c.removes)
    let (errCode, s) :=
      match retryIter c.isEncrypt c.init c.initAgain with
      | .ok () => (.ok (), s)
      | .error _ => (c.rebuild, s.delete c.removesAgain)
    (if copyRet then errCode else .error .error, s)

/-! ## The conditions, on what the call is answered -/

variable (c : RestoreCall D) (before : Option D)

def verdict : Except RdbError String :=
  if c.check.innerOpen.1.isOk then c.check.integrity else c.checkAgain.integrity

/-- The call comes to delete the store's database. -/
def Deletes : Prop :=
  (c.check.innerOpen.1 = .ok () ∨
    c.check.innerOpen.1 = .error .sqliteCorrupt ∧ c.isEncrypt ∧
      c.checkAgain.innerOpen.1 = .ok ()) ∧ c.walSize = 0

def Inits : Prop :=
  c.init = .ok () ∨
    c.init = .error .sqliteCorrupt ∧ c.isEncrypt ∧ c.initAgain = .ok ()

/-- Everything after the deletion succeeds, if only with an empty database. -/
def Recovers : Prop :=
  (∃ contents, c.copy = .written contents) ∧ (c.Inits ∨ c.rebuild = .ok ())

def Spares : Prop :=
  (¬ c.Inits → c.removesAgain → before = none) ∧
    (c.Inits ∨ c.removesAgain = false →
      match c.isSamePath, c.copy with
      | true, .written contents => contents = before
      | _, _ => c.removes → before = none)

end RestoreCall

theorem retryIter_eq_ok :
    retryIter isEncrypt first second = .ok () ↔
      first = .ok () ∨ first = .error .sqliteCorrupt ∧ isEncrypt ∧ second = .ok () := by
  unfold retryIter
  cases first with
  | ok => simp
  | error err =>
    dsimp only
    split
    next h => simp [h]
    next h => simpa using fun herr he => absurd ⟨herr, he⟩ h

namespace RestoreCall
variable {c : RestoreCall D} {s : StoreFiles D}

theorem deletes_iff : c.Deletes ↔ c.checkIntegrity ∧ c.walSize = 0 := by
  unfold Deletes checkIntegrity
  rw [← retryIter_eq_ok]
  cases retryIter c.isEncrypt c.check.innerOpen.1 c.checkAgain.innerOpen.1 <;>
    simp [Except.isOk, Except.toBool]

theorem restoreMasterDb_of_not_deletes (h : ¬ c.Deletes) :
    c.restoreMasterDb s = (.error .sqliteCorrupt, s) := by
  rw [deletes_iff, not_and] at h
  unfold restoreMasterDb
  split
  · rfl
  next hcheck => rw [if_pos (h (by simpa using hcheck))]

theorem restoreMasterDb_fst (h : c.Deletes) :
    (∃ err, (c.restoreMasterDb s).1 = .error err) ↔ ¬ c.Recovers := by
  obtain ⟨hcheck, hwal⟩ := deletes_iff.mp h
  unfold restoreMasterDb copyFile Recovers Inits
  rw [← retryIter_eq_ok]
  simp only [hcheck, hwal, Bool.not_true, Bool.false_eq_true, ↓reduceIte, ne_eq, not_true]
  cases c.copy with
  | sourceUnopened | destUnopened => simp
  | written contents =>
    cases retryIter c.isEncrypt c.init c.initAgain with
    | ok => simp
    | error err => cases c.rebuild <;> simp

theorem restoreMasterDb_contents (h : c.Deletes) :
    (c.restoreMasterDb s).2.contents = s.contents ↔ c.Spares s.contents := by
  obtain ⟨hcheck, hwal⟩ := deletes_iff.mp h
  unfold restoreMasterDb copyFile Spares Inits StoreFiles.delete
  rw [← retryIter_eq_ok]
  simp only [hcheck, hwal, Bool.not_true, Bool.false_eq_true, ↓reduceIte, ne_eq, not_true]
  cases retryIter c.isEncrypt c.init c.initAgain <;> cases c.copy <;> cases c.isSamePath <;>
    cases c.removes <;> cases c.removesAgain <;> simp [eq_comm]

theorem restoreMasterDb_isDeleted (h : c.Deletes) : (c.restoreMasterDb s).2.isDeleted := by
  obtain ⟨hcheck, hwal⟩ := deletes_iff.mp h
  unfold restoreMasterDb copyFile StoreFiles.delete
  simp only [hcheck, hwal, Bool.not_true, Bool.false_eq_true, ↓reduceIte, ne_eq, not_true]
  cases retryIter c.isEncrypt c.init c.initAgain <;> cases c.copy <;> cases c.isSamePath <;> rfl

theorem restoreMasterDb_iff (c : RestoreCall D) (before : Option D) :
    (((c.restoreMasterDb ⟨before, false⟩).2.isDeleted → c.verdict = .ok "ok") ↔
      (c.Deletes → c.verdict = .ok "ok")) ∧
    ((∀ err, (c.restoreMasterDb ⟨before, false⟩).1 = .error err →
        (c.restoreMasterDb ⟨before, false⟩).2.contents = before) ↔
      (c.Deletes → c.Recovers ∨ c.Spares before)) := by
  by_cases h : c.Deletes
  · refine ⟨by simp [h, restoreMasterDb_isDeleted h], ?_⟩
    simp only [h, true_imp_iff]
    rw [Classical.or_iff_not_imp_left, ← restoreMasterDb_fst h, forall_exists_index]
    exact forall_congr' fun err => imp_congr_right fun _ => restoreMasterDb_contents h
  · simp [h, restoreMasterDb_of_not_deletes h]

def smooth (answer : String) (contents : D) : RestoreCall D where
  isEncrypt := false
  isSamePath := true
  check := ⟨none, none, none, none, .ok answer⟩
  checkAgain := ⟨none, none, none, none, .ok answer⟩
  walSize := 0
  removes := true
  removesAgain := true
  copy := .written (some contents)
  init := .ok ()
  initAgain := .ok ()
  rebuild := .ok ()

theorem not_restoreMasterDb_safe :
    (smooth "row 3 missing from index" 2).restoreMasterDb ⟨some 1, false⟩ =
        (.ok (), ⟨some 2, true⟩) ∧
      (smooth "row 3 missing from index" 2).verdict ≠ .ok "ok" ∧
    restoreMasterDb { smooth "ok" 2 with copy := .destUnopened } ⟨some 1, false⟩ =
      (.error .error, ⟨none, true⟩) :=
  ⟨rfl, by simp [verdict, smooth, OpenAnswers.innerOpen, Except.isOk, Except.toBool], rfl⟩

end RestoreCall

end RelationalStore
