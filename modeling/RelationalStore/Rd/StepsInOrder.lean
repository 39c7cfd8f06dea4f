import RelationalStore.Rd.RdStatement

/-! # The steps of a SELECT

The position of the engine follows the steps of the caller, apart from the step in advance. -/

namespace RelationalStore

variable {A V : Type}

namespace RdStatement

inductive Stands (s : RdStatement A) (pos n : Nat) : Nat → Prop where
  | ahead : s.isStepInPrepare → s.stepCnt = 1 → pos = 1 → 1 ≤ n → Stands s pos n 0
  | level {k : Nat} : (s.isStepInPrepare → 2 ≤ s.stepCnt) → pos = k → Stands s pos n k
  | past {k : Nat} : (s.isStepInPrepare → 2 ≤ s.stepCnt) → n ≤ k → n ≤ pos →
    Stands s pos n k

/-- What a call leaves as it is: the text, and the statement of the engine up to its arguments and
its position. The engine runs nothing else. -/
structure Keeps (s : RdStatement A) (h : EngineStmt A) (res : List String × RdStatement A) :
    Prop where
  ran : ∀ sql ∈ res.1, sql = h.sql
  sql : res.2.sql = s.sql
  readOnly : res.2.readOnly = s.readOnly
  stmtHandle : ∃ pos, res.2.stmtHandle = some { h with pos }

def StandsAfter (rows : String → List A → List (List V)) (k : Nat) (s : RdStatement A)
    (h : EngineStmt A) : Prop :=
  ∃ pos, s.stmtHandle = some { h with pos } ∧ Stands s pos (rows h.sql h.args).length k

section
variable {rows : String → List A → List (List V)} {s : RdStatement A} {h : EngineStmt A}
  {fail : Option EngineError} {o : BindAnswers} {args : List A} {k : Nat}

theorem Keeps.trans (hres : Keeps s h res) (hres' : Keeps res.2 { h with pos } res') :
    Keeps s h (res.1 ++ res'.1, res'.2) where
  ran := List.forall_mem_append.mpr ⟨hres.ran, hres'.ran⟩
  sql := hres'.sql.trans hres.sql
  readOnly := hres'.readOnly.trans hres.readOnly
  stmtHandle := hres'.stmtHandle

/-! `Step` and `Reset`. -/

theorem step_columnCount : (s.step rows fail).2.2.columnCount = s.columnCount := by
  unfold step
  repeat' split
  all_goals rfl

theorem reset_columnCount : (s.reset fail).2.columnCount = s.columnCount := by
  unfold reset
  split <;> rfl

theorem step_of_none (hs : s.stmtHandle = none) : s.step rows fail = (.ok (), [], s) := by
  rw [step, hs]

theorem step_keeps (hs : s.stmtHandle = some h) : Keeps s h (s.step rows fail).2 := by
  rw [step, hs]
  dsimp only
  split
  · exact ⟨by simp, rfl, rfl, h.pos, rfl⟩
  · refine ⟨by simp, rfl, rfl, ?_⟩
    rcases h.step_cases rows fail with ⟨e, _, he⟩ | ⟨_, he⟩ | ⟨_, he⟩ <;> rw [he] <;>
      exact ⟨_, rfl⟩

theorem step_of_counted (hs : s.stmtHandle = some h)
    (hcnt : ¬ (s.isStepInPrepare ∧ s.stepCnt = 1)) :
    s.step rows fail = ((h.step rows fail).1, [h.sql],
      { s with stmtHandle := some (h.step rows fail).2, stepCnt := s.stepCnt + 1 }) := by
  rw [step, hs]
  exact if_neg hcnt

theorem step_stands (fail : Option EngineError) (hs : s.stmtHandle = some h)
    (hk : Stands s h.pos (rows h.sql h.args).length k) :
    (∃ e, fail = some e ∧ (s.step rows fail).1 = .error e.code) ∨
    (StandsAfter rows (k + 1) (s.step rows fail).2.2 h ∧
      (((s.step rows fail).1 = .ok () ∧ k < (rows h.sql h.args).length ∧
          (s.step rows fail).2.2.stmtHandle = some { h with pos := k + 1 }) ∨
        ((s.step rows fail).1 = .error .noMoreRows ∧ (rows h.sql h.args).length ≤ k))) := by
  have hnext (hcnt : s.isStepInPrepare → 2 ≤ s.stepCnt) (hin : s.isStepInPrepare) :
      2 ≤ s.stepCnt + 1 := Nat.le_succ_of_le (hcnt hin)
  have hnot (hcnt : s.isStepInPrepare → 2 ≤ s.stepCnt) :
      ¬ (s.isStepInPrepare ∧ s.stepCnt = 1) := fun hin => by
    have := hcnt hin.1
    omega
  cases hk with
  | ahead hin hcnt hpos hle =>
    rw [step, hs]
    dsimp only
    rw [if_pos ⟨hin, hcnt⟩]
    have heq : some h = some { h with pos := 0 + 1 } := by
      rw [Nat.zero_add, ← hpos]
    exact .inr ⟨⟨h.pos, rfl, .level (fun _ => by dsimp only; omega) hpos⟩, .inl ⟨rfl, hle, heq⟩⟩
  | level hcnt hpos =>
    subst hpos
    rw [step_of_counted hs (hnot hcnt)]
    rcases h.step_cases rows fail with ⟨e, he, hstep⟩ | ⟨hlt, hstep⟩ | ⟨hle, hstep⟩ <;> rw [hstep]
    · exact .inl ⟨e, he, rfl⟩
    · exact .inr ⟨⟨_, rfl, .level (hnext hcnt) rfl⟩, .inl ⟨rfl, hlt, rfl⟩⟩
    · exact .inr ⟨⟨_, rfl, .past (hnext hcnt) (by omega) (Nat.le_succ _)⟩, .inr ⟨rfl, hle⟩⟩
  | past hcnt hle hpos =>
    rw [step_of_counted hs (hnot hcnt)]
    rcases h.step_cases rows fail with ⟨e, he, hstep⟩ | ⟨hlt, _⟩ | ⟨_, hstep⟩
    · exact .inl ⟨e, he, by rw [hstep]⟩
    · omega
    · rw [hstep]
      exact .inr ⟨⟨_, rfl, .past (hnext hcnt) (by omega) (Nat.le_succ _)⟩, .inr ⟨rfl, hle⟩⟩

theorem reset_keeps (hs : s.stmtHandle = some h) : Keeps s h ([], (s.reset fail).2) := by
  rw [reset, hs]
  refine ⟨by simp, rfl, rfl, ?_⟩
  cases fail <;> exact ⟨_, rfl⟩

theorem reset_stands (hs : s.stmtHandle = some h) :
    (∃ e, fail = some e ∧ (s.reset fail).1 = .error e.code) ∨
    ((s.reset fail).1 = .ok () ∧ StandsAfter rows 0 (s.reset fail).2 h) := by
  rw [reset, hs]
  cases fail with
  | some e => exact .inl ⟨e, rfl, rfl⟩
  | none => exact .inr ⟨rfl, 0, rfl, .level nofun rfl⟩

/-! `Bind`. -/

theorem preGetColCount_of_none (hs : s.stmtHandle = none) :
    (s.preGetColCount rows o).1 = .ok () ∧ (s.preGetColCount rows o).2.1 = [] ∧
      (s.preGetColCount rows o).2.2.stmtHandle = none ∧
      (s.preGetColCount rows o).2.2.sql = s.sql := by
  unfold preGetColCount
  split
  · rw [step_of_none (by exact hs)]
    exact ⟨rfl, rfl, hs, rfl⟩
  · exact ⟨rfl, rfl, hs, rfl⟩

theorem preGetColCount_keeps (hs : s.stmtHandle = some h) :
    Keeps s h (s.preGetColCount rows o).2 := by
  unfold preGetColCount
  split
  · have hstep : Keeps { s with isStepInPrepare := true } h
      (step rows { s with isStepInPrepare := true } o.rdSqlStep).2 := step_keeps hs
    generalize step rows { s with isStepInPrepare := true } o.rdSqlStep = res at hstep
    obtain ⟨ret | ⟨⟩, ran, s'⟩ := res
    · dsimp only
      split
      · obtain ⟨pos, hpos⟩ := hstep.stmtHandle
        have hreset : Keeps { s' with columnCount := o.rdSqlColCnt } { h with pos }
          ([], (reset { s' with columnCount := o.rdSqlColCnt } o.resetAfterStep).2) :=
          reset_keeps hpos
        exact ⟨hstep.ran, hreset.sql.trans hstep.sql, hreset.readOnly.trans hstep.readOnly,
          hreset.stmtHandle⟩
      · exact ⟨hstep.ran, hstep.sql, hstep.readOnly, hstep.stmtHandle⟩
    · exact ⟨hstep.ran, hstep.sql, hstep.readOnly, hstep.stmtHandle⟩
  · exact ⟨by simp, rfl, rfl, h.pos, hs⟩

theorem preGetColCount_columnCount :
    (s.preGetColCount rows o).2.2.columnCount ∈ [o.rdSqlColCnt, s.columnCount] := by
  unfold preGetColCount
  split
  · have hstep : (step rows { s with isStepInPrepare := true } o.rdSqlStep).2.2.columnCount =
        s.columnCount := step_columnCount
    generalize step rows { s with isStepInPrepare := true } o.rdSqlStep = res at hstep
    obtain ⟨ret | ⟨⟩, ran, s'⟩ := res
    · dsimp only
      split
      · simp [reset_columnCount]
      · simp [show s'.columnCount = _ from hstep]
    · simp
  · simp

theorem preGetColCount_stands (hs : s.stmtHandle = some h) (hpos : h.pos = 0)
    (hread : s.readOnly)
    (hcnt : if s.isStepInPrepare then 2 ≤ s.stepCnt else s.stepCnt ≤ 1) :
    (∃ e : EngineError, (s.preGetColCount rows o).1 = .error e.code) ∨
    ((s.preGetColCount rows o).1 = .ok () ∧
      StandsAfter rows 0 (s.preGetColCount rows o).2.2 h) := by
  unfold preGetColCount
  cases hin : s.isStepInPrepare with
  | true =>
    rw [if_neg (by simp)]
    rw [if_pos hin] at hcnt
    exact .inr ⟨rfl, h.pos, hs, .level (fun _ => hcnt) hpos⟩
  | false =>
    rw [if_neg (by simp [hin])] at hcnt
    rw [if_pos ⟨rfl, hread⟩]
    rcases Nat.le_one_iff_eq_zero_or_eq_one.mp hcnt with hzero | hone
    · rw [step_of_counted (s := { s with isStepInPrepare := true }) hs (by simp [hzero])]
      rcases h.step_cases rows o.rdSqlStep with ⟨e, he, hstep⟩ | ⟨hlt, hstep⟩ | ⟨hle, hstep⟩ <;>
        rw [hstep]
      · exact .inl ⟨e, by dsimp only; rw [if_neg e.ne_noMoreRows]⟩
      · refine .inr ⟨rfl, h.pos + 1, rfl, .ahead rfl ?_ ?_ ?_⟩
        · exact congrArg (· + 1) hzero
        · exact congrArg (· + 1) hpos
        · exact Nat.lt_of_le_of_lt (Nat.zero_le _) hlt
      · -- the engine has no row, and stays behind the last one if it cannot be set back
        dsimp only
        rw [if_pos rfl]
        refine .inr ⟨rfl, ?_⟩
        cases o.resetAfterStep with
        | none => exact ⟨0, rfl, .level nofun rfl⟩
        | some e => exact ⟨_, rfl, .past nofun (hpos ▸ hle) (Nat.le_succ _)⟩
    · -- the step of the engine is itself passed over
      rw [step, hs]
      dsimp only
      rw [if_pos ⟨rfl, hone⟩]
      exact .inr ⟨rfl, h.pos, rfl, .level (fun _ => by dsimp only; omega) hpos⟩

theorem bind_cases (rows : String → List A → List (List V)) (s : RdStatement A) (args : List A)
    (o : BindAnswers) :
    (∃ e : EngineError, s.bind rows args o = (.error e.code, [], s.bindArgs args o)) ∨
      s.bind rows args o = (s.bindArgs args o).preGetColCount rows o := by
  unfold bind
  split
  · split
    · exact .inl ⟨_, rfl⟩
    · exact .inr rfl
  · exact .inr rfl

theorem bindArgs_of_some (args : List A) (o : BindAnswers) (hs : s.stmtHandle = some h) :
    ∃ pos, (s.bindArgs args o).stmtHandle = some { h.bind (o.taken args) with pos } ∧
      (h.pos = 0 ∨ (s.bound ∧ o.rdSqlReset = none) → pos = 0) := by
  rw [bindArgs, hs]
  cases s.bound with
  | false => exact ⟨h.pos, rfl, by simp⟩
  | true =>
    cases o.rdSqlReset with
    | none => exact ⟨0, rfl, fun _ => rfl⟩
    | some e => exact ⟨h.pos, rfl, by simp⟩

theorem bind_of_none (hs : s.stmtHandle = none) :
    (s.bind rows args o).2.1 = [] ∧ (s.bind rows args o).2.2.stmtHandle = none ∧
      (s.bind rows args o).2.2.sql = s.sql := by
  have hargs : (s.bindArgs args o).stmtHandle = none := by
    simp [bindArgs, hs]
  rcases bind_cases rows s args o with ⟨e, he⟩ | he <;> rw [he]
  · exact ⟨rfl, hargs, rfl⟩
  · exact (preGetColCount_of_none hargs).2

theorem bind_keeps (hs : s.stmtHandle = some h) :
    Keeps s (h.bind (o.taken args)) (s.bind rows args o).2 := by
  obtain ⟨pos, hargs, _⟩ := bindArgs_of_some args o hs
  rcases bind_cases rows s args o with ⟨e, he⟩ | he <;> rw [he]
  · exact ⟨by simp, rfl, rfl, pos, hargs⟩
  · have hpre : Keeps (s.bindArgs args o) { h.bind (o.taken args) with pos }
      ((s.bindArgs args o).preGetColCount rows o).2 := preGetColCount_keeps hargs
    exact ⟨hpre.ran, hpre.sql, hpre.readOnly, hpre.stmtHandle⟩

theorem bind_columnCount :
    (s.bind rows args o).2.2.columnCount ∈ [o.rdSqlColCnt, s.columnCount] := by
  rcases bind_cases rows s args o with ⟨e, he⟩ | he <;> rw [he]
  · simp [bindArgs]
  · exact preGetColCount_columnCount

theorem bind_stands (hs : s.stmtHandle = some h) (hread : s.readOnly) (hready : s.Ready o) :
    (∃ e : EngineError, (s.bind rows args o).1 = .error e.code) ∨
    ((s.bind rows args o).1 = .ok () ∧
      StandsAfter rows 0 (s.bind rows args o).2.2 (h.bind (o.taken args))) := by
  obtain ⟨hpos, hcnt⟩ := hready h hs hread
  obtain ⟨pos, hargs, hzero⟩ := bindArgs_of_some args o hs
  rcases bind_cases rows s args o with ⟨e, he⟩ | he <;> rw [he]
  · exact .inl ⟨e, rfl⟩
  · exact preGetColCount_stands (h := { h.bind (o.taken args) with pos }) hargs (hzero hpos) hread
      hcnt

theorem bindAndStep_of_none (hs : s.stmtHandle = none) :
    (s.bindAndStep rows args o fail).2.1 = [] ∧
      (s.bindAndStep rows args o fail).2.2.stmtHandle = none ∧
      (s.bindAndStep rows args o fail).2.2.sql = s.sql := by
  have hbind : (s.bind rows args o).2.1 = [] ∧ (s.bind rows args o).2.2.stmtHandle = none ∧
      (s.bind rows args o).2.2.sql = s.sql := bind_of_none hs
  unfold bindAndStep
  generalize s.bind rows args o = res at hbind
  obtain ⟨ret | ⟨⟩, ran, s'⟩ := res
  · exact hbind
  · obtain ⟨hran, hhandle, hsql⟩ := hbind
    dsimp only
    rw [step_of_none hhandle]
    exact ⟨by simpa using hran, hhandle, hsql⟩

theorem bindAndStep_keeps (hs : s.stmtHandle = some h) :
    Keeps s (h.bind (o.taken args)) (s.bindAndStep rows args o fail).2 := by
  have hbind : Keeps s (h.bind (o.taken args)) (s.bind rows args o).2 := bind_keeps hs
  unfold bindAndStep
  generalize s.bind rows args o = res at hbind
  obtain ⟨ret | ⟨⟩, ran, s'⟩ := res
  · exact hbind
  · obtain ⟨pos, hpos⟩ := hbind.stmtHandle
    exact hbind.trans (step_keeps hpos)

theorem bindAndStep_columnCount :
    (s.bindAndStep rows args o fail).2.2.columnCount ∈ [o.rdSqlColCnt, s.columnCount] := by
  have hbind : (s.bind rows args o).2.2.columnCount ∈ [o.rdSqlColCnt, s.columnCount] :=
    bind_columnCount
  unfold bindAndStep
  generalize s.bind rows args o = res at hbind
  obtain ⟨ret | ⟨⟩, ran, s'⟩ := res
  · exact hbind
  · rw [step_columnCount]
    exact hbind

theorem bindAndStep_stands (hs : s.stmtHandle = some h) (hread : s.readOnly)
    (hready : s.Ready o) :
    (∃ e : EngineError, (s.bindAndStep rows args o fail).1 = .error e.code) ∨
    (((s.bindAndStep rows args o fail).1 = .ok () ∨
        (s.bindAndStep rows args o fail).1 = .error .noMoreRows) ∧
      StandsAfter rows 1 (s.bindAndStep rows args o fail).2.2 (h.bind (o.taken args))) := by
  have hbind : (∃ e : EngineError, (s.bind rows args o).1 = .error e.code) ∨
      ((s.bind rows args o).1 = .ok () ∧
        StandsAfter rows 0 (s.bind rows args o).2.2 (h.bind (o.taken args))) :=
    bind_stands hs hread hready
  unfold bindAndStep
  generalize s.bind rows args o = res at hbind
  obtain ⟨ret | ⟨⟩, ran, s'⟩ := res
  · rcases hbind with ⟨e, he⟩ | ⟨hok, _⟩
    · exact .inl ⟨e, he⟩
    · cases hok
  · rcases hbind with ⟨e, he⟩ | ⟨_, pos, hpos, hstands⟩
    · cases he
    · rcases step_stands fail hpos hstands with ⟨e, _, he⟩ | ⟨hafter, hret⟩
      · exact .inl ⟨e, he⟩
      · exact .inr ⟨hret.imp And.left And.left, hafter⟩

theorem execute_cases (rows : String → List A → List (List V)) (s : RdStatement A) (args : List A)
    (o : BindAnswers) (fail : Option EngineError) :
    (s.readOnly = false ∧ s.execute rows args o fail = (.ok (), [], s)) ∨
      s.execute rows args o fail = s.bindAndStep rows args o fail := by
  unfold execute
  split
  · exact .inl ⟨‹_ ∧ _›.1, rfl⟩
  · exact .inr rfl

theorem executeForValue_cases (rows : String → List A → List (List V)) (s : RdStatement A)
    (args : List A) (o : BindAnswers) (fail : Option EngineError)
    (getVersion : Except RdbError Int) :
    (s.readOnly ∧ s.sql = PRAGMA_VERSION ∧
      (s.executeForValue rows args o fail getVersion).2 = ([], s)) ∨
    ((s.executeForValue rows args o fail getVersion).2 = (s.bindAndStep rows args o fail).2 ∧
      ∀ e : EngineError, (s.bindAndStep rows args o fail).1 = .error e.code →
        (s.executeForValue rows args o fail getVersion).1 = .error e.code) := by
  unfold executeForValue
  split
  · exact .inl ⟨‹_ ∧ _›.1, ‹_ ∧ _›.2, rfl⟩
  · refine .inr ?_
    obtain ⟨err | ⟨⟩, ran, s'⟩ := s.bindAndStep rows args o fail
    · dsimp only
      split
      · subst err
        exact ⟨rfl, fun e he => absurd (Except.error.inj he).symm e.ne_noMoreRows⟩
      · exact ⟨rfl, fun e he => by rw [Except.error.inj he]⟩
    · exact ⟨rfl, nofun⟩

end

/-! ## The account and the statement -/

/-- A statement of the engine is the one that the account tells of. -/
structure Agrees (rows : String → List A → List (List V)) (s : RdStatement A) (g : RdAccount A)
    (h : EngineStmt A) : Prop where
  accepted : g.accepted = some h.sql
  sql : s.sql = h.sql
  readOnly : s.readOnly = isSelect h.sql
  args : isSelect h.sql → g.args = h.args
  columns : isSelect h.sql → s.columnCount ∈ g.columns
  steps : isSelect h.sql → ∀ k, g.steps = some k →
    Stands s h.pos (rows h.sql h.args).length k

inductive Inv (rows : String → List A → List (List V)) (s : RdStatement A) (g : RdAccount A) :
    Prop where
  | closed : s.stmtHandle = none → isSelect s.sql = false →
    (∀ sql, g.accepted = some sql → isSelect sql = false) → Inv rows s g
  | opened (h : EngineStmt A) : s.stmtHandle = some h → Agrees rows s g h → Inv rows s g

theorem counted_engineError (steps : Option Nat) (e : EngineError) :
    counted steps (.error e.code) = none :=
  if_neg (not_or.mpr ⟨e.ne_noMoreRows, e.ne_columnOutRange⟩)

theorem of_counted (h : counted steps ret = some k) : steps = some k := by
  unfold counted at h
  split at h
  · exact h
  · split at h
    · exact h
    · cases h

section
variable {rows : String → List A → List (List V)} {s : RdStatement A} {g g' : RdAccount A}
  {h h' : EngineStmt A} {o : BindAnswers} {args : List A} {fail : Option EngineError}

section
variable (hg : Agrees rows s g h)
include hg

theorem Agrees.inv_of_keeps (hkeeps : Keeps s h' res) (hsql : h'.sql = h.sql)
    (haccepted : g'.accepted = g.accepted) (hargs : isSelect h.sql → g'.args = h'.args)
    (hcolumns : isSelect h.sql → res.2.columnCount ∈ g'.columns)
    (hsteps : isSelect h.sql → ∀ k, g'.steps = some k → StandsAfter rows k res.2 h') :
    Inv rows res.2 g' := by
  obtain ⟨pos, hpos⟩ := hkeeps.stmtHandle
  refine .opened _ hpos ⟨?_, ?_, ?_, ?_, ?_, ?_⟩
  · rw [haccepted, hg.accepted, hsql]
  · rw [hkeeps.sql, hg.sql, hsql]
  · rw [hkeeps.readOnly, hg.readOnly, hsql]
  · exact fun hselect => hargs (hsql ▸ hselect)
  · exact fun hselect => hcolumns (hsql ▸ hselect)
  · intro hselect k hk
    obtain ⟨pos', hpos', hstands⟩ := hsteps (hsql ▸ hselect) k hk
    rw [hpos] at hpos'
    cases hpos'
    exact hstands

theorem Agrees.args_bind {steps : Option Nat} (hselect : isSelect h.sql) :
    (g.bind args o steps).args = (h.bind (o.taken args)).args := by
  rw [RdAccount.bind, EngineStmt.bind, hg.args hselect]

theorem Agrees.columns_bind {steps : Option Nat} {count : Nat}
    (hcount : count ∈ [o.rdSqlColCnt, s.columnCount])
    (hselect : isSelect h.sql) : count ∈ (g.bind args o steps).columns := by
  rcases List.mem_pair.mp hcount with rfl | rfl
  · exact List.mem_cons_self
  · exact List.mem_cons_of_mem _ (hg.columns hselect)

theorem Agrees.inv_bind (hs : s.stmtHandle = some h) (hready : s.Ready o) :
    Inv rows (s.bind rows args o).2.2
      (g.bind args o (counted (some 0) (s.bind rows args o).1)) := by
  refine hg.inv_of_keeps (bind_keeps hs) rfl rfl hg.args_bind (hg.columns_bind bind_columnCount)
    fun hselect k hk => ?_
  cases of_counted hk
  rcases bind_stands hs (hg.readOnly.trans hselect) hready with ⟨e, he⟩ | ⟨_, hstands⟩
  · rw [he, counted_engineError] at hk
    cases hk
  · exact hstands

theorem Agrees.inv_bindAndStep (hs : s.stmtHandle = some h)
    (hready : s.Ready o) {ret : Except RdbError Unit}
    (hret : ∀ e : EngineError, (s.bindAndStep rows args o fail).1 = .error e.code →
      ret = .error e.code) :
    Inv rows (s.bindAndStep rows args o fail).2.2 (g.bind args o (counted (some 1) ret)) := by
  refine hg.inv_of_keeps (bindAndStep_keeps hs) rfl rfl hg.args_bind
    (hg.columns_bind bindAndStep_columnCount) fun hselect k hk => ?_
  cases of_counted hk
  rcases bindAndStep_stands hs (hg.readOnly.trans hselect) hready with ⟨e, he⟩ | ⟨_, hstands⟩
  · rw [hret e he, counted_engineError] at hk
    cases hk
  · exact hstands

theorem Agrees.inv_step (hs : s.stmtHandle = some h) :
    Inv rows (s.step rows fail).2.2
      { g with steps := counted (g.steps.map (· + 1)) (s.step rows fail).1 } := by
  refine hg.inv_of_keeps (step_keeps hs) rfl rfl hg.args
    (by rw [step_columnCount]; exact hg.columns) fun hselect k hk => ?_
  obtain ⟨k, hsteps, rfl⟩ := Option.map_eq_some_iff.mp (of_counted hk)
  rcases step_stands fail hs (hg.steps hselect k hsteps) with ⟨e, _, he⟩ | ⟨hstands, _⟩
  · rw [he, counted_engineError] at hk
    cases hk
  · exact hstands

theorem Agrees.inv_reset (hs : s.stmtHandle = some h) :
    Inv rows (s.reset fail).2 { g with steps := counted (some 0) (s.reset fail).1 } := by
  refine hg.inv_of_keeps (reset_keeps hs) rfl rfl hg.args
    (by rw [reset_columnCount]; exact hg.columns) fun hselect k hk => ?_
  cases of_counted hk
  rcases reset_stands hs with ⟨e, _, he⟩ | ⟨_, hstands⟩
  · rw [he, counted_engineError] at hk
    cases hk
  · exact hstands

end

theorem next_prepare_ok (sql : String) (p : PrepareAnswers) :
    (g.next (.ok ()) (.prepare sql p)).accepted = some sql := by
  simp only [RdAccount.next]
  split
  · assumption
  · rfl

theorem Inv.prepare {sql : String} (hinv : Inv rows s g) (hcareful : s.Careful (.prepare sql p)) :
    Inv rows (s.prepare sql p).2 (g.next (s.prepare sql p).1 (.prepare sql p)) := by
  unfold RdStatement.prepare
  split
  · exact hinv
  split
  · -- the text of a version: there is no engine statement
    rename_i hversion
    have hclosed := hcareful hversion
    have hsql := isSelect_of_isVersionPragma hversion
    have haccepted (text : String)
        (h : (g.next (.ok ()) (.prepare sql p)).accepted = some text) : isSelect text = false := by
      rw [next_prepare_ok] at h
      cases h
      exact hsql
    split
    · exact .closed hclosed hsql haccepted
    split
    · exact hinv
    split
    · refine .closed hclosed hsql fun text h => ?_
      cases hinv with
      | closed _ _ hold => exact hold text h
      | opened h hs _ => rw [hclosed] at hs; cases hs
    · exact .closed hclosed hsql haccepted
  split
  · -- the text that is there already
    rename_i hsame
    cases hinv with
    | closed hs hsql _ =>
      refine .closed hs hsql fun text h => ?_
      rw [next_prepare_ok] at h
      cases h
      rw [← hsame, hsql]
    | opened h hs hg =>
      have haccepted : g.accepted = some sql := by rw [hg.accepted, ← hg.sql, hsame]
      simp only [RdAccount.next, if_pos haccepted]
      exact .opened h hs hg
  split
  · exact hinv
  next hnew _ _ =>
    refine .opened _ rfl ⟨next_prepare_ok sql p, rfl, rfl, ?_, ?_, ?_⟩ <;>
    · intro hselect
      have hother : g.accepted ≠ some sql := fun h => by
        cases hinv with
        | closed _ _ hold => simp [hold sql h] at hselect
        | opened h' _ hg =>
          rw [hg.accepted, ← hg.sql] at h
          exact hnew (Option.some.inj h)
      simp [RdAccount.next, hother]

theorem Inv.closed_call (hs : s.stmtHandle = none) (hinv : Inv rows s g)
    (hc : ∀ sql p, c ≠ .prepare sql p) :
    (s.call rows c).1.ran = [] ∧ Inv rows (s.call rows c).2 (g.next (s.call rows c).1.ret c) := by
  have hkeep {s' : RdStatement A} {g' : RdAccount A} (hs' : s'.stmtHandle = none)
      (hsql : s'.sql = s.sql) (haccepted : g'.accepted = g.accepted) : Inv rows s' g' := by
    cases hinv with
    | closed _ hselect hold => exact .closed hs' (hsql ▸ hselect) (haccepted ▸ hold)
    | opened h hs'' _ => rw [hs] at hs''; cases hs''
  cases c with
  | prepare sql p => exact absurd rfl (hc sql p)
  | bind args o =>
    obtain ⟨hran, hs', hsql⟩ := bind_of_none hs
    exact ⟨hran, hkeep hs' hsql rfl⟩
  | step fail =>
    rw [RdStatement.call, step_of_none hs]
    exact ⟨rfl, hkeep hs rfl rfl⟩
  | reset fail =>
    rw [RdStatement.call, reset, hs]
    exact ⟨rfl, hkeep hs rfl rfl⟩
  | execute args o fail =>
    obtain ⟨hran, hs', hsql⟩ := bindAndStep_of_none hs
    rw [RdStatement.call]
    rcases execute_cases rows s args o fail with ⟨_, he⟩ | he <;> rw [he]
    · exact ⟨rfl, hkeep hs rfl rfl⟩
    · exact ⟨hran, hkeep hs' hsql rfl⟩
  | executeForValue args o fail getVersion =>
    obtain ⟨hran, hs', hsql⟩ := bindAndStep_of_none hs
    rw [RdStatement.call]
    dsimp only
    rcases executeForValue_cases rows s args o fail getVersion with ⟨_, _, he⟩ | ⟨he, _⟩ <;>
      rw [he]
    · exact ⟨rfl, hkeep hs rfl rfl⟩
    · exact ⟨hran, hkeep hs' hsql rfl⟩

theorem Agrees.call (hs : s.stmtHandle = some h) (hg : Agrees rows s g h) (hcareful : s.Careful c)
    (hc : ∀ sql p, c ≠ .prepare sql p) :
    (∀ sql ∈ (s.call rows c).1.ran, sql = h.sql) ∧
      Inv rows (s.call rows c).2 (g.next (s.call rows c).1.ret c) := by
  cases c with
  | prepare sql p => exact absurd rfl (hc sql p)
  | bind args o => exact ⟨(bind_keeps hs).ran, hg.inv_bind hs hcareful⟩
  | step fail => exact ⟨(step_keeps hs).ran, hg.inv_step hs⟩
  | reset fail => exact ⟨nofun, hg.inv_reset hs⟩
  | execute args o fail =>
    rw [RdStatement.call]
    rcases execute_cases rows s args o fail with ⟨hread, he⟩ | he <;> rw [he]
    · have hselect : isSelect h.sql = false := hg.readOnly.symm.trans hread
      exact ⟨nofun, .opened h hs ⟨hg.accepted, hg.sql, hg.readOnly, by simp [hselect],
        by simp [hselect], by simp [hselect]⟩⟩
    · exact ⟨(bindAndStep_keeps hs).ran, hg.inv_bindAndStep hs hcareful fun _ he => he⟩
  | executeForValue args o fail getVersion =>
    rw [RdStatement.call]
    dsimp only
    rcases executeForValue_cases rows s args o fail getVersion with ⟨hread, hsql, _⟩ | ⟨he, hret⟩
    · rw [hg.readOnly, ← hg.sql, hsql] at hread
      exact absurd hread (by decide)
    · rw [he]
      refine ⟨(bindAndStep_keeps hs).ran, hg.inv_bindAndStep hs hcareful fun e herr => ?_⟩
      rw [hret e herr]
      rfl

theorem getColumn_of_pos (hs : s.stmtHandle = some { h with pos := k + 1 })
    (hk : k < (rows h.sql h.args).length) (index : Int) :
    s.getColumn rows index = columnInRange s.columnCount (rows h.sql h.args)[k] index := by
  have hrow : s.row rows = some (rows h.sql h.args)[k] := by
    rw [row, hs, Option.bind_some, EngineStmt.row, if_neg (Nat.succ_ne_zero k)]
    exact List.getElem?_eq_getElem hk
  rw [getColumn, hrow, isValid, if_neg (by simp [hs]), columnInRange]
  split <;> rfl

theorem Agrees.steps_step (hs : s.stmtHandle = some h) (hg : Agrees rows s g h)
    (hselect : isSelect h.sql) (hk : g.steps = some k) :
    Steps (rows h.sql g.args) g.columns ((s.step rows fail).2.2.getColumn rows) k fail
      (s.step rows fail).1 := by
  rw [hg.args hselect]
  rcases step_stands fail hs (hg.steps hselect k hk) with herr | ⟨_, ⟨hok, hlt, hpos⟩ | hend⟩
  · exact .inl herr
  · exact .inr (.inl ⟨hok, hlt, s.columnCount, hg.columns hselect,
      step_columnCount ▸ getColumn_of_pos hpos hlt⟩)
  · exact .inr (.inr hend)

theorem Inv.call (hinv : Inv rows s g) (hcareful : s.Careful c) :
    Inv rows (s.call rows c).2 (g.next (s.call rows c).1.ret c) ∧
      Right rows (transition (accountedCall rows) (s, g) c) := by
  by_cases hc : ∃ sql p, c = .prepare sql p
  · obtain ⟨sql, p, rfl⟩ := hc
    exact ⟨hinv.prepare hcareful, nofun, nofun⟩
  · have hc' : ∀ sql p, c ≠ .prepare sql p := fun sql p h => hc ⟨sql, p, h⟩
    cases hinv with
    | closed hs hsql hold =>
      obtain ⟨hran, hnext⟩ := Inv.closed_call hs (.closed hs hsql hold) hc'
      refine ⟨hnext, ⟨fun sql hmem => ?_, fun fail sql k _ haccepted hselect => ?_⟩⟩
      · change sql ∈ (s.call rows c).1.ran at hmem
        simp [hran] at hmem
      · rw [hold sql haccepted] at hselect
        cases hselect
    | opened h hs hg =>
      obtain ⟨hran, hnext⟩ := hg.call hs hcareful hc'
      refine ⟨hnext, ⟨fun sql hmem => ?_, ?_⟩⟩
      · rw [hran sql hmem]
        exact hg.accepted
      · rintro fail sql k hstep haccepted hselect hk
        obtain rfl : h.sql = sql := Option.some.inj (hg.accepted.symm.trans haccepted)
        cases hstep
        exact hg.steps_step hs hselect hk

end

def rowOfOne (_ : String) (args : List Nat) : List (List Nat) := if args = [1] then [[1, 7]] else []

def selectById : String := "SELECT * FROM t WHERE id = ?"

def prepareSelect : RdCall Nat := .prepare selectById ⟨true, none, none, none, 0⟩

def bindKey (key : Nat) : RdCall Nat := .bind [key] ⟨none, none, none, 2, none⟩

def rowThenEnd : List (RdCall Nat) := [prepareSelect, bindKey 1, .step none, .step none]

end RdStatement

end RelationalStore
