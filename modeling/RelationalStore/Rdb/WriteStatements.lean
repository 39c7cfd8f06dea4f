import RelationalStore.Rdb.Predicates.Bind
import RelationalStore.Rdb.Values.GenerateSqls

/-! # The statements that write

`RdbSqlUtils` and `TransDB` build INSERT, UPDATE and DELETE with the same loops and other errors. -/

namespace RelationalStore

open List AbsPredicates BuilderCall Values
open Values (ValuesBucket onConflictClause getSqlArgs)

inductive StatementArg where
  | column (value : Values.ValueObject)
  | predicate (value : BindValue)
  deriving DecidableEq

structure SqlInfo where
  sql : String
  args : List StatementArg
  deriving DecidableEq

def ON_CONFLICT_CLAUSE : List String :=
  [.none, .rollback, .abort, .fail, .ignore, .replace].map onConflictClause

def ON_CONFLICT_REPLACE : Int := 5

def getConflictClause (conflictResolution : Int) : Option String :=
  if conflictResolution < 0 ∨ conflictResolution ≥ ON_CONFLICT_CLAUSE.length then none
  else ON_CONFLICT_CLAUSE[conflictResolution.toNat]?

def isAsset : Values.ValueObject → Bool
  | .asset _ => true
  | _ => false

def isAssets : Values.ValueObject → Bool
  | .assets _ => true
  | _ => false

/-! ## The loops -/

def insertLoop (resolution : Int) :
    List (String × Values.ValueObject) → String → SqlInfo → Option SqlInfo
  | [], _, info => some info
  | (key, val) :: row, split, info =>
    if isAssets val ∧ resolution = ON_CONFLICT_REPLACE then none
    else
      insertLoop resolution row ","
        ⟨info.sql ++ split ++ key,
          info.args ++ [.column (val.updateAssetStatus AssetValue.statusInsert)]⟩

def setColumn (key : String) (val : Values.ValueObject) : String :=
  if isAssets val then key ++ "=merge_assets(" ++ key ++ ", ?)"
  else if isAsset val then key ++ "=merge_asset(" ++ key ++ ", ?)"
  else key ++ "=?"

def updateLoop : List (String × Values.ValueObject) → String → SqlInfo → SqlInfo
  | [], _, info => info
  | (key, val) :: row, split, info =>
    updateLoop row "," ⟨info.sql ++ split ++ setColumn key val, info.args ++ [.column val]⟩

def appendWhere (sql : String) (whereClause : String) : String :=
  if whereClause = "" then sql else sql ++ " WHERE " ++ whereClause

def insertInfo (clause table : String) (row : ValuesBucket) (resolution : Int) :
    Except RdbError SqlInfo :=
  match insertLoop resolution row.values ""
      ⟨"INSERT" ++ clause ++ " INTO " ++ table ++ "(", []⟩ with
  | none => .error .invalidArgs
  | some info =>
    let values := if row.values.length > 0 then getSqlArgs row.values.length else ""
    .ok ⟨info.sql ++ ") VALUES (" ++ values ++ ")", info.args⟩

def updateInfo (clause table : String) (p : AbsPredicates) (row : ValuesBucket) : SqlInfo :=
  let info := updateLoop row.values "" ⟨"UPDATE" ++ clause ++ " " ++ table ++ " SET ", []⟩
  ⟨appendWhere info.sql p.whereClause, info.args ++ p.bindArgs.map .predicate⟩

def deleteInfo (table : String) (p : AbsPredicates) : SqlInfo :=
  ⟨appendWhere ("DELETE FROM " ++ table) p.whereClause, p.bindArgs.map .predicate⟩

/-! ## The store -/

namespace RdbSqlUtils

variable (table : String)

def getInsertSqlInfo (row : ValuesBucket) (resolution : Int) :
    Except RdbError SqlInfo :=
  if table = "" then .error .emptyTableName
  else if row.values = [] then .error .emptyValuesBucket
  else
    match getConflictClause resolution with
    | none => .error .invalidConflictFlag
    | some clause => insertInfo clause table row resolution

def getUpdateSqlInfo (p : AbsPredicates) (row : ValuesBucket) (resolution : Int) :
    Except RdbError SqlInfo :=
  if table = "" then .error .emptyTableName
  else if row.values = [] then .error .emptyValuesBucket
  else
    match getConflictClause resolution with
    | none => .error .invalidConflictFlag
    | some clause => .ok (updateInfo clause table p row)

def getDeleteSqlInfo (p : AbsPredicates) : Except RdbError SqlInfo :=
  if table = "" then .error .emptyTableName else .ok (deleteInfo table p)

end RdbSqlUtils

/-! ## The transaction -/

namespace TransDB

variable (table : String)

def insert (row : ValuesBucket) (resolution : Int) : Except RdbError SqlInfo :=
  match getConflictClause resolution with
  | none => .error .invalidArgs
  | some clause =>
    if table = "" ∨ row.values = [] then .error .invalidArgs
    else insertInfo clause table row resolution

def update (p : AbsPredicates) (row : ValuesBucket) (resolution : Int) :
    Except RdbError SqlInfo :=
  match getConflictClause resolution with
  | none => .error .invalidArgs
  | some clause =>
    if table = "" ∨ row.values = [] then .error .invalidArgs
    else .ok (updateInfo clause table p row)

def delete (p : AbsPredicates) : Except RdbError SqlInfo :=
  if table = "" then .error .invalidArgs else .ok (deleteInfo table p)

end TransDB

/-! ## What is meant -/

/-- The two execute the same statement, or none, with the arguments that are meant for its
placeholders. -/
structure Agree (store trans : Except RdbError SqlInfo) (args : List StatementArg) : Prop where
  same : store.toOption = trans.toOption
  count : ∀ info ∈ store.toOption, info.sql.toList.count '?' = info.args.length
  args : ∀ info ∈ store.toOption, info.args = args

/-- The statements for a row and for the predicates that the calls build. -/
structure StatementsAgree (table : String) (row : ValuesBucket) (resolution : Int)
    (calls : List BuilderCall) : Prop where
  insert : Agree (RdbSqlUtils.getInsertSqlInfo table row resolution)
    (TransDB.insert table row resolution)
    (row.values.map fun c => .column (c.2.updateAssetStatus AssetValue.statusInsert))
  update : Agree
    (RdbSqlUtils.getUpdateSqlInfo table (empty.buildAll calls) row resolution)
    (TransDB.update table (empty.buildAll calls) row resolution)
    (row.values.map (fun c => .column c.2) ++
      (calls.flatMap whereArgs).map .predicate)
  delete : Agree (RdbSqlUtils.getDeleteSqlInfo table (empty.buildAll calls))
    (TransDB.delete table (empty.buildAll calls))
    ((calls.flatMap whereArgs).map .predicate)

def BuilderCall.havingArgs : BuilderCall → List BindValue
  | .having conditions values => if conditions = "" then [] else values
  | _ => []

/-! ## Counting the placeholders -/

theorem plain_iff_count : Plain text ↔ text.toList.count '?' = 0 :=
  count_eq_zero.symm

theorem plain_of_getConflictClause (h : getConflictClause resolution = some clause) :
    Plain clause := by
  have hall : ∀ text ∈ ON_CONFLICT_CLAUSE, Plain text := by decide
  rw [getConflictClause] at h
  split at h
  · exact nomatch h
  · exact hall clause (mem_of_getElem? h)

theorem insertLoop_eq_some (hsplit : Plain split)
    (h : insertLoop resolution row split info = some info') :
    info'.args = info.args ++ row.map
        (fun c => .column (c.2.updateAssetStatus AssetValue.statusInsert)) ∧
      info'.sql.toList.count '?' =
        info.sql.toList.count '?' + (row.map (·.1.toList.count '?')).sum := by
  induction row generalizing split info with
  | nil =>
    obtain rfl : info = info' := Option.some.inj h
    exact ⟨(append_nil _).symm, rfl⟩
  | cons c row ih =>
    rw [insertLoop] at h
    split at h
    · exact nomatch h
    · obtain ⟨hargs, hcount⟩ := ih (by decide) h
      refine ⟨by rw [hargs, append_assoc]; rfl, ?_⟩
      rw [hcount, count_append, count_append, plain_iff_count.mp hsplit, map_cons,
        sum_cons]
      omega

theorem count_setColumn (key : String) (val : Values.ValueObject) :
    ∃ extra, (setColumn key val).toList.count '?' = 1 + extra ∧ (extra = 0 ↔ Plain key) := by
  have hmerge (text : String) (htext : Plain text) :
      (key ++ text ++ key ++ ", ?)").toList.count '?' = 1 + 2 * key.toList.count '?' := by
    rw [count_append, count_append, count_append, plain_iff_count.mp htext]
    have hend : (", ?)" : String).toList.count '?' = 1 := rfl
    omega
  rw [plain_iff_count]
  unfold setColumn
  split
  · exact ⟨_, hmerge _ (by decide), by omega⟩
  · split
    · exact ⟨_, hmerge _ (by decide), by omega⟩
    · refine ⟨key.toList.count '?', ?_, Iff.rfl⟩
      rw [count_append, Nat.add_comm]
      rfl

theorem updateLoop_args (row : List (String × Values.ValueObject)) (split : String)
    (info : SqlInfo) :
    (updateLoop row split info).args = info.args ++ row.map (fun c => .column c.2) := by
  induction row generalizing split info with
  | nil => exact (append_nil _).symm
  | cons c row ih =>
    rw [updateLoop, ih, append_assoc]
    rfl

theorem count_updateLoop (row : List (String × Values.ValueObject)) (info : SqlInfo)
    (hsplit : Plain split) :
    ∃ extra, (updateLoop row split info).sql.toList.count '?' =
        info.sql.toList.count '?' + row.length + extra ∧
      (extra = 0 ↔ ∀ c ∈ row, Plain c.1) := by
  induction row generalizing split info with
  | nil => exact ⟨0, rfl, by simp⟩
  | cons c row ih =>
    obtain ⟨extra, hcolumn, hplain⟩ := count_setColumn c.1 c.2
    obtain ⟨more, hrow, hplains⟩ := ih
      ⟨info.sql ++ split ++ setColumn c.1 c.2, info.args ++ [.column c.2]⟩
      (show Plain "," by decide)
    refine ⟨extra + more, ?_, ?_⟩
    · rw [updateLoop, hrow, count_append, count_append, plain_iff_count.mp hsplit, hcolumn,
        length_cons]
      omega
    · rw [forall_mem_cons, ← hplain, ← hplains]
      omega

theorem count_appendWhere (sql whereClause : String) :
    (appendWhere sql whereClause).toList.count '?' =
      sql.toList.count '?' + whereClause.toList.count '?' := by
  have hwhere : (" WHERE " : String).toList.count '?' = 0 := rfl
  unfold appendWhere
  split
  next hempty =>
    rw [hempty]
    rfl
  · rw [count_append, count_append, hwhere, Nat.add_zero]

theorem count_getSqlArgs (h : n ≠ 0) : (getSqlArgs n).toList.count '?' = n := by
  obtain ⟨m, rfl⟩ := Nat.exists_eq_succ_of_ne_zero h
  rw [Nat.succ_eq_add_one, getSqlArgs_eq, count_commaJoin, map_replicate,
    sum_replicate]
  exact Nat.mul_one _

theorem count_whereClause (p : AbsPredicates) (hcalls : ∀ c ∈ calls, c.NoPlaceholder) :
    (p.buildAll calls).whereClause.toList.count '?' =
      p.whereClause.toList.count '?' + (calls.flatMap whereArgs).length := by
  induction calls generalizing p with
  | nil => rfl
  | cons c calls ih =>
    obtain ⟨hc, hcalls⟩ := forall_mem_cons.mp hcalls
    obtain ⟨added, hadded, hcount⟩ := p.build_whereClause c
    rw [buildAll_cons, ih _ hcalls, hadded, count_append, hcount hc,
      flatMap_cons, length_append]
    omega

/-! ## The arguments of the predicates -/

theorem length_args (c : BuilderCall) :
    c.args.length = c.whereArgs.length + c.havingArgs.length := by
  cases c with
  | having conditions values => exact (Nat.zero_add _).symm
  | _ => rfl

theorem length_flatMap_args (calls : List BuilderCall) :
    (calls.flatMap args).length = (calls.flatMap whereArgs).length +
      (calls.flatMap havingArgs).length := by
  induction calls with
  | nil => rfl
  | cons c calls ih =>
    simp only [flatMap_cons, length_append, length_args, ih]
    omega

theorem args_eq_whereArgs_iff (calls : List BuilderCall) :
    calls.flatMap args = calls.flatMap whereArgs ↔
      ∀ c ∈ calls, c.havingArgs = [] := by
  constructor
  · intro h
    have hlength := length_flatMap_args calls
    rw [h] at hlength
    have hnil : calls.flatMap havingArgs = [] := length_eq_zero_iff.mp (by omega)
    exact flatMap_eq_nil_iff.mp hnil
  · intro h
    refine flatMap_congr fun c hc => ?_
    cases c with
    | having conditions values => exact h _ hc
    | _ => rfl

theorem predicate_injective : Function.Injective StatementArg.predicate :=
  fun _ _ h => StatementArg.predicate.inj h

/-! ## The three statements -/

section
variable {table clause : String} {row : ValuesBucket} {resolution : Int} {calls : List BuilderCall}

theorem count_updateInfo (table : String) (row : ValuesBucket) (hclause : Plain clause)
    (hcalls : ∀ c ∈ calls, c.NoPlaceholder) :
    ∃ extra,
      (updateInfo clause table (empty.buildAll calls) row).sql.toList.count '?' =
        row.values.length + (calls.flatMap whereArgs).length + extra ∧
      (extra = 0 ↔ Plain table ∧ ∀ c ∈ row.values, Plain c.1) := by
  have hhead : ("UPDATE" ++ clause ++ " " ++ table ++ " SET ").toList.count '?' =
      table.toList.count '?' := by
    rw [count_append, count_append, count_append, count_append, plain_iff_count.mp hclause]
    exact Nat.zero_add _
  have hwhere : (empty.buildAll calls).whereClause.toList.count '?' =
      (calls.flatMap whereArgs).length :=
    (count_whereClause .empty hcalls).trans (Nat.zero_add _)
  obtain ⟨extra, hcount, hplain⟩ := count_updateLoop row.values
    ⟨"UPDATE" ++ clause ++ " " ++ table ++ " SET ", []⟩ (show Plain "" by decide)
  refine ⟨table.toList.count '?' + extra, ?_, ?_⟩
  · rw [updateInfo, count_appendWhere, hcount, hhead, hwhere]
    omega
  · rw [plain_iff_count, ← hplain]
    omega

theorem count_deleteInfo (hcalls : ∀ c ∈ calls, c.NoPlaceholder) :
    (deleteInfo table (empty.buildAll calls)).sql.toList.count '?' =
      (calls.flatMap whereArgs).length + table.toList.count '?' := by
  have hwhere : (empty.buildAll calls).whereClause.toList.count '?' =
      (calls.flatMap whereArgs).length :=
    (count_whereClause .empty hcalls).trans (Nat.zero_add _)
  have hhead : ("DELETE FROM " : String).toList.count '?' = 0 := rfl
  rw [deleteInfo, count_appendWhere, count_append, hwhere, hhead]
  omega

theorem insertInfo_eq_ok (hclause : Plain clause) (hrow : row.values ≠ [])
    (h : insertInfo clause table row resolution = .ok info) :
    info.args = row.values.map
        (fun c => .column (c.2.updateAssetStatus AssetValue.statusInsert)) ∧
      info.sql.toList.count '?' = row.values.length + table.toList.count '?' +
        (row.values.map (·.1.toList.count '?')).sum := by
  have hpos : 0 < row.values.length := length_pos_iff.mpr hrow
  have hhead : ("INSERT" ++ clause ++ " INTO " ++ table ++ "(").toList.count '?' =
      table.toList.count '?' := by
    rw [count_append, count_append, count_append, count_append, plain_iff_count.mp hclause]
    exact Nat.zero_add _
  have hvalues : (") VALUES (" : String).toList.count '?' = 0 := rfl
  have hend : (")" : String).toList.count '?' = 0 := rfl
  rw [insertInfo] at h
  split at h
  · exact nomatch h
  next looped hloop =>
    obtain ⟨hargs, hcount⟩ := insertLoop_eq_some (by decide) hloop
    rw [if_pos hpos] at h
    obtain rfl := Except.ok.inj h
    refine ⟨hargs, ?_⟩
    rw [count_append, count_append, count_append, hcount, hhead, hvalues, hend,
      count_getSqlArgs (by omega)]
    omega

theorem agree_error (e e' : RdbError) (args : List StatementArg) :
    Agree (.error e) (.error e') args :=
  ⟨rfl, fun _ h => (nomatch h), fun _ h => nomatch h⟩

theorem agree_ok_iff (info : SqlInfo) (args : List StatementArg) :
    Agree (.ok info) (.ok info) args ↔
      info.sql.toList.count '?' = info.args.length ∧ info.args = args :=
  ⟨fun h => ⟨h.count info rfl, h.args info rfl⟩,
    fun h => ⟨rfl, fun _ hinfo => Option.some.inj hinfo ▸ h.1,
      fun _ hinfo => Option.some.inj hinfo ▸ h.2⟩⟩

theorem bindArgs_eq (calls : List BuilderCall) :
    (empty.buildAll calls).bindArgs = calls.flatMap args :=
  empty.buildAll_bindArgs calls

theorem agree_iff_of_count {info : SqlInfo} {values : List StatementArg} {extra : Nat}
    (hargs : info.args = values ++ (calls.flatMap args).map .predicate)
    (hcount : info.sql.toList.count '?' =
      values.length + (calls.flatMap whereArgs).length + extra) :
    Agree (.ok info) (.ok info)
      (values ++ (calls.flatMap whereArgs).map .predicate) ↔
      (∀ c ∈ calls, c.havingArgs = []) ∧ extra = 0 := by
  rw [agree_ok_iff, hargs, hcount, append_cancel_left_eq,
    (map_injective_iff.mpr predicate_injective).eq_iff, ← args_eq_whereArgs_iff,
    length_append, length_map, and_comm]
  refine and_congr_right fun hsame => ?_
  rw [hsame]
  omega

theorem agree_updateInfo_iff (table : String) (row : ValuesBucket) (hclause : Plain clause)
    (hcalls : ∀ c ∈ calls, c.NoPlaceholder) :
    Agree (.ok (updateInfo clause table (empty.buildAll calls) row))
      (.ok (updateInfo clause table (empty.buildAll calls) row))
      (row.values.map (fun c => .column c.2) ++
        (calls.flatMap whereArgs).map .predicate) ↔
      (∀ c ∈ calls, c.havingArgs = []) ∧ Plain table ∧ ∀ c ∈ row.values, Plain c.1 := by
  obtain ⟨extra, hcount, hplain⟩ := count_updateInfo table row hclause hcalls
  rw [agree_iff_of_count (by rw [updateInfo, updateLoop_args, bindArgs_eq]; rfl)
    (by rw [hcount, length_map]), hplain]

theorem agree_deleteInfo_iff (table : String) (hcalls : ∀ c ∈ calls, c.NoPlaceholder) :
    Agree (.ok (deleteInfo table (empty.buildAll calls)))
      (.ok (deleteInfo table (empty.buildAll calls)))
      ((calls.flatMap whereArgs).map .predicate) ↔
      (∀ c ∈ calls, c.havingArgs = []) ∧ Plain table := by
  have hiff : Agree (.ok (deleteInfo table (empty.buildAll calls)))
      (.ok (deleteInfo table (empty.buildAll calls)))
      ([] ++ (calls.flatMap whereArgs).map .predicate) ↔
      (∀ c ∈ calls, c.havingArgs = []) ∧ table.toList.count '?' = 0 :=
    agree_iff_of_count (by rw [deleteInfo, bindArgs_eq]; rfl)
      (by rw [count_deleteInfo hcalls, length_nil, Nat.zero_add])
  rwa [nil_append, ← plain_iff_count] at hiff

theorem agree_insertInfo (table : String) (hclause : Plain clause) (hrow : row.values ≠ [])
    (htable : Plain table) (hkeys : ∀ c ∈ row.values, Plain c.1) :
    Agree (insertInfo clause table row resolution) (insertInfo clause table row resolution)
      (row.values.map fun c =>
        .column (c.2.updateAssetStatus AssetValue.statusInsert)) := by
  cases hinfo : insertInfo clause table row resolution with
  | error e => exact agree_error _ _ _
  | ok info =>
    obtain ⟨hargs, hcount⟩ := insertInfo_eq_ok hclause hrow hinfo
    have hsum : (row.values.map (·.1.toList.count '?')).sum = 0 := by
      refine sum_eq_zero fun n hn => ?_
      obtain ⟨c, hc, rfl⟩ := mem_map.mp hn
      exact plain_iff_count.mp (hkeys c hc)
    refine (agree_ok_iff _ _).mpr ⟨?_, hargs⟩
    rw [hcount, hargs, length_map, plain_iff_count.mp htable, hsum]
    rfl

end

/-- The names that the statements contain are free of placeholders, and no `Having` that is accepted
brings values. -/
structure WritesPlainly (table : String) (row : ValuesBucket) (calls : List BuilderCall) :
    Prop where
  having : ∀ c ∈ calls, c.havingArgs = []
  table : Plain table
  columns : ∀ c ∈ row.values, Plain c.1

section
variable {table : String} {row : ValuesBucket} {resolution : Int} {clause : String}
  (p : AbsPredicates) (hclause : getConflictClause resolution = some clause)
include hclause

theorem insert_accepted (htable : table ≠ "") (hrow : row.values ≠ []) :
    RdbSqlUtils.getInsertSqlInfo table row resolution = insertInfo clause table row resolution ∧
      TransDB.insert table row resolution = insertInfo clause table row resolution := by
  rw [RdbSqlUtils.getInsertSqlInfo, TransDB.insert, hclause, if_neg htable, if_neg hrow]
  exact ⟨rfl, if_neg (not_or.mpr ⟨htable, hrow⟩)⟩

theorem update_accepted (htable : table ≠ "") (hrow : row.values ≠ []) :
    RdbSqlUtils.getUpdateSqlInfo table p row resolution = .ok (updateInfo clause table p row) ∧
      TransDB.update table p row resolution = .ok (updateInfo clause table p row) := by
  rw [RdbSqlUtils.getUpdateSqlInfo, TransDB.update, hclause, if_neg htable, if_neg hrow]
  exact ⟨rfl, if_neg (not_or.mpr ⟨htable, hrow⟩)⟩

theorem refused_of_empty (row : ValuesBucket) :
    TransDB.insert "" row resolution = .error .invalidArgs ∧
      TransDB.update "" p row resolution = .error .invalidArgs := by
  rw [TransDB.insert, TransDB.update, hclause]
  exact ⟨rfl, rfl⟩

end

theorem delete_accepted (p : AbsPredicates) (htable : table ≠ "") :
    RdbSqlUtils.getDeleteSqlInfo table p = .ok (deleteInfo table p) ∧
      TransDB.delete table p = .ok (deleteInfo table p) :=
  ⟨if_neg htable, if_neg htable⟩

theorem statementsAgree_iff (table : String) (row : ValuesBucket) (resolution : Int)
    (calls : List BuilderCall) (hrow : row.values ≠ [])
    (hresolution : (getConflictClause resolution).isSome)
    (hcalls : ∀ c ∈ calls, c.NoPlaceholder) :
    StatementsAgree table row resolution calls ↔ table = "" ∨ WritesPlainly table row calls := by
  obtain ⟨clause, hclause⟩ := Option.isSome_iff_exists.mp hresolution
  have hplain := plain_of_getConflictClause hclause
  by_cases htable : table = ""
  · subst htable
    obtain ⟨hinsert, hupdate⟩ :=
      refused_of_empty (empty.buildAll calls) hclause row
    refine iff_of_true ⟨?_, ?_, agree_error _ _ _⟩ (.inl rfl)
    · rw [hinsert]
      exact agree_error _ _ _
    · rw [hupdate]
      exact agree_error _ _ _
  · obtain ⟨hinsert, hinsert'⟩ := insert_accepted hclause htable hrow
    obtain ⟨hupdate, hupdate'⟩ :=
      update_accepted (empty.buildAll calls) hclause htable hrow
    obtain ⟨hdelete, hdelete'⟩ := delete_accepted (empty.buildAll calls) htable
    rw [or_iff_right htable]
    constructor
    · intro h
      have hagree := h.update
      rw [hupdate, hupdate', agree_updateInfo_iff _ _ hplain hcalls] at hagree
      exact ⟨hagree.1, hagree.2.1, hagree.2.2⟩
    · rintro ⟨hhaving, hname, hkeys⟩
      refine ⟨?_, ?_, ?_⟩
      · rw [hinsert, hinsert']
        exact agree_insertInfo _ hplain hrow hname hkeys
      · rw [hupdate, hupdate', agree_updateInfo_iff _ _ hplain hcalls]
        exact ⟨hhaving, hname, hkeys⟩
      · rw [hdelete, hdelete', agree_deleteInfo_iff _ hcalls]
        exact ⟨hhaving, hname⟩

theorem statementsAgree_equalTo :
    StatementsAgree "t" ⟨[("a", .int 2)], pairwise_singleton _ _⟩ 0
      [.compare (.equalTo "a" (.integer 1))] := by
  refine (statementsAgree_iff _ _ _ _ (cons_ne_nil _ _) rfl ?_).mpr (.inr ⟨?_, ?_, ?_⟩)
  · exact forall_mem_singleton.mpr (show Plain "a" by decide)
  · exact forall_mem_singleton.mpr rfl
  · decide
  · exact forall_mem_singleton.mpr (show Plain "a" by decide)

theorem delete_passes_having_args :
    ¬ StatementsAgree "t" ⟨[("a", .int 2)], pairwise_singleton _ _⟩ 0
      [.having "COUNT(*) > ?" [.integer 1]] := by
  intro h
  exact nomatch h.delete.args _ rfl

end RelationalStore
