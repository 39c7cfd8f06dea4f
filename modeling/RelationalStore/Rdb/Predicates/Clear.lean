import RelationalStore.Rdb.Predicates.Distributed
import RelationalStore.Rdb.Predicates.Join

/-! # Clearing predicates

`Clear` resets the joins and most of `AbsPredicates`, but leaves the having clause. -/

namespace RelationalStore

open SqliteSqlBuilder

structure PredicatesMemo where
  tables : List String
  devices : List String
  operations : List RdbPredicateOperation
  deriving DecidableEq

structure RdbPredicates where
  tableName : String
  tables : List String
  devices : List String
  abs : AbsRdbPredicates
  hasSpecificField : Bool
  joinTypes : List String
  joinTableNames : List String
  joinConditions : List String
  joinCount : Int
  deriving DecidableEq

inductive RdbPredicatesCall where
  | abs (c : RdbCall)
  | equalToAssets (field : String) (names : List String) (data : List UInt8)
  | inDevices (devices : List String)
  | inAllDevices
  | setWhereClause (text : String)
  | setWhereArgs (whereArgs : List String)
  | setBindArgs (args : List BindValue)
  | setOrder (text : String)
  | join (c : JoinCall)
  | setJoinTypes (joinTypes : List String)
  | setJoinTableNames (joinTableNames : List String)
  | setJoinConditions (joinConditions : List String)
  | setJoinCount (joinCount : Int)

/-! ## Fields of the service -/

def isSpecificField (field : String) : Bool :=
  field.toList.tails.any fun tail => "#_".toList.isPrefixOf tail

def Comparison.specific : Comparison → Bool
  | .equalTo field _ | .notEqualTo field _ => checkParameter field [] && isSpecificField field
  | .between field low high | .notBetween field low high =>
    checkParameter field [low, high] && isSpecificField field
  | .greaterThan field value | .lessThan field value | .greaterThanOrEqualTo field value
  | .lessThanOrEqualTo field value => checkParameter field [value] && isSpecificField field
  | .contains .. | .notContains .. | .beginsWith .. | .endsWith .. | .isNull _ | .isNotNull _
  | .like .. | .notLike .. | .glob .. | .notGlob .. | .isIn .. | .notIn .. => false

def BuilderCall.specific : BuilderCall → Bool
  | .compare c => c.specific
  | .orderByAsc field | .orderByDesc field => checkParameter field [] && isSpecificField field
  | .beginWrap | .endWrap | .or | .and | .distinct | .limit _ | .limitOffset .. | .offset _
  | .groupBy _ | .indexedBy _ | .having .. => false

def RdbCall.specific : RdbCall → Bool
  | .build c => c.specific
  | .inStrings .. | .notInStrings .. | .clear | .getDistributedPredicates => false

/-! ## The object -/

namespace RdbPredicates

def new (tableName : String) : RdbPredicates :=
  { tableName, tables := if tableName = "" then [] else [tableName], devices := []
    abs := .initial, hasSpecificField := false
    joinTypes := [], joinTableNames := [], joinConditions := [], joinCount := 0 }

variable (s : RdbPredicates)

def joins : RdbJoins :=
  ⟨s.joinTypes, s.joinTableNames, s.joinConditions, s.joinCount.toNat⟩

def callJoin (c : JoinCall) : RdbPredicates :=
  let j := s.joins.call c
  { s with
    joinTypes := j.joinTypes
    joinTableNames := j.joinTableNames
    joinConditions := j.joinConditions
    joinCount :=
      if c.joined.isSome then s.joinCount + 1
      else if s.joinCount ≤ 0 then s.joinCount
      else j.joinCount }

def initialParam : RdbPredicates :=
  { s with joinTypes := [], joinTableNames := [], joinConditions := [], joinCount := 0 }

def clear (s : RdbPredicates) : RdbPredicates :=
  { s with abs := (s.abs.step .clear).2 }.initialParam

def callAbs (c : RdbCall) : RdbPredicates :=
  { s with
    abs := (s.abs.step c).2
    hasSpecificField := s.hasSpecificField || c.specific }

def equalToAssets (field : String) (names : List String) (data : List UInt8) :
    RdbPredicates :=
  { s with abs := s.abs.addOperation ⟨.assetsOnly, field, names.map .string⟩ }.callAbs
    (.build (.compare (.equalTo field (.other data))))

def callBase (c : PredicateCall) : RdbPredicates :=
  { s with abs := { s.abs with base := s.abs.base.call c } }

def call : RdbPredicatesCall → RdbPredicates
  | .abs .clear => s.clear
  | .abs c => s.callAbs c
  | .equalToAssets field names data => s.equalToAssets field names data
  | .inDevices devices => { s with devices }
  | .inAllDevices => { s with devices := [] }
  | .setWhereClause text => s.callBase (.setWhereClause text)
  | .setWhereArgs whereArgs => s.callBase (.setBindArgs (whereArgs.map .string))
  | .setBindArgs args => s.callBase (.setBindArgs args)
  | .setOrder text => s.callBase (.setOrder text)
  | .join c => s.callJoin c
  | .setJoinTypes joinTypes => { s with joinTypes }
  | .setJoinTableNames joinTableNames => { s with joinTableNames }
  | .setJoinConditions joinConditions => { s with joinConditions }
  | .setJoinCount joinCount => { s with joinCount }

def memo : PredicatesMemo :=
  ⟨s.tables, s.devices, s.abs.getDistributedPredicates.1⟩

def buildClause (p : AbsPredicates) (join : String) : String :=
  let sql := appendClause "" " INDEXED BY " p.index
  let sql := appendClause sql " " join
  let sql := appendClause sql " WHERE " p.whereClause
  let sql := appendClause sql " GROUP BY " p.group
  let sql := appendClause sql " HAVING " p.havingClause
  let sql := appendClause sql " ORDER BY " p.order
  appendLimitAndOffset sql p.limit p.offset

def buildQueryString (columns : List String) : Option String :=
  if s.tableName = "" then some ""
  else
    s.joins.getJoinClause.map fun join =>
      appendClause
        (getSelectClause columns s.abs.base.distinct) " FROM " s.tableName ++
        buildClause s.abs.base join

theorem buildQueryString_of_no_joins (columns : List String) (h : s.joinTableNames = []) :
    s.buildQueryString columns =
      some (SqliteSqlBuilder.buildQueryString s.tableName s.abs.base columns) := by
  have hjoin : s.joins.getJoinClause = some "" := if_pos h
  rw [buildQueryString, SqliteSqlBuilder.buildQueryString, hjoin]
  split <;> rfl

/-! ## What can be seen of the object -/

structure SameView (s t : RdbPredicates) : Prop where
  query (columns : List String) : s.buildQueryString columns = t.buildQueryString columns
  bindArgs : s.abs.base.bindArgs = t.abs.base.bindArgs
  specific : s.hasSpecificField = t.hasSpecificField
  memo : s.memo = t.memo

/-- No further calls tell the objects apart. -/
def Equivalent (t : RdbPredicates) : Prop :=
  ∀ calls : List RdbPredicatesCall, SameView (calls.foldl call s) (calls.foldl call t)

/-- Nothing that `Clear` leaves is there. A having clause does not show without a table. -/
structure Clearable (s : RdbPredicates) : Prop where
  having : s.tableName = "" ∨ s.abs.base.havingClause = ""
  specific : s.hasSpecificField = false
  operations : s.abs.operations = []
  devices : s.devices = []

end RdbPredicates

/-! ## The having clause is only written -/

namespace AbsPredicates

variable (p : AbsPredicates)

def forgetHaving : AbsPredicates := { p with havingClause := "" }

theorem forgetHaving_build (c : BuilderCall) :
    (p.forgetHaving.build c).forgetHaving = (p.build c).forgetHaving := by
  obtain ⟨whereClause, bindArgs, order, group, index, havingClause, distinct, isNeedAnd, isSorted,
    limit, offset⟩ := p
  cases c with
  | compare c =>
    simp only [build, compare]
    split
    · rfl
    · cases isNeedAnd <;> rfl
  | beginWrap | endWrap | or => cases isNeedAnd <;> rfl
  | orderByAsc field | orderByDesc field =>
    simp only [build, orderByAsc, orderByDesc, orderBy, forgetHaving]
    split <;> rfl
  | groupBy fields =>
    simp only [build, groupBy, forgetHaving]
    split <;> rfl
  | indexedBy indexName =>
    simp only [build, indexedBy, forgetHaving]
    split <;> rfl
  | having conditions values =>
    simp only [build, having, forgetHaving]
    split <;> rfl
  | and | distinct | limit | limitOffset | offset => rfl

theorem forgetHaving_call (c : PredicateCall) :
    (p.forgetHaving.call c).forgetHaving = (p.call c).forgetHaving := by
  cases c with
  | build c => exact p.forgetHaving_build c
  | setWhereClause text =>
    simp only [call, setWhereClause, forgetHaving]
    split <;> rfl
  | setOrder text =>
    simp only [call, setOrder, forgetHaving]
    split <;> rfl
  | clear | setBindArgs => rfl

end AbsPredicates

namespace AbsRdbPredicates

def forgetHaving (s : AbsRdbPredicates) : AbsRdbPredicates := { s with base := s.base.forgetHaving }

variable (s : AbsRdbPredicates)

theorem forgetHaving_build (c : BuilderCall) :
    (s.forgetHaving.build c).forgetHaving = (s.build c).forgetHaving := by
  simp only [build, forgetHaving, AbsPredicates.forgetHaving_build]

theorem forgetHaving_getDistributedPredicates :
    s.forgetHaving.getDistributedPredicates =
      (s.getDistributedPredicates.1, s.getDistributedPredicates.2.forgetHaving) := by
  have hlimit : s.forgetHaving.base.limit = s.base.limit := rfl
  simp only [getDistributedPredicates, hlimit]
  split <;> rfl

theorem forgetHaving_step (c : RdbCall) :
    (s.forgetHaving.step c).2.forgetHaving = (s.step c).2.forgetHaving := by
  cases c with
  | build c => exact s.forgetHaving_build c
  | inStrings field values => exact forgetHaving_build (s.addOperation _) _
  | notInStrings field values => exact forgetHaving_build (s.addOperation _) _
  | clear => rfl
  | getDistributedPredicates =>
    simp only [step, forgetHaving_getDistributedPredicates]
    rfl

end AbsRdbPredicates

namespace RdbPredicates
variable {s t : RdbPredicates}

def forgetHaving (s : RdbPredicates) : RdbPredicates := { s with abs := s.abs.forgetHaving }

theorem forgetHaving_memo (s : RdbPredicates) : s.forgetHaving.memo = s.memo := by
  simp only [memo, forgetHaving, AbsRdbPredicates.forgetHaving_getDistributedPredicates]

theorem forgetHaving_callAbs (s : RdbPredicates) (c : RdbCall) :
    (s.forgetHaving.callAbs c).forgetHaving = (s.callAbs c).forgetHaving := by
  simp only [callAbs, forgetHaving, AbsRdbPredicates.forgetHaving_step]

theorem forgetHaving_callBase (s : RdbPredicates) (c : PredicateCall) :
    (s.forgetHaving.callBase c).forgetHaving = (s.callBase c).forgetHaving := by
  simp only [callBase, forgetHaving, AbsRdbPredicates.forgetHaving,
    AbsPredicates.forgetHaving_call]

theorem forgetHaving_call (s : RdbPredicates) (c : RdbPredicatesCall) :
    (s.forgetHaving.call c).forgetHaving = (s.call c).forgetHaving := by
  cases c with
  | abs c =>
    cases c with
    | clear => rfl
    | build | inStrings | notInStrings | getDistributedPredicates =>
      exact s.forgetHaving_callAbs _
  | equalToAssets field names data =>
    exact forgetHaving_callAbs
      { s with abs := s.abs.addOperation ⟨.assetsOnly, field, names.map .string⟩ } _
  | setWhereClause | setWhereArgs | setBindArgs | setOrder => exact s.forgetHaving_callBase _
  | inDevices | inAllDevices | join | setJoinTypes | setJoinTableNames | setJoinConditions
  | setJoinCount => rfl

/-! ## Clearing -/

theorem call_tableName (s : RdbPredicates) (c : RdbPredicatesCall) :
    (s.call c).tableName = s.tableName ∧ (s.call c).tables = s.tables := by
  cases c with
  | abs c => cases c <;> exact ⟨rfl, rfl⟩
  | _ => exact ⟨rfl, rfl⟩

theorem foldl_tableName (s : RdbPredicates) (calls : List RdbPredicatesCall) :
    (calls.foldl call s).tableName = s.tableName ∧ (calls.foldl call s).tables = s.tables := by
  induction calls generalizing s with
  | nil => exact ⟨rfl, rfl⟩
  | cons c calls ih =>
    obtain ⟨hname, htables⟩ := s.call_tableName c
    exact ⟨(ih _).1.trans hname, (ih _).2.trans htables⟩

theorem sameView_of_forgetHaving (hname : s.tableName = "")
    (h : s.forgetHaving = t.forgetHaving) : SameView s t := by
  have htable : t.tableName = "" := (congrArg tableName h).symm.trans hname
  refine ⟨fun columns => ?_, congrArg (·.abs.base.bindArgs) h, congrArg (·.hasSpecificField) h, ?_⟩
  · rw [buildQueryString, buildQueryString, if_pos hname, if_pos htable]
  · rw [← s.forgetHaving_memo, h, t.forgetHaving_memo]

theorem equivalent_of_forgetHaving (hname : s.tableName = "")
    (h : s.forgetHaving = t.forgetHaving) : Equivalent s t := by
  intro calls
  apply sameView_of_forgetHaving ((s.foldl_tableName calls).1.trans hname)
  refine List.foldl_rel (r := fun s t : RdbPredicates => s.forgetHaving = t.forgetHaving) h ?_
  intro c _ s t h
  rw [← s.forgetHaving_call, h, t.forgetHaving_call]

section
variable {tableName : String} (hname : s.tableName = tableName)
  (htables : s.tables = (new tableName).tables)
include hname htables

theorem clear_eq_new (hhaving : s.abs.base.havingClause = "")
    (hspecific : s.hasSpecificField = false)
    (hoperations : s.abs.operations = []) (hdevices : s.devices = []) :
    s.clear = new tableName := by
  obtain ⟨name, tables, devices, ⟨base, operations⟩, specific, types, names, conditions, count⟩ := s
  simp_all [clear, initialParam, AbsRdbPredicates.step, AbsPredicates.clear, new,
    AbsRdbPredicates.initial, AbsPredicates.empty]

theorem forgetHaving_clear (hspecific : s.hasSpecificField = false)
    (hoperations : s.abs.operations = []) (hdevices : s.devices = []) :
    s.clear.forgetHaving = (new tableName).forgetHaving := by
  obtain ⟨name, tables, devices, ⟨base, operations⟩, specific, types, names, conditions, count⟩ := s
  simp_all [clear, initialParam, AbsRdbPredicates.step, AbsPredicates.clear, new, forgetHaving,
    AbsRdbPredicates.forgetHaving, AbsPredicates.forgetHaving, AbsRdbPredicates.initial,
    AbsPredicates.empty]

theorem Clearable.equivalent (h : s.Clearable) : s.clear.Equivalent (new tableName) := by
  rcases h.having with hempty | hhaving
  · exact equivalent_of_forgetHaving hempty
      (forgetHaving_clear hname htables h.specific h.operations h.devices)
  · rw [clear_eq_new hname htables hhaving h.specific h.operations h.devices]
    exact fun _ => ⟨fun _ => rfl, rfl, rfl, rfl⟩

end

theorem buildClauseFromPredicates_clear (p : AbsPredicates) :
    buildClauseFromPredicates p.clear =
      appendClause "" " HAVING " p.havingClause := by
  simp [buildClauseFromPredicates, appendLimitAndOffset,
    appendClause, AbsPredicates.clear, AbsPredicates.empty]

theorem havingClause_of_buildQueryString_clear (hname : s.tableName ≠ "")
    (h : s.clear.buildQueryString [] = (new s.tableName).buildQueryString []) :
    s.abs.base.havingClause = "" := by
  have hclause : SqliteSqlBuilder.buildClauseFromPredicates s.abs.base.clear =
      SqliteSqlBuilder.buildClauseFromPredicates AbsPredicates.empty := by
    rw [buildQueryString_of_no_joins _ _ rfl, buildQueryString_of_no_joins _ _ rfl,
      SqliteSqlBuilder.buildQueryString, SqliteSqlBuilder.buildQueryString] at h
    have hquery := Option.some.inj h
    rw [if_neg (show s.clear.tableName ≠ "" from hname),
      if_neg (show (new s.tableName).tableName ≠ "" from hname)] at hquery
    exact (String.append_right_inj _).mp hquery
  have hempty : SqliteSqlBuilder.buildClauseFromPredicates AbsPredicates.empty = "" :=
    buildClauseFromPredicates_clear .empty
  rw [hempty, buildClauseFromPredicates_clear, SqliteSqlBuilder.appendClause] at hclause
  by_contra hne
  rw [if_neg hne] at hclause
  exact hne (String.append_eq_empty_iff.mp hclause).2

theorem clearable_of_sameView {tableName : String} (hname : s.tableName = tableName)
    (h : SameView s.clear (new tableName)) : s.Clearable := by
  subst hname
  have hlimit : s.clear.abs.getDistributedPredicates.1 = s.abs.operations := rfl
  have hnew : (new s.tableName).abs.getDistributedPredicates.1 = [] := rfl
  refine ⟨?_, h.specific, ?_, congrArg PredicatesMemo.devices h.memo⟩
  · by_cases hempty : s.tableName = ""
    · exact .inl hempty
    · exact .inr (havingClause_of_buildQueryString_clear hempty (h.query []))
  · rw [← hlimit, ← hnew]
    exact congrArg PredicatesMemo.operations h.memo

theorem equivalent_clear_iff (tableName : String) (calls : List RdbPredicatesCall) :
    (calls.foldl call (new tableName)).clear.Equivalent (new tableName) ↔
      (calls.foldl call (new tableName)).Clearable := by
  obtain ⟨hname, htables⟩ := (new tableName).foldl_tableName calls
  constructor
  · intro h
    exact clearable_of_sameView hname (h [])
  · intro h
    exact h.equivalent hname htables

theorem clear_keeps_having :
    ¬ ((new "t").call (.abs (.build (.having "COUNT(*) > 1" [])))).clear.Equivalent (new "t") := by
  intro h
  exact absurd ((h []).query []) (by decide)

end RdbPredicates

end RelationalStore
