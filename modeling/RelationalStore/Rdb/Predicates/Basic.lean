import RelationalStore.Theory.Run

/-! # Predicates and the query built from them

A condition, an order, groups and limits are collected call by call. -/

namespace RelationalStore

inductive BindValue where
  | null
  | integer (value : Int)
  | double (value : Rat)
  | infinity (negative : Bool)
  | nan
  | string (value : String)
  | boolean (value : Bool)
  | other (data : List UInt8)
  deriving DecidableEq

structure AbsPredicates where
  whereClause : String
  bindArgs : List BindValue
  order : String
  group : String
  index : String
  havingClause : String
  distinct : Bool
  isNeedAnd : Bool
  isSorted : Bool
  limit : Int
  offset : Int
  deriving DecidableEq

inductive Comparison where
  | equalTo (field : String) (value : BindValue)
  | notEqualTo (field : String) (value : BindValue)
  | contains (field value : String)
  | notContains (field value : String)
  | beginsWith (field value : String)
  | endsWith (field value : String)
  | isNull (field : String)
  | isNotNull (field : String)
  | like (field value : String)
  | notLike (field value : String)
  | glob (field value : String)
  | notGlob (field value : String)
  | between (field : String) (low high : BindValue)
  | notBetween (field : String) (low high : BindValue)
  | greaterThan (field : String) (value : BindValue)
  | lessThan (field : String) (value : BindValue)
  | greaterThanOrEqualTo (field : String) (value : BindValue)
  | lessThanOrEqualTo (field : String) (value : BindValue)
  | isIn (field : String) (values : List BindValue)
  | notIn (field : String) (values : List BindValue)

inductive BuilderCall where
  | compare (c : Comparison)
  | beginWrap
  | endWrap
  | or
  | and
  | orderByAsc (field : String)
  | orderByDesc (field : String)
  | distinct
  | limit (value : Int)
  | limitOffset (offset limit : Int)
  | offset (value : Int)
  | groupBy (fields : List String)
  | indexedBy (indexName : String)
  | having (conditions : String) (values : List BindValue)

inductive PredicateCall where
  | build (c : BuilderCall)
  | clear
  | setWhereClause (text : String)
  | setBindArgs (args : List BindValue)
  | setOrder (text : String)

def ORIGIN_FIELD : String := "#_origin"
def LOG_ORIGIN_FIELD : String := "#_flag"
def ORIGIN_ORIDEVICE : String := "#_ori_device"
def INIT_LIMIT_VALUE : Int := -2147483648
def INIT_OFFSET_VALUE : Int := -2147483648

namespace BindValue

def originFlag : BindValue → Option String
  | .double value =>
    if value < 0 ∨ 2 < value then none
    else if value < 1 then some "0x02"
    else some "0x0"
  | .infinity _ => none
  | _ => some "0x02"

def isEmptyDevice : BindValue → Bool
  | .string value => value = ""
  | .integer _ | .double _ | .infinity _ | .nan | .boolean _ => false
  | .null | .other _ => true

end BindValue

def checkParameter (field : String) (args : List BindValue) : Bool :=
  field ≠ "" ∧ BindValue.string "" ∉ args

def joinTexts (separator : String) : List String → String
  | [] => ""
  | [text] => text
  | text :: texts => text ++ (" " ++ separator ++ " ") ++ joinTexts separator texts

def surroundWithFunction (function separator : String) (array : List String) : String :=
  function ++ ("(" ++ joinTexts separator array ++ ")")

def removeQuotes (source : String) : String :=
  String.ofList (source.toList.filter fun c => c ≠ '\'' ∧ c ≠ '"' ∧ c ≠ '`')

namespace Comparison

variable (field : String)

def restrict (operator : String) (checked args : List BindValue) :
    Option (String × List BindValue) :=
  if checkParameter field checked then some (field ++ operator, args) else none

def inList (function : String) (values : List BindValue) : String :=
  surroundWithFunction function "," (List.replicate values.length "?")

def equalToCondition (value : BindValue) : Option (String × List BindValue) :=
  if checkParameter field [] = false then none
  else if field = ORIGIN_FIELD then
    -- an origin out of range is ignored
    match value.originFlag with
    | none => none
    | some flag => some ("(" ++ LOG_ORIGIN_FIELD ++ " & 0x02 = " ++ flag ++ ")", [])
  else if field = ORIGIN_ORIDEVICE then
    if value.isEmptyDevice then some ("(LENGTH(" ++ field ++ ") = 0)", [])
    else some ("(LENGTH(" ++ field ++ ") > 0 )", [])
  else some (field ++ " = ? ", [value])

def notEqualToCondition (value : BindValue) : Option (String × List BindValue) :=
  if checkParameter field [] = false then none
  else if field = ORIGIN_ORIDEVICE then
    if value.isEmptyDevice then some ("(LENGTH(" ++ field ++ ") > 0 )", [])
    else some ("(LENGTH(" ++ field ++ ") = 0)", [])
  else some (field ++ " <> ? ", [value])

def condition : Comparison → Option (String × List BindValue)
  | .equalTo field value => equalToCondition field value
  | .notEqualTo field value => notEqualToCondition field value
  | .contains field value =>
    restrict field " LIKE ? " [.string value] [.string ("%" ++ value ++ "%")]
  | .notContains field value =>
    restrict field " NOT LIKE ? " [.string value] [.string ("%" ++ value ++ "%")]
  | .beginsWith field value => restrict field " LIKE ? " [.string value] [.string (value ++ "%")]
  | .endsWith field value => restrict field " LIKE ? " [.string value] [.string ("%" ++ value)]
  | .isNull field => restrict field " IS NULL " [] []
  | .isNotNull field => restrict field " IS NOT NULL " [] []
  | .like field value => restrict field " LIKE ? " [.string value] [.string value]
  | .notLike field value => restrict field " NOT LIKE ? " [.string value] [.string value]
  | .glob field value => restrict field " GLOB ? " [.string value] [.string value]
  | .notGlob field value => restrict field " NOT GLOB ? " [.string value] [.string value]
  | .between field low high => restrict field " BETWEEN ? AND ? " [low, high] [low, high]
  | .notBetween field low high => restrict field " NOT BETWEEN ? AND ? " [low, high] [low, high]
  | .greaterThan field value => restrict field " > ? " [value] [value]
  | .lessThan field value => restrict field " < ? " [value] [value]
  | .greaterThanOrEqualTo field value => restrict field " >= ? " [value] [value]
  | .lessThanOrEqualTo field value => restrict field " <= ? " [value] [value]
  | .isIn field values => restrict field (inList " IN " values) [] values
  | .notIn field values => restrict field (inList " NOT IN " values) [] values

end Comparison

namespace AbsPredicates

def empty : AbsPredicates :=
  ⟨"", [], "", "", "", "", false, false, false, INIT_LIMIT_VALUE, INIT_OFFSET_VALUE⟩

variable (p : AbsPredicates)

def clear : AbsPredicates := { empty with havingClause := p.havingClause }

def checkIsNeedAnd : AbsPredicates :=
  if p.isNeedAnd then { p with whereClause := p.whereClause ++ " AND " }
  else { p with isNeedAnd := true }

def appendCondition (text : String) (args : List BindValue) : AbsPredicates :=
  let p := p.checkIsNeedAnd
  { p with whereClause := p.whereClause ++ text, bindArgs := p.bindArgs ++ args }

def compare (c : Comparison) : AbsPredicates :=
  match c.condition with
  | none => p
  | some (text, args) => p.appendCondition text args

def beginWrap : AbsPredicates :=
  let p := if p.isNeedAnd then { p with whereClause := p.whereClause ++ "AND ", isNeedAnd := false }
    else p
  { p with whereClause := p.whereClause ++ " ( " }

def endWrap : AbsPredicates :=
  if p.isNeedAnd = false then p else { p with whereClause := p.whereClause ++ " ) " }

def or : AbsPredicates :=
  if p.isNeedAnd = false then p
  else { p with whereClause := p.whereClause ++ " OR ", isNeedAnd := false }

def orderBy (field direction : String) : AbsPredicates :=
  if checkParameter field [] = false then p
  else
    let order := if p.isSorted then p.order ++ "," else p.order
    { p with order := order ++ field ++ direction, isSorted := true }

def orderByAsc (field : String) : AbsPredicates := p.orderBy field " ASC "

def orderByDesc (field : String) : AbsPredicates := p.orderBy field " DESC "

def setLimit (limit : Int) : AbsPredicates :=
  { p with limit := if limit ≤ 0 then -1 else limit }

def setOffset (offset : Int) : AbsPredicates :=
  { p with offset := if offset < 0 then -1 else offset }

def appendGroups (group : String) : List String → Bool × String
  | [] => (true, group)
  | field :: fields =>
    if checkParameter field [] then appendGroups (group ++ field ++ ",") fields else (false, group)

def groupBy (fields : List String) : AbsPredicates :=
  match appendGroups p.group fields with
  | (false, group) => { p with group }
  | (true, group) =>
    { p with group := if fields = [] then group else String.ofList group.toList.dropLast }

def indexedBy (indexName : String) : AbsPredicates :=
  if checkParameter indexName [] then { p with index := removeQuotes indexName } else p

def having (conditions : String) (values : List BindValue) : AbsPredicates :=
  if checkParameter conditions [] then
    { p with havingClause := conditions, bindArgs := p.bindArgs ++ values }
  else p

def build : BuilderCall → AbsPredicates
  | .compare c => p.compare c
  | .beginWrap => p.beginWrap
  | .endWrap => p.endWrap
  | .or => p.or
  | .and => p
  | .orderByAsc field => p.orderByAsc field
  | .orderByDesc field => p.orderByDesc field
  | .distinct => { p with distinct := true }
  | .limit value => p.setLimit value
  | .limitOffset offset limit => (p.setLimit limit).setOffset offset
  | .offset value => p.setOffset value
  | .groupBy fields => p.groupBy fields
  | .indexedBy indexName => p.indexedBy indexName
  | .having conditions values => p.having conditions values

/-! ## What a call leaves -/

def onWhere : BuilderCall → Bool
  | .compare _ | .beginWrap | .endWrap | .or => true
  | _ => false

theorem build_where (hc : onWhere c) :
    p.build c =
      { p with
        whereClause := (p.build c).whereClause
        bindArgs := (p.build c).bindArgs
        isNeedAnd := (p.build c).isNeedAnd } := by
  cases c with
  | compare c =>
    simp only [build, compare, appendCondition, checkIsNeedAnd]
    split
    · rfl
    · split <;> rfl
  | beginWrap =>
    simp only [build, beginWrap]
    split <;> rfl
  | endWrap =>
    simp only [build, endWrap]
    split <;> rfl
  | or =>
    simp only [build, AbsPredicates.or]
    split <;> rfl
  | _ => exact nomatch hc

theorem exists_orderBy (field direction : String) : ∃ order sorted,
    p.orderBy field direction = { p with order := order, isSorted := sorted } := by
  unfold orderBy
  split <;> exact ⟨_, _, rfl⟩

theorem exists_groupBy (fields : List String) : ∃ group,
    p.groupBy fields = { p with group := group } := by
  unfold groupBy
  split <;> exact ⟨_, rfl⟩

theorem exists_indexedBy (indexName : String) : ∃ index,
    p.indexedBy indexName = { p with index := index } := by
  unfold indexedBy
  split <;> exact ⟨_, rfl⟩

theorem exists_having (conditions : String) (values : List BindValue) :
    ∃ text args, p.having conditions values =
      { p with havingClause := text, bindArgs := args } := by
  unfold having
  split <;> exact ⟨_, _, rfl⟩

def setWhereClause (text : String) : AbsPredicates :=
  if text = "" then p else { p with whereClause := text }

def setOrder (text : String) : AbsPredicates :=
  if text = "" then p else { p with order := text }

def call : PredicateCall → AbsPredicates
  | .build c => p.build c
  | .clear => p.clear
  | .setWhereClause text => p.setWhereClause text
  | .setBindArgs args => { p with bindArgs := args }
  | .setOrder text => p.setOrder text

end AbsPredicates

namespace SqliteSqlBuilder

def appendClause (builder name clause : String) : String :=
  if clause = "" then builder else builder ++ name ++ clause

def appendColumns (builder : String) (previous : String) : List String → String
  | [] => builder ++ " "
  | column :: columns =>
    if column = "" then appendColumns builder column columns
    else
      appendColumns ((if previous = "" then builder else builder ++ ", ") ++ column) column columns

def getSelectClause (columns : List String) (isDistinct : Bool) : String :=
  let sql := if isDistinct then "SELECT " ++ "DISTINCT " else "SELECT "
  if columns = [] then sql ++ "*" else appendColumns sql "" columns

def appendLimitAndOffset (builder : String) (limit offset : Int) : String :=
  let builder := appendClause builder " LIMIT "
    (if limit = INIT_LIMIT_VALUE then "" else toString limit)
  appendClause builder " OFFSET " (if offset = INIT_OFFSET_VALUE then "" else toString offset)

def buildClauseFromPredicates (p : AbsPredicates) : String :=
  let sql := appendClause "" " INDEXED BY " p.index
  let sql := appendClause sql " WHERE " p.whereClause
  let sql := appendClause sql " GROUP BY " p.group
  let sql := appendClause sql " HAVING " p.havingClause
  let sql := appendClause sql " ORDER BY " p.order
  appendLimitAndOffset sql p.limit p.offset

def buildQueryString (table : String) (p : AbsPredicates) (columns : List String) : String :=
  if table = "" then ""
  else
    appendClause (getSelectClause columns p.distinct) " FROM " table ++ buildClauseFromPredicates p

end SqliteSqlBuilder

end RelationalStore
