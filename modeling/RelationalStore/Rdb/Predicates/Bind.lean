import RelationalStore.Rdb.Predicates.Tree
import RelationalStore.Rdb.Predicates.Where
import RelationalStore.Theory.Holes

/-! # The bind arguments of a query

The arguments stand in the order of the calls, the placeholders in that of the clauses. -/

namespace RelationalStore

open List SqliteSqlBuilder BuilderCall AbsPredicates
open Holes (fill holes)

abbrev MarkedText := List (Char × Option BindValue)

variable (text : String)

/-- The text has no placeholder. -/
def Plain : Prop := '?' ∉ text.toList
  deriving Decidable

def unbound : MarkedText := fill '?' text.toList []

def Comparison.given : Comparison → List BindValue
  | .equalTo _ value | .notEqualTo _ value | .greaterThan _ value | .lessThan _ value
  | .greaterThanOrEqualTo _ value | .lessThanOrEqualTo _ value => [value]
  | .contains _ value | .notContains _ value => [.string ("%" ++ value ++ "%")]
  | .beginsWith _ value => [.string (value ++ "%")]
  | .endsWith _ value => [.string ("%" ++ value)]
  | .like _ value | .notLike _ value | .glob _ value | .notGlob _ value => [.string value]
  | .between _ low high | .notBetween _ low high => [low, high]
  | .isIn _ values | .notIn _ values => values
  | .isNull _ | .isNotNull _ => []

def Comparison.binds : Comparison → Bool
  | .equalTo field _ => field ≠ "" ∧ field ≠ ORIGIN_FIELD ∧ field ≠ ORIGIN_ORIDEVICE
  | .notEqualTo field _ => field ≠ "" ∧ field ≠ ORIGIN_ORIDEVICE
  | .contains field value | .notContains field value | .beginsWith field value
  | .endsWith field value | .like field value | .notLike field value | .glob field value
  | .notGlob field value => field ≠ "" ∧ value ≠ ""
  | .between field low high | .notBetween field low high =>
    field ≠ "" ∧ low ≠ .string "" ∧ high ≠ .string ""
  | .greaterThan field value | .lessThan field value | .greaterThanOrEqualTo field value
  | .lessThanOrEqualTo field value => field ≠ "" ∧ value ≠ .string ""
  | .isIn field _ | .notIn field _ | .isNull field | .isNotNull field => field ≠ ""

def Comparison.args (c : Comparison) : List BindValue := if c.binds then c.given else []

def BuilderCall.whereArgs : BuilderCall → List BindValue
  | .compare c => c.args
  | _ => []

def BuilderCall.args : BuilderCall → List BindValue
  | .compare c => c.args
  | .having conditions values => if conditions = "" then [] else values
  | _ => []

/-- The names in the call are free of placeholders. -/
def BuilderCall.NoPlaceholder : BuilderCall → Prop
  | .compare c => Plain c.field
  | .orderByAsc field | .orderByDesc field => Plain field
  | .groupBy fields => ∀ field ∈ fields, Plain field
  | .indexedBy indexName => Plain indexName
  | _ => True

structure MarkedRun where
  p : AbsPredicates
  whereMarks : MarkedText
  havingMarks : MarkedText

namespace MarkedRun

def initial : MarkedRun := ⟨.empty, [], []⟩

def build (m : MarkedRun) (c : BuilderCall) : MarkedRun where
  p := m.p.build c
  whereMarks := m.whereMarks ++
    fill '?' ((m.p.build c).whereClause.toList.drop m.p.whereClause.toList.length) c.whereArgs
  havingMarks :=
    match c with
    | .having conditions values =>
      if conditions = "" then m.havingMarks else fill '?' conditions.toList values
    | _ => m.havingMarks

def buildAll (m : MarkedRun) (calls : List BuilderCall) : MarkedRun := calls.foldl build m

def clause (name : String) (marks : MarkedText) : MarkedText :=
  if marks = [] then [] else unbound name ++ marks

def query (table : String) (m : MarkedRun) (columns : List String) : MarkedText :=
  unbound (appendClause (getSelectClause columns m.p.distinct)
      " FROM " table) ++
    (unbound (appendClause "" " INDEXED BY " m.p.index) ++
    (clause " WHERE " m.whereMarks ++
    (unbound (appendClause "" " GROUP BY " m.p.group) ++
    (clause " HAVING " m.havingMarks ++
    (unbound (appendClause "" " ORDER BY " m.p.order) ++
    unbound (appendLimitAndOffset "" m.p.limit m.p.offset))))))

def ArgumentsMatch (table : String) (columns : List String) (calls : List BuilderCall) : Prop :=
  let p := empty.buildAll calls
  let sql := buildQueryString table p columns
  let marks := query table (initial.buildAll calls) columns
  marks.map Prod.fst = sql.toList ∧ sql.toList.count '?' = p.bindArgs.length ∧
    holes '?' marks = p.bindArgs.map some

end MarkedRun

def lastHaving : List BuilderCall → Option (String × List BindValue)
  | [] => none
  | .having conditions values :: calls =>
    (lastHaving calls).or (if conditions = "" then none else some (conditions, values))
  | _ :: calls => lastHaving calls

def HavingFits : List BuilderCall → Prop
  | [] => True
  | .having conditions values :: calls =>
    (conditions ≠ "" →
      if (lastHaving calls).isSome then values = []
      else conditions.toList.count '?' = values.length ∧
        values ++ calls.flatMap whereArgs =
          calls.flatMap whereArgs ++ values) ∧
    HavingFits calls
  | _ :: calls => HavingFits calls

/-! ## The arguments in the order of the calls -/

section
variable {calls : List BuilderCall} {conditions : String} {values : List BindValue}

theorem args_of_lastHaving_none (h : lastHaving calls = none) :
    calls.flatMap args = calls.flatMap whereArgs ∧ HavingFits calls := by
  induction calls with
  | nil => exact ⟨rfl, trivial⟩
  | cons c calls ih =>
    cases c with
    | having conditions values =>
      obtain ⟨hcalls, hconditions⟩ := Option.or_eq_none_iff.mp h
      have hempty : conditions = "" := by
        by_contra hne
        simp [hne] at hconditions
      obtain ⟨hargs, hfits⟩ := ih hcalls
      refine ⟨?_, fun hne => absurd hempty hne, hfits⟩
      simp [args, whereArgs, hempty, hargs]
    | _ =>
      obtain ⟨hargs, hfits⟩ := ih h
      exact ⟨by simp only [flatMap_cons, hargs]; rfl, hfits⟩

theorem length_args_of_lastHaving (h : lastHaving calls = some (conditions, values)) :
    (calls.flatMap whereArgs).length + values.length ≤
      (calls.flatMap args).length := by
  induction calls with
  | nil => exact nomatch h
  | cons c calls ih =>
    cases c with
    | having conditions' values' =>
      simp only [flatMap_cons, length_append, whereArgs, length_nil]
      rw [lastHaving] at h
      cases hlast : lastHaving calls with
      | some last =>
        rw [hlast, Option.some_or] at h
        have hle := ih (hlast.trans h)
        omega
      | none =>
        rw [hlast, Option.none_or] at h
        have hargs := (args_of_lastHaving_none hlast).1
        by_cases hempty : conditions' = ""
        · rw [if_pos hempty] at h
          exact nomatch h
        · rw [if_neg hempty] at h
          obtain ⟨_, rfl⟩ : conditions' = conditions ∧ values' = values := by simpa using h
          simp only [args, if_neg hempty, hargs]
          omega
    | _ =>
      have hle := ih h
      simp only [flatMap_cons, length_append, args, whereArgs,
        length_nil]
      omega

def havingHoles (calls : List BuilderCall) : List (Option BindValue) :=
  (lastHaving calls).elim [] fun last => holes '?' (fill '?' last.1.toList last.2)

theorem some_append_holes_iff {text : List Char} :
    ws.map some ++ holes '?' (fill '?' text vs) = (vs ++ ws).map some ↔
      text.count '?' = vs.length ∧ vs ++ ws = ws ++ vs := by
  constructor
  · intro h
    have hcount : text.count '?' = vs.length := by
      have hlength := congrArg List.length h
      simp only [length_append, length_map, Holes.length_holes_fill] at hlength
      omega
    rw [Holes.holes_fill_of_count hcount, ← map_append] at h
    exact ⟨hcount, (map_injective_iff.mpr (fun _ _ => Option.some.inj) h).symm⟩
  · rintro ⟨hcount, hcomm⟩
    rw [Holes.holes_fill_of_count hcount, ← map_append, hcomm]

theorem values_nil_of_replaced (h : (lastHaving calls).isSome)
    (heq : (calls.flatMap whereArgs).map some ++ havingHoles calls =
      (values ++ calls.flatMap args).map some) : values = [] := by
  obtain ⟨⟨conditions, values'⟩, hlast⟩ := Option.isSome_iff_exists.mp h
  have hholes : havingHoles calls = holes '?' (fill '?' conditions.toList values') := by
    simp only [havingHoles, hlast, Option.elim_some]
  rw [hholes] at heq
  -- every placeholder has an argument, so the clause has no more of them than its own call gave
  have hsome : ∀ v ∈ holes '?' (fill '?' conditions.toList values'), v.isSome := by
    intro v hv
    have hmem : v ∈ (values ++ calls.flatMap args).map some := by
      rw [← heq]
      exact mem_append_right _ hv
    obtain ⟨value, _, rfl⟩ := mem_map.mp hmem
    rfl
  have hcount := Holes.count_le_of_forall_isSome hsome
  have hlength := congrArg List.length heq
  have hle := length_args_of_lastHaving hlast
  simp only [length_append, length_map, Holes.length_holes_fill] at hlength
  exact length_eq_zero_iff.mp (by omega)

theorem some_whereArgs_append_havingHoles_iff (calls : List BuilderCall) :
    (calls.flatMap whereArgs).map some ++ havingHoles calls =
      (calls.flatMap args).map some ↔ HavingFits calls := by
  induction calls with
  | nil => exact ⟨fun _ => trivial, fun _ => rfl⟩
  | cons c calls ih =>
    cases c with
    | having conditions values =>
      by_cases hempty : conditions = ""
      · have hlast : lastHaving (.having conditions values :: calls) = lastHaving calls := by
          simp [lastHaving, hempty]
        simp only [havingHoles, hlast] at ih ⊢
        simp only [flatMap_cons, whereArgs, args, if_pos hempty,
          nil_append, HavingFits, ih]
        exact ⟨fun h => ⟨fun hne => absurd hempty hne, h⟩, fun h => h.2⟩
      · simp only [flatMap_cons, whereArgs, args, if_neg hempty,
          nil_append, HavingFits]
        cases hcalls : lastHaving calls with
        | some last =>
          have hlast : havingHoles (.having conditions values :: calls) = havingHoles calls := by
            simp [havingHoles, lastHaving, hcalls]
          simp only [Option.isSome_some, if_true, hlast]
          constructor
          · intro h
            obtain rfl := values_nil_of_replaced (by simp [hcalls]) h
            exact ⟨fun _ => rfl, ih.mp h⟩
          · rintro ⟨hvalues, hfits⟩
            rw [hvalues hempty]
            exact ih.mpr hfits
        | none =>
          obtain ⟨hargs, hfits⟩ := args_of_lastHaving_none hcalls
          have hlast : havingHoles (.having conditions values :: calls) =
              holes '?' (fill '?' conditions.toList values) := by
            simp [havingHoles, lastHaving, hcalls, hempty]
          rw [hlast, hargs, some_append_holes_iff]
          exact ⟨fun h => ⟨fun _ => h, hfits⟩, fun h => h.1 hempty⟩
    | compare c =>
      simp only [flatMap_cons, map_append, append_assoc, whereArgs,
        args, append_cancel_left_eq]
      exact ih
    | _ => exact ih

end

/-! ## The placeholders that a call produces -/

theorem count_append (text' : String) :
    (text ++ text').toList.count '?' = text.toList.count '?' + text'.toList.count '?' := by
  rw [String.toList_append, List.count_append]

theorem count_name_append (h : Plain name) :
    (name ++ text).toList.count '?' = text.toList.count '?' := by
  rw [count_append, count_eq_zero_of_not_mem h, Nat.zero_add]

theorem checkParameter_nil (field : String) : checkParameter field [] = decide (field ≠ "") := by
  simp [checkParameter]

namespace Comparison

variable (field : String)

theorem restrict_args (operator : String) (checked args : List BindValue) :
    ((restrict field operator checked args).map Prod.snd).getD [] =
      if checkParameter field checked then args else [] := by
  unfold restrict
  split <;> rfl

theorem equalToCondition_args (value : BindValue) :
    ((equalToCondition field value).map Prod.snd).getD [] = (equalTo field value).args := by
  unfold equalToCondition
  rw [checkParameter_nil]
  by_cases hempty : field = ""
  · simp [args, binds, hempty]
  by_cases horigin : field = ORIGIN_FIELD
  · cases hflag : value.originFlag <;> simp [args, binds, horigin, ORIGIN_FIELD]
  by_cases hdevice : field = ORIGIN_ORIDEVICE
  · cases hvalue : value.isEmptyDevice <;>
      simp [args, binds, hdevice, ORIGIN_FIELD, ORIGIN_ORIDEVICE]
  · simp [args, binds, given, hempty, horigin, hdevice]

theorem notEqualToCondition_args (value : BindValue) :
    ((notEqualToCondition field value).map Prod.snd).getD [] = (notEqualTo field value).args := by
  unfold notEqualToCondition
  rw [checkParameter_nil]
  by_cases hempty : field = ""
  · simp [args, binds, hempty]
  by_cases hdevice : field = ORIGIN_ORIDEVICE
  · cases hvalue : value.isEmptyDevice <;> simp [args, binds, hdevice, ORIGIN_ORIDEVICE]
  · simp [args, binds, given, hempty, hdevice]

theorem condition_args (c : Comparison) : (c.condition.map Prod.snd).getD [] = c.args := by
  cases c with
  | equalTo field value => exact equalToCondition_args field value
  | notEqualTo field value => exact notEqualToCondition_args field value
  | _ =>
    rw [condition, restrict_args]
    simp [checkParameter, args, binds, given, @eq_comm _ (BindValue.string "")]

theorem count_restrict {field operator text : String} {checked args args' : List BindValue}
    (hfield : Plain field) (hoperator : operator.toList.count '?' = args.length)
    (h : restrict field operator checked args = some (text, args')) :
    text.toList.count '?' = args'.length := by
  obtain ⟨rfl, rfl⟩ := restrict_eq_some h
  rw [count_name_append operator hfield, hoperator]

theorem count_joinTexts (n : Nat) :
    (joinTexts "," (List.replicate n "?")).toList.count '?' = n := by
  induction n with
  | zero => rfl
  | succ n ih =>
    cases n with
    | zero => rfl
    | succ n =>
      have hjoin : joinTexts "," (List.replicate (n + 2) "?") =
          "?" ++ (" " ++ "," ++ " ") ++ joinTexts "," (List.replicate (n + 1) "?") := rfl
      rw [hjoin, count_append, ih, Nat.add_comm]
      rfl

theorem count_inList (hfunction : Plain function) (values : List BindValue) :
    (inList function values).toList.count '?' = values.length := by
  unfold inList surroundWithFunction
  rw [count_name_append _ hfunction, count_append, count_append, count_joinTexts]
  exact Nat.zero_add _

theorem count_condition {c : Comparison} {text : String} {args : List BindValue}
    (hfield : Plain c.field) (h : c.condition = some (text, args)) :
    text.toList.count '?' = args.length := by
  cases c with
  | equalTo field value =>
    rcases equalToCondition_cases h with ⟨_, flag, hflag, _, rfl, rfl⟩ | ⟨_, rfl, rfl⟩ |
      ⟨_, _, rfl, rfl⟩
    · rcases hflag with rfl | rfl <;> rfl
    · split <;> rfl
    · exact count_name_append " = ? " hfield
  | notEqualTo field value =>
    rcases notEqualToCondition_cases h with ⟨_, rfl, rfl⟩ | ⟨_, rfl, rfl⟩
    · split <;> rfl
    · exact count_name_append " <> ? " hfield
  | isIn field values => exact count_restrict hfield (count_inList (by decide) values) h
  | notIn field values => exact count_restrict hfield (count_inList (by decide) values) h
  | _ => exact count_restrict hfield rfl h

end Comparison

namespace AbsPredicates
variable {p : AbsPredicates} {c : BuilderCall}

theorem build_whereClause (p : AbsPredicates) (c : BuilderCall) :
    ∃ added, (p.build c).whereClause = p.whereClause ++ added ∧
      (c.NoPlaceholder → added.toList.count '?' = c.whereArgs.length) := by
  have hsame (h : (PredicateCall.build c).effect = .none) :
      (p.build c).whereClause = p.whereClause ++ "" := by
    rw [String.append_empty]
    exact (sameClause_of_effect_none h).1
  cases c with
  | compare c =>
    cases hcond : c.condition with
    | none => exact ⟨"", by simp [build, compare, hcond], fun _ => by
        simp [whereArgs, ← Comparison.condition_args, hcond]⟩
    | some cond =>
      obtain ⟨text, args⟩ := cond
      refine ⟨(if p.isNeedAnd then " AND " else "") ++ text, ?_, fun hfield => ?_⟩
      · cases hneed : p.isNeedAnd <;>
          simp [build, compare, hcond, appendCondition, checkIsNeedAnd, hneed, String.append_assoc]
      · rw [count_append, Comparison.count_condition hfield hcond]
        cases p.isNeedAnd <;> simp [whereArgs, ← Comparison.condition_args, hcond]
  | beginWrap =>
    refine ⟨(if p.isNeedAnd then "AND " else "") ++ " ( ", ?_, fun _ => ?_⟩
    · cases hneed : p.isNeedAnd <;> simp [build, beginWrap, hneed, String.append_assoc]
    · cases p.isNeedAnd <;> rfl
  | endWrap =>
    cases hneed : p.isNeedAnd with
    | true => exact ⟨" ) ", by simp [build, endWrap, hneed], fun _ => rfl⟩
    | false => exact ⟨"", by simp [build, endWrap, hneed], fun _ => rfl⟩
  | or =>
    cases hneed : p.isNeedAnd with
    | true => exact ⟨" OR ", by simp [build, or, hneed], fun _ => rfl⟩
    | false => exact ⟨"", by simp [build, or, hneed], fun _ => rfl⟩
  | _ => exact ⟨"", hsame rfl, fun _ => rfl⟩

theorem build_withArgs (p : AbsPredicates) (args : List BindValue) (c : BuilderCall) :
    { p with bindArgs := args }.build c = { p.build c with bindArgs := args ++ c.args } := by
  cases c with
  | compare c =>
    cases hcond : c.condition with
    | none => simp [build, compare, BuilderCall.args, ← Comparison.condition_args, hcond]
    | some cond =>
      cases hneed : p.isNeedAnd <;>
        simp [build, compare, BuilderCall.args, ← Comparison.condition_args, hcond,
          appendCondition, checkIsNeedAnd, hneed]
  | beginWrap => cases hneed : p.isNeedAnd <;> simp [build, beginWrap, BuilderCall.args, hneed]
  | endWrap => cases hneed : p.isNeedAnd <;> simp [build, endWrap, BuilderCall.args, hneed]
  | or => cases hneed : p.isNeedAnd <;> simp [build, or, BuilderCall.args, hneed]
  | having conditions values =>
    by_cases hempty : conditions = "" <;>
      simp [build, having, BuilderCall.args, checkParameter_nil, hempty]
  | orderByAsc field =>
    by_cases hempty : field = "" <;>
      simp [build, orderByAsc, orderBy, BuilderCall.args, checkParameter_nil, hempty]
  | orderByDesc field =>
    by_cases hempty : field = "" <;>
      simp [build, orderByDesc, orderBy, BuilderCall.args, checkParameter_nil, hempty]
  | groupBy fields =>
    simp only [build, groupBy, BuilderCall.args, append_nil]
    split <;> rfl
  | indexedBy indexName =>
    by_cases hempty : indexName = "" <;>
      simp [build, indexedBy, BuilderCall.args, checkParameter_nil, hempty]
  | _ => simp [build, setLimit, setOffset, BuilderCall.args]

end AbsPredicates

/-! ## The rest of the query -/

theorem Plain.append {text text' : String} (h : Plain text) (h' : Plain text') :
    Plain (text ++ text') := by
  unfold Plain
  rw [String.toList_append, mem_append]
  exact fun hmem => hmem.elim h h'

theorem plain_toString_nat (n : Nat) : Plain (toString n) := by
  intro hmem
  have hdigit : '?' ∈ Nat.toDigits 10 n := by simpa using hmem
  exact absurd (Nat.isDigit_of_mem_toDigits (by decide) (by decide) hdigit) (by decide)

theorem plain_toString_int : ∀ n : Int, Plain (toString n)
  | .ofNat n => plain_toString_nat n
  | .negSucc n => (by decide : Plain "-").append (plain_toString_nat (n + 1))

namespace SqliteSqlBuilder

theorem appendClause_eq (builder name clause : String) :
    appendClause builder name clause = builder ++ appendClause "" name clause := by
  unfold appendClause
  split
  · rw [String.append_empty]
  · rw [String.empty_append, String.append_assoc]

theorem plain_appendClause {builder name clause : String} (hbuilder : Plain builder)
    (hname : Plain name) (hclause : Plain clause) : Plain (appendClause builder name clause) := by
  unfold appendClause
  split
  · exact hbuilder
  · exact (hbuilder.append hname).append hclause

theorem appendLimitAndOffset_eq (builder : String) (limit offset : Int) :
    appendLimitAndOffset builder limit offset =
      builder ++ appendLimitAndOffset "" limit offset := by
  unfold appendLimitAndOffset
  dsimp only
  rw [appendClause_eq (appendClause builder _ _), appendClause_eq builder,
    appendClause_eq (appendClause "" _ _), String.append_assoc]

theorem plain_appendLimitAndOffset (limit offset : Int) :
    Plain (appendLimitAndOffset "" limit offset) := by
  have hnumber (n m : Int) : Plain (if n = m then "" else toString n) := by
    split
    · decide
    · exact plain_toString_int n
  unfold appendLimitAndOffset
  refine plain_appendClause (plain_appendClause ?_ ?_ (hnumber _ _)) ?_ (hnumber _ _) <;> decide

theorem plain_appendColumns {columns : List String} (hcolumns : ∀ column ∈ columns, Plain column) :
    ∀ {builder : String} (previous : String), Plain builder →
      Plain (appendColumns builder previous columns) := by
  induction columns with
  | nil => exact fun _ h => h.append (by decide)
  | cons column columns ih =>
    intro builder previous h
    obtain ⟨hcolumn, hcolumns⟩ := forall_mem_cons.mp hcolumns
    unfold appendColumns
    split
    · exact ih hcolumns _ h
    · refine ih hcolumns _ (Plain.append ?_ hcolumn)
      split
      · exact h
      · exact h.append (by decide)

theorem plain_getSelectClause {columns : List String} (isDistinct : Bool)
    (hcolumns : ∀ column ∈ columns, Plain column) : Plain (getSelectClause columns isDistinct) := by
  have hselect : Plain (if isDistinct then "SELECT " ++ "DISTINCT " else "SELECT ") := by
    cases isDistinct <;> decide
  unfold getSelectClause
  dsimp only
  split
  · exact hselect.append (by decide)
  · exact plain_appendColumns hcolumns _ hselect

end SqliteSqlBuilder

namespace AbsPredicates
variable {p : AbsPredicates} {c : BuilderCall}

structure PlainClauses (p : AbsPredicates) : Prop where
  index : Plain p.index
  group : Plain p.group
  order : Plain p.order

theorem plain_appendGroups {fields : List String} (hfields : ∀ field ∈ fields, Plain field) :
    ∀ {group : String}, Plain group → Plain (appendGroups group fields).2 := by
  induction fields with
  | nil => exact id
  | cons field fields ih =>
    intro group h
    obtain ⟨hfield, hfields⟩ := forall_mem_cons.mp hfields
    unfold appendGroups
    split
    · exact ih hfields ((h.append hfield).append (by decide))
    · exact h

theorem PlainClauses.orderBy {field direction : String} (h : p.PlainClauses) (hfield : Plain field)
    (hdirection : Plain direction) : (p.orderBy field direction).PlainClauses := by
  unfold AbsPredicates.orderBy
  split
  · exact h
  · refine ⟨h.index, h.group, (Plain.append ?_ hfield).append hdirection⟩
    split
    · exact h.order.append (by decide)
    · exact h.order

theorem PlainClauses.groupBy (h : p.PlainClauses) (hfields : ∀ field ∈ fields, Plain field) :
    (p.groupBy fields).PlainClauses := by
  have hgroups := plain_appendGroups hfields h.group
  unfold AbsPredicates.groupBy
  split
  next heq =>
    rw [heq] at hgroups
    exact ⟨h.index, hgroups, h.order⟩
  next heq =>
    rw [heq] at hgroups
    refine ⟨h.index, ?_, h.order⟩
    dsimp only
    split
    · exact hgroups
    · unfold Plain
      rw [String.toList_ofList]
      exact fun hmem => hgroups ((dropLast_sublist _).subset hmem)

theorem PlainClauses.indexedBy (h : p.PlainClauses) (hname : Plain indexName) :
    (p.indexedBy indexName).PlainClauses := by
  unfold AbsPredicates.indexedBy
  split
  · refine ⟨?_, h.group, h.order⟩
    unfold Plain removeQuotes
    rw [String.toList_ofList]
    exact fun hmem => hname (mem_filter.mp hmem).1
  · exact h

structure SameRest (p p' : AbsPredicates) : Prop where
  index : p'.index = p.index
  group : p'.group = p.group
  order : p'.order = p.order
  having : p'.havingClause = p.havingClause

theorem sameRest_compare (c : Comparison) : p.SameRest (p.compare c) := by
  unfold compare
  split
  · exact ⟨rfl, rfl, rfl, rfl⟩
  · unfold appendCondition checkIsNeedAnd
    dsimp only
    split <;> exact ⟨rfl, rfl, rfl, rfl⟩

theorem sameRest_beginWrap : p.SameRest p.beginWrap := by
  unfold beginWrap
  dsimp only
  split <;> exact ⟨rfl, rfl, rfl, rfl⟩

theorem sameRest_endWrap : p.SameRest p.endWrap := by
  unfold endWrap
  split <;> exact ⟨rfl, rfl, rfl, rfl⟩

theorem sameRest_or : p.SameRest p.or := by
  unfold or
  split <;> exact ⟨rfl, rfl, rfl, rfl⟩

theorem PlainClauses.of_sameRest (h : p.PlainClauses) (hsame : p.SameRest p') :
    p'.PlainClauses where
  index := hsame.index ▸ h.index
  group := hsame.group ▸ h.group
  order := hsame.order ▸ h.order

theorem PlainClauses.having (h : p.PlainClauses) (conditions : String) (values : List BindValue) :
    (p.having conditions values).PlainClauses := by
  unfold AbsPredicates.having
  split <;> exact ⟨h.index, h.group, h.order⟩

theorem PlainClauses.build (h : p.PlainClauses) (hc : c.NoPlaceholder) :
    (p.build c).PlainClauses := by
  cases c with
  | compare c => exact h.of_sameRest (sameRest_compare c)
  | beginWrap => exact h.of_sameRest sameRest_beginWrap
  | endWrap => exact h.of_sameRest sameRest_endWrap
  | or => exact h.of_sameRest sameRest_or
  | orderByAsc field => exact h.orderBy hc (by decide)
  | orderByDesc field => exact h.orderBy hc (by decide)
  | groupBy fields => exact h.groupBy hc
  | indexedBy indexName => exact h.indexedBy hc
  | having conditions values => exact h.having conditions values
  | and | distinct | limit | limitOffset | offset => exact ⟨h.index, h.group, h.order⟩

theorem build_havingClause (p : AbsPredicates) (c : BuilderCall)
    (h : ∀ conditions values, c ≠ .having conditions values) :
    (p.build c).havingClause = p.havingClause := by
  cases c with
  | having conditions values => exact absurd rfl (h conditions values)
  | compare c => exact (sameRest_compare c).having
  | beginWrap => exact sameRest_beginWrap.having
  | endWrap => exact sameRest_endWrap.having
  | or => exact sameRest_or.having
  | orderByAsc | orderByDesc =>
    unfold build orderByAsc orderByDesc orderBy
    dsimp only
    split <;> rfl
  | groupBy =>
    unfold build groupBy
    dsimp only
    split <;> rfl
  | indexedBy =>
    unfold build indexedBy
    dsimp only
    split <;> rfl
  | and | distinct | limit | limitOffset | offset => rfl

end AbsPredicates

/-! ## The marks along a run -/

namespace MarkedRun

variable (m : MarkedRun)

@[simp] theorem buildAll_cons (c : BuilderCall) (calls : List BuilderCall) :
    m.buildAll (c :: calls) = (m.build c).buildAll calls := rfl

theorem buildAll_p (calls : List BuilderCall) :
    (m.buildAll calls).p = m.p.buildAll calls := by
  induction calls generalizing m with
  | nil => rfl
  | cons c calls ih => exact ih (m.build c)

structure Inv (m : MarkedRun) : Prop where
  whereText : m.whereMarks.map Prod.fst = m.p.whereClause.toList
  havingText : m.havingMarks.map Prod.fst = m.p.havingClause.toList
  plain : m.p.PlainClauses

theorem Inv.build {m : MarkedRun} {c : BuilderCall} (h : Inv m) (hc : c.NoPlaceholder) :
    Inv (m.build c) where
  whereText := by
    obtain ⟨added, hadded, _⟩ := m.p.build_whereClause c
    simp only [MarkedRun.build, map_append, Holes.map_fst_fill, h.whereText, hadded,
      String.toList_append, drop_left]
  havingText := by
    cases c with
    | having conditions values =>
      by_cases hempty : conditions = "" <;>
        simp [MarkedRun.build, AbsPredicates.build, AbsPredicates.having, checkParameter_nil,
          hempty, h.havingText]
    | _ =>
      refine h.havingText.trans (congrArg String.toList ?_)
      exact (m.p.build_havingClause _ fun _ _ => BuilderCall.noConfusion).symm
  plain := h.plain.build hc

theorem Inv.buildAll {m : MarkedRun} {calls : List BuilderCall} (h : Inv m)
    (hcalls : ∀ c ∈ calls, c.NoPlaceholder) : Inv (m.buildAll calls) := by
  induction calls generalizing m with
  | nil => exact h
  | cons c calls ih =>
    obtain ⟨hc, hcalls⟩ := forall_mem_cons.mp hcalls
    exact ih (h.build hc) hcalls

theorem holes_whereMarks (hcalls : ∀ c ∈ calls, c.NoPlaceholder) :
    holes '?' (m.buildAll calls).whereMarks =
      holes '?' m.whereMarks ++ (calls.flatMap whereArgs).map some := by
  induction calls generalizing m with
  | nil => exact (append_nil _).symm
  | cons c calls ih =>
    obtain ⟨hc, hcalls⟩ := forall_mem_cons.mp hcalls
    obtain ⟨added, hadded, hcount⟩ := m.p.build_whereClause c
    have hmarks : holes '?' (m.build c).whereMarks =
        holes '?' m.whereMarks ++ c.whereArgs.map some := by
      simp only [MarkedRun.build, Holes.holes_append, hadded, String.toList_append,
        drop_left, Holes.holes_fill_of_count (hcount hc)]
    rw [buildAll_cons, ih (m.build c) hcalls, hmarks, flatMap_cons, map_append,
      append_assoc]

theorem havingMarks_buildAll (calls : List BuilderCall) :
    (m.buildAll calls).havingMarks =
      (lastHaving calls).elim m.havingMarks fun last => fill '?' last.1.toList last.2 := by
  induction calls generalizing m with
  | nil => rfl
  | cons c calls ih =>
    rw [buildAll_cons, ih]
    cases c with
    | having conditions values =>
      cases hlast : lastHaving calls with
      | some last => simp [lastHaving, hlast]
      | none =>
        by_cases hempty : conditions = "" <;> simp [lastHaving, hlast, hempty, MarkedRun.build]
    | _ => rfl

end MarkedRun

theorem AbsPredicates.buildAll_withArgs (p : AbsPredicates) (args : List BindValue)
    (calls : List BuilderCall) : { p with bindArgs := args }.buildAll calls =
      { p.buildAll calls with bindArgs := args ++ calls.flatMap BuilderCall.args } := by
  induction calls generalizing p args with
  | nil => rw [flatMap_nil, append_nil]; rfl
  | cons c calls ih =>
    rw [buildAll_cons, build_withArgs, ih, flatMap_cons, ← append_assoc]
    rfl

theorem AbsPredicates.buildAll_bindArgs (p : AbsPredicates) (calls : List BuilderCall) :
    (p.buildAll calls).bindArgs = p.bindArgs ++ calls.flatMap args :=
  congrArg bindArgs (p.buildAll_withArgs p.bindArgs calls)

/-! ## The query -/

theorem map_fst_unbound : (unbound text).map Prod.fst = text.toList :=
  Holes.map_fst_fill _ _

theorem holes_unbound {text : String} (h : Plain text) : holes '?' (unbound text) = [] :=
  Holes.holes_fill_of_not_mem _ h

namespace MarkedRun

open SqliteSqlBuilder

theorem map_fst_clause {name text : String} {marks : MarkedText}
    (h : marks.map Prod.fst = text.toList) :
    (clause name marks).map Prod.fst = (appendClause "" name text).toList := by
  have hnil : marks = [] ↔ text = "" := by
    rw [← map_eq_nil_iff, h, String.toList_eq_nil_iff]
  unfold clause appendClause
  by_cases hempty : text = ""
  · rw [if_pos (hnil.mpr hempty), if_pos hempty]
    rfl
  · rw [if_neg (mt hnil.mp hempty), if_neg hempty, map_append, map_fst_unbound, h,
      String.empty_append, String.toList_append]

theorem holes_clause {name : String} (marks : MarkedText) (hname : Plain name) :
    holes '?' (clause name marks) = holes '?' marks := by
  unfold clause
  split
  next hnil => rw [hnil]
  · rw [Holes.holes_append, holes_unbound hname, nil_append]

theorem map_fst_query {table : String} {m : MarkedRun} (columns : List String) (htable : table ≠ "")
    (h : Inv m) :
    (query table m columns).map Prod.fst = (buildQueryString table m.p columns).toList := by
  have hclauses : buildClauseFromPredicates m.p = appendClause "" " INDEXED BY " m.p.index ++
      (appendClause "" " WHERE " m.p.whereClause ++ (appendClause "" " GROUP BY " m.p.group ++
      (appendClause "" " HAVING " m.p.havingClause ++ (appendClause "" " ORDER BY " m.p.order ++
      appendLimitAndOffset "" m.p.limit m.p.offset)))) := by
    unfold buildClauseFromPredicates
    dsimp only
    rw [appendLimitAndOffset_eq, appendClause_eq _ " ORDER BY ", appendClause_eq _ " HAVING ",
      appendClause_eq _ " GROUP BY ", appendClause_eq _ " WHERE "]
    simp only [String.append_assoc]
  rw [buildQueryString, if_neg htable, hclauses]
  simp only [query, map_append, map_fst_unbound, map_fst_clause h.whereText,
    map_fst_clause h.havingText, String.toList_append]

theorem holes_query {table : String} {columns : List String} {m : MarkedRun}
    (htable : Plain table) (hcolumns : ∀ column ∈ columns, Plain column) (h : Inv m) :
    holes '?' (query table m columns) = holes '?' m.whereMarks ++ holes '?' m.havingMarks := by
  have hfrom : Plain (appendClause (getSelectClause columns m.p.distinct) " FROM " table) :=
    plain_appendClause (plain_getSelectClause _ hcolumns) (by decide) htable
  have hclause {name text : String} (hname : Plain name) (htext : Plain text) :
      Plain (appendClause "" name text) := plain_appendClause (by decide) hname htext
  simp only [query, Holes.holes_append, holes_unbound hfrom,
    holes_unbound (hclause (by decide : Plain " INDEXED BY ") h.plain.index),
    holes_unbound (hclause (by decide : Plain " GROUP BY ") h.plain.group),
    holes_unbound (hclause (by decide : Plain " ORDER BY ") h.plain.order),
    holes_unbound (plain_appendLimitAndOffset m.p.limit m.p.offset),
    holes_clause _ (by decide : Plain " WHERE "), holes_clause _ (by decide : Plain " HAVING "),
    nil_append, append_nil]

theorem argumentsMatch_iff_havingFits (table : String) (columns : List String)
    (calls : List BuilderCall) (htable : table ≠ "") (hplain : Plain table)
    (hcolumns : ∀ column ∈ columns, Plain column) (hcalls : ∀ c ∈ calls, c.NoPlaceholder) :
    ArgumentsMatch table columns calls ↔ HavingFits calls := by
  have hinv : Inv (initial.buildAll calls) :=
    Inv.buildAll ⟨rfl, rfl, by decide, by decide, by decide⟩ hcalls
  have hp : (initial.buildAll calls).p = empty.buildAll calls := buildAll_p _ _
  have htext := map_fst_query columns htable hinv
  rw [hp] at htext
  have hargs : (empty.buildAll calls).bindArgs = calls.flatMap args :=
    buildAll_bindArgs _ _
  have hholes : holes '?' (query table (initial.buildAll calls) columns) =
      (calls.flatMap whereArgs).map some ++ havingHoles calls := by
    rw [holes_query hplain hcolumns hinv, holes_whereMarks _ hcalls, havingMarks_buildAll]
    unfold havingHoles
    cases lastHaving calls <;> rfl
  rw [← some_whereArgs_append_havingHoles_iff, ← hholes, ← hargs]
  constructor
  · exact fun h => h.2.2
  · intro h
    refine ⟨htext, ?_, h⟩
    rw [← htext, ← Holes.length_holes, h, length_map]

theorem argumentsMatch_iff_havingFits_last :
    ArgumentsMatch "t" ["b"] [.compare (.equalTo "a" (.integer 1)), .groupBy ["b"],
      .having "count(*) > ?" [.integer 2]] :=
  (argumentsMatch_iff_havingFits "t" ["b"] _ (by decide) (by decide) (by decide)
    (by simp only [forall_mem_cons]
        exact ⟨(by decide : Plain "a"), (by decide : ∀ field ∈ ["b"], Plain field), trivial,
          fun _ h => nomatch h⟩)).mpr ⟨fun _ => ⟨rfl, rfl⟩, trivial⟩

theorem having_before_equalTo :
    (buildQueryString "t" (empty.buildAll [.groupBy ["b"],
      .having "count(*) > ?" [.integer 1], .compare (.equalTo "a" (.integer 2))]) ["b"] =
        "SELECT b  FROM t WHERE a = ?  GROUP BY b HAVING count(*) > ?") ∧
    (empty.buildAll [.groupBy ["b"], .having "count(*) > ?" [.integer 1],
      .compare (.equalTo "a" (.integer 2))]).bindArgs = [.integer 1, .integer 2] ∧
    ¬ArgumentsMatch "t" ["b"] [.groupBy ["b"], .having "count(*) > ?" [.integer 1],
      .compare (.equalTo "a" (.integer 2))] := by
  refine ⟨by decide, by decide, fun h => ?_⟩
  exact absurd h.2.2 (by decide)

end MarkedRun

end RelationalStore
