import RelationalStore.Rdb.Predicates.Bind
import RelationalStore.Theory.Separated

/-! # Predicates in a parcel

The clauses go through a parcel one by one, apart from the having clause. -/

namespace RelationalStore

open List AbsPredicates

structure DataAbilityPredicates where
  predicates : AbsPredicates := .empty
  isRawSelection : Bool := false
  judgeSource : Bool := false

inductive ParcelItem where
  | bool (value : Bool)
  | int32 (value : Int)
  | string (value : String)
  | stringVector (value : List String)

abbrev ParcelReader := StateT (List ParcelItem) Option

namespace ParcelReader

def readBool : ParcelReader Bool
  | .bool value :: rest => some (value, rest)
  | _ => none

def readInt32 : ParcelReader Int
  | .int32 value :: rest => some (value, rest)
  | _ => none

def readString : ParcelReader String
  | .string value :: rest => some (value, rest)
  | _ => none

def readStringVector : ParcelReader (List String)
  | .stringVector value :: rest => some (value, rest)
  | _ => none

end ParcelReader

def BindValue.getString (format : BindValue → String) : BindValue → String
  | .string value => value
  | value => format value

def AbsPredicates.getWhereArgs (format : BindValue → String) (p : AbsPredicates) : List String :=
  p.bindArgs.map (·.getString format)

namespace PredicatesUtils

def getlines : List Char → List Char → List String
  | piece, [] => if piece = [] then [] else [String.ofList piece]
  | piece, c :: text =>
    if c = ',' then String.ofList piece :: getlines [] text else getlines (piece ++ [c]) text

def callIf (condition : Prop) [Decidable condition] (call : AbsPredicates → AbsPredicates)
    (p : AbsPredicates) : AbsPredicates :=
  if condition then call p else p

def setAttributes (p : AbsPredicates) (isDistinct : Bool) (index group order : String)
    (limit offset : Int) : AbsPredicates :=
  let p := callIf isDistinct (·.build .distinct) p
  let p := callIf (index ≠ "") (·.indexedBy index) p
  let p := callIf (group ≠ "") (·.groupBy (getlines [] group.toList)) p
  let p := callIf (order ≠ "") (·.setOrder order) p
  let p := callIf (limit ≠ INIT_LIMIT_VALUE) (·.setLimit limit) p
  callIf (offset ≠ INIT_OFFSET_VALUE) (·.setOffset offset) p

end PredicatesUtils

namespace DataAbilityPredicates
open ParcelReader

def validObjectFlag : Int := 1
def invalidObjectFlag : Int := 0

def marshallingString (value : String) : List ParcelItem :=
  if value.length ≠ 0 then [.int32 validObjectFlag, .string value] else [.int32 invalidObjectFlag]

def marshallingStringList (list : List String) : List ParcelItem :=
  if list.length ≠ 0 then [.int32 validObjectFlag, .stringVector list]
  else [.int32 invalidObjectFlag]

def marshallingInt (initial value : Int) : List ParcelItem :=
  if value ≠ initial then [.int32 validObjectFlag, .int32 value] else [.int32 invalidObjectFlag]

variable (format : BindValue → String)

def marshalling (d : DataAbilityPredicates) : List ParcelItem :=
  .bool d.isRawSelection :: (marshallingString d.predicates.whereClause ++
    (marshallingStringList (d.predicates.getWhereArgs format) ++
      (.bool d.predicates.distinct :: (marshallingString d.predicates.index ++
        (marshallingString d.predicates.group ++ (marshallingString d.predicates.order ++
          (marshallingInt INIT_LIMIT_VALUE d.predicates.limit ++
            marshallingInt INIT_OFFSET_VALUE d.predicates.offset)))))))

def readFlagged {α : Type} (read : ParcelReader α) (default : α) : ParcelReader α := do
  if (← readInt32) ≠ invalidObjectFlag then read else pure default

def ofParcel : ParcelReader DataAbilityPredicates := do
  let isRawSelection ← readBool
  let whereClause ← readFlagged readString ""
  let whereArgs ← readFlagged readStringVector []
  let isDistinct ← readBool
  let index ← readFlagged readString ""
  let group ← readFlagged readString ""
  let order ← readFlagged readString ""
  let limit ← readFlagged readInt32 INIT_LIMIT_VALUE
  let offset ← readFlagged readInt32 INIT_OFFSET_VALUE
  let p := { empty.setWhereClause whereClause with
    bindArgs := whereArgs.map .string }
  pure { predicates := PredicatesUtils.setAttributes p isDistinct index group order limit offset,
         isRawSelection, judgeSource := true }

def unmarshalling (parcel : List ParcelItem) : Option DataAbilityPredicates :=
  (ofParcel.run parcel).map Prod.fst

/-! ## Reading what was written -/

section
variable {rest : List ParcelItem}

theorem readFlagged_string (value : String) :
    readFlagged readString "" (marshallingString value ++ rest) = some (value, rest) := by
  rw [marshallingString]
  split
  · rfl
  next hempty =>
    rw [String.length_eq_zero_iff.mp (not_not.mp hempty)]
    rfl

theorem readFlagged_stringVector (list : List String) :
    readFlagged readStringVector [] (marshallingStringList list ++ rest) = some (list, rest) := by
  rw [marshallingStringList]
  split
  · rfl
  next hempty =>
    rw [length_eq_zero_iff.mp (not_not.mp hempty)]
    rfl

theorem readFlagged_int32 (initial value : Int) :
    readFlagged readInt32 initial (marshallingInt initial value ++ rest) = some (value, rest) := by
  rw [marshallingInt]
  split
  · rfl
  next hinitial =>
    rw [not_not.mp hinitial]
    rfl

end

def received (p : AbsPredicates) : AbsPredicates :=
  PredicatesUtils.setAttributes { empty.setWhereClause p.whereClause with
    bindArgs := (p.getWhereArgs format).map .string }
    p.distinct p.index p.group p.order p.limit p.offset

theorem unmarshalling_marshalling (d : DataAbilityPredicates) :
    unmarshalling (marshalling format d) =
      some ⟨received format d.predicates, d.isRawSelection, true⟩ := by
  have hlast : readFlagged readInt32 INIT_OFFSET_VALUE
      (marshallingInt INIT_OFFSET_VALUE d.predicates.offset ++ []) = _ := readFlagged_int32 _ _
  rw [append_nil] at hlast
  simp only [unmarshalling, ofParcel, StateT.run, bind, StateT.bind, marshalling, readBool,
    Option.bind_some, readFlagged_string, readFlagged_stringVector, readFlagged_int32, hlast]
  rfl

/-! ## The groups, once more through `GroupBy` -/

def regrouped (group : String) : String :=
  match appendGroups "" (PredicatesUtils.getlines [] group.toList) with
  | (false, group) => group
  | (true, group) => String.ofList group.toList.dropLast

theorem regroup_iff (piece text : List Char) (group : String) :
    (match appendGroups group (PredicatesUtils.getlines piece text) with
      | (false, group) => group.toList
      | (true, group) => group.toList.dropLast) = group.toList ++ piece ++ text ↔
      (piece = [] → text.head? ≠ some ',' ∧ (text = [] → group = "")) ∧
        text.getLast? ≠ some ',' ∧ text.IsChain fun a b => a ≠ ',' ∨ b ≠ ',' := by
  induction text generalizing piece group with
  | nil =>
    rw [PredicatesUtils.getlines]
    by_cases hpiece : piece = []
    · subst hpiece
      have hdrop : group.toList.dropLast = group.toList ↔ group = "" := by
        rw [← String.toList_eq_nil_iff]
        cases group.toList using List.reverseRecOn <;> simp
      simpa [appendGroups] using hdrop
    · simp [appendGroups, checkParameter, hpiece]
  | cons c text ih =>
    rw [PredicatesUtils.getlines]
    by_cases hc : c = ','
    · subst hc
      by_cases hpiece : piece = []
      · subst hpiece
        simp [appendGroups, checkParameter]
      · rw [if_pos rfl, appendGroups, if_pos (by simp [checkParameter, hpiece])]
        have hnext := ih [] (group ++ String.ofList piece ++ ",")
        have htext : (group ++ String.ofList piece ++ ",").toList ++ [] ++ text =
            group.toList ++ piece ++ ',' :: text := by simp
        rw [htext] at hnext
        rw [hnext]
        cases text with
        | nil => simp [hpiece]
        | cons d text => simp [hpiece, isChain_cons_cons, and_left_comm]
    · rw [if_neg hc]
      have hnext := ih (piece ++ [c]) group
      have htext : group.toList ++ (piece ++ [c]) ++ text = group.toList ++ piece ++ c :: text := by
        simp
      rw [htext] at hnext
      rw [hnext]
      cases text with
      | nil => simp [hc]
      | cons d text => simp [hc, isChain_cons_cons]

theorem getlines_ne_nil (h : piece ++ text ≠ []) : PredicatesUtils.getlines piece text ≠ [] := by
  induction text generalizing piece with
  | nil => simpa [PredicatesUtils.getlines] using h
  | cons c text ih =>
    rw [PredicatesUtils.getlines]
    split
    · exact cons_ne_nil _ _
    · exact ih (by simp)

theorem regrouped_eq_iff (group : String) : regrouped group = group ↔ Clean ',' group.toList := by
  have h := regroup_iff [] group.toList ""
  have hlist : (regrouped group).toList =
      match appendGroups "" (PredicatesUtils.getlines [] group.toList) with
        | (false, group) => group.toList
        | (true, group) => group.toList.dropLast := by
    rw [regrouped]
    split
    · rfl
    · exact String.toList_ofList
  rw [← String.toList_inj, hlist]
  refine h.trans ⟨fun h => ⟨(h.1 rfl).1, h.2.1, h.2.2⟩, fun h => ⟨fun _ => ?_, h.last, h.apart⟩⟩
  exact ⟨h.head, fun _ => rfl⟩

/-! ## What is received -/

structure Normal (p : AbsPredicates) : Prop where
  index : removeQuotes p.index = p.index
  limit : p.limit = INIT_LIMIT_VALUE ∨ p.limit = if p.limit ≤ 0 then -1 else p.limit
  offset : p.offset = INIT_OFFSET_VALUE ∨ p.offset = if p.offset < 0 then -1 else p.offset

section
open PredicatesUtils
variable {p : AbsPredicates} {format : BindValue → String}

theorem removeQuotes_idem (source : String) :
    removeQuotes (removeQuotes source) = removeQuotes source := by
  simp [removeQuotes, filter_filter]

theorem Normal.setLimit (h : Normal p) (limit : Int) : Normal (p.setLimit limit) := by
  refine ⟨h.index, .inr ?_, h.offset⟩
  by_cases hlimit : limit ≤ 0 <;> simp [AbsPredicates.setLimit, hlimit]

theorem Normal.setOffset (h : Normal p) (offset : Int) : Normal (p.setOffset offset) := by
  refine ⟨h.index, h.limit, .inr ?_⟩
  by_cases hoffset : offset < 0 <;> simp [AbsPredicates.setOffset, hoffset]

theorem Normal.build (h : Normal p) (c : BuilderCall) : Normal (p.build c) := by
  cases c with
  | compare | beginWrap | endWrap | or =>
    rw [p.build_where]
    · exact ⟨h.index, h.limit, h.offset⟩
    · rfl
  | orderByAsc field =>
    obtain ⟨_, _, heq⟩ := p.exists_orderBy field " ASC "
    rw [AbsPredicates.build, AbsPredicates.orderByAsc, heq]
    exact ⟨h.index, h.limit, h.offset⟩
  | orderByDesc field =>
    obtain ⟨_, _, heq⟩ := p.exists_orderBy field " DESC "
    rw [AbsPredicates.build, AbsPredicates.orderByDesc, heq]
    exact ⟨h.index, h.limit, h.offset⟩
  | groupBy fields =>
    obtain ⟨_, heq⟩ := p.exists_groupBy fields
    rw [AbsPredicates.build, heq]
    exact ⟨h.index, h.limit, h.offset⟩
  | having conditions values =>
    obtain ⟨_, _, heq⟩ := p.exists_having conditions values
    rw [AbsPredicates.build, heq]
    exact ⟨h.index, h.limit, h.offset⟩
  | indexedBy indexName =>
    rw [AbsPredicates.build, AbsPredicates.indexedBy]
    split
    · exact ⟨removeQuotes_idem indexName, h.limit, h.offset⟩
    · exact h
  | limit value => exact h.setLimit value
  | offset value => exact h.setOffset value
  | limitOffset offset limit => exact (h.setLimit limit).setOffset offset
  | and => exact h
  | distinct => exact ⟨h.index, h.limit, h.offset⟩

theorem normal_buildAll (calls : List BuilderCall) :
    Normal (empty.buildAll calls) := by
  have hempty : Normal .empty := ⟨rfl, .inl rfl, .inl rfl⟩
  revert hempty
  generalize empty = p
  intro h
  induction calls generalizing p with
  | nil => exact h
  | cons c calls ih => exact ih (p.build c) (h.build c)

theorem received_eq (h : Normal p) : received format p =
    { p with
      bindArgs := (p.getWhereArgs format).map .string
      group := regrouped p.group
      havingClause := ""
      isNeedAnd := false
      isSorted := false } := by
  have hwhere : empty.setWhereClause p.whereClause =
      { empty with whereClause := p.whereClause } := by
    rw [setWhereClause]
    split
    next hempty =>
      rw [hempty]
      rfl
    · rfl
  have hdistinct (q : AbsPredicates) (hq : q.distinct = false) :
      callIf p.distinct (·.build .distinct) q = { q with distinct := p.distinct } := by
    rw [callIf]
    cases hp : p.distinct <;> simp [build, ← hq]
  have hindex (q : AbsPredicates) (hq : q.index = "") :
      callIf (p.index ≠ "") (·.indexedBy p.index) q = { q with index := p.index } := by
    by_cases hempty : p.index = ""
    · simp [callIf, hempty, ← hq]
    · simp [callIf, hempty, indexedBy, checkParameter, h.index]
  have hgroup (q : AbsPredicates) (hq : q.group = "") :
      callIf (p.group ≠ "") (·.groupBy (getlines [] p.group.toList)) q =
        { q with group := regrouped p.group } := by
    by_cases hempty : p.group = ""
    · rw [hempty, show regrouped "" = q.group from hq.symm]
      exact if_neg (not_not.mpr rfl)
    · have hpieces : getlines [] p.group.toList ≠ [] := getlines_ne_nil (by simpa using hempty)
      rw [callIf, if_pos hempty, groupBy, hq, regrouped]
      split <;> simp [*]
  have horder (q : AbsPredicates) (hq : q.order = "") :
      callIf (p.order ≠ "") (·.setOrder p.order) q = { q with order := p.order } := by
    by_cases hempty : p.order = ""
    · simp [callIf, hempty, ← hq]
    · simp [callIf, hempty, setOrder]
  have hlimit (q : AbsPredicates) (hq : q.limit = INIT_LIMIT_VALUE) :
      callIf (p.limit ≠ INIT_LIMIT_VALUE) (·.setLimit p.limit) q = { q with limit := p.limit } := by
    by_cases hinit : p.limit = INIT_LIMIT_VALUE
    · simp [callIf, hinit, ← hq]
    · rw [callIf, if_pos hinit, setLimit, ← h.limit.resolve_left hinit]
  have hoffset (q : AbsPredicates) (hq : q.offset = INIT_OFFSET_VALUE) :
      callIf (p.offset ≠ INIT_OFFSET_VALUE) (·.setOffset p.offset) q =
        { q with offset := p.offset } := by
    by_cases hinit : p.offset = INIT_OFFSET_VALUE
    · simp [callIf, hinit, ← hq]
    · rw [callIf, if_pos hinit, setOffset, ← h.offset.resolve_left hinit]
  rw [received, hwhere, PredicatesUtils.setAttributes]
  dsimp only
  rw [hdistinct _ rfl, hindex _ rfl, hgroup _ rfl, horder _ rfl, hlimit _ rfl, hoffset _ rfl]
  rfl

end

/-! ## The two objects from there on -/

structure PredicatesView where
  whereClause : String
  whereArgs : List String
  distinct : Bool
  index : String
  group : String
  havingClause : String
  order : String
  limit : Int
  offset : Int
  deriving DecidableEq

def view (p : AbsPredicates) : PredicatesView :=
  ⟨p.whereClause, p.getWhereArgs format, p.distinct, p.index, p.group, p.havingClause, p.order,
    p.limit, p.offset⟩

structure Transferable (p : AbsPredicates) : Prop where
  having : p.havingClause = ""
  isNeedAnd : p.isNeedAnd = false
  isSorted : p.isSorted = false
  group : Clean ',' p.group.toList

section
variable {p : AbsPredicates} {format : BindValue → String}

theorem map_getString (args : List BindValue) :
    ((args.map (·.getString format)).map BindValue.string).map (·.getString format) =
      args.map (·.getString format) := by
  rw [map_map, map_map]
  rfl

theorem Transferable.view_eq (h : Transferable p) (hnormal : Normal p)
    (further : List BuilderCall) :
    view format ((received format p).buildAll further) = view format (p.buildAll further) := by
  have hreceived : received format p =
      { p with bindArgs := (p.getWhereArgs format).map .string } := by
    rw [received_eq hnormal, (regrouped_eq_iff _).mpr h.group]
    obtain ⟨hhaving, hneed, hsorted, -⟩ := h
    cases p
    subst hhaving hneed hsorted
    rfl
  rw [hreceived, buildAll_withArgs]
  simp only [view, getWhereArgs, p.buildAll_bindArgs further, map_append,
    map_getString]

theorem transferable_of_view (hnormal : Normal p)
    (h : ∀ further, view format ((received format p).buildAll further) =
      view format (p.buildAll further)) : Transferable p := by
  rw [received_eq hnormal] at h
  refine ⟨?_, ?_, ?_, ?_⟩
  · exact (congrArg PredicatesView.havingClause (h [])).symm
  · have hwhere := congrArg PredicatesView.whereClause (h [.compare (.isNull "x")])
    cases hneed : p.isNeedAnd with
    | false => rfl
    | true =>
      have hlength := congrArg String.length hwhere
      simp [view, AbsPredicates.buildAll, AbsPredicates.build, AbsPredicates.compare,
        Comparison.condition, Comparison.restrict, checkParameter, AbsPredicates.appendCondition,
        AbsPredicates.checkIsNeedAnd, hneed] at hlength
  · have horder := congrArg PredicatesView.order (h [.orderByAsc "x"])
    cases hsorted : p.isSorted with
    | false => rfl
    | true =>
      have hlength := congrArg String.length horder
      simp [view, AbsPredicates.buildAll, AbsPredicates.build, AbsPredicates.orderByAsc,
        AbsPredicates.orderBy, checkParameter, hsorted] at hlength
  · exact (regrouped_eq_iff _).mp (congrArg PredicatesView.group (h []))

end

theorem unmarshalling_view_iff (calls : List BuilderCall) :
    ∃ d, unmarshalling (marshalling format { predicates := empty.buildAll calls }) =
        some d ∧
      ((∀ further, view format (d.predicates.buildAll further) =
          view format ((empty.buildAll calls).buildAll further)) ↔
        Transferable (empty.buildAll calls)) := by
  refine ⟨_, unmarshalling_marshalling format _, fun h => ?_, fun h further => ?_⟩
  · exact transferable_of_view (normal_buildAll calls) h
  · exact h.view_eq (normal_buildAll calls) further

theorem unmarshalling_second_condition :
    ∃ d, unmarshalling (marshalling (fun _ => "") ⟨empty.buildAll
        [.compare (.equalTo "NAME" (.string "Tom"))], false, false⟩) = some d ∧
      (d.predicates.buildAll [.compare (.isNull "AGE")]).whereClause = "NAME = ? AGE IS NULL " ∧
      ((empty.buildAll [.compare (.equalTo "NAME" (.string "Tom"))]).buildAll
        [.compare (.isNull "AGE")]).whereClause = "NAME = ?  AND AGE IS NULL " :=
  ⟨_, unmarshalling_marshalling _ _, by decide +kernel, by decide +kernel⟩

end DataAbilityPredicates

end RelationalStore
