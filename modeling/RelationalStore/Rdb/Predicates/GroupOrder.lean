import Mathlib.Data.List.TakeWhile
import RelationalStore.Theory.Separated
import RelationalStore.Rdb.Predicates.Basic

/-! # The group and the order clause

An order puts its comma before a field, `GroupBy` behind each and takes the last one away. -/

namespace RelationalStore

open List

inductive ListCall where
  | groupBy (fields : List String)
  | orderByAsc (field : String)
  | orderByDesc (field : String)

namespace ListCall

def toBuilder : ListCall → BuilderCall
  | .groupBy fields => .groupBy fields
  | .orderByAsc field => .orderByAsc field
  | .orderByDesc field => .orderByDesc field

def HasEmptyField : ListCall → Prop
  | .groupBy fields => "" ∈ fields
  | .orderByAsc field | .orderByDesc field => field = ""

def groupFields : ListCall → List String
  | .groupBy fields => if "" ∈ fields then [] else fields
  | .orderByAsc _ | .orderByDesc _ => []

def orderField : ListCall → List (String × String)
  | .groupBy _ => []
  | .orderByAsc field => if field = "" then [] else [(field, " ASC ")]
  | .orderByDesc field => if field = "" then [] else [(field, " DESC ")]

def orderTerms (c : ListCall) : List String :=
  c.orderField.map fun (field, direction) => field ++ direction

def groupText : ListCall → String
  | .groupBy fields =>
    if "" ∈ fields then String.join ((fields.takeWhile (· ≠ "")).map (· ++ ","))
    else ",".intercalate fields
  | .orderByAsc _ | .orderByDesc _ => ""

def step (p : AbsPredicates) (c : ListCall) : Unit × AbsPredicates := ((), p.build c.toBuilder)

structure Lists (calls : List ListCall) : Prop where
  group : (final step .empty calls).group = ",".intercalate (calls.flatMap groupFields)
  order : (final step .empty calls).order = ",".intercalate (calls.flatMap orderTerms)
  groupClean : Clean ',' (final step .empty calls).group.toList
  orderClean : Clean ',' (final step .empty calls).order.toList
  rejected : ∀ t ∈ trace step .empty calls, t.call.HasEmptyField →
    t.post.group = t.pre.group ∧ t.post.order = t.pre.order

/-- At most one call groups, those rejected begin with an empty field, and no field brings a stray
comma. A field of the order clause may end in a comma, since its direction follows. -/
structure Orderly (calls : List ListCall) : Prop where
  one : (calls.filter fun c => !c.groupFields.isEmpty).length ≤ 1
  begins : ∀ fields, .groupBy fields ∈ calls → "" ∈ fields → fields.head? = some ""
  groupClean : ∀ field ∈ calls.flatMap groupFields, Clean ',' field.toList
  orderClean : ∀ field ∈ calls.flatMap orderField, field.1.toList.head? ≠ some ',' ∧
    field.1.toList.IsChain fun a b => a ≠ ',' ∨ b ≠ ','

end ListCall

/-! ## One call -/

namespace AbsPredicates

theorem appendGroups_eq (group : String) (fields : List String) :
    appendGroups group fields = (decide ("" ∉ fields),
      group ++ String.join ((fields.takeWhile (· ≠ "")).map (· ++ ","))) := by
  induction fields generalizing group with
  | nil => simp [appendGroups]
  | cons field fields ih =>
    by_cases hempty : field = ""
    · simp [appendGroups, checkParameter, hempty]
    · have hcheck : checkParameter field [] := by simp [checkParameter, hempty]
      rw [appendGroups, if_pos hcheck, ih]
      simp [hempty, Ne.symm hempty, String.append_assoc]

theorem join_map_comma (h : fields ≠ []) :
    String.join (fields.map (· ++ ",")) = ",".intercalate fields ++ "," := by
  induction fields with
  | nil => exact absurd rfl h
  | cons field fields ih =>
    cases fields with
    | nil => simp
    | cons field' fields =>
      rw [map_cons, String.join_cons, ih (cons_ne_nil _ _), String.intercalate_cons_cons]
      simp only [String.append_assoc]

theorem dropLast_comma (text : String) : String.ofList (text ++ ",").toList.dropLast = text := by
  simp

end AbsPredicates

namespace ListCall
variable {p : AbsPredicates} {c : ListCall} {calls : List ListCall}

theorem group_step (p : AbsPredicates) (c : ListCall) :
    (step p c).2.group = p.group ++ c.groupText := by
  cases c with
  | groupBy fields =>
    change (p.groupBy fields).group = _
    rw [AbsPredicates.groupBy, AbsPredicates.appendGroups_eq, groupText]
    by_cases hempty : "" ∈ fields
    · simp [hempty]
    · rw [if_neg hempty]
      have htake : fields.takeWhile (· ≠ "") = fields := by
        apply takeWhile_eq_self_iff.mpr
        intro field hfield
        exact decide_eq_true fun h => hempty (h ▸ hfield)
      cases fields with
      | nil => simp
      | cons field fields =>
        rw [htake, AbsPredicates.join_map_comma (cons_ne_nil _ _)]
        simp only [hempty, not_false_eq_true, decide_true, reduceCtorEq, if_false]
        rw [← String.append_assoc, AbsPredicates.dropLast_comma]
  | orderByAsc field | orderByDesc field =>
    change (p.orderBy field _).group = _
    rw [AbsPredicates.orderBy, groupText]
    split <;> simp

structure Sorted (p : AbsPredicates) (terms : List String) : Prop where
  order : p.order = ",".intercalate terms
  isSorted : p.isSorted = !terms.isEmpty

theorem Sorted.orderBy (h : Sorted p terms) (hfield : field ≠ "") (direction : String) :
    Sorted (p.orderBy field direction) (terms ++ [field ++ direction]) := by
  have hcheck : checkParameter field [] := by simp [checkParameter, hfield]
  rw [AbsPredicates.orderBy, if_neg (by simp [hcheck])]
  refine ⟨?_, by simp⟩
  cases terms with
  | nil => simp [h.order, h.isSorted]
  | cons term terms =>
    rw [String.intercalate_append_of_ne_nil (cons_ne_nil _ _) (cons_ne_nil _ _)]
    simp [h.order, h.isSorted, String.append_assoc]

theorem Sorted.step (h : Sorted p terms) (c : ListCall) :
    Sorted (step p c).2 (terms ++ c.orderTerms) := by
  have hrefused {field direction : String} (hempty : field = "") :
      p.orderBy field direction = p := by
    rw [AbsPredicates.orderBy, if_pos (by simp [checkParameter, hempty])]
  cases c with
  | groupBy fields =>
    change Sorted (p.groupBy fields) (terms ++ [])
    rw [append_nil, AbsPredicates.groupBy]
    split <;> exact ⟨h.order, h.isSorted⟩
  | orderByAsc field =>
    change Sorted (p.orderBy field " ASC ") _
    by_cases hempty : field = ""
    · rw [hrefused hempty]
      simpa [orderTerms, orderField, hempty] using h
    · simpa [orderTerms, orderField, hempty] using h.orderBy hempty " ASC "
  | orderByDesc field =>
    change Sorted (p.orderBy field " DESC ") _
    by_cases hempty : field = ""
    · rw [hrefused hempty]
      simpa [orderTerms, orderField, hempty] using h
    · simpa [orderTerms, orderField, hempty] using h.orderBy hempty " DESC "

theorem groupText_eq
    (hbegins : ∀ fields, c = .groupBy fields → "" ∈ fields → fields.head? = some "") :
    c.groupText = ",".intercalate c.groupFields := by
  cases c with
  | groupBy fields =>
    by_cases hempty : "" ∈ fields
    · obtain ⟨rest, rfl⟩ := head?_eq_some_iff.mp (hbegins fields rfl hempty)
      simp [groupText, groupFields]
    · rw [groupText, groupFields, if_neg hempty, if_neg hempty]
  | orderByAsc | orderByDesc => rfl

theorem head?_of_groupText_eq {fields : List String} (hempty : "" ∈ fields)
    (h : (ListCall.groupBy fields).groupText = "") : fields.head? = some "" := by
  cases fields with
  | nil => exact nomatch hempty
  | cons field fields =>
    by_contra hne
    have hfield : field ≠ "" := fun heq => hne (heq ▸ rfl)
    rw [groupText, if_pos hempty, takeWhile_cons_of_pos (by simpa using hfield), map_cons,
      String.join_cons] at h
    exact hfield (String.append_eq_empty_iff.mp (String.append_eq_empty_iff.mp h).1).1

/-! ## A run of calls -/

theorem group_final (p : AbsPredicates) (calls : List ListCall) :
    (final step p calls).group = p.group ++ String.join (calls.map groupText) := by
  induction calls generalizing p with
  | nil => simp [final]
  | cons c calls ih =>
    rw [final, ih, group_step, map_cons, String.join_cons, String.append_assoc]

theorem Sorted.final (h : Sorted p terms) (calls : List ListCall) :
    Sorted (final ListCall.step p calls) (terms ++ calls.flatMap orderTerms) := by
  induction calls generalizing p terms with
  | nil => simpa [RelationalStore.final] using h
  | cons c calls ih => simpa [RelationalStore.final] using ih (h.step c)

theorem order_final (calls : List ListCall) :
    (final step .empty calls).order = ",".intercalate (calls.flatMap orderTerms) := by
  have hempty : Sorted .empty [] := ⟨by simp [AbsPredicates.empty], rfl⟩
  simpa using (hempty.final calls).order

theorem mem_groupFields_ne (h : field ∈ c.groupFields) : field ≠ "" := by
  cases c with
  | groupBy fields =>
    rw [groupFields] at h
    split at h
    · exact nomatch h
    · rintro rfl
      contradiction
  | orderByAsc | orderByDesc => exact nomatch h

theorem orderField_ne (h : field ∈ c.orderField) :
    field.1 ≠ "" ∧ field.2.toList ≠ [] ∧ ',' ∉ field.2.toList := by
  cases c with
  | groupBy => exact nomatch h
  | orderByAsc name | orderByDesc name =>
    rw [orderField] at h
    split at h
    · exact nomatch h
    next hname =>
      obtain rfl := mem_singleton.mp h
      refine ⟨hname, ?_⟩
      dsimp only
      decide

theorem group_eq_iff
    (hbegins : ∀ fields, .groupBy fields ∈ calls → "" ∈ fields → fields.head? = some "") :
    (final step .empty calls).group = ",".intercalate (calls.flatMap groupFields) ↔
      (calls.filter fun c => !c.groupFields.isEmpty).length ≤ 1 := by
  have htexts : calls.map groupText = calls.map fun c => ",".intercalate c.groupFields :=
    map_congr_left fun c hc =>
      groupText_eq fun fields hfields hempty => hbegins fields (hfields ▸ hc) hempty
  have hleft : ((final step .empty calls).group).toList =
      ((calls.map fun c => c.groupFields.map String.toList).map
        fun items => [','].intercalate items).flatten := by
    rw [group_final, htexts]
    simp [AbsPredicates.empty, String.toList_join, flatMap_def, Function.comp_def]
  have hright : (",".intercalate (calls.flatMap groupFields)).toList =
      [','].intercalate (calls.map fun c => c.groupFields.map String.toList).flatten := by
    simp [flatMap_def, Function.comp_def]
  rw [← String.toList_inj, hleft, hright, Separated.flatten_intercalate_eq_iff, filter_map,
    length_map]
  simp [Function.comp_def]

theorem clean_group_iff (calls : List ListCall) :
    Clean ',' (",".intercalate (calls.flatMap groupFields)).toList ↔
      ∀ field ∈ calls.flatMap groupFields, Clean ',' field.toList := by
  have hne : ∀ item ∈ (calls.flatMap groupFields).map String.toList, item ≠ [] := by
    intro item hitem
    obtain ⟨field, hfield, rfl⟩ := mem_map.mp hitem
    obtain ⟨c, -, hfield⟩ := mem_flatMap.mp hfield
    exact fun h => mem_groupFields_ne hfield (String.toList_eq_nil_iff.mp h)
  rw [String.toList_intercalate]
  exact (Separated.clean_intercalate hne).trans forall_mem_map

theorem clean_order_iff (calls : List ListCall) :
    Clean ',' (",".intercalate (calls.flatMap orderTerms)).toList ↔
      ∀ field ∈ calls.flatMap orderField, field.1.toList.head? ≠ some ',' ∧
        field.1.toList.IsChain fun a b => a ≠ ',' ∨ b ≠ ',' := by
  have hterms : (calls.flatMap orderTerms).map String.toList =
      (calls.flatMap orderField).map fun field => field.1.toList ++ field.2.toList := by
    simp [map_flatMap, orderTerms, Function.comp_def]
  have hfields {field : String × String} (h : field ∈ calls.flatMap orderField) :
      field.1.toList ≠ [] ∧ field.2.toList ≠ [] ∧ ',' ∉ field.2.toList := by
    obtain ⟨c, -, hfield⟩ := mem_flatMap.mp h
    obtain ⟨hne, hdirection⟩ := orderField_ne hfield
    exact ⟨fun h => hne (String.toList_eq_nil_iff.mp h), hdirection⟩
  have hne : ∀ item ∈ (calls.flatMap orderTerms).map String.toList, item ≠ [] := by
    intro item hitem
    rw [hterms] at hitem
    obtain ⟨field, hfield, rfl⟩ := mem_map.mp hitem
    exact fun h => (hfields hfield).1 (append_eq_nil_iff.mp h).1
  rw [String.toList_intercalate]
  refine (Separated.clean_intercalate hne).trans ?_
  rw [hterms, forall_mem_map]
  refine forall₂_congr fun field hfield => ?_
  obtain ⟨hname, hdirection, hcomma⟩ := hfields hfield
  exact Separated.clean_append_of_not_mem hname hdirection hcomma

theorem unchanged_iff (h : c.HasEmptyField) :
    (step p c).2.group = p.group ∧ (step p c).2.order = p.order ↔ c.groupText = "" := by
  have horder : (step p c).2.order = p.order := by
    cases c with
    | groupBy fields =>
      change (p.groupBy fields).order = p.order
      rw [AbsPredicates.groupBy]
      split <;> rfl
    | orderByAsc field | orderByDesc field =>
      change (p.orderBy field _).order = p.order
      rw [AbsPredicates.orderBy, if_pos (by simp [checkParameter, show field = "" from h])]
  rw [group_step, and_iff_left horder, String.append_eq_left_iff]

theorem rejected_iff (p : AbsPredicates) (calls : List ListCall) :
    (∀ t ∈ trace step p calls, t.call.HasEmptyField →
        t.post.group = t.pre.group ∧ t.post.order = t.pre.order) ↔
      ∀ fields, .groupBy fields ∈ calls → "" ∈ fields → fields.head? = some "" := by
  induction calls generalizing p with
  | nil => exact iff_of_true (fun _ h => nomatch h) fun _ h => nomatch h
  | cons c calls ih =>
    have hcall : (c.HasEmptyField → (step p c).2.group = p.group ∧ (step p c).2.order = p.order) ↔
        ∀ fields, c = .groupBy fields → "" ∈ fields → fields.head? = some "" := by
      cases c with
      | groupBy fields =>
        constructor
        · intro h fields heq hempty
          cases heq
          have hsame := (unchanged_iff (c := .groupBy fields) hempty).mp (h hempty)
          exact head?_of_groupText_eq hempty hsame
        · intro h hempty
          obtain ⟨rest, hrest⟩ := head?_eq_some_iff.mp (h fields rfl hempty)
          refine (unchanged_iff hempty).mpr ?_
          simp [groupText, hrest]
      | orderByAsc field | orderByDesc field =>
        exact iff_of_true (fun hempty => (unchanged_iff hempty).mpr rfl) fun _ h => nomatch h
    rw [trace, forall_mem_cons, ih]
    simp only [mem_cons]
    refine (and_congr_left' hcall).trans ?_
    constructor
    · rintro ⟨hc, hcalls⟩ fields (hfields | hfields)
      · exact hc fields hfields.symm
      · exact hcalls fields hfields
    · intro h
      exact ⟨fun fields hfields => h fields (.inl hfields.symm),
        fun fields hfields => h fields (.inr hfields)⟩

/-- The clauses list the accepted fields just when the calls are orderly. -/
theorem lists_iff_orderly (calls : List ListCall) : Lists calls ↔ Orderly calls := by
  constructor
  · intro h
    have hbegins := (rejected_iff .empty calls).mp h.rejected
    exact ⟨(group_eq_iff hbegins).mp h.group, hbegins,
      (clean_group_iff calls).mp (h.group ▸ h.groupClean),
      (clean_order_iff calls).mp (h.order ▸ h.orderClean)⟩
  · intro h
    have hgroup := (group_eq_iff h.begins).mpr h.one
    refine ⟨hgroup, order_final calls, ?_, ?_, (rejected_iff .empty calls).mpr h.begins⟩
    · rw [hgroup]
      exact (clean_group_iff calls).mpr h.groupClean
    · rw [order_final]
      exact (clean_order_iff calls).mpr h.orderClean

theorem groupBy_runs_together :
    (final step .empty [.groupBy ["a"], .groupBy ["b"]]).group = "ab" ∧
      ¬ Lists [.groupBy ["a"], .groupBy ["b"]] := by
  refine ⟨by decide, fun h => ?_⟩
  exact absurd h.group (by decide)

end ListCall

end RelationalStore
