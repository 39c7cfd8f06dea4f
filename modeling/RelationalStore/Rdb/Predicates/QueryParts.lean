import RelationalStore.Rdb.Predicates.GroupOrder
import RelationalStore.Rdb.Predicates.QueryText
import RelationalStore.Rdb.Predicates.Where

/-! # The parts of a query along the calls

What the calls have put into each clause when the query is built. -/

namespace RelationalStore

open List AbsPredicates
open Clauses (Free Begins clause free_cons free_append)
open Condition (WellFormed Ready Complete)

/-- The fields are names or empty, and what `Having` is given is an expression. -/
def BuilderCall.Names (E : Expressions) : BuilderCall → Prop
  | .compare c => c.field = "" ∨ IsIdentifier c.field
  | .orderByAsc field | .orderByDesc field => field = "" ∨ IsIdentifier field
  | .groupBy fields => ∀ field ∈ fields, field = "" ∨ IsIdentifier field
  | .indexedBy indexName => indexName = "" ∨ IsIdentifier indexName
  | .having conditions _ => conditions = "" ∨ E.Expr (words conditions)
  | .beginWrap | .endWrap | .or | .and | .distinct | .limit _ | .limitOffset _ _ | .offset _ => True

def BuilderCall.limitArg : BuilderCall → Option Int
  | .limit value => some value
  | .limitOffset _ value => some value
  | _ => none

def BuilderCall.offsetArg : BuilderCall → Option Int
  | .offset value => some value
  | .limitOffset value _ => some value
  | _ => none

variable (calls : List BuilderCall)

def requestedLimit : Option Int :=
  (calls.filterMap BuilderCall.limitArg).getLast?

def requestedOffset : Option Int :=
  (calls.filterMap BuilderCall.offsetArg).getLast?

structure Wraps where
  opened : Nat
  operand : Bool
  deriving DecidableEq

/-- `none` when a group is closed that is not open. -/
def Wraps.next (w : Wraps) : BuilderCall → Option Wraps
  | .compare c => some (if c.condition.isSome then { w with operand := true } else w)
  | .beginWrap => some ⟨w.opened + 1, false⟩
  | .endWrap =>
    if w.operand = false then some w
    else if w.opened = 0 then none
    else some { w with opened := w.opened - 1 }
  | .or => some { w with operand := false }
  | _ => some w

def wraps : Option Wraps :=
  calls.foldl (fun w c => w.bind (·.next c)) (some ⟨0, false⟩)

/-! ## What a call leaves -/

namespace AbsPredicates
variable {p : AbsPredicates}

theorem limits_build (p : AbsPredicates) (c : BuilderCall) :
    (p.build c).limit = (c.limitArg.map fun l => if l ≤ 0 then -1 else l).getD p.limit ∧
    (p.build c).offset = (c.offsetArg.map fun o => if o < 0 then -1 else o).getD p.offset := by
  cases c with
  | compare | beginWrap | endWrap | or =>
    rw [p.build_where]
    · exact ⟨rfl, rfl⟩
    · rfl
  | orderByAsc field =>
    obtain ⟨_, _, h⟩ := p.exists_orderBy field " ASC "
    rw [build, orderByAsc, h]
    exact ⟨rfl, rfl⟩
  | orderByDesc field =>
    obtain ⟨_, _, h⟩ := p.exists_orderBy field " DESC "
    rw [build, orderByDesc, h]
    exact ⟨rfl, rfl⟩
  | groupBy fields =>
    obtain ⟨_, h⟩ := p.exists_groupBy fields
    rw [build, h]
    exact ⟨rfl, rfl⟩
  | indexedBy indexName =>
    obtain ⟨_, h⟩ := p.exists_indexedBy indexName
    rw [build, h]
    exact ⟨rfl, rfl⟩
  | having conditions values =>
    obtain ⟨_, _, h⟩ := p.exists_having conditions values
    rw [build, h]
    exact ⟨rfl, rfl⟩
  | and | distinct | limit | limitOffset | offset => exact ⟨rfl, rfl⟩

theorem getD_getLast?_filterMap (f : α → β) (arg : BuilderCall → Option α) (c : BuilderCall)
    (calls : List BuilderCall) (b : β) :
    (((c :: calls).filterMap arg).getLast?.map f).getD b =
      ((calls.filterMap arg).getLast?.map f).getD ((arg c |>.map f).getD b) := by
  cases harg : arg c with
  | none => rw [filterMap_cons_none harg]; rfl
  | some a =>
    rw [filterMap_cons_some harg, getLast?_cons]
    cases (calls.filterMap arg).getLast? <;> rfl

theorem limits_buildAll (p : AbsPredicates) (calls : List BuilderCall) :
    (p.buildAll calls).limit =
      ((requestedLimit calls).map fun l => if l ≤ 0 then -1 else l).getD p.limit ∧
    (p.buildAll calls).offset =
      ((requestedOffset calls).map fun o => if o < 0 then -1 else o).getD p.offset := by
  induction calls generalizing p with
  | nil => exact ⟨rfl, rfl⟩
  | cons c calls ih =>
    obtain ⟨hlimit, hoffset⟩ := ih (p.build c)
    rw [buildAll_cons, hlimit, hoffset, (p.limits_build c).1, (p.limits_build c).2]
    exact ⟨(getD_getLast?_filterMap _ _ c calls _).symm,
      (getD_getLast?_filterMap _ _ c calls _).symm⟩

end AbsPredicates

/-! ## The index, the group list, the having clause and the order -/

def orderText (term : String × Bool) : String := term.1 ++ (if term.2 then " DESC " else " ASC ")

structure Parts (E : Expressions) (p : AbsPredicates) : Prop where
  index : p.index = "" ∨ IsIdentifier p.index
  having : p.havingClause = "" ∨ E.Expr (words p.havingClause)
  group : ∀ c ∈ p.group.toList, isIdChar c ∨ c = ','
  order : ∃ terms : List (String × Bool), (∀ term ∈ terms, IsIdentifier term.1) ∧
    ListCall.Sorted p (terms.map orderText)

section
variable {E : Expressions} {p : AbsPredicates}

theorem parts_empty (E : Expressions) : Parts E .empty where
  index := .inl rfl
  having := .inl rfl
  group := nofun
  order := ⟨[], nofun, by simp [empty], rfl⟩

theorem Parts.orderBy (h : Parts E p) {field : String} (hfield : field = "" ∨ IsIdentifier field)
    (descending : Bool) :
    Parts E (p.orderBy field (if descending then " DESC " else " ASC ")) := by
  rcases hfield with hempty | hid
  · rw [AbsPredicates.orderBy, if_pos (by simp [checkParameter, hempty])]
    exact h
  · obtain ⟨terms, hterms, hsorted⟩ := h.order
    have horder := hsorted.orderBy hid.ne_empty (if descending then " DESC " else " ASC ")
    obtain ⟨order, sorted, heq⟩ := p.exists_orderBy field (if descending then " DESC " else " ASC ")
    rw [heq] at horder ⊢
    refine ⟨h.index, h.having, h.group, terms ++ [(field, descending)], ?_, ?_⟩
    · exact forall_mem_append.mpr ⟨hterms, by simpa using hid⟩
    · simpa [orderText] using horder

theorem mem_groupText (h : ∀ field ∈ fields, field = "" ∨ IsIdentifier field) :
    ∀ c ∈ (ListCall.groupBy fields).groupText.toList, isIdChar c ∨ c = ',' := by
  have hchars {field : String} (hmem : field ∈ fields) : ∀ c ∈ field.toList, isIdChar c := by
    rcases h field hmem with rfl | hid
    · exact nofun
    · exact hid.1
  intro c hc
  rw [ListCall.groupText] at hc
  split at hc
  · rw [String.toList_join, mem_flatMap] at hc
    obtain ⟨text, htext, hc⟩ := hc
    obtain ⟨field, hfield, rfl⟩ := mem_map.mp htext
    have hmem := (takeWhile_sublist _).subset hfield
    rw [String.toList_append] at hc
    exact (mem_append.mp hc).imp (hchars hmem c) mem_singleton.mp
  · rw [String.toList_intercalate, List.intercalate, mem_flatten] at hc
    obtain ⟨text, htext, hc⟩ := hc
    rcases Clauses.mem_intersperse htext with rfl | htext
    · exact .inr (by simpa using hc)
    · obtain ⟨field, hfield, rfl⟩ := mem_map.mp htext
      exact .inl (hchars hfield c hc)

theorem Parts.groupBy (h : Parts E p) {fields : List String}
    (hfields : ∀ field ∈ fields, field = "" ∨ IsIdentifier field) : Parts E (p.groupBy fields) := by
  have hgroup : (p.groupBy fields).group = p.group ++ (ListCall.groupBy fields).groupText :=
    ListCall.group_step p (.groupBy fields)
  obtain ⟨group, heq⟩ := p.exists_groupBy fields
  rw [heq] at hgroup ⊢
  obtain ⟨terms, hterms, hsorted⟩ := h.order
  refine ⟨h.index, h.having, ?_, terms, hterms, hsorted.order, hsorted.isSorted⟩
  dsimp only at hgroup ⊢
  rw [hgroup, String.toList_append]
  exact forall_mem_append.mpr ⟨h.group, mem_groupText hfields⟩

theorem Parts.build (h : Parts E p) (hc : c.Names E) : Parts E (p.build c) := by
  obtain ⟨terms, hterms, hsorted⟩ := h.order
  have horder {p' : AbsPredicates} (h : p'.order = p.order ∧ p'.isSorted = p.isSorted) :
      ∃ terms : List (String × Bool), (∀ term ∈ terms, IsIdentifier term.1) ∧
        ListCall.Sorted p' (terms.map orderText) :=
    ⟨terms, hterms, h.1.trans hsorted.order, h.2.trans hsorted.isSorted⟩
  cases c with
  | compare | beginWrap | endWrap | or =>
    rw [p.build_where]
    · exact ⟨h.index, h.having, h.group, horder ⟨rfl, rfl⟩⟩
    · rfl
  | orderByAsc field => exact h.orderBy hc false
  | orderByDesc field => exact h.orderBy hc true
  | groupBy fields => exact h.groupBy hc
  | indexedBy indexName =>
    rw [AbsPredicates.build, AbsPredicates.indexedBy]
    split
    · refine ⟨?_, h.having, h.group, horder ⟨rfl, rfl⟩⟩
      rcases hc with rfl | hid
      · exact .inl rfl
      · exact .inr (by rwa [removeQuotes_of_isIdentifier hid])
    · exact h
  | having conditions values =>
    rw [AbsPredicates.build, AbsPredicates.having]
    split
    · exact ⟨h.index, hc, h.group, horder ⟨rfl, rfl⟩⟩
    · exact h
  | and => exact h
  | distinct | limit | limitOffset | offset =>
    exact ⟨h.index, h.having, h.group, horder ⟨rfl, rfl⟩⟩

theorem Parts.buildAll {calls : List BuilderCall} (h : Parts E p)
    (hcalls : ∀ c ∈ calls, c.Names E) : Parts E (p.buildAll calls) := by
  induction calls generalizing p with
  | nil => exact h
  | cons c calls ih =>
    obtain ⟨hc, hcalls⟩ := forall_mem_cons.mp hcalls
    exact ih (h.build hc) hcalls

end

/-! ## The condition -/

structure NestsAs (E : Expressions) (p : AbsPredicates) (w : Wraps) : Prop where
  isNeedAnd : p.isNeedAnd = w.operand
  complete : w.operand → Complete sqlSigns E.Atom w.opened (words p.whereClause)
  ready : w.operand = false → Ready sqlSigns E.Atom w.opened (words p.whereClause)

def Nests (E : Expressions) (p : AbsPredicates) : Option Wraps → Prop
  | some w => NestsAs E p w
  | none => ∃ ws ws', words p.whereClause = ws ++ ws' ∧ Condition.depth sqlSigns ws < 0

structure WhereStands (E : Expressions) (p : AbsPredicates) (w : Option Wraps) : Prop where
  endsApart : EndsApart p.whereClause
  free : Free IsClauseWord (words p.whereClause)
  nests : Nests E p w

theorem Comparison.condition_of_empty {c : Comparison} (h : c.field = "") : c.condition = none := by
  cases c <;> simp_all [field, condition, equalToCondition, notEqualToCondition, restrict,
    checkParameter]

theorem Comparison.sqlAtom_plain {c : Comparison} (h : IsIdentifier c.field) : c.sqlAtom.Plain := by
  obtain ⟨horigin, hdevice⟩ := h.ne_special
  cases c with
  | equalTo field value =>
    simp only [sqlAtom, if_neg (show field ≠ _ from horigin), if_neg (show field ≠ _ from hdevice)]
    exact h
  | notEqualTo field value =>
    simp only [sqlAtom, if_neg (show field ≠ _ from hdevice)]
    exact h
  | _ => exact h

section
variable {E : Expressions} {p p' : AbsPredicates} {w : Wraps} {o : Option Wraps} {c : BuilderCall}

theorem free_joint (p : AbsPredicates) : Free IsClauseWord p.joint := by
  unfold joint
  split <;> decide

theorem NestsAs.ready_joint (h : NestsAs E p w) :
    Ready sqlSigns E.Atom w.opened (words p.whereClause ++ p.joint) := by
  unfold joint
  rw [h.isNeedAnd]
  cases hoperand : w.operand with
  | true => exact (h.complete hoperand).and
  | false => simpa using h.ready hoperand

section
variable (h : WhereStands E p o)
include h

theorem WhereStands.write (hwords : words p'.whereClause = words p.whereClause ++ ws)
    (hends : EndsApart p'.whereClause) (hfree : Free IsClauseWord ws)
    (hnests : ∀ w, o = some w → NestsAs E p w → Nests E p' (w.next c)) :
    WhereStands E p' (o.bind (·.next c)) := by
  refine ⟨hends, ?_, ?_⟩
  · rw [hwords]
    exact free_append.mpr ⟨h.free, hfree⟩
  · cases o with
    | none =>
      obtain ⟨before, after, heq, hdepth⟩ := h.nests
      exact ⟨before, after ++ ws, by rw [hwords, heq, append_assoc], hdepth⟩
    | some w => exact hnests w rfl h.nests

theorem WhereStands.same (hsame : p.SameClause p')
    (hnext : ∀ w, o = some w → w.operand = p.isNeedAnd → w.next c = some w) :
    WhereStands E p' (o.bind (·.next c)) := by
  obtain ⟨hclause, hneed⟩ := hsame
  refine ⟨hclause ▸ h.endsApart, hclause ▸ h.free, ?_⟩
  cases o with
  | none =>
    obtain ⟨before, after, heq, hdepth⟩ := h.nests
    exact ⟨before, after, by rw [hclause, heq], hdepth⟩
  | some w =>
    have hw : NestsAs E p w := h.nests
    rw [Option.bind_some, hnext w rfl hw.isNeedAnd.symm]
    exact ⟨hneed.trans hw.isNeedAnd, fun ho => by rw [hclause]; exact hw.complete ho,
      fun ho => by rw [hclause]; exact hw.ready ho⟩

theorem WhereStands.compare {c : Comparison} (hc : c.field = "" ∨ IsIdentifier c.field) :
    WhereStands E (p.compare c) (o.bind (·.next (.compare c))) := by
  cases hcond : c.condition with
  | none =>
    refine h.same ?_ fun w _ _ => by simp [Wraps.next, hcond]
    simp [AbsPredicates.SameClause, AbsPredicates.compare, hcond]
  | some cond =>
    obtain ⟨text, args⟩ := cond
    have hid : IsIdentifier c.field := hc.resolve_left fun hempty => by
      rw [Comparison.condition_of_empty hempty] at hcond
      cases hcond
    have hatom : E.Atom c.sqlAtom.words := E.comparison _ (Comparison.sqlAtom_plain hid)
    have hwrote := AbsPredicates.wrote_compare ⟨by rw [hcond]; rfl, hid.isName⟩ h.endsApart
    refine h.write hwrote.words_eq hwrote.endsApart
      (free_append.mpr ⟨free_joint p, E.free _ hatom⟩) fun w _ hw => ?_
    have hnext : w.next (.compare c) = some { w with operand := true } := by
      simp [Wraps.next, hcond]
    rw [hnext]
    refine ⟨hwrote.isNeedAnd, fun _ => ?_, fun h => by cases h⟩
    have hcomplete := hw.ready_joint.operand (.atom hatom)
    rw [append_assoc] at hcomplete
    rw [hwrote.words_eq]
    exact hcomplete

theorem WhereStands.beginWrap :
    WhereStands E p.beginWrap (o.bind (·.next .beginWrap)) := by
  refine h.write (words_beginWrap fun _ => h.endsApart)
    endsApart_beginWrap (free_append.mpr ⟨free_joint p, by decide⟩) fun w _ hw => ?_
  refine ⟨beginWrap_isNeedAnd, fun h => (by cases h), fun _ => ?_⟩
  have hready := hw.ready_joint.lparen
  rw [append_assoc] at hready
  rw [words_beginWrap fun _ => h.endsApart]
  exact hready

theorem WhereStands.endWrap :
    WhereStands E p.endWrap (o.bind (·.next .endWrap)) := by
  cases hneed : p.isNeedAnd with
  | false =>
    refine h.same ?_ fun w _ hw => by simp [Wraps.next, hw, hneed]
    simp [AbsPredicates.SameClause, AbsPredicates.endWrap, hneed]
  | true =>
    rw [AbsPredicates.endWrap_of_isNeedAnd hneed]
    refine h.write (AbsPredicates.words_rparen _) (endsApart_append (by decide) (by decide))
      (by decide) fun w _ hw => ?_
    have hoperand : w.operand := hw.isNeedAnd.symm.trans hneed
    have hcomplete := hw.complete hoperand
    simp only [Wraps.next, hoperand, Bool.true_eq_false, if_false]
    split
    next hzero =>
      refine ⟨words p.whereClause ++ [")"], [], ?_, ?_⟩
      · rw [append_nil]
        exact AbsPredicates.words_rparen _
      · have hrparen : Condition.depth sqlSigns [")"] = -1 :=
          Condition.depth_rparen E.proper.lparen_ne_rparen
        rw [Condition.depth_append, hcomplete.depth_eq E.proper, hzero, hrparen]
        decide
    next hopen =>
      refine ⟨hw.isNeedAnd.trans hoperand, fun _ => ?_, fun h => by cases h⟩
      have hsucc : w.opened = w.opened - 1 + 1 := by omega
      rw [hsucc] at hcomplete
      dsimp only
      rw [AbsPredicates.words_rparen]
      exact hcomplete.rparen

theorem WhereStands.or :
    WhereStands E p.or (o.bind (·.next .or)) := by
  cases hneed : p.isNeedAnd with
  | false =>
    refine h.same ?_ fun w _ hw => ?_
    · simp [AbsPredicates.SameClause, AbsPredicates.or, hneed]
    · rw [hneed] at hw
      simp [Wraps.next, ← hw]
  | true =>
    rw [AbsPredicates.or_of_isNeedAnd hneed]
    refine h.write (AbsPredicates.words_or _) (endsApart_append (by decide) (by decide))
      (by decide) fun w _ hw => ?_
    refine ⟨rfl, fun h => (by cases h), fun _ => ?_⟩
    dsimp only
    rw [AbsPredicates.words_or]
    exact (hw.complete (hw.isNeedAnd.symm.trans hneed)).or

theorem WhereStands.build (hc : c.Names E) :
    WhereStands E (p.build c) (o.bind (·.next c)) := by
  have hother (heffect : (PredicateCall.build c).effect = .none)
      (hnext : ∀ w : Wraps, w.next c = some w) : WhereStands E (p.build c) (o.bind (·.next c)) :=
    h.same (sameClause_of_effect_none heffect) fun w _ _ => hnext w
  cases c with
  | compare c => exact h.compare hc
  | beginWrap => exact h.beginWrap
  | endWrap => exact h.endWrap
  | or => exact h.or
  | _ => exact hother rfl fun _ => rfl

theorem WhereStands.buildAll {calls : List BuilderCall} (hcalls : ∀ c ∈ calls, c.Names E) :
    WhereStands E (p.buildAll calls) (calls.foldl (fun w c => w.bind (·.next c)) o) := by
  induction calls generalizing p o with
  | nil => exact h
  | cons c calls ih =>
    obtain ⟨hc, hcalls⟩ := forall_mem_cons.mp hcalls
    exact ih (h.build hc) hcalls

end

theorem whereStands_empty (E : Expressions) : WhereStands E .empty (some ⟨0, false⟩) where
  endsApart := (by decide : EndsApart "")
  free := (by decide : Free IsClauseWord (words ""))
  nests := ⟨rfl, nofun, fun _ => Condition.ready_nil⟩

theorem WhereStands.expr_iff (h : WhereStands E p o) :
    E.Expr (words p.whereClause) ↔ o = some ⟨0, true⟩ := by
  cases o with
  | none =>
    obtain ⟨before, after, heq, hdepth⟩ := h.nests
    refine iff_of_false ?_ nofun
    rw [heq]
    exact Condition.not_wellFormed_of_depth_neg E.proper hdepth after
  | some w =>
    have hw : NestsAs E p w := h.nests
    obtain ⟨opened, operand⟩ := w
    cases operand with
    | false => exact iff_of_false ((hw.ready rfl).not_wellFormed E.proper) (by simp)
    | true => exact ((hw.complete rfl).wellFormed_iff E.proper).trans (by simp)

end

/-! ## The words of the lists -/

theorem words_append_comma (s t : String) : words (s ++ "," ++ t) = words s ++ "," :: words t := by
  rw [String.append_assoc, words_append_of_startsApart (startsApart_append (by decide) (by decide)),
    words_append_of_endsApart (by decide)]
  rfl

theorem words_intercalate_names (h : ∀ name ∈ names, IsIdentifier name) :
    words (",".intercalate names) = names.intersperse "," := by
  induction names with
  | nil => rfl
  | cons name names ih =>
    obtain ⟨hname, hnames⟩ := forall_mem_cons.mp h
    cases names with
    | nil => simpa using hname.words_eq
    | cons name' names =>
      rw [String.intercalate_cons_cons, words_append_comma, hname.words_eq, ih hnames,
        intersperse_cons_cons]
      rfl

theorem words_orderText (h : IsIdentifier term.1) :
    words (orderText term) = SelectStmt.orderTerm term := by
  obtain ⟨field, descending⟩ := term
  unfold orderText SelectStmt.orderTerm
  cases descending with
  | false => exact words_name_append (t := " ASC ") h.not_isSeparator h.ne_empty (by decide)
  | true => exact words_name_append (t := " DESC ") h.not_isSeparator h.ne_empty (by decide)

theorem words_intercalate_terms {terms : List (String × Bool)}
    (h : ∀ term ∈ terms, IsIdentifier term.1) :
    words (",".intercalate (terms.map orderText)) =
      [","].intercalate (terms.map SelectStmt.orderTerm) := by
  induction terms with
  | nil => rfl
  | cons term terms ih =>
    obtain ⟨hterm, hterms⟩ := forall_mem_cons.mp h
    cases terms with
    | nil => simpa using words_orderText hterm
    | cons term' terms =>
      rw [map_cons, map_cons, String.intercalate_cons_cons, words_append_comma,
        words_orderText hterm, ← map_cons, ih hterms]
      simp [intercalate_cons_cons]

end RelationalStore
