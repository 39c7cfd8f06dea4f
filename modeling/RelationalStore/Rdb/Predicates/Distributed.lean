import RelationalStore.Theory.Reading
import RelationalStore.Rdb.Predicates.Tree
import RelationalStore.Rdb.Predicates.Where

/-! # Predicates for other devices

Every call is kept twice: as text in the where clause and as an operation for the service. -/

namespace RelationalStore

open List AbsPredicates
open Condition (Token Reader Disj Conj Factor readAll readAllNear readAll_append readAllNear_append)

inductive DataValue where
  | integer (value : Int)
  | string (value : String)
  deriving DecidableEq

inductive RdbPredicateOperator where
  | equalTo
  | notEqualTo
  | and
  | or
  | orderBy
  | limit
  | beginGroup
  | endGroup
  | isIn
  | notIn
  | contain
  | beginWith
  | endWith
  | isNull
  | isNotNull
  | like
  | glob
  | between
  | notBetween
  | greaterThan
  | greaterThanOrEqual
  | lessThan
  | lessThanOrEqual
  | distinct
  | indexedBy
  | notContains
  | notLike
  | assetsOnly
  | notGlob
  deriving DecidableEq

structure RdbPredicateOperation where
  operator : RdbPredicateOperator
  field : String
  values : List DataValue
  deriving DecidableEq

structure AbsRdbPredicates where
  base : AbsPredicates
  operations : List RdbPredicateOperation
  deriving DecidableEq

/-! ## What is recorded -/

namespace BindValue

def recordedNumber : BindValue → Option Int
  | .double value =>
    some (max Int64.minValue.toInt (min Int64.maxValue.toInt (value.num.tdiv value.den)))
  | .infinity negative => some (if negative then Int64.minValue.toInt else Int64.maxValue.toInt)
  | .nan => some 0
  | .integer value => some value
  | _ => none

def recordedValue : BindValue → Option DataValue
  | .string value => some (.string value)
  | value => value.recordedNumber.map .integer

end BindValue

namespace RdbPredicateOperation

variable (operator : RdbPredicateOperator)

def ofText (field text : String) : RdbPredicateOperation :=
  ⟨operator, field, [.string text]⟩

def ofValue (field : String) (value : BindValue) :
    List RdbPredicateOperation :=
  (value.recordedValue.map fun v => ⟨operator, field, [v]⟩).toList

def ofNumber (field : String) (value : BindValue) :
    List RdbPredicateOperation :=
  (value.recordedNumber.map fun n => ⟨operator, field, [.integer n]⟩).toList

def splitValues : List BindValue → Option (List String × List Int)
  | [] => some ([], [])
  | .string value :: values => (splitValues values).map fun p => (value :: p.1, p.2)
  | value :: values =>
    match value.recordedNumber with
    | none => none
    | some n => (splitValues values).map fun p => (p.1, n :: p.2)

def ofValues (field : String) (values : List BindValue) : List RdbPredicateOperation :=
  match splitValues values with
  | none => []
  | some (texts, numbers) =>
    [⟨.isIn, field, if texts ≠ [] then texts.map .string else numbers.map .integer⟩]

end RdbPredicateOperation

open RdbPredicateOperation

def Comparison.recorded : Comparison → List RdbPredicateOperation
  | .equalTo field value => ofValue .equalTo field value
  | .notEqualTo field value => ofValue .notEqualTo field value
  | .contains field value => [ofText .contain field value]
  | .notContains field value => [ofText .notContains field value]
  | .beginsWith field value => [ofText .beginWith field value]
  | .endsWith field value => [ofText .endWith field value]
  | .isNull field => [ofText .isNull field ""]
  | .isNotNull field => [ofText .isNotNull field ""]
  | .like field value => [ofText .like field value]
  | .notLike field value => [ofText .notLike field value]
  | .glob field value => [ofText .glob field value]
  | .notGlob field value => [ofText .notGlob field value]
  | .between _ _ _ | .notBetween _ _ _ => []
  | .greaterThan field value => ofNumber .greaterThan field value
  | .lessThan field value => ofNumber .lessThan field value
  | .greaterThanOrEqualTo field value => ofNumber .greaterThanOrEqual field value
  | .lessThanOrEqualTo field value => ofNumber .lessThanOrEqual field value
  | .isIn field values => ofValues field values
  -- the values are sorted out as in `In`, and then nothing is recorded
  | .notIn _ _ => []

def BuilderCall.recorded : BuilderCall → List RdbPredicateOperation
  | .compare c => c.recorded
  | .beginWrap => [ofText .beginGroup "" ""]
  | .endWrap => [ofText .endGroup "" ""]
  | .or => [ofText .or "" ""]
  | .and => [ofText .and "" ""]
  | .orderByAsc field => [ofText .orderBy field "true"]
  | .orderByDesc field => [ofText .orderBy field "false"]
  | .distinct => [ofText .distinct "" ""]
  | .indexedBy indexName => [ofText .indexedBy indexName ""]
  | .limit _ | .limitOffset _ _ | .offset _ | .groupBy _ | .having _ _ => []

inductive RdbCall where
  | build (c : BuilderCall)
  | inStrings (field : String) (values : List String)
  | notInStrings (field : String) (values : List String)
  | clear
  | getDistributedPredicates

namespace AbsRdbPredicates

def initial : AbsRdbPredicates := ⟨.empty, []⟩

def build (s : AbsRdbPredicates) (c : BuilderCall) : AbsRdbPredicates :=
  ⟨s.base.build c, s.operations ++ c.recorded⟩

variable (s : AbsRdbPredicates)

def addOperation (operation : RdbPredicateOperation) : AbsRdbPredicates :=
  { s with operations := s.operations ++ [operation] }

def inStrings (field : String) (values : List String) : AbsRdbPredicates :=
  (s.addOperation ⟨.isIn, field, values.map .string⟩).build
    (.compare (.isIn field (values.map .string)))

def notInStrings (field : String) (values : List String) :
    AbsRdbPredicates :=
  (s.addOperation ⟨.notIn, field, values.map .string⟩).build
    (.compare (.notIn field (values.map .string)))

def getDistributedPredicates :
    List RdbPredicateOperation × AbsRdbPredicates :=
  let s := if 0 ≤ s.base.limit then
      s.addOperation (ofText .limit (toString s.base.limit) (toString s.base.offset))
    else s
  (s.operations, s)

def step : RdbCall → List RdbPredicateOperation × AbsRdbPredicates
  | .build c => ([], s.build c)
  | .inStrings field values => ([], s.inStrings field values)
  | .notInStrings field values => ([], s.notInStrings field values)
  | .clear => ([], { s with base := s.base.clear })
  | .getDistributedPredicates => s.getDistributedPredicates

end AbsRdbPredicates

/-! ## Reading the operations -/

abbrev BoundAtom := SqlAtom × List BindValue

namespace RdbPredicateOperation

variable (operation : RdbPredicateOperation)

def bindValues (pattern : String → String) : List BindValue :=
  operation.values.map fun
    | .integer value => .integer value
    | .string value => .string (pattern value)

def operand (operation : RdbPredicateOperation) (kind : CondKind) (pattern : String → String) :
    Token BoundAtom :=
  .operand (.simple operation.field kind, operation.bindValues pattern)

def membership (negated : Bool) : Token BoundAtom :=
  .operand (.isIn operation.field negated operation.values.length, operation.bindValues id)

def tokens : List (Token BoundAtom) :=
  match operation.operator with
  | .equalTo => [operation.operand .eq id]
  | .notEqualTo => [operation.operand .ne id]
  | .or => [.or]
  | .beginGroup => [.lparen]
  | .endGroup => [.rparen]
  | .isIn => [operation.membership false]
  | .notIn => [operation.membership true]
  | .contain => [operation.operand .like fun value => "%" ++ value ++ "%"]
  | .beginWith => [operation.operand .like fun value => value ++ "%"]
  | .endWith => [operation.operand .like fun value => "%" ++ value]
  | .isNull => [.operand (.simple operation.field .isNull, [])]
  | .isNotNull => [.operand (.simple operation.field .isNotNull, [])]
  | .like => [operation.operand .like id]
  | .glob => [operation.operand .glob id]
  | .between => [operation.operand .between id]
  | .notBetween => [operation.operand .notBetween id]
  | .greaterThan => [operation.operand .gt id]
  | .greaterThanOrEqual => [operation.operand .ge id]
  | .lessThan => [operation.operand .lt id]
  | .lessThanOrEqual => [operation.operand .le id]
  | .notContains => [operation.operand .notLike fun value => "%" ++ value ++ "%"]
  | .notLike => [operation.operand .notLike id]
  | .notGlob => [operation.operand .notGlob id]
  | .and | .orderBy | .limit | .distinct | .indexedBy | .assetsOnly => []

end RdbPredicateOperation

section
variable {T : Type} [Lattice T] (holds : BoundAtom → T)

def readOperations (operations : List RdbPredicateOperation) : Option T :=
  (readAllNear holds (some .start) (operations.flatMap (·.tokens))).bind Reader.value

end

/-! ## Reading the where clause -/

def CondKind.holes : CondKind → Nat
  | .isNull | .isNotNull => 0
  | .between | .notBetween => 2
  | .eq | .ne | .like | .notLike | .glob | .notGlob | .gt | .lt | .ge | .le => 1

def SqlAtom.holes : SqlAtom → Nat
  | .simple _ kind => kind.holes
  | .isIn _ _ count => count
  | .flag _ | .length _ _ => 0

def lexClause : Nat → List String → List BindValue → Option (List (Token BoundAtom))
  | _, [], args => if args = [] then some [] else none
  | 0, _ :: _, _ => none
  | fuel + 1, w :: ws, args =>
    if w = ")" then (lexClause fuel ws args).map (.rparen :: ·)
    else if w = "AND" then (lexClause fuel ws args).map (.and :: ·)
    else if w = "OR" then (lexClause fuel ws args).map (.or :: ·)
    else
      match readAtom (w :: ws) with
      | some (a, rest) =>
        if args.length < a.holes then none
        else
          (lexClause fuel rest (args.drop a.holes)).map (.operand (a, args.take a.holes) :: ·)
      | none => if w = "(" then (lexClause fuel ws args).map (.lparen :: ·) else none

def AbsPredicates.clauseTokens (p : AbsPredicates) : Option (List (Token BoundAtom)) :=
  lexClause (words p.whereClause).length (words p.whereClause) p.bindArgs

def AbsPredicates.readClause {T : Type} [Lattice T] (holds : BoundAtom → T) (p : AbsPredicates) :
    Option T :=
  p.clauseTokens.bind fun tokens => (readAll holds (some .start) tokens).bind Reader.value

def tokenWords : Token BoundAtom → List String
  | .operand a => a.1.words
  | .lparen => ["("]
  | .rparen => [")"]
  | .and => ["AND"]
  | .or => ["OR"]

def tokenArgs : Token BoundAtom → List BindValue
  | .operand a => a.2
  | .lparen | .rparen | .and | .or => []

def TokenFits : Token BoundAtom → Prop
  | .operand a => a.1.Named ∧ a.2.length = a.1.holes
  | .lparen | .rparen | .and | .or => True

section
variable {tokens : List (Token BoundAtom)} {t : Token BoundAtom}

theorem tokenArgs_of_not_isOpening (h : t.isOpening = false) : tokenArgs t = [] := by
  cases t with
  | operand | lparen => exact nomatch h
  | rparen | and | or => rfl

theorem tokenFits_of_not_isOpening (h : t.isOpening = false) : TokenFits t := by
  cases t with
  | operand | lparen => exact nomatch h
  | rparen | and | or => trivial

theorem SqlAtom.words_head (a : SqlAtom) (h : a.Named) :
    ∃ w ws, a.words = w :: ws ∧ w ≠ ")" ∧ w ≠ "AND" ∧ w ≠ "OR" := by
  have hname {field : String} (hfield : IsName field) :
      field ≠ ")" ∧ field ≠ "AND" ∧ field ≠ "OR" := by
    refine ⟨?_, ?_, ?_⟩ <;>
    · rintro rfl
      exact absurd hfield (by decide)
  cases a with
  | simple field kind => exact ⟨field, _, rfl, hname h⟩
  | isIn field negated count => cases negated <;> exact ⟨field, _, rfl, hname h⟩
  | flag value => exact ⟨"(", _, rfl, by decide⟩
  | length field empty => cases empty <;> exact ⟨"(", _, rfl, by decide⟩

theorem length_le_flatMap_tokenWords (h : ∀ t ∈ tokens, TokenFits t) :
    tokens.length ≤ (tokens.flatMap tokenWords).length := by
  induction tokens with
  | nil => exact Nat.le_refl _
  | cons t tokens ih =>
    have htail := ih fun t ht => h t (mem_cons_of_mem _ ht)
    have hpos : 0 < (tokenWords t).length := by
      cases t with
      | operand a =>
        obtain ⟨w, ws, hwords, -⟩ := a.1.words_head (h _ mem_cons_self).1
        simp [tokenWords, hwords]
      | lparen | rparen | and | or => exact Nat.one_pos
    rw [flatMap_cons, length_append, length_cons]
    omega

theorem readAtom_lparen_tokens (tokens : List (Token BoundAtom)) :
    readAtom ("(" :: tokens.flatMap tokenWords) = none := by
  cases tokens with
  | nil => rfl
  | cons t tokens =>
    cases t with
    | operand a => exact readAtom_lparen_words a.1 _
    | lparen | rparen | and | or => rfl

theorem lexClause_tokens (h : ∀ t ∈ tokens, TokenFits t) (hfuel : tokens.length ≤ fuel) :
    lexClause fuel (tokens.flatMap tokenWords) (tokens.flatMap tokenArgs) = some tokens := by
  induction tokens generalizing fuel with
  | nil => cases fuel <;> rfl
  | cons t tokens ih =>
    obtain ⟨fuel, rfl⟩ : ∃ n, fuel = n + 1 :=
      Nat.exists_eq_add_one_of_ne_zero (Nat.ne_of_gt (Nat.lt_of_lt_of_le (Nat.succ_pos _) hfuel))
    have htail := ih (fun t ht => h t (mem_cons_of_mem _ ht)) (Nat.le_of_succ_le_succ hfuel)
    cases t with
    | operand a =>
      obtain ⟨hnamed, hholes⟩ : a.1.Named ∧ a.2.length = a.1.holes := h _ mem_cons_self
      obtain ⟨w, ws, hwords, hrparen, hand, hor⟩ := a.1.words_head hnamed
      have hread : readAtom (w :: (ws ++ tokens.flatMap tokenWords)) =
          some (a.1, tokens.flatMap tokenWords) := by
        rw [← cons_append, ← hwords]
        exact readAtom_words a.1 hnamed _
      rw [flatMap_cons, flatMap_cons, tokenWords, tokenArgs, hwords, cons_append,
        lexClause, if_neg hrparen, if_neg hand, if_neg hor, hread]
      simp only [← hholes, length_append, take_left, drop_left, htail]
      rw [if_neg (by omega)]
      rfl
    | lparen =>
      have hread := readAtom_lparen_tokens tokens
      rw [flatMap_cons, flatMap_cons, tokenWords, tokenArgs, singleton_append,
        nil_append, lexClause, if_neg (by decide), if_neg (by decide), if_neg (by decide),
        hread]
      simp only [if_true, htail]
      rfl
    | rparen | and | or =>
      rw [flatMap_cons, flatMap_cons, tokenWords, tokenArgs, singleton_append,
        nil_append, lexClause]
      simp [htail]

end

/-! ## When the two agree -/

def BindValue.IsPlain (value : BindValue) : Prop :=
  (∃ text, value = .string text) ∨ ∃ n, value = .integer n

def Comparison.values : Comparison → List BindValue
  | .equalTo _ value | .notEqualTo _ value | .greaterThan _ value | .lessThan _ value
  | .greaterThanOrEqualTo _ value | .lessThanOrEqualTo _ value => [value]
  | .between _ low high | .notBetween _ low high => [low, high]
  | .isIn _ values | .notIn _ values => values
  | .contains _ _ | .notContains _ _ | .beginsWith _ _ | .endsWith _ _ | .isNull _ | .isNotNull _
  | .like _ _ | .notLike _ _ | .glob _ _ | .notGlob _ _ => []

/-- The calls that build the condition, with plain values, and those that set a limit or ask for the
operations. -/
def RdbCall.IsCondition : RdbCall → Prop
  | .build (.compare c) => ∀ value ∈ c.values, value.IsPlain
  | .build .beginWrap | .build .endWrap | .build .or | .build .and | .build (.limit _)
  | .build (.limitOffset _ _) | .build (.offset _) => True
  | .build (.orderByAsc _) | .build (.orderByDesc _) | .build .distinct | .build (.groupBy _)
  | .build (.indexedBy _) | .build (.having _ _) | .clear => False
  | .inStrings _ _ | .notInStrings _ _ | .getDistributedPredicates => True

def OrderMatches (field : String) : BindValue → Prop
  | .integer _ => IsName field
  | value => field = "" ∨ value = .string ""

/-- A call that is accepted is recorded with the same meaning, and one that is refused is not. -/
def Comparison.Matches : Comparison → Prop
  | .equalTo field _ => IsName field ∧ field ≠ ORIGIN_FIELD ∧ field ≠ ORIGIN_ORIDEVICE
  | .notEqualTo field _ => IsName field ∧ field ≠ ORIGIN_ORIDEVICE
  | .contains field value | .notContains field value | .beginsWith field value
  | .endsWith field value | .like field value | .notLike field value | .glob field value
  | .notGlob field value => IsName field ∧ value ≠ ""
  | .isNull field | .isNotNull field => IsName field
  | .between field low high | .notBetween field low high =>
    field = "" ∨ low = .string "" ∨ high = .string ""
  | .greaterThan field value | .lessThan field value | .greaterThanOrEqualTo field value
  | .lessThanOrEqualTo field value => OrderMatches field value
  | .isIn field values => IsName field ∧
      ((∃ texts, values = List.map .string texts) ∨ ∃ numbers, values = List.map .integer numbers)
  | .notIn field _ => field = ""

namespace AbsRdbPredicates

/-- `Or` and `EndWrap` come after a condition, and no limit is set when the operations are asked
for. -/
def Matches (s : AbsRdbPredicates) : RdbCall → Prop
  | .build (.compare c) => c.Matches
  | .build .or | .build .endWrap => s.base.isNeedAnd
  | .inStrings field _ | .notInStrings field _ => IsName field
  | .getDistributedPredicates => s.base.limit < 0
  | _ => True

def accepted (s : AbsRdbPredicates) : RdbCall → Bool
  | .build c => c.accepted s.base
  | .inStrings field _ | .notInStrings field _ => checkParameter field []
  | .clear | .getDistributedPredicates => true

structure Agrees (t : Transition AbsRdbPredicates RdbCall (List RdbPredicateOperation)) :
    Prop where
  truth : ∀ (T : Type) [Lattice T] (holds : BoundAtom → T),
    readOperations holds t.post.operations = t.post.base.readClause holds
  refused : t.pre.accepted t.call = false → t.post = t.pre
  repeated : t.call = .getDistributedPredicates →
    (t.post.step .getDistributedPredicates).1 = t.ret

end AbsRdbPredicates

/-! ## Comparisons -/

namespace Comparison
variable {c : Comparison}

/-- The call is refused and not recorded, or it is recorded as what it writes. -/
inductive Faithful (c : Comparison) : Prop
  | refused (hcondition : c.condition = none) (hrecorded : c.recorded = [])
  | accepted {text : String} {args : List BindValue} (hcondition : c.condition = some (text, args))
      (hname : IsName c.field) (hholes : args.length = c.sqlAtom.holes)
      (hrecorded : c.recorded.flatMap (·.tokens) = [.operand (c.sqlAtom, args)])

variable {field : String}

theorem restrict_eq_none {operator : String} {args : List BindValue}
    (h : field = "" ∨ .string "" ∈ checked) : restrict field operator checked args = none := by
  refine if_neg fun hcheck => ?_
  simp only [checkParameter, decide_eq_true_eq] at hcheck
  rcases h with h | h
  · exact hcheck.1 h
  · exact hcheck.2 h

theorem restrict_of_ne {operator : String} {args : List BindValue} (hname : IsName field)
    (h : .string "" ∉ checked) :
    restrict field operator checked args = some (field ++ operator, args) :=
  if_pos (decide_eq_true ⟨hname.1, h⟩)

theorem faithful_of_text (hname : IsName c.field) (hvalue : value ≠ "") (hfield : c.field = field)
    (hholes : kind.holes = 1)
    (hcondition : c.condition = restrict field kind.text [.string value] [.string text])
    (hatom : c.sqlAtom = .simple field kind)
    (hrecorded : c.recorded.flatMap (·.tokens) = [.operand (.simple field kind, [.string text])]) :
    c.Faithful := by
  have hsome := hcondition.trans (restrict_of_ne (hfield ▸ hname) (by simpa using hvalue.symm))
  refine .accepted hsome hname ?_ (hrecorded.trans (by rw [hatom]))
  rw [hatom]
  exact hholes.symm

theorem faithful_of_order {value : BindValue} {kind : CondKind}
    {operator : RdbPredicateOperator} (hplain : value.IsPlain) (h : OrderMatches field value)
    (hfield : c.field = field) (hholes : kind.holes = 1)
    (hcondition : c.condition = restrict field kind.text [value] [value])
    (hatom : c.sqlAtom = .simple field kind)
    (hrecorded : c.recorded = ofNumber operator field value)
    (htokens : ∀ values, tokens ⟨operator, field, values⟩ =
      [operand ⟨operator, field, values⟩ kind id]) : c.Faithful := by
  rcases hplain with ⟨text, rfl⟩ | ⟨n, rfl⟩
  · refine .refused (hcondition.trans (restrict_eq_none ?_)) hrecorded
    exact h.imp_right fun htext => mem_singleton.mpr htext.symm
  · have hname : IsName field := h
    refine .accepted (hcondition.trans (restrict_of_ne hname (by simp))) (hfield ▸ hname) ?_ ?_
    · rw [hatom]
      exact hholes.symm
    · rw [hrecorded, hatom]
      exact (append_nil _).trans (htokens _)

theorem splitValues_texts (texts : List String) :
    splitValues (texts.map .string) = some (texts, []) := by
  induction texts with
  | nil => rfl
  | cons text texts ih => simp [splitValues, ih]

theorem splitValues_numbers (numbers : List Int) :
    splitValues (numbers.map .integer) = some ([], numbers) := by
  induction numbers with
  | nil => rfl
  | cons n numbers ih => simp [splitValues, BindValue.recordedNumber, ih]

theorem membership_texts (operator : RdbPredicateOperator) (field : String) (negated : Bool)
    (texts : List String) :
    membership ⟨operator, field, texts.map .string⟩ negated =
      .operand (.isIn field negated (texts.map BindValue.string).length, texts.map .string) := by
  simp [membership, bindValues]

theorem membership_numbers (operator : RdbPredicateOperator) (field : String) (negated : Bool)
    (numbers : List Int) :
    membership ⟨operator, field, numbers.map .integer⟩ negated =
      .operand (.isIn field negated (numbers.map BindValue.integer).length,
        numbers.map .integer) := by
  simp [membership, bindValues]

theorem tokens_ofValues {values : List BindValue} (h : (∃ texts, values = List.map .string texts) ∨
      ∃ numbers, values = List.map .integer numbers) :
    (ofValues field values).flatMap (·.tokens) =
      [.operand (.isIn field false values.length, values)] := by
  rcases h with ⟨texts, rfl⟩ | ⟨numbers, rfl⟩
  · have hvalues : ofValues field (texts.map .string) = [⟨.isIn, field, texts.map .string⟩] := by
      rw [ofValues, splitValues_texts]
      cases texts <;> rfl
    rw [hvalues, ← membership_texts .isIn]
    rfl
  · have hvalues : ofValues field (numbers.map .integer) =
        [⟨.isIn, field, numbers.map .integer⟩] := by
      rw [ofValues, splitValues_numbers]
      rfl
    rw [hvalues, ← membership_numbers .isIn]
    rfl

theorem faithful (hplain : ∀ value ∈ c.values, value.IsPlain) (h : c.Matches) : c.Faithful := by
  cases c with
  | equalTo field value =>
    obtain ⟨hname, horigin, hdevice⟩ := h
    have hcondition : equalToCondition field value = some (field ++ " = ? ", [value]) := by
      simp [equalToCondition, checkParameter, hname.1, horigin, hdevice]
    have hatom : (equalTo field value).sqlAtom = .simple field .eq := by
      simp [sqlAtom, horigin, hdevice]
    refine .accepted hcondition hname (by rw [hatom]; rfl) ?_
    rw [hatom]
    rcases hplain value mem_cons_self with ⟨text, rfl⟩ | ⟨n, rfl⟩ <;> rfl
  | notEqualTo field value =>
    obtain ⟨hname, hdevice⟩ := h
    have hcondition : notEqualToCondition field value = some (field ++ " <> ? ", [value]) := by
      simp [notEqualToCondition, checkParameter, hname.1, hdevice]
    have hatom : (notEqualTo field value).sqlAtom = .simple field .ne := by
      simp [sqlAtom, hdevice]
    refine .accepted hcondition hname (by rw [hatom]; rfl) ?_
    rw [hatom]
    rcases hplain value mem_cons_self with ⟨text, rfl⟩ | ⟨n, rfl⟩ <;> rfl
  | contains | beginsWith | endsWith | like | notContains | notLike | glob | notGlob =>
    exact faithful_of_text h.1 h.2 rfl rfl rfl rfl rfl
  | isNull | isNotNull =>
    exact .accepted (restrict_of_ne h not_mem_nil) h rfl rfl
  | between field low high | notBetween field low high =>
    have hempty : field = "" ∨ .string "" ∈ [low, high] := h.imp_right fun h => by
      simpa [eq_comm] using h
    exact .refused (restrict_eq_none hempty) rfl
  | greaterThan field value | lessThan field value | greaterThanOrEqualTo field value
  | lessThanOrEqualTo field value =>
    exact faithful_of_order (hplain value mem_cons_self) h rfl rfl rfl rfl rfl fun _ => rfl
  | isIn field values =>
    exact .accepted (restrict_of_ne h.1 not_mem_nil) h.1 rfl (tokens_ofValues h.2)
  | notIn field values => exact .refused (restrict_eq_none (.inl h)) rfl

end Comparison

/-! ## Along a run -/

namespace AbsRdbPredicates

structure Spelled (s : AbsRdbPredicates) (tokens : List (Token BoundAtom)) : Prop where
  words_eq : words s.base.whereClause = tokens.flatMap tokenWords
  args_eq : s.base.bindArgs = tokens.flatMap tokenArgs
  fits : ∀ t ∈ tokens, TokenFits t
  endsApart : EndsApart s.base.whereClause
  reads : ∀ (T : Type) [Lattice T] (holds : BoundAtom → T),
    readAllNear holds (some .start) (s.operations.flatMap (·.tokens)) =
      readAll holds (some .start) tokens
  settled : ∀ (T : Type) [Lattice T] (holds : BoundAtom → T) (r : Reader T),
    readAll holds (some .start) tokens = some r → r.Settled s.base.isNeedAnd

def Inv (s : AbsRdbPredicates) : Prop := ∃ tokens, s.Spelled tokens

theorem spelled_initial : initial.Spelled [] := by
  refine ⟨rfl, rfl, fun _ h => (nomatch h), by decide, fun _ _ _ => rfl, ?_⟩
  intro T _ holds r h
  obtain rfl : Reader.start = r := Option.some.inj h
  exact ⟨rfl, rfl⟩

variable {s s' : AbsRdbPredicates} {tokens : List (Token BoundAtom)} {t : Token BoundAtom}

theorem Spelled.truth (h : s.Spelled tokens) (T : Type) [Lattice T] (holds : BoundAtom → T) :
    readOperations holds s.operations = s.base.readClause holds := by
  have hlex : s.base.clauseTokens = some tokens := by
    rw [clauseTokens, h.words_eq, h.args_eq]
    exact lexClause_tokens h.fits (length_le_flatMap_tokenWords h.fits)
  rw [readOperations, h.reads, readClause, hlex, Option.bind_some]

def jointTokens (s : AbsRdbPredicates) : List (Token BoundAtom) :=
  if s.base.isNeedAnd then [.and] else []

theorem flatMap_jointTokens : s.jointTokens.flatMap tokenWords = s.base.joint := by
  unfold jointTokens joint
  split <;> rfl

theorem flatMap_jointTokens_args : s.jointTokens.flatMap tokenArgs = [] := by
  unfold jointTokens
  split <;> rfl

theorem Spelled.readAll_joint (h : s.Spelled tokens) (ht : t.isOpening) (T : Type)
    [Lattice T] (holds : BoundAtom → T) :
    readAll holds (some .start) (tokens ++ (s.jointTokens ++ [t])) =
      readAllNear holds
        (readAllNear holds (some .start) (s.operations.flatMap (·.tokens))) [t] := by
  rw [readAll_append, h.reads]
  cases hr : readAll holds (some .start) tokens with
  | none => rw [Condition.readAll_none, Condition.readAllNear_none]
  | some r =>
    have hopening : (t.map holds).isOpening := (t.isOpening_map holds).trans ht
    have hnear : readAllNear holds (some r) [t] = r.stepNear (t.map holds) := rfl
    rw [hnear, Reader.stepNear_of_settled (h.settled T holds r hr) hopening, jointTokens]
    cases s.base.isNeedAnd <;> rfl

theorem Spelled.opening (h : s.Spelled tokens) (ht : t.isOpening) (hfits : TokenFits t)
    (hwords : words s'.base.whereClause =
      words s.base.whereClause ++ (s.base.joint ++ tokenWords t))
    (hargs : s'.base.bindArgs = s.base.bindArgs ++ tokenArgs t)
    (hends : EndsApart s'.base.whereClause)
    (hreads : ∀ (T : Type) [Lattice T] (holds : BoundAtom → T),
      readAllNear holds (some .start) (s'.operations.flatMap (·.tokens)) =
        readAllNear holds (readAllNear holds (some .start) (s.operations.flatMap (·.tokens))) [t])
    (hneed : ∀ (T : Type) [Lattice T] (r r' : Reader T) (holds : BoundAtom → T),
      r.step (t.map holds) = some r' → r'.Settled s'.base.isNeedAnd) :
    s'.Spelled (tokens ++ (s.jointTokens ++ [t])) where
  words_eq := by
    rw [hwords, h.words_eq, flatMap_append, flatMap_append, flatMap_jointTokens]
    simp
  args_eq := by
    rw [hargs, h.args_eq, flatMap_append, flatMap_append, flatMap_jointTokens_args]
    simp
  fits := by
    intro t' ht'
    rcases mem_append.mp ht' with ht' | ht'
    · exact h.fits t' ht'
    · rcases mem_append.mp ht' with ht' | ht'
      · unfold jointTokens at ht'
        split at ht'
        · exact mem_singleton.mp ht' ▸ trivial
        · exact nomatch ht'
      · exact mem_singleton.mp ht' ▸ hfits
  endsApart := hends
  reads T _ holds := (hreads T holds).trans (h.readAll_joint ht T holds).symm
  settled T _ holds r hr := by
    rw [h.readAll_joint ht T holds] at hr
    obtain ⟨r₀, -, hstep⟩ := Option.bind_eq_some_iff.mp hr
    obtain ⟨r₁, hstep⟩ := Reader.exists_step_of_stepNear hstep
    exact hneed T r₁ r holds hstep

variable {text : String}

theorem Spelled.closing {need : Bool} (h : s.Spelled tokens) (ht : t.isOpening = false)
    (hbase : s'.base =
      { s.base with whereClause := s.base.whereClause ++ text, isNeedAnd := need })
    (hwords : words (s.base.whereClause ++ text) = words s.base.whereClause ++ tokenWords t)
    (htext : EndsApart text ∧ text ≠ "")
    (hrecorded : s'.operations.flatMap (·.tokens) = s.operations.flatMap (·.tokens) ++ [t])
    (hneed : ∀ (T : Type) [Lattice T] (r r' : Reader T) (holds : BoundAtom → T),
      r.step (t.map holds) = some r' → r'.Settled need) :
    s'.Spelled (tokens ++ [t]) where
  words_eq := by
    rw [hbase, hwords, h.words_eq, flatMap_append]
    simp
  args_eq := by
    rw [hbase, h.args_eq, flatMap_append]
    simp [tokenArgs_of_not_isOpening ht]
  fits := by
    intro t' ht'
    rcases mem_append.mp ht' with ht' | ht'
    · exact h.fits t' ht'
    · exact mem_singleton.mp ht' ▸ tokenFits_of_not_isOpening ht
  endsApart := by
    rw [hbase]
    exact endsApart_append htext.1 htext.2
  reads T _ holds := by
    rw [hrecorded, readAllNear_append, h.reads, readAll_append]
    cases readAll holds (some .start) tokens with
    | none => rfl
    | some r =>
      exact Reader.stepNear_of_not_isOpening ((t.isOpening_map holds).trans ht)
  settled T _ holds r hr := by
    rw [readAll_append] at hr
    obtain ⟨r₀, -, hstep⟩ := Option.bind_eq_some_iff.mp hr
    rw [hbase]
    exact hneed T r₀ r holds hstep

theorem Spelled.same (h : s.Spelled tokens) (hclause : s.base.SameClause s'.base)
    (hargs : s'.base.bindArgs = s.base.bindArgs)
    (hrecorded : s'.operations.flatMap (·.tokens) = s.operations.flatMap (·.tokens)) :
    s'.Spelled tokens where
  words_eq := by rw [hclause.1, h.words_eq]
  args_eq := hargs.trans h.args_eq
  fits := h.fits
  endsApart := hclause.1 ▸ h.endsApart
  reads T _ holds := by rw [hrecorded, h.reads]
  settled T _ holds r hr := hclause.2 ▸ h.settled T holds r hr

/-! ## The calls -/

variable {c : Comparison}

section
variable (h : s.Spelled tokens)
include h

theorem Spelled.compare {args : List BindValue}
    (hcondition : c.condition = some (text, args)) (hname : IsName c.field)
    (hholes : args.length = c.sqlAtom.holes) (hbase : s'.base = s.base.compare c)
    (hreads : ∀ (T : Type) [Lattice T] (holds : BoundAtom → T),
      readAllNear holds (some .start) (s'.operations.flatMap (·.tokens)) =
        readAllNear holds (readAllNear holds (some .start) (s.operations.flatMap (·.tokens)))
          [.operand (c.sqlAtom, args)]) :
    s'.Spelled (tokens ++ (s.jointTokens ++ [.operand (c.sqlAtom, args)])) := by
  have haccepted : c.Accepted := ⟨by rw [hcondition]; rfl, hname⟩
  have hwrote := AbsPredicates.wrote_compare haccepted h.endsApart
  have hargs : (s.base.compare c).bindArgs = s.base.bindArgs ++ args := by
    simp only [AbsPredicates.compare, hcondition, AbsPredicates.appendCondition,
      AbsPredicates.checkIsNeedAnd]
    split <;> rfl
  refine h.opening rfl ⟨c.sqlAtom_named hname, hholes⟩ (hbase ▸ hwrote.words_eq) (hbase ▸ hargs)
    (hbase ▸ hwrote.endsApart) hreads ?_
  intro T _ r r' holds hstep
  rw [hbase, hwrote.isNeedAnd]
  exact Reader.settled_step_operand hstep

theorem Spelled.build_compare (hcondition : c.condition = some (text, args))
    (hname : IsName c.field) (hholes : args.length = c.sqlAtom.holes)
    (hrecorded : c.recorded.flatMap (·.tokens) = [.operand (c.sqlAtom, args)]) :
    (s.build (.compare c)).Spelled (tokens ++ (s.jointTokens ++ [.operand (c.sqlAtom, args)])) := by
  refine h.compare hcondition hname hholes rfl fun T _ holds => ?_
  rw [← hrecorded, ← readAllNear_append, ← flatMap_append]
  rfl

theorem Spelled.beginWrap :
    (s.build .beginWrap).Spelled (tokens ++ (s.jointTokens ++ [.lparen])) := by
  have hargs : s.base.beginWrap.bindArgs = s.base.bindArgs ++ [] := by
    unfold AbsPredicates.beginWrap
    split <;> exact (append_nil _).symm
  refine h.opening rfl trivial (AbsPredicates.words_beginWrap fun _ => h.endsApart) hargs
    AbsPredicates.endsApart_beginWrap (fun T _ holds => ?_) fun T _ r r' holds hstep => ?_
  · rw [← readAllNear_append]
    exact congrArg _ flatMap_append
  · have hneed : (s.build .beginWrap).base.isNeedAnd = false := AbsPredicates.beginWrap_isNeedAnd
    rw [hneed]
    exact Reader.settled_step_lparen hstep

theorem Spelled.endWrap (hneed : s.base.isNeedAnd) :
    (s.build .endWrap).Spelled (tokens ++ [.rparen]) := by
  refine h.closing rfl (endWrap_of_isNeedAnd hneed) (words_rparen _)
    (by decide) flatMap_append fun T _ r r' holds hstep => ?_
  rw [hneed]
  exact Reader.settled_step_rparen hstep

theorem Spelled.or (hneed : s.base.isNeedAnd) :
    (s.build .or).Spelled (tokens ++ [.or]) :=
  h.closing rfl (or_of_isNeedAnd hneed) (words_or _) (by decide)
    flatMap_append fun _ _ _ _ _ hstep => Reader.settled_step_or hstep

end

theorem Inv.inStrings {field : String} {values : List String} (h : s.Inv) (hname : IsName field) :
    (s.inStrings field values).Inv := by
  obtain ⟨tokens, h⟩ := h
  have hcondition : (Comparison.isIn field (values.map .string)).condition =
      some (_, values.map .string) := Comparison.restrict_of_ne hname not_mem_nil
  refine ⟨_, h.compare hcondition hname rfl rfl fun T _ holds => ?_⟩
  have htokens : (s.inStrings field values).operations.flatMap (·.tokens) =
      s.operations.flatMap (·.tokens) ++ [membership ⟨.isIn, field, values.map .string⟩ false] ++
        (ofValues field (values.map .string)).flatMap (·.tokens) :=
    flatMap_append.trans (congrArg (· ++ _) flatMap_append)
  rw [htokens, Comparison.membership_texts, Comparison.tokens_ofValues (.inl ⟨values, rfl⟩),
    readAllNear_append, readAllNear_append]
  exact Condition.readAllNear_operand_again _ _

theorem Inv.notInStrings {field : String} {values : List String} (h : s.Inv)
    (hname : IsName field) : (s.notInStrings field values).Inv := by
  obtain ⟨tokens, h⟩ := h
  have hcondition : (Comparison.notIn field (values.map .string)).condition =
      some (_, values.map .string) := Comparison.restrict_of_ne hname not_mem_nil
  refine ⟨_, h.compare hcondition hname rfl rfl fun T _ holds => ?_⟩
  have hrecorded : (s.notInStrings field values).operations =
      s.operations ++ [⟨.notIn, field, values.map .string⟩] := append_nil _
  have htokens : (s.notInStrings field values).operations.flatMap (·.tokens) =
      s.operations.flatMap (·.tokens) ++ [membership ⟨.notIn, field, values.map .string⟩ true] := by
    rw [hrecorded]
    exact flatMap_append
  rw [htokens, Comparison.membership_texts, readAllNear_append]
  rfl

theorem build_compare_of_refused (hcondition : c.condition = none)
    (hrecorded : c.recorded = []) : s.build (.compare c) = s := by
  simp [build, AbsPredicates.build, AbsPredicates.compare, BuilderCall.recorded, hcondition,
    hrecorded]

theorem getDistributedPredicates_of_limit_neg (h : s.base.limit < 0) :
    s.getDistributedPredicates = (s.operations, s) := by
  simp [getDistributedPredicates, Int.not_le.mpr h]

theorem inv_step {c : RdbCall} (h : s.Inv) (hcondition : c.IsCondition) (hmatches : s.Matches c) :
    (s.step c).2.Inv := by
  cases c with
  | build c =>
    obtain ⟨tokens, h⟩ := h
    cases c with
    | compare c =>
      cases c.faithful hcondition hmatches with
      | refused hnone hrecorded =>
        rw [step, build_compare_of_refused hnone hrecorded]
        exact ⟨tokens, h⟩
      | accepted hsome hname hholes hrecorded =>
        exact ⟨_, h.build_compare hsome hname hholes hrecorded⟩
    | beginWrap => exact ⟨_, h.beginWrap⟩
    | endWrap => exact ⟨_, h.endWrap hmatches⟩
    | or => exact ⟨_, h.or hmatches⟩
    | and | limit | limitOffset | offset =>
      exact ⟨tokens, h.same ⟨rfl, rfl⟩ rfl (flatMap_append.trans (append_nil _))⟩
    | orderByAsc | orderByDesc | distinct | groupBy | indexedBy | having => exact hcondition.elim
  | inStrings => exact h.inStrings hmatches
  | notInStrings => exact h.notInStrings hmatches
  | clear => exact hcondition.elim
  | getDistributedPredicates =>
    rw [step, getDistributedPredicates_of_limit_neg hmatches]
    exact h

theorem step_of_refused {c : RdbCall} (hcondition : c.IsCondition) (hmatches : s.Matches c)
    (h : s.accepted c = false) : (s.step c).2 = s := by
  have hname {field : String} (hfield : IsName field) : checkParameter field [] :=
    decide_eq_true ⟨hfield.1, not_mem_nil⟩
  cases c with
  | build c =>
    cases c with
    | compare c =>
      cases c.faithful hcondition hmatches with
      | refused hnone hrecorded => exact build_compare_of_refused hnone hrecorded
      | accepted hsome =>
        have hnone : c.condition.isSome = false := h
        rw [hsome] at hnone
        exact nomatch hnone
    | endWrap | or => exact nomatch (hmatches.symm.trans h : true = false)
    | beginWrap | and | limit | limitOffset | offset => exact nomatch h
    | orderByAsc | orderByDesc | distinct | groupBy | indexedBy | having => exact hcondition.elim
  | inStrings | notInStrings =>
    exact nomatch ((hname hmatches).symm.trans h : true = false)
  | clear | getDistributedPredicates => exact nomatch h

theorem repeated_step {c : RdbCall} (hmatches : s.Matches c) (h : c = .getDistributedPredicates) :
    ((s.step c).2.step .getDistributedPredicates).1 = (s.step c).1 := by
  subst h
  simp only [step, getDistributedPredicates_of_limit_neg hmatches]

theorem agrees_of_matches (calls : List RdbCall) (hcalls : ∀ c ∈ calls, c.IsCondition)
    (h : ∀ t ∈ trace step initial calls, t.pre.Matches t.call) :
    ∀ t ∈ trace step initial calls, Agrees t := by
  refine trace_forall (I := Inv) (G := fun s c => RdbCall.IsCondition c ∧ s.Matches c) ?_
    ⟨[], spelled_initial⟩ fun t ht => ⟨hcalls _ (call_mem_of_mem_trace ht), h t ht⟩
  rintro s c hinv ⟨hcondition, hmatches⟩
  have hnext := inv_step hinv hcondition hmatches
  refine ⟨hnext, fun T _ holds => ?_, step_of_refused hcondition hmatches,
    repeated_step hmatches⟩
  obtain ⟨tokens, hspelled⟩ := hnext
  exact hspelled.truth T holds

theorem agrees_of_matches_group :
    let calls : List RdbCall := [.build .beginWrap, .build (.compare (.equalTo "a" (.integer 1))),
      .build .or, .inStrings "b" ["x", "y"], .build .endWrap,
      .build (.compare (.greaterThan "c" (.integer 5))),
      .build (.compare (.between "c" (.integer 2) (.string ""))), .getDistributedPredicates]
    (∀ t ∈ trace step initial calls, Agrees t) ∧
      (final step initial calls).operations = [ofText .beginGroup "" "",
        ⟨.equalTo, "a", [.integer 1]⟩, ofText .or "" "",
        ⟨.isIn, "b", [.string "x", .string "y"]⟩, ⟨.isIn, "b", [.string "x", .string "y"]⟩,
        ofText .endGroup "" "", ⟨.greaterThan, "c", [.integer 5]⟩] := by
  refine ⟨agrees_of_matches _ ?_ ?_, by decide⟩
  · simp [RdbCall.IsCondition, Comparison.values, BindValue.IsPlain]
  · simp only [trace, transition, forall_mem_cons, not_mem_nil, false_imp_iff,
      implies_true, Matches, Comparison.Matches, OrderMatches]
    decide

theorem not_agrees_recorded :
    (¬ ∀ t ∈ trace step initial [.build (.compare (.equalTo "a" (.integer 1))),
      .build (.compare (.notIn "b" [.integer 2]))], Agrees t) ∧
    (¬ ∀ t ∈ trace step initial [.build (.compare (.equalTo "" (.integer 1)))], Agrees t) ∧
    ¬ ∀ t ∈ trace step initial [.build (.limit 5), .getDistributedPredicates], Agrees t := by
  refine ⟨fun h => ?_, fun h => ?_, fun h => ?_⟩
  · have htruth := (h _ (mem_cons_of_mem _ mem_cons_self)).truth Bool
      fun a => decide (a.1 = .simple "a" .eq)
    exact absurd htruth (by decide)
  · exact absurd ((h _ mem_cons_self).refused rfl) (by decide)
  · exact absurd ((h _ (mem_cons_of_mem _ mem_cons_self)).repeated rfl) (by decide)

end AbsRdbPredicates

end RelationalStore
