import RelationalStore.Theory.Condition
import RelationalStore.Theory.Words
import RelationalStore.Rdb.Predicates.Basic

/-! # The words of the where clause

What the calls of `AbsPredicates` write, and the conditions that a reader finds in it. -/

namespace RelationalStore

open List
open Condition (Signs)

def sqlSigns : Signs String := ⟨"(", ")", "AND", "OR", by decide, by decide, by decide⟩

inductive CondKind where
  | eq
  | ne
  | like
  | notLike
  | glob
  | notGlob
  | isNull
  | isNotNull
  | between
  | notBetween
  | gt
  | lt
  | ge
  | le
  deriving DecidableEq

namespace CondKind

def text : CondKind → String
  | eq => " = ? "
  | ne => " <> ? "
  | like => " LIKE ? "
  | notLike => " NOT LIKE ? "
  | glob => " GLOB ? "
  | notGlob => " NOT GLOB ? "
  | isNull => " IS NULL "
  | isNotNull => " IS NOT NULL "
  | between => " BETWEEN ? AND ? "
  | notBetween => " NOT BETWEEN ? AND ? "
  | gt => " > ? "
  | lt => " < ? "
  | ge => " >= ? "
  | le => " <= ? "

def all : List CondKind :=
  [eq, ne, like, notLike, glob, notGlob, isNull, isNotNull, between, notBetween, gt, lt, ge, le]

end CondKind

def morePlaceholders : Nat → List String
  | 0 => [")"]
  | n + 1 => "," :: "?" :: morePlaceholders n

def placeholders : Nat → List String
  | 0 => [")"]
  | n + 1 => "?" :: morePlaceholders n

inductive SqlAtom where
  | simple (field : String) (kind : CondKind)
  | isIn (field : String) (negated : Bool) (count : Nat)
  | flag (value : String)
  | length (field : String) (empty : Bool)
  deriving DecidableEq

def SqlAtom.words : SqlAtom → List String
  | .simple field kind => field :: RelationalStore.words kind.text
  | .isIn field false count => field :: "IN" :: "(" :: placeholders count
  | .isIn field true count => field :: "NOT" :: "IN" :: "(" :: placeholders count
  | .flag value => ["(", "#_flag", "&", "0x02", "=", value, ")"]
  | .length field true => ["(", "LENGTH", "(", field, ")", "=", "0", ")"]
  | .length field false => ["(", "LENGTH", "(", field, ")", ">", "0", ")"]

def reservedWords : List String :=
  ["AND", "OR", "NOT", "IS", "NULL", "IN", "LIKE", "GLOB", "BETWEEN"]

def IsName (field : String) : Prop :=
  field ≠ "" ∧ (∀ c ∈ field.toList, isSeparator c = false) ∧ field ∉ reservedWords

instance (field : String) : Decidable (IsName field) :=
  letI : Decidable (∀ c ∈ field.toList, isSeparator c = false) := List.decidableBAll _ _
  inferInstanceAs (Decidable (_ ∧ _ ∧ _))

/-! ## Reading an atom -/

def dropWords : List String → List String → Option (List String)
  | [], ws => some ws
  | _ :: _, [] => none
  | v :: vs, w :: ws => if v = w then dropWords vs ws else none

def readKind (ws : List String) : Option (CondKind × List String) :=
  CondKind.all.findSome? fun k => (dropWords (words k.text) ws).map (k, ·)

def readMorePlaceholders : List String → Option (Nat × List String)
  | ")" :: ws => some (0, ws)
  | "," :: "?" :: ws => (readMorePlaceholders ws).map fun r => (r.1 + 1, r.2)
  | _ => none

def readPlaceholders : List String → Option (Nat × List String)
  | ")" :: ws => some (0, ws)
  | "?" :: ws => (readMorePlaceholders ws).map fun r => (r.1 + 1, r.2)
  | _ => none

def readTail (field : String) (ws : List String) : Option (SqlAtom × List String) :=
  match readKind ws, dropWords ["IN", "("] ws, dropWords ["NOT", "IN", "("] ws with
  | some (kind, ws), _, _ => some (.simple field kind, ws)
  | none, some ws, _ => (readPlaceholders ws).map fun r => (.isIn field false r.1, r.2)
  | none, none, some ws => (readPlaceholders ws).map fun r => (.isIn field true r.1, r.2)
  | none, none, none => none

def readSpecial (ws : List String) : Option (SqlAtom × List String) :=
  match dropWords ["#_flag", "&", "0x02", "="] ws, dropWords ["LENGTH", "("] ws with
  | some (value :: ")" :: ws), _ => some (.flag value, ws)
  | none, some (field :: ")" :: "=" :: "0" :: ")" :: ws) => some (.length field true, ws)
  | none, some (field :: ")" :: ">" :: "0" :: ")" :: ws) => some (.length field false, ws)
  | _, _ => none

def readAtom : List String → Option (SqlAtom × List String)
  | [] => none
  | w :: ws =>
    if w = "(" then readSpecial ws
    else if w ∈ reservedWords then none
    else readTail w ws

def SqlAtom.Named : SqlAtom → Prop
  | .simple field _ | .isIn field _ _ => IsName field
  | .flag _ | .length _ _ => True

section
variable {field : String} {rest : List String}

theorem IsName.ne_lparen (h : IsName field) : field ≠ "(" := by
  rintro rfl
  exact absurd h (by decide)

theorem readMorePlaceholders_words (count : Nat) :
    readMorePlaceholders (morePlaceholders count ++ rest) = some (count, rest) := by
  induction count with
  | zero => rfl
  | succ n ih =>
    simp only [morePlaceholders, cons_append, readMorePlaceholders, ih, Option.map_some]

theorem readPlaceholders_words (count : Nat) :
    readPlaceholders (placeholders count ++ rest) = some (count, rest) := by
  cases count with
  | zero => rfl
  | succ n =>
    simp only [placeholders, cons_append, readPlaceholders, readMorePlaceholders_words,
      Option.map_some]

theorem readKind_words (kind : CondKind) :
    readKind (words kind.text ++ rest) = some (kind, rest) := by
  cases kind <;> rfl

theorem readAtom_field (h : IsName field) (ws : List String) :
    readAtom (field :: ws) = readTail field ws := by
  rw [readAtom, if_neg h.ne_lparen, if_neg h.2.2]

theorem readAtom_words (a : SqlAtom) (h : a.Named) (rest : List String) :
    readAtom (a.words ++ rest) = some (a, rest) := by
  cases a with
  | simple field kind =>
    rw [SqlAtom.words, cons_append, readAtom_field h]
    simp only [readTail, readKind_words]
  | isIn field negated count =>
    cases negated with
    | false =>
      have hkind : readKind ("IN" :: "(" :: (placeholders count ++ rest)) = none := rfl
      have hdrop : dropWords ["IN", "("] ("IN" :: "(" :: (placeholders count ++ rest)) =
        some (placeholders count ++ rest) := rfl
      simp only [SqlAtom.words, cons_append, readAtom_field h, readTail, hkind, hdrop,
        readPlaceholders_words, Option.map_some]
    | true =>
      have hkind : readKind ("NOT" :: "IN" :: "(" :: (placeholders count ++ rest)) = none := rfl
      have hdrop : dropWords ["IN", "("] ("NOT" :: "IN" :: "(" :: (placeholders count ++ rest)) =
        none := rfl
      have hdrop' : dropWords ["NOT", "IN", "("]
        ("NOT" :: "IN" :: "(" :: (placeholders count ++ rest)) =
          some (placeholders count ++ rest) := rfl
      simp only [SqlAtom.words, cons_append, readAtom_field h, readTail, hkind, hdrop, hdrop',
        readPlaceholders_words, Option.map_some]
  | flag value => rfl
  | length field empty => cases empty <;> rfl

theorem readSpecial_field {w : String} (ws : List String) (hflag : "&" ≠ w) (hlength : "(" ≠ w) :
    readSpecial (field :: w :: ws) = none := by
  have hfirst : dropWords ["#_flag", "&", "0x02", "="] (field :: w :: ws) = none := by
    simp only [dropWords, if_neg hflag, ite_self]
  have hsecond : dropWords ["LENGTH", "("] (field :: w :: ws) = none := by
    simp only [dropWords, if_neg hlength, ite_self]
  simp only [readSpecial, hfirst, hsecond]

theorem readAtom_lparen_words (a : SqlAtom) (rest : List String) :
    readAtom ("(" :: (a.words ++ rest)) = none := by
  rw [readAtom, if_pos rfl]
  cases a with
  | simple field kind => cases kind <;> exact readSpecial_field _ (by decide) (by decide)
  | isIn field negated count => cases negated <;> exact readSpecial_field _ (by decide) (by decide)
  | flag value => rfl
  | length field empty => cases empty <;> rfl

theorem readAtom_reads : Condition.Reads sqlSigns SqlAtom.words SqlAtom.Named readAtom :=
  Condition.reads_of_lparen readAtom_words (fun a _ => readAtom_lparen_words a) fun _ => rfl

theorem parse_sqlWords (d : Condition.Disj SqlAtom) (h : d.All SqlAtom.Named) :
    Condition.parse sqlSigns readAtom (d.words sqlSigns SqlAtom.words) = some d := by
  refine Condition.parse_words readAtom_reads (fun a _ => ?_) d h
  cases a with
  | simple field kind => exact cons_ne_nil _ _
  | isIn field negated count => cases negated <;> exact cons_ne_nil _ _
  | flag value => exact cons_ne_nil _ _
  | length field empty => cases empty <;> exact cons_ne_nil _ _

end

/-! ## The words of a condition -/

namespace Comparison

def field : Comparison → String
  | .equalTo field _ | .notEqualTo field _ | .contains field _ | .notContains field _
  | .beginsWith field _ | .endsWith field _ | .isNull field | .isNotNull field | .like field _
  | .notLike field _ | .glob field _ | .notGlob field _ | .between field _ _
  | .notBetween field _ _ | .greaterThan field _ | .lessThan field _
  | .greaterThanOrEqualTo field _ | .lessThanOrEqualTo field _ | .isIn field _
  | .notIn field _ => field

def sqlAtom : Comparison → SqlAtom
  | .equalTo field value =>
    if field = ORIGIN_FIELD then .flag (value.originFlag.getD "")
    else if field = ORIGIN_ORIDEVICE then .length field value.isEmptyDevice
    else .simple field .eq
  | .notEqualTo field value =>
    if field = ORIGIN_ORIDEVICE then .length field (!value.isEmptyDevice) else .simple field .ne
  | .contains field _ | .beginsWith field _ | .endsWith field _ | .like field _ =>
    .simple field .like
  | .notContains field _ | .notLike field _ => .simple field .notLike
  | .isNull field => .simple field .isNull
  | .isNotNull field => .simple field .isNotNull
  | .glob field _ => .simple field .glob
  | .notGlob field _ => .simple field .notGlob
  | .between field _ _ => .simple field .between
  | .notBetween field _ _ => .simple field .notBetween
  | .greaterThan field _ => .simple field .gt
  | .lessThan field _ => .simple field .lt
  | .greaterThanOrEqualTo field _ => .simple field .ge
  | .lessThanOrEqualTo field _ => .simple field .le
  | .isIn field values => .isIn field false values.length
  | .notIn field values => .isIn field true values.length

section
variable {field operator text : String} {checked args args' : List BindValue}

theorem restrict_eq_some (h : restrict field operator checked args = some (text, args')) :
    text = field ++ operator ∧ args' = args := by
  unfold restrict at h
  split at h
  · cases h
    exact ⟨rfl, rfl⟩
  · cases h

theorem words_restrict (hname : IsName field) (hoperator : StartsApart operator)
    (h : restrict field operator checked args = some (text, args')) :
    words text = field :: words operator := by
  rw [(restrict_eq_some h).1]
  exact words_name_append hname.2.1 hname.1 hoperator

theorem words_simple (kind : CondKind) (hname : IsName field)
    (h : restrict field kind.text checked args = some (text, args')) :
    words text = (SqlAtom.simple field kind).words :=
  words_restrict hname (by cases kind <;> decide) h

theorem startsApart_inList (values : List BindValue) (h : StartsApart function)
    (hne : function ≠ "") : StartsApart (inList function values) :=
  startsApart_append h hne

theorem words_joinTexts (n : Nat) :
    words (joinTexts "," (List.replicate (n + 1) "?") ++ ")") = "?" :: morePlaceholders n := by
  induction n with
  | zero => rfl
  | succ n ih =>
    have hjoin : joinTexts "," (List.replicate (n + 2) "?") =
        "? , " ++ joinTexts "," (List.replicate (n + 1) "?") := rfl
    rw [hjoin, String.append_assoc, words_append_of_endsApart (by decide), ih]
    rfl

theorem words_inList (function : String) (values : List BindValue) (h : EndsApart function) :
    words (inList function values) = words function ++ "(" :: placeholders values.length := by
  unfold inList surroundWithFunction
  rw [words_append_of_endsApart h, String.append_assoc, words_append_of_endsApart (by decide)]
  cases values.length with
  | zero => rfl
  | succ n =>
    rw [words_joinTexts]
    rfl

end

variable {value : BindValue}

theorem originFlag_eq_some (h : value.originFlag = some flag) : flag = "0x02" ∨ flag = "0x0" := by
  unfold BindValue.originFlag at h
  split at h
  · split_ifs at h
    · exact .inl (Option.some.inj h).symm
    · exact .inr (Option.some.inj h).symm
  · exact nomatch h
  · exact .inl (Option.some.inj h).symm

variable {text field : String} {args : List BindValue}

theorem equalToCondition_cases (h : equalToCondition field value = some (text, args)) :
    (field = ORIGIN_FIELD ∧ ∃ flag, (flag = "0x02" ∨ flag = "0x0") ∧ value.originFlag = some flag ∧
      text = "(#_flag & 0x02 = " ++ flag ++ ")" ∧ args = []) ∨
    (field = ORIGIN_ORIDEVICE ∧
      text = (if value.isEmptyDevice then "(LENGTH(#_ori_device) = 0)"
        else "(LENGTH(#_ori_device) > 0 )") ∧ args = []) ∨
    (field ≠ ORIGIN_FIELD ∧ field ≠ ORIGIN_ORIDEVICE ∧ text = field ++ " = ? " ∧
      args = [value]) := by
  unfold equalToCondition at h
  split at h
  · cases h
  split at h
  next horigin =>
    refine .inl ⟨horigin, ?_⟩
    cases hflag : value.originFlag with
    | none =>
      rw [hflag] at h
      cases h
    | some flag =>
      rw [hflag] at h
      cases h
      exact ⟨flag, originFlag_eq_some hflag, rfl, rfl, rfl⟩
  next horigin =>
    split at h
    next hdevice =>
      subst hdevice
      refine .inr (.inl ⟨rfl, ?_⟩)
      split at h <;> rename_i hempty <;> cases h
      · exact ⟨(if_pos hempty).symm, rfl⟩
      · exact ⟨(if_neg hempty).symm, rfl⟩
    next hdevice =>
      cases h
      exact .inr (.inr ⟨horigin, hdevice, rfl, rfl⟩)

theorem notEqualToCondition_cases (h : notEqualToCondition field value = some (text, args)) :
    (field = ORIGIN_ORIDEVICE ∧
      text = (if value.isEmptyDevice then "(LENGTH(#_ori_device) > 0 )"
        else "(LENGTH(#_ori_device) = 0)") ∧ args = []) ∨
    (field ≠ ORIGIN_ORIDEVICE ∧ text = field ++ " <> ? " ∧ args = [value]) := by
  unfold notEqualToCondition at h
  split at h
  · cases h
  split at h
  next hdevice =>
    subst hdevice
    refine .inl ⟨rfl, ?_⟩
    split at h <;> rename_i hempty <;> cases h
    · exact ⟨(if_pos hempty).symm, rfl⟩
    · exact ⟨(if_neg hempty).symm, rfl⟩
  next hdevice =>
    cases h
    exact .inr ⟨hdevice, rfl, rfl⟩

theorem words_condition {c : Comparison}
    (hname : IsName c.field) (h : c.condition = some (text, args)) :
    words text = c.sqlAtom.words := by
  cases c with
  | equalTo field value =>
    rcases equalToCondition_cases h with ⟨rfl, flag, hflag, hvalue, rfl, _⟩ | ⟨rfl, rfl, _⟩ |
      ⟨horigin, hdevice, rfl, _⟩
    · simp only [sqlAtom, if_true, hvalue, Option.getD_some]
      rcases hflag with rfl | rfl <;> rfl
    · cases hempty : value.isEmptyDevice <;> simp only [sqlAtom, hempty] <;> rfl
    · simp only [sqlAtom, if_neg horigin, if_neg hdevice]
      exact words_name_append hname.2.1 hname.1 (by decide)
  | notEqualTo field value =>
    rcases notEqualToCondition_cases h with ⟨rfl, rfl, _⟩ | ⟨hdevice, rfl, _⟩
    · cases hempty : value.isEmptyDevice <;> simp only [sqlAtom, hempty] <;> rfl
    · simp only [sqlAtom, if_neg hdevice]
      exact words_name_append hname.2.1 hname.1 (by decide)
  | contains | beginsWith | endsWith | like => exact words_simple .like hname h
  | notContains | notLike => exact words_simple .notLike hname h
  | isNull => exact words_simple .isNull hname h
  | isNotNull => exact words_simple .isNotNull hname h
  | glob => exact words_simple .glob hname h
  | notGlob => exact words_simple .notGlob hname h
  | between => exact words_simple .between hname h
  | notBetween => exact words_simple .notBetween hname h
  | greaterThan => exact words_simple .gt hname h
  | lessThan => exact words_simple .lt hname h
  | greaterThanOrEqualTo => exact words_simple .ge hname h
  | lessThanOrEqualTo => exact words_simple .le hname h
  | isIn field values =>
    have hwords := words_restrict hname (startsApart_inList values (by decide) (by decide)) h
    rw [hwords, words_inList _ _ (by decide)]
    rfl
  | notIn field values =>
    have hwords := words_restrict hname (startsApart_inList values (by decide) (by decide)) h
    rw [hwords, words_inList _ _ (by decide)]
    rfl

theorem sqlAtom_named (c : Comparison) (h : IsName c.field) : c.sqlAtom.Named := by
  cases c with
  | equalTo field value =>
    simp only [sqlAtom]
    split_ifs
    · trivial
    · trivial
    · exact h
  | notEqualTo field value =>
    simp only [sqlAtom]
    split_ifs
    · trivial
    · exact h
  | _ => exact h

theorem restrict_endsApart (hoperator : EndsApart operator) (hne : operator ≠ "")
    (h : restrict field operator checked args = some (text, args')) :
    EndsApart text ∧ text ≠ "" := by
  rw [(restrict_eq_some h).1]
  refine ⟨endsApart_append hoperator hne, fun hnil => hne ?_⟩
  exact (String.append_eq_empty_iff.mp hnil).2

theorem endsApart_inList (function : String) (values : List BindValue) :
    EndsApart (inList function values) ∧ inList function values ≠ "" := by
  unfold inList surroundWithFunction
  rw [← String.append_assoc]
  refine ⟨endsApart_append (by decide) (by decide), fun hnil => ?_⟩
  exact absurd (String.append_eq_empty_iff.mp hnil).2 (by decide)

theorem condition_endsApart {c : Comparison}
    (h : c.condition = some (text, args)) : EndsApart text ∧ text ≠ "" := by
  cases c with
  | equalTo field value =>
    rcases equalToCondition_cases h with ⟨_, flag, hflag, _, rfl, _⟩ | ⟨_, rfl, _⟩ |
      ⟨_, _, rfl, _⟩
    · rcases hflag with rfl | rfl <;> decide
    · split <;> decide
    · exact ⟨endsApart_append (by decide) (by decide), fun hnil =>
        absurd (String.append_eq_empty_iff.mp hnil).2 (by decide)⟩
  | notEqualTo field value =>
    rcases notEqualToCondition_cases h with ⟨_, rfl, _⟩ | ⟨_, rfl, _⟩
    · split <;> decide
    · exact ⟨endsApart_append (by decide) (by decide), fun hnil =>
        absurd (String.append_eq_empty_iff.mp hnil).2 (by decide)⟩
  | isIn field values =>
    exact restrict_endsApart (endsApart_inList _ _).1 (endsApart_inList _ _).2 h
  | notIn field values =>
    exact restrict_endsApart (endsApart_inList _ _).1 (endsApart_inList _ _).2 h
  | _ => exact restrict_endsApart (by decide) (by decide) h

end Comparison

/-! ## The words that a call adds -/

namespace AbsPredicates
variable {p : AbsPredicates}

def joint (p : AbsPredicates) : List String := if p.isNeedAnd then ["AND"] else []

theorem words_appendCondition (h : p.isNeedAnd = false → EndsApart p.whereClause) :
    words (p.appendCondition text args).whereClause =
      words p.whereClause ++ (p.joint ++ words text) := by
  unfold appendCondition checkIsNeedAnd joint
  cases hneed : p.isNeedAnd with
  | true =>
    simp only [if_true]
    rw [words_append_of_endsApart (endsApart_append (by decide) (by decide)),
      words_append_of_startsApart (by decide), append_assoc]
    rfl
  | false => exact words_append_of_endsApart (h hneed)

theorem appendCondition_isNeedAnd (text : String) (args : List BindValue) :
    (p.appendCondition text args).isNeedAnd := by
  unfold appendCondition checkIsNeedAnd
  dsimp only
  split
  · assumption
  · rfl

theorem endsApart_appendCondition (args : List BindValue) (h : EndsApart text) (hne : text ≠ "") :
    EndsApart (p.appendCondition text args).whereClause :=
  endsApart_append h hne

theorem words_beginWrap (h : p.isNeedAnd → EndsApart p.whereClause) :
    words p.beginWrap.whereClause = words p.whereClause ++ (p.joint ++ ["("]) := by
  unfold beginWrap joint
  cases hneed : p.isNeedAnd with
  | true =>
    simp only [if_true]
    rw [words_append_of_startsApart (by decide), words_append_of_endsApart (h hneed),
      append_assoc]
    rfl
  | false => exact words_append_of_startsApart (by decide)

theorem beginWrap_isNeedAnd : p.beginWrap.isNeedAnd = false := by
  unfold beginWrap
  cases hneed : p.isNeedAnd <;> simp [hneed]

theorem endsApart_beginWrap : EndsApart p.beginWrap.whereClause :=
  endsApart_append (by decide) (by decide)

theorem endWrap_of_isNeedAnd (h : p.isNeedAnd) :
    p.endWrap = { p with whereClause := p.whereClause ++ " ) " } := by
  simp [endWrap, h]

theorem or_of_isNeedAnd (h : p.isNeedAnd) :
    p.or = { p with whereClause := p.whereClause ++ " OR ", isNeedAnd := false } := by
  simp [AbsPredicates.or, h]

theorem words_rparen (clause : String) : words (clause ++ " ) ") = words clause ++ [")"] :=
  words_append_of_startsApart (by decide)

theorem words_or (clause : String) : words (clause ++ " OR ") = words clause ++ ["OR"] :=
  words_append_of_startsApart (by decide)

end AbsPredicates

end RelationalStore
