import RelationalStore.Theory.Clauses
import RelationalStore.Theory.Nesting
import RelationalStore.Rdb.Predicates.Words

/-! # SELECT statements

The part of SQLite's grammar that a query of predicates belongs to, over the words of the text. -/

namespace RelationalStore

open List
open Clauses (Free Begins clause free_cons free_append begins_nil begins_cons)
open Condition (WellFormed Proper Balanced Ends)

def clauseWords : List String :=
  ["INDEXED", "WHERE", "GROUP", "HAVING", "ORDER", "LIMIT", "OFFSET"]

def IsClauseWord (w : String) : Prop := w ∈ clauseWords
  deriving Decidable

def sqliteKeywords : List String :=
  clauseWords ++ ["ASC", "BY", "DESC", "GLOB", "LIKE", "ADD", "ALL", "ALTER", "AND", "AS",
    "AUTOINCREMENT", "BETWEEN", "CASE", "CHECK", "COLLATE", "COMMIT", "CONSTRAINT", "CREATE",
    "DEFAULT", "DEFERRABLE", "DELETE", "DISTINCT", "DROP", "ELSE", "ESCAPE", "EXCEPT", "EXISTS",
    "FOREIGN", "FROM", "IN", "INDEX", "INSERT", "INTERSECT", "INTO", "IS", "ISNULL", "JOIN", "NOT",
    "NOTHING", "NOTNULL", "NULL", "ON", "OR", "PRIMARY", "REFERENCES", "RETURNING", "SELECT", "SET",
    "TABLE", "THEN", "TO", "TRANSACTION", "UNION", "UNIQUE", "UPDATE", "USING", "VALUES", "WHEN"]

def isIdChar (c : Char) : Bool := c.isAlphanum || c = '_' || 128 ≤ c.toNat

def upper (s : String) : String := String.ofList (s.toList.map Char.toUpper)

/-- A name that needs no quotes. -/
def IsIdentifier (name : String) : Prop :=
  (∀ c ∈ name.toList, isIdChar c) ∧ (∃ c ∈ name.toList.head?, c.isDigit = false) ∧
    upper name ∉ sqliteKeywords

instance (name : String) : Decidable (IsIdentifier name) :=
  letI : Decidable (∃ c ∈ name.toList.head?, c.isDigit = false) :=
    decidable_of_iff (name.toList.head?.any (!·.isDigit)) (by simp [Option.any_eq_true])
  letI : Decidable (∀ c ∈ name.toList, isIdChar c) := List.decidableBAll _ _
  inferInstanceAs (Decidable (_ ∧ _ ∧ _))

/-! ## Names -/

section
variable {name : String}

theorem not_isSeparator_of_isIdChar (h : isIdChar c) : isSeparator c = false := by
  by_contra hsep
  rw [Bool.not_eq_false] at hsep
  simp only [isSeparator, isMark, decide_eq_true_eq] at hsep
  rcases hsep with rfl | rfl | rfl | rfl <;> revert h <;> decide

section
variable (h : IsIdentifier name)
include h

theorem IsIdentifier.ne_empty : name ≠ "" := by
  rintro rfl
  obtain ⟨c, hc, _⟩ := h.2.1
  cases hc

theorem IsIdentifier.not_isSeparator :
    ∀ c ∈ name.toList, isSeparator c = false :=
  fun c hc => not_isSeparator_of_isIdChar (h.1 c hc)

theorem IsIdentifier.not_mem : name ∉ sqliteKeywords := by
  intro hmem
  have hupper : ∀ k ∈ sqliteKeywords, upper k = k := by decide +kernel
  exact h.2.2 (by rwa [hupper name hmem])

theorem IsIdentifier.not_isClauseWord : ¬ IsClauseWord name :=
  fun hmem => h.not_mem (mem_append_left _ hmem)

theorem IsIdentifier.isName : IsName name := by
  refine ⟨h.ne_empty, h.not_isSeparator, fun hmem => h.not_mem ?_⟩
  have hsub : ∀ k ∈ reservedWords, k ∈ sqliteKeywords := by decide +kernel
  exact hsub name hmem

theorem IsIdentifier.ne_comma : name ≠ "," := by
  rintro rfl
  exact absurd (h.1 ',' (by decide)) (by decide)

theorem IsIdentifier.words_eq : words name = [name] := by
  have hwords : words (name ++ "") = name :: words "" :=
    words_name_append h.not_isSeparator h.ne_empty (by decide)
  rwa [String.append_empty] at hwords

theorem IsIdentifier.ne_special :
    name ≠ ORIGIN_FIELD ∧ name ≠ ORIGIN_ORIDEVICE := by
  constructor <;> rintro rfl <;> exact absurd (h.1 '#' (by decide)) (by decide)

theorem removeQuotes_of_isIdentifier : removeQuotes name = name := by
  rw [removeQuotes, filter_eq_self.mpr, String.ofList_toList]
  intro c hc
  have hid := h.1 c hc
  refine decide_eq_true ⟨?_, ?_, ?_⟩ <;> rintro rfl <;> revert hid <;> decide

end

end

/-! ## Expressions -/

/-- The comparison of a name. -/
def SqlAtom.Plain : SqlAtom → Prop
  | .simple field _ | .isIn field _ _ => IsIdentifier field
  | .flag _ | .length _ _ => False

structure Expressions where
  Atom : List String → Prop
  comparison : ∀ a : SqlAtom, a.Plain → Atom a.words
  proper : Proper sqlSigns Atom
  free : ∀ ws, Atom ws → Free IsClauseWord ws

def Expressions.Expr (E : Expressions) (ws : List String) : Prop := WellFormed sqlSigns E.Atom ws

theorem Expressions.Expr.free {E : Expressions} (h : E.Expr ws) : Free IsClauseWord ws := by
  induction h with
  | atom h => exact E.free _ h
  | group _ ih =>
    exact free_cons.mpr ⟨by decide, free_append.mpr ⟨ih, free_cons.mpr ⟨by decide, nofun⟩⟩⟩
  | and _ _ ih ih' => exact free_append.mpr ⟨ih, free_cons.mpr ⟨by decide, ih'⟩⟩
  | or _ _ ih ih' => exact free_append.mpr ⟨ih, free_cons.mpr ⟨by decide, ih'⟩⟩

/-! ## Statements -/

structure SelectStmt where
  distinct : Bool
  columns : List String
  table : String
  index : Option String
  whereExpr : Option (List String)
  group : List String
  having : Option (List String)
  order : List (String × Bool)
  limit : Option (Int × Option Int)

namespace SelectStmt

def listClause (k : String) (ws : List String) : List String :=
  clause k (if ws = [] then none else some ("BY" :: ws))

def orderTerm (term : String × Bool) : List String :=
  [term.1, if term.2 then "DESC" else "ASC"]

def limitWords : Option (Int × Option Int) → List String
  | none => []
  | some (limit, none) => ["LIMIT", toString limit]
  | some (limit, some offset) => ["LIMIT", toString limit, "OFFSET", toString offset]

variable (s : SelectStmt)

def clauses : List String :=
  clause "INDEXED" (s.index.map fun name => ["BY", name]) ++
    (clause "WHERE" s.whereExpr ++
      (listClause "GROUP" (s.group.intersperse ",") ++
        (clause "HAVING" s.having ++
          (listClause "ORDER" ([","].intercalate (s.order.map orderTerm)) ++
            limitWords s.limit))))

def words : List String :=
  "SELECT" :: ((if s.distinct then ["DISTINCT"] else []) ++
    (s.columns.intersperse "," ++ "FROM" :: s.table :: s.clauses))

structure Grammatical (E : Expressions) (s : SelectStmt) : Prop where
  columns_ne : s.columns ≠ []
  columns : ∀ name ∈ s.columns, IsIdentifier name
  table : IsIdentifier s.table
  index : ∀ name ∈ s.index, IsIdentifier name
  whereExpr : ∀ ws ∈ s.whereExpr, E.Expr ws
  group : ∀ name ∈ s.group, IsIdentifier name
  having : ∀ ws ∈ s.having, E.Expr ws
  order : ∀ term ∈ s.order, IsIdentifier term.1

def rowLimit : Option Nat :=
  match s.limit with
  | some (limit, _) => if limit < 0 then none else some limit.toNat
  | none => none

def skipped : Nat :=
  match s.limit with
  | some (_, some offset) => offset.toNat
  | _ => 0

end SelectStmt

/-! The comparisons alone are such atoms. -/

theorem CondKind.words_ne (kind : CondKind) : ∀ w ∈ words kind.text,
    (sqlSigns.lparen ≠ w ∧ sqlSigns.rparen ≠ w) ∧ ¬ IsClauseWord w := by
  cases kind <;> decide

theorem CondKind.ends (kind : CondKind) : Ends sqlSigns (words kind.text) := by
  cases kind <;> exact ⟨_, rfl, by decide, by decide, by decide⟩

theorem placeholders_eq (count : Nat) : ∃ ws, placeholders count = ws ++ [")"] ∧
    ∀ w ∈ ws, w = "?" ∨ w = "," := by
  have hmore (n : Nat) : ∃ ws, morePlaceholders n = ws ++ [")"] ∧ ∀ w ∈ ws, w = "?" ∨ w = "," := by
    induction n with
    | zero => exact ⟨[], rfl, nofun⟩
    | succ n ih =>
      obtain ⟨ws, heq, hws⟩ := ih
      exact ⟨"," :: "?" :: ws, by rw [morePlaceholders, heq]; rfl,
        forall_mem_cons.mpr ⟨.inr rfl, forall_mem_cons.mpr ⟨.inl rfl, hws⟩⟩⟩
  cases count with
  | zero => exact ⟨[], rfl, nofun⟩
  | succ n =>
    obtain ⟨ws, heq, hws⟩ := hmore n
    exact ⟨"?" :: ws, by rw [placeholders, heq]; rfl, forall_mem_cons.mpr ⟨.inl rfl, hws⟩⟩

theorem IsIdentifier.ne_paren (h : IsIdentifier name) :
    sqlSigns.lparen ≠ name ∧ sqlSigns.rparen ≠ name := by
  constructor <;> rintro rfl
  · exact absurd (h.1 '(' (by decide)) (by decide)
  · exact absurd (h.1 ')' (by decide)) (by decide)

theorem balanced_placeholders (lead : List String) (count : Nat)
    (h : ∀ w ∈ lead, sqlSigns.lparen ≠ w ∧ sqlSigns.rparen ≠ w) :
    Balanced sqlSigns (lead ++ "(" :: placeholders count) ∧
      Ends sqlSigns (lead ++ "(" :: placeholders count) := by
  obtain ⟨ws, heq, hws⟩ := placeholders_eq count
  have hinner : Balanced sqlSigns ws := by
    refine Condition.balanced_of_ne fun w hw => ?_
    rcases hws w hw with rfl | rfl <;> decide
  rw [heq]
  refine ⟨(Condition.balanced_of_ne h).append (hinner.group (by decide)), ?_⟩
  have hlast : Ends sqlSigns [")"] := ⟨")", rfl, by decide, by decide, by decide⟩
  have happend := hlast.append (lead ++ "(" :: ws)
  rwa [append_assoc, cons_append] at happend

theorem free_placeholders (count : Nat) : Free IsClauseWord (placeholders count) := by
  obtain ⟨ws, heq, hws⟩ := placeholders_eq count
  rw [heq, free_append]
  refine ⟨fun w hw => ?_, by decide⟩
  rcases hws w hw with rfl | rfl <;> decide

def comparisons : Expressions where
  Atom ws := ∃ a : SqlAtom, a.Plain ∧ ws = a.words
  comparison a ha := ⟨a, ha, rfl⟩
  proper :=
    { lparen_ne_rparen := by decide
      lparen_ne_and := by decide
      lparen_ne_or := by decide
      balanced := by
        rintro _ ⟨a, ha, rfl⟩
        cases a with
        | simple field kind =>
          refine Condition.balanced_of_ne (forall_mem_cons.mpr ⟨ha.ne_paren, fun w hw => ?_⟩)
          exact (kind.words_ne w hw).1
        | isIn field negated count =>
          cases negated with
          | false =>
            exact (balanced_placeholders [field, "IN"] count
              (forall_mem_cons.mpr ⟨ha.ne_paren, by decide⟩)).1
          | true =>
            exact (balanced_placeholders [field, "NOT", "IN"] count
              (forall_mem_cons.mpr ⟨ha.ne_paren, by decide⟩)).1
        | flag | length => exact ha.elim
      ends := by
        rintro _ ⟨a, ha, rfl⟩
        cases a with
        | simple field kind => exact kind.ends.append [field]
        | isIn field negated count =>
          cases negated with
          | false =>
            exact (balanced_placeholders [field, "IN"] count
              (forall_mem_cons.mpr ⟨ha.ne_paren, by decide⟩)).2
          | true =>
            exact (balanced_placeholders [field, "NOT", "IN"] count
              (forall_mem_cons.mpr ⟨ha.ne_paren, by decide⟩)).2
        | flag | length => exact ha.elim }
  free := by
    rintro _ ⟨a, ha, rfl⟩
    cases a with
    | simple field kind =>
      exact free_cons.mpr ⟨ha.not_isClauseWord, fun w hw => (kind.words_ne w hw).2⟩
    | isIn field negated count =>
      cases negated with
      | false =>
        have hlead : Free IsClauseWord [field, "IN", "("] :=
          free_cons.mpr ⟨ha.not_isClauseWord, by decide⟩
        exact free_append.mpr ⟨hlead, free_placeholders count⟩
      | true =>
        have hlead : Free IsClauseWord [field, "NOT", "IN", "("] :=
          free_cons.mpr ⟨ha.not_isClauseWord, by decide⟩
        exact free_append.mpr ⟨hlead, free_placeholders count⟩
    | flag | length => exact ha.elim

end RelationalStore
