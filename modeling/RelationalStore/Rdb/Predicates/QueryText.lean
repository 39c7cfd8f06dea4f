import RelationalStore.Rdb.Predicates.SelectGrammar
import RelationalStore.Rdb.Predicates.Tree

/-! # The words of a query

The columns and the clauses that `BuildQueryString` puts together, as words. -/

namespace RelationalStore

open List
open Clauses (Free Begins clause)

namespace SqliteSqlBuilder

/-! ## The columns -/

def columnsText (previous : String) : List String → String
  | [] => " "
  | column :: columns =>
    if column = "" then columnsText column columns
    else (if previous = "" then "" else ", ") ++ (column ++ columnsText column columns)

theorem appendColumns_eq (builder previous : String) (columns : List String) :
    appendColumns builder previous columns = builder ++ columnsText previous columns := by
  induction columns generalizing builder previous with
  | nil => rfl
  | cons column columns ih =>
    rw [appendColumns, columnsText]
    split
    · exact ih builder column
    · rw [ih]
      split <;> simp [String.append_assoc]

def Adjacent (columns : List String) : Prop :=
  ∀ column ∈ (columns.dropWhile (· = "")).dropWhile (· ≠ ""), column = ""
  deriving Decidable

section
variable {w previous : String} {columns : List String}

theorem columnsText_of_empty (h : ∀ column ∈ columns, column = "") (previous : String) :
    columnsText previous columns = " " := by
  induction columns generalizing previous with
  | nil => rfl
  | cons column columns ih =>
    obtain ⟨hcolumn, hcolumns⟩ := forall_mem_cons.mp h
    rw [columnsText, if_pos hcolumn]
    exact ih hcolumns column

theorem words_append_columnsText (hname : ∀ c ∈ w.toList, isSeparator c = false) (hne : w ≠ "")
    (hcolumns : ∀ column ∈ columns, column = "" ∨ IsIdentifier column) (previous : String) :
    ∃ v ws, words (w ++ columnsText previous columns) = v :: ws ∧
      w.toList.length ≤ v.toList.length := by
  induction columns generalizing w previous with
  | nil =>
    exact ⟨w, [], words_name_append hname hne (by decide : StartsApart " "), Nat.le_refl _⟩
  | cons column columns ih =>
    obtain ⟨hcolumn, hcolumns⟩ := forall_mem_cons.mp hcolumns
    rw [columnsText]
    split
    · exact ih hname hne hcolumns column
    next hempty =>
      have hid := hcolumn.resolve_left hempty
      split
      · -- the name continues the word
        rw [String.empty_append, ← String.append_assoc]
        have hjoined : ∀ c ∈ (w ++ column).toList, isSeparator c = false := by
          rw [String.toList_append]
          exact forall_mem_append.mpr ⟨hname, hid.not_isSeparator⟩
        obtain ⟨v, ws, hwords, hle⟩ := ih hjoined
          (fun h => hne (String.append_eq_empty_iff.mp h).1) hcolumns column
        refine ⟨v, ws, hwords, Nat.le_trans ?_ hle⟩
        rw [String.toList_append, length_append]
        exact Nat.le_add_right _ _
      · exact ⟨w, _, words_name_append hname hne
          (startsApart_append (by decide) (by decide)), Nat.le_refl _⟩

theorem words_gap (hname : ∀ c ∈ w.toList, isSeparator c = false) (hne : w ≠ "")
    (hcolumns : ∀ column ∈ columns, column = "" ∨ IsIdentifier column)
    (hgap : ∃ column ∈ columns, column ≠ "") :
    ∃ v ws, words (w ++ columnsText "" columns) = v :: ws ∧ v ≠ w := by
  induction columns with
  | nil => exact (nomatch hgap)
  | cons column columns ih =>
    obtain ⟨hcolumn, hcolumns⟩ := forall_mem_cons.mp hcolumns
    rw [columnsText]
    by_cases hempty : column = ""
    · rw [if_pos hempty, hempty]
      refine ih hcolumns ?_
      obtain ⟨other, hmem, hother⟩ := hgap
      rcases mem_cons.mp hmem with rfl | hmem
      · exact absurd hempty hother
      · exact ⟨other, hmem, hother⟩
    · have hid := hcolumn.resolve_left hempty
      rw [if_neg hempty, if_pos rfl, String.empty_append, ← String.append_assoc]
      have hjoined : ∀ c ∈ (w ++ column).toList, isSeparator c = false := by
        rw [String.toList_append]
        exact forall_mem_append.mpr ⟨hname, hid.not_isSeparator⟩
      obtain ⟨v, ws, hwords, hle⟩ := words_append_columnsText hjoined
        (fun h => hne (String.append_eq_empty_iff.mp h).1) hcolumns column
      refine ⟨v, ws, hwords, ?_⟩
      rintro rfl
      have hpos : 0 < column.toList.length :=
        length_pos_iff.mpr fun h => hempty (String.toList_eq_nil_iff.mp h)
      rw [String.toList_append, length_append] at hle
      omega

theorem words_columns_cons (hw : IsIdentifier w) (hcolumn : column ≠ "") :
    words (w ++ columnsText w (column :: columns)) =
      w :: "," :: words (column ++ columnsText column columns) := by
  rw [columnsText, if_neg hcolumn, if_neg hw.ne_empty, words_name_append hw.not_isSeparator
    hw.ne_empty (startsApart_append (by decide) (by decide)), words_append_of_endsApart (by decide)]
  rfl

theorem words_columns (hw : IsIdentifier w)
    (hcolumns : ∀ column ∈ columns, column = "" ∨ IsIdentifier column)
    (h : ∀ column ∈ columns.dropWhile (· ≠ ""), column = "") :
    words (w ++ columnsText w columns) = (w :: columns.filter (· ≠ "")).intersperse "," := by
  induction columns generalizing w with
  | nil => exact words_name_append hw.not_isSeparator hw.ne_empty (by decide : StartsApart " ")
  | cons column columns ih =>
    by_cases hempty : column = ""
    · rw [dropWhile_cons_of_neg (by simpa using hempty)] at h
      rw [columnsText_of_empty h,
        words_name_append hw.not_isSeparator hw.ne_empty (by decide : StartsApart " "),
        filter_eq_nil_iff.mpr (by simpa using h)]
      rfl
    · obtain ⟨hcolumn, hcolumns⟩ := forall_mem_cons.mp hcolumns
      rw [dropWhile_cons_of_pos (by simpa using hempty)] at h
      rw [words_columns_cons hw hempty, ih (hcolumn.resolve_left hempty) hcolumns h,
        filter_cons_of_pos (by simpa using hempty), intersperse_cons_cons]

theorem not_gap_of_words (hw : IsIdentifier w)
    (hcolumns : ∀ column ∈ columns, column = "" ∨ IsIdentifier column) {rest rest' : List String}
    (h : words (w ++ columnsText w columns) ++ rest =
      (w :: columns.filter (· ≠ "")).intersperse "," ++ rest') :
    ∀ column ∈ columns.dropWhile (· ≠ ""), column = "" := by
  induction columns generalizing w with
  | nil => exact nofun
  | cons column columns ih =>
    obtain ⟨hcolumn, hothers⟩ := forall_mem_cons.mp hcolumns
    by_cases hempty : column = ""
    · subst hempty
      rw [dropWhile_cons_of_neg (by simp)]
      refine forall_mem_cons.mpr ⟨rfl, fun other hmem => ?_⟩
      by_contra hother
      obtain ⟨v, ws, hwords, hne⟩ :=
        words_gap hw.not_isSeparator hw.ne_empty hothers ⟨other, hmem, hother⟩
      have hhead := congrArg List.head? h
      rw [columnsText, if_pos rfl, hwords, head?_append, head?_append,
        Clauses.head?_intersperse, Option.some_or] at hhead
      exact hne (Option.some.inj hhead)
    · rw [words_columns_cons hw hempty, filter_cons_of_pos (by simpa using hempty),
        intersperse_cons_cons] at h
      rw [dropWhile_cons_of_pos (by simpa using hempty)]
      exact ih (hcolumn.resolve_left hempty) hothers (List.cons.inj (List.cons.inj h).2).2

theorem columnsText_eq_first (h : ∃ column ∈ columns, column ≠ "") :
    ∃ first others, first ≠ "" ∧ columns.dropWhile (· = "") = first :: others ∧
      columns.filter (· ≠ "") = first :: others.filter (· ≠ "") ∧
      columnsText "" columns = first ++ columnsText first others := by
  induction columns with
  | nil => exact (nomatch h)
  | cons column columns ih =>
    by_cases hempty : column = ""
    · subst hempty
      have hrest : ∃ other ∈ columns, other ≠ "" := by simpa using h
      obtain ⟨first, others, hne, hdrop, hfilter, htext⟩ := ih hrest
      refine ⟨first, others, hne, ?_, ?_, ?_⟩
      · rw [dropWhile_cons_of_pos (by simp), hdrop]
      · rw [filter_cons_of_neg (by simp), hfilter]
      · rw [columnsText, if_pos rfl, htext]
    · refine ⟨column, columns, hempty, ?_, ?_, ?_⟩
      · exact dropWhile_cons_of_neg (by simpa using hempty)
      · exact filter_cons_of_pos (by simpa using hempty)
      · rw [columnsText, if_neg hempty, if_pos rfl, String.empty_append]

theorem words_columnsText_iff (hcolumns : ∀ column ∈ columns, column = "" ∨ IsIdentifier column)
    (hne : ∃ column ∈ columns, column ≠ "") :
    words (columnsText "" columns) ++ rest =
        (columns.filter (· ≠ "")).intersperse "," ++ rest' ↔
      Adjacent columns ∧ rest = rest' := by
  obtain ⟨first, others, hfirst, hdrop, hfilter, htext⟩ := columnsText_eq_first hne
  have hmem : ∀ column ∈ first :: others, column = "" ∨ IsIdentifier column := by
    rw [← hdrop]
    exact fun column hcolumn => hcolumns column (dropWhile_sublist _ |>.subset hcolumn)
  obtain ⟨hid, hothers⟩ := forall_mem_cons.mp hmem
  have hid := hid.resolve_left hfirst
  have hadjacent : Adjacent columns ↔ ∀ column ∈ others.dropWhile (· ≠ ""), column = "" := by
    rw [Adjacent, hdrop, dropWhile_cons_of_pos (by simpa using hfirst)]
  rw [hadjacent, hfilter, htext]
  constructor
  · intro h
    have hgap := not_gap_of_words hid hothers h
    rw [words_columns hid hothers hgap] at h
    exact ⟨hgap, append_cancel_left h⟩
  · rintro ⟨hgap, rfl⟩
    rw [words_columns hid hothers hgap]

/-! ## The clauses -/

variable (k : String)

def textClause (lead : List String) (text : String) : List String :=
  clause k (if text = "" then none else some (lead ++ words text))

def numberClause (initial value : Int) : List String :=
  clause k (if value = initial then none else some [toString value])

theorem startsApart_appendClause (hbuilder : StartsApart builder) (hname : StartsApart name)
    (hne : name ≠ "") (text : String) : StartsApart (appendClause builder name text) := by
  unfold appendClause
  split
  · exact hbuilder
  · by_cases hempty : builder = ""
    · rw [hempty, String.empty_append]
      exact startsApart_append hname hne
    · rw [String.append_assoc]
      exact startsApart_append hbuilder hempty

theorem words_appendClause {k name : String} {lead : List String} (hwords : words name = k :: lead)
    (hstarts : StartsApart name) (hends : EndsApart name) (hne : name ≠ "")
    (builder text : String) :
    words (appendClause builder name text) = words builder ++ textClause k lead text := by
  unfold appendClause textClause
  split
  · rw [clause, append_nil]
  · rw [String.append_assoc, words_append_of_startsApart (startsApart_append hstarts hne),
      words_append_of_endsApart hends, hwords]
    rfl

theorem isDigit_not_isSeparator (h : c.isDigit) : isSeparator c = false :=
  not_isSeparator_of_isIdChar (by simp [isIdChar, Char.isAlphanum, h])

theorem words_toString (value : Int) : words (toString value) = [toString value] := by
  have hchars : ∀ c ∈ (toString value).toList, isSeparator c = false := by
    rw [Int.toString_eq_repr, Int.repr_eq_if]
    have hdigits (n : Nat) : ∀ c ∈ n.repr.toList, isSeparator c = false := by
      intro c hc
      rw [Nat.toList_repr] at hc
      exact isDigit_not_isSeparator (Nat.isDigit_of_mem_toDigits (by decide) (by decide) hc)
    split
    · exact hdigits _
    · rw [String.toList_append]
      exact forall_mem_append.mpr ⟨forall_mem_singleton.mpr rfl, hdigits _⟩
  have hne : toString value ≠ "" := by
    rw [Int.toString_eq_repr, Int.repr_eq_if]
    split
    · exact Nat.repr_ne_empty
    · exact fun h => absurd (String.append_eq_empty_iff.mp h).1 (by decide)
  have hwords : words (toString value ++ "") = toString value :: words "" :=
    words_name_append hchars hne (by decide)
  rwa [String.append_empty] at hwords

theorem toString_ne_empty (value : Int) : toString value ≠ "" := by
  intro h
  have hwords := words_toString value
  rw [h] at hwords
  cases hwords

theorem textClause_number (initial value : Int) :
    textClause k [] (if value = initial then "" else toString value) =
      numberClause k initial value := by
  unfold textClause numberClause
  split
  · rfl
  · rw [if_neg (toString_ne_empty value), words_toString]
    rfl

variable (p : AbsPredicates)

def predicateClauses : List String :=
  textClause "INDEXED" ["BY"] p.index ++
    (textClause "WHERE" [] p.whereClause ++
      (textClause "GROUP" ["BY"] p.group ++
        (textClause "HAVING" [] p.havingClause ++
          (textClause "ORDER" ["BY"] p.order ++
            (numberClause "LIMIT" INIT_LIMIT_VALUE p.limit ++
              numberClause "OFFSET" INIT_OFFSET_VALUE p.offset)))))

theorem words_buildClauseFromPredicates :
    words (buildClauseFromPredicates p) = predicateClauses p := by
  have hclause (k : String) (lead : List String) (name : String)
      (h : words name = k :: lead ∧ StartsApart name ∧ EndsApart name ∧ name ≠ "")
      (builder text : String) :
      words (appendClause builder name text) = words builder ++ textClause k lead text :=
    words_appendClause h.1 h.2.1 h.2.2.1 h.2.2.2 builder text
  unfold buildClauseFromPredicates appendLimitAndOffset predicateClauses
  dsimp only
  rw [hclause "OFFSET" [] " OFFSET " (by decide), hclause "LIMIT" [] " LIMIT " (by decide),
    hclause "ORDER" ["BY"] " ORDER BY " (by decide), hclause "HAVING" [] " HAVING " (by decide),
    hclause "GROUP" ["BY"] " GROUP BY " (by decide), hclause "WHERE" [] " WHERE " (by decide),
    hclause "INDEXED" ["BY"] " INDEXED BY " (by decide), textClause_number, textClause_number]
  simp only [append_assoc]
  rfl

theorem startsApart_buildClauseFromPredicates :
    StartsApart (buildClauseFromPredicates p) := by
  unfold buildClauseFromPredicates appendLimitAndOffset
  repeat refine startsApart_appendClause ?_ (by decide) (by decide) _
  decide

theorem words_buildQueryString (htable : IsIdentifier table) (hcolumns : columns ≠ [])
    (p : AbsPredicates) :
    words (buildQueryString table p columns) =
      "SELECT" :: ((if p.distinct then ["DISTINCT"] else []) ++
        (words (columnsText "" columns) ++ "FROM" :: table :: predicateClauses p)) := by
  have hselect : words (getSelectClause columns p.distinct) =
      "SELECT" ::
        ((if p.distinct then ["DISTINCT"] else []) ++ words (columnsText "" columns)) := by
    rw [getSelectClause, if_neg hcolumns, appendColumns_eq]
    cases p.distinct <;> rw [words_append_of_endsApart (by decide)] <;> rfl
  have htail : words (table ++ buildClauseFromPredicates p) = table :: predicateClauses p := by
    rw [words_name_append htable.not_isSeparator htable.ne_empty
      (startsApart_buildClauseFromPredicates p), words_buildClauseFromPredicates]
  rw [buildQueryString, if_neg htable.ne_empty, appendClause, if_neg htable.ne_empty,
    String.append_assoc, String.append_assoc,
    words_append_of_startsApart (startsApart_append (by decide) (by decide)),
    words_append_of_endsApart (by decide), htail, hselect]
  simp only [cons_append, append_assoc]
  rfl

end

end SqliteSqlBuilder

end RelationalStore
