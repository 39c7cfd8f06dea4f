import Mathlib
import RelationalStore.Rdb.Predicates.QueryParts

/-! # Queries of predicates

The text is a SELECT of the requested columns and rows only when its parts agree. -/

namespace RelationalStore

open List AbsPredicates SelectStmt
open Clauses (Free Begins clause free_cons free_append begins_nil begins_cons)
open SqliteSqlBuilder

def atMost (limit : Int) : Option Nat := if limit < 0 then none else some limit.toNat

def QueryAsRequested (E : Expressions) (table : String) (columns : List String)
    (calls : List BuilderCall) : Prop :=
  let p := empty.buildAll calls
  ∃ s : SelectStmt, s.Grammatical E ∧ words (buildQueryString table p columns) = s.words ∧
    s.distinct = p.distinct ∧ s.table = table ∧ s.columns = columns.filter (· ≠ "") ∧
    s.rowLimit = (requestedLimit calls).bind atMost ∧
    s.skipped = ((requestedOffset calls).getD 0).toNat

/-- The clauses go together. -/
structure Compatible (columns : List String) (calls : List BuilderCall) : Prop where
  columns : Adjacent columns
  groups : (empty.buildAll calls).whereClause = "" ∨ wraps calls = some ⟨0, true⟩
  group : ∃ names, (∀ name ∈ names, IsIdentifier name) ∧
    (empty.buildAll calls).group = ",".intercalate names
  limit : requestedLimit calls ≠ some 0
  offset : (requestedOffset calls).isSome → (requestedLimit calls).isSome

/-! ## The clauses of the text and of a statement -/

section
variable {E : Expressions} {p : AbsPredicates} {s : SelectStmt}

variable {text : String}

theorem not_blank_of_idChar (h : ∀ c ∈ text.toList, isIdChar c ∨ c = ',') :
    ' ' ∉ text.toList := by
  intro hmem
  exact absurd (h ' ' hmem) (by decide)

theorem Parts.group_eq (h : Parts E p) (hnames : ∀ name ∈ names, IsIdentifier name)
    (hwords : words p.group = names.intersperse ",") : p.group = ",".intercalate names := by
  have hempty : "" ∉ names := fun hmem => (hnames "" hmem).ne_empty rfl
  have hchars := mem_groupText fun name hname => .inr (hnames name hname)
  rw [ListCall.groupText, if_neg hempty] at hchars
  refine eq_of_words_eq (not_blank_of_idChar h.group) (not_blank_of_idChar hchars) ?_
  rw [hwords, words_intercalate_names hnames]

theorem Parts.isChain_group (h : Parts E p) :
    (words p.group).IsChain fun a b => a = "," ∨ b = "," := by
  refine isChain_wordsFrom fun c hc hsep => ?_
  rcases h.group c hc with hid | hcomma
  · rw [not_isSeparator_of_isIdChar hid] at hsep
    cases hsep
  · exact hcomma

theorem free_terms {terms : List (String × Bool)} (h : ∀ term ∈ terms, IsIdentifier term.1) :
    Free IsClauseWord ([","].intercalate (terms.map orderTerm)) := by
  intro w hw
  rw [List.intercalate, mem_flatten] at hw
  obtain ⟨ws, hws, hw⟩ := hw
  rcases Clauses.mem_intersperse hws with rfl | hws
  · rw [mem_singleton.mp hw]
    decide
  · obtain ⟨term, hterm, rfl⟩ := mem_map.mp hws
    rcases mem_cons.mp hw with rfl | hw
    · exact (h term hterm).not_isClauseWord
    · rw [mem_singleton.mp hw]
      cases term.2 <;> decide

theorem Parts.words_order (h : Parts E p) : ∃ terms : List (String × Bool),
    (∀ term ∈ terms, IsIdentifier term.1) ∧ (p.order = "" ↔ terms = []) ∧
      words p.order = [","].intercalate (terms.map orderTerm) := by
  obtain ⟨terms, hterms, hsorted⟩ := h.order
  have hwords := words_intercalate_terms hterms
  rw [← hsorted.order] at hwords
  refine ⟨terms, hterms, ⟨fun hempty => ?_, fun hnil => ?_⟩, hwords⟩
  · rw [hempty] at hwords
    cases terms with
    | nil => rfl
    | cons term terms => cases terms <;> cases hwords
  · rw [hsorted.order, hnil]
    rfl

theorem begins_clauses (p : AbsPredicates) (s : SelectStmt) :
    Begins (· ∈ ["LIMIT", "OFFSET"]) (numberClause "LIMIT" INIT_LIMIT_VALUE p.limit ++
      numberClause "OFFSET" INIT_OFFSET_VALUE p.offset) ∧
    Begins (· ∈ ["LIMIT", "OFFSET"]) (limitWords s.limit) := by
  constructor
  · refine Begins.clause_append ?_ _
    have hoffset : Begins (· ∈ ["OFFSET"])
        (numberClause "OFFSET" INIT_OFFSET_VALUE p.offset ++ []) := begins_nil.clause_append _
    rwa [append_nil] at hoffset
  · unfold limitWords
    split
    · exact begins_nil
    · exact begins_cons (by decide)
    · exact begins_cons (by decide)

theorem Parts.group_cancel (h : Parts E p) (hs : s.Grammatical E) {rest rest' : List String}
    (hrest : Begins (· ∈ ["HAVING", "ORDER", "LIMIT", "OFFSET"]) rest)
    (hrest' : Begins (· ∈ ["HAVING", "ORDER", "LIMIT", "OFFSET"]) rest')
    (heq : textClause "GROUP" ["BY"] p.group ++ rest =
      listClause "GROUP" (s.group.intersperse ",") ++ rest') :
    p.group = ",".intercalate s.group ∧ rest = rest' := by
  have hgroup : ¬ "GROUP" ∈ ["HAVING", "ORDER", "LIMIT", "OFFSET"] := by decide
  have hkeys : ∀ w ∈ ["HAVING", "ORDER", "LIMIT", "OFFSET"], IsClauseWord w := by decide
  have hnil : s.group.intersperse "," = [] ↔ s.group = [] := by
    cases hlist : s.group with
    | nil => simp
    | cons name names => cases names <;> simp
  unfold textClause listClause at heq
  by_cases hempty : p.group = ""
  · rw [if_pos hempty] at heq
    by_cases hnames : s.group = []
    · rw [if_pos (hnil.mpr hnames)] at heq
      exact ⟨by rw [hempty, hnames]; rfl, heq⟩
    · rw [if_neg (mt hnil.mp hnames)] at heq
      exact absurd (hrest "GROUP" (congrArg List.head? heq)) hgroup
  · rw [if_neg hempty] at heq
    by_cases hnames : s.group = []
    · rw [if_pos (hnil.mpr hnames)] at heq
      exact absurd ( hrest' "GROUP" (congrArg List.head? heq).symm) hgroup
    · rw [if_neg (mt hnil.mp hnames)] at heq
      obtain ⟨hwords, hrests⟩ := Clauses.intersperse_cancel (K := IsClauseWord) (by decide)
        (fun w hw => (hs.group w hw).not_isClauseWord) hnames
        (fun hmem => (hs.group "," hmem).ne_comma rfl) h.isChain_group
        (fun w hw => hkeys w (hrest w hw)) (fun w hw => hkeys w (hrest' w hw))
        (List.cons.inj (List.cons.inj heq).2).2
      exact ⟨h.group_eq hs.group hwords, hrests⟩

theorem free_textClause (lead : List String) (hlead : Free IsClauseWord lead)
    (htext : text = "" ∨ Free IsClauseWord (words text)) :
    ∀ ws ∈ (if text = "" then none else some (lead ++ words text)), Free IsClauseWord ws := by
  intro ws hws
  split at hws
  · cases hws
  · cases hws
    exact free_append.mpr ⟨hlead, htext.resolve_left ‹_›⟩

theorem Parts.clauses_cancel (h : Parts E p) (hfree : Free IsClauseWord (words p.whereClause))
    (hs : s.Grammatical E) (heq : predicateClauses p = s.clauses) :
    (p.whereClause = "" ∨ E.Expr (words p.whereClause)) ∧ p.group = ",".intercalate s.group ∧
      numberClause "LIMIT" INIT_LIMIT_VALUE p.limit ++
        numberClause "OFFSET" INIT_OFFSET_VALUE p.offset = limitWords s.limit := by
  obtain ⟨hlimit, hlimit'⟩ := begins_clauses p s
  have hclauses (ks : List String) (hks : ks ⊆ clauseWords) : ∀ w ∈ ks, IsClauseWord w :=
    fun w hw => hks hw
  -- the index
  have hindex : p.index = "" ∨ Free IsClauseWord (words p.index) := h.index.imp id fun hid => by
    rw [hid.words_eq]
    exact free_cons.mpr ⟨hid.not_isClauseWord, nofun⟩
  have hindex' : ∀ ws ∈ s.index.map fun name => ["BY", name], Free IsClauseWord ws := by
    intro ws hws
    obtain ⟨name, hname, rfl⟩ := Option.map_eq_some_iff.mp hws
    exact free_cons.mpr ⟨by decide, free_cons.mpr ⟨(hs.index name hname).not_isClauseWord, nofun⟩⟩
  obtain ⟨-, heq⟩ := Clauses.clause_cancel
    (hclauses ["WHERE", "GROUP", "HAVING", "ORDER", "LIMIT", "OFFSET"] (by decide)) (by decide)
    (free_textClause ["BY"] (by decide) hindex) hindex'
    ((((hlimit.clause_append _).clause_append _).clause_append _).clause_append _)
    ((((hlimit'.clause_append _).clause_append _).clause_append _).clause_append _) heq
  -- the condition
  obtain ⟨hwhere, heq⟩ := Clauses.clause_cancel
    (hclauses ["GROUP", "HAVING", "ORDER", "LIMIT", "OFFSET"] (by decide)) (by decide)
    (free_textClause [] nofun (.inr hfree)) (fun ws hws => (hs.whereExpr ws hws).free)
    (((hlimit.clause_append _).clause_append _).clause_append _)
    (((hlimit'.clause_append _).clause_append _).clause_append _) heq
  -- the group list
  obtain ⟨hgroup, heq⟩ := h.group_cancel hs ((hlimit.clause_append _).clause_append _)
    ((hlimit'.clause_append _).clause_append _) heq
  -- the restriction of groups
  obtain ⟨-, heq⟩ := Clauses.clause_cancel
    (hclauses ["ORDER", "LIMIT", "OFFSET"] (by decide)) (by decide)
    (free_textClause [] nofun (h.having.imp id fun hexpr => hexpr.free))
    (fun ws hws => (hs.having ws hws).free) (hlimit.clause_append _) (hlimit'.clause_append _) heq
  -- the order
  have horder : p.order = "" ∨ Free IsClauseWord (words p.order) := by
    obtain ⟨terms, hterms, -, hwords⟩ := h.words_order
    rw [hwords]
    exact .inr (free_terms hterms)
  have horder' : ∀ ws ∈ (if [","].intercalate (s.order.map orderTerm) = [] then none
      else some ("BY" :: [","].intercalate (s.order.map orderTerm))),
      Free IsClauseWord ws := by
    intro ws hws
    split at hws
    · cases hws
    · cases hws
      exact free_cons.mpr ⟨by decide, free_terms hs.order⟩
  obtain ⟨-, heq⟩ := Clauses.clause_cancel (hclauses ["LIMIT", "OFFSET"] (by decide)) (by decide)
    (free_textClause ["BY"] (by decide) horder) horder' hlimit hlimit' heq
  refine ⟨?_, hgroup, heq⟩
  by_cases hempty : p.whereClause = ""
  · exact .inl hempty
  · rw [if_neg hempty] at hwhere
    exact .inr (hs.whereExpr _ hwhere.symm)

/-! ## The limits -/

def keptLimit (limit : Int) : Int := if limit ≤ 0 then -1 else limit

def keptOffset (offset : Int) : Int := if offset < 0 then -1 else offset

theorem numberClause_requested {kept : Int → Int} {initial : Int} (hkept : ∀ n, kept n ≠ initial)
    (k : String) (requested : Option Int) :
    numberClause k initial ((requested.map kept).getD initial) =
      clause k (requested.map fun n => [toString (kept n)]) := by
  cases requested with
  | none => exact congrArg (clause k) (if_pos rfl)
  | some n => exact congrArg (clause k) (if_neg (hkept n))

theorem limits_words (calls : List BuilderCall) :
    numberClause "LIMIT" INIT_LIMIT_VALUE (empty.buildAll calls).limit ++
      numberClause "OFFSET" INIT_OFFSET_VALUE (empty.buildAll calls).offset =
    clause "LIMIT" ((requestedLimit calls).map fun n => [toString (keptLimit n)]) ++
      clause "OFFSET" ((requestedOffset calls).map fun n => [toString (keptOffset n)]) := by
  have hlimit (n : Int) : keptLimit n ≠ INIT_LIMIT_VALUE := by
    unfold keptLimit INIT_LIMIT_VALUE
    split <;> omega
  have hoffset (n : Int) : keptOffset n ≠ INIT_OFFSET_VALUE := by
    unfold keptOffset INIT_OFFSET_VALUE
    split <;> omega
  obtain ⟨hl, ho⟩ := limits_buildAll .empty calls
  rw [hl, ho]
  exact congrArg₂ (· ++ ·) (numberClause_requested hlimit "LIMIT" _)
    (numberClause_requested hoffset "OFFSET" _)

theorem atMost_keptLimit {limit : Int} (h : limit ≠ 0) :
    atMost (keptLimit limit) = atMost limit := by
  unfold atMost keptLimit
  split
  · rw [if_pos (by decide), if_pos (by omega)]
  · rfl

theorem toNat_keptOffset (offset : Int) : (keptOffset offset).toNat = offset.toNat := by
  unfold keptOffset
  split
  · rw [Int.toNat_of_nonpos (by decide), Int.toNat_of_nonpos (by omega)]
  · rfl

variable {limit offset : Option Int}

theorem of_limitWords (heq : clause "LIMIT" (limit.map fun n => [toString (keptLimit n)]) ++
      clause "OFFSET" (offset.map fun n => [toString (keptOffset n)]) =
        limitWords s.limit) (hrows : s.rowLimit = limit.bind atMost) :
    limit ≠ some 0 ∧ (offset.isSome → limit.isSome) := by
  cases limit with
  | none =>
    refine ⟨nofun, fun hoffset => ?_⟩
    obtain ⟨n, rfl⟩ := Option.isSome_iff_exists.mp hoffset
    have hhead := congrArg List.head? heq
    obtain hlimit | ⟨l, o, hlimit⟩ : s.limit = none ∨ ∃ l o, s.limit = some (l, o) := by
      cases s.limit with
      | none => exact .inl rfl
      | some limit => exact .inr ⟨limit.1, limit.2, rfl⟩
    · rw [hlimit] at hhead
      cases hhead
    · rw [hlimit] at hhead
      cases o <;> exact absurd (Option.some.inj hhead) (by decide)
  | some n =>
    refine ⟨?_, fun _ => rfl⟩
    rintro ⟨⟩
    have hlimit : ∃ o, s.limit = some (-1, o) := by
      have hsecond := congrArg (fun ws => ws[1]?) heq
      cases hlimit : s.limit with
      | none => rw [hlimit] at heq; cases heq
      | some limit =>
        obtain ⟨l, o⟩ := limit
        refine ⟨o, ?_⟩
        rw [hlimit] at hsecond
        have hl : toString l = toString (-1 : Int) := by
          cases o <;> exact (Option.some.inj hsecond).symm
        rw [Int.toString_eq_repr, Int.toString_eq_repr, Int.repr_inj] at hl
        rw [hl]
    obtain ⟨o, hlimit⟩ := hlimit
    rw [rowLimit, hlimit] at hrows
    cases hrows

/-! ## The query -/

variable {table : String} {columns : List String}

theorem compatible_of_query (htable : IsIdentifier table)
    (hcolumns : ∀ column ∈ columns, column = "" ∨ IsIdentifier column)
    (hne : ∃ column ∈ columns, column ≠ "") (hcalls : ∀ c ∈ calls, c.Names E)
    (h : QueryAsRequested E table columns calls) : Compatible columns calls := by
  have hnil : columns ≠ [] := by
    rintro rfl
    obtain ⟨_, hmem, _⟩ := hne
    cases hmem
  have hparts := (parts_empty E).buildAll hcalls
  have hwhere := (whereStands_empty E).buildAll hcalls
  obtain ⟨s, hs, hwords, hdistinct, htable', hcolumns', hrows, -⟩ := h
  rw [words_buildQueryString htable hnil, SelectStmt.words, hdistinct, htable', hcolumns'] at hwords
  have hrest := append_cancel_left (List.cons.inj hwords).2
  obtain ⟨hadjacent, hrest⟩ := (words_columnsText_iff hcolumns hne).mp hrest
  obtain ⟨hexpr, hgroup, hlimits⟩ :=
    hparts.clauses_cancel hwhere.free hs (List.cons.inj (List.cons.inj hrest).2).2
  rw [limits_words] at hlimits
  obtain ⟨hlimit, hoffset⟩ := of_limitWords hlimits hrows
  exact ⟨hadjacent, hexpr.imp id hwhere.expr_iff.mp, ⟨s.group, hs.group, hgroup⟩, hlimit, hoffset⟩

def spelled (table : String) (columns : List String) (p : AbsPredicates) (group : List String)
    (order : List (String × Bool)) (limit : Option (Int × Option Int)) : SelectStmt where
  distinct := p.distinct
  columns := columns.filter (· ≠ "")
  table := table
  index := if p.index = "" then none else some p.index
  whereExpr := if p.whereClause = "" then none else some (words p.whereClause)
  group := group
  having := if p.havingClause = "" then none else some (words p.havingClause)
  order := order
  limit := limit

theorem mem_optional [DecidableEq α] {f : α → β} (h : x ∈ if a = b then none else some (f a)) :
    a ≠ b ∧ x = f a := by
  split at h
  · cases h
  · cases h
    exact ⟨‹_›, rfl⟩

theorem grammatical_spelled {group : List String}
    {order : List (String × Bool)} (htable : IsIdentifier table)
    (hcolumns : ∀ column ∈ columns, column = "" ∨ IsIdentifier column)
    (hne : ∃ column ∈ columns, column ≠ "") (hparts : Parts E p)
    (hexpr : p.whereClause = "" ∨ E.Expr (words p.whereClause))
    (hgroup : ∀ name ∈ group, IsIdentifier name) (horder : ∀ term ∈ order, IsIdentifier term.1)
    (limit : Option (Int × Option Int)) :
    (spelled table columns p group order limit).Grammatical E where
  columns_ne := by
    obtain ⟨column, hmem, hcolumn⟩ := hne
    exact ne_nil_of_mem (mem_filter.mpr ⟨hmem, by simpa using hcolumn⟩)
  columns := by
    intro name hname
    obtain ⟨hmem, hname⟩ := mem_filter.mp hname
    exact (hcolumns name hmem).resolve_left (by simpa using hname)
  table := htable
  index := by
    intro name hname
    obtain ⟨hindex, rfl⟩ := mem_optional (f := id) hname
    exact hparts.index.resolve_left hindex
  whereExpr := by
    intro ws hws
    obtain ⟨hwhere, rfl⟩ := mem_optional hws
    exact hexpr.resolve_left hwhere
  group := hgroup
  having := by
    intro ws hws
    obtain ⟨hhaving, rfl⟩ := mem_optional hws
    exact hparts.having.resolve_left hhaving
  order := horder

theorem listClause_text (hwords : words text = ws) (hempty : text = "" ↔ ws = []) :
    textClause k ["BY"] text = listClause k ws := by
  unfold textClause listClause
  by_cases h : text = ""
  · rw [if_pos h, if_pos (hempty.mp h)]
  · rw [if_neg h, if_neg (mt hempty.mpr h), hwords]
    rfl

theorem words_eq_nil_iff (h : ∀ name ∈ names, IsIdentifier name) :
    ",".intercalate names = "" ↔ names.intersperse "," = [] := by
  cases names with
  | nil => simp
  | cons name names =>
    have hne := (h name mem_cons_self).ne_empty
    refine iff_of_false ?_ (by cases names <;> simp)
    cases names with
    | nil => simpa using hne
    | cons name' names =>
      rw [String.intercalate_cons_cons]
      exact fun hnil => hne (String.append_eq_empty_iff.mp (String.append_eq_empty_iff.mp hnil).1).1

theorem limitWords_requested (h : offset.isSome → limit.isSome) :
    clause "LIMIT" (limit.map fun n => [toString (keptLimit n)]) ++
      clause "OFFSET" (offset.map fun n => [toString (keptOffset n)]) =
    limitWords (limit.map fun n => (keptLimit n, offset.map keptOffset)) := by
  cases limit with
  | none =>
    cases offset with
    | none => rfl
    | some n => exact absurd (h rfl) (by simp)
  | some n => cases offset <;> rfl

theorem rows_requested (hs : s.limit = limit.map fun n => (keptLimit n, offset.map keptOffset))
    (hlimit : limit ≠ some 0) (hoffset : offset.isSome → limit.isSome) :
    s.rowLimit = limit.bind atMost ∧ s.skipped = (offset.getD 0).toNat := by
  rw [rowLimit, skipped, hs]
  cases limit with
  | none =>
    cases offset with
    | none => exact ⟨rfl, rfl⟩
    | some n => exact absurd (hoffset rfl) (by simp)
  | some n =>
    refine ⟨atMost_keptLimit fun hzero => hlimit (congrArg some hzero), ?_⟩
    cases offset with
    | none => rfl
    | some m => exact toNat_keptOffset m

theorem clauses_spelled {group : List String}
    {order : List (String × Bool)} {limit : Option (Int × Option Int)} (hparts : Parts E p)
    (hnames : ∀ name ∈ group, IsIdentifier name) (hgroup : p.group = ",".intercalate group)
    (hordered : p.order = "" ↔ order = [])
    (horder : words p.order = [","].intercalate (order.map orderTerm))
    (hlimit : numberClause "LIMIT" INIT_LIMIT_VALUE p.limit ++
      numberClause "OFFSET" INIT_OFFSET_VALUE p.offset = limitWords limit) :
    predicateClauses p = (spelled table columns p group order limit).clauses := by
  have hindex : textClause "INDEXED" ["BY"] p.index =
      clause "INDEXED" ((if p.index = "" then none else some p.index).map fun n => ["BY", n]) := by
    unfold textClause
    split
    · rfl
    · rw [(hparts.index.resolve_left ‹_›).words_eq]
      rfl
  have hlist : textClause "GROUP" ["BY"] p.group =
      listClause "GROUP" (group.intersperse ",") := by
    rw [hgroup]
    exact listClause_text (words_intercalate_names hnames) (words_eq_nil_iff hnames)
  have hterms : textClause "ORDER" ["BY"] p.order =
      listClause "ORDER" ([","].intercalate (order.map orderTerm)) := by
    refine listClause_text horder (hordered.trans ?_)
    cases order with
    | nil => simp
    | cons term terms => cases terms <;> simp [orderTerm]
  unfold predicateClauses clauses
  rw [hindex, hlist, hterms, hlimit]
  rfl

theorem query_of_compatible {calls : List BuilderCall} (htable : IsIdentifier table)
    (hcolumns : ∀ column ∈ columns, column = "" ∨ IsIdentifier column)
    (hne : ∃ column ∈ columns, column ≠ "") (hcalls : ∀ c ∈ calls, c.Names E)
    (h : Compatible columns calls) : QueryAsRequested E table columns calls := by
  have hnil : columns ≠ [] := by
    rintro rfl
    obtain ⟨_, hmem, _⟩ := hne
    cases hmem
  have hparts := (parts_empty E).buildAll hcalls
  have hwhere := (whereStands_empty E).buildAll hcalls
  obtain ⟨group, hnames, hgroup⟩ := h.group
  obtain ⟨order, hterms, hordered, horder⟩ := hparts.words_order
  have hexpr := h.groups.imp id hwhere.expr_iff.mpr
  have hlimit := (limits_words calls).trans (limitWords_requested h.offset)
  let limit := (requestedLimit calls).map fun n =>
    (keptLimit n, (requestedOffset calls).map keptOffset)
  refine ⟨spelled table columns (empty.buildAll calls) group order limit,
    grammatical_spelled htable hcolumns hne hparts hexpr hnames hterms limit, ?_, rfl, rfl, rfl,
    rows_requested rfl h.limit h.offset⟩
  have hcols (rest : List String) : words (columnsText "" columns) ++ rest =
      (columns.filter (· ≠ "")).intersperse "," ++ rest :=
    (words_columnsText_iff hcolumns hne).mpr ⟨h.columns, rfl⟩
  rw [words_buildQueryString htable hnil, SelectStmt.words, hcols,
    clauses_spelled hparts hnames hgroup hordered horder hlimit]
  rfl

theorem queryAsRequested_iff (E : Expressions) (table : String) (columns : List String)
    (calls : List BuilderCall) (htable : IsIdentifier table)
    (hcolumns : ∀ column ∈ columns, column = "" ∨ IsIdentifier column)
    (hne : ∃ column ∈ columns, column ≠ "") (hcalls : ∀ c ∈ calls, c.Names E) :
    QueryAsRequested E table columns calls ↔ Compatible columns calls :=
  ⟨compatible_of_query htable hcolumns hne hcalls, query_of_compatible htable hcolumns hne hcalls⟩

end

theorem queryAsRequested_limit_offset :
    QueryAsRequested comparisons "t" ["", "a", "b"] [.compare (.equalTo "c" (.integer 1)),
      .orderByAsc "a", .limit 10, .offset 5] := by
  refine (queryAsRequested_iff comparisons "t" ["", "a", "b"] _ (by decide) (by decide)
    ⟨"a", by decide, by decide⟩ ?_).mpr
    ⟨by decide, .inr (by decide), ⟨[], nofun, rfl⟩, by decide, by decide⟩
  simp only [forall_mem_cons]
  exact ⟨.inr (by decide), .inr (by decide), trivial, trivial, nofun⟩

theorem query_joins_columns_and_offsets_alone :
    buildQueryString "t" .empty ["a", "", "b"] = "SELECT ab  FROM t" ∧
    ¬ QueryAsRequested comparisons "t" ["a", "", "b"] [] ∧
    buildQueryString "t" (empty.buildAll [.offset 5]) ["a"] =
      "SELECT a  FROM t OFFSET 5" ∧
    ¬ QueryAsRequested comparisons "t" ["a"] [.offset 5] := by
  refine ⟨rfl, fun h => ?_, rfl, fun h => ?_⟩
  · have hcalls : ∀ c ∈ ([] : List BuilderCall), c.Names comparisons := nofun
    have hcompatible := compatible_of_query (by decide) (by decide) ⟨"a", by decide, by decide⟩
      hcalls h
    exact absurd hcompatible.columns (by decide)
  · have hcalls : ∀ c ∈ [BuilderCall.offset 5], c.Names comparisons :=
      forall_mem_cons.mpr ⟨trivial, nofun⟩
    have hcompatible := compatible_of_query (by decide) (by decide) ⟨"a", by decide, by decide⟩
      hcalls h
    exact absurd (hcompatible.offset rfl) (by decide)

end RelationalStore
