import Mathlib.Data.List.Induction
import RelationalStore.Theory.Chunks
import RelationalStore.Rdb.Predicates.Basic

/-! # The joins of a predicate

The join types and the tables grow with each join, the conditions only with `On` and `Using`. -/

namespace RelationalStore

open List

inductive JoinType where
  | inner
  | left
  | cross
  deriving DecidableEq

def getGrammar : JoinType → String
  | .inner => "INNER JOIN"
  | .left => "LEFT OUTER JOIN"
  | .cross => "CROSS JOIN"

inductive JoinCall where
  | crossJoin (tableName : String)
  | innerJoin (tableName : String)
  | leftOuterJoin (tableName : String)
  | on (clauses : List String)
  | usingFields (fields : List String)
  deriving DecidableEq

structure RdbJoins where
  joinTypes : List String
  joinTableNames : List String
  joinConditions : List String
  joinCount : Nat
  deriving DecidableEq

namespace RdbJoins

def initial : RdbJoins := ⟨[], [], [], 0⟩

variable (j : RdbJoins)

def join (type : JoinType) (tableName : String) : RdbJoins :=
  if tableName = "" then j
  else
    { j with
      joinTypes := j.joinTypes ++ [getGrammar type]
      joinTableNames := j.joinTableNames ++ [tableName]
      joinCount := j.joinCount + 1 }

def padConditions (conditions : List String) : Nat → List String
  | 0 | 1 => conditions
  | n + 2 => padConditions (conditions ++ [""]) (n + 1)

def addCondition (args : List String) (condition : String) : RdbJoins :=
  if args = [] then j
  else if j.joinCount = 0 then j
  else
    { j with
      joinConditions := padConditions j.joinConditions j.joinCount ++ [condition], joinCount := 0 }

def on (clauses : List String) : RdbJoins :=
  j.addCondition clauses (surroundWithFunction "ON" "AND" clauses)

def usingFields (fields : List String) : RdbJoins :=
  j.addCondition fields (surroundWithFunction "USING" "," fields)

def call : JoinCall → RdbJoins
  | .crossJoin tableName => j.join .cross tableName
  | .innerJoin tableName => j.join .inner tableName
  | .leftOuterJoin tableName => j.join .left tableName
  | .on clauses => j.on clauses
  | .usingFields fields => j.usingFields fields

def processLoop (j : RdbJoins) : Nat → Nat → String → Option String
  | 0, _, builder => some builder
  | n + 1, i, builder =>
    match j.joinTypes[i]?, j.joinTableNames[i]?, j.joinConditions[i]? with
    | some type, some tableName, some condition =>
      let builder := if i ≠ 0 then builder ++ " " else builder
      let builder := builder ++ type ++ " " ++ tableName
      j.processLoop n (i + 1) (if condition ≠ "" then builder ++ " " ++ condition else builder)
    | _, _, _ => none

def processJoins : Option String := j.processLoop j.joinTableNames.length 0 ""

def getJoinClause : Option String :=
  if j.joinTableNames = [] then some "" else j.processJoins

end RdbJoins

/-! ## The joins that are meant -/

structure AcceptedJoin where
  type : JoinType
  tableName : String
  condition : Option String

namespace AcceptedJoin

def text (a : AcceptedJoin) : String :=
  getGrammar a.type ++ " " ++ a.tableName ++ a.condition.elim "" (" " ++ ·)

def clause : List AcceptedJoin → String
  | [] => ""
  | [a] => a.text
  | a :: joins => a.text ++ " " ++ clause joins

end AcceptedJoin

namespace JoinCall

def joined : JoinCall → Option AcceptedJoin
  | .crossJoin tableName => if tableName = "" then none else some ⟨.cross, tableName, none⟩
  | .innerJoin tableName => if tableName = "" then none else some ⟨.inner, tableName, none⟩
  | .leftOuterJoin tableName => if tableName = "" then none else some ⟨.left, tableName, none⟩
  | .on _ | .usingFields _ => none

def condition : JoinCall → Option String
  | .on clauses => if clauses = [] then none else some (surroundWithFunction "ON" "AND" clauses)
  | .usingFields fields =>
    if fields = [] then none else some (surroundWithFunction "USING" "," fields)
  | _ => none

def nextCondition : List JoinCall → Option String
  | [] => none
  | c :: calls => if c.joined.isSome then none else c.condition.or (nextCondition calls)

def acceptedJoins : List JoinCall → List AcceptedJoin
  | [] => []
  | c :: calls =>
    (c.joined.map fun a => { a with condition := nextCondition calls }).toList ++
      acceptedJoins calls

/-- Every join is followed, sooner or later, by a condition. -/
def Conditioned : List JoinCall → Prop
  | [] => True
  | c :: calls => (c.joined.isSome → ∃ d ∈ calls, d.condition.isSome) ∧ Conditioned calls

end JoinCall

/-! ## What one call does -/

namespace RdbJoins
variable {j : RdbJoins} {c : JoinCall}

theorem padConditions_eq (conditions : List String) :
    ∀ n, padConditions conditions n = conditions ++ List.replicate (n - 1) ""
  | 0 | 1 => (append_nil _).symm
  | n + 2 => by
    rw [padConditions, padConditions_eq, append_assoc]
    rfl

theorem call_cases (j : RdbJoins) (c : JoinCall) :
    (∃ a, c.joined = some a ∧ c.condition = none ∧ a.condition = none ∧
      j.call c = { j with
        joinTypes := j.joinTypes ++ [getGrammar a.type]
        joinTableNames := j.joinTableNames ++ [a.tableName]
        joinCount := j.joinCount + 1 }) ∨
    (∃ condition, c.joined = none ∧ c.condition = some condition ∧ condition ≠ "" ∧
      j.call c = if j.joinCount = 0 then j else { j with
        joinConditions := j.joinConditions ++ List.replicate (j.joinCount - 1) "" ++ [condition]
        joinCount := 0 }) ∨
    (c.joined = none ∧ c.condition = none ∧ j.call c = j) := by
  have hjoin (type : JoinType) (tableName : String) (hne : tableName ≠ "") :
      j.join type tableName = { j with
        joinTypes := j.joinTypes ++ [getGrammar type]
        joinTableNames := j.joinTableNames ++ [tableName]
        joinCount := j.joinCount + 1 } := if_neg hne
  have hadd (args : List String) (condition : String) (hne : args ≠ []) :
      j.addCondition args condition = if j.joinCount = 0 then j else { j with
        joinConditions := j.joinConditions ++ List.replicate (j.joinCount - 1) "" ++ [condition]
        joinCount := 0 } := by
    rw [addCondition, if_neg hne, padConditions_eq]
  have hsurround (function separator : String) (args : List String) (hne : function ≠ "") :
      surroundWithFunction function separator args ≠ "" := fun hnil =>
    hne (String.append_eq_empty_iff.mp hnil).1
  cases c with
  | crossJoin tableName | innerJoin tableName | leftOuterJoin tableName =>
    by_cases hempty : tableName = ""
    · exact .inr (.inr ⟨if_pos hempty, rfl, if_pos hempty⟩)
    · exact .inl ⟨_, if_neg hempty, rfl, rfl, hjoin _ _ hempty⟩
  | on args | usingFields args =>
    by_cases hempty : args = []
    · exact .inr (.inr ⟨rfl, if_pos hempty, if_pos hempty⟩)
    · exact .inr (.inl ⟨_, rfl, if_neg hempty, hsurround _ _ _ (by decide), hadd _ _ hempty⟩)

theorem joinCount_foldl_eq_zero_iff (calls : List JoinCall) (j : RdbJoins) :
    (calls.foldl call j).joinCount = 0 ↔ JoinCall.Conditioned calls ∧
      (j.joinCount = 0 ∨ ∃ d ∈ calls, d.condition.isSome) := by
  induction calls generalizing j with
  | nil => simp [JoinCall.Conditioned]
  | cons c calls ih =>
    rw [foldl_cons, ih]
    rcases call_cases j c with ⟨a, hjoined, hcond, -, hcall⟩ | ⟨t, hjoined, hcond, -, hcall⟩ |
      ⟨hjoined, hcond, hcall⟩
    · simp only [JoinCall.Conditioned, hcall, hjoined, hcond, mem_cons, exists_eq_or_imp]
      simp
      tauto
    · have hzero : (j.call c).joinCount = 0 := by
        rw [hcall]
        split
        · assumption
        · rfl
      simp [JoinCall.Conditioned, hzero, hjoined, hcond]
    · simp [JoinCall.Conditioned, hcall, hjoined, hcond]

end RdbJoins

/-! ## The accepted joins grow with the calls -/

namespace JoinCall
variable {calls : List JoinCall} {c : JoinCall}

def giveLast (condition : String) : List AcceptedJoin → List AcceptedJoin
  | [] => []
  | [a] => [{ a with condition := a.condition.or (some condition) }]
  | a :: joins => a :: giveLast condition joins

theorem giveLast_concat (condition : String) (joins : List AcceptedJoin) (a : AcceptedJoin) :
    giveLast condition (joins ++ [a]) =
      joins ++ [{ a with condition := a.condition.or (some condition) }] := by
  induction joins with
  | nil => rfl
  | cons b joins ih =>
    cases joins with
    | nil => rfl
    | cons b' joins => exact congrArg (b :: ·) ih

theorem nextCondition_append_of_joined (h : c.joined.isSome) :
    nextCondition (calls ++ [c]) = nextCondition calls := by
  induction calls with
  | nil => simp [nextCondition, h]
  | cons d calls ih => simp only [cons_append, nextCondition, ih]

theorem nextCondition_append (h : c.joined = none) :
    nextCondition (calls ++ [c]) =
      if acceptedJoins calls = [] then (nextCondition calls).or c.condition
      else nextCondition calls := by
  induction calls with
  | nil => simp [nextCondition, acceptedJoins, h]
  | cons d calls ih =>
    cases hd : d.joined with
    | some a => simp [nextCondition, acceptedJoins, hd]
    | none =>
      have hjoins : acceptedJoins (d :: calls) = acceptedJoins calls := by simp [acceptedJoins, hd]
      rw [hjoins, cons_append, nextCondition, nextCondition, ih]
      by_cases hnil : acceptedJoins calls = []
      · simp [hd, hnil, Option.or_assoc]
      · simp [hd, hnil]

theorem acceptedJoins_append_joined (h : c.joined = some a) (ha : a.condition = none) :
    acceptedJoins (calls ++ [c]) = acceptedJoins calls ++ [a] := by
  induction calls with
  | nil =>
    obtain ⟨type, tableName, condition⟩ := a
    cases ha
    simp [acceptedJoins, h, nextCondition]
  | cons d calls ih =>
    rw [cons_append, acceptedJoins, acceptedJoins, ih,
      nextCondition_append_of_joined (by rw [h]; rfl), append_assoc]

theorem acceptedJoins_append_condition {condition : String} (h : c.joined = none)
    (hc : c.condition = some condition) :
    acceptedJoins (calls ++ [c]) = giveLast condition (acceptedJoins calls) := by
  induction calls with
  | nil => simp [acceptedJoins, h, giveLast]
  | cons d calls ih =>
    rw [cons_append, acceptedJoins, acceptedJoins, ih, nextCondition_append h, hc]
    cases hd : d.joined with
    | none => rfl
    | some a =>
      cases hjoins : acceptedJoins calls with
      | nil => rfl
      | cons b joins => rfl

theorem acceptedJoins_append_refused (h : c.joined = none) (hc : c.condition = none) :
    acceptedJoins (calls ++ [c]) = acceptedJoins calls := by
  induction calls with
  | nil => simp [acceptedJoins, h]
  | cons d calls ih =>
    rw [cons_append, acceptedJoins, acceptedJoins, ih, nextCondition_append h, hc]
    simp

end JoinCall

/-! ## The three lists -/

namespace RdbJoins
variable {j : RdbJoins} {joins : List AcceptedJoin}

structure Holds (j : RdbJoins) (joins : List AcceptedJoin) : Prop where
  types : j.joinTypes = joins.map fun a => getGrammar a.type
  names : j.joinTableNames = joins.map (·.tableName)
  nonempty : ∀ a ∈ joins, a.condition ≠ some ""
  conditions : ∃ closed opened, joins = closed ++ opened ∧ opened.length = j.joinCount ∧
    (∀ a ∈ opened, a.condition = none) ∧ (∀ a ∈ closed.getLast?, a.condition.isSome) ∧
    j.joinConditions = closed.map (·.condition.getD "")

theorem holds_initial : Holds initial [] :=
  ⟨rfl, rfl, fun _ h => (nomatch h), [], [], rfl, rfl, fun _ h => (nomatch h),
    fun _ h => (nomatch h), rfl⟩

theorem Holds.join (h : j.Holds joins) (ha : a.condition = none) :
    Holds { j with
      joinTypes := j.joinTypes ++ [getGrammar a.type]
      joinTableNames := j.joinTableNames ++ [a.tableName]
      joinCount := j.joinCount + 1 } (joins ++ [a]) := by
  obtain ⟨closed, opened, rfl, hcount, hopened, hclosed, hconditions⟩ := h.conditions
  refine ⟨by simp [h.types], by simp [h.names], ?_, closed, opened ++ [a],
    append_assoc _ _ _, by simp [hcount], ?_, hclosed, hconditions⟩
  · intro b hb
    rcases mem_append.mp hb with hb | hb
    · exact h.nonempty b hb
    · rw [mem_singleton.mp hb, ha]
      exact nofun
  · intro b hb
    rcases mem_append.mp hb with hb | hb
    · exact hopened b hb
    · rw [mem_singleton.mp hb, ha]

theorem Holds.addCondition (h : j.Holds joins) (hne : condition ≠ "") (hcount : j.joinCount ≠ 0) :
    Holds { j with
      joinConditions := j.joinConditions ++ List.replicate (j.joinCount - 1) "" ++ [condition]
      joinCount := 0 } (JoinCall.giveLast condition joins) := by
  obtain ⟨closed, opened, rfl, hlength, hopened, -, hconditions⟩ := h.conditions
  obtain ⟨before, last, rfl⟩ : ∃ before last, opened = before ++ [last] :=
    eq_nil_or_concat' opened |>.resolve_left fun hnil => hcount (by simp [← hlength, hnil])
  have hlast : last.condition = none := hopened last (by simp)
  have hbefore : before.map (fun a => a.condition.getD "") =
      List.replicate (j.joinCount - 1) "" := by
    rw [← hlength, length_append, length_singleton, Nat.add_sub_cancel]
    refine eq_replicate_iff.mpr ⟨length_map _, fun text htext => ?_⟩
    obtain ⟨a, ha, rfl⟩ := mem_map.mp htext
    rw [hopened a (mem_append_left _ ha)]
    rfl
  rw [← append_assoc, JoinCall.giveLast_concat, hlast, Option.none_or]
  refine ⟨by simpa using h.types, by simpa using h.names, ?_,
    closed ++ before ++ [{ last with condition := some condition }], [],
    (append_nil _).symm, rfl, fun _ hnil => (nomatch hnil), by simp, ?_⟩
  · intro a ha
    rcases mem_append.mp ha with ha | ha
    · exact h.nonempty a (by rw [← append_assoc]; exact mem_append_left _ ha)
    · rw [mem_singleton.mp ha]
      exact fun heq => hne (Option.some.inj heq)
  · simp [hconditions, hbefore]

theorem Holds.giveLast_eq (h : j.Holds joins) (hcount : j.joinCount = 0) :
    JoinCall.giveLast condition joins = joins := by
  obtain ⟨closed, opened, rfl, hlength, -, hclosed, -⟩ := h.conditions
  obtain rfl : opened = [] := length_eq_zero_iff.mp (hlength.trans hcount)
  rw [append_nil]
  rcases eq_nil_or_concat' closed with rfl | ⟨before, last, rfl⟩
  · rfl
  · obtain ⟨text, htext⟩ := Option.isSome_iff_exists.mp (hclosed last (by simp))
    rw [JoinCall.giveLast_concat, htext, Option.some_or, ← htext]

theorem Holds.call (c : JoinCall) (h : j.Holds (JoinCall.acceptedJoins calls)) :
    (j.call c).Holds (JoinCall.acceptedJoins (calls ++ [c])) := by
  rcases call_cases j c with ⟨a, hjoined, -, ha, hcall⟩ | ⟨t, hjoined, hcond, hne, hcall⟩ |
    ⟨hjoined, hcond, hcall⟩
  · rw [hcall, JoinCall.acceptedJoins_append_joined hjoined ha]
    exact h.join ha
  · rw [hcall, JoinCall.acceptedJoins_append_condition hjoined hcond]
    split
    next hcount => rwa [h.giveLast_eq hcount]
    next hcount => exact h.addCondition hne hcount
  · rwa [hcall, JoinCall.acceptedJoins_append_refused hjoined hcond]

theorem holds_foldl (calls : List JoinCall) :
    (calls.foldl call initial).Holds (JoinCall.acceptedJoins calls) := by
  induction calls using List.reverseRecOn with
  | nil => exact holds_initial
  | append_singleton calls c ih =>
    rw [foldl_append]
    exact ih.call c

/-! ## The clause -/

variable (builder : String)

theorem append_text {a : AcceptedJoin} (h : a.condition ≠ some "") :
    (if a.condition.getD "" ≠ "" then
      builder ++ getGrammar a.type ++ " " ++ a.tableName ++ " " ++ a.condition.getD ""
    else builder ++ getGrammar a.type ++ " " ++ a.tableName) = builder ++ a.text := by
  cases hcond : a.condition with
  | none => simp [AcceptedJoin.text, hcond, String.append_assoc]
  | some condition =>
    have hne : condition ≠ "" := fun hempty => h (hcond.trans (congrArg some hempty))
    simp [AcceptedJoin.text, hcond, hne, String.append_assoc]

theorem processLoop_eq (htypes : j.joinTypes.drop i = rest.map fun a => getGrammar a.type)
    (hnames : j.joinTableNames.drop i = rest.map (·.tableName))
    (hconditions : j.joinConditions.drop i = rest.map (·.condition.getD ""))
    (hnonempty : ∀ a ∈ rest, a.condition ≠ some "") :
    j.processLoop rest.length i builder =
      some (builder ++ (if i ≠ 0 ∧ rest ≠ [] then " " else "") ++ AcceptedJoin.clause rest) := by
  induction rest generalizing i builder with
  | nil => simp [processLoop, AcceptedJoin.clause]
  | cons a rest ih =>
    obtain ⟨htype, htypes⟩ := getElem?_of_drop htypes
    obtain ⟨hname, hnames⟩ := getElem?_of_drop hnames
    obtain ⟨hcondition, hconditions⟩ := getElem?_of_drop hconditions
    rw [length_cons, processLoop, htype, hname, hcondition]
    dsimp only
    rw [append_text _ (hnonempty a mem_cons_self),
      ih _ htypes hnames hconditions fun b hb => hnonempty b (mem_cons_of_mem _ hb)]
    cases rest with
    | nil => by_cases hi : i = 0 <;> simp [AcceptedJoin.clause, hi]
    | cons b rest =>
      by_cases hi : i = 0 <;> simp [AcceptedJoin.clause, hi, String.append_assoc]

theorem processLoop_eq_none {n i : Nat} (hi : i ≤ j.joinConditions.length)
    (h : j.joinConditions.length < i + n) : j.processLoop n i builder = none := by
  induction n generalizing i builder with
  | zero => omega
  | succ n ih =>
    unfold processLoop
    split
    next hcondition =>
      have hlt : i < j.joinConditions.length := (List.getElem?_eq_some_iff.mp hcondition).1
      exact ih _ (by omega) (by omega)
    · rfl

theorem Holds.getJoinClause (h : j.Holds joins) (hcount : j.joinCount = 0) :
    j.getJoinClause = some (AcceptedJoin.clause joins) := by
  obtain ⟨closed, opened, rfl, hlength, -, -, hconditions⟩ := h.conditions
  obtain rfl : opened = [] := length_eq_zero_iff.mp (hlength.trans hcount)
  rw [append_nil] at h ⊢
  unfold RdbJoins.getJoinClause
  split
  next hnil =>
    rw [h.names, map_eq_nil_iff] at hnil
    rw [hnil]
    rfl
  · have hloop := processLoop_eq (i := 0) "" h.types h.names hconditions h.nonempty
    rw [processJoins, h.names, length_map, hloop]
    simp

theorem Holds.getJoinClause_eq_none (h : j.Holds joins) (hcount : j.joinCount ≠ 0) :
    j.getJoinClause = none := by
  obtain ⟨closed, opened, rfl, hlength, -, -, hconditions⟩ := h.conditions
  have hnames : j.joinTableNames.length = closed.length + j.joinCount := by
    rw [h.names, length_map, length_append, hlength]
  have hshort : j.joinConditions.length = closed.length := by rw [hconditions, length_map]
  have hne : j.joinTableNames ≠ [] := length_pos_iff.mp (by omega)
  rw [RdbJoins.getJoinClause, if_neg hne]
  exact processLoop_eq_none "" (Nat.zero_le _) (by omega)

end RdbJoins

theorem getJoinClause_iff_conditioned (calls : List JoinCall) :
    (calls.foldl RdbJoins.call .initial).getJoinClause =
      some (AcceptedJoin.clause (JoinCall.acceptedJoins calls)) ↔ JoinCall.Conditioned calls := by
  have hholds := RdbJoins.holds_foldl calls
  have hcount : (calls.foldl RdbJoins.call .initial).joinCount = 0 ↔
      JoinCall.Conditioned calls := by
    rw [RdbJoins.joinCount_foldl_eq_zero_iff]
    exact and_iff_left (.inl rfl)
  rw [← hcount]
  constructor
  · intro h
    by_contra hne
    exact nomatch h.symm.trans (hholds.getJoinClause_eq_none hne)
  · exact hholds.getJoinClause

theorem getJoinClause_crossJoin :
    (RdbJoins.initial.call (.crossJoin "t")).getJoinClause = none ∧
      AcceptedJoin.clause (JoinCall.acceptedJoins [.crossJoin "t"]) = "CROSS JOIN t" := by
  decide

example : (([.crossJoin "t", .leftOuterJoin "", .innerJoin "u", .on ["t.a = u.a", "u.b = 1"],
    .usingFields ["c"]] : List JoinCall).foldl RdbJoins.call .initial).getJoinClause =
      some "CROSS JOIN t INNER JOIN u ON(t.a = u.a AND u.b = 1)" := by decide

end RelationalStore
