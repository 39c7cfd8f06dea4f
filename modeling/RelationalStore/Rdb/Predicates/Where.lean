import RelationalStore.Rdb.Predicates.Words

/-! # The where clause along a run

Along any sequence of calls the clause is a condition or the beginning of one. -/

namespace RelationalStore

open List AbsPredicates
open Condition (Ready Complete WellFormed)

inductive ClauseEffect where
  | operand
  | lparen
  | rparen
  | or
  | replace
  | empty
  | none
  deriving DecidableEq

def BuilderCall.accepted (p : AbsPredicates) : BuilderCall → Bool
  | .compare c => c.condition.isSome
  | .endWrap | .or => p.isNeedAnd
  | .orderByAsc field | .orderByDesc field => checkParameter field []
  | .groupBy fields => fields ≠ [] ∧ ∀ field ∈ fields, checkParameter field []
  | .indexedBy indexName => checkParameter indexName []
  | .having conditions _ => checkParameter conditions []
  | .beginWrap | .and | .distinct | .limit _ | .limitOffset _ _ | .offset _ => true

namespace PredicateCall

def accepted (p : AbsPredicates) : PredicateCall → Bool
  | .build c => c.accepted p
  | .setWhereClause text | .setOrder text => text ≠ ""
  | .clear | .setBindArgs _ => true

def effect : PredicateCall → ClauseEffect
  | .build (.compare _) => .operand
  | .build .beginWrap => .lparen
  | .build .endWrap => .rparen
  | .build .or => .or
  | .setWhereClause _ => .replace
  | .clear => .empty
  | _ => .none

/-- The condition of a comparison is an atom, and a clause that is set is a condition. -/
def Spells (Atom : List String → Prop) : PredicateCall → Prop
  | .build (.compare c) => ∀ text args, c.condition = some (text, args) → Atom (words text)
  | .setWhereClause text => text = "" ∨ WellFormed sqlSigns Atom (words text)
  | _ => True

end PredicateCall

structure ClauseProgress where
  depth : Int
  lastOr : Bool
  opened : Nat
  ready : Bool
  deriving DecidableEq

def ClauseProgress.after (g : ClauseProgress) : ClauseEffect → ClauseProgress
  | .operand => { g with lastOr := false, ready := false }
  | .lparen => ⟨g.depth + 1, false, g.opened + 1, true⟩
  | .rparen => { g with depth := g.depth - 1, lastOr := false, opened := g.opened - 1 }
  | .or => { g with lastOr := true, ready := true }
  | .replace => { g with lastOr := false, opened := 0, ready := false }
  | .empty => { g with lastOr := false, opened := 0, ready := true }
  | .none => { g with lastOr := false }

structure WhereRun where
  p : AbsPredicates
  progress : ClauseProgress

namespace AbsPredicates
variable {p : AbsPredicates}

def SameClause (p p' : AbsPredicates) : Prop :=
  p'.whereClause = p.whereClause ∧ p'.isNeedAnd = p.isNeedAnd

theorem sameClause_orderBy (field direction : String) :
    p.SameClause (p.orderBy field direction) := by
  unfold orderBy
  split <;> exact ⟨rfl, rfl⟩

theorem sameClause_groupBy (fields : List String) : p.SameClause (p.groupBy fields) := by
  unfold groupBy
  split <;> exact ⟨rfl, rfl⟩

theorem sameClause_indexedBy (indexName : String) : p.SameClause (p.indexedBy indexName) := by
  unfold indexedBy
  split <;> exact ⟨rfl, rfl⟩

theorem sameClause_having (conditions : String) (values : List BindValue) :
    p.SameClause (p.having conditions values) := by
  unfold having
  split <;> exact ⟨rfl, rfl⟩

theorem sameClause_setOrder (text : String) : p.SameClause (p.setOrder text) := by
  unfold setOrder
  split <;> exact ⟨rfl, rfl⟩

theorem sameClause_of_effect_none (h : c.effect = .none) : p.SameClause (p.call c) := by
  cases c with
  | build c =>
    cases c with
    | orderByAsc field => exact sameClause_orderBy field " ASC "
    | orderByDesc field => exact sameClause_orderBy field " DESC "
    | groupBy fields => exact sameClause_groupBy fields
    | indexedBy indexName => exact sameClause_indexedBy indexName
    | having conditions values => exact sameClause_having conditions values
    | compare | beginWrap | endWrap | or => exact nomatch h
    | and | distinct | limit | limitOffset | offset => exact ⟨rfl, rfl⟩
  | setOrder text => exact sameClause_setOrder text
  | setBindArgs => exact ⟨rfl, rfl⟩
  | clear | setWhereClause => exact nomatch h

theorem sameClause_of_refused (h : c.accepted p = false) : p.SameClause (p.call c) := by
  by_cases heffect : c.effect = .none
  · exact sameClause_of_effect_none heffect
  cases c with
  | build c =>
    cases c with
    | compare c =>
      have hnone : c.condition = none := by
        simpa [PredicateCall.accepted, BuilderCall.accepted] using h
      simp [SameClause, call, build, compare, hnone]
    | endWrap =>
      have hneed : p.isNeedAnd = false := h
      simp [SameClause, call, build, endWrap, hneed]
    | or =>
      have hneed : p.isNeedAnd = false := h
      simp [SameClause, call, build, or, hneed]
    | beginWrap => cases h
    | _ => exact absurd rfl heffect
  | setWhereClause text =>
    have hempty : text = "" := by simpa [PredicateCall.accepted] using h
    simp [SameClause, call, setWhereClause, hempty]
  | clear => cases h
  | setOrder | setBindArgs => exact absurd rfl heffect

end AbsPredicates

namespace WhereRun

def initial : WhereRun := ⟨.empty, 0, false, 0, true⟩

variable (s : WhereRun)

def step (c : PredicateCall) : Unit × WhereRun :=
  ((), ⟨s.p.call c, if c.accepted s.p then s.progress.after c.effect else s.progress⟩)

def FitsEffect : ClauseEffect → Prop
  | .operand => s.p.isNeedAnd = false → s.progress.ready
  | .lparen =>
    if s.p.isNeedAnd then EndsApart s.p.whereClause else s.progress.ready
  | .rparen => 0 < s.progress.opened
  | .none => s.progress.opened = 0 → s.progress.lastOr = false
  | .or | .replace | .empty => True

instance (e : ClauseEffect) : Decidable (s.FitsEffect e) := by
  cases e <;> unfold FitsEffect <;> infer_instance

def Fits (c : PredicateCall) : Prop :=
  c.accepted s.p → s.FitsEffect c.effect

instance (c : PredicateCall) : Decidable (s.Fits c) := by
  unfold Fits
  infer_instance

/-- With as many groups closed as opened and no `Or` at the end, the clause is a condition. -/
def ClauseStands (Atom : List String → Prop) (s : WhereRun) : Prop :=
  s.progress.depth = 0 → s.progress.lastOr = false →
    s.p.whereClause = "" ∨ WellFormed sqlSigns Atom (words s.p.whereClause)

structure Inv (Atom : List String → Prop) (s : WhereRun) : Prop where
  opened_le : (s.progress.opened : Int) ≤ s.progress.depth
  ready : s.progress.ready →
    Ready sqlSigns Atom s.progress.opened (words s.p.whereClause) ∧
      EndsApart s.p.whereClause ∧ s.p.isNeedAnd = false
  complete : s.progress.ready = false →
    Complete sqlSigns Atom s.progress.opened (words s.p.whereClause)
  last : s.progress.ready → s.progress.opened = 0 →
    s.progress.lastOr ∨ s.p.whereClause = ""

section
variable {Atom : List String → Prop} {s : WhereRun} {c : PredicateCall}

theorem inv_initial (Atom : List String → Prop) : Inv Atom initial where
  opened_le := Int.le_refl 0
  ready _ := ⟨Condition.ready_nil, by decide, rfl⟩
  complete h := nomatch h
  last _ _ := .inr rfl

theorem Inv.clauseStands (h : Inv Atom s) : s.ClauseStands Atom := by
  intro hdepth hor
  have hle := h.opened_le
  have hopened : s.progress.opened = 0 := by omega
  cases hready : s.progress.ready with
  | true =>
    rcases h.last hready hopened with hlast | hempty
    · exact absurd hlast (by simp [hor])
    · exact .inl hempty
  | false =>
    have hcomplete := h.complete hready
    rw [hopened] at hcomplete
    exact .inr (Condition.complete_zero_iff.mp hcomplete)

theorem Inv.complete_of_isNeedAnd (h : Inv Atom s) (hneed : s.p.isNeedAnd) :
    s.progress.ready = false ∧
      Complete sqlSigns Atom s.progress.opened (words s.p.whereClause) := by
  have hready : s.progress.ready = false := by
    cases hr : s.progress.ready with
    | false => rfl
    | true => exact absurd (h.ready hr).2.2 (by simp [hneed])
  exact ⟨hready, h.complete hready⟩

theorem Inv.ready_joint (h : Inv Atom s)
    (hfits : s.p.isNeedAnd = false → s.progress.ready) :
    Ready sqlSigns Atom s.progress.opened (words s.p.whereClause ++ s.p.joint) := by
  unfold joint
  cases hneed : s.p.isNeedAnd with
  | true => exact (h.complete_of_isNeedAnd hneed).2.and
  | false =>
    simp only [Bool.false_eq_true, if_false, append_nil]
    exact (h.ready (hfits hneed)).1

/-! ## One call -/

section
variable (h : Inv Atom s)
include h

theorem Inv.operand (hatom : Atom (words text))
    (hfits : s.p.isNeedAnd = false → s.progress.ready) :
    Inv Atom ⟨s.p.appendCondition text args, s.progress.after .operand⟩ where
  opened_le := h.opened_le
  ready hready := nomatch hready
  complete _ := by
    have hoperand := (h.ready_joint hfits).operand (.atom hatom)
    rw [append_assoc] at hoperand
    rwa [words_appendCondition fun hneed => (h.ready (hfits hneed)).2.1]
  last hready := nomatch hready

theorem Inv.lparen (hfits : s.FitsEffect .lparen) :
    Inv Atom ⟨s.p.beginWrap, s.progress.after .lparen⟩ where
  opened_le := by
    have hle := h.opened_le
    simp only [ClauseProgress.after]
    omega
  ready _ := by
    have hready : s.p.isNeedAnd = false → s.progress.ready := fun hneed => by
      simpa [FitsEffect, hneed] using hfits
    have hends : s.p.isNeedAnd → EndsApart s.p.whereClause := fun hneed => by
      simpa [FitsEffect, hneed] using hfits
    have hopen := (h.ready_joint hready).lparen
    rw [append_assoc] at hopen
    refine ⟨?_, endsApart_beginWrap, beginWrap_isNeedAnd⟩
    rw [words_beginWrap hends]
    exact hopen
  complete hready := nomatch hready
  last _ hopened := nomatch hopened

theorem Inv.rparen (hneed : s.p.isNeedAnd) (hopened : 0 < s.progress.opened) :
    Inv Atom ⟨s.p.endWrap, s.progress.after .rparen⟩ := by
  obtain ⟨hready, hcomplete⟩ := h.complete_of_isNeedAnd hneed
  rw [endWrap_of_isNeedAnd hneed]
  have hle := h.opened_le
  refine ⟨?_, fun h' => ?_, fun _ => ?_, fun h' => ?_⟩
  · simp only [ClauseProgress.after]
    omega
  · exact absurd h' (by simp [ClauseProgress.after, hready])
  · have hclosed : s.progress.opened = (s.progress.opened - 1) + 1 := by omega
    rw [hclosed] at hcomplete
    dsimp only
    rw [words_rparen]
    exact hcomplete.rparen
  · exact absurd h' (by simp [ClauseProgress.after, hready])

theorem Inv.or (hneed : s.p.isNeedAnd) :
    Inv Atom ⟨s.p.or, s.progress.after .or⟩ := by
  obtain ⟨_, hcomplete⟩ := h.complete_of_isNeedAnd hneed
  rw [or_of_isNeedAnd hneed]
  refine ⟨h.opened_le, fun _ => ⟨?_, endsApart_append (by decide) (by decide), rfl⟩,
    fun h' => (nomatch h'), fun _ _ => .inl rfl⟩
  dsimp only
  rw [words_or]
  exact hcomplete.or

theorem Inv.replace (hne : text ≠ "") (htext : WellFormed sqlSigns Atom (words text)) :
    Inv Atom ⟨s.p.setWhereClause text, s.progress.after .replace⟩ where
  opened_le := Int.le_trans (Int.natCast_nonneg _) h.opened_le
  ready hready := nomatch hready
  complete _ := by
    rw [setWhereClause, if_neg hne]
    exact Condition.complete_zero_iff.mpr htext
  last hready := nomatch hready

theorem Inv.empty : Inv Atom ⟨s.p.clear, s.progress.after .empty⟩ where
  opened_le := Int.le_trans (Int.natCast_nonneg _) h.opened_le
  ready _ := ⟨Condition.ready_nil, (by decide : EndsApart ""), rfl⟩
  complete hready := nomatch hready
  last _ _ := .inr rfl

theorem Inv.of_sameClause (hsame : s.p.SameClause s'.p)
    (hprogress : s'.progress = { s.progress with lastOr := s'.progress.lastOr })
    (hlast : s.progress.opened = 0 → s.progress.lastOr = s'.progress.lastOr) : Inv Atom s' := by
  obtain ⟨p, depth, lastOr, opened, ready⟩ := s'
  obtain ⟨hclause, hneed⟩ := hsame
  obtain ⟨rfl, rfl, rfl⟩ : depth = s.progress.depth ∧ opened = s.progress.opened ∧
      ready = s.progress.ready := by simpa using hprogress
  refine ⟨h.opened_le, ?_, ?_, ?_⟩
  · dsimp only at hclause hneed ⊢
    rw [hclause, hneed]
    exact h.ready
  · dsimp only at hclause ⊢
    rw [hclause]
    exact h.complete
  · dsimp only at hclause hlast ⊢
    intro hready hopened
    rw [hclause, ← hlast hopened]
    exact h.last hready hopened

theorem Inv.none (heffect : c.effect = .none)
    (hfits : s.progress.opened = 0 → s.progress.lastOr = false) :
    Inv Atom ⟨s.p.call c, s.progress.after .none⟩ :=
  h.of_sameClause (sameClause_of_effect_none heffect) rfl hfits

theorem Inv.step (hspells : c.Spells Atom) (hfits : s.Fits c) :
    Inv Atom (s.step c).2 := by
  unfold WhereRun.step
  cases haccepted : c.accepted s.p with
  | false => exact h.of_sameClause (AbsPredicates.sameClause_of_refused haccepted) rfl fun _ => rfl
  | true =>
    have hfits := hfits haccepted
    simp only [if_true]
    by_cases heffect : c.effect = .none
    · rw [heffect] at hfits ⊢
      exact h.none heffect hfits
    cases c with
    | build c =>
      cases c with
      | compare c =>
        obtain ⟨⟨text, args⟩, hcond⟩ := Option.isSome_iff_exists.mp haccepted
        have hcompare : s.p.compare c = s.p.appendCondition text args := by
          simp only [AbsPredicates.compare, hcond]
        simp only [AbsPredicates.call, AbsPredicates.build, hcompare]
        exact h.operand (hspells text args hcond) hfits
      | beginWrap => exact h.lparen hfits
      | endWrap => exact h.rparen haccepted hfits
      | or => exact h.or haccepted
      | _ => exact absurd rfl heffect
    | setWhereClause text =>
      have hne : text ≠ "" := by simpa [PredicateCall.accepted] using haccepted
      exact h.replace hne (hspells.resolve_left hne)
    | clear => exact h.empty
    | setOrder | setBindArgs => exact absurd rfl heffect

end

end

/-! ## Whole runs -/

theorem clauseStands_of_fits (Atom : List String → Prop) (calls : List PredicateCall)
    (hspells : ∀ c ∈ calls, c.Spells Atom)
    (hfits : ∀ t ∈ trace step initial calls, t.pre.Fits t.call) :
    ∀ t ∈ trace step initial calls, t.post.ClauseStands Atom := by
  refine trace_forall (I := Inv Atom) (G := fun s (c : PredicateCall) => s.Fits c ∧ c.Spells Atom)
    (fun s c h hg => ?_) (inv_initial Atom)
    fun t ht => ⟨hfits t ht, hspells t.call (call_mem_of_mem_trace ht)⟩
  have hnext : Inv Atom (s.step c).2 := h.step hg.2 hg.1
  exact ⟨hnext, hnext.clauseStands⟩

/-- A field that is equal to something. -/
def IsEquation (ws : List String) : Prop := ∃ field value, ws = [field, "=", value]

theorem spells_equalTo (hname : IsName field) (horigin : field ≠ ORIGIN_FIELD)
    (hdevice : field ≠ ORIGIN_ORIDEVICE) :
    (PredicateCall.build (.compare (.equalTo field value))).Spells IsEquation := by
  intro text args h
  refine ⟨field, "?", ?_⟩
  have hfield : IsName (Comparison.equalTo field value).field := hname
  rw [Comparison.words_condition hfield h]
  simp only [Comparison.sqlAtom, if_neg horigin, if_neg hdevice]
  rfl

theorem clauseStands_of_fits_set :
    WellFormed sqlSigns IsEquation (words (final step initial [.build .or, .build .beginWrap,
      .build (.compare (.equalTo "a" (.integer 1))), .build .endWrap, .setWhereClause "x = 1 ",
      .build .and, .build .beginWrap, .build (.compare (.equalTo "b" (.integer 2))),
      .build .endWrap]).p.whereClause) := by
  have hrun := clauseStands_of_fits IsEquation [.build .or, .build .beginWrap,
      .build (.compare (.equalTo "a" (.integer 1))), .build .endWrap, .setWhereClause "x = 1 ",
      .build .and, .build .beginWrap, .build (.compare (.equalTo "b" (.integer 2))),
      .build .endWrap] ?_ (by decide)
  · have hlast := hrun _ (getLast_mem (by decide))
    exact (hlast rfl rfl).resolve_left (by decide)
  · simp only [forall_mem_cons]
    exact ⟨trivial, trivial, spells_equalTo (by decide) (by decide) (by decide), trivial,
      .inr (.atom ⟨"x", "1", rfl⟩), trivial, trivial,
      spells_equalTo (by decide) (by decide) (by decide), trivial, fun _ h => nomatch h⟩

theorem setWhereClause_then_equalTo :
    (∀ c ∈ [PredicateCall.setWhereClause "x = 1",
      .build (.compare (.equalTo "a" (.integer 1)))], c.Spells IsEquation) ∧
    ¬(final step initial [.setWhereClause "x = 1",
      .build (.compare (.equalTo "a" (.integer 1)))]).ClauseStands IsEquation := by
  constructor
  · simp only [forall_mem_cons]
    exact ⟨.inr (.atom ⟨"x", "1", rfl⟩), spells_equalTo (by decide) (by decide) (by decide),
      fun _ h => nomatch h⟩
  · intro h
    have hwords : words (final step initial [.setWhereClause "x = 1",
        .build (.compare (.equalTo "a" (.integer 1)))]).p.whereClause =
        ["x", "=", "1a", "=", "?"] := rfl
    rcases h rfl rfl with hempty | hformed
    · exact absurd hempty (by decide)
    · rw [hwords] at hformed
      rcases hformed.atom_or_mem with ⟨field, value, heq⟩ | hmem
      · simp at heq
      · exact absurd hmem (by decide)

end WhereRun

end RelationalStore
