import RelationalStore.Rdb.Predicates.Words

/-! # Conditions emitted through the predicates

A condition is emitted from left to right; the connectives come from `isNeedAnd`. -/

namespace RelationalStore

open Comparison

open Condition (Disj Conj Factor)

mutual

def emitDisj : Disj Comparison → List BuilderCall
  | .one c => emitConj c
  | .or c d => emitConj c ++ .or :: emitDisj d

def emitConj : Conj Comparison → List BuilderCall
  | .one f => emitFactor f
  | .and f c => emitFactor f ++ emitConj c

def emitFactor : Factor Comparison → List BuilderCall
  | .atom a => [.compare a]
  | .group d => .beginWrap :: (emitDisj d ++ [.endWrap])

end

def BuilderCall.isAnd : BuilderCall → Bool
  | .and => true
  | _ => false

def AbsPredicates.buildAll (p : AbsPredicates) (calls : List BuilderCall) : AbsPredicates :=
  calls.foldl build p

/-- The call is accepted, and its field is a name. -/
def Comparison.Accepted (c : Comparison) : Prop := c.condition.isSome ∧ IsName c.field

structure Wrote (p p' : AbsPredicates) (ws : List String) : Prop where
  isNeedAnd : p'.isNeedAnd
  endsApart : EndsApart p'.whereClause
  words_eq : words p'.whereClause = words p.whereClause ++ (p.joint ++ ws)

namespace AbsPredicates
variable {p : AbsPredicates}

@[simp] theorem buildAll_cons (c : BuilderCall) (calls : List BuilderCall) :
    p.buildAll (c :: calls) = (p.build c).buildAll calls := rfl

@[simp] theorem buildAll_append (calls calls' : List BuilderCall) :
    p.buildAll (calls ++ calls') = (p.buildAll calls).buildAll calls' := List.foldl_append

theorem buildAll_filter_isAnd (p : AbsPredicates) (calls : List BuilderCall) :
    p.buildAll (calls.filter fun c => !c.isAnd) = p.buildAll calls := by
  induction calls generalizing p with
  | nil => rfl
  | cons c calls ih =>
    cases c with
    | and => exact ih p
    | _ => exact ih _

theorem joint_of_isNeedAnd (h : p.isNeedAnd) : p.joint = ["AND"] := if_pos h

theorem joint_of_not_isNeedAnd (h : p.isNeedAnd = false) : p.joint = [] := by simp [joint, h]

theorem wrote_compare (h : c.Accepted) (hp : EndsApart p.whereClause) :
    Wrote p (p.compare c) c.sqlAtom.words := by
  obtain ⟨⟨text, args⟩, hcond⟩ := Option.isSome_iff_exists.mp h.1
  obtain ⟨hends, hne⟩ := condition_endsApart hcond
  have hcompare : p.compare c = p.appendCondition text args := by simp only [compare, hcond]
  rw [hcompare, ← words_condition h.2 hcond]
  exact ⟨appendCondition_isNeedAnd _ _, endsApart_appendCondition _ hends hne,
    words_appendCondition fun _ => hp⟩

end AbsPredicates

namespace Wrote
variable {p p' p'' : AbsPredicates} {ws ws' : List String}

open AbsPredicates

theorem and (h : Wrote p p' ws) (h' : Wrote p' p'' ws') : Wrote p p'' (ws ++ "AND" :: ws') := by
  refine ⟨h'.isNeedAnd, h'.endsApart, ?_⟩
  rw [h'.words_eq, h.words_eq, joint_of_isNeedAnd h.isNeedAnd]
  simp

theorem or (h : Wrote p p' ws) (h' : Wrote p'.or p'' ws') : Wrote p p'' (ws ++ "OR" :: ws') := by
  refine ⟨h'.isNeedAnd, h'.endsApart, ?_⟩
  rw [h'.words_eq, or_of_isNeedAnd h.isNeedAnd, words_or, h.words_eq]
  simp [joint]

theorem group (hp : EndsApart p.whereClause) (h : Wrote p.beginWrap p' ws) :
    Wrote p p'.endWrap ("(" :: (ws ++ [")"])) := by
  rw [endWrap_of_isNeedAnd h.isNeedAnd]
  refine ⟨h.isNeedAnd, endsApart_append (by decide) (by decide), ?_⟩
  rw [words_rparen, h.words_eq, words_beginWrap fun _ => hp,
    joint_of_not_isNeedAnd beginWrap_isNeedAnd]
  simp

end Wrote

namespace AbsPredicates

mutual

theorem wrote_emitDisj : ∀ (d : Disj Comparison) (p : AbsPredicates), d.All Accepted →
    EndsApart p.whereClause → Wrote p (p.buildAll (emitDisj d))
      ((d.map sqlAtom).words sqlSigns SqlAtom.words)
  | .one c, p, h, hp => wrote_emitConj c p h hp
  | .or c d, p, h, hp => by
    have hc := wrote_emitConj c p h.1 hp
    have hends : EndsApart (p.buildAll (emitConj c)).or.whereClause := by
      rw [or_of_isNeedAnd hc.isNeedAnd]
      exact endsApart_append (by decide) (by decide)
    have hd := wrote_emitDisj d _ h.2 hends
    rw [emitDisj, buildAll_append, buildAll_cons]
    exact hc.or hd

theorem wrote_emitConj : ∀ (c : Conj Comparison) (p : AbsPredicates), c.All Accepted →
    EndsApart p.whereClause → Wrote p (p.buildAll (emitConj c))
      ((c.map sqlAtom).words sqlSigns SqlAtom.words)
  | .one f, p, h, hp => wrote_emitFactor f p h hp
  | .and f c, p, h, hp => by
    have hf := wrote_emitFactor f p h.1 hp
    have hc := wrote_emitConj c _ h.2 hf.endsApart
    rw [emitConj, buildAll_append]
    exact hf.and hc

theorem wrote_emitFactor : ∀ (f : Factor Comparison) (p : AbsPredicates),
    f.All Accepted → EndsApart p.whereClause → Wrote p (p.buildAll (emitFactor f))
      ((f.map sqlAtom).words sqlSigns SqlAtom.words)
  | .atom a, _, h, hp => wrote_compare h hp
  | .group d, p, h, hp => by
    have hd := wrote_emitDisj d p.beginWrap h endsApart_beginWrap
    rw [emitFactor, buildAll_cons, buildAll_append]
    exact Wrote.group hp hd

end

end AbsPredicates

theorem parse_emitted (d : Disj Comparison) (calls : List BuilderCall)
    (hcalls : (calls.filter fun c => !c.isAnd) = emitDisj d) (h : d.All Accepted) :
    Condition.parse sqlSigns readAtom (words (AbsPredicates.empty.buildAll calls).whereClause) =
      some (d.map sqlAtom) := by
  have hwrote := AbsPredicates.wrote_emitDisj d .empty h (by decide)
  rw [← hcalls, AbsPredicates.buildAll_filter_isAnd] at hwrote
  rw [hwrote.words_eq]
  exact parse_sqlWords _ (d.all_map (fun c hc => c.sqlAtom_named hc.2) h)

theorem parse_emitted_group :
    Condition.parse sqlSigns readAtom
      (words (AbsPredicates.empty.buildAll [.beginWrap, .compare (.equalTo "a" (.integer 1)), .or,
        .compare (.greaterThan "b" (.integer 2)), .endWrap, .and,
        .compare (.isNull "c")]).whereClause) =
      some (.one (.and (.group (.or (.one (.atom (.simple "a" .eq)))
        (.one (.one (.atom (.simple "b" .gt)))))) (.one (.atom (.simple "c" .isNull))))) :=
  parse_emitted (.one (.and (.group (.or (.one (.atom (.equalTo "a" (.integer 1))))
      (.one (.one (.atom (.greaterThan "b" (.integer 2)))))))
    (.one (.atom (.isNull "c"))))) _ rfl
    ⟨⟨⟨rfl, by decide⟩, ⟨rfl, by decide⟩⟩, ⟨rfl, by decide⟩⟩

def emittedAnd (a b : Comparison) : String :=
  (AbsPredicates.empty.buildAll (emitDisj (.one (.and (.atom a) (.one (.atom b)))))).whereClause

theorem parse_of_refused_value_and_of_field :
    Condition.parse sqlSigns readAtom
        (words (emittedAnd (.equalTo "a" (.integer 1)) (.greaterThan "name" (.string "")))) ≠
      some (.one (.and (.atom (.simple "a" .eq)) (.one (.atom (.simple "name" .gt))))) ∧
    Condition.parse sqlSigns readAtom
        (words (emittedAnd (.equalTo "a" (.integer 1)) (.equalTo "b IS NULL OR c" (.integer 2)))) ≠
      some (.one (.and (.atom (.simple "a" .eq))
        (.one (.atom (.simple "b IS NULL OR c" .eq))))) := by
  have hrefused : words (emittedAnd (.equalTo "a" (.integer 1))
      (.greaterThan "name" (.string ""))) = ["a", "=", "?"] := by decide +kernel
  have hfield : words (emittedAnd (.equalTo "a" (.integer 1))
      (.equalTo "b IS NULL OR c" (.integer 2))) =
      ["a", "=", "?", "AND", "b", "IS", "NULL", "OR", "c", "=", "?"] := by decide +kernel
  have hone : Condition.parse sqlSigns readAtom ["a", "=", "?"] =
      some (.one (.one (.atom (.simple "a" .eq)))) := rfl
  have hor : Condition.parse sqlSigns readAtom
      ["a", "=", "?", "AND", "b", "IS", "NULL", "OR", "c", "=", "?"] =
      some (.or (.and (.atom (.simple "a" .eq)) (.one (.atom (.simple "b" .isNull))))
        (.one (.one (.atom (.simple "c" .eq))))) := rfl
  rw [hrefused, hfield, hone, hor]
  exact ⟨(fun h => nomatch h), (fun h => nomatch h)⟩

end RelationalStore
