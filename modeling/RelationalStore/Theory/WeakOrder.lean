import RelationalStore.Theory.Comparison

/-! Strict weak orders.

Asymmetric, and what lies between two comparable values is comparable with one of them. -/

namespace RelationalStore

open List

structure WeakOrderOn {α : Type _} (s : Set α) (lt : α → α → Bool) : Prop where
  asymm : ∀ a ∈ s, ∀ b ∈ s, lt a b → lt b a = false
  cotrans : ∀ a ∈ s, ∀ b ∈ s, ∀ c ∈ s, lt a c → lt a b ∨ lt b c

namespace WeakOrderOn
variable {α β : Type _} {s t : Set α} {lt lt' : α → α → Bool}

theorem trans (h : WeakOrderOn s lt) (ha : a ∈ s) (hb : b ∈ s) (hc : c ∈ s) (hab : lt a b)
    (hbc : lt b c) : lt a c := by
  rcases h.cotrans a ha c hc b hb hab with hac | hcb
  · exact hac
  · exact absurd (h.asymm b hb c hc hbc) (by rw [hcb]; exact Bool.noConfusion)

theorem alike_trans (h : WeakOrderOn s lt) (ha : a ∈ s) (hb : b ∈ s) (hc : c ∈ s)
    (hab : Alike lt a b) (hbc : Alike lt b c) : Alike lt a c := by
  constructor
  · by_contra hac
    rcases h.cotrans a ha b hb c hc (Bool.eq_true_of_not_eq_false hac) with h' | h'
    · exact Bool.false_ne_true (hab.1.symm.trans h')
    · exact Bool.false_ne_true (hbc.1.symm.trans h')
  · by_contra hca
    rcases h.cotrans c hc b hb a ha (Bool.eq_true_of_not_eq_false hca) with h' | h'
    · exact Bool.false_ne_true (hbc.2.symm.trans h')
    · exact Bool.false_ne_true (hab.2.symm.trans h')

theorem isStrictWeakOrder (h : WeakOrderOn s lt) :
    IsStrictWeakOrder s fun a b => lt a.1 b.1 where
  irrefl a ha := Bool.false_ne_true ((h.asymm a a.2 a a.2 ha).symm.trans ha)
  trans a b c := h.trans a.2 b.2 c.2
  incomp_trans a b c hab hbc := by
    simp only [Bool.not_eq_true] at hab hbc ⊢
    exact h.alike_trans a.2 b.2 c.2 hab hbc

/-! ## Comparisons put together -/

theorem mono (h : WeakOrderOn s lt) (hts : t ⊆ s) : WeakOrderOn t lt where
  asymm a ha b hb := h.asymm a (hts ha) b (hts hb)
  cotrans a ha b hb c hc := h.cotrans a (hts ha) b (hts hb) c (hts hc)

theorem congr (h : WeakOrderOn s lt) (heq : ∀ a ∈ s, ∀ b ∈ s, lt' a b = lt a b) :
    WeakOrderOn s lt' where
  asymm a ha b hb hab := by
    rw [heq a ha b hb] at hab
    rw [heq b hb a ha]
    exact h.asymm a ha b hb hab
  cotrans a ha b hb c hc hac := by
    rw [heq a ha c hc] at hac
    rw [heq a ha b hb, heq b hb c hc]
    exact h.cotrans a ha b hb c hc hac

theorem swap (h : WeakOrderOn s lt) : WeakOrderOn s fun a b => lt b a where
  asymm a ha b hb := h.asymm b hb a ha
  cotrans a ha b hb c hc hca := (h.cotrans c hc b hb a ha hca).symm

theorem of_image (f : β → α) (hs : ∀ a ∈ s, ∃ y ∈ u, f y = a)
    (h : WeakOrderOn u fun y z => lt (f y) (f z)) : WeakOrderOn s lt where
  asymm a ha b hb := by
    obtain ⟨y, hy, rfl⟩ := hs a ha
    obtain ⟨z, hz, rfl⟩ := hs b hb
    exact h.asymm y hy z hz
  cotrans a ha b hb c hc := by
    obtain ⟨x, hx, rfl⟩ := hs a ha
    obtain ⟨y, hy, rfl⟩ := hs b hb
    obtain ⟨z, hz, rfl⟩ := hs c hc
    exact h.cotrans x hx y hy z hz

theorem preimage {lt : β → β → Bool} (f : α → β) (h : WeakOrderOn u lt) :
    WeakOrderOn (Set.preimage f u) fun a b => lt (f a) (f b) where
  asymm a ha b hb := h.asymm (f a) ha (f b) hb
  cotrans a ha b hb c hc := h.cotrans (f a) ha (f b) hb (f c) hc

theorem key [LinearOrder β] (s : Set α) (f : α → β) :
    WeakOrderOn s fun a b => decide (f a < f b) where
  asymm a _ b _ hab := decide_eq_false (lt_asymm (of_decide_eq_true hab))
  cotrans a _ b _ c _ hac := by
    simp only [decide_eq_true_iff] at hac ⊢
    exact (lt_or_ge (f a) (f b)).imp_right fun hba => hba.trans_lt hac

theorem field [LinearOrder β] (f : α → β) (h : ∀ x, WeakOrderOn {a ∈ s | f a = x} lt) :
    WeakOrderOn s fun a b => if f a ≠ f b then decide (f a < f b) else lt a b where
  asymm a ha b hb := by
    by_cases hab : f a = f b
    · rw [if_neg (not_not.mpr hab), if_neg (not_not.mpr hab.symm)]
      exact (h (f b)).asymm a ⟨ha, hab⟩ b ⟨hb, rfl⟩
    · rw [if_pos hab, if_pos (Ne.symm hab)]
      exact (key Set.univ f).asymm a trivial b trivial
  cotrans a ha b hb c hc := by
    intro hac
    by_cases hab : f a = f b
    · by_cases hbc : f b = f c
      · rw [if_neg (not_not.mpr (hab.trans hbc))] at hac
        rw [if_neg (not_not.mpr hab), if_neg (not_not.mpr hbc)]
        exact (h (f c)).cotrans a ⟨ha, hab.trans hbc⟩ b ⟨hb, hbc⟩ c ⟨hc, rfl⟩ hac
      · rw [if_pos (hab ▸ hbc), hab] at hac
        rw [if_pos hbc]
        exact .inr hac
    · rw [if_pos hab]
      by_cases hbc : f b = f c
      · rw [if_pos (hbc ▸ hab), ← hbc] at hac
        exact .inl hac
      · rw [if_pos hbc]
        by_cases heq : f a = f c
        · simp only [decide_eq_true_iff, heq]
          rw [heq] at hab
          exact lt_or_gt_of_ne (Ne.symm hbc)
        · rw [if_pos heq] at hac
          exact (key Set.univ f).cotrans a trivial b trivial c trivial hac

theorem field_univ [LinearOrder β] (f : α → β) (h : WeakOrderOn Set.univ lt) :
    WeakOrderOn Set.univ fun a b => if f a ≠ f b then decide (f a < f b) else lt a b :=
  field f fun _ => h.mono (Set.subset_univ _)

theorem lexLess (h : WeakOrderOn s lt) :
    WeakOrderOn {l | ∀ a ∈ l, a ∈ s} (RelationalStore.lexLess lt) where
  asymm as has bs hbs hlt := by
    induction as generalizing bs with
    | nil => cases bs <;> rfl
    | cons a as ih =>
      cases bs with
      | nil => cases hlt
      | cons b bs =>
        have ha := has a mem_cons_self
        have hb := hbs b mem_cons_self
        rw [RelationalStore.lexLess] at hlt ⊢
        split at hlt
        next hab => rw [h.asymm a ha b hb hab, if_neg Bool.false_ne_true, if_pos hab]
        split at hlt
        · cases hlt
        next hab hba =>
          rw [if_neg hba, if_neg hab]
          exact ih (fun x hx => has x (mem_cons_of_mem a hx)) bs
            (fun x hx => hbs x (mem_cons_of_mem b hx)) hlt
  cotrans as has bs hbs cs hcs hlt := by
    induction as generalizing bs cs with
    | nil =>
      cases bs with
      | nil => exact .inr hlt
      | cons b bs => exact .inl rfl
    | cons a as ih =>
      cases cs with
      | nil => cases hlt
      | cons c cs =>
        cases bs with
        | nil => exact .inr rfl
        | cons b bs =>
          have ha := has a mem_cons_self
          have hb := hbs b mem_cons_self
          have hc := hcs c mem_cons_self
          have hac := h.cotrans a ha b hb c hc
          have hba := h.cotrans b hb c hc a ha
          have hcb := h.cotrans c hc a ha b hb
          have htail := ih (fun x hx => has x (mem_cons_of_mem a hx)) bs
            (fun x hx => hbs x (mem_cons_of_mem b hx)) cs
            (fun x hx => hcs x (mem_cons_of_mem c hx))
          rw [RelationalStore.lexLess] at hlt ⊢
          rw [RelationalStore.lexLess]
          by_cases hab : lt a b
          · exact .inl (if_pos hab)
          by_cases hbc : lt b c
          · exact .inr (if_pos hbc)
          -- nothing lies between the first elements, so that they are all alike
          have hac' : ¬ lt a c := fun hlt' => (hac hlt').elim hab hbc
          rw [if_neg hac'] at hlt
          split at hlt
          · cases hlt
          next hca =>
            rw [if_neg hab, if_neg hbc, if_neg fun hlt' => (hba hlt').elim hbc hca,
              if_neg fun hlt' => (hcb hlt').elim hca hab]
            exact htail hlt

end WeakOrderOn

theorem Ieee.weakOrderOn_less : WeakOrderOn {x : Ieee e f | x.isNan = false} Ieee.less := by
  refine (WeakOrderOn.key _ Ieee.key).congr fun x hx y hy => ?_
  rw [Set.mem_ofPred_eq] at hx hy
  rw [Ieee.less, hx, hy]
  rfl

end RelationalStore
