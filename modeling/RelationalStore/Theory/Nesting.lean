import RelationalStore.Theory.Condition

/-! The parentheses of a condition.

In a condition no group is closed that is not open, none stays open, and no connective stands at
the end. -/

namespace RelationalStore.Condition

open List

variable {W : Type*}

/-- The last word is one that an operand can end in. -/
def Ends (S : Signs W) (ws : List W) : Prop :=
  ∃ w, ws.getLast? = some w ∧ w ≠ S.andWord ∧ w ≠ S.orWord ∧ w ≠ S.lparen

section
variable {S : Signs W} {ws ws' : List W}

theorem Ends.append (ws : List W) (h : Ends S ws') : Ends S (ws ++ ws') := by
  obtain ⟨w, hlast, hw⟩ := h
  refine ⟨w, ?_, hw⟩
  rw [getLast?_append, hlast, Option.some_or]

theorem not_ends_concat (h : w = S.andWord ∨ w = S.orWord ∨ w = S.lparen) (ws : List W) :
    ¬ Ends S (ws ++ [w]) := by
  rintro ⟨w', hlast, hand, hor, hl⟩
  rw [getLast?_concat] at hlast
  cases hlast
  rcases h with h | h | h
  · exact hand h
  · exact hor h
  · exact hl h

end

variable [DecidableEq W]

section
variable (S : Signs W)

def depth (ws : List W) : Int := ws.count S.lparen - ws.count S.rparen

structure Balanced (ws : List W) : Prop where
  total : depth S ws = 0
  initial : ∀ k, 0 ≤ depth S (ws.take k)

structure Proper (Atom : List W → Prop) : Prop where
  lparen_ne_rparen : S.lparen ≠ S.rparen
  lparen_ne_and : S.lparen ≠ S.andWord
  lparen_ne_or : S.lparen ≠ S.orWord
  balanced : ∀ ws, Atom ws → Balanced S ws
  ends : ∀ ws, Atom ws → Ends S ws

end

section
variable {S : Signs W} {Atom : List W → Prop} {ws ws' : List W} {n : Nat}

@[simp] theorem depth_nil : depth S [] = 0 := rfl

@[simp] theorem depth_append (ws ws' : List W) :
    depth S (ws ++ ws') = depth S ws + depth S ws' := by
  simp only [depth, count_append]
  omega

theorem depth_cons (w : W) (ws : List W) : depth S (w :: ws) = depth S [w] + depth S ws :=
  depth_append [w] ws

theorem depth_of_ne (hl : S.lparen ≠ w) (hr : S.rparen ≠ w) : depth S [w] = 0 := by
  simp [depth, hl.symm, hr.symm]

theorem depth_lparen (h : S.lparen ≠ S.rparen) : depth S [S.lparen] = 1 := by
  simp [depth, h]

theorem depth_rparen (h : S.lparen ≠ S.rparen) : depth S [S.rparen] = -1 := by
  simp [depth, h.symm]

theorem Proper.depth_and (h : Proper S Atom) : depth S [S.andWord] = 0 :=
  depth_of_ne h.lparen_ne_and S.rparen_ne_and

theorem Proper.depth_or (h : Proper S Atom) : depth S [S.orWord] = 0 :=
  depth_of_ne h.lparen_ne_or S.rparen_ne_or

theorem Balanced.append (h : Balanced S ws) (h' : Balanced S ws') : Balanced S (ws ++ ws') where
  total := by rw [depth_append, h.total, h'.total, Int.add_zero]
  initial k := by
    rw [take_append, depth_append]
    exact Int.add_nonneg (h.initial k) (h'.initial _)

theorem balanced_singleton (h : depth S [w] = 0) : Balanced S [w] where
  total := h
  initial k := by
    cases k with
    | zero => exact Int.le_refl 0
    | succ k => simp [h]

theorem balanced_of_ne (h : ∀ w ∈ ws, S.lparen ≠ w ∧ S.rparen ≠ w) : Balanced S ws := by
  induction ws with
  | nil => exact ⟨rfl, fun k => by simp⟩
  | cons w ws ih =>
    obtain ⟨hw, hws⟩ := forall_mem_cons.mp h
    exact (balanced_singleton (depth_of_ne hw.1 hw.2)).append (ih hws)

theorem Balanced.group (hne : S.lparen ≠ S.rparen) (h : Balanced S ws) :
    Balanced S (S.lparen :: (ws ++ [S.rparen])) := by
  have hl := depth_lparen hne
  have hr := depth_rparen hne
  refine ⟨by rw [depth_cons, depth_append, hl, hr, h.total]; rfl, fun k => ?_⟩
  cases k with
  | zero => exact Int.le_refl 0
  | succ k =>
    rw [take_succ_cons, depth_cons, take_append, depth_append, hl]
    rcases Nat.le_total k ws.length with hle | hle
    · have hinitial := h.initial k
      rw [Nat.sub_eq_zero_of_le hle, take_zero, depth_nil]
      omega
    · rw [take_of_length_le hle, h.total]
      rcases Nat.eq_zero_or_pos (k - ws.length) with hzero | hpos
      · simp [hzero]
      · rw [take_of_length_le (show [S.rparen].length ≤ _ from hpos), hr]
        omega

theorem WellFormed.balanced (hproper : Proper S Atom) (h : WellFormed S Atom ws) :
    Balanced S ws := by
  induction h with
  | atom h => exact hproper.balanced _ h
  | group _ ih => exact ih.group hproper.lparen_ne_rparen
  | and _ _ ih ih' =>
    exact ih.append ((balanced_singleton hproper.depth_and).append ih')
  | or _ _ ih ih' =>
    exact ih.append ((balanced_singleton hproper.depth_or).append ih')

theorem WellFormed.ends (hproper : Proper S Atom) (h : WellFormed S Atom ws) : Ends S ws := by
  induction h with
  | atom h => exact hproper.ends _ h
  | group _ _ =>
    have hlast : Ends S [S.rparen] :=
      ⟨S.rparen, rfl, S.rparen_ne_and, S.rparen_ne_or, hproper.lparen_ne_rparen.symm⟩
    exact hlast.append (S.lparen :: _)
  | @and ws ws' _ _ _ ih' => simpa using ih'.append (ws ++ [S.andWord])
  | @or ws ws' _ _ _ ih' => simpa using ih'.append (ws ++ [S.orWord])

/-! ## Texts that break off -/

section
variable (hproper : Proper S Atom)
include hproper

theorem Ready.not_wellFormed (h : Ready S Atom n ws) :
    ¬ WellFormed S Atom ws := by
  intro hformed
  have hends := hformed.ends hproper
  obtain ⟨before, lead, hopened, hlead, rfl⟩ := h
  cases hlead with
  | nil =>
    rw [append_nil] at hends
    cases hopened with
    | none =>
      obtain ⟨w, hlast, _⟩ := hends
      cases hlast
    | group _ _ => exact not_ends_concat (.inr (.inr rfl)) _ hends
  | and _ =>
    rw [← append_assoc] at hends
    exact not_ends_concat (.inl rfl) _ hends
  | or _ =>
    rw [← append_assoc] at hends
    exact not_ends_concat (.inr (.inl rfl)) _ hends

theorem Lead.depth_eq (h : Lead S Atom ws) : depth S ws = 0 := by
  cases h with
  | nil => rfl
  | and h => rw [depth_append, (h.balanced hproper).total, hproper.depth_and]; rfl
  | or h => rw [depth_append, (h.balanced hproper).total, hproper.depth_or]; rfl

theorem Opened.depth_eq (h : Opened S Atom n ws) :
    depth S ws = n := by
  induction h with
  | none => rfl
  | group _ hlead ih =>
    rw [depth_append, depth_append, ih, hlead.depth_eq hproper,
      depth_lparen hproper.lparen_ne_rparen]
    simp

theorem Complete.depth_eq (h : Complete S Atom n ws) :
    depth S ws = n := by
  obtain ⟨before, c, hopened, hc, rfl⟩ := h
  rw [depth_append, hopened.depth_eq hproper, (hc.balanced hproper).total, Int.add_zero]

theorem Complete.wellFormed_iff (h : Complete S Atom n ws) :
    WellFormed S Atom ws ↔ n = 0 := by
  constructor
  · intro hformed
    have htotal := (hformed.balanced hproper).total
    rw [h.depth_eq hproper] at htotal
    omega
  · rintro rfl
    exact complete_zero_iff.mp h

theorem not_wellFormed_of_depth_neg (h : depth S ws < 0)
    (ws' : List W) : ¬ WellFormed S Atom (ws ++ ws') := by
  intro hformed
  have hinitial := (hformed.balanced hproper).initial ws.length
  rw [take_left] at hinitial
  omega

end

end

end RelationalStore.Condition
