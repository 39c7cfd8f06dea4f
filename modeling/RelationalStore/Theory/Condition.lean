import Mathlib.Data.List.Basic

/-! Conditions of atoms, conjunctions, disjunctions and groups as sequences of words.

A condition is a disjunction of conjunctions of atoms and parenthesised conditions. -/

namespace RelationalStore.Condition

open List

structure Signs (W : Type*) where
  lparen : W
  rparen : W
  andWord : W
  orWord : W
  rparen_ne_and : rparen ≠ andWord
  rparen_ne_or : rparen ≠ orWord
  or_ne_and : orWord ≠ andWord

universe u

mutual

inductive Disj (A : Type u) where
  | one (c : Conj A)
  | or (c : Conj A) (d : Disj A)

inductive Conj (A : Type u) where
  | one (f : Factor A)
  | and (f : Factor A) (c : Conj A)

inductive Factor (A : Type u) where
  | atom (a : A)
  | group (d : Disj A)

end

section
variable {W A : Type*} (S : Signs W) (atomWords : A → List W)

mutual

def Disj.words : Disj A → List W
  | .one c => c.words
  | .or c d => c.words ++ S.orWord :: d.words

def Conj.words : Conj A → List W
  | .one f => f.words
  | .and f c => f.words ++ S.andWord :: c.words

def Factor.words : Factor A → List W
  | .atom a => atomWords a
  | .group d => S.lparen :: (d.words ++ [S.rparen])

end

mutual

/-- Every atom has the property. -/
def Disj.All (P : A → Prop) : Disj A → Prop
  | .one c => c.All P
  | .or c d => c.All P ∧ d.All P

def Conj.All (P : A → Prop) : Conj A → Prop
  | .one f => f.All P
  | .and f c => f.All P ∧ c.All P

def Factor.All (P : A → Prop) : Factor A → Prop
  | .atom a => P a
  | .group d => d.All P

end

mutual

def Disj.map {B : Type*} (g : A → B) : Disj A → Disj B
  | .one c => .one (c.map g)
  | .or c d => .or (c.map g) (d.map g)

def Conj.map {B : Type*} (g : A → B) : Conj A → Conj B
  | .one f => .one (f.map g)
  | .and f c => .and (f.map g) (c.map g)

def Factor.map {B : Type*} (g : A → B) : Factor A → Factor B
  | .atom a => .atom (g a)
  | .group d => .group (d.map g)

end

mutual

def Disj.height : Disj A → Nat
  | .one c => c.height + 1
  | .or c d => max c.height d.height + 1

def Conj.height : Conj A → Nat
  | .one f => f.height + 1
  | .and f c => max f.height c.height + 1

def Factor.height : Factor A → Nat
  | .atom _ => 1
  | .group d => d.height + 1

end

end

section
variable {W A : Type*} [DecidableEq W] (S : Signs W) (read : List W → Option (A × List W))

mutual

def parseDisj : Nat → List W → Option (Disj A × List W)
  | 0, _ => none
  | fuel + 1, ws =>
    match parseConj fuel ws with
    | none => none
    | some (c, []) => some (.one c, [])
    | some (c, w :: rest) =>
      if w = S.orWord then
        match parseDisj fuel rest with
        | none => none
        | some (d, rest) => some (.or c d, rest)
      else some (.one c, w :: rest)

def parseConj : Nat → List W → Option (Conj A × List W)
  | 0, _ => none
  | fuel + 1, ws =>
    match parseFactor fuel ws with
    | none => none
    | some (f, []) => some (.one f, [])
    | some (f, w :: rest) =>
      if w = S.andWord then
        match parseConj fuel rest with
        | none => none
        | some (c, rest) => some (.and f c, rest)
      else some (.one f, w :: rest)

def parseFactor : Nat → List W → Option (Factor A × List W)
  | 0, _ => none
  | fuel + 1, ws =>
    match read ws, ws with
    | some (a, rest), _ => some (.atom a, rest)
    | none, [] => none
    | none, w :: rest =>
      if w = S.lparen then
        match parseDisj fuel rest with
        | some (d, w :: rest) => if w = S.rparen then some (.group d, rest) else none
        | some (_, []) | none => none
      else none

end

def parse (ws : List W) : Option (Disj A) :=
  match parseDisj S read (3 * ws.length) ws with
  | some (d, []) => some d
  | some (_, _ :: _) | none => none

end

section
variable {A B : Type*} {g : A → B} {P : A → Prop} {Q : B → Prop}

mutual

theorem Disj.all_map (h : ∀ a, P a → Q (g a)) : ∀ d : Disj A, d.All P → (d.map g).All Q
  | .one c, hd => Conj.all_map h c hd
  | .or c d, hd => ⟨Conj.all_map h c hd.1, Disj.all_map h d hd.2⟩

theorem Conj.all_map (h : ∀ a, P a → Q (g a)) : ∀ c : Conj A, c.All P → (c.map g).All Q
  | .one f, hc => Factor.all_map h f hc
  | .and f c, hc => ⟨Factor.all_map h f hc.1, Conj.all_map h c hc.2⟩

theorem Factor.all_map (h : ∀ a, P a → Q (g a)) : ∀ f : Factor A, f.All P → (f.map g).All Q
  | .atom a, hf => h a hf
  | .group d, hf => Disj.all_map h d hf

end

end

/-! ## Reading back what was written -/

section
variable {W A : Type*} {S : Signs W} {atomWords : A → List W} {P : A → Prop}

mutual

theorem Disj.height_le (hne : ∀ a, P a → atomWords a ≠ []) :
    ∀ d : Disj A, d.All P → d.height ≤ 3 * (d.words S atomWords).length
  | .one c, h => by
    have hc := Conj.height_le hne c h
    simp only [Disj.height, Disj.words]
    omega
  | .or c d, h => by
    have hc := Conj.height_le hne c h.1
    have hd := Disj.height_le hne d h.2
    simp only [Disj.height, Disj.words, length_append, length_cons]
    omega

theorem Conj.height_le (hne : ∀ a, P a → atomWords a ≠ []) :
    ∀ c : Conj A, c.All P → c.height + 1 ≤ 3 * (c.words S atomWords).length
  | .one f, h => by
    have hf := Factor.height_le hne f h
    simp only [Conj.height, Conj.words]
    omega
  | .and f c, h => by
    have hf := Factor.height_le hne f h.1
    have hc := Conj.height_le hne c h.2
    simp only [Conj.height, Conj.words, length_append, length_cons]
    omega

theorem Factor.height_le (hne : ∀ a, P a → atomWords a ≠ []) :
    ∀ f : Factor A, f.All P → f.height + 2 ≤ 3 * (f.words S atomWords).length
  | .atom a, h => by
    have ha := length_pos_iff.mpr (hne a h)
    simp only [Factor.height, Factor.words]
    omega
  | .group d, h => by
    have hd := Disj.height_le hne d h
    simp only [Factor.height, Factor.words, length_cons, length_append]
    omega

end

mutual

theorem Disj.words_head : ∀ d : Disj A, d.All P →
    (∃ a ws, P a ∧ d.words S atomWords = atomWords a ++ ws) ∨
      ∃ ws, d.words S atomWords = S.lparen :: ws
  | .one c, h => Conj.words_head c h
  | .or c d, h => by
    rcases Conj.words_head c h.1 with ⟨a, ws, ha, heq⟩ | ⟨ws, heq⟩
    · exact .inl ⟨a, ws ++ S.orWord :: d.words S atomWords, ha, by simp [Disj.words, heq]⟩
    · exact .inr ⟨ws ++ S.orWord :: d.words S atomWords, by simp [Disj.words, heq]⟩

theorem Conj.words_head : ∀ c : Conj A, c.All P →
    (∃ a ws, P a ∧ c.words S atomWords = atomWords a ++ ws) ∨
      ∃ ws, c.words S atomWords = S.lparen :: ws
  | .one f, h => Factor.words_head f h
  | .and f c, h => by
    rcases Factor.words_head f h.1 with ⟨a, ws, ha, heq⟩ | ⟨ws, heq⟩
    · exact .inl ⟨a, ws ++ S.andWord :: c.words S atomWords, ha, by simp [Conj.words, heq]⟩
    · exact .inr ⟨ws ++ S.andWord :: c.words S atomWords, by simp [Conj.words, heq]⟩

theorem Factor.words_head : ∀ f : Factor A, f.All P →
    (∃ a ws, P a ∧ f.words S atomWords = atomWords a ++ ws) ∨
      ∃ ws, f.words S atomWords = S.lparen :: ws
  | .atom a, h => .inl ⟨a, [], h, (append_nil _).symm⟩
  | .group _, _ => .inr ⟨_, rfl⟩

end

def NotNext (w : W) (rest : List W) : Prop := ∀ rest', rest ≠ w :: rest'

theorem notNext_cons (h : v ≠ w) : NotNext w (v :: rest) := fun _ heq =>
  h (List.cons.inj heq).1

variable {read : List W → Option (A × List W)}

/-- The reader reads each atom off the front of any text, and takes no group for an atom. -/
structure Reads (S : Signs W) (atomWords : A → List W) (P : A → Prop)
    (read : List W → Option (A × List W)) : Prop where
  atom : ∀ a, P a → ∀ rest, read (atomWords a ++ rest) = some (a, rest)
  group : ∀ d : Disj A, d.All P → ∀ rest, read (S.lparen :: (d.words S atomWords ++ rest)) = none

theorem reads_of_lparen
    (hread : ∀ a, P a → ∀ rest, read (atomWords a ++ rest) = some (a, rest))
    (hatom : ∀ a, P a → ∀ rest, read (S.lparen :: (atomWords a ++ rest)) = none)
    (hnest : ∀ rest, read (S.lparen :: S.lparen :: rest) = none) : Reads S atomWords P read where
  atom := hread
  group d h rest := by
    rcases d.words_head h with ⟨a, ws, ha, heq⟩ | ⟨ws, heq⟩
    · rw [heq, append_assoc]
      exact hatom a ha _
    · rw [heq]
      exact hnest _

variable [DecidableEq W] {fuel : Nat} {ws rest rest' : List W}

section
variable {d : Disj A} {c : Conj A} {f : Factor A}

theorem parseDisj_one (h : parseConj S read fuel ws = some (c, rest))
    (hor : NotNext S.orWord rest) :
    parseDisj S read (fuel + 1) ws = some (.one c, rest) := by
  cases rest with
  | nil => simp only [parseDisj, h]
  | cons w rest =>
    have hw : w ≠ S.orWord := fun heq => hor rest (heq ▸ rfl)
    simp only [parseDisj, h, if_neg hw]

theorem parseDisj_or (h : parseConj S read fuel ws = some (c, S.orWord :: rest))
    (h' : parseDisj S read fuel rest = some (d, rest')) :
    parseDisj S read (fuel + 1) ws = some (.or c d, rest') := by
  simp only [parseDisj, h, h', if_true]

theorem parseConj_one (h : parseFactor S read fuel ws = some (f, rest))
    (hand : NotNext S.andWord rest) : parseConj S read (fuel + 1) ws = some (.one f, rest) := by
  cases rest with
  | nil => simp only [parseConj, h]
  | cons w rest =>
    have hw : w ≠ S.andWord := fun heq => hand rest (heq ▸ rfl)
    simp only [parseConj, h, if_neg hw]

theorem parseConj_and (h : parseFactor S read fuel ws = some (f, S.andWord :: rest))
    (h' : parseConj S read fuel rest = some (c, rest')) :
    parseConj S read (fuel + 1) ws = some (.and f c, rest') := by
  simp only [parseConj, h, h', if_true]

theorem parseFactor_group (hread : read (S.lparen :: ws) = none)
    (h : parseDisj S read fuel ws = some (d, S.rparen :: rest)) :
    parseFactor S read (fuel + 1) (S.lparen :: ws) = some (.group d, rest) := by
  simp only [parseFactor, hread, h, if_true]

end

mutual

theorem parseDisj_words (H : Reads S atomWords P read) : ∀ (d : Disj A) (fuel : Nat)
    (rest : List W), d.All P → d.height ≤ fuel → NotNext S.andWord rest → NotNext S.orWord rest →
      parseDisj S read fuel (d.words S atomWords ++ rest) = some (d, rest)
  | .one c, 0, _, _, hfuel, _, _ => nomatch hfuel
  | .or c d, 0, _, _, hfuel, _, _ => nomatch hfuel
  | .one c, fuel + 1, rest, h, hfuel, hand, hor =>
    parseDisj_one (parseConj_words H c fuel rest h (Nat.le_of_succ_le_succ hfuel) hand) hor
  | .or c d, fuel + 1, rest, h, hfuel, hand, hor => by
    have hle : max c.height d.height ≤ fuel := Nat.le_of_succ_le_succ hfuel
    rw [Disj.words, append_assoc, cons_append]
    exact parseDisj_or
      (parseConj_words H c fuel _ h.1 (Nat.max_le.mp hle).1 (notNext_cons S.or_ne_and))
      (parseDisj_words H d fuel rest h.2 (Nat.max_le.mp hle).2 hand hor)

theorem parseConj_words (H : Reads S atomWords P read) : ∀ (c : Conj A) (fuel : Nat)
    (rest : List W), c.All P → c.height ≤ fuel → NotNext S.andWord rest →
      parseConj S read fuel (c.words S atomWords ++ rest) = some (c, rest)
  | .one f, 0, _, _, hfuel, _ => nomatch hfuel
  | .and f c, 0, _, _, hfuel, _ => nomatch hfuel
  | .one f, fuel + 1, rest, h, hfuel, hand =>
    parseConj_one (parseFactor_words H f fuel rest h (Nat.le_of_succ_le_succ hfuel)) hand
  | .and f c, fuel + 1, rest, h, hfuel, hand => by
    have hle : max f.height c.height ≤ fuel := Nat.le_of_succ_le_succ hfuel
    rw [Conj.words, append_assoc, cons_append]
    exact parseConj_and (parseFactor_words H f fuel _ h.1 (Nat.max_le.mp hle).1)
      (parseConj_words H c fuel rest h.2 (Nat.max_le.mp hle).2 hand)

theorem parseFactor_words (H : Reads S atomWords P read) : ∀ (f : Factor A) (fuel : Nat)
    (rest : List W), f.All P → f.height ≤ fuel →
      parseFactor S read fuel (f.words S atomWords ++ rest) = some (f, rest)
  | .atom a, 0, _, _, hfuel => nomatch hfuel
  | .group d, 0, _, _, hfuel => nomatch hfuel
  | .atom a, fuel + 1, rest, h, _ => by
    simp only [parseFactor, Factor.words, H.atom a h]
  | .group d, fuel + 1, rest, h, hfuel => by
    rw [Factor.words, cons_append, append_assoc, singleton_append]
    exact parseFactor_group (H.group d h _)
      (parseDisj_words H d fuel _ h (Nat.le_of_succ_le_succ hfuel) (notNext_cons S.rparen_ne_and)
        (notNext_cons S.rparen_ne_or))

end

theorem parse_words (H : Reads S atomWords P read) (hne : ∀ a, P a → atomWords a ≠ [])
    (d : Disj A) (h : d.All P) : parse S read (d.words S atomWords) = some d := by
  have hend (w : W) : NotNext w [] := fun _ heq => nomatch heq
  have hheight : d.height ≤ 3 * (d.words S atomWords).length := d.height_le hne h
  have hparse := parseDisj_words H d _ [] h hheight (hend _) (hend _)
  rw [append_nil] at hparse
  simp only [parse, hparse]

end

/-! ## The language, and its beginnings -/

section
variable {W : Type*} (S : Signs W) (Atom : List W → Prop)

/-- Atoms and groups joined by single connectives. -/
inductive WellFormed : List W → Prop
  | atom {ws : List W} : Atom ws → WellFormed ws
  | group {ws : List W} : WellFormed ws → WellFormed (S.lparen :: (ws ++ [S.rparen]))
  | and {ws ws' : List W} : WellFormed ws → WellFormed ws' → WellFormed (ws ++ S.andWord :: ws')
  | or {ws ws' : List W} : WellFormed ws → WellFormed ws' → WellFormed (ws ++ S.orWord :: ws')

variable {S Atom} in
theorem WellFormed.atom_or_mem (h : WellFormed S Atom ws) :
    Atom ws ∨ S.lparen ∈ ws ∨ S.andWord ∈ ws ∨ S.orWord ∈ ws := by
  cases h with
  | atom h => exact .inl h
  | group _ => exact .inr (.inl mem_cons_self)
  | and _ _ => exact .inr (.inr (.inl (mem_append_right _ mem_cons_self)))
  | or _ _ => exact .inr (.inr (.inr (mem_append_right _ mem_cons_self)))

inductive Lead : List W → Prop
  | nil : Lead []
  | and {ws : List W} : WellFormed S Atom ws → Lead (ws ++ [S.andWord])
  | or {ws : List W} : WellFormed S Atom ws → Lead (ws ++ [S.orWord])

/-- A text up to the last of `n` groups that are open. -/
inductive Opened : Nat → List W → Prop
  | none : Opened 0 []
  | group {n : Nat} {ws lead : List W} :
    Opened n ws → Lead S Atom lead → Opened (n + 1) (ws ++ lead ++ [S.lparen])

def Ready (n : Nat) (ws : List W) : Prop :=
  ∃ ws' lead, Opened S Atom n ws' ∧ Lead S Atom lead ∧ ws = ws' ++ lead

def Complete (n : Nat) (ws : List W) : Prop :=
  ∃ ws' c, Opened S Atom n ws' ∧ WellFormed S Atom c ∧ ws = ws' ++ c

end

section
variable {W : Type*} {S : Signs W} {Atom : List W → Prop} {n : Nat} {ws ws' : List W}

theorem ready_nil : Ready S Atom 0 [] := ⟨[], [], .none, .nil, rfl⟩

theorem Lead.operand (h : Lead S Atom ws) (hop : WellFormed S Atom ws') :
    WellFormed S Atom (ws ++ ws') := by
  cases h with
  | nil => exact hop
  | and h => simpa using h.and hop
  | or h => simpa using h.or hop

theorem Ready.operand (h : Ready S Atom n ws) (hop : WellFormed S Atom ws') :
    Complete S Atom n (ws ++ ws') := by
  obtain ⟨before, lead, hopened, hlead, rfl⟩ := h
  exact ⟨before, lead ++ ws', hopened, hlead.operand hop, append_assoc _ _ _⟩

theorem Complete.and (h : Complete S Atom n ws) : Ready S Atom n (ws ++ [S.andWord]) := by
  obtain ⟨before, c, hopened, hc, rfl⟩ := h
  exact ⟨before, c ++ [S.andWord], hopened, .and hc, append_assoc _ _ _⟩

theorem Complete.or (h : Complete S Atom n ws) : Ready S Atom n (ws ++ [S.orWord]) := by
  obtain ⟨before, c, hopened, hc, rfl⟩ := h
  exact ⟨before, c ++ [S.orWord], hopened, .or hc, append_assoc _ _ _⟩

theorem Ready.lparen (h : Ready S Atom n ws) : Ready S Atom (n + 1) (ws ++ [S.lparen]) := by
  obtain ⟨before, lead, hopened, hlead, rfl⟩ := h
  exact ⟨before ++ lead ++ [S.lparen], [], .group hopened hlead, .nil, (append_nil _).symm⟩

theorem Complete.rparen (h : Complete S Atom (n + 1) ws) :
    Complete S Atom n (ws ++ [S.rparen]) := by
  obtain ⟨_, c, hopened, hc, rfl⟩ := h
  cases hopened with
  | @group _ before lead hbefore hlead =>
    have hready : Ready S Atom n (before ++ lead) := ⟨before, lead, hbefore, hlead, rfl⟩
    simpa using hready.operand hc.group

theorem complete_zero_iff : Complete S Atom 0 ws ↔ WellFormed S Atom ws := by
  constructor
  · rintro ⟨_, c, hopened, hc, rfl⟩
    cases hopened with
    | none => exact hc
  · exact fun h => ⟨[], ws, .none, h, rfl⟩

end

end RelationalStore.Condition
