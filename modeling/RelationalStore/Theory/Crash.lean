import RelationalStore.Theory.Run

/-! Programs over a persistent state, whose process may die between two steps.

`Durable σ α` records the state after each of its steps, so that a crash cuts the record. -/

namespace RelationalStore

def Durable (σ α : Type _) := σ → α × σ × List σ

namespace Durable
variable {σ α β : Type _} {m : Durable σ α} {s : σ}

def answer (m : Durable σ α) (s : σ) : α := (m s).1

def leaves (m : Durable σ α) (s : σ) : σ := (m s).2.1

def visits (m : Durable σ α) (s : σ) : List σ := (m s).2.2

instance : Monad (Durable σ) where
  pure a := fun s => (a, s, [])
  bind m f := fun s =>
    ((f (m.answer s)).answer (m.leaves s), (f (m.answer s)).leaves (m.leaves s),
      m.visits s ++ (f (m.answer s)).visits (m.leaves s))

def step (f : σ → α × σ) : Durable σ α := fun s => ((f s).1, (f s).2, [(f s).2])

def look (f : σ → α) : Durable σ α := fun s => (f s, s, [])

def cut (m : Durable σ α) (crash : Option Nat) : Durable σ (Option α) := fun s =>
  match crash with
  | none => (some (m.answer s), m.leaves s, m.visits s)
  | some k => (none, ((m.visits s).take k).getLast?.getD s, (m.visits s).take k)

@[simp] theorem answer_pure : answer (pure a : Durable σ α) s = a := rfl

@[simp] theorem leaves_pure : leaves (pure a : Durable σ α) s = s := rfl

@[simp] theorem answer_bind :
    (m >>= f).answer s = (f (m.answer s)).answer (m.leaves s) := rfl

@[simp] theorem leaves_bind :
    (m >>= f).leaves s = (f (m.answer s)).leaves (m.leaves s) := rfl

@[simp] theorem answer_step : (step f).answer s = (f s).1 := rfl

@[simp] theorem leaves_step : (step f).leaves s = (f s).2 := rfl

@[simp] theorem answer_look : (look f).answer s = f s := rfl

@[simp] theorem leaves_look : (look f).leaves s = s := rfl

def Triple (C P : σ → Prop) (m : Durable σ α) (Q : α → σ → Prop) : Prop :=
  ∀ s, P s → Q (m.answer s) (m.leaves s) ∧ ∀ t ∈ m.visits s, C t

namespace Triple
variable {C C' P P' : σ → Prop} {Q Q' : α → σ → Prop} {R : β → σ → Prop}

protected theorem pure (h : ∀ s, P s → Q a s) : Triple C P (pure a) Q :=
  fun s hs => ⟨h s hs, fun _ ht => nomatch ht⟩

protected theorem bind (hm : Triple C P m Q) (hf : ∀ a, Triple C (Q a) (f a) R) :
    Triple C P (m >>= f) R := by
  intro s hs
  obtain ⟨hQ, hC⟩ := hm s hs
  obtain ⟨hR, hC'⟩ := hf _ _ hQ
  refine ⟨hR, fun t ht => ?_⟩
  rcases List.mem_append.mp ht with ht | ht
  · exact hC t ht
  · exact hC' t ht

protected theorem step (h : ∀ s, P s → Q (f s).1 (f s).2 ∧ C (f s).2) : Triple C P (step f) Q := by
  intro s hs
  refine ⟨(h s hs).1, fun t ht => ?_⟩
  rw [List.mem_singleton.mp ht]
  exact (h s hs).2

protected theorem look (h : ∀ s, P s → Q (f s) s) : Triple C P (look f) Q :=
  fun s hs => ⟨h s hs, fun _ ht => nomatch ht⟩

theorem conseq (h : Triple C' P' m Q') (hC : ∀ s, C' s → C s) (hP : ∀ s, P s → P' s)
    (hQ : ∀ a s, Q' a s → Q a s) : Triple C P m Q :=
  fun s hs => ⟨hQ _ _ (h s (hP s hs)).1, fun t ht => hC t ((h s (hP s hs)).2 t ht)⟩

theorem exists_pre {ι : Sort _} {P' : ι → σ → Prop} (hP : ∀ s, P s → ∃ i, P' i s)
    (h : ∀ i, Triple C (P' i) m Q) : Triple C P m Q := by
  intro s hs
  obtain ⟨i, hi⟩ := hP s hs
  exact h i s hi

theorem ite [Decidable b] (hpos : b → Triple C P m Q) (hneg : ¬ b → Triple C P m' Q) :
    Triple C P (if b then m else m') Q := by
  split
  next hb => exact hpos hb
  next hb => exact hneg hb

theorem cut (h : Triple C P m fun _ => C) (hP : ∀ s, P s → C s) (crash : Option Nat) :
    Triple C P (m.cut crash) fun _ => C := by
  intro s hs
  obtain ⟨hend, hall⟩ := h s hs
  cases crash with
  | none => exact ⟨hend, hall⟩
  | some k =>
    have htake : ∀ t ∈ (m.visits s).take k, C t := fun t ht => hall t (List.mem_of_mem_take ht)
    refine ⟨?_, htake⟩
    cases hlast : ((m.visits s).take k).getLast? with
    | none => simpa [Durable.cut, leaves, hlast] using hP s hs
    | some t => simpa [Durable.cut, leaves, hlast] using htake t (List.mem_of_getLast? hlast)

end Triple

def session {ι : Type _} (prog : ι → Durable σ α) (s : σ) (c : ι × Option Nat) :
    (Option α × List σ) × σ :=
  ((((prog c.1).cut c.2).answer s, ((prog c.1).cut c.2).visits s), ((prog c.1).cut c.2).leaves s)

theorem session_forall {G : ι → Prop} (h : ∀ c, G c → Triple C C (prog c) fun _ => C) (hs : C s)
    (hG : ∀ c ∈ cs, G c.1) : ∀ t ∈ trace (session prog) s cs, (∀ u ∈ t.ret.2, C u) ∧ C t.post := by
  refine trace_forall (I := C) (G := fun _ c => G c.1) (fun s c hs hc => ?_) hs
    fun t ht => hG _ (call_mem_of_mem_trace ht)
  obtain ⟨hend, hall⟩ := (h c.1 hc).cut (fun _ h => h) c.2 s hs
  exact ⟨hend, hall, hend⟩

end Durable

end RelationalStore
