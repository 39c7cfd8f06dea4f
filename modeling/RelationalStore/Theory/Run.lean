import Mathlib.Data.List.Basic

/-! Runs of a deterministic machine.

A machine is a step function from a state and a call to an answer and the next state. -/

namespace RelationalStore

open List

structure Transition (σ ι ο : Type _) where
  pre : σ
  call : ι
  ret : ο
  post : σ

section
variable {σ ι ο : Type _} (step : σ → ι → ο × σ)

def transition (s : σ) (c : ι) : Transition σ ι ο := ⟨s, c, (step s c).1, (step s c).2⟩

def trace : σ → List ι → List (Transition σ ι ο)
  | _, [] => []
  | s, c :: cs => transition step s c :: trace (step s c).2 cs

def final : σ → List ι → σ
  | s, [] => s
  | s, c :: cs => final (step s c).2 cs

inductive Follows (accepted : ο → Prop) : σ → List ι → List ι → Prop where
  | nil (s : σ) : Follows accepted s [] []
  | next {s : σ} {c : ι} {script cs : List ι} : accepted (step s c).1 →
    Follows accepted (step s c).2 script cs → Follows accepted s (c :: script) (c :: cs)
  | refused {s : σ} {c : ι} (script cs : List ι) : ¬ accepted (step s c).1 →
    Follows accepted s (c :: script) (c :: cs)

end

section
variable {σ ι ο : Type _} {step : σ → ι → ο × σ} {I : σ → Prop} {G : σ → ι → Prop}
  {P : Transition σ ι ο → Prop} {s : σ} {cs : List ι}

variable {t : Transition σ ι ο}

theorem call_mem_of_mem_trace (h : t ∈ trace step s cs) : t.call ∈ cs := by
  induction cs generalizing s with
  | nil => exact nomatch h
  | cons c cs ih =>
    rcases mem_cons.mp h with rfl | h
    · exact mem_cons_self
    · exact mem_cons_of_mem _ (ih h)

theorem post_of_mem_trace (h : t ∈ trace step s cs) :
    t.post = (step t.pre t.call).2 := by
  induction cs generalizing s with
  | nil => exact nomatch h
  | cons c cs ih =>
    rcases mem_cons.mp h with rfl | h
    · rfl
    · exact ih h

theorem ret_of_mem_trace (h : t ∈ trace step s cs) :
    t.ret = (step t.pre t.call).1 := by
  induction cs generalizing s with
  | nil => exact nomatch h
  | cons c cs ih =>
    rcases mem_cons.mp h with rfl | h
    · rfl
    · exact ih h

theorem trace_forall (hstep : ∀ s c, I s → G s c → I (step s c).2 ∧ P (transition step s c))
    (hs : I s) (hguard : ∀ t ∈ trace step s cs, G t.pre t.call) :
    ∀ t ∈ trace step s cs, P t := by
  induction cs generalizing s with
  | nil => exact fun _ h => nomatch h
  | cons c cs ih =>
    obtain ⟨hnext, hP⟩ := hstep s c hs (hguard _ mem_cons_self)
    intro t ht
    rcases mem_cons.mp ht with rfl | ht
    · exact hP
    · exact ih hnext (fun t ht => hguard t (mem_cons_of_mem _ ht)) t ht

theorem trace_forall_iff_of {H : σ → ι → Prop}
    (hinv : ∀ s c, I s → H s c → G s c → I (step s c).2)
    (hiff : ∀ s c, I s → H s c → (P (transition step s c) ↔ G s c)) (hs : I s)
    (hall : ∀ t ∈ trace step s cs, H t.pre t.call) :
    (∀ t ∈ trace step s cs, P t) ↔ ∀ t ∈ trace step s cs, G t.pre t.call := by
  induction cs generalizing s with
  | nil => exact ⟨nofun, nofun⟩
  | cons c cs ih =>
    obtain ⟨hc, hrest⟩ := forall_mem_cons.mp hall
    rw [trace, forall_mem_cons, forall_mem_cons, hiff s c hs hc]
    exact and_congr_right fun hg => ih (hinv s c hs hc hg) hrest

theorem trace_forall_iff (hinv : ∀ s c, I s → G s c → I (step s c).2)
    (hiff : ∀ s c, I s → (P (transition step s c) ↔ G s c)) (hs : I s) :
    (∀ t ∈ trace step s cs, P t) ↔ ∀ t ∈ trace step s cs, G t.pre t.call :=
  trace_forall_iff_of (H := fun _ _ => True) (fun s c h _ => hinv s c h)
    (fun s c h _ => hiff s c h) hs fun _ _ => trivial

theorem final_inv (hstep : ∀ s c, I s → G s c → I (step s c).2) (hs : I s)
    (hguard : ∀ t ∈ trace step s cs, G t.pre t.call) : I (final step s cs) := by
  induction cs generalizing s with
  | nil => exact hs
  | cons c cs ih =>
    exact ih (hstep s c hs (hguard _ mem_cons_self))
      fun t ht => hguard t (mem_cons_of_mem _ ht)

theorem trace_append (s : σ) (cs cs' : List ι) :
    trace step s (cs ++ cs') = trace step s cs ++ trace step (final step s cs) cs' := by
  induction cs generalizing s with
  | nil => rfl
  | cons c cs ih => exact congrArg (transition step s c :: ·) (ih (step s c).2)

theorem final_append (s : σ) (cs cs' : List ι) :
    final step s (cs ++ cs') = final step (final step s cs) cs' := by
  induction cs generalizing s with
  | nil => rfl
  | cons c cs ih => exact ih (step s c).2

theorem final_of_post (hstep : ∀ s c, I s → I (step s c).2)
    (ht : t ∈ trace step s cs) (h : I t.post) : I (final step s cs) := by
  induction cs generalizing s with
  | nil => exact nomatch ht
  | cons c cs ih =>
    rcases mem_cons.mp ht with rfl | ht
    · change I (final step (step s c).2 cs)
      exact final_inv (G := fun _ _ => True) (fun s c hs _ => hstep s c hs) h fun _ _ => trivial
    · exact ih ht

theorem final_iff_exists (hstep : ∀ s c, I (step s c).2 ↔ I s ∨ P (transition step s c)) (s : σ)
    (cs : List ι) : I (final step s cs) ↔ I s ∨ ∃ t ∈ trace step s cs, P t := by
  induction cs generalizing s with
  | nil => simp [final, trace]
  | cons c cs ih =>
    rw [final, ih, hstep, or_assoc, trace]
    simp only [mem_cons, exists_eq_or_imp]

theorem Follows.completed_or_refused (h : Follows step accepted s script cs) :
    (cs = script ∧ ∀ t ∈ trace step s script, accepted t.ret) ∨
      ∃ t ∈ trace step s script, t ∈ trace step s cs ∧ ¬ accepted t.ret := by
  induction h with
  | nil s => exact .inl ⟨rfl, fun _ ht => nomatch ht⟩
  | @next s c script cs haccepted _ ih =>
    rcases ih with ⟨rfl, hall⟩ | ⟨t, hscript, hrun, hrefused⟩
    · exact .inl ⟨rfl, forall_mem_cons.mpr ⟨haccepted, hall⟩⟩
    · exact .inr ⟨t, mem_cons_of_mem _ hscript, mem_cons_of_mem _ hrun, hrefused⟩
  | @refused s c script cs hrefused =>
    exact .inr ⟨transition step s c, mem_cons_self, mem_cons_self, hrefused⟩

end

end RelationalStore
