import Mathlib.Data.List.Chain
import Mathlib.Data.List.Infix

/-! Clauses that begin with a keyword.

A statement is a sequence of clauses, some of which may be missing. -/

namespace RelationalStore.Clauses

open List

variable {W : Type*} {K : W → Prop} {ws ws' rest rest' : List W}

def clause (k : W) : Option (List W) → List W
  | none => []
  | some ws => k :: ws

def Begins (K : W → Prop) (ws : List W) : Prop := ∀ w ∈ ws.head?, K w

def Free (K : W → Prop) (ws : List W) : Prop := ∀ w ∈ ws, ¬ K w

instance [DecidablePred K] (ws : List W) : Decidable (Free K ws) :=
  inferInstanceAs (Decidable (∀ w ∈ ws, ¬ K w))

theorem begins_nil : Begins K [] := nofun

theorem begins_cons (h : K w) : Begins K (w :: ws) := by
  rintro _ ⟨⟩
  exact h

theorem Begins.clause_append (h : Begins (· ∈ ks) rest) (o : Option (List W)) :
    Begins (· ∈ k :: ks) (clause k o ++ rest) := by
  cases o with
  | none => exact fun w hw => mem_cons_of_mem k (h w hw)
  | some ws => exact begins_cons mem_cons_self

theorem free_append : Free K (ws ++ ws') ↔ Free K ws ∧ Free K ws' := forall_mem_append

theorem free_cons : Free K (w :: ws) ↔ ¬ K w ∧ Free K ws := forall_mem_cons

theorem append_cancel (hws : Free K ws) (hws' : Free K ws') (hrest : Begins K rest)
    (hrest' : Begins K rest') (h : ws ++ rest = ws' ++ rest') : ws = ws' ∧ rest = rest' := by
  induction ws generalizing ws' with
  | nil =>
    cases ws' with
    | nil => exact ⟨rfl, h⟩
    | cons w ws' =>
      obtain rfl : rest = w :: (ws' ++ rest') := h
      exact absurd (hrest w rfl) (free_cons.mp hws').1
  | cons w ws ih =>
    cases ws' with
    | nil =>
      obtain rfl : rest' = w :: (ws ++ rest) := h.symm
      exact absurd (hrest' w rfl) (free_cons.mp hws).1
    | cons w' ws' =>
      obtain ⟨rfl, htail⟩ := List.cons.inj h
      obtain ⟨rfl, hrests⟩ := ih (free_cons.mp hws).2 (free_cons.mp hws').2 htail
      exact ⟨rfl, hrests⟩

theorem clause_cancel {ks : List W} (hks : ∀ w ∈ ks, K w) (hk : k ∉ ks) (ho : ∀ ws ∈ o, Free K ws)
    (ho' : ∀ ws ∈ o', Free K ws) (hrest : Begins (· ∈ ks) rest) (hrest' : Begins (· ∈ ks) rest')
    (h : clause k o ++ rest = clause k o' ++ rest') : o = o' ∧ rest = rest' := by
  cases o with
  | none =>
    cases o' with
    | none => exact ⟨rfl, h⟩
    | some ws' => exact absurd (hrest k (congrArg List.head? h)) hk
  | some ws =>
    cases o' with
    | none => exact absurd (hrest' k (congrArg List.head? h).symm) hk
    | some ws' =>
      obtain ⟨rfl, hrests⟩ := append_cancel (ho ws rfl) (ho' ws' rfl)
        (fun w hw => hks w (hrest w hw)) (fun w hw => hks w (hrest' w hw)) (List.cons.inj h).2
      exact ⟨rfl, hrests⟩

/-! ## Lists of items -/

theorem head?_intersperse (sep item : W) (items : List W) :
    ((item :: items).intersperse sep).head? = some item := by
  cases items <;> rfl

theorem getLast?_intersperse (sep : W) (items : List W) :
    (items.intersperse sep).getLast? = items.getLast? := by
  induction items with
  | nil => rfl
  | cons item items ih =>
    cases items with
    | nil => rfl
    | cons item' items =>
      rw [intersperse_cons_cons, getLast?_cons_cons, getLast?_cons_of_ne_nil, ih,
        getLast?_cons_cons]
      cases items <;> simp

theorem mem_intersperse {items : List W} (h : w ∈ items.intersperse sep) : w = sep ∨ w ∈ items := by
  induction items with
  | nil => exact nomatch h
  | cons item items ih =>
    cases items with
    | nil => exact .inr h
    | cons item' items =>
      rw [intersperse_cons_cons, mem_cons, mem_cons] at h
      rcases h with rfl | rfl | h
      · exact .inr mem_cons_self
      · exact .inl rfl
      · exact (ih h).imp id (mem_cons_of_mem _)

theorem intersperse_cancel (hsep : ¬ K sep) (hitems : Free K items) (hne : items ≠ [])
    (hapart : sep ∉ items) (hws : ws.IsChain fun a b => a = sep ∨ b = sep) (hrest : Begins K rest)
    (hrest' : Begins K rest') (h : ws ++ rest = items.intersperse sep ++ rest') :
    ws = items.intersperse sep ∧ rest = rest' := by
  have hfree : Free K (items.intersperse sep) := by
    intro w hw
    rcases mem_intersperse hw with rfl | hw
    · exact hsep
    · exact hitems w hw
  rcases append_eq_append_iff.mp h with ⟨more, hmore, rfl⟩ | ⟨more, rfl, hmore⟩
  · cases more with
    | nil => exact ⟨by rw [hmore, append_nil], rfl⟩
    | cons w more =>
      refine absurd (hrest w rfl) (hfree w ?_)
      rw [hmore]
      exact mem_append_right _ mem_cons_self
  · cases more with
    | nil => exact ⟨append_nil _, hmore.symm⟩
    | cons w more =>
      have hkey : K w := hrest' w (by rw [hmore]; rfl)
      obtain ⟨last, hlast⟩ := Option.ne_none_iff_exists'.mp
        (mt getLast?_eq_none_iff.mp hne)
      have hjoint := (isChain_append.mp hws).2.2 last
        (by rw [getLast?_intersperse]; exact hlast) w rfl
      rcases hjoint with rfl | rfl
      · exact absurd (mem_of_getLast? hlast) hapart
      · exact absurd hkey hsep

end RelationalStore.Clauses
