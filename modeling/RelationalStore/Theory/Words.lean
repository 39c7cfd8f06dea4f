import Mathlib.Data.List.Chain

/-! The words of a text.

Blanks separate words; parentheses and commas are words of their own. -/

namespace RelationalStore

open List

def isMark (c : Char) : Bool := c = '(' ∨ c = ')' ∨ c = ','

def isSeparator (c : Char) : Bool := c = ' ' ∨ isMark c

def flush (acc : List Char) : List String := if acc = [] then [] else [String.ofList acc]

def wordsFrom (acc : List Char) : List Char → List String
  | [] => flush acc
  | c :: cs =>
    if c = ' ' then flush acc ++ wordsFrom [] cs
    else if isMark c then flush acc ++ String.singleton c :: wordsFrom [] cs
    else wordsFrom (acc ++ [c]) cs

variable (s : String)

def words : List String := wordsFrom [] s.toList

def EndsApart : Prop := ∀ c ∈ s.toList.getLast?, isSeparator c

def StartsApart : Prop := ∀ c ∈ s.toList.head?, isSeparator c

-- stated by the last character, so that no instance that runs through all characters is found
instance : Decidable (EndsApart s) :=
  decidable_of_iff (s.toList.getLast?.all isSeparator) (Option.all_eq_true _ _)

instance : Decidable (StartsApart s) :=
  decidable_of_iff (s.toList.head?.all isSeparator) (Option.all_eq_true _ _)

section
variable {acc cs cs' : List Char} {c : Char}

@[simp] theorem flush_nil : flush [] = [] := rfl

theorem wordsFrom_of_separator (h : isSeparator c) :
    wordsFrom acc (c :: cs) = flush acc ++ wordsFrom [] (c :: cs) := by
  by_cases hblank : c = ' '
  · simp [wordsFrom, hblank]
  · have hmark : isMark c := by simpa [isSeparator, hblank] using h
    simp [wordsFrom, hblank, hmark]

theorem wordsFrom_of_not_separator (h : isSeparator c = false) :
    wordsFrom acc (c :: cs) = wordsFrom (acc ++ [c]) cs := by
  simp only [isSeparator, decide_eq_false_iff_not, not_or, Bool.not_eq_true] at h
  simp [wordsFrom, h.1, h.2]

theorem wordsFrom_separator_cons (acc cs : List Char) (h : isSeparator c) :
    wordsFrom acc (c :: cs) = wordsFrom acc [c] ++ wordsFrom [] cs := by
  by_cases hblank : c = ' '
  · simp [wordsFrom, hblank]
  · have hmark : isMark c := by simpa [isSeparator, hblank] using h
    simp [wordsFrom, hblank, hmark]

theorem wordsFrom_append_of_not_separator (h : ∀ c ∈ cs, isSeparator c = false) :
    wordsFrom acc (cs ++ cs') = wordsFrom (acc ++ cs) cs' := by
  induction cs generalizing acc with
  | nil => rw [nil_append, append_nil]
  | cons c cs ih =>
    rw [cons_append, wordsFrom_of_not_separator (h c mem_cons_self),
      ih fun d hd => h d (mem_cons_of_mem _ hd), append_assoc, singleton_append]

theorem wordsFrom_append_of_head (h : ∀ c ∈ cs'.head?, isSeparator c) :
    wordsFrom acc (cs ++ cs') = wordsFrom acc cs ++ wordsFrom [] cs' := by
  induction cs generalizing acc with
  | nil =>
    cases cs' with
    | nil => simp [wordsFrom]
    | cons c cs' => exact wordsFrom_of_separator (h c rfl)
  | cons c cs ih =>
    cases hsep : isSeparator c with
    | true =>
      rw [cons_append, wordsFrom_separator_cons acc (cs ++ cs') hsep, ih,
        wordsFrom_separator_cons acc cs hsep, append_assoc]
    | false =>
      rw [cons_append, wordsFrom_of_not_separator hsep, ih, wordsFrom_of_not_separator hsep]

theorem wordsFrom_append_of_getLast (hne : cs ≠ [])
    (h : ∀ c ∈ cs.getLast?, isSeparator c) :
    wordsFrom acc (cs ++ cs') = wordsFrom acc cs ++ wordsFrom [] cs' := by
  induction cs generalizing acc with
  | nil => exact absurd rfl hne
  | cons c cs ih =>
    cases cs with
    | nil =>
      exact wordsFrom_separator_cons acc cs' (h c rfl)
    | cons d cs =>
      have hlast : ∀ c ∈ (d :: cs).getLast?, isSeparator c := by
        simpa [getLast?_cons_cons] using h
      cases hsep : isSeparator c with
      | true =>
        rw [cons_append, wordsFrom_separator_cons acc (d :: cs ++ cs') hsep,
          ih (cons_ne_nil _ _) hlast, wordsFrom_separator_cons acc (d :: cs) hsep,
          append_assoc]
      | false =>
        rw [cons_append, wordsFrom_of_not_separator hsep, ih (cons_ne_nil _ _) hlast,
          wordsFrom_of_not_separator hsep]

theorem flatten_wordsFrom (h : ' ' ∉ cs) :
    ((wordsFrom acc cs).map String.toList).flatten = acc ++ cs := by
  have hflush (acc : List Char) : ((flush acc).map String.toList).flatten = acc := by
    by_cases hnil : acc = [] <;> simp [flush, hnil]
  induction cs generalizing acc with
  | nil => rw [wordsFrom, hflush, append_nil]
  | cons c cs ih =>
    obtain ⟨hc, hcs⟩ : ' ' ≠ c ∧ ' ' ∉ cs := by simpa using h
    rw [wordsFrom, if_neg hc.symm]
    split
    · rw [map_append, flatten_append, hflush, map_cons, flatten_cons, ih hcs]
      simp
    · rw [ih hcs, append_assoc, singleton_append]

theorem isChain_wordsFrom (h : ∀ c ∈ cs, isSeparator c → c = ',') :
    (wordsFrom acc cs).IsChain fun a b => a = "," ∨ b = "," := by
  have hflush (acc : List Char) : (flush acc).IsChain fun a b => a = "," ∨ b = "," := by
    by_cases hnil : acc = [] <;> simp [flush, hnil]
  induction cs generalizing acc with
  | nil => exact hflush acc
  | cons c cs ih =>
    obtain ⟨hc, hcs⟩ := forall_mem_cons.mp h
    cases hsep : isSeparator c with
    | true =>
      obtain rfl := hc hsep
      have hwords : wordsFrom acc (',' :: cs) = flush acc ++ "," :: wordsFrom [] cs := by
        rw [wordsFrom, if_neg (by decide), if_pos (by decide)]
        rfl
      rw [hwords, isChain_append, isChain_cons]
      exact ⟨hflush acc, ⟨fun _ _ => .inl rfl, ih hcs⟩, fun _ _ b hb => .inr (by cases hb; rfl)⟩
    | false =>
      rw [wordsFrom_of_not_separator hsep]
      exact ih hcs

end

section
variable {s t : String}

theorem words_append_of_endsApart (h : EndsApart s) : words (s ++ t) = words s ++ words t := by
  unfold words
  rw [String.toList_append]
  by_cases hnil : s.toList = []
  · simp [hnil, wordsFrom]
  · exact wordsFrom_append_of_getLast hnil h

theorem words_append_of_startsApart (h : StartsApart t) : words (s ++ t) = words s ++ words t := by
  unfold words
  rw [String.toList_append]
  exact wordsFrom_append_of_head h

theorem endsApart_append (h : EndsApart t) (hne : t ≠ "") : EndsApart (s ++ t) := by
  intro c hc
  have hnil : t.toList ≠ [] := fun hnil => hne (String.toList_eq_nil_iff.mp hnil)
  rw [String.toList_append, getLast?_append_of_ne_nil _ hnil] at hc
  exact h c hc

theorem startsApart_append (h : StartsApart s) (hne : s ≠ "") : StartsApart (s ++ t) := by
  intro c hc
  have hnil : s.toList ≠ [] := fun hnil => hne (String.toList_eq_nil_iff.mp hnil)
  rw [String.toList_append, head?_append_of_ne_nil _ hnil] at hc
  exact h c hc

theorem eq_of_words_eq (hs : ' ' ∉ s.toList) (ht : ' ' ∉ t.toList) (h : words s = words t) :
    s = t := by
  have hchars := congrArg (fun ws => (ws.map String.toList).flatten) h
  simp only [words, flatten_wordsFrom hs, flatten_wordsFrom ht, nil_append] at hchars
  exact String.toList_inj.mp hchars

theorem words_name_append (hname : ∀ c ∈ s.toList, isSeparator c = false) (hne : s ≠ "")
    (h : StartsApart t) : words (s ++ t) = s :: words t := by
  rw [words_append_of_startsApart h]
  have hnil : s.toList ≠ [] := fun hnil => hne (String.toList_eq_nil_iff.mp hnil)
  have hword : wordsFrom [] (s.toList ++ []) = wordsFrom ([] ++ s.toList) [] :=
    wordsFrom_append_of_not_separator hname
  rw [append_nil, nil_append] at hword
  simp [words, hword, wordsFrom, flush, hnil]

end

end RelationalStore
