import Mathlib.Data.String.Basic

/-! Writing objects and reading them back.

A marshaller writes an object as a list of items and reads an object from the front of a list. -/

namespace RelationalStore

open List

structure Marshaller (β α : Type) where
  marshal : α → List β
  unmarshal : List β → Option (α × List β)

namespace Marshaller
variable {β α γ : Type} {m : Marshaller β α} {m' : Marshaller β γ} {a b c : α}

def Reads (m : Marshaller β α) (a b : α) : Prop :=
  ∀ rest, m.unmarshal (m.marshal a ++ rest) = some (b, rest)

/-- An object is read back as it was. -/
def RoundTrips (m : Marshaller β α) (a : α) : Prop := m.Reads a a

theorem Reads.unique (h : m.Reads a b) (h' : m.Reads a c) : b = c := by
  have heq := (h []).symm.trans (h' [])
  exact congrArg Prod.fst (Option.some.inj heq)

theorem Reads.roundTrips_iff (h : m.Reads a b) : m.RoundTrips a ↔ b = a :=
  ⟨fun h' => h.unique h', fun heq => heq ▸ h⟩

def seq (m : Marshaller β α) (m' : Marshaller β γ) : Marshaller β (α × γ) where
  marshal p := m.marshal p.1 ++ m'.marshal p.2
  unmarshal l := (m.unmarshal l).bind fun (a, l) => (m'.unmarshal l).map fun (c, l) => ((a, c), l)

theorem Reads.seq (h : m.Reads p.1 q.1) (h' : m'.Reads p.2 q.2) : (m.seq m').Reads p q := by
  intro rest
  simp only [Marshaller.seq, append_assoc]
  rw [h, Option.bind_some, h']
  rfl

def via (m : Marshaller β α) (toParts : γ → α) (ofParts : α → γ) : Marshaller β γ where
  marshal x := m.marshal (toParts x)
  unmarshal l := (m.unmarshal l).map fun (a, l) => (ofParts a, l)

theorem Reads.via (h : m.Reads (toParts x) b) (hy : ofParts b = y) :
    (m.via toParts ofParts).Reads x y := by
  intro rest
  simp only [Marshaller.via]
  rw [h, ← hy]
  rfl

end Marshaller

def Faithful (β α : Type) := { m : Marshaller β α // ∀ a, m.RoundTrips a }

def SortedMap (ν : Type) := { l : List (String × ν) // l.Pairwise (·.1 < ·.1) }

def SortedMap.mapValues {ν : Type} (l : SortedMap ν) (f : ν → ν) : SortedMap ν :=
  ⟨l.val.map fun p => (p.1, f p.2), pairwise_map.mpr l.property⟩

structure Lifts (β : Type) where
  vector : {α : Type} → Marshaller β α → Marshaller β (List α)
  map : {ν : Type} → Marshaller β String → Marshaller β ν → Marshaller β (SortedMap ν)
  variant : {n : Nat} → {α : Fin n → Type} → ((i : Fin n) → Marshaller β (α i)) →
    Marshaller β (Σ i, α i)
  vector_reads : ∀ {α : Type} (m : Marshaller β α) (f : α → α) (l : List α),
    (∀ a ∈ l, m.Reads a (f a)) → (vector m).Reads l (l.map f)
  map_reads : ∀ {ν : Type} (k : Marshaller β String) (m : Marshaller β ν) (f : ν → ν)
    (l : SortedMap ν), (∀ p ∈ l.val, k.RoundTrips p.1) → (∀ p ∈ l.val, m.Reads p.2 (f p.2)) →
      (map k m).Reads l (l.mapValues f)
  variant_reads : ∀ {n : Nat} {α : Fin n → Type} (m : (i : Fin n) → Marshaller β (α i))
    (i : Fin n) (a b : α i), (m i).Reads a b → (variant m).Reads ⟨i, a⟩ ⟨i, b⟩

/-! ## Counted containers -/

namespace Marshaller
variable {β α : Type}

def unmarshalMany (m : Marshaller β α) : Nat → List β → Option (List α × List β)
  | 0, l => some ([], l)
  | n + 1, l => (m.unmarshal l).bind fun (a, l) =>
    (m.unmarshalMany n l).map fun (as, l) => (a :: as, l)

variable (count : Marshaller β Nat)

def counted (m : Marshaller β α) : Marshaller β (List α) where
  marshal l := count.marshal l.length ++ l.flatMap m.marshal
  unmarshal l := (count.unmarshal l).bind fun (n, l) => m.unmarshalMany n l

theorem unmarshalMany_flatMap {m : Marshaller β α} {l : List α} (h : ∀ a ∈ l, m.Reads a (f a))
    (rest : List β) :
    m.unmarshalMany l.length (l.flatMap m.marshal ++ rest) = some (l.map f, rest) := by
  induction l with
  | nil => rfl
  | cons a l ih =>
    have hl := ih fun a ha => h a (mem_cons_of_mem _ ha)
    rw [flatMap_cons, append_assoc, length_cons, unmarshalMany,
      h a mem_cons_self, Option.bind_some]
    dsimp only
    rw [hl]
    rfl

theorem counted_reads {count : Marshaller β Nat} (hcount : ∀ n, count.RoundTrips n) {l : List α}
    (h : ∀ a ∈ l, m.Reads a (f a)) : (counted count m).Reads l (l.map f) := by
  intro rest
  simp only [counted, append_assoc]
  rw [hcount, Option.bind_some]
  exact unmarshalMany_flatMap h rest

def counted.map {ν : Type} (k : Marshaller β String)
    (m : Marshaller β ν) : Marshaller β (SortedMap ν) where
  marshal l := (counted count (k.seq m)).marshal l.val
  unmarshal l := ((counted count (k.seq m)).unmarshal l).bind fun (pairs, l) =>
    if h : pairs.Pairwise (·.1 < ·.1) then some (⟨pairs, h⟩, l) else none

def counted.variant {n : Nat} {α : Fin n → Type}
    (m : (i : Fin n) → Marshaller β (α i)) : Marshaller β (Σ i, α i) where
  marshal x := count.marshal x.1 ++ (m x.1).marshal x.2
  unmarshal l := (count.unmarshal l).bind fun (k, l) =>
    if h : k < n then ((m ⟨k, h⟩).unmarshal l).map fun (a, l) => (⟨⟨k, h⟩, a⟩, l) else none

end Marshaller

open Marshaller in
def Lifts.counted {β : Type} (count : Faithful β Nat) : Lifts β where
  vector := Marshaller.counted count.val
  map := counted.map count.val
  variant := counted.variant count.val
  vector_reads _ _ _ := counted_reads count.property
  map_reads k m f l hk hm := by
    have hpairs : ∀ p ∈ l.val, (k.seq m).Reads p (p.1, f p.2) :=
      fun p hp => Reads.seq (hk p hp) (hm p hp)
    intro rest
    simp only [counted.map]
    rw [counted_reads count.property hpairs]
    exact dif_pos (l.mapValues f).property
  variant_reads m i a b h := by
    intro rest
    simp only [counted.variant, append_assoc]
    rw [count.property, Option.bind_some, dif_pos i.isLt, h]
    rfl

end RelationalStore
