import RelationalStore.Rdb.Errno
import RelationalStore.Rdb.Values.ValueObject
import RelationalStore.Theory.AssocList
import RelationalStore.Theory.SearchTree

/-! # The rows of a batch

The rows refer to values in one ordered set, where an equivalent value is not stored again. -/

namespace RelationalStore.Values

open List ValueObject

structure ValuesBucket where
  values : List (String × ValueObject)
  sorted : values.Pairwise (·.1 < ·.1)

def ValuesBucket.get (bucket : ValuesBucket) (field : String) : Option ValueObject :=
  bucket.values.lookup field

abbrev BucketType := List (String × Nat)

def BucketType.insert (row : BucketType) (field : String) (ref : Nat) : BucketType :=
  if (row.lookup field).isSome then row else row ++ [(field, ref)]

def insertField (field : String) : List String → List String
  | [] => [field]
  | g :: fields =>
    if field < g then field :: g :: fields
    else if g < field then g :: insertField field fields
    else g :: fields

structure ValuesBuckets where
  fields : List String
  values : NodeSet ValueObject
  buckets : List BucketType

namespace ValuesBuckets

def initial : ValuesBuckets := ⟨[], .empty, []⟩

variable (b : ValuesBuckets)

def rowSize : Nat := b.buckets.length

def clear (_ : ValuesBuckets) : ValuesBuckets := initial

section
variable (balance : Balance Nat)

def putLoop : ValuesBuckets → BucketType → List (String × ValueObject) → ValuesBuckets × BucketType
  | b, row, [] => (b, row)
  | b, row, (field, value) :: items =>
    let inserted := b.values.insert balance less value
    putLoop { b with fields := insertField field b.fields, values := inserted.2 }
      (row.insert field inserted.1) items

def put (b : ValuesBuckets) (bucket : ValuesBucket) : ValuesBuckets :=
  let looped := putLoop balance b [] bucket.values
  { looped.1 with buckets := looped.1.buckets ++ [looped.2] }

def ofRows (rows : List ValuesBucket) : ValuesBuckets := rows.foldl (put balance) initial

end

def get (row : Nat) (field : String) : Except RdbError Nat :=
  match b.buckets[row]? with
  | none => .error .invalidArgs
  | some bucket =>
    match bucket.lookup field with
    | none => .error .invalidArgs
    | some ref => .ok ref

/-- The field has the value `expected`, or none and there is an error. -/
def Returns (row : Nat) (field : String) (expected : Option ValueObject) :
    Prop :=
  match b.get row field with
  | .ok ref => expected.isSome ∧ b.values.heap[ref]? = expected
  | .error e => e = .invalidArgs ∧ expected = none

end ValuesBuckets

variable (rows : List ValuesBucket)

def valuesOf : List ValueObject :=
  rows.flatMap fun bucket => bucket.values.map (·.2)

/-- `operator<` tells all different values of the rows apart. -/
def ToldApart : Prop :=
  ∀ v ∈ valuesOf rows, ∀ w ∈ valuesOf rows, v.Equivalent w → v = w

namespace ValuesBuckets
variable {balance : Balance Nat} {b : ValuesBuckets}

/-! ## What is put -/

def refsOf (balance : Balance Nat) (s : NodeSet ValueObject) (items : List (String × ValueObject)) :
    BucketType :=
  (items.map (·.1)).zip (s.insertAll balance less (items.map (·.2))).1

def valuesAfter (balance : Balance Nat) (s : NodeSet ValueObject)
    (items : List (String × ValueObject)) : NodeSet ValueObject :=
  (s.insertAll balance less (items.map (·.2))).2

def bucketsOf (balance : Balance Nat) : NodeSet ValueObject → List ValuesBucket → List BucketType
  | _, [] => []
  | s, bucket :: rows =>
    refsOf balance s bucket.values :: bucketsOf balance (valuesAfter balance s bucket.values) rows

variable {items : List (String × ValueObject)}

theorem putLoop_eq (balance : Balance Nat) (b : ValuesBuckets)
    (hsorted : items.Pairwise (·.1 < ·.1)) (hrow : ∀ p ∈ items, row.lookup p.1 = none) :
    (putLoop balance b row items).2 = row ++ refsOf balance b.values items ∧
      (putLoop balance b row items).1.values = valuesAfter balance b.values items ∧
      (putLoop balance b row items).1.buckets = b.buckets := by
  induction items generalizing b row with
  | nil => exact ⟨(append_nil _).symm, rfl, rfl⟩
  | cons item items ih =>
    obtain ⟨field, value⟩ := item
    rw [pairwise_cons] at hsorted
    have hfresh : row.lookup field = none := hrow _ mem_cons_self
    have hinsert (ref : Nat) : row.insert field ref = row ++ [(field, ref)] := by
      simp [BucketType.insert, hfresh]
    have hnext (ref : Nat) : ∀ p ∈ items, (row.insert field ref).lookup p.1 = none := by
      intro p hp
      have hne : p.1 ≠ field := (hsorted.1 p hp).ne'
      rw [hinsert, lookup_append, hrow p (mem_cons_of_mem _ hp)]
      simp [List.lookup, beq_eq_false_iff_ne.mpr hne]
    obtain ⟨hrow', hvalues, hbuckets⟩ := ih _ hsorted.2 (hnext _)
    refine ⟨hrow'.trans ?_, hvalues, hbuckets⟩
    rw [hinsert, append_assoc]
    rfl

theorem put_eq (balance : Balance Nat) (b : ValuesBuckets) (bucket : ValuesBucket) :
    (put balance b bucket).buckets = b.buckets ++ [refsOf balance b.values bucket.values] ∧
      (put balance b bucket).values = valuesAfter balance b.values bucket.values := by
  obtain ⟨hrow, hvalues, hbuckets⟩ := putLoop_eq balance b bucket.sorted
    fun p _ => (rfl : List.lookup p.1 [] = none)
  refine ⟨?_, hvalues⟩
  rw [put, hbuckets, hrow]
  rfl

theorem foldl_put (balance : Balance Nat) (b : ValuesBuckets) (rows : List ValuesBucket) :
    (rows.foldl (put balance) b).buckets = b.buckets ++ bucketsOf balance b.values rows ∧
      (rows.foldl (put balance) b).values =
        (b.values.insertAll balance less (valuesOf rows)).2 := by
  induction rows generalizing b with
  | nil => exact ⟨(append_nil _).symm, rfl⟩
  | cons bucket rows ih =>
    obtain ⟨hbuckets, hvalues⟩ := put_eq balance b bucket
    obtain ⟨ihBuckets, ihValues⟩ := ih (put balance b bucket)
    constructor
    · rw [foldl_cons, ihBuckets, hbuckets, hvalues, append_assoc]
      rfl
    · rw [foldl_cons, ihValues, hvalues, valuesAfter]
      exact (congrArg Prod.snd (NodeSet.insertAll_append _ _)).symm

/-! ## What is read -/

theorem keys_refsOf (s : NodeSet ValueObject) (items : List (String × ValueObject)) :
    (refsOf balance s items).map (·.1) = items.map (·.1) := by
  refine map_fst_zip ?_
  rw [NodeSet.length_insertAll, length_map, length_map]

variable {f : Nat → Option ValueObject}

theorem lookup_iff_map_eq {row : BucketType} (hkeys : row.map (·.1) = items.map (·.1))
    (hnodup : (items.map (·.1)).Nodup) :
    (∀ field ref, row.lookup field = some ref → f ref = items.lookup field) ↔
      row.map (fun p => (p.1, f p.2)) = items.map fun p => (p.1, some p.2) := by
  induction items generalizing row with
  | nil =>
    obtain rfl := map_eq_nil_iff.mp hkeys
    exact iff_of_true (fun _ _ h => nomatch h) rfl
  | cons item items ih =>
    obtain ⟨key, value⟩ := item
    cases row with
    | nil => exact nomatch hkeys
    | cons entry row =>
      obtain ⟨key', ref⟩ := entry
      obtain ⟨hkey, hrest⟩ := List.cons.inj hkeys
      obtain rfl : key' = key := hkey
      obtain ⟨hfresh, hnodup⟩ := nodup_cons.mp hnodup
      rw [map_cons, map_cons, List.cons.injEq, ← ih hrest hnodup]
      constructor
      · intro h
        have hhead := h key' ref lookup_cons_self
        rw [lookup_cons_self] at hhead
        refine ⟨Prod.ext rfl hhead, fun field ref' href => ?_⟩
        have hne : field ≠ key' := by
          rintro rfl
          rw [lookup_eq_none_iff_keys.mpr (hrest ▸ hfresh)] at href
          exact nomatch href
        have htail := h field ref' ((lookup_cons_of_ne hne).trans href)
        rwa [lookup_cons_of_ne hne] at htail
      · rintro ⟨hhead, htail⟩ field ref' href
        by_cases hfield : field = key'
        · subst hfield
          rw [lookup_cons_self] at href ⊢
          exact Option.some.inj href ▸ (Prod.ext_iff.mp hhead).2
        · rw [lookup_cons_of_ne hfield] at href ⊢
          exact htail field ref' href

theorem map_refsOf_eq_iff 
    :
    ((refsOf balance s items).map fun p => (p.1, f p.2)) = (items.map fun p => (p.1, some p.2)) ↔
      (s.insertAll balance less (items.map (·.2))).1.map f =
        (items.map (·.2)).map some := by
  induction items generalizing s with
  | nil => exact iff_of_true rfl rfl
  | cons item items ih =>
    simp only [refsOf, map_cons, NodeSet.insertAll, zip_cons_cons, List.cons.injEq,
      Prod.mk.injEq, true_and]
    exact and_congr_right fun _ => ih

theorem map_bucketsOf_eq_iff {s : NodeSet ValueObject} {rows : List ValuesBucket} :
    ((bucketsOf balance s rows).map fun row => row.map fun p => (p.1, f p.2)) =
        (rows.map fun bucket => bucket.values.map fun p => (p.1, some p.2)) ↔
      (s.insertAll balance less (valuesOf rows)).1.map f =
        (valuesOf rows).map some := by
  induction rows generalizing s with
  | nil => exact iff_of_true rfl rfl
  | cons bucket rows ih =>
    have hsplit : valuesOf (bucket :: rows) = bucket.values.map (·.2) ++ valuesOf rows := rfl
    rw [bucketsOf, map_cons, map_cons, List.cons.injEq, map_refsOf_eq_iff, ih, hsplit,
      NodeSet.insertAll_append, map_append, map_append]
    have hlength :
        ((s.insertAll balance less (bucket.values.map (·.2))).1.map f).length =
          ((bucket.values.map (·.2)).map some).length := by
      rw [length_map, NodeSet.length_insertAll, length_map, length_map,
        length_map]
    exact ⟨fun h => congrArg₂ (· ++ ·) h.1 h.2, fun h => append_inj h hlength⟩

theorem returns_of_bucket (h : b.buckets[row]? = some bucket)
    (hkey : bucket.lookup field = none ↔ expected = none) :
    b.Returns row field expected ↔
      ∀ ref, bucket.lookup field = some ref → b.values.heap[ref]? = expected := by
  cases href : bucket.lookup field with
  | none => simp [Returns, get, h, href, hkey.mp href]
  | some ref =>
    have hsome : expected.isSome :=
      Option.isSome_iff_ne_none.mpr fun hnone => nomatch href.symm.trans (hkey.mpr hnone)
    simp [Returns, get, h, href, hsome]

theorem forall_returns_iff {rows : List ValuesBucket}
    (hkeys : (b.buckets.map fun row => row.map (·.1)) =
      rows.map fun bucket => bucket.values.map (·.1)) :
    (∀ row field, b.Returns row field (rows[row]?.bind (·.get field))) ↔
      (b.buckets.map fun row => row.map fun p => (p.1, b.values.heap[p.2]?)) =
        rows.map fun bucket => bucket.values.map fun p => (p.1, some p.2) := by
  rw [List.ext_getElem?_iff]
  refine forall_congr' fun row => ?_
  have hrow := congrArg (·[row]?) hkeys
  simp only [getElem?_map] at hrow ⊢
  cases hbucket : b.buckets[row]? with
  | none =>
    rw [hbucket] at hrow
    rw [Option.map_eq_none_iff.mp hrow.symm]
    exact iff_of_true (fun field => by simp [Returns, get, hbucket]) rfl
  | some bucket =>
    rw [hbucket] at hrow
    obtain ⟨items, hitems, heq⟩ := Option.map_eq_some_iff.mp hrow.symm
    have hkey (field : String) : bucket.lookup field = none ↔ items.get field = none := by
      rw [ValuesBucket.get, lookup_eq_none_iff_keys, lookup_eq_none_iff_keys, heq]
    have hnodup : (items.values.map (·.1)).Nodup :=
      pairwise_map.mpr (items.sorted.imp fun h => h.ne)
    rw [hitems, Option.map_some, Option.map_some, Option.some.injEq,
      ← lookup_iff_map_eq heq.symm hnodup]
    exact forall_congr' fun field => returns_of_bucket hbucket (hkey field)

theorem keys_bucketsOf (s : NodeSet ValueObject) (rows : List ValuesBucket) :
    ((bucketsOf balance s rows).map fun row => row.map (·.1)) =
      rows.map fun bucket => bucket.values.map (·.1) := by
  induction rows generalizing s with
  | nil => rfl
  | cons bucket rows ih =>
    rw [bucketsOf, map_cons, map_cons, keys_refsOf, ih]

theorem forall_returns_iff_faithful (rows : List ValuesBucket) :
    (∀ row field, (ofRows balance rows).Returns row field (rows[row]?.bind (·.get field))) ↔
      NodeSet.Faithful balance less .empty (valuesOf rows) := by
  obtain ⟨hbuckets, hvalues⟩ := foldl_put balance initial rows
  have hrows : (ofRows balance rows).buckets = bucketsOf balance .empty rows := hbuckets
  rw [forall_returns_iff (hrows ▸ keys_bucketsOf _ rows), hrows, map_bucketsOf_eq_iff]
  rw [ofRows, hvalues]
  rfl

end ValuesBuckets

theorem returns_iff_toldApart :
    (∀ balance row field,
      (ValuesBuckets.ofRows balance rows).Returns row field (rows[row]?.bind (·.get field))) ↔
      ToldApart rows := by
  calc
    _ ↔ ∀ balance, NodeSet.Faithful balance less .empty (valuesOf rows) :=
      forall_congr' fun balance => ValuesBuckets.forall_returns_iff_faithful rows
    _ ↔ ∀ v ∈ valuesOf rows, ∀ w ∈ valuesOf rows, Alike less v w → v = w :=
      NodeSet.faithful_iff _
    _ ↔ ToldApart rows := by simp only [ToldApart, alike_less]

def assetOfVersion (version : Nat) : AssetValue :=
  ⟨version, 1, 0, "", "a", "", "", "", "", "", "", ""⟩

theorem get_other_version :
    let rows : List ValuesBucket :=
      [⟨[("x", .asset (assetOfVersion 1))], pairwise_singleton _ _⟩,
        ⟨[("x", .asset (assetOfVersion 2))], pairwise_singleton _ _⟩]
    let b := ValuesBuckets.ofRows .none rows
    b.get 1 "x" = .ok 0 ∧ b.values.heap[0]? = some (.asset (assetOfVersion 1)) ∧
      ¬ b.Returns 1 "x" (rows[1]?.bind (·.get "x")) :=
  ⟨rfl, rfl, fun h => absurd h.2 (by decide)⟩

end RelationalStore.Values
