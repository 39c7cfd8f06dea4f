import RelationalStore.Rdb.Values.ValuesBuckets
import RelationalStore.Theory.OrderedMap

/-! # Filling a bucket of values

`Put` replaces the value of a column; the methods for one type leave a value that is there. -/

namespace RelationalStore.Values
namespace ValuesBucket

variable (bucket : ValuesBucket)

def map : OrderedMap String ValueObject := ⟨bucket.values, bucket.sorted⟩

def ofMap (m : OrderedMap String ValueObject) : ValuesBucket := ⟨m.entries, m.sorted⟩

def initial : ValuesBucket := ofMap .empty

def insert (bucket : ValuesBucket) (columnName : String) (value : ValueObject) : ValuesBucket :=
  ofMap (bucket.map.insert columnName value)

def put (columnName : String) (value : ValueObject) : ValuesBucket :=
  ofMap (bucket.map.insertOrAssign columnName value)

def delete (columnName : String) : ValuesBucket :=
  ofMap (bucket.map.erase columnName)

def getObject (columnName : String) : Option ValueObject :=
  bucket.map.find columnName

end ValuesBucket

inductive BucketCall where
  | putString (columnName : String) (value : String)
  | putInt (columnName : String) (value : Int)
  | putLong (columnName : String) (value : Int)
  | putDouble (columnName : String) (value : Double)
  | putBool (columnName : String) (value : Bool)
  | putBlob (columnName : String) (value : List UInt8)
  | putNull (columnName : String)
  | put (columnName : String) (value : ValueObject)
  | delete (columnName : String)
  | clear

def ValuesBucket.call (bucket : ValuesBucket) : BucketCall → ValuesBucket
  | .putString columnName value => bucket.insert columnName (.string value)
  | .putInt columnName value => bucket.insert columnName (.int value)
  | .putLong columnName value => bucket.insert columnName (.int value)
  | .putDouble columnName value => bucket.insert columnName (.double value)
  | .putBool columnName value => bucket.insert columnName (.bool value)
  | .putBlob columnName value => bucket.insert columnName (.blob value)
  | .putNull columnName => bucket.insert columnName .null
  | .put columnName value => bucket.put columnName value
  | .delete columnName => bucket.delete columnName
  | .clear => .initial

def ValuesBucket.calls (bucket : ValuesBucket) (calls : List BucketCall) : ValuesBucket :=
  calls.foldl ValuesBucket.call bucket

/-! ## The puts to a column -/

structure ColumnPut where
  value : ValueObject
  replaces : Bool

def BucketCall.columnPut : BucketCall → Option (String × ColumnPut)
  | .putString columnName value => some (columnName, ⟨.string value, false⟩)
  | .putInt columnName value => some (columnName, ⟨.int value, false⟩)
  | .putLong columnName value => some (columnName, ⟨.int value, false⟩)
  | .putDouble columnName value => some (columnName, ⟨.double value, false⟩)
  | .putBool columnName value => some (columnName, ⟨.bool value, false⟩)
  | .putBlob columnName value => some (columnName, ⟨.blob value, false⟩)
  | .putNull columnName => some (columnName, ⟨.null, false⟩)
  | .put columnName value => some (columnName, ⟨value, true⟩)
  | .delete _ | .clear => none

variable (column : String)

def BucketCall.removes : BucketCall → Bool
  | .delete columnName => columnName = column
  | .clear => true
  | _ => false

def putsSince (puts : List ColumnPut) (c : BucketCall) : List ColumnPut :=
  if c.removes column then []
  else
    match c.columnPut with
    | some (columnName, p) => if column = columnName then puts ++ [p] else puts
    | none => puts

def columnPuts (calls : List BucketCall) : List ColumnPut :=
  calls.foldl (putsSince column) []

variable (puts : List ColumnPut)

def lastPut : Option ValueObject := puts.getLast?.map (·.value)

def keptPut : Option ValueObject :=
  puts.foldl (fun kept p => if p.replaces then some p.value else some (kept.getD p.value)) none

/-- The last put to a column is a `Put`, or finds the column free, or puts the value that is
there. -/
def LastPutKept : Prop :=
  ∀ before last, puts = before ++ [last] →
    last.replaces ∨ before = [] ∨ keptPut before = some last.value

section
variable {column : String}

theorem keptPut_concat (puts : List ColumnPut) (p : ColumnPut) :
    keptPut (puts ++ [p]) =
      if p.replaces then some p.value else some ((keptPut puts).getD p.value) := by
  rw [keptPut, List.foldl_append]
  rfl

theorem keptPut_eq_none_iff (puts : List ColumnPut) : keptPut puts = none ↔ puts = [] := by
  cases puts using List.reverseRecOn with
  | nil => exact iff_of_true rfl rfl
  | append_singleton puts p =>
    rw [keptPut_concat]
    split <;> simp

theorem keptPut_eq_lastPut_iff (puts : List ColumnPut) :
    keptPut puts = lastPut puts ↔ LastPutKept puts := by
  cases puts using List.reverseRecOn with
  | nil => exact iff_of_true rfl fun before last h => absurd h.symm (by simp)
  | append_singleton puts p =>
    have hlast : lastPut (puts ++ [p]) = some p.value := by simp [lastPut]
    have hkept : LastPutKept (puts ++ [p]) ↔
        p.replaces ∨ puts = [] ∨ keptPut puts = some p.value := by
      refine ⟨fun h => h puts p rfl, fun h before last heq => ?_⟩
      obtain ⟨rfl, hp⟩ := List.append_inj' heq rfl
      cases hp
      exact h
    rw [hlast, hkept, keptPut_concat]
    by_cases hreplaces : p.replaces
    · simp [hreplaces]
    · rw [if_neg hreplaces, ← keptPut_eq_none_iff]
      cases keptPut puts <;> simp [hreplaces]

theorem getObject_call {bucket : ValuesBucket} {puts : List ColumnPut} (c : BucketCall)
    (h : bucket.getObject column = keptPut puts) :
    (bucket.call c).getObject column = keptPut (putsSince column puts c) := by
  have hinsert : ∀ columnName value, (bucket.insert columnName value).getObject column =
      keptPut (if column = columnName then puts ++ [⟨value, false⟩] else puts) := by
    intro columnName value
    refine (OrderedMap.find_insert bucket.map).trans ?_
    split
    next heq =>
      subst heq
      rw [keptPut_concat, ← h]
      rfl
    · exact h
  cases c with
  | put columnName value =>
    refine (OrderedMap.find_insertOrAssign bucket.map).trans ?_
    change _ = keptPut (if column = columnName then puts ++ [⟨value, true⟩] else puts)
    split
    · exact (keptPut_concat puts ⟨value, true⟩).symm
    · exact h
  | delete columnName =>
    refine (OrderedMap.find_erase bucket.map).trans ?_
    by_cases heq : column = columnName
    · rw [if_pos heq, putsSince, if_pos (by simp [BucketCall.removes, heq])]
      rfl
    · have hstays : (BucketCall.delete columnName).removes column = false :=
        decide_eq_false fun h => heq h.symm
      rw [if_neg heq, putsSince, hstays]
      exact h
  | clear => rfl
  | putString columnName value => exact hinsert columnName _
  | putInt columnName value => exact hinsert columnName _
  | putLong columnName value => exact hinsert columnName _
  | putDouble columnName value => exact hinsert columnName _
  | putBool columnName value => exact hinsert columnName _
  | putBlob columnName value => exact hinsert columnName _
  | putNull columnName => exact hinsert columnName _

theorem getObject_calls (calls : List BucketCall) :
    (ValuesBucket.initial.calls calls).getObject column = keptPut (columnPuts column calls) := by
  have hrun : ∀ (bucket : ValuesBucket) (puts : List ColumnPut),
      bucket.getObject column = keptPut puts →
      (bucket.calls calls).getObject column = keptPut (calls.foldl (putsSince column) puts) := by
    induction calls with
    | nil => exact fun _ _ h => h
    | cons c calls ih => exact fun _ _ h => ih _ _ (getObject_call c h)
  exact hrun .initial [] rfl

end

theorem getObject_eq_lastPut_iff (calls : List BucketCall) :
    ((ValuesBucket.initial.calls calls).getObject column = none ↔ columnPuts column calls = []) ∧
    ((ValuesBucket.initial.calls calls).getObject column = lastPut (columnPuts column calls) ↔
      LastPutKept (columnPuts column calls)) := by
  rw [getObject_calls]
  exact ⟨keptPut_eq_none_iff _, keptPut_eq_lastPut_iff _⟩

theorem getObject_putInt_twice :
    (ValuesBucket.initial.calls [.putInt "age" 18, .putInt "age" 19]).getObject "age" =
        some (.int 18) ∧
      lastPut (columnPuts "age" [.putInt "age" 18, .putInt "age" 19]) = some (.int 19) := by
  decide +kernel

end RelationalStore.Values
