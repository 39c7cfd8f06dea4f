import Mathlib.Order.Lattice
import RelationalStore.Theory.Condition

/-! The value of a condition, read token by token.

The values are those of a lattice; a reader keeps a frame for each open group. -/

namespace RelationalStore.Condition

inductive Token (A : Type*) where
  | operand (a : A)
  | lparen
  | rparen
  | and
  | or
  deriving DecidableEq

namespace Token
variable {A B : Type*}

def map (g : A → B) : Token A → Token B
  | .operand a => .operand (g a)
  | .lparen => .lparen
  | .rparen => .rparen
  | .and => .and
  | .or => .or

def isOpening : Token A → Bool
  | .operand _ | .lparen => true
  | .rparen | .and | .or => false

theorem isOpening_map (g : A → B) (t : Token A) : (t.map g).isOpening = t.isOpening := by
  cases t <;> rfl

end Token

structure Frame (T : Type*) where
  disj : Option T
  conj : Option T
  pending : Bool
  deriving DecidableEq

structure Reader (T : Type*) where
  top : Frame T
  outer : List (Frame T)
  deriving DecidableEq

section
variable {T : Type*}

def joinTo (op : T → T → T) : Option T → T → T
  | none, v => v
  | some w, v => op w v

namespace Frame

def empty : Frame T := ⟨none, none, false⟩

def isReady (f : Frame T) : Bool := f.conj.isNone || f.pending

variable [Lattice T]

def operand (f : Frame T) (v : T) : Option (Frame T) :=
  if f.isReady then some ⟨f.disj, some (joinTo (· ⊓ ·) f.conj v), false⟩ else none

def value (f : Frame T) : Option T :=
  if f.pending then none else f.conj.map (joinTo (· ⊔ ·) f.disj)

end Frame

namespace Reader

def start : Reader T := ⟨.empty, []⟩

variable [Lattice T]

def step (r : Reader T) : Token T → Option (Reader T)
  | .operand v => (r.top.operand v).map fun f => ⟨f, r.outer⟩
  | .lparen => if r.top.isReady then some ⟨.empty, r.top :: r.outer⟩ else none
  | .rparen =>
    match r.top.value, r.outer with
    | some v, f :: outer => (f.operand v).map fun f => ⟨f, outer⟩
    | _, _ => none
  | .and => if r.top.isReady then none else some ⟨{ r.top with pending := true }, r.outer⟩
  | .or => r.top.value.map fun v => ⟨⟨some v, none, false⟩, r.outer⟩

def stepNear (r : Reader T) (t : Token T) : Option (Reader T) :=
  if t.isOpening && !r.top.isReady then (r.step .and).bind (·.step t) else r.step t

def value (r : Reader T) : Option T := if r.outer = [] then r.top.value else none

end Reader

variable [Lattice T] {A : Type*}

def readAll (holds : A → T) (r : Option (Reader T)) (tokens : List (Token A)) :
    Option (Reader T) :=
  tokens.foldl (fun r t => r.bind (·.step (t.map holds))) r

def readAllNear (holds : A → T) (r : Option (Reader T)) (tokens : List (Token A)) :
    Option (Reader T) :=
  tokens.foldl (fun r t => r.bind (·.stepNear (t.map holds))) r

end

/-! ## What one token does -/

section
variable {T A : Type*} [Lattice T] {holds : A → T} {r r' : Reader T} {f : Frame T}

@[simp] theorem readAll_none (tokens : List (Token A)) : readAll holds none tokens = none := by
  induction tokens with
  | nil => rfl
  | cons t tokens ih => exact ih

@[simp] theorem readAllNear_none (tokens : List (Token A)) :
    readAllNear holds none tokens = none := by
  induction tokens with
  | nil => rfl
  | cons t tokens ih => exact ih

theorem readAll_append (r : Option (Reader T)) (tokens tokens' : List (Token A)) :
    readAll holds r (tokens ++ tokens') = readAll holds (readAll holds r tokens) tokens' :=
  List.foldl_append

theorem readAllNear_append (r : Option (Reader T)) (tokens tokens' : List (Token A)) :
    readAllNear holds r (tokens ++ tokens') =
      readAllNear holds (readAllNear holds r tokens) tokens' :=
  List.foldl_append

namespace Frame

theorem eq_of_operand_eq_some (h : f.operand v = some f') :
    f' = ⟨f.disj, some (joinTo (· ⊓ ·) f.conj v), false⟩ := by
  unfold operand at h
  split at h
  · exact (Option.some.inj h).symm
  · exact nomatch h

end Frame

namespace Reader

structure Settled (needAnd : Bool) (r : Reader T) : Prop where
  pending : r.top.pending = false
  isReady : r.top.isReady = !needAnd

theorem settled_step_operand (h : r.step (.operand v) = some r') : r'.Settled true := by
  obtain ⟨f, hf, rfl⟩ := Option.map_eq_some_iff.mp h
  rw [Frame.eq_of_operand_eq_some hf]
  exact ⟨rfl, rfl⟩

theorem settled_step_lparen (h : r.step .lparen = some r') : r'.Settled false := by
  simp only [step] at h
  split at h
  · cases h
    exact ⟨rfl, rfl⟩
  · exact nomatch h

theorem settled_step_rparen (h : r.step .rparen = some r') : r'.Settled true := by
  simp only [step] at h
  split at h
  · obtain ⟨f, hf, rfl⟩ := Option.map_eq_some_iff.mp h
    rw [Frame.eq_of_operand_eq_some hf]
    exact ⟨rfl, rfl⟩
  · exact nomatch h

theorem settled_step_or (h : r.step .or = some r') : r'.Settled false := by
  obtain ⟨v, -, rfl⟩ := Option.map_eq_some_iff.mp h
  exact ⟨rfl, rfl⟩

theorem stepNear_of_settled (h : r.Settled needAnd) (ht : t.isOpening) :
    r.stepNear t = if needAnd then (r.step .and).bind (·.step t) else r.step t := by
  rw [stepNear, ht, h.isReady, Bool.not_not, Bool.true_and]

theorem stepNear_of_not_isOpening (ht : t.isOpening = false) : r.stepNear t = r.step t := by
  rw [stepNear, ht]
  rfl

theorem exists_step_of_stepNear (h : r.stepNear t = some r') :
    ∃ r₀ : Reader T, r₀.step t = some r' := by
  unfold stepNear at h
  split at h
  · obtain ⟨r₀, -, h⟩ := Option.bind_eq_some_iff.mp h
    exact ⟨r₀, h⟩
  · exact ⟨r, h⟩

theorem stepNear_operand_again (h : r.stepNear (.operand v) = some r') :
    r'.stepNear (.operand v) = some r' := by
  have hidem (o : Option T) : joinTo (· ⊓ ·) o v ⊓ v = joinTo (· ⊓ ·) o v := by
    cases o with
    | none => exact inf_idem v
    | some w => exact inf_right_idem w v
  obtain ⟨r₀, hstep⟩ := exists_step_of_stepNear h
  rw [stepNear_of_settled (settled_step_operand hstep) rfl]
  obtain ⟨f, hf, rfl⟩ := Option.map_eq_some_iff.mp hstep
  rw [Frame.eq_of_operand_eq_some hf]
  exact congrArg (fun x => some (Reader.mk ⟨r₀.top.disj, some x, false⟩ r₀.outer))
    (hidem r₀.top.conj)

end Reader

theorem readAllNear_operand_again (r : Option (Reader T)) (a : A) :
    readAllNear holds (readAllNear holds r [.operand a]) [.operand a] =
      readAllNear holds r [.operand a] := by
  cases hr : readAllNear holds r [.operand a] with
  | none => rfl
  | some r' =>
    obtain ⟨r₀, -, hstep⟩ := Option.bind_eq_some_iff.mp hr
    exact Reader.stepNear_operand_again hstep

end

end RelationalStore.Condition
