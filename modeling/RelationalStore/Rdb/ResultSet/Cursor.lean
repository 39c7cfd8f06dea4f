import Mathlib.Data.Int.ModEq

/-! # The list cursor

What a result set is for: a cursor over `n` rows, with positions from `-1` to `n`. -/

namespace RelationalStore

abbrev initPos : Int := -1

abbrev invalidCount : Int := -1

def toInt32 (x : Int) : Int := x.bmod (2 ^ 32)

theorem toInt32_of_lt (h : -2 ^ 31 ≤ x) (h' : x < 2 ^ 31) : toInt32 x = x := by
  rw [toInt32, Int.bmod_def]
  omega

inductive Nav where
  | goToRow (position : Int32)
  | goTo (offset : Int32)
  | goToFirstRow
  | goToLastRow
  | goToNextRow
  | goToPreviousRow
  deriving DecidableEq

def Nav.target (n : Nat) (pos : Int) : Nav → Int
  | goToRow position => position.toInt
  | goTo offset => pos + offset.toInt
  | goToFirstRow => 0
  | goToLastRow => n - 1
  | goToNextRow => pos + 1
  | goToPreviousRow => pos - 1

structure Moves (n : Nat) (pos target : Int) (ok : Bool) (pos' : Int) : Prop where
  ok_iff : ok ↔ 0 ≤ target ∧ target < n
  reached : ok → pos' = target
  past : ok = false → pos < target → n = 0 ∨ pos' = n

inductive CursorCall where
  | nav (call : Nav)
  | get (column : Int)
  | isStarted
  | isEnded
  | isAtFirstRow
  | isAtLastRow

end RelationalStore
