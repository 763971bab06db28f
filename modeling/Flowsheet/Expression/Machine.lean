import Flowsheet.Expression.Tree

/-! Evaluation without recursion on the tree, whose depth grows with the length of a chain of
operators. The work that is left is a list, and so are the values that wait for their operator. -/

namespace Flowsheet.Expression

inductive Task (α : Type) where
  | visit (t : Tree α)
  | sign (s : Sign)
  | combine (operation : Operation)

/-- How many steps a tree takes. -/
def Tree.cost {α : Type} : Tree α → Nat
  | .number _ => 1
  | .signed _ t => t.cost + 2
  | .binary _ l r => l.cost + r.cost + 2

def Task.cost {α : Type} : Task α → Nat
  | .visit t => t.cost
  | .sign _ | .combine _ => 1

def Tasks.cost {α : Type} (tasks : List (Task α)) : Nat :=
  tasks.foldr (fun task n => task.cost + n) 0

theorem Tree.cost_pos {α : Type} (t : Tree α) : 0 < t.cost := by
  cases t <;> simp [cost]

/-- Carries out the tasks; a task that finds too few values ends the run. -/
def runTasks {α : Type} (A : Arithmetic α) (tasks : List (Task α)) (values : List α) :
    Option (List α) :=
  match tasks, values with
  | [], values => some values
  | .visit (.number x) :: rest, values => runTasks A rest (x :: values)
  | .visit (.signed s t) :: rest, values => runTasks A (.visit t :: .sign s :: rest) values
  | .visit (.binary o l r) :: rest, values =>
    runTasks A (.visit l :: .visit r :: .combine o :: rest) values
  | .sign .plus :: rest, x :: values => runTasks A rest (x :: values)
  | .sign .minus :: rest, x :: values => runTasks A rest (A.negate x :: values)
  | .combine o :: rest, y :: x :: values => runTasks A rest (A.apply o x y :: values)
  | _, _ => none
termination_by Tasks.cost tasks
decreasing_by all_goals simp [Tasks.cost, Task.cost, Tree.cost]; try omega

/-- The value that a run over the whole tree leaves. -/
def Tree.evaluate {α : Type} [Inhabited α] (A : Arithmetic α) (t : Tree α) : α :=
  match runTasks A [.visit t] [] with
  | some [x] => x
  | _ => default

end Flowsheet.Expression
