import Flowsheet.Expression.Machine

/-! The run over the tasks of a tree leaves the recursive value of the tree. Each turn of the run
keeps what the tasks and the values that wait will come to, and lowers the cost by one, so that no
turn lacks a value and the last one leaves nothing but the value of the tree. -/

namespace Flowsheet.Expression

variable {α : Type}

/-- A tree that is to be visited puts its value on top of those that wait, whatever else there is to
do and whatever the operations mean. -/
theorem runTasks_visit (A : Arithmetic α) (t : Tree α) (rest : List (Task α)) (values : List α) :
    runTasks A (.visit t :: rest) values = runTasks A rest (t.value A :: values) := by
  induction t generalizing rest values with
  | number x => simp only [runTasks, Tree.value]
  | signed sign t ih => cases sign <;> simp only [runTasks, Tree.value, ih]
  | binary operation l r ihl ihr => simp only [runTasks, Tree.value, ihl, ihr]

theorem Tree.evaluate_eq_value [Inhabited α] (A : Arithmetic α) (t : Tree α) :
    t.evaluate A = t.value A := by
  rw [evaluate, runTasks_visit, runTasks]

/-- How many of the values that wait a task takes away. -/
def Task.demand : Task α → Nat
  | .visit _ => 0
  | .sign _ => 1
  | .combine _ => 2

/-- What is left to do, and the values that wait for their operators. -/
structure Work (α : Type) where
  tasks : List (Task α)
  values : List α

namespace Work

def start (t : Tree α) : Work α := ⟨[.visit t], []⟩

def cost (w : Work α) : Nat := Tasks.cost w.tasks

/-- One turn. There is none if nothing is left to do, or if a value is missing. -/
def turn (A : Arithmetic α) : Work α → Option (Work α)
  | ⟨.visit (.number x) :: rest, values⟩ => some ⟨rest, x :: values⟩
  | ⟨.visit (.signed s t) :: rest, values⟩ => some ⟨.visit t :: .sign s :: rest, values⟩
  | ⟨.visit (.binary o l r) :: rest, values⟩ =>
    some ⟨.visit l :: .visit r :: .combine o :: rest, values⟩
  | ⟨.sign .plus :: rest, x :: values⟩ => some ⟨rest, x :: values⟩
  | ⟨.sign .minus :: rest, x :: values⟩ => some ⟨rest, A.negate x :: values⟩
  | ⟨.combine o :: rest, y :: x :: values⟩ => some ⟨rest, A.apply o x y :: values⟩
  | _ => none

def turns (A : Arithmetic α) : Nat → Work α → Option (Work α)
  | 0, w => some w
  | n + 1, w => (w.turn A).bind (turns A n)

/-- The values that the tasks leave, by the recursive value of each tree among them. -/
def outcome (A : Arithmetic α) : List (Task α) → List α → Option (List α)
  | [], values => some values
  | .visit t :: rest, values => outcome A rest (t.value A :: values)
  | .sign .plus :: rest, x :: values => outcome A rest (x :: values)
  | .sign .minus :: rest, x :: values => outcome A rest (A.negate x :: values)
  | .combine o :: rest, y :: x :: values => outcome A rest (A.apply o x y :: values)
  | _, _ => none

variable {A : Arithmetic α} {w next : Work α}

theorem cost_eq_zero_iff : w.cost = 0 ↔ w.tasks = [] := by
  obtain ⟨tasks, values⟩ := w
  cases tasks with
  | nil => exact iff_of_true rfl rfl
  | cons task rest =>
    have hpos : 0 < task.cost := by
      cases task with
      | visit t => exact t.cost_pos
      | sign | combine => exact Nat.one_pos
    have hcost : cost ⟨task :: rest, values⟩ = task.cost + Tasks.cost rest := rfl
    exact iff_of_false (by omega) (List.cons_ne_nil task rest)

theorem cost_turn (h : w.turn A = some next) : next.cost + 1 = w.cost := by
  unfold turn at h
  split at h <;> cases h <;> simp only [cost, Tasks.cost, Task.cost, Tree.cost, List.foldr_cons] <;>
    omega

theorem outcome_turn (h : w.turn A = some next) :
    outcome A next.tasks next.values = outcome A w.tasks w.values := by
  unfold turn at h
  split at h
  case h_2 s t rest values =>
    cases h
    cases s <;> simp only [outcome, Tree.value]
  all_goals cases h <;> simp only [outcome, Tree.value]

theorem runTasks_turn (h : w.turn A = some next) :
    runTasks A next.tasks next.values = runTasks A w.tasks w.values := by
  unfold turn at h
  split at h <;> cases h <;> simp only [runTasks]

theorem demand_le_of_turn (h : w.turn A = some next) :
    ∀ task ∈ w.tasks.head?, task.demand ≤ w.values.length := by
  unfold turn at h
  split at h <;> cases h <;> simp [Task.demand]

/-- Work that comes to something goes on until nothing is left. -/
theorem exists_turn {values : List α} (ho : outcome A w.tasks w.values = some values)
    (hne : w.tasks ≠ []) : ∃ next, w.turn A = some next := by
  obtain ⟨tasks, waiting⟩ := w
  cases tasks with
  | nil => exact absurd rfl hne
  | cons task rest =>
    cases task with
    | visit t => cases t <;> exact ⟨_, rfl⟩
    | sign s =>
      cases waiting with
      | nil => cases s <;> cases ho
      | cons x waiting => cases s <;> exact ⟨_, rfl⟩
    | combine o =>
      rcases waiting with _ | ⟨y, _ | ⟨x, waiting⟩⟩
      · cases ho
      · cases ho
      · exact ⟨_, rfl⟩

/-- What every turn keeps, and what it uses up. -/
theorem of_turns {n : Nat} (h : turns A n w = some next) :
    next.cost + n = w.cost ∧
      outcome A next.tasks next.values = outcome A w.tasks w.values ∧
      runTasks A next.tasks next.values = runTasks A w.tasks w.values := by
  induction n generalizing w with
  | zero =>
    cases h
    exact ⟨rfl, rfl, rfl⟩
  | succ n ih =>
    obtain ⟨first, hfirst, hrest⟩ := Option.bind_eq_some_iff.mp h
    obtain ⟨hcost, houtcome, hrun⟩ := ih hrest
    have hturn := cost_turn hfirst
    exact ⟨by omega, houtcome.trans (outcome_turn hfirst), hrun.trans (runTasks_turn hfirst)⟩

theorem exists_turns {values : List α} (ho : outcome A w.tasks w.values = some values) {n : Nat}
    (hn : n ≤ w.cost) : ∃ next, turns A n w = some next := by
  induction n generalizing w with
  | zero => exact ⟨w, rfl⟩
  | succ n ih =>
    have hne : w.tasks ≠ [] := fun hnil => by
      rw [cost_eq_zero_iff.mpr hnil] at hn
      omega
    obtain ⟨first, hfirst⟩ := exists_turn ho hne
    have hturn := cost_turn hfirst
    obtain ⟨next, hnext⟩ := ih ((outcome_turn hfirst).trans ho) (by omega)
    exact ⟨next, Option.bind_eq_some_iff.mpr ⟨first, hfirst, hnext⟩⟩

variable {t : Tree α} {n : Nat}

theorem cost_start (t : Tree α) : (start t).cost = t.cost := Nat.add_zero _

theorem outcome_start (A : Arithmetic α) (t : Tree α) :
    outcome A (start t).tasks (start t).values = some [t.value A] := rfl

theorem demand_le_of_turns (h : turns A n (start t) = some w) :
    ∀ task ∈ w.tasks.head?, task.demand ≤ w.values.length := by
  intro task htask
  have hne : w.tasks ≠ [] := by
    intro hnil
    rw [hnil] at htask
    cases htask
  obtain ⟨-, houtcome, -⟩ := of_turns h
  obtain ⟨next, hnext⟩ := exists_turn (houtcome.trans (outcome_start A t)) hne
  exact demand_le_of_turn hnext task htask

theorem exists_turns_of_lt (A : Arithmetic α) (hn : n < t.cost) :
    ∃ w, turns A n (start t) = some w ∧ w.tasks ≠ [] := by
  have hstart := cost_start t
  obtain ⟨w, hw⟩ := exists_turns (outcome_start A t) (n := n) (by omega)
  obtain ⟨hcost, -⟩ := of_turns hw
  refine ⟨w, hw, fun hnil => ?_⟩
  have hzero := cost_eq_zero_iff.mpr hnil
  omega

theorem turns_cost (A : Arithmetic α) (t : Tree α) :
    turns A t.cost (start t) = some ⟨[], [t.value A]⟩ := by
  have hstart := cost_start t
  obtain ⟨⟨tasks, values⟩, hlast⟩ := exists_turns (outcome_start A t) (Nat.le_of_eq hstart.symm)
  obtain ⟨hcost, houtcome, -⟩ := of_turns hlast
  have hzero : cost (⟨tasks, values⟩ : Work α) = 0 := by omega
  obtain rfl : tasks = [] := cost_eq_zero_iff.mp hzero
  have hvalues : values = [t.value A] := Option.some.inj (houtcome.trans (outcome_start A t))
  rw [hlast, hvalues]

theorem turns_of_cost_lt (A : Arithmetic α) (hn : t.cost < n) : turns A n (start t) = none := by
  have hstart := cost_start t
  rw [Option.eq_none_iff_forall_ne_some]
  intro w hw
  obtain ⟨hcost, -⟩ := of_turns hw
  omega

end Work

/-- The run over the tree ends after as many turns as the tree costs. Each of them finds the values
that it takes, and the last one leaves one value. -/
structure RunsToValue (A : Arithmetic α) (t : Tree α) : Prop where
  supplied : ∀ n w, Work.turns A n (.start t) = some w →
    ∀ task ∈ w.tasks.head?, task.demand ≤ w.values.length
  goes_on : ∀ n < t.cost, ∃ w, Work.turns A n (.start t) = some w ∧ w.tasks ≠ []
  finished : Work.turns A t.cost (.start t) = some ⟨[], [t.value A]⟩
  stopped : ∀ n, t.cost < n → Work.turns A n (.start t) = none
  followed : ∀ n w, Work.turns A n (.start t) = some w →
    runTasks A w.tasks w.values = runTasks A [.visit t] []
  left : runTasks A [.visit t] [] = some [t.value A]
  evaluated : ∀ _ : Inhabited α, t.evaluate A = t.value A

theorem runs_to_value (A : Arithmetic α) (t : Tree α) : RunsToValue A t where
  supplied _ _ hw := Work.demand_le_of_turns hw
  goes_on _ hn := Work.exists_turns_of_lt A hn
  finished := Work.turns_cost A t
  stopped _ hn := Work.turns_of_cost_lt A hn
  followed _ _ hw := (Work.of_turns hw).2.2
  left := by rw [runTasks_visit, runTasks]
  evaluated _ := t.evaluate_eq_value A

/-- The left operand is the one that is divided. -/
example : runTasks ⟨fun x : Int => -x, fun _ x y => x / y⟩
    [.visit (.binary .div (.number 8) (.signed .minus (.number 2)))] [] = some [-4] := by cbv

end Flowsheet.Expression
