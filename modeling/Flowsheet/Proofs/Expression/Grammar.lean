import Flowsheet.Expression.Token
import Flowsheet.Expression.Tree

/-! The grammar of arithmetic. A phrase is a derivation, so that its operators group as the grammar
groups them; what stands for an operand is left open. -/

namespace Flowsheet.Expression

/-- The nonterminals, from the loosest to the closest. -/
inductive Category where
  | expression
  | term
  | unary
  | primary
deriving DecidableEq, Repr

inductive Scaling where
  | times
  | divide
deriving DecidableEq, Repr

def Sign.symbol : Sign → Symbol
  | .plus => .plus
  | .minus => .minus

def Sign.operation : Sign → Operation
  | .plus => .add
  | .minus => .sub

def Scaling.symbol : Scaling → Symbol
  | .times => .times
  | .divide => .divide

def Scaling.operation : Scaling → Operation
  | .times => .mul
  | .divide => .div

theorem Sign.not_isNumber (sign : Sign) : sign.symbol.isNumber = false := by
  cases sign <;> rfl

theorem Scaling.not_isNumber (scaling : Scaling) : scaling.symbol.isNumber = false := by
  cases scaling <;> rfl

inductive Phrase (α : Type) : Category → Type where
  | operand (x : α) : Phrase α .primary
  | group (e : Phrase α .expression) : Phrase α .primary
  | primary (p : Phrase α .primary) : Phrase α .unary
  | signed (sign : Sign) (u : Phrase α .unary) : Phrase α .unary
  | unary (u : Phrase α .unary) : Phrase α .term
  | product (t : Phrase α .term) (scaling : Scaling) (u : Phrase α .unary) : Phrase α .term
  | term (t : Phrase α .term) : Phrase α .expression
  | sum (e : Phrase α .expression) (sign : Sign) (t : Phrase α .term) : Phrase α .expression

namespace Phrase

variable {α β γ : Type} {c : Category}

def spell (leaf : α → List β) (mark : Symbol → β) {c : Category} : Phrase α c → List β
  | operand x => leaf x
  | group e => mark .openParen :: (e.spell leaf mark ++ [mark .closeParen])
  | primary p => p.spell leaf mark
  | signed sign u => mark sign.symbol :: u.spell leaf mark
  | unary u => u.spell leaf mark
  | product t scaling u => t.spell leaf mark ++ mark scaling.symbol :: u.spell leaf mark
  | term t => t.spell leaf mark
  | sum e sign t => e.spell leaf mark ++ mark sign.symbol :: t.spell leaf mark

/-- Parentheses leave no trace in the tree. -/
def tree (leaf : α → β) {c : Category} : Phrase α c → Tree β
  | operand x => .number (leaf x)
  | group e => e.tree leaf
  | primary p => p.tree leaf
  | signed sign u => .signed sign (u.tree leaf)
  | unary u => u.tree leaf
  | product t scaling u => .binary scaling.operation (t.tree leaf) (u.tree leaf)
  | term t => t.tree leaf
  | sum e sign t => .binary sign.operation (e.tree leaf) (t.tree leaf)

/-- The largest number of signs and parentheses around a place of the phrase. -/
def nesting (leaf : α → Nat) {c : Category} : Phrase α c → Nat
  | operand x => leaf x
  | group e => e.nesting leaf + 1
  | primary p => p.nesting leaf
  | signed _ u => u.nesting leaf + 1
  | unary u => u.nesting leaf
  | product t _ u => max (t.nesting leaf) (u.nesting leaf)
  | term t => t.nesting leaf
  | sum e _ t => max (e.nesting leaf) (t.nesting leaf)

def All (P : α → Prop) {c : Category} : Phrase α c → Prop
  | operand x => P x
  | group e => e.All P
  | primary p => p.All P
  | signed _ u => u.All P
  | unary u => u.All P
  | product t _ u => t.All P ∧ u.All P
  | term t => t.All P
  | sum e _ t => e.All P ∧ t.All P

def symbols (p : Phrase (List Char) c) : List Symbol :=
  p.spell (fun numeral => [.number numeral]) id

def depth (p : Phrase α c) : Nat :=
  p.nesting fun _ => 0

theorem symbols_ne_nil (p : Phrase (List Char) c) : p.symbols ≠ [] := by
  unfold symbols
  induction p <;> simp_all [spell]

theorem flatMap_spell {leaf : α → List β} {mark : Symbol → β} {f : β → List γ}
    {mark' : Symbol → γ} (hmark : ∀ s, f (mark s) = [mark' s]) (p : Phrase α c) :
    (p.spell leaf mark).flatMap f = p.spell (fun x => (leaf x).flatMap f) mark' := by
  induction p <;> simp_all [spell]

theorem all_of_forall {P : α → Prop} (h : ∀ x, P x) (p : Phrase α c) : p.All P := by
  induction p <;> simp_all [All]

/-- What is spelled comes from an operand or is no number. -/
theorem forall_mem_spell {P : α → Prop} {Q : β → Prop} {leaf : α → List β} {mark : Symbol → β}
    (hleaf : ∀ x, P x → ∀ y ∈ leaf x, Q y) (hmark : ∀ s : Symbol, s.isNumber = false → Q (mark s))
    {p : Phrase α c} (hp : p.All P) : ∀ y ∈ p.spell leaf mark, Q y := by
  induction p with
  | operand x => exact hleaf x hp
  | group e ih =>
    intro y hy
    simp only [spell, List.mem_cons, List.mem_append, List.not_mem_nil, or_false] at hy
    rcases hy with rfl | hy | rfl
    · exact hmark .openParen rfl
    · exact ih hp y hy
    · exact hmark .closeParen rfl
  | primary p ih => exact ih hp
  | signed sign u ih =>
    intro y hy
    rcases List.mem_cons.mp hy with rfl | hy
    · exact hmark _ sign.not_isNumber
    · exact ih hp y hy
  | unary u ih => exact ih hp
  | product t scaling u iht ihu =>
    intro y hy
    simp only [spell, List.mem_append, List.mem_cons] at hy
    rcases hy with hy | rfl | hy
    · exact iht hp.1 y hy
    · exact hmark _ scaling.not_isNumber
    · exact ihu hp.2 y hy
  | term t ih => exact ih hp
  | sum e sign t ihe iht =>
    intro y hy
    simp only [spell, List.mem_append, List.mem_cons] at hy
    rcases hy with hy | rfl | hy
    · exact ihe hp.1 y hy
    · exact hmark _ sign.not_isNumber
    · exact iht hp.2 y hy

end Phrase

/-- Where an operand may have signs before it, so may a phrase that begins with one. -/
abbrev Category.afterSigns : Category → Category
  | .primary => .unary
  | c => c

namespace Phrase

variable {α β γ : Type} {c : Category}

def substitute (f : α → Phrase β .unary) {c : Category} : Phrase α c → Phrase β c.afterSigns
  | operand x => f x
  | group e => .primary (.group (e.substitute f))
  | primary p => p.substitute f
  | signed sign u => .signed sign (u.substitute f)
  | unary u => .unary (u.substitute f)
  | product t scaling u => .product (t.substitute f) scaling (u.substitute f)
  | term t => .term (t.substitute f)
  | sum e sign t => .sum (e.substitute f) sign (t.substitute f)

variable {f : α → Phrase β .unary}

theorem spell_substitute (leaf : β → List γ) (mark : Symbol → γ) (p : Phrase α c) :
    (p.substitute f).spell leaf mark = p.spell (fun x => (f x).spell leaf mark) mark := by
  induction p <;> simp_all [substitute, spell]

theorem nesting_substitute (leaf : β → Nat) (p : Phrase α c) :
    (p.substitute f).nesting leaf = p.nesting fun x => (f x).nesting leaf := by
  induction p <;> simp_all [substitute, nesting]

theorem all_substitute {P : β → Prop} {p : Phrase α c} (hp : p.All fun x => (f x).All P) :
    (p.substitute f).All P := by
  induction p <;> simp_all [substitute, All]

/-- An operand may be evaluated before the phrase that it is part of. -/
theorem value_substitute (A : Arithmetic γ) (leaf : β → γ) (p : Phrase α c) :
    ((p.substitute f).tree leaf).value A =
      (p.tree fun x => ((f x).tree leaf).value A).value A := by
  induction p with
  | signed sign u ih => cases sign <;> simp_all [substitute, tree, Tree.value]
  | _ => simp_all [substitute, tree, Tree.value]

end Phrase

end Flowsheet.Expression
