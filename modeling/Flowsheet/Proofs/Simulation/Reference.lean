import Flowsheet.Proofs.Expression.Placeholder
import Flowsheet.Simulation.Step

/-! What an expression reads of the variables: the numbers of the names in its placeholders, and
nothing else of any value. The first of these names receives the result if no other is given. -/

namespace Flowsheet

open Template

theorem Expression.evaluate_congr_of_agree {template : String} {v w : String → Option Value}
    (h : Agree (references template) v w) : evaluate template v = evaluate template w := by
  simp only [evaluate, interpolate_congr h]

namespace Template

/-- A blank name is no name. -/
theorem target?_of_unnamed {template : String} {named : Option String}
    (hn : ∀ s ∈ named, Text.trim s = "") :
    target? template named = (references template).head?.filter (· ≠ "") := by
  have hnone : (named.map Text.trim).filter (· ≠ "") = none := by
    cases named with
    | none => rfl
    | some s => simp [Option.filter, hn s rfl]
  rw [target?, hnone]
  rfl

theorem Spans.target?_eq {template : String} {named : Option String} {before inner rest : List Char}
    {spans : List (List Char × List Char)}
    (hs : Spans template.toList ((before, inner) :: spans) rest)
    (hn : ∀ s ∈ named, Text.trim s = "") (hname : name inner ≠ "") :
    target? template named = some (name inner) := by
  rw [target?_of_unnamed hn, hs.references_eq, List.map_cons, List.head?_cons]
  simp [Option.filter, hname]

end Template

namespace Simulation

variable {node : Node} {template : String}

theorem effect_congr_of_agree (ht : template? node = some template) {v w : Variables}
    (h : Agree (references template) v.get? w.get?) : effect node v = effect node w := by
  simp only [effect, ht, Expression.evaluate_congr_of_agree h]

/-- All that a template does with the variables. -/
structure ReadsReferences (template : String) : Prop where
  spanned : ∃ spans rest, Spans template.toList spans rest
  filled : ∀ spans rest, Spans template.toList spans rest →
    spans.length = (references template).length ∧
    references template = spans.map (fun span => name span.2) ∧
    ∀ get?, (interpolate template get?).toList =
      (spans.zipWith (fun span name => span.1 ++ Numeral.render (numberIn get? name))
        (references template)).flatten ++ rest
  interpolated : ∀ v w, Agree (references template) v w →
    interpolate template v = interpolate template w
  evaluated : ∀ v w, Agree (references template) v w →
    Expression.evaluate template v = Expression.evaluate template w
  applied : ∀ node, template? node = some template → ∀ v w : Variables,
    Agree (references template) v.get? w.get? → effect node v = effect node w
  written : ∀ node, template? node = some template →
    (∀ s ∈ resultName node, Text.trim s = "") →
    ∀ before inner spans rest, Spans template.toList ((before, inner) :: spans) rest →
      name inner ≠ "" → ∀ (vars : Variables) value,
        Expression.evaluate template vars.get? = .ok value →
          effect node vars = .assigned (name inner) value

/-- Each reference is read where it stands, and two sets of variables that agree on the references
cannot be told apart by an expression. -/
theorem reads_references (template : String) : ReadsReferences template where
  spanned := exists_spans template.toList
  filled spans rest hs :=
    ⟨by rw [hs.references_eq, List.length_map], hs.references_eq, hs.interpolate_eq⟩
  interpolated _ _ := interpolate_congr
  evaluated _ _ := Expression.evaluate_congr_of_agree
  applied _ ht _ _ := effect_congr_of_agree ht
  written node ht hn before inner spans rest hs hname vars value hvalue := by
    have htarget := hs.target?_eq hn hname
    simp only [effect, ht, hvalue, htarget]

end Simulation

end Flowsheet
