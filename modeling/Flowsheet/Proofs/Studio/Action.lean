import Flowsheet.Studio.Operation
import Mathlib.Logic.Relation

/-! The logic of actions. An action leads along a path of moves whether it fails or not, and what
is said of its answer holds where the path ends. The rules follow the way in which actions are put
together. -/

namespace Flowsheet.Studio

open Relation (ReflTransGen)

variable {α β ε : Type} {a : Action α} {f : α → Action β} {x : α} {fault : Fault} {s t : Studio}

theorem outcome_bind (a : Action α) (f : α → Action β) (s : Studio) :
    outcome (a >>= f) s = match (outcome a s).1 with
      | .ok x => outcome (f x) (outcome a s).2
      | .error fault => (.error fault, (outcome a s).2) := by
  have hcont : outcome (a >>= f) s = ExceptT.bindCont f (outcome a s).1 (outcome a s).2 := rfl
  rw [hcont]
  cases (outcome a s).1 <;> rfl

theorem outcome_bind_of_ok (ha : outcome a s = (.ok x, t)) :
    outcome (a >>= f) s = outcome (f x) t := by
  rw [outcome_bind, ha]

theorem outcome_bind_of_error (ha : outcome a s = (.error fault, t)) :
    outcome (a >>= f) s = (.error fault, t) := by
  rw [outcome_bind, ha]

theorem outcome_get_bind (f : Studio → Action β) (s : Studio) :
    outcome (get >>= f) s = outcome (f s) s := rfl

theorem outcome_attempt_bind_of_ok {wrap : ε → Fault} {r : Except ε α} (hr : r = .ok x) :
    outcome (attempt wrap r >>= f) s = outcome (f x) s := by
  rw [hr]
  rfl

/-- The studio goes from one state to another by these moves, and the answer is as said. -/
structure Reaches (R : Studio → Studio → Prop) (s : Studio) (a : Action α)
    (Q : α → Studio → Prop) : Prop where
  path : ReflTransGen R s (outcome a s).2
  answer : ∀ x, (outcome a s).1 = .ok x → Q x (outcome a s).2

section

variable {R : Studio → Studio → Prop} {Q : α → Studio → Prop} {P : β → Studio → Prop}

theorem reaches_pure (hq : Q x s) : Reaches R s (pure x) Q where
  path := .refl
  answer _ hy := Except.ok.inj hy ▸ hq

theorem reaches_throw (fault : Fault) : Reaches R s (throw fault) Q where
  path := .refl
  answer _ hy := nomatch hy

theorem Reaches.bind (ha : Reaches R s a Q) (hf : ∀ x t, Q x t → Reaches R t (f x) P) :
    Reaches R s (a >>= f) P := by
  cases he : outcome a s with
  | mk r t =>
    obtain ⟨hpath, hanswer⟩ := ha
    rw [he] at hpath hanswer
    cases r with
    | ok x =>
      obtain ⟨hrest, hlast⟩ := hf x t (hanswer x rfl)
      constructor <;> rw [outcome_bind_of_ok he]
      · exact hpath.trans hrest
      · exact hlast
    | error fault =>
      constructor <;> rw [outcome_bind_of_error he]
      · exact hpath
      · exact fun _ hy => nomatch hy

theorem Reaches.of_ok (ha : Reaches R s a Q) (ho : outcome a s = (.ok x, t)) : Q x t := by
  have hanswer := ha.answer x
  rw [ho] at hanswer
  exact hanswer rfl

/-- What every move keeps, the action keeps, whether it fails or not. -/
theorem Reaches.keeps {K : Studio → Prop} (ha : Reaches R s a Q)
    (hmove : ∀ s t, R s t → K s → K t) (hs : K s) : K (outcome a s).2 := by
  have hpath : ReflTransGen R s (outcome a s).2 := ha.path
  generalize (outcome a s).2 = t at hpath
  induction hpath with
  | refl => exact hs
  | tail _ hlast ih => exact hmove _ _ hlast ih

theorem Reaches.wrapped (ha : Reaches R s a Q) (wrap : α → β) :
    Reaches R s (do return wrap (← a)) fun _ _ => True :=
  ha.bind fun _ _ _ => reaches_pure trivial

theorem reaches_get_bind {f : Studio → Action β} (hf : Reaches R s (f s) P) :
    Reaches R s (get >>= f) P :=
  ⟨hf.path, hf.answer⟩

theorem reaches_attempt_bind {wrap : ε → Fault} {r : Except ε α}
    (hf : ∀ x, r = .ok x → Reaches R s (f x) P) : Reaches R s (attempt wrap r >>= f) P := by
  cases r with
  | ok x => exact ⟨(hf x rfl).path, (hf x rfl).answer⟩
  | error fault => exact ⟨.refl, fun _ hy => nomatch hy⟩

theorem reaches_modify_bind {change : Studio → Studio} {f : Unit → Action β}
    (hr : R s (change s)) (hf : Reaches R (change s) (f ()) P) :
    Reaches R s (modify change >>= f) P where
  path := .head hr hf.path
  answer := hf.answer

end

end Flowsheet.Studio
