import Flowsheet.Expression.Template
import Flowsheet.Proofs.Numeral.Spelling

/-! Filling a template from left to right: text without braces stays, and a placeholder becomes the
text of its number. -/

namespace Flowsheet.Template

open Numeral

variable {c : Char} {cs word inner : List Char}

def IsInner (inner : List Char) : Prop :=
  ∀ c ∈ inner, c ≠ '\x7b' ∧ c ≠ '\x7d' ∧ c ≠ '\n'

def placeholder (inner : List Char) : List Char :=
  '\x7b' :: '\x7b' :: (inner ++ ['\x7d', '\x7d'])

theorem placeholder_append (inner after : List Char) :
    placeholder inner ++ after = '\x7b' :: '\x7b' :: (inner ++ '\x7d' :: '\x7d' :: after) := by
  simp [placeholder]

theorem splitAtClose_append (hi : IsInner inner) (cs : List Char) :
    splitAtClose (inner ++ '\x7d' :: '\x7d' :: cs) = some (inner, cs) := by
  induction inner with
  | nil => rfl
  | cons c inner ih =>
    obtain ⟨-, hclose, hline⟩ := hi c List.mem_cons_self
    rw [List.cons_append, splitAtClose, ih (fun d hd => hi d (List.mem_cons_of_mem c hd))]
    · rfl
    · exact fun _ hc => absurd hc hclose
    · exact hline

theorem splitPlaceholder_of_ne (hc : c ≠ '\x7b') : splitPlaceholder (c :: cs) = none := by
  unfold splitPlaceholder
  split
  · next heq => exact absurd (List.cons.inj heq).1 hc
  · rfl

theorem splitPlaceholder_append (hi : IsInner inner) (cs : List Char) :
    splitPlaceholder (placeholder inner ++ cs) = some (inner, cs) := by
  rw [placeholder_append, splitPlaceholder, splitAtClose_append hi]

theorem pieces_cons_of_none (h : splitPlaceholder (c :: cs) = none) :
    pieces (c :: cs) = .literal c :: pieces cs := by
  rw [pieces]
  split
  · next inner after hs =>
    rw [h] at hs
    cases hs
  · rfl

theorem pieces_of_some {after : List Char} (h : splitPlaceholder cs = some (inner, after)) :
    pieces cs = .placeholder inner :: pieces after := by
  cases cs with
  | nil => cases h
  | cons c rest =>
    rw [pieces]
    split
    · next inner' after' hs =>
      rw [h] at hs
      cases hs
      rfl
    · next hs =>
      rw [h] at hs
      cases hs

def IsBrace (c : Char) : Prop :=
  c = '\x7b' ∨ c = '\x7d'

theorem not_mem_of_isNumber {numeral : List Char} (hn : IsNumber numeral) {b : Char}
    (hb : IsBrace b) : b ∉ numeral := by
  have hdigit : ∀ c, Text.isDigit c = true → c ≠ b := fun c hc =>
    ne_of_isDigit hc (by rcases hb with rfl | rfl <;> rfl)
  have hother : ∀ c ∈ otherCharacters, c ≠ b := by
    rcases hb with rfl | rfl <;> simp [otherCharacters, infinityName, nanName]
  exact fun hm => hn.forall_mem hdigit hother b hm rfl

theorem ne_brace_of_isNumber {numeral : List Char} (hn : IsNumber numeral) :
    ∀ c ∈ numeral, c ≠ '\x7b' := by
  rintro c hc rfl
  exact not_mem_of_isNumber hn (.inl rfl) hc

theorem fill_nil (numberOf : String → Double) : fill numberOf [] = [] := by
  rw [fill, pieces, List.flatMap_nil]

theorem fill_cons_of_none (numberOf : String → Double) (h : splitPlaceholder (c :: cs) = none) :
    fill numberOf (c :: cs) = c :: fill numberOf cs := by
  rw [fill, pieces_cons_of_none h, List.flatMap_cons]
  rfl

theorem fill_of_some (numberOf : String → Double) {after : List Char}
    (h : splitPlaceholder cs = some (inner, after)) :
    fill numberOf cs = render (numberOf (name inner)) ++ fill numberOf after := by
  rw [fill, pieces_of_some h, List.flatMap_cons]
  rfl

theorem fill_append (numberOf : String → Double) (hw : ∀ c ∈ word, c ≠ '\x7b')
    (cs : List Char) : fill numberOf (word ++ cs) = word ++ fill numberOf cs := by
  induction word with
  | nil => rfl
  | cons c word ih =>
    have hc : splitPlaceholder (c :: (word ++ cs)) = none :=
      splitPlaceholder_of_ne (hw c List.mem_cons_self)
    have hrest := ih fun d hd => hw d (List.mem_cons_of_mem c hd)
    rw [List.cons_append, fill_cons_of_none numberOf hc, hrest, List.cons_append]

theorem fill_placeholder (numberOf : String → Double) (hi : IsInner inner) (cs : List Char) :
    fill numberOf (placeholder inner ++ cs) =
      Numeral.render (numberOf (name inner)) ++ fill numberOf cs :=
  fill_of_some numberOf (splitPlaceholder_append hi cs)

end Flowsheet.Template
