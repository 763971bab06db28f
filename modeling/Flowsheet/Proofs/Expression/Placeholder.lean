import Flowsheet.Proofs.Expression.Lexing
import Flowsheet.Proofs.Expression.Filling
import Flowsheet.Proofs.Numeral.Rendering

/-! Where the placeholders of a text are: each one begins as far left as it can after the one before
it and is as short as it can be. What is filled in holds no braces, and the braces that are left
never make a placeholder, so that a filled text has none. -/

namespace Flowsheet.Template

open Numeral

variable {c b : Char} {cs rest inner after : List Char} {f : String → Double}

/-- No part of the text is a placeholder. -/
def Free (cs : List Char) : Prop :=
  ∀ before inner after, '\n' ∉ inner → cs ≠ before ++ placeholder inner ++ after

/-- The first placeholder of the text: none begins further left, and none that begins there is
shorter. -/
structure First (cs before inner after : List Char) : Prop where
  eq : cs = before ++ placeholder inner ++ after
  one_line : '\n' ∉ inner
  leftmost : ∀ before' inner' after', '\n' ∉ inner' →
    cs = before' ++ placeholder inner' ++ after' → before.length ≤ before'.length
  shortest : ∀ inner' after', '\n' ∉ inner' →
    cs = before ++ placeholder inner' ++ after' → inner.length ≤ inner'.length

/-- The placeholders of the text one after another, each with the text before it, and the text after
the last one. -/
inductive Spans : List Char → List (List Char × List Char) → List Char → Prop
  | none {cs : List Char} (hfree : Free cs) : Spans cs [] cs
  | next {cs before inner after rest : List Char} {spans : List (List Char × List Char)}
      (hfirst : First cs before inner after) (hs : Spans after spans rest) :
      Spans cs ((before, inner) :: spans) rest

theorem splitAtClose_cons (hc : c ≠ '\n') (rest : List Char) :
    splitAtClose (c :: rest) = if c = '\x7d' ∧ rest.head? = some '\x7d' then some ([], rest.tail)
      else (splitAtClose rest).map fun p => (c :: p.1, p.2) := by
  by_cases hclose : c = '\x7d' ∧ rest.head? = some '\x7d'
  · obtain ⟨rfl, hhead⟩ := hclose
    obtain ⟨tail, rfl⟩ := List.head?_eq_some_iff.mp hhead
    simp [splitAtClose]
  · rw [if_neg hclose, splitAtClose]
    · intro tail hb hrest
      exact hclose ⟨hb, by rw [hrest]; rfl⟩
    · exact hc

theorem splitAtClose_eq_some (h : splitAtClose cs = some (inner, after)) :
    cs = inner ++ '\x7d' :: '\x7d' :: after ∧ '\n' ∉ inner := by
  fun_induction splitAtClose cs generalizing inner after with
  | case1 rest =>
    cases h
    exact ⟨rfl, List.not_mem_nil⟩
  | case2 => cases h
  | case3 c rest _ hline ih =>
    obtain ⟨⟨i, a⟩, hs, he⟩ := Option.map_eq_some_iff.mp h
    cases he
    obtain ⟨hrest, hi⟩ := ih hs
    exact ⟨by rw [hrest, List.cons_append], by simp [hi, Ne.symm hline]⟩
  | case4 => cases h

/-- A pair of closing braces on the same line is found, if not an earlier one. -/
theorem exists_splitAtClose (hi : '\n' ∉ inner) (after : List Char) :
    ∃ i a, splitAtClose (inner ++ '\x7d' :: '\x7d' :: after) = some (i, a) ∧
      i.length ≤ inner.length := by
  induction inner with
  | nil => exact ⟨[], after, rfl, Nat.le_refl _⟩
  | cons c inner ih =>
    rw [List.mem_cons, not_or] at hi
    obtain ⟨i, a, hs, hle⟩ := ih hi.2
    rw [List.cons_append, splitAtClose_cons (Ne.symm hi.1)]
    split
    · exact ⟨[], _, rfl, Nat.zero_le _⟩
    · exact ⟨c :: i, a, by rw [hs]; rfl, by simpa using hle⟩

theorem splitPlaceholder_eq_none_iff :
    splitPlaceholder cs = none ↔ ∀ inner after, '\n' ∉ inner → cs ≠ placeholder inner ++ after := by
  constructor
  · rintro h inner after hi rfl
    obtain ⟨i, a, hs, -⟩ := exists_splitAtClose hi after
    rw [placeholder_append, splitPlaceholder, hs] at h
    cases h
  · intro h
    unfold splitPlaceholder
    split
    · next rest =>
      cases hs : splitAtClose rest with
      | none => rfl
      | some p =>
        obtain ⟨i, a⟩ := p
        obtain ⟨hrest, hi⟩ := splitAtClose_eq_some hs
        exact absurd (by rw [hrest, placeholder_append]) (h i a hi)
    · rfl

theorem splitPlaceholder_eq_some (h : splitPlaceholder cs = some (inner, after)) :
    cs = placeholder inner ++ after ∧ '\n' ∉ inner ∧
      ∀ inner' after', '\n' ∉ inner' → cs = placeholder inner' ++ after' →
        inner.length ≤ inner'.length := by
  unfold splitPlaceholder at h
  split at h
  · obtain ⟨hrest, hi⟩ := splitAtClose_eq_some h
    refine ⟨by rw [hrest, placeholder_append], hi, fun inner' after' hi' he => ?_⟩
    obtain ⟨i, a, hs, hle⟩ := exists_splitAtClose hi' after'
    rw [placeholder_append] at he
    obtain rfl := (List.cons.inj (List.cons.inj he).2).2
    rw [h] at hs
    cases hs
    exact hle
  · cases h

theorem free_nil : Free [] := by
  intro before inner after _ h
  simp [placeholder] at h

theorem free_cons (hc : splitPlaceholder (c :: cs) = none) (hcs : Free cs) : Free (c :: cs) := by
  rintro (_ | ⟨d, before⟩) inner after hi h
  · exact splitPlaceholder_eq_none_iff.mp hc inner after hi h
  · exact hcs before inner after hi (List.cons.inj h).2

theorem Free.splitPlaceholder_eq_none (h : Free cs) : splitPlaceholder cs = none :=
  splitPlaceholder_eq_none_iff.mpr fun inner after hi he => h [] inner after hi he

theorem Free.tail (h : Free (c :: cs)) : Free cs :=
  fun before inner after hi he => h (c :: before) inner after hi (congrArg (c :: ·) he)

theorem free_append {word : List Char} (hw : ∀ c ∈ word, c ≠ '\x7b') (hcs : Free cs) :
    Free (word ++ cs) := by
  induction word with
  | nil => exact hcs
  | cons c word ih =>
    exact free_cons (splitPlaceholder_of_ne (hw c List.mem_cons_self))
      (ih fun d hd => hw d (List.mem_cons_of_mem c hd))

theorem Free.pieces_eq (h : Free cs) : pieces cs = cs.map .literal := by
  induction cs with
  | nil => rw [pieces, List.map_nil]
  | cons c cs ih => rw [pieces_cons_of_none h.splitPlaceholder_eq_none, ih h.tail, List.map_cons]

theorem Free.fill_eq (h : Free cs) (f : String → Double) : fill f cs = cs := by
  rw [fill, h.pieces_eq, List.flatMap_map]
  exact List.flatMap_singleton' cs

theorem not_mem_render (hb : IsBrace b) (x : Double) : b ∉ render x := by
  cases hx : x.isNaN with
  | true =>
    cases x with
    | nan payload => exact not_mem_of_isNumber .notANumber hb
    | infinite | finite => cases hx
  | false =>
    have hminus : b ≠ '-' := by rcases hb with rfl | rfl <;> decide
    rw [render_eq hx, List.mem_append, not_or]
    refine ⟨?_, not_mem_of_isNumber (isNumber_render_magnitude hx) hb⟩
    cases x.isBelowZero <;> simp [Double.signText, hminus]

theorem render_ne_nil (x : Double) : render x ≠ [] := by
  cases hx : x.isNaN with
  | true =>
    cases x with
    | nan payload => exact List.cons_ne_nil _ _
    | infinite | finite => cases hx
  | false =>
    obtain ⟨c, tail, he, -⟩ := Expression.exists_cons_of_isNumber (isNumber_render_magnitude hx)
    rw [render_eq hx, he]
    exact List.append_ne_nil_of_right_ne_nil _ (List.cons_ne_nil _ _)

/-- A brace at the head of the filled text is one of the text itself. -/
theorem exists_of_head?_fill (hb : IsBrace b) (h : (fill f cs).head? = some b) :
    ∃ rest, cs = b :: rest ∧ fill f cs = b :: fill f rest := by
  cases hs : splitPlaceholder cs with
  | some p =>
    obtain ⟨d, tail, he⟩ := List.exists_cons_of_ne_nil (render_ne_nil (f (name p.1)))
    rw [fill_of_some f hs, he] at h
    cases h
    exact absurd (he ▸ List.mem_cons_self) (not_mem_render hb (f (name p.1)))
  | none =>
    cases cs with
    | nil =>
      rw [fill_nil] at h
      cases h
    | cons c rest =>
      rw [fill_cons_of_none f hs] at h ⊢
      cases h
      exact ⟨rest, rfl, rfl⟩

/-- No pair of closing braces comes up on the first line. Only a placeholder on that line could take
one away, and it would bring its own. -/
theorem splitAtClose_fill (h : splitAtClose cs = none) : splitAtClose (fill f cs) = none := by
  induction cs with
  | nil => rw [fill_nil, splitAtClose]
  | cons c rest ih =>
    cases hs : splitPlaceholder (c :: rest) with
    | some p =>
      obtain ⟨inner, after⟩ := p
      obtain ⟨he, hi, -⟩ := splitPlaceholder_eq_some hs
      have hline : '\n' ∉ '\x7b' :: '\x7b' :: inner := by simp [hi]
      obtain ⟨i, a, hclose, -⟩ := exists_splitAtClose hline after
      rw [he, placeholder_append] at h
      exact absurd (hclose.symm.trans h) (Option.some_ne_none _)
    | none =>
      rw [fill_cons_of_none f hs]
      by_cases hc : c = '\n'
      · rw [hc]
        rfl
      · rw [splitAtClose_cons hc] at h ⊢
        split at h
        · cases h
        · next hpair =>
          have hkept : ¬ (c = '\x7d' ∧ (fill f rest).head? = some '\x7d') := by
            rintro ⟨rfl, hhead⟩
            obtain ⟨tail, rfl, -⟩ := exists_of_head?_fill (.inr rfl) hhead
            exact hpair ⟨rfl, rfl⟩
          rw [if_neg hkept, ih (Option.map_eq_none_iff.mp h), Option.map_none]

theorem splitPlaceholder_fill (h : splitPlaceholder (c :: rest) = none) :
    splitPlaceholder (c :: fill f rest) = none := by
  by_cases hopen : c = '\x7b' ∧ (fill f rest).head? = some '\x7b'
  · obtain ⟨rfl, hhead⟩ := hopen
    obtain ⟨tail, rfl, hfill⟩ := exists_of_head?_fill (.inl rfl) hhead
    rw [hfill]
    exact splitAtClose_fill h
  · unfold splitPlaceholder
    split
    · next tail he =>
      obtain ⟨hc, hrest⟩ := List.cons.inj he
      exact absurd ⟨hc, by rw [hrest]; rfl⟩ hopen
    · rfl

theorem free_fill (f : String → Double) (cs : List Char) : Free (fill f cs) := by
  fun_induction pieces cs with
  | case1 =>
    rw [fill_nil]
    exact free_nil
  | case2 c rest inner after h _ ih =>
    rw [fill_of_some f h]
    exact free_append (fun d hd he => not_mem_render (.inl he) _ hd) ih
  | case3 c rest h ih =>
    rw [fill_cons_of_none f h]
    exact free_cons (splitPlaceholder_fill h) ih

/-- Filling is done in one pass: no number and no brace that is left makes a new placeholder. -/
theorem free_interpolate (template : String) (v w : String → Option Value) :
    Free (interpolate template v).toList ∧ references (interpolate template v) = [] ∧
      interpolate (interpolate template v) w = interpolate template v := by
  have htext : (interpolate template v).toList = fill (numberIn v) template.toList :=
    String.toList_ofList
  have hfree := free_fill (numberIn v) template.toList
  refine ⟨htext ▸ hfree, ?_, ?_⟩
  · rw [references, htext, hfree.pieces_eq, List.filterMap_map, List.filterMap_eq_nil_iff]
    exact fun c _ => rfl
  · rw [interpolate, htext, hfree.fill_eq, interpolate]

namespace First

variable {before : List Char}

theorem of_splitPlaceholder (h : splitPlaceholder cs = some (inner, after)) :
    First cs [] inner after := by
  obtain ⟨he, hi, hshort⟩ := splitPlaceholder_eq_some h
  exact ⟨he, hi, fun _ _ _ _ _ => Nat.zero_le _, hshort⟩

theorem cons (h : First cs before inner after) (hc : splitPlaceholder (c :: cs) = none) :
    First (c :: cs) (c :: before) inner after where
  eq := congrArg (c :: ·) h.eq
  one_line := h.one_line
  leftmost := by
    rintro (_ | ⟨d, before'⟩) inner' after' hi he
    · exact absurd he (splitPlaceholder_eq_none_iff.mp hc inner' after' hi)
    · exact Nat.succ_le_succ (h.leftmost before' inner' after' hi (List.cons.inj he).2)
  shortest inner' after' hi he := h.shortest inner' after' hi (List.cons.inj he).2

theorem tail (h : First (c :: cs) (b :: before) inner after) : First cs before inner after where
  eq := (List.cons.inj h.eq).2
  one_line := h.one_line
  leftmost before' inner' after' hi he :=
    Nat.le_of_succ_le_succ (h.leftmost (c :: before') inner' after' hi (congrArg (c :: ·) he))
  shortest inner' after' hi he := by
    have hhead : c = b := (List.cons.inj h.eq).1
    exact h.shortest inner' after' hi (by rw [hhead, he, List.cons_append, List.cons_append])

theorem splitPlaceholder_eq (h : First cs [] inner after) :
    splitPlaceholder cs = some (inner, after) := by
  cases hs : splitPlaceholder cs with
  | none => exact absurd h.eq (splitPlaceholder_eq_none_iff.mp hs inner after h.one_line)
  | some p =>
    obtain ⟨i, a⟩ := p
    obtain ⟨he, hi, hshort⟩ := splitPlaceholder_eq_some hs
    have hle := hshort inner after h.one_line h.eq
    have hge := h.shortest i a hi he
    have htexts : i ++ '\x7d' :: '\x7d' :: a = inner ++ '\x7d' :: '\x7d' :: after := by
      have hsame := he.symm.trans h.eq
      rw [List.nil_append, placeholder_append, placeholder_append] at hsame
      exact (List.cons.inj (List.cons.inj hsame).2).2
    obtain ⟨hinner, hafter⟩ := List.append_inj htexts (Nat.le_antisymm hle hge)
    rw [← hinner, ← (List.cons.inj (List.cons.inj hafter).2).2]

theorem splitPlaceholder_eq_none (h : First cs (b :: before) inner after) :
    splitPlaceholder cs = none := by
  refine splitPlaceholder_eq_none_iff.mpr fun inner' after' hi he => ?_
  have hle := h.leftmost [] inner' after' hi he
  simp at hle

theorem pieces_eq (h : First cs before inner after) :
    pieces cs = before.map .literal ++ .placeholder inner :: pieces after := by
  induction before generalizing cs with
  | nil => rw [pieces_of_some h.splitPlaceholder_eq, List.map_nil, List.nil_append]
  | cons b before ih =>
    have he := h.eq
    rw [List.cons_append, List.cons_append] at he
    subst he
    rw [pieces_cons_of_none h.splitPlaceholder_eq_none, ih h.tail, List.map_cons, List.cons_append]

end First

theorem exists_spans (cs : List Char) : ∃ spans rest, Spans cs spans rest := by
  fun_induction pieces cs with
  | case1 => exact ⟨[], [], .none free_nil⟩
  | case2 c rest inner after h _ ih =>
    obtain ⟨spans, tail, hs⟩ := ih
    exact ⟨([], inner) :: spans, tail, .next (.of_splitPlaceholder h) hs⟩
  | case3 c rest h ih =>
    obtain ⟨spans, tail, hs⟩ := ih
    cases hs with
    | none hfree => exact ⟨[], c :: rest, .none (free_cons h hfree)⟩
    | next hfirst hs => exact ⟨_, tail, .next (hfirst.cons h) hs⟩

namespace Spans

variable {spans : List (List Char × List Char)} {template : String}

theorem filterMap_name? (h : Spans cs spans rest) :
    (pieces cs).filterMap Piece.name? = spans.map fun span => name span.2 := by
  have hliteral : ∀ text : List Char, (text.map Piece.literal).filterMap Piece.name? = [] :=
    fun text => by simp [List.filterMap_map, Piece.name?]
  induction h with
  | none hfree => rw [hfree.pieces_eq, hliteral, List.map_nil]
  | next hfirst _ ih =>
    rw [hfirst.pieces_eq, List.filterMap_append, hliteral, List.nil_append, List.map_cons, ← ih]
    rfl

theorem references_eq (h : Spans template.toList spans rest) :
    references template = spans.map fun span => name span.2 :=
  h.filterMap_name?

theorem fill_eq (h : Spans cs spans rest) (f : String → Double) :
    fill f cs = (spans.flatMap fun span => span.1 ++ render (f (name span.2))) ++ rest := by
  have hliteral : ∀ text : List Char, (text.map Piece.literal).flatMap (Piece.render f) = text :=
    fun text => by rw [List.flatMap_map]; exact List.flatMap_singleton' text
  induction h with
  | none hfree => rw [hfree.fill_eq, List.flatMap_nil, List.nil_append]
  | next hfirst _ ih =>
    rw [fill, hfirst.pieces_eq, List.flatMap_append, hliteral, List.flatMap_cons, List.flatMap_cons,
      List.append_assoc, List.append_assoc, ← ih]
    rfl

/-- The numbers of the references stand in the places of the placeholders, one for each. -/
theorem interpolate_eq (h : Spans template.toList spans rest) (get? : String → Option Value) :
    (interpolate template get?).toList =
      (spans.zipWith (fun span name => span.1 ++ render (numberIn get? name))
        (references template)).flatten ++ rest := by
  have htext : (interpolate template get?).toList = fill (numberIn get?) template.toList :=
    String.toList_ofList
  rw [htext, h.fill_eq, h.references_eq, List.zipWith_map_right, List.zipWith_self,
    List.flatMap_def]

end Spans

theorem render_congr {x y : Double} (h : x.equal y = true) : render x = render y := by
  cases x <;> cases y <;> simp only [Double.equal, Bool.and_eq_true, Bool.or_eq_true, beq_iff_eq,
    Bool.false_eq_true] at h
  · rfl
  · rw [h]
  · next s p t q =>
    obtain ⟨rfl, hsign⟩ := h
    rcases hsign with rfl | hzero
    · rfl
    · rw [render_finite, render_finite, hzero]
      simp

/-- The variables have equal numbers under these names, and the two zeros are equal. -/
def Agree (names : List String) (v w : String → Option Value) : Prop :=
  ∀ name ∈ names, (numberIn v name).equal (numberIn w name) = true

theorem interpolate_congr {template : String} {v w : String → Option Value}
    (h : Agree (references template) v w) : interpolate template v = interpolate template w := by
  obtain ⟨spans, rest, hs⟩ := exists_spans template.toList
  have hnumbers : spans.zipWith (fun span name => span.1 ++ render (numberIn v name))
      (references template) = spans.zipWith (fun span name => span.1 ++ render (numberIn w name))
      (references template) := by
    rw [hs.references_eq, List.zipWith_map_right, List.zipWith_map_right, List.zipWith_self,
      List.zipWith_self]
    refine List.map_congr_left fun span hm => ?_
    rw [render_congr (h (name span.2) (hs.references_eq ▸ List.mem_map_of_mem hm))]
  rw [← String.toList_inj, hs.interpolate_eq, hs.interpolate_eq, hnumbers]

end Flowsheet.Template
