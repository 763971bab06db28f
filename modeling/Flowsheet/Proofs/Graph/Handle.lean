import Flowsheet.Graph.Basic
import Flowsheet.Proofs.Numeral.Spelling
import Flowsheet.Proofs.Success

/-! Which handles name a row, and by which index. A handle is in order if it names no row at all or
one that the payload has; one whose index has too many digits is not read. -/

namespace Flowsheet

namespace RowHandle

open Numeral Text

variable {cs rest digits digits' : List Char} {kind kind' : RowKind} {handle : Option String}

/-- The text is the kind, a hyphen and the digits, perhaps with a line break at its end. -/
structure Spelled (cs : List Char) (kind : RowKind) (digits : List Char) : Prop where
  ne_nil : digits ≠ []
  allDigits : AllDigits digits
  text_eq : ∃ ending ∈ [[], ['\n']], cs = kind.tag.toList ++ '-' :: (digits ++ ending)

/-- The handle names a row of the kind by an index with these digits. -/
def Names (handle : Option String) (kind : RowKind) (digits : List Char) : Prop :=
  ∃ text ∈ handle, Spelled text.toList kind digits

/-- The handle names a row by more digits than are read as a number. -/
def Overlong (handle : Option String) : Prop :=
  ∃ kind digits, Names handle kind digits ∧ longestRow < digits.length

theorem noDigit_ending {ending : List Char} (he : ending ∈ [[], ['\n']]) : NoDigit ending := by
  simp only [List.mem_cons, List.not_mem_nil, or_false] at he
  rcases he with rfl | rfl
  · simp [NoDigit]
  · rintro c ⟨⟩
    decide

theorem tag_append_inj (h : kind.tag.toList ++ '-' :: cs = kind'.tag.toList ++ '-' :: rest) :
    kind = kind' ∧ cs = rest := by
  cases kind <;> cases kind' <;> simp_all [RowKind.tag]

theorem Spelled.unique (hs : Spelled cs kind digits) (hs' : Spelled cs kind' digits') :
    kind = kind' ∧ digits = digits' := by
  obtain ⟨ending, he, rfl⟩ := hs.text_eq
  obtain ⟨ending', he', heq⟩ := hs'.text_eq
  obtain ⟨rfl, hrest⟩ := tag_append_inj heq
  have hsplit := splitDigits_append_of_allDigits hs.allDigits (noDigit_ending he)
  rw [hrest, splitDigits_append_of_allDigits hs'.allDigits (noDigit_ending he')] at hsplit
  exact ⟨rfl, (congrArg Prod.fst hsplit).symm⟩

theorem Names.unique (hn : Names handle kind digits) (hn' : Names handle kind' digits') :
    kind = kind' ∧ digits = digits' := by
  obtain ⟨text, ht, hs⟩ := hn
  obtain ⟨text', ht', hs'⟩ := hn'
  obtain rfl := Option.mem_unique ht ht'
  exact hs.unique hs'

/-- The handle of the kind with these digits. -/
def spell (kind : RowKind) (digits : List Char) : String :=
  String.ofList (kind.tag.toList ++ '-' :: digits)

theorem names_spell (kind : RowKind) (hne : digits ≠ []) (hd : AllDigits digits) :
    Names (some (spell kind digits)) kind digits := by
  refine ⟨_, rfl, hne, hd, [], by simp, ?_⟩
  rw [spell, String.toList_ofList, List.append_nil]

theorem names_replicate (kind : RowKind) {c : Char} (hc : isDigit c = true) (n : Nat) :
    Names (some (spell kind (List.replicate (n + 1) c))) kind (List.replicate (n + 1) c) := by
  refine names_spell kind (List.cons_ne_nil _ _) fun d hd => ?_
  rw [List.eq_of_mem_replicate hd]
  exact hc

/-- No payload has this row, and its index has one digit too many to be read. -/
def farRow : String := spell .sub (List.replicate (longestRow + 1) '9')

theorem names_farRow : Names (some farRow) .sub (List.replicate (longestRow + 1) '9') :=
  names_replicate .sub (by decide) longestRow

theorem indexDigits?_eq_some_iff : indexDigits? rest = some digits ↔
    digits ≠ [] ∧ AllDigits digits ∧ ∃ ending ∈ [[], ['\n']], rest = digits ++ ending := by
  constructor
  · intro hi
    have happend := splitDigits_append rest
    have hall := allDigits_splitDigits rest
    simp only [splitDigits] at happend hall
    unfold indexDigits? at hi
    dsimp only at hi
    split at hi
    · cases hi
    · next hdrop hne =>
      cases hi
      exact ⟨hne, hall, [], by simp, by rw [← hdrop, happend]⟩
    · next hdrop hne =>
      cases hi
      exact ⟨hne, hall, ['\n'], by simp, by rw [← hdrop, happend]⟩
    · cases hi
  · rintro ⟨hne, hd, ending, he, rfl⟩
    have hsplit := splitDigits_append_of_allDigits hd (noDigit_ending he)
    simp only [splitDigits, Prod.mk.injEq] at hsplit
    obtain ⟨first, others, rfl⟩ := List.exists_cons_of_ne_nil hne
    unfold indexDigits?
    simp only [hsplit.1, hsplit.2]
    simp only [List.mem_cons, List.not_mem_nil, or_false] at he
    rcases he with rfl | rfl <;> rfl

theorem split?_eq_some_iff : split? cs kind = some (kind', digits) ↔
    kind' = kind ∧ Spelled cs kind digits := by
  unfold split?
  dsimp only
  constructor
  · intro hs
    split at hs
    · next hp =>
      obtain ⟨rest, rfl⟩ := List.isPrefixOf_iff_prefix.mp hp
      rw [List.drop_left] at hs
      obtain ⟨digits', hi, he⟩ := Option.map_eq_some_iff.mp hs
      cases he
      obtain ⟨hne, hd, ending, he, rfl⟩ := indexDigits?_eq_some_iff.mp hi
      exact ⟨rfl, hne, hd, ending, he, by simp⟩
    · cases hs
  · rintro ⟨rfl, hne, hd, ending, he, rfl⟩
    have happend : kind'.tag.toList ++ '-' :: (digits ++ ending) =
        kind'.tag.toList ++ ['-'] ++ (digits ++ ending) := by simp
    have hi := indexDigits?_eq_some_iff.mpr ⟨hne, hd, ending, he, rfl⟩
    rw [happend, if_pos (List.isPrefixOf_iff_prefix.mpr ⟨_, rfl⟩), List.drop_left, hi,
      Option.map_some]

theorem findSome?_split?_eq_some_iff :
    RowKind.all.findSome? (split? cs) = some (kind, digits) ↔ Spelled cs kind digits := by
  have hsound : ∀ {kind digits}, RowKind.all.findSome? (split? cs) = some (kind, digits) →
      Spelled cs kind digits := by
    intro kind digits hf
    obtain ⟨kind', -, hs⟩ := List.exists_of_findSome?_eq_some hf
    obtain ⟨rfl, hspelled⟩ := split?_eq_some_iff.mp hs
    exact hspelled
  refine ⟨hsound, fun hs => ?_⟩
  -- Some kind is found, since the right one would be, and a text has one reading only.
  cases hf : RowKind.all.findSome? (split? cs) with
  | none =>
    have hmem : kind ∈ RowKind.all := by cases kind <;> decide
    have hnone := List.findSome?_eq_none_iff.mp hf kind hmem
    rw [split?_eq_some_iff.mpr ⟨rfl, hs⟩] at hnone
    cases hnone
  | some found =>
    obtain ⟨rfl, rfl⟩ := (hsound hf).unique hs
    rfl

theorem read?_of_names (hn : Names handle kind digits) : read? handle =
    if longestRow < digits.length then .error digits.length
    else .ok (some ⟨kind, numberOfDigits digits⟩) := by
  obtain ⟨text, ht, hs⟩ := hn
  obtain rfl := Option.mem_def.mp ht
  rw [read?, read, findSome?_split?_eq_some_iff.mpr hs]

theorem read?_of_not_names (hn : ∀ kind digits, ¬ Names handle kind digits) :
    read? handle = .ok none := by
  cases handle with
  | none => rfl
  | some text =>
    cases hf : RowKind.all.findSome? (split? text.toList) with
    | none => rw [read?, read, hf]
    | some found => exact absurd ⟨text, rfl, findSome?_split?_eq_some_iff.mp hf⟩ (hn _ _)

theorem read?_eq_some_iff {row : RowHandle} : read? handle = .ok (some row) ↔
    ∃ digits, Names handle row.kind digits ∧ digits.length ≤ longestRow ∧
      numberOfDigits digits = row.index := by
  constructor
  · intro hr
    by_cases hn : ∃ kind digits, Names handle kind digits
    · obtain ⟨kind, digits, hn⟩ := hn
      rw [read?_of_names hn] at hr
      split at hr
      · cases hr
      · next hl =>
        cases hr
        exact ⟨digits, hn, Nat.le_of_not_lt hl, rfl⟩
    · rw [read?_of_not_names fun kind digits h => hn ⟨kind, digits, h⟩] at hr
      cases hr
  · rintro ⟨digits, hn, hl, hi⟩
    rw [read?_of_names hn, if_neg (Nat.not_lt.mpr hl), hi]

end RowHandle

open RowHandle Text

/-- The handle names a row by an index beyond the rows that the payload has. -/
def Payload.Lacks (payload : Payload) (handle : Option String) : Prop :=
  ∃ kind digits, Names handle kind digits ∧ payload.rowCount kind ≤ numberOfDigits digits

namespace Graph

variable {payload : Payload} {handle : Option String} {kind : RowKind} {digits : List Char}
  {fault : Fault} {node : Node}

theorem handleResolves_of_names (payload : Payload) (hn : Names handle kind digits) :
    handleResolves payload handle =
      if longestRow < digits.length then .error (.longIndex digits.length)
      else .ok (numberOfDigits digits < payload.rowCount kind) := by
  rw [handleResolves, read?_of_names hn]
  by_cases hl : longestRow < digits.length
  · rw [if_pos hl, if_pos hl]
  · rw [if_neg hl, if_neg hl]

theorem handleResolves_of_not_names (payload : Payload)
    (hn : ∀ kind digits, ¬ Names handle kind digits) :
    handleResolves payload handle = .ok true := by
  rw [handleResolves, read?_of_not_names hn]

theorem handleResolves_eq_error_iff : handleResolves payload handle = .error fault ↔
    ∃ kind digits, Names handle kind digits ∧ longestRow < digits.length ∧
      fault = .longIndex digits.length := by
  constructor
  · intro he
    by_cases hn : ∃ kind digits, Names handle kind digits
    · obtain ⟨kind, digits, hn⟩ := hn
      rw [handleResolves_of_names payload hn] at he
      split at he
      · next hl => exact ⟨kind, digits, hn, hl, (Except.error.inj he).symm⟩
      · cases he
    · rw [handleResolves_of_not_names payload fun kind digits h => hn ⟨kind, digits, h⟩] at he
      cases he
  · rintro ⟨kind, digits, hn, hl, rfl⟩
    rw [handleResolves_of_names payload hn, if_pos hl]

theorem handleResolves_eq_ok_iff {resolves : Bool} :
    handleResolves payload handle = .ok resolves ↔
      ¬ Overlong handle ∧ (resolves = true ↔ ¬ payload.Lacks handle) := by
  by_cases hn : ∃ kind digits, Names handle kind digits
  · obtain ⟨kind, digits, hn⟩ := hn
    have hlong : Overlong handle ↔ longestRow < digits.length := by
      refine ⟨?_, fun hl => ⟨kind, digits, hn, hl⟩⟩
      rintro ⟨kind', digits', hn', hl⟩
      rwa [(hn.unique hn').2]
    have hlacks : payload.Lacks handle ↔ payload.rowCount kind ≤ numberOfDigits digits := by
      refine ⟨?_, fun hl => ⟨kind, digits, hn, hl⟩⟩
      rintro ⟨kind', digits', hn', hl⟩
      obtain ⟨rfl, rfl⟩ := hn.unique hn'
      exact hl
    rw [handleResolves_of_names payload hn, hlong, hlacks, Nat.not_le]
    by_cases hl : longestRow < digits.length
    · rw [if_pos hl]
      exact iff_of_false (fun he => nomatch he) fun h => h.1 hl
    · rw [if_neg hl, Except.ok.injEq, Bool.eq_iff_iff, decide_eq_true_iff]
      exact ⟨fun h => ⟨hl, h.symm⟩, fun h => h.2.symm⟩
  · have hfree : ∀ kind digits, ¬ Names handle kind digits := fun kind digits h => hn ⟨kind, digits, h⟩
    have hlong : ¬ Overlong handle := fun ⟨kind, digits, h, _⟩ => hfree kind digits h
    have hlacks : ¬ payload.Lacks handle := fun ⟨kind, digits, h, _⟩ => hfree kind digits h
    rw [handleResolves_of_not_names payload hfree, Except.ok.injEq]
    exact ⟨fun h => ⟨hlong, iff_of_true h.symm hlacks⟩, fun h => (h.2.mpr hlacks).symm⟩

end Graph

end Flowsheet
