import Flowsheet.Proofs.Numeral.Reading
import Flowsheet.Proofs.Success
import Flowsheet.Value.Parts
import Flowsheet.Value.Reader

/-! Values that JSON texts write. A whole number with too many digits is not read, so that every
value that is read can be written out again. -/

namespace Flowsheet.Value

open scoped NativePower

/-- Some text writes the value. -/
def IsWritten (v : Value) : Prop :=
  ∃ lone deepest text, readWithin lone deepest text = .ok v

namespace Reader

variable {v : Value} {c : Char} {s t : State} {frames : List Frame} {offset count : Nat}
  {cs rest : List Char}

def Frame.IsShort : Frame → Prop
  | .list items => ∀ v ∈ items, v.isShort = true
  | .object entries _ => ∀ entry ∈ entries, entry.2.isShort = true

/-- Nothing that was read so far has a number that is too long. -/
structure State.IsShort (s : State) : Prop where
  frames : ∀ f ∈ s.frames, f.IsShort
  whole : ∀ v, s.expected = .nothing v → v.isShort = true

theorem isShort_signed {negative : Bool} {whole : List Char}
    (hw : whole.length ≤ Text.longestRow) :
    (int (Double.signed negative (Text.numberOfDigits whole))).isShort = true := by
  have habs : (Double.signed negative (Text.numberOfDigits whole)).natAbs =
      Text.numberOfDigits whole := by
    cases negative <;> simp [Double.signed]
  have hlt : Text.numberOfDigits whole < 10 ^ Text.longestRow :=
    Nat.lt_of_lt_of_le (Numeral.numberOfDigits_lt whole) (Nat.pow_le_pow_right (by decide) hw)
  rw [isShort_int_iff, habs]
  exact hlt

theorem isShort_of_readNumber {negative : Bool}
    (h : readNumber negative offset cs = .ok (v, count, rest)) : v.isShort = true := by
  unfold readNumber at h
  split at h
  · cases h
  · next whole _ _ _ =>
    dsimp only at h
    split at h
    · split at h
      · cases h
      · next hw =>
        cases h
        exact isShort_signed (Nat.le_of_not_lt hw)
    · cases h
      rfl

theorem isShort_of_readAtom (h : readAtom offset cs = .ok (v, count, rest)) :
    v.isShort = true := by
  unfold readAtom at h
  split at h
  · next word value hfind =>
    have hwords : ∀ p ∈ words, p.2.isShort = true := by
      simp [words, isShort, throughout]
    cases h
    exact hwords _ (List.mem_of_find?_eq_some hfind)
  · split at h
    · obtain ⟨⟨w, n, after⟩, hnumber, hstep⟩ := map_eq_ok.mp h
      cases hstep
      exact isShort_of_readNumber hnumber
    · exact isShort_of_readNumber h

theorem isShort_put (hf : ∀ f ∈ frames, f.IsShort) (hv : v.isShort = true) :
    (State.put frames v).IsShort := by
  cases frames with
  | nil =>
    refine ⟨List.forall_mem_nil _, fun w hw => ?_⟩
    cases hw
    exact hv
  | cons frame outer =>
    obtain ⟨hframe, houter⟩ := List.forall_mem_cons.mp hf
    cases frame with
    | list items =>
      have hitems : Frame.IsShort (.list (v :: items)) := List.forall_mem_cons.mpr ⟨hv, hframe⟩
      exact ⟨List.forall_mem_cons.mpr ⟨hitems, houter⟩, nofun⟩
    | object entries key =>
      have hentries : Frame.IsShort (.object (setEntry key v entries) key) := by
        intro entry he
        rcases mem_setEntry he with rfl | he
        · exact hv
        · exact hframe entry he
      exact ⟨List.forall_mem_cons.mpr ⟨hentries, houter⟩, nofun⟩

theorem isShort_setKey (hs : s.IsShort) (key : String) : (s.setKey key).IsShort := by
  obtain ⟨frames, expected⟩ := s
  cases frames with
  | nil => exact ⟨List.forall_mem_nil _, nofun⟩
  | cons frame outer =>
    obtain ⟨hframe, houter⟩ := List.forall_mem_cons.mp hs.frames
    cases frame with
    | list items => exact ⟨hs.frames, nofun⟩
    | object entries _ =>
      have hentries : Frame.IsShort (.object entries key) := hframe
      exact ⟨List.forall_mem_cons.mpr ⟨hentries, houter⟩, nofun⟩

theorem isShort_mark? (hs : s.IsShort) (hm : s.mark? c = some t) : t.IsShort := by
  have hopen : ∀ {frame : Frame} {expected : Expected}, frame.IsShort →
      (∀ v, expected ≠ .nothing v) → State.IsShort ⟨frame :: s.frames, expected⟩ :=
    fun hframe hexpected =>
      ⟨List.forall_mem_cons.mpr ⟨hframe, hs.frames⟩, fun v hv => absurd hv (hexpected v)⟩
  have hsplit : ∀ {frame : Frame} {outer : List Frame}, s.frames = frame :: outer →
      frame.IsShort ∧ ∀ f ∈ outer, f.IsShort :=
    fun hf => List.forall_mem_cons.mp (hf ▸ hs.frames)
  have hlist : ∀ {items : List Value} {outer : List Frame}, s.frames = .list items :: outer →
      (State.put outer (.list items.reverse)).IsShort := by
    intro items outer hf
    obtain ⟨hitems, houter⟩ := hsplit hf
    exact isShort_put houter
      (isShort_list_iff.mpr fun v hv => hitems v (List.mem_reverse.mp hv))
  have hobject : ∀ {entries : List (String × Value)} {key : String} {outer : List Frame},
      s.frames = .object entries key :: outer → (State.put outer (.object entries)).IsShort := by
    intro entries key outer hf
    obtain ⟨hentries, houter⟩ := hsplit hf
    exact isShort_put houter (isShort_object_iff.mpr hentries)
  unfold State.mark? at hm
  split at hm <;> cases hm
  · exact hopen (List.forall_mem_nil _) nofun
  · exact hopen (List.forall_mem_nil _) nofun
  · exact hopen (List.forall_mem_nil _) nofun
  · exact hopen (List.forall_mem_nil _) nofun
  · next hf => exact hlist hf
  · next hf => exact hlist hf
  · next hf => exact hobject hf
  · next hf => exact hobject hf
  · exact ⟨hs.frames, nofun⟩
  · next hf => exact ⟨hf ▸ hs.frames, nofun⟩
  · next hf => exact ⟨hf ▸ hs.frames, nofun⟩

theorem isShort_of_run {lone : Nat → Char} {deepest : Nat} (hs : s.IsShort)
    (hr : run lone deepest s offset cs = .ok v) : v.isShort = true := by
  fun_induction run lone deepest s offset cs with
  | case1 s offset w hwhole =>
    cases hr
    exact hs.whole _ hwhole
  | case3 s offset c rest _ ih => exact ih hs hr
  | case5 s offset c rest _ next hm _ ih => exact ih (isShort_mark? hs hm) hr
  | case7 s offset c rest _ _ _ written after tail _ _ next ih =>
    refine ih ?_ hr
    by_cases hk : s.wantsKey = true
    · simpa only [next, dif_pos hk] using isShort_setKey hs written
    · simpa only [next, dif_neg hk] using isShort_put hs.frames rfl
  | case8 s offset c rest _ _ _ _ refusal ha =>
    split at hr
    · cases hr
    · next ha' => cases ha.symm.trans ha'
  | case9 s offset c rest _ _ _ _ w count tail ha _ ih =>
    split at hr
    · cases hr
    · next ha' =>
      cases ha.symm.trans ha'
      exact ih (isShort_put hs.frames (isShort_of_readAtom ha)) hr
  | case2 | case4 | case6 | case10 => cases hr

end Reader

theorem IsWritten.isShort {v : Value} (hv : v.IsWritten) : v.isShort = true := by
  obtain ⟨lone, deepest, text, hr⟩ := hv
  have hstart : Reader.State.IsShort ⟨[], .value⟩ :=
    ⟨List.forall_mem_nil _, fun _ hw => by cases hw⟩
  exact Reader.isShort_of_run hstart hr

end Flowsheet.Value
