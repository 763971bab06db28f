import Flowsheet.Catalog.Basic
import Flowsheet.Proofs.Success
import Mathlib.Data.List.Nodup

/-! Catalogs that store each record under its own key. Such a catalog is known from the list of its
records, and each operation on it is an operation on that list. -/

namespace Flowsheet

theorem find?_of_nodup {α : Type} {key : α → String} {xs : List α} {x : α}
    (hnd : (xs.map key).Nodup) (hx : x ∈ xs) : xs.find? (key · = key x) = some x := by
  induction xs with
  | nil => simp at hx
  | cons y ys ih =>
    have hn := List.nodup_cons.mp hnd
    rcases List.mem_cons.mp hx with he | hy
    · simp [he]
    · have hne : key y ≠ key x := fun he => hn.1 (he ▸ List.mem_map_of_mem hy)
      simpa [hne] using ih hn.2 hy

theorem find?_of_perm {α : Type} {key : α → String} {xs ys : List α} (hp : xs.Perm ys)
    (hnd : (ys.map key).Nodup) (k : String) : xs.find? (key · = k) = ys.find? (key · = k) := by
  cases hx : xs.find? (key · = k) with
  | none =>
    have hnone : ∀ y ∈ ys, ¬ decide (key y = k) = true := fun y hy =>
      List.find?_eq_none.mp hx y (hp.mem_iff.mpr hy)
    exact (List.find?_eq_none.mpr hnone).symm
  | some x =>
    have hk : key x = k := by simpa using List.find?_some hx
    have hmem : x ∈ ys := hp.mem_iff.mp (List.mem_of_find?_eq_some hx)
    rw [← hk]
    exact (find?_of_nodup hnd hmem).symm

namespace Catalog

variable {α β : Type} {key : α → String} {c d : Catalog α} {record : α}

def Keyed (key : α → String) (c : Catalog α) : Prop :=
  ∀ entry ∈ c.table.entries, entry.1 = key entry.2

theorem keyed_empty (key : α → String) : (empty : Catalog α).Keyed key := by
  intro entry he
  cases he

theorem Keyed.map {key' : β → String} {f : α → β} (hc : c.Keyed key)
    (hf : ∀ r, key' (f r) = key r) : (c.map f).Keyed key' := by
  intro entry he
  obtain ⟨old, ho, rfl⟩ := List.mem_map.mp he
  exact (hc old ho).trans (hf old.2).symm

theorem records_map (f : α → β) (c : Catalog α) : (c.map f).records = c.records.map f := by
  simp [Catalog.map, records, Table.map, Table.values]

namespace Keyed

theorem entries_eq (hc : c.Keyed key) :
    c.table.entries = c.records.map fun r => (key r, r) := by
  have hentry : ∀ entry ∈ c.table.entries, (key entry.2, entry.2) = entry :=
    fun entry he => Prod.ext (hc entry he).symm rfl
  rw [records, Table.values, List.map_map]
  exact ((List.map_congr_left hentry).trans (List.map_id' _)).symm

theorem keys_eq (hc : c.Keyed key) : c.table.keys = c.records.map key := by
  rw [Table.keys, hc.entries_eq, List.map_map]
  rfl

theorem nodup (hc : c.Keyed key) : (c.records.map key).Nodup := by
  rw [← hc.keys_eq]
  exact c.table.nodup

theorem ext (hc : c.Keyed key) (hd : d.Keyed key) (hr : c.records = d.records) : c = d := by
  have ht : c.table = d.table := Table.ext (by rw [hc.entries_eq, hd.entries_eq, hr])
  cases c
  cases d
  exact congrArg Catalog.mk ht

theorem find?_eq (hc : c.Keyed key) (k : String) : c.find? k = c.records.find? (key · = k) := by
  rw [find?, Table.get?, hc.entries_eq]
  induction c.records with
  | nil => rfl
  | cons r rs ih =>
    rw [List.map_cons, lookup_cons_ite, List.find?_cons, ih]
    by_cases hk : key r = k
    · simp [hk]
    · simp [hk, Ne.symm hk]

theorem find?_of_mem (hc : c.Keyed key) (hr : record ∈ c.records) :
    c.find? (key record) = some record := by
  rw [hc.find?_eq]
  exact find?_of_nodup hc.nodup hr

theorem mem_of_find? (hc : c.Keyed key) {k : String} (hf : c.find? k = some record) :
    record ∈ c.records ∧ key record = k := by
  rw [hc.find?_eq] at hf
  exact ⟨List.mem_of_find?_eq_some hf, by simpa using List.find?_some hf⟩

theorem contains_iff (hc : c.Keyed key) {k : String} :
    c.contains k = true ↔ k ∈ c.records.map key := by
  change (c.find? k).isSome = true ↔ _
  rw [hc.find?_eq]
  simp

theorem not_mem_keys (hc : c.Keyed key) {k : String} (hk : ¬ c.contains k = true) :
    k ∉ c.table.entries.map Prod.fst := by
  rw [hc.contains_iff, ← hc.keys_eq] at hk
  exact hk

theorem add_of_not_mem (hc : c.Keyed key) (hk : key record ∉ c.records.map key) :
    ∃ d, c.add (key record) record = .ok d ∧ d.Keyed key ∧ d.records = c.records ++ [record] := by
  have hcontains : ¬ c.contains (key record) = true := fun h => hk (hc.contains_iff.mp h)
  have hentries : (c.table.set (key record) record).entries =
      c.table.entries ++ [(key record, record)] :=
    setEntry_of_not_mem record (hc.not_mem_keys hcontains)
  refine ⟨_, if_neg hcontains, ?_, ?_⟩
  · intro entry he
    rw [hentries] at he
    rcases List.mem_append.mp he with he | he
    · exact hc entry he
    · rw [List.mem_singleton.mp he]
  · rw [records, Table.values, hentries, List.map_append]
    rfl

theorem add_eq_ok (hc : c.Keyed key) (ha : c.add (key record) record = .ok d) :
    key record ∉ c.records.map key ∧ d.Keyed key ∧ d.records = c.records ++ [record] := by
  by_cases hk : key record ∈ c.records.map key
  · rw [add, if_pos (hc.contains_iff.mpr hk)] at ha
    cases ha
  · obtain ⟨e, he, hkeyed, hrecords⟩ := hc.add_of_not_mem hk
    obtain rfl := Except.ok.inj (he.symm.trans ha)
    exact ⟨hk, hkeyed, hrecords⟩

/-- The new record takes the place of the old one. -/
theorem replace_eq_ok (hc : c.Keyed key) (hr : c.replace (key record) record = .ok d) :
    d.Keyed key ∧
      d.records = c.records.map fun r => if key r = key record then record else r := by
  unfold replace at hr
  split at hr
  · next hcontains =>
    cases hr
    have hmem : key record ∈ c.table.keys := by
      rw [hc.keys_eq]
      exact hc.contains_iff.mp hcontains
    have hentries : (c.table.set (key record) record).entries =
        c.table.entries.map fun e => if e.1 = key record then (key record, record) else e :=
      setEntry_of_mem record c.table.nodup hmem
    constructor
    · intro entry he
      rw [hentries] at he
      obtain ⟨old, ho, rfl⟩ := List.mem_map.mp he
      split
      · rfl
      · exact hc old ho
    · change (c.table.set (key record) record).entries.map Prod.snd = _
      rw [hentries, hc.entries_eq, List.map_map, List.map_map]
      refine List.map_congr_left fun r _ => ?_
      simp only [Function.comp_apply]
      split <;> rfl
  · cases hr

theorem discard (hc : c.Keyed key) (k : String) :
    (c.discard k).Keyed key ∧ (c.discard k).records = c.records.filter (key · ≠ k) := by
  constructor
  · intro entry he
    exact hc entry (List.mem_filter.mp he).1
  · change (c.table.entries.filter _).map Prod.snd = _
    rw [hc.entries_eq, List.filter_map, List.map_map]
    exact List.map_id _

end Keyed

end Catalog

end Flowsheet
