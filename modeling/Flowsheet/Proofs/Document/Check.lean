import Flowsheet.Document.Row

/-! Checks that pass. A check of several parts passes if all of them do, and then the value is made
of theirs; the rows of a document that passed have filled ids. -/

namespace Flowsheet.Document

variable {α β : Type}

namespace Checked

theorem map_eq_valid {f : α → β} {c : Checked α} {y : β} (h : c.map f = .valid y) :
    ∃ x, c = .valid x ∧ y = f x := by
  cases c with
  | valid x => exact ⟨x, rfl, (Checked.valid.inj h).symm⟩
  | invalid ps => cases h

theorem seq_eq_valid {f : Checked (α → β)} {c : Checked α} {y : β} (h : f.seq c = .valid y) :
    ∃ k x, f = .valid k ∧ c = .valid x ∧ y = k x := by
  cases f <;> cases c <;> cases h
  exact ⟨_, _, rfl, rfl, rfl⟩

theorem under_eq_valid {mark : Mark} {c : Checked α} {x : α} (h : c.under mark = .valid x) :
    c = .valid x := by
  cases c with
  | valid y => exact h
  | invalid ps => cases h

end Checked

theorem filledText_eq_valid {v : Value} {s : String} (h : filledText v = .valid s) : s ≠ "" := by
  unfold filledText at h
  split at h
  · split at h
    · cases h
    · next hs =>
      cases h
      exact hs
  · cases h

theorem required_eq_valid {es : Entries} {names : List String} {check : Value → Checked α} {x : α}
    (h : required es names check = .valid x) : ∃ v, check v = .valid x := by
  unfold required field? at h
  cases hn : namedField? es names with
  | none => simp [hn, Checked.flaw, Checked.under] at h
  | some entry =>
    obtain ⟨name, v⟩ := entry
    simp only [hn, Option.map_some, Option.getD_some] at h
    exact ⟨v, Checked.under_eq_valid h⟩

theorem required_filled {es : Entries} {names : List String} {s : String}
    (h : required es names filledText = .valid s) : s ≠ "" := by
  obtain ⟨v, hv⟩ := required_eq_valid h
  exact filledText_eq_valid hv

theorem record_eq_valid {name : String} {check : Entries → Checked α} {v : Value} {x : α}
    (h : record name check v = .valid x) : ∃ es, v = .object es ∧ check es = .valid x := by
  unfold record at h
  split at h
  · exact ⟨_, rfl, h⟩
  · cases h

theorem itemsFrom_eq_valid {check : Value → Checked α} {vs : List Value} {index : Nat}
    {xs : List α} (h : itemsFrom check index vs = .valid xs) :
    ∀ x ∈ xs, ∃ v, check v = .valid x := by
  induction vs generalizing index xs with
  | nil =>
    cases h
    simp
  | cons v vs ih =>
    obtain ⟨k, ys, hk, hys, rfl⟩ := Checked.seq_eq_valid h
    obtain ⟨y, hy, rfl⟩ := Checked.map_eq_valid hk
    intro x hx
    rcases List.mem_cons.mp hx with rfl | hx
    · exact ⟨v, Checked.under_eq_valid hy⟩
    · exact ih hys x hx

theorem listOf_eq_valid {check : Value → Checked α} {v : Value} {xs : List α}
    (h : listOf check v = .valid xs) : ∀ x ∈ xs, ∃ w, check w = .valid x := by
  unfold listOf at h
  split at h
  · exact itemsFrom_eq_valid h
  · cases h

theorem rowsOrNull_eq_valid {check : Value → Checked α} {v : Value} {xs : List α}
    (h : rowsOrNull check v = .valid xs) : ∀ x ∈ xs, ∃ w, check w = .valid x := by
  unfold rowsOrNull at h
  split at h
  · cases h
    simp
  · exact listOf_eq_valid h

theorem defaulting_rows_eq_valid {es : Entries} {names : List String} {check : Value → Checked α}
    {xs : List α} (h : defaulting es names [] (rowsOrNull check) = .valid xs) :
    ∀ x ∈ xs, ∃ w, check w = .valid x := by
  unfold defaulting field? at h
  cases hn : namedField? es names with
  | none =>
    simp only [hn, Option.map_none, Option.getD_none] at h
    cases h
    simp
  | some entry =>
    obtain ⟨name, v⟩ := entry
    simp only [hn, Option.map_some, Option.getD_some] at h
    exact rowsOrNull_eq_valid (Checked.under_eq_valid h)

theorem filled_of_itemRow {v : Value} {item : Item} (h : itemRow v = .valid item) :
    item.product ≠ "" := by
  obtain ⟨es, -, hrow⟩ := record_eq_valid h
  obtain ⟨k, yieldRatio, hk, -, rfl⟩ := Checked.seq_eq_valid hrow
  obtain ⟨product, hp, rfl⟩ := Checked.map_eq_valid hk
  exact required_filled hp

theorem filled_of_subproductRow {v : Value} {row : SubproductRow}
    (h : subproductRow v = .valid row) : row.product ≠ "" := by
  obtain ⟨es, -, hrow⟩ := record_eq_valid h
  obtain ⟨k₃, unit, h₃, -, rfl⟩ := Checked.seq_eq_valid hrow
  obtain ⟨k₂, isVariable, h₂, -, rfl⟩ := Checked.seq_eq_valid h₃
  obtain ⟨k₁, ratio, h₁, -, rfl⟩ := Checked.seq_eq_valid h₂
  obtain ⟨product, hp, rfl⟩ := Checked.map_eq_valid h₁
  exact required_filled hp

theorem filled_of_nodeRow {v : Value} {row : NodeRow} (h : nodeRow v = .valid row) :
    row.id ≠ "" := by
  obtain ⟨es, -, hrow⟩ := record_eq_valid h
  obtain ⟨k₃, data, h₃, -, rfl⟩ := Checked.seq_eq_valid hrow
  obtain ⟨k₂, place, h₂, -, rfl⟩ := Checked.seq_eq_valid h₃
  obtain ⟨k₁, kind, h₁, -, rfl⟩ := Checked.seq_eq_valid h₂
  obtain ⟨id, hp, rfl⟩ := Checked.map_eq_valid h₁
  exact required_filled hp

theorem filled_of_edgeRow {v : Value} {edge : Edge} (h : edgeRow v = .valid edge) :
    edge.id ≠ "" := by
  obtain ⟨es, -, hrow⟩ := record_eq_valid h
  obtain ⟨k₃, handle, h₃, -, rfl⟩ := Checked.seq_eq_valid hrow
  obtain ⟨k₂, target, h₂, -, rfl⟩ := Checked.seq_eq_valid h₃
  obtain ⟨k₁, source, h₁, -, rfl⟩ := Checked.seq_eq_valid h₂
  obtain ⟨id, hp, rfl⟩ := Checked.map_eq_valid h₁
  exact required_filled hp

theorem filled_of_rows {v : Value} {content : Rows} (h : rows v = .valid content) :
    (∀ row ∈ content.nodes, row.id ≠ "") ∧ ∀ edge ∈ content.edges, edge.id ≠ "" := by
  obtain ⟨es, -, hrow⟩ := record_eq_valid h
  obtain ⟨k, edges, h₁, he, rfl⟩ := Checked.seq_eq_valid hrow
  obtain ⟨nodes, hn, rfl⟩ := Checked.map_eq_valid h₁
  constructor
  · intro row hr
    obtain ⟨w, hw⟩ := defaulting_rows_eq_valid hn row hr
    exact filled_of_nodeRow hw
  · intro edge hr
    obtain ⟨w, hw⟩ := defaulting_rows_eq_valid he edge hr
    exact filled_of_edgeRow hw

theorem itemsFrom_map {check : Value → Checked α} {dump : β → Value} {f : β → α} {xs : List β}
    (h : ∀ x ∈ xs, check (dump x) = .valid (f x)) (index : Nat) :
    itemsFrom check index (xs.map dump) = .valid (xs.map f) := by
  induction xs generalizing index with
  | nil => rfl
  | cons x xs ih =>
    have hrest := ih (fun y hy => h y (List.mem_cons_of_mem x hy)) (index + 1)
    simp only [List.map_cons, itemsFrom, h x List.mem_cons_self, hrest]
    rfl

theorem listOf_map {check : Value → Checked α} {dump : β → Value} {f : β → α} {xs : List β}
    (h : ∀ x ∈ xs, check (dump x) = .valid (f x)) :
    listOf check (.list (xs.map dump)) = .valid (xs.map f) :=
  itemsFrom_map h 0

theorem listOf_dump {check : Value → Checked α} {dump : α → Value} {xs : List α}
    (h : ∀ x ∈ xs, check (dump x) = .valid x) : listOf check (.list (xs.map dump)) = .valid xs := by
  rw [listOf_map (f := id) h, List.map_id]

theorem required_of_lookup {es : Entries} {name : String} {names : List String} {v : Value}
    {check : Value → Checked α} {x : α} (hl : es.lookup name = some v) (hc : check v = .valid x) :
    required es (name :: names) check = .valid x := by
  simp [required, field?, namedField?, hl, hc, Checked.under]

theorem defaulting_of_lookup {es : Entries} {name : String} {names : List String} {v : Value}
    {check : Value → Checked α} {x : α} (hl : es.lookup name = some v) (hc : check v = .valid x)
    (default : α) : defaulting es (name :: names) default check = .valid x := by
  simp [defaulting, field?, namedField?, hl, hc, Checked.under]

theorem defaulting_of_absent {es : Entries} {names : List String}
    (hl : ∀ name ∈ names, es.lookup name = none) (default : α) (check : Value → Checked α) :
    defaulting es names default check = .valid default := by
  have hnone : namedField? es names = none := by
    rw [namedField?, List.findSome?_eq_none_iff]
    intro name hn
    rw [hl name hn, Option.map_none]
  simp [defaulting, field?, hnone]

theorem orNull_number (x : Double) : orNull number (.double x) = .valid (some x) := rfl

theorem orNull_text (s : String) : orNull text (.text s) = .valid (some s) := rfl

theorem filledText_text {s : String} (hs : s ≠ "") : filledText (.text s) = .valid s := by
  simp [filledText, hs]

end Flowsheet.Document
