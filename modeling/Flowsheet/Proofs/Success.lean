/-! Computations that succeed: each part of one succeeded as well. One that fails has a part that
failed. -/

namespace Flowsheet

variable {ε δ α β : Type} {b : β}

theorem bind_eq_ok {x : Except ε α} {f : α → Except ε β} :
    x >>= f = .ok b ↔ ∃ a, x = .ok a ∧ f a = .ok b := by
  cases x <;> simp [bind, Except.bind]

theorem map_eq_ok {x : Except ε α} {f : α → β} : x.map f = .ok b ↔ ∃ a, x = .ok a ∧ f a = b := by
  cases x <;> simp [Except.map]

theorem mapError_eq_ok {x : Except ε β} {f : ε → δ} : x.mapError f = .ok b ↔ x = .ok b := by
  constructor
  · intro hx
    cases x with
    | ok a => exact congrArg Except.ok (Except.ok.inj hx)
    | error e => cases hx
  · rintro rfl
    rfl

theorem bind_eq_error {x : Except ε α} {f : α → Except ε β} {e : ε} :
    x >>= f = .error e ↔ x = .error e ∨ ∃ a, x = .ok a ∧ f a = .error e := by
  cases x <;> simp [bind, Except.bind]

theorem map_eq_error {x : Except ε α} {f : α → β} {e : ε} :
    x.map f = .error e ↔ x = .error e := by
  cases x <;> simp [Except.map]

theorem mapError_eq_error {x : Except ε β} {f : ε → δ} {d : δ} :
    x.mapError f = .error d ↔ ∃ e, x = .error e ∧ f e = d := by
  constructor
  · intro hx
    cases x with
    | ok a => cases hx
    | error e => exact ⟨e, rfl, Except.error.inj hx⟩
  · rintro ⟨e, rfl, rfl⟩
    rfl

theorem mapM_cons_eq_ok {f : α → Except ε β} {x : α} {xs : List α} {ys : List β} :
    (x :: xs).mapM f = .ok ys ↔ ∃ y rest, f x = .ok y ∧ xs.mapM f = .ok rest ∧ ys = y :: rest := by
  rw [List.mapM_cons]
  constructor
  · intro hx
    obtain ⟨y, hy, hrest⟩ := bind_eq_ok.mp hx
    obtain ⟨rest, hr, he⟩ := bind_eq_ok.mp hrest
    exact ⟨y, rest, hy, hr, (Except.ok.inj he).symm⟩
  · rintro ⟨y, rest, hy, hr, rfl⟩
    rw [hy, hr]
    rfl

theorem mem_of_mapM_eq_ok {f : α → Except ε β} {xs : List α} {ys : List β}
    (hx : xs.mapM f = .ok ys) : ∀ y ∈ ys, ∃ x ∈ xs, f x = .ok y := by
  induction xs generalizing ys with
  | nil => simp [← Except.ok.inj hx]
  | cons x xs ih =>
    obtain ⟨z, rest, hz, hr, rfl⟩ := mapM_cons_eq_ok.mp hx
    intro y hy
    rcases List.mem_cons.mp hy with rfl | hy
    · exact ⟨x, List.mem_cons_self, hz⟩
    · obtain ⟨w, hw, hf⟩ := ih hr y hy
      exact ⟨w, List.mem_cons_of_mem x hw, hf⟩

theorem mapM_ok_iff {f : α → Except ε β} {xs : List α} :
    (∃ ys, xs.mapM f = .ok ys) ↔ ∀ x ∈ xs, ∃ y, f x = .ok y := by
  induction xs with
  | nil => exact iff_of_true ⟨[], rfl⟩ (List.forall_mem_nil _)
  | cons x xs ih =>
    rw [List.forall_mem_cons, ← ih]
    constructor
    · rintro ⟨_, hx⟩
      obtain ⟨y, rest, hy, hr, -⟩ := mapM_cons_eq_ok.mp hx
      exact ⟨⟨y, hy⟩, rest, hr⟩
    · rintro ⟨⟨y, hy⟩, rest, hr⟩
      exact ⟨y :: rest, mapM_cons_eq_ok.mpr ⟨y, rest, hy, hr, rfl⟩⟩

theorem mapM_eq_map {f : α → Except ε β} {value : α → β} {xs : List α}
    (hx : ∀ x ∈ xs, f x = .ok (value x)) : xs.mapM f = .ok (xs.map value) := by
  induction xs with
  | nil => rfl
  | cons x xs ih =>
    obtain ⟨hfirst, hrest⟩ := List.forall_mem_cons.mp hx
    exact mapM_cons_eq_ok.mpr ⟨_, _, hfirst, ih hrest, rfl⟩

theorem mapM_cons_eq_error {f : α → Except ε β} {x : α} {xs : List α} {e : ε} :
    (x :: xs).mapM f = .error e ↔
      f x = .error e ∨ (∃ y, f x = .ok y) ∧ xs.mapM f = .error e := by
  rw [List.mapM_cons, bind_eq_error]
  refine or_congr_right ⟨?_, ?_⟩
  · rintro ⟨y, hy, he⟩
    rcases bind_eq_error.mp he with he | ⟨_, -, he⟩
    · exact ⟨⟨y, hy⟩, he⟩
    · cases he
  · rintro ⟨⟨y, hy⟩, he⟩
    exact ⟨y, hy, bind_eq_error.mpr (.inl he)⟩

/-- Items are taken in turn up to the first one that fails. -/
theorem mapM_eq_error {f : α → Except ε β} {xs : List α} {e : ε} :
    xs.mapM f = .error e ↔ ∃ before x after, xs = before ++ x :: after ∧
      (∀ y ∈ before, ∃ z, f y = .ok z) ∧ f x = .error e := by
  constructor
  · intro hx
    induction xs with
    | nil => cases hx
    | cons x xs ih =>
      rcases mapM_cons_eq_error.mp hx with he | ⟨hok, hrest⟩
      · exact ⟨[], x, xs, rfl, List.forall_mem_nil _, he⟩
      · obtain ⟨before, y, after, rfl, hbefore, he⟩ := ih hrest
        exact ⟨x :: before, y, after, rfl, List.forall_mem_cons.mpr ⟨hok, hbefore⟩, he⟩
  · rintro ⟨before, x, after, rfl, hbefore, he⟩
    induction before with
    | nil => exact mapM_cons_eq_error.mpr (.inl he)
    | cons y before ih =>
      obtain ⟨hok, hrest⟩ := List.forall_mem_cons.mp hbefore
      exact mapM_cons_eq_error.mpr (.inr ⟨hok, ih hrest⟩)

/-- Each result depends on its own item alone. -/
theorem eq_filterMap_of_mapM {f : α → Except ε β} {xs : List α} {ys : List β}
    (hx : xs.mapM f = .ok ys) : ys = xs.filterMap fun x => (f x).toOption := by
  induction xs generalizing ys with
  | nil => exact (Except.ok.inj hx).symm
  | cons x xs ih =>
    obtain ⟨y, rest, hy, hr, rfl⟩ := mapM_cons_eq_ok.mp hx
    have hfirst : (f x).toOption = some y := by rw [hy, Except.toOption]
    rw [List.filterMap_cons, hfirst, ← ih hr]

/-- What every step keeps, a fold of successful steps keeps. -/
theorem foldlM_keeps {P : β → Prop} {f : β → α → Except ε β} {xs : List α} {s : β}
    (hstep : ∀ {s a t}, a ∈ xs → f s a = .ok t → P s → P t)
    (hx : xs.foldlM f s = .ok b) (hs : P s) : P b := by
  induction xs generalizing s with
  | nil => exact Except.ok.inj hx ▸ hs
  | cons x xs ih =>
    rw [List.foldlM_cons] at hx
    obtain ⟨t, ht, hr⟩ := bind_eq_ok.mp hx
    exact ih (fun hm => hstep (List.mem_cons_of_mem x hm)) hr (hstep List.mem_cons_self ht hs)

/-- A fold whose every step adds its item to those before, provided that none has the same key,
succeeds on items with distinct keys. -/
theorem foldlM_ok_of_nodup {γ : Type} {P : β → List α → Prop} {key : α → γ}
    {f : β → α → Except ε β} {ys : List α}
    (hstep : ∀ {s xs y}, y ∈ ys → P s xs → key y ∉ xs.map key →
      ∃ t, f s y = .ok t ∧ P t (xs ++ [y]))
    {s : β} {xs : List α} (hs : P s xs) (hnd : ((xs ++ ys).map key).Nodup) :
    ∃ t, ys.foldlM f s = .ok t ∧ P t (xs ++ ys) := by
  induction ys generalizing s xs with
  | nil => exact ⟨s, rfl, by simpa using hs⟩
  | cons y ys ih =>
    have hy : key y ∉ xs.map key := by
      intro hmem
      rw [List.map_append] at hnd
      exact (List.nodup_append.mp hnd).2.2 _ hmem _ (by simp) rfl
    obtain ⟨t, ht, hP⟩ := hstep List.mem_cons_self hs hy
    have happend : xs ++ [y] ++ ys = xs ++ y :: ys := by simp
    rw [List.foldlM_cons, ht, ← happend]
    exact ih (fun hm => hstep (List.mem_cons_of_mem y hm)) hP (by rwa [happend])

theorem foldlM_cons_ok {f : β → α → Except ε β} {s t : β} {x : α} {xs : List α}
    (hf : f s x = .ok t) : (x :: xs).foldlM f s = xs.foldlM f t := by
  rw [List.foldlM_cons, hf]
  rfl

theorem foldlM_cons_error {f : β → α → Except ε β} {s : β} {x : α} {e : ε} (xs : List α)
    (hf : f s x = .error e) : (x :: xs).foldlM f s = .error e := by
  rw [List.foldlM_cons, hf]
  rfl

theorem foldlM_append_ok {f : β → α → Except ε β} {s t : β} {xs ys : List α}
    (hf : xs.foldlM f s = .ok t) : (xs ++ ys).foldlM f s = ys.foldlM f t := by
  rw [List.foldlM_append, hf]
  rfl

theorem foldlM_append_error {f : β → α → Except ε β} {s : β} {xs : List α} {e : ε} (ys : List α)
    (hf : xs.foldlM f s = .error e) : (xs ++ ys).foldlM f s = .error e := by
  rw [List.foldlM_append, hf]
  rfl

/-- A fold that fails has an item at which it fails, and the items before it are folded. -/
theorem foldlM_eq_error {f : β → α → Except ε β} {s : β} {xs : List α} {e : ε} :
    xs.foldlM f s = .error e ↔ ∃ before x after t, xs = before ++ x :: after ∧
      before.foldlM f s = .ok t ∧ f t x = .error e := by
  constructor
  · intro hx
    induction xs generalizing s with
    | nil => cases hx
    | cons x xs ih =>
      cases ht : f s x with
      | error d =>
        rw [foldlM_cons_error xs ht] at hx
        exact ⟨[], x, xs, s, rfl, rfl, ht.trans (congrArg _ (Except.error.inj hx))⟩
      | ok t =>
        rw [foldlM_cons_ok ht] at hx
        obtain ⟨before, y, after, u, rfl, hu, he⟩ := ih hx
        exact ⟨x :: before, y, after, u, rfl, (foldlM_cons_ok ht).trans hu, he⟩
  · rintro ⟨before, x, after, t, rfl, ht, he⟩
    rw [foldlM_append_ok ht]
    exact foldlM_cons_error after he

theorem ok_bind (a : α) (f : α → Except ε β) : (Except.ok a >>= f) = f a := rfl

end Flowsheet
