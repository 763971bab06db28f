/-! Tables from keys to values that remember the order in which their keys were first set. -/

namespace Flowsheet

/-- Entries with `key` set: a known key keeps its place, and a new one goes last. -/
def setEntry {α : Type} (key : String) (value : α) : List (String × α) → List (String × α)
  | [] => [(key, value)]
  | (k, v) :: rest => if k = key then (k, value) :: rest else (k, v) :: setEntry key value rest

theorem keys_setEntry {α : Type} (key : String) (value : α) (entries : List (String × α)) :
    (setEntry key value entries).map Prod.fst =
      if key ∈ entries.map Prod.fst then entries.map Prod.fst
      else entries.map Prod.fst ++ [key] := by
  induction entries with
  | nil => simp [setEntry]
  | cons entry rest ih =>
    by_cases h : entry.1 = key
    · simp [setEntry, h]
    · have h' : ¬ key = entry.1 := fun e => h e.symm
      simp only [setEntry, h, if_false, List.map_cons, List.mem_cons, h', false_or, ih]
      split <;> simp

theorem setEntry_of_not_mem {α : Type} {key : String} (value : α) {entries : List (String × α)}
    (hkey : key ∉ entries.map Prod.fst) :
    setEntry key value entries = entries ++ [(key, value)] := by
  induction entries with
  | nil => rfl
  | cons entry rest ih =>
    obtain ⟨k, v⟩ := entry
    rw [List.map_cons, List.mem_cons, not_or] at hkey
    rw [setEntry, if_neg (Ne.symm hkey.1), ih hkey.2, List.cons_append]

theorem mem_setEntry {α : Type} {key : String} {value : α} {entries : List (String × α)}
    {entry : String × α} (he : entry ∈ setEntry key value entries) :
    entry = (key, value) ∨ entry ∈ entries := by
  induction entries with
  | nil => exact .inl (List.mem_singleton.mp he)
  | cons first rest ih =>
    obtain ⟨k, w⟩ := first
    unfold setEntry at he
    split at he
    · next hk =>
      rcases List.mem_cons.mp he with rfl | he
      · exact .inl (by rw [hk])
      · exact .inr (List.mem_cons_of_mem _ he)
    · rcases List.mem_cons.mp he with rfl | he
      · exact .inr List.mem_cons_self
      · exact (ih he).imp_right (List.mem_cons_of_mem _)

/-- An entry that is set again stays where it was. -/
theorem setEntry_of_mem {α : Type} {key : String} (value : α) {entries : List (String × α)}
    (hnd : (entries.map Prod.fst).Nodup) (hkey : key ∈ entries.map Prod.fst) :
    setEntry key value entries =
      entries.map fun entry => if entry.1 = key then (key, value) else entry := by
  induction entries with
  | nil => simp at hkey
  | cons entry rest ih =>
    obtain ⟨k, v⟩ := entry
    obtain ⟨hk, hrest⟩ := List.nodup_cons.mp hnd
    by_cases he : k = key
    · subst he
      have hkeep : ∀ entry ∈ rest, (if entry.1 = k then (k, value) else entry) = entry := by
        intro entry hm
        exact if_neg fun heq => hk (List.mem_map.mpr ⟨entry, hm, heq⟩)
      rw [setEntry, if_pos rfl, List.map_cons, if_pos rfl, List.map_congr_left hkeep,
        List.map_id']
    · have hmem : key ∈ rest.map Prod.fst := (List.mem_cons.mp hkey).resolve_left (Ne.symm he)
      rw [setEntry, if_neg he, ih hrest hmem, List.map_cons, if_neg he]

theorem nodup_setEntry {α : Type} {entries : List (String × α)}
    (h : (entries.map Prod.fst).Nodup) (key : String) (value : α) :
    ((setEntry key value entries).map Prod.fst).Nodup := by
  rw [keys_setEntry]
  split
  · exact h
  · next hkey =>
    refine List.nodup_append.2 ⟨h, by simp, ?_⟩
    intro a ha b hb
    rw [List.mem_singleton.1 hb]
    exact fun e => hkey (e ▸ ha)

theorem lookup_cons_ite {α : Type} (name k : String) (v : α) (rest : List (String × α)) :
    List.lookup name ((k, v) :: rest) = if name = k then some v else rest.lookup name := by
  by_cases h : name = k
  · simp [h]
  · rw [List.lookup_cons, beq_false_of_ne h, if_neg h]

theorem lookup_setEntry {α : Type} (key name : String) (value : α) (entries : List (String × α)) :
    (setEntry key value entries).lookup name =
      if name = key then some value else entries.lookup name := by
  induction entries with
  | nil => simp [setEntry, lookup_cons_ite]
  | cons entry rest ih =>
    obtain ⟨k, v⟩ := entry
    by_cases hk : k = key
    · subst hk
      by_cases h : name = k <;> simp [setEntry, lookup_cons_ite, h]
    · by_cases h : name = k
      · subst h
        simp [setEntry, hk]
      · simp [setEntry, hk, lookup_cons_ite, h, ih]

structure Table (α : Type) where
  entries : List (String × α)
  nodup : (entries.map Prod.fst).Nodup

namespace Table

variable {α β : Type}

def empty : Table α := ⟨[], List.nodup_nil⟩

instance : Inhabited (Table α) := ⟨empty⟩

@[ext] theorem ext {s t : Table α} (h : s.entries = t.entries) : s = t := by
  cases s
  cases t
  simpa using h

def get? (t : Table α) (key : String) : Option α := t.entries.lookup key

def contains (t : Table α) (key : String) : Bool := (t.get? key).isSome

def keys (t : Table α) : List String := t.entries.map Prod.fst

def values (t : Table α) : List α := t.entries.map Prod.snd

def size (t : Table α) : Nat := t.entries.length

def set (t : Table α) (key : String) (value : α) : Table α :=
  ⟨setEntry key value t.entries, nodup_setEntry t.nodup key value⟩

def erase (t : Table α) (key : String) : Table α :=
  ⟨t.entries.filter fun entry => entry.1 ≠ key,
    t.nodup.sublist ((List.filter_sublist).map _)⟩

/-- Each value under its old key. -/
def map (f : α → β) (t : Table α) : Table β :=
  ⟨t.entries.map fun entry => (entry.1, f entry.2), by
    rw [List.map_map]
    exact t.nodup⟩

/-- Entries set one after another. -/
def setAll (t : Table α) (entries : List (String × α)) : Table α :=
  entries.foldl (fun acc entry => acc.set entry.1 entry.2) t

def ofEntries (entries : List (String × α)) : Table α := empty.setAll entries

theorem get?_empty (key : String) : (empty : Table α).get? key = none := rfl

theorem get?_set (t : Table α) (key name : String) (value : α) :
    (t.set key value).get? name = if name = key then some value else t.get? name :=
  lookup_setEntry key name value t.entries

theorem keys_set (t : Table α) (key : String) (value : α) :
    (t.set key value).keys = if key ∈ t.keys then t.keys else t.keys ++ [key] :=
  keys_setEntry key value t.entries

theorem get?_erase (t : Table α) (key name : String) :
    (t.erase key).get? name = if name = key then none else t.get? name := by
  simp only [get?, erase]
  induction t.entries with
  | nil => simp
  | cons entry rest ih =>
    obtain ⟨k, v⟩ := entry
    by_cases hk : k = key
    · rw [List.filter_cons_of_neg (by simpa using hk), ih, lookup_cons_ite]
      by_cases h : name = key <;> simp [h, hk]
    · rw [List.filter_cons_of_pos (by simpa using hk), lookup_cons_ite, ih, lookup_cons_ite]
      by_cases h : name = k
      · simp [h, hk]
      · simp [h]

theorem get?_map (f : α → β) (t : Table α) (key : String) :
    (t.map f).get? key = (t.get? key).map f := by
  simp only [get?, map]
  induction t.entries with
  | nil => rfl
  | cons entry rest ih =>
    rw [List.map_cons, lookup_cons_ite, lookup_cons_ite, ih]
    split <;> rfl

theorem entries_setAll (t : Table α) (entries : List (String × α))
    (h : (t.keys ++ entries.map Prod.fst).Nodup) :
    (t.setAll entries).entries = t.entries ++ entries := by
  induction entries generalizing t with
  | nil => simp [setAll]
  | cons entry rest ih =>
    have hkey : entry.1 ∉ t.keys := fun hm => (List.nodup_append.mp h).2.2 _ hm _ (by simp) rfl
    have hset : (t.set entry.1 entry.2).entries = t.entries ++ [entry] :=
      setEntry_of_not_mem entry.2 hkey
    have hrest : ((t.set entry.1 entry.2).keys ++ rest.map Prod.fst).Nodup := by
      rw [keys_set, if_neg hkey]
      simpa using h
    have hall : t.setAll (entry :: rest) = (t.set entry.1 entry.2).setAll rest := rfl
    rw [hall, ih _ hrest, hset, List.append_assoc, List.singleton_append]

theorem ofEntries_entries (t : Table α) : ofEntries t.entries = t := by
  apply ext
  rw [ofEntries, entries_setAll empty t.entries (by simpa [keys, empty] using t.nodup)]
  rfl

end Table

end Flowsheet
