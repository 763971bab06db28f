import Flowsheet.Catalog.Keeper
import Flowsheet.Proofs.Catalog.Keyed
import Mathlib.Data.List.Fold
import Mathlib.Data.List.MinMax

/-! Ledgers serve as catalogs. In the order of their numbers the rows of a ledger are the entries of
a table, in whatever order they are stored, and every operation on the one is an operation on the
other. -/

namespace Flowsheet

namespace Ledger

variable {α : Type} {l m : Ledger α} {t : Table α} {rows : List (Row α)} {key : String}

def Row.entry (row : Row α) : String × α := (row.key, row.record)

def listed (l : Ledger α) : List (Row α) :=
  l.rows.mergeSort fun r s => r.number ≤ s.number

def entries (l : Ledger α) : List (String × α) := l.listed.map Row.entry

theorem records_eq (l : Ledger α) : l.records = l.entries.map Prod.snd := by
  rw [entries, List.map_map]
  rfl

def Increasing (rows : List (Row α)) : Prop := rows.Pairwise fun r s => r.number < s.number

theorem perm_listed (l : Ledger α) : l.listed.Perm l.rows := List.mergeSort_perm ..

theorem Increasing.nodup (hi : Increasing rows) : (rows.map Row.number).Nodup := by
  refine List.pairwise_map.mpr (hi.imp fun hlt => ?_)
  omega

theorem increasing_listed (hnd : (l.rows.map Row.number).Nodup) : Increasing l.listed := by
  have hle : l.listed.Pairwise fun r s => r.number ≤ s.number := by
    have hsorted : l.listed.Pairwise fun r s => decide (r.number ≤ s.number) = true :=
      List.pairwise_mergeSort (by intro a b c; simp; omega) (by intro a b; simp; omega) l.rows
    exact hsorted.imp of_decide_eq_true
  have hne : l.listed.Pairwise fun r s => r.number ≠ s.number :=
    List.pairwise_map.mp ((l.perm_listed.map Row.number).nodup_iff.mpr hnd)
  refine (hle.and hne).imp fun h => ?_
  have := h.1
  have := h.2
  omega

/-- There is only one order of increasing numbers. -/
theorem listed_eq (hp : rows.Perm l.rows) (hi : Increasing rows) : l.listed = rows := by
  have hl : Increasing l.listed :=
    increasing_listed ((hp.map Row.number).nodup_iff.mp hi.nodup)
  refine List.Perm.eq_of_pairwise ?_ hl hi (l.perm_listed.trans hp.symm)
  intro r s _ _ hrs hsr
  omega

/-- The ledger has the entries of the table, in their order. -/
structure Lists (l : Ledger α) (t : Table α) : Prop where
  increasing : Increasing l.listed
  entries_eq : l.entries = t.entries

theorem lists_of_perm (rows : List (Row α)) (hp : rows.Perm l.rows) (hi : Increasing rows)
    (he : rows.map Row.entry = t.entries) : l.Lists t := by
  have hl := listed_eq hp hi
  exact ⟨hl ▸ hi, by rw [entries, hl, he]⟩

theorem lists_empty : (empty : Ledger α).Lists .empty :=
  lists_of_perm [] .nil .nil rfl

theorem lookup_map_entry (rows : List (Row α)) (key : String) :
    (rows.map Row.entry).lookup key = (rows.find? (·.key = key)).map Row.record := by
  induction rows with
  | nil => rfl
  | cons row rows ih =>
    rw [List.map_cons, Row.entry, lookup_cons_ite, List.find?_cons, ih]
    by_cases hk : row.key = key
    · simp [hk]
    · simp [hk, Ne.symm hk]

theorem lt_nextNumber {row : Row α} (hr : row ∈ l.rows) : row.number < l.nextNumber := by
  have hle : row.number ≤ (l.rows.map Row.number).foldl max 0 := by
    rw [List.foldl_eq_foldr]
    exact List.le_max_of_le' 0 (List.mem_map_of_mem hr) (Nat.le_refl _)
  rw [nextNumber]
  omega

namespace Lists

theorem keys_eq (h : l.Lists t) : l.listed.map Row.key = t.keys := by
  rw [Table.keys, ← h.entries_eq, entries, List.map_map]
  rfl

theorem find?_eq (h : l.Lists t) (key : String) : l.find? key = t.get? key := by
  have hnd : (l.listed.map Row.key).Nodup := h.keys_eq ▸ t.nodup
  have hrow : l.row? key = l.listed.find? (·.key = key) :=
    (find?_of_perm l.perm_listed.symm hnd key)
  rw [find?, hrow, Table.get?, ← h.entries_eq, entries, lookup_map_entry]

theorem contains_eq (h : l.Lists t) (key : String) : l.contains key = t.contains key := by
  rw [Table.contains, ← h.find?_eq, find?, Option.isSome_map, contains]

theorem size_eq (h : l.Lists t) : l.size = t.size := by
  rw [size, Table.size, ← h.entries_eq, entries, List.length_map, l.perm_listed.length_eq]

theorem records_eq (h : l.Lists t) : l.records = t.values := by
  rw [Ledger.records_eq, h.entries_eq, Table.values]

theorem mem_keys_iff (h : l.Lists t) : key ∈ t.keys ↔ l.contains key = true := by
  rw [h.contains_eq, Table.contains, Table.get?, Table.keys]
  simp

/-- The new row comes first among the rows and last among the entries. -/
theorem insert (h : l.Lists t) (hk : ¬ l.contains key = true) (record : α) :
    (l.insert key record).Lists (t.set key record) := by
  have hkeys : key ∉ t.entries.map Prod.fst := fun hmem => hk (h.mem_keys_iff.mp hmem)
  refine lists_of_perm (l.listed ++ [⟨l.nextNumber, key, record⟩]) ?_ ?_ ?_
  · exact List.perm_append_comm.trans (l.perm_listed.cons _)
  · refine List.pairwise_append.mpr ⟨h.increasing, List.pairwise_singleton .., ?_⟩
    intro r hr s hs
    rw [List.mem_singleton.mp hs]
    exact lt_nextNumber (l.perm_listed.mem_iff.mp hr)
  · have hset : (t.set key record).entries = t.entries ++ [(key, record)] :=
      setEntry_of_not_mem record hkeys
    rw [List.map_append, hset, ← h.entries_eq]
    rfl

theorem update (h : l.Lists t) (hk : l.contains key = true) (record : α) :
    (l.update key record).Lists (t.set key record) := by
  have hset : (t.set key record).entries =
      t.entries.map fun e => if e.1 = key then (key, record) else e :=
    setEntry_of_mem record t.nodup (h.mem_keys_iff.mpr hk)
  refine lists_of_perm _ (l.perm_listed.map _) ?_ ?_
  · refine List.pairwise_map.mpr (h.increasing.imp fun {r s} hlt => ?_)
    split <;> split <;> exact hlt
  · rw [hset, ← h.entries_eq, entries, List.map_map, List.map_map]
    apply List.map_congr_left
    intro row _
    by_cases he : row.key = key <;> simp [Row.entry, he]

theorem discard (h : l.Lists t) (key : String) : (l.discard key).Lists (t.erase key) := by
  refine lists_of_perm _ (l.perm_listed.filter _) (h.increasing.filter _) ?_
  have herase : (t.erase key).entries = t.entries.filter fun e => e.1 ≠ key := rfl
  rw [herase, ← h.entries_eq, entries, List.filter_map]
  rfl

theorem put (h : l.Lists t) (key : String) (record : α) :
    (l.put key record).Lists (t.set key record) := by
  by_cases hk : l.contains key = true
  · rw [Ledger.put, if_pos hk]
    exact h.update hk record
  · rw [Ledger.put, if_neg hk]
    exact h.insert hk record

/-- What was under the key is gone, and the record stands behind all others. -/
theorem readd (h : l.Lists t) (key : String) (record : α) :
    ∃ m, (l.discard key).add key record = .ok m ∧
      m.entries = l.entries.filter (·.1 ≠ key) ++ [(key, record)] := by
  have hd := h.discard key
  have hkeys : key ∉ (t.erase key).keys := by simp [Table.keys, Table.erase]
  have hnew : ¬ (l.discard key).contains key = true := fun hk => hkeys (hd.mem_keys_iff.mpr hk)
  have hset : ((t.erase key).set key record).entries =
      (t.erase key).entries ++ [(key, record)] := setEntry_of_not_mem record hkeys
  refine ⟨_, if_neg hnew, ?_⟩
  rw [(hd.insert hnew record).entries_eq, hset, h.entries_eq]
  rfl

theorem replace (h : l.Lists t) (hk : l.contains key = true) (record : α) :
    ∃ m, l.replace key record = .ok m ∧
      m.entries = l.entries.map fun e => if e.1 = key then (key, record) else e := by
  refine ⟨_, if_pos hk, ?_⟩
  rw [(h.update hk record).entries_eq, h.entries_eq]
  exact setEntry_of_mem record t.nodup (h.mem_keys_iff.mpr hk)

end Lists

end Ledger

namespace RecordKeeper

variable {α : Type} {l : Ledger α} {c : Catalog α}

/-- Both give the same answer and have the same entries afterwards, or both fail alike. -/
inductive Tallies : Except Catalog.Fault (Answer α × Ledger α) →
    Except Catalog.Fault (Answer α × Catalog α) → Prop
  | ok {m : Ledger α} {d : Catalog α} (answer : Answer α) (h : m.Lists d.table) :
      Tallies (.ok (answer, m)) (.ok (answer, d))
  | error (fault : Catalog.Fault) : Tallies (.error fault) (.error fault)

theorem Tallies.answer_eq {left : Except Catalog.Fault (Answer α × Ledger α)}
    {right : Except Catalog.Fault (Answer α × Catalog α)} (h : Tallies left right) :
    left.map Prod.fst = right.map Prod.fst := by
  cases h <;> rfl

theorem tallies_get (h : l.Lists c.table) (key : String) :
    Tallies (respond l (.get key)) (respond c (.get key)) := by
  have hget : l.get key = c.get key := by
    have hfind : l.find? key = c.find? key := h.find?_eq key
    cases hc : c.find? key <;> simp only [Ledger.get, Catalog.get, hfind, hc]
  show Tallies (do return (.record (← l.get key), l)) (do return (.record (← c.get key), c))
  rw [hget]
  cases c.get key with
  | ok record => exact .ok (.record record) h
  | error fault => exact .error fault

theorem tallies_add (h : l.Lists c.table) (key : String) (record : α) :
    Tallies (respond l (.add key record)) (respond c (.add key record)) := by
  have hcontains : c.contains key = l.contains key := (h.contains_eq key).symm
  show Tallies (do return (.done, ← l.add key record)) (do return (.done, ← c.add key record))
  rw [Ledger.add, Catalog.add, hcontains]
  by_cases hk : l.contains key = true
  · rw [if_pos hk, if_pos hk]
    exact .error _
  · rw [if_neg hk, if_neg hk]
    exact .ok .done (h.insert hk record)

theorem tallies_replace (h : l.Lists c.table) (key : String) (record : α) :
    Tallies (respond l (.replace key record)) (respond c (.replace key record)) := by
  have hcontains : c.contains key = l.contains key := (h.contains_eq key).symm
  show Tallies (do return (.done, ← l.replace key record))
    (do return (.done, ← c.replace key record))
  rw [Ledger.replace, Catalog.replace, hcontains]
  by_cases hk : l.contains key = true
  · rw [if_pos hk, if_pos hk]
    exact .ok .done (h.update hk record)
  · rw [if_neg hk, if_neg hk]
    exact .error _

theorem tallies_respond (h : l.Lists c.table) (op : Operation α) :
    Tallies (respond l op) (respond c op) := by
  have hfind : ∀ key, l.find? key = c.find? key := h.find?_eq
  cases op with
  | find key =>
    show Tallies (.ok (.found (l.find? key), l)) (.ok (.found (c.find? key), c))
    rw [hfind]
    exact .ok _ h
  | contains key =>
    show Tallies (.ok (.holds (l.contains key), l)) (.ok (.holds (c.contains key), c))
    rw [h.contains_eq]
    exact .ok _ h
  | get key => exact tallies_get h key
  | add key record => exact tallies_add h key record
  | replace key record => exact tallies_replace h key record
  | discard key =>
    show Tallies (.ok (.found (l.find? key), l.discard key))
      (.ok (.found (c.find? key), c.discard key))
    rw [hfind]
    exact .ok _ (h.discard key)
  | records =>
    show Tallies (.ok (.records l.records, l)) (.ok (.records c.records, c))
    rw [h.records_eq]
    exact .ok _ h
  | size =>
    show Tallies (.ok (.size l.size, l)) (.ok (.size c.size, c))
    rw [h.size_eq]
    exact .ok _ h

theorem lists_after (h : l.Lists c.table) (op : Operation α) :
    (after l op).Lists (after c op).table := by
  have hresponse := tallies_respond h op
  rw [after, after]
  generalize respond l op = left at hresponse
  generalize respond c op = right at hresponse
  cases hresponse with
  | ok answer hlast => exact hlast
  | error fault => exact h

theorem lists_afterAll (h : l.Lists c.table) (ops : List (Operation α)) :
    (afterAll l ops).Lists (afterAll c ops).table := by
  induction ops generalizing l c with
  | nil => exact h
  | cons op ops ih => exact ih (lists_after h op)

theorem answers_eq (h : l.Lists c.table) (ops : List (Operation α)) :
    answers l ops = answers c ops := by
  induction ops generalizing l c with
  | nil => rfl
  | cons op ops ih =>
    rw [answers, answers, (tallies_respond h op).answer_eq, ih (lists_after h op)]

/-- Nothing that can be asked tells the two from each other. Their order is that of the additions. -/
structure Interchangeable (l : Ledger α) (c : Catalog α) : Prop where
  answers_eq : ∀ ops : List (Operation α), answers l ops = answers c ops
  entries_eq : l.entries = c.table.entries
  records_eq : l.records = l.entries.map Prod.snd
  readded_last : ∀ key record, ∃ m, (l.discard key).add key record = .ok m ∧
    m.entries = l.entries.filter (·.1 ≠ key) ++ [(key, record)]
  replaced_in_place : ∀ key record, l.contains key = true → ∃ m, l.replace key record = .ok m ∧
    m.entries = l.entries.map fun e => if e.1 = key then (key, record) else e

theorem interchangeable (h : l.Lists c.table) : Interchangeable l c where
  answers_eq := answers_eq h
  entries_eq := h.entries_eq
  records_eq := l.records_eq
  readded_last := h.readd
  replaced_in_place _ record hk := h.replace hk record

end RecordKeeper

namespace DocumentKeeper

variable {a : LedgerArchive} {b : Archive}

theorem answer_respond (h : a.documents.Lists b.documents) (op : Operation) :
    (respond a op).1 = (respond b op).1 := by
  cases op with
  | load process =>
    show Answer.document (a.load process) = Answer.document (b.load process)
    rw [LedgerArchive.load, Archive.load, h.find?_eq]
  | contains process =>
    show Answer.holds (a.contains process) = Answer.holds (b.contains process)
    rw [LedgerArchive.contains, Archive.contains, h.contains_eq]
  | save process g => rfl

theorem lists_respond (h : a.documents.Lists b.documents) (op : Operation) :
    (respond a op).2.documents.Lists (respond b op).2.documents := by
  cases op with
  | save process g => exact h.put process (Document.dumpGraph g)
  | load | contains => exact h

theorem answers_eq (h : a.documents.Lists b.documents) (ops : List Operation) :
    answers a ops = answers b ops := by
  induction ops generalizing a b with
  | nil => rfl
  | cons op ops ih => rw [answers, answers, answer_respond h, ih (lists_respond h op)]

theorem lists_afterAll (h : a.documents.Lists b.documents) (ops : List Operation) :
    (afterAll a ops).documents.Lists (afterAll b ops).documents := by
  induction ops generalizing a b with
  | nil => exact h
  | cons op ops ih => exact ih (lists_respond h op)

/-- The document that the operation saves for the process. -/
def Operation.saved? (process : String) : Operation → Option Value
  | .save other g => if other = process then some (Document.dumpGraph g) else none
  | .load _ | .contains _ => none

def lastSaved? (process : String) (ops : List Operation) : Option Value :=
  (ops.filterMap (·.saved? process)).getLast?

theorem get?_respond (b : Archive) (op : Operation) (process : String) :
    (respond b op).2.documents.get? process =
      (op.saved? process).or (b.documents.get? process) := by
  cases op with
  | save other g =>
    have hset : (respond b (.save other g)).2.documents.get? process =
        if process = other then some (Document.dumpGraph g) else b.documents.get? process :=
      Table.get?_set ..
    rw [hset, Operation.saved?]
    by_cases he : process = other <;> simp [he, eq_comm]
  | load | contains => rfl

theorem get?_afterAll (b : Archive) (ops : List Operation) (process : String) :
    (afterAll b ops).documents.get? process =
      (lastSaved? process ops).or (b.documents.get? process) := by
  induction ops generalizing b with
  | nil => rfl
  | cons op ops ih =>
    have hnext : afterAll b (op :: ops) = afterAll (respond b op).2 ops := rfl
    rw [hnext, ih, get?_respond, lastSaved?, lastSaved?, List.filterMap_cons]
    cases op.saved? process with
    | none => rfl
    | some document => cases h : (ops.filterMap (·.saved? process)) <;> simp [List.getLast?_cons]

/-- Rows and a table answer the same to these operations, and show what was saved last. -/
structure Interchangeable (ops : List Operation) : Prop where
  answers_eq : answers LedgerArchive.empty ops = answers Archive.empty ops
  load_rows : ∀ process, (afterAll LedgerArchive.empty ops).load process =
    (lastSaved? process ops).getD Document.empty
  load_table : ∀ process, (afterAll Archive.empty ops).load process =
    (lastSaved? process ops).getD Document.empty

theorem interchangeable (ops : List Operation) : Interchangeable ops := by
  have hempty : LedgerArchive.empty.documents.Lists Archive.empty.documents := Ledger.lists_empty
  have hsaved : ∀ process, (afterAll Archive.empty ops).documents.get? process =
      lastSaved? process ops := by
    intro process
    rw [get?_afterAll, Archive.empty, Table.get?_empty, Option.or_none]
  constructor
  · exact answers_eq hempty ops
  · intro process
    rw [LedgerArchive.load, (lists_afterAll hempty ops).find?_eq, hsaved]
  · intro process
    rw [Archive.load, hsaved]

end DocumentKeeper

theorem rows_serve_as_tables :
    (∀ (α : Type) (ops : List (RecordKeeper.Operation α)), RecordKeeper.Interchangeable
      (RecordKeeper.afterAll (Ledger.empty : Ledger α) ops)
      (RecordKeeper.afterAll (Catalog.empty : Catalog α) ops)) ∧
    ∀ ops : List DocumentKeeper.Operation, DocumentKeeper.Interchangeable ops := by
  constructor
  · intro α ops
    have hempty : (Ledger.empty : Ledger α).Lists (Catalog.empty : Catalog α).table :=
      Ledger.lists_empty
    exact RecordKeeper.interchangeable (RecordKeeper.lists_afterAll hempty ops)
  · exact DocumentKeeper.interchangeable

end Flowsheet
