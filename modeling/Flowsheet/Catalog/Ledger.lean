import Flowsheet.Catalog.Basic

/-! A ledger keeps the same records as numbered rows. A new row gets a number above all others, and
rows are listed by number, so that they need not be stored in any order. -/

namespace Flowsheet

structure Ledger.Row (α : Type) where
  number : Nat
  key : String
  record : α

structure Ledger (α : Type) where
  rows : List (Ledger.Row α)

namespace Ledger

variable {α : Type}

def empty : Ledger α := ⟨[]⟩

def row? (l : Ledger α) (key : String) : Option (Row α) :=
  l.rows.find? (·.key = key)

def find? (l : Ledger α) (key : String) : Option α :=
  (l.row? key).map Row.record

def contains (l : Ledger α) (key : String) : Bool :=
  (l.row? key).isSome

def get (l : Ledger α) (key : String) : Except Catalog.Fault α :=
  match l.find? key with
  | some record => .ok record
  | none => .error (.missing key)

/-- A number above those of all rows. -/
def nextNumber (l : Ledger α) : Nat :=
  (l.rows.map Row.number).foldl max 0 + 1

def insert (l : Ledger α) (key : String) (record : α) : Ledger α :=
  ⟨⟨l.nextNumber, key, record⟩ :: l.rows⟩

/-- With another record in the rows of the key, which keep their numbers. -/
def update (l : Ledger α) (key : String) (record : α) : Ledger α :=
  ⟨l.rows.map fun row => if row.key = key then { row with record := record } else row⟩

def add (l : Ledger α) (key : String) (record : α) : Except Catalog.Fault (Ledger α) :=
  if l.contains key then .error (.duplicate key) else .ok (l.insert key record)

def replace (l : Ledger α) (key : String) (record : α) : Except Catalog.Fault (Ledger α) :=
  if l.contains key then .ok (l.update key record) else .error (.missing key)

/-- With the record under the key, whether there was one or not. -/
def put (l : Ledger α) (key : String) (record : α) : Ledger α :=
  if l.contains key then l.update key record else l.insert key record

def discard (l : Ledger α) (key : String) : Ledger α :=
  ⟨l.rows.filter (·.key ≠ key)⟩

def records (l : Ledger α) : List α :=
  (l.rows.mergeSort fun r s => r.number ≤ s.number).map Row.record

def size (l : Ledger α) : Nat := l.rows.length

end Ledger

end Flowsheet
