import Flowsheet.Table
import Flowsheet.Text.Quoted

/-! Catalogs: records under keys that are given with them, in the order of their addition. -/

namespace Flowsheet

inductive Catalog.Fault where
  | duplicate (key : String)
  | missing (key : String)
deriving DecidableEq, Repr

def Catalog.Fault.message : Catalog.Fault → String
  | .duplicate key => s!"Record with id {Text.quoted key} already exists"
  | .missing key => s!"Record with id {Text.quoted key} not found"

structure Catalog (α : Type) where
  table : Table α

namespace Catalog

variable {α : Type}

def empty : Catalog α := ⟨.empty⟩

instance : Inhabited (Catalog α) := ⟨empty⟩

def find? (c : Catalog α) (key : String) : Option α := c.table.get? key

def contains (c : Catalog α) (key : String) : Bool := c.table.contains key

def get (c : Catalog α) (key : String) : Except Fault α :=
  match c.find? key with
  | some record => .ok record
  | none => .error (.missing key)

def add (c : Catalog α) (key : String) (record : α) : Except Fault (Catalog α) :=
  if c.contains key then .error (.duplicate key) else .ok ⟨c.table.set key record⟩

/-- With another record in the place of the one under the key. -/
def replace (c : Catalog α) (key : String) (record : α) : Except Fault (Catalog α) :=
  if c.contains key then .ok ⟨c.table.set key record⟩ else .error (.missing key)

def discard (c : Catalog α) (key : String) : Catalog α := ⟨c.table.erase key⟩

def map {β : Type} (f : α → β) (c : Catalog α) : Catalog β := ⟨c.table.map f⟩

def records (c : Catalog α) : List α := c.table.values

def size (c : Catalog α) : Nat := c.table.size

end Catalog

end Flowsheet
