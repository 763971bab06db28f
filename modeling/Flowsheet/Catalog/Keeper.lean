import Flowsheet.Catalog.Archive

/-! What can be asked of records and of documents that are kept, as data, so that two ways of keeping
them can be asked the same. An operation that fails leaves everything as it is. -/

namespace Flowsheet

/-- A way of keeping records under keys. -/
class RecordKeeper (σ : Type) (α : outParam Type) where
  find? : σ → String → Option α
  contains : σ → String → Bool
  get : σ → String → Except Catalog.Fault α
  add : σ → String → α → Except Catalog.Fault σ
  replace : σ → String → α → Except Catalog.Fault σ
  discard : σ → String → σ
  records : σ → List α
  size : σ → Nat

/-- A way of keeping documents of processes. -/
class DocumentKeeper (σ : Type) where
  load : σ → String → Value
  save : σ → String → Graph → σ
  contains : σ → String → Bool

instance {α : Type} : RecordKeeper (Catalog α) α where
  find? := Catalog.find?
  contains := Catalog.contains
  get := Catalog.get
  add := Catalog.add
  replace := Catalog.replace
  discard := Catalog.discard
  records := Catalog.records
  size := Catalog.size

instance {α : Type} : RecordKeeper (Ledger α) α where
  find? := Ledger.find?
  contains := Ledger.contains
  get := Ledger.get
  add := Ledger.add
  replace := Ledger.replace
  discard := Ledger.discard
  records := Ledger.records
  size := Ledger.size

instance : DocumentKeeper Archive where
  load := Archive.load
  save := Archive.save
  contains := Archive.contains

instance : DocumentKeeper LedgerArchive where
  load := LedgerArchive.load
  save := LedgerArchive.save
  contains := LedgerArchive.contains

namespace RecordKeeper

inductive Operation (α : Type) where
  | find (key : String)
  | contains (key : String)
  | get (key : String)
  | add (key : String) (record : α)
  | replace (key : String) (record : α)
  | discard (key : String)
  | records
  | size

inductive Answer (α : Type) where
  | found (record? : Option α)
  | holds (b : Bool)
  | record (record : α)
  | records (records : List α)
  | size (n : Nat)
  | done

variable {σ α : Type} [RecordKeeper σ α]

/-- The answer, and what is kept afterwards. A discarded record is shown once more. -/
def respond (s : σ) : Operation α → Except Catalog.Fault (Answer α × σ)
  | .find key => .ok (.found (find? s key), s)
  | .contains key => .ok (.holds (contains s key), s)
  | .get key => return (.record (← get s key), s)
  | .add key record => return (.done, ← add s key record)
  | .replace key record => return (.done, ← replace s key record)
  | .discard key => .ok (.found (find? s key), discard s key)
  | .records => .ok (.records (records s), s)
  | .size => .ok (.size (size s), s)

def after (s : σ) (op : Operation α) : σ :=
  match respond s op with
  | .ok (_, t) => t
  | .error _ => s

def afterAll (s : σ) (ops : List (Operation α)) : σ :=
  ops.foldl after s

/-- What is answered to one operation after another. -/
def answers (s : σ) : List (Operation α) → List (Except Catalog.Fault (Answer α))
  | [] => []
  | op :: ops => (respond s op).map Prod.fst :: answers (after s op) ops

end RecordKeeper

namespace DocumentKeeper

inductive Operation where
  | load (process : String)
  | contains (process : String)
  | save (process : String) (g : Graph)

inductive Answer where
  | document (document : Value)
  | holds (b : Bool)

variable {σ : Type} [DocumentKeeper σ]

def respond (s : σ) : Operation → Answer × σ
  | .load process => (.document (load s process), s)
  | .contains process => (.holds (contains s process), s)
  | .save process g => (.document (Document.dumpGraph g), save s process g)

def afterAll (s : σ) (ops : List Operation) : σ :=
  ops.foldl (fun t op => (respond t op).2) s

def answers (s : σ) : List Operation → List Answer
  | [] => []
  | op :: ops => (respond s op).1 :: answers (respond s op).2 ops

end DocumentKeeper

end Flowsheet
