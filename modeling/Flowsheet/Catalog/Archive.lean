import Flowsheet.Catalog.Ledger
import Flowsheet.Document.Basic

/-! Archives of documents by process. A process without a document has the empty one. -/

namespace Flowsheet

structure Archive where
  documents : Table Value

namespace Archive

def empty : Archive := ⟨.empty⟩

instance : Inhabited Archive := ⟨empty⟩

def contains (a : Archive) (process : String) : Bool := a.documents.contains process

def load (a : Archive) (process : String) : Value :=
  (a.documents.get? process).getD Document.empty

def save (a : Archive) (process : String) (g : Graph) : Archive :=
  ⟨a.documents.set process (Document.dumpGraph g)⟩

def loadGraph (a : Archive) (process : String) : Except Document.Fault Graph :=
  Document.loadGraph (a.load process)

end Archive

/-- An archive on numbered rows. -/
structure LedgerArchive where
  documents : Ledger Value

namespace LedgerArchive

def empty : LedgerArchive := ⟨.empty⟩

def contains (a : LedgerArchive) (process : String) : Bool := a.documents.contains process

def load (a : LedgerArchive) (process : String) : Value :=
  (a.documents.find? process).getD Document.empty

def save (a : LedgerArchive) (process : String) (g : Graph) : LedgerArchive :=
  ⟨a.documents.put process (Document.dumpGraph g)⟩

def loadGraph (a : LedgerArchive) (process : String) : Except Document.Fault Graph :=
  Document.loadGraph (a.load process)

end LedgerArchive

end Flowsheet
