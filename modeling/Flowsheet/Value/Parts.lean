import Flowsheet.Text.DecimalDigit
import Flowsheet.Text.StandIn
import Flowsheet.Value.Basic

/-! Values all of whose parts pass a test, at every depth. Only finite numbers can be written as JSON,
only short ones can be written out in digits, and only a text of whole characters can be sent. -/

namespace Flowsheet

open scoped NativePower

def Double.isFinite : Double → Bool
  | .finite .. => true
  | _ => false

namespace Value

mutual

/-- The keys of all objects pass, and so does whatever is neither a list nor an object. -/
def throughout (key : String → Bool) (atom : Value → Bool) : Value → Bool
  | .list items => itemsThroughout key atom items
  | .object entries => entriesThroughout key atom entries
  | v => atom v

def itemsThroughout (key : String → Bool) (atom : Value → Bool) : List Value → Bool
  | [] => true
  | v :: rest => throughout key atom v && itemsThroughout key atom rest

def entriesThroughout (key : String → Bool) (atom : Value → Bool) : List (String × Value) → Bool
  | [] => true
  | (name, v) :: rest =>
    key name && throughout key atom v && entriesThroughout key atom rest

end

section

variable {key : String → Bool} {atom : Value → Bool}

theorem itemsThroughout_iff {items : List Value} :
    itemsThroughout key atom items = true ↔ ∀ v ∈ items, v.throughout key atom = true := by
  induction items with
  | nil => simp [itemsThroughout]
  | cons v rest ih => rw [itemsThroughout, Bool.and_eq_true, ih, List.forall_mem_cons]

theorem entriesThroughout_iff {entries : List (String × Value)} :
    entriesThroughout key atom entries = true ↔
      ∀ entry ∈ entries, key entry.1 = true ∧ entry.2.throughout key atom = true := by
  induction entries with
  | nil => simp [entriesThroughout]
  | cons entry rest ih =>
    rw [entriesThroughout, Bool.and_eq_true, Bool.and_eq_true, ih, List.forall_mem_cons]

/-- Where any key will do, only the values matter. -/
theorem anyThroughout_iff {entries : List (String × Value)} :
    entriesThroughout (fun _ => true) atom entries = true ↔
      ∀ entry ∈ entries, entry.2.throughout (fun _ => true) atom = true := by
  simp only [entriesThroughout_iff, true_and]

end

def isFinite (v : Value) : Bool :=
  v.throughout (fun _ => true) fun
    | .double x => x.isFinite
    | _ => true

/-- No whole number has more digits than can be written. -/
def isShort (v : Value) : Bool :=
  v.throughout (fun _ => true) fun
    | .int n => n.natAbs < 10 ^ Text.longestRow
    | _ => true

/-- No text has half a character in it, and no key has. -/
def isWhole (standIns : Text.StandIns) (v : Value) : Bool :=
  v.throughout standIns.areAbsent fun
    | .text s => standIns.areAbsent s
    | _ => true

variable {items : List Value} {entries : List (String × Value)}

theorem isFinite_list_iff : (list items).isFinite = true ↔ ∀ v ∈ items, v.isFinite = true :=
  itemsThroughout_iff

theorem isFinite_object_iff :
    (object entries).isFinite = true ↔ ∀ entry ∈ entries, entry.2.isFinite = true :=
  anyThroughout_iff

theorem isShort_int_iff {n : Int} :
    (int n).isShort = true ↔ n.natAbs < 10 ^ Text.longestRow := by
  simp [isShort, throughout]

theorem isShort_list_iff : (list items).isShort = true ↔ ∀ v ∈ items, v.isShort = true :=
  itemsThroughout_iff

theorem isShort_object_iff :
    (object entries).isShort = true ↔ ∀ entry ∈ entries, entry.2.isShort = true :=
  anyThroughout_iff

end Value

end Flowsheet
