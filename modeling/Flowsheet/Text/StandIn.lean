import Flowsheet.Text.Encoding

/-! Characters that stand for halves. A text that was read may hold one half of a character without
the other. A character that has no meaning of its own stands for it, out of a range that has to be
agreed on because nothing else sets it apart. -/

namespace Flowsheet.Text

/-- One character for each half, in order. -/
structure StandIns where
  first : Nat
  first_ge : 0xF0000 ≤ first
  last_lt : first + 0x800 ≤ 0x110000

namespace StandIns

variable (standIns : StandIns)

def char (half : Nat) : Char := Char.ofNat (standIns.first + (half - 0xD800))

def contains (c : Char) : Bool :=
  standIns.first ≤ c.toNat && c.toNat < standIns.first + 0x800

/-- Nothing in the text stands for half a character. -/
def areAbsent (s : String) : Bool := s.toList.all fun c => !standIns.contains c

theorem contains_char {half : Nat} (hh : isHighHalf half = true ∨ isLowHalf half = true) :
    standIns.contains (standIns.char half) = true := by
  obtain ⟨first, hge, hlt⟩ := standIns
  simp only [isHighHalf, isLowHalf, Bool.and_eq_true, decide_eq_true_eq] at hh
  have hvalid : (first + (half - 0xD800)).isValidChar := .inr (by omega)
  have hchar : (Char.ofNat (first + (half - 0xD800))).toNat = first + (half - 0xD800) := by
    rw [Char.ofNat, dif_pos hvalid]
    rfl
  simp only [contains, char, hchar, Bool.and_eq_true, decide_eq_true_eq]
  omega

end StandIns

end Flowsheet.Text
