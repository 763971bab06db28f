import Flowsheet.Numeral
import Flowsheet.Table
import Flowsheet.Text.Encoding
import Flowsheet.Value.Basic

/-! Reading values from JSON text, with the words for the numbers that are not finite. A text that
is not JSON is refused at the offset of the first character that cannot be there. An escape may write
one half of a character without the other; the reader is told what is to stand for it. -/

namespace Flowsheet.Value

/-- Why a text is refused: the offset of its first impossible character, a whole number with too
many digits, or too many lists and objects inside each other. -/
inductive Refusal where
  | malformed (offset : Nat)
  | longInteger (digits : Nat)
  | tooDeep
deriving DecidableEq, Repr

namespace Reader

def isSpace (c : Char) : Bool :=
  c == ' ' || c == '\t' || c == '\n' || c == '\r'

def hexValue? (c : Char) : Option Nat :=
  let n := c.toNat
  if 48 ≤ n && n ≤ 57 then some (n - 48)
  else if 65 ≤ n && n ≤ 70 then some (n - 55)
  else if 97 ≤ n && n ≤ 102 then some (n - 87)
  else none

def codeUnit? (a b c d : Char) : Option Nat := do
  let w ← hexValue? a
  let x ← hexValue? b
  let y ← hexValue? c
  let z ← hexValue? d
  return ((w * 16 + x) * 16 + y) * 16 + z

def escape? : Char → Option Char
  | '"' => some '"'
  | '\\' => some '\\'
  | '/' => some '/'
  | 'b' => some '\x08'
  | 'f' => some '\x0c'
  | 'n' => some '\n'
  | 'r' => some '\r'
  | 't' => some '\t'
  | _ => none

/-- Characters so far, latest first, with the first half of a pair if the latest escape was one. -/
structure Written where
  chars : List Char
  half : Option Nat

namespace Written

variable (lone : Nat → Char)

def settle (w : Written) : List Char :=
  (w.half.map lone).toList ++ w.chars

def add (w : Written) (c : Char) : Written :=
  ⟨c :: w.settle lone, none⟩

def addUnit (w : Written) (unit : Nat) : Written :=
  if Text.isHighHalf unit then ⟨w.settle lone, some unit⟩
  else match w.half with
    | some high =>
      if Text.isLowHalf unit then ⟨Text.joinHalves high unit :: w.chars, none⟩
      else w.add lone (Text.unitChar lone unit)
    | none => w.add lone (Text.unitChar lone unit)

end Written

/-- The text up to its closing quotation mark, the offset after that, and the rest. An unclosed text
is refused where it starts. -/
def readText (lone : Nat → Char) (start offset : Nat) (w : Written) : List Char →
    Except Nat (String × Nat × List Char)
  | [] => .error start
  | '"' :: rest => .ok (String.ofList (w.settle lone).reverse, offset + 1, rest)
  | ['\\'] => .error start
  | '\\' :: 'u' :: a :: b :: c :: d :: next :: rest =>
    match codeUnit? a b c d with
    | some unit => readText lone start (offset + 6) (w.addUnit lone unit) (next :: rest)
    | none => .error (offset + 1)
  | '\\' :: 'u' :: _ => .error (offset + 1)
  | '\\' :: c :: rest =>
    match escape? c with
    | some e => readText lone start (offset + 2) (w.add lone e) rest
    | none => .error offset
  | c :: rest =>
    if c.toNat < 0x20 then .error offset else readText lone start (offset + 1) (w.add lone c) rest

def isAsciiDigit (c : Char) : Bool := '0' ≤ c && c ≤ '9'

/-- A point with digits after it. -/
def splitFraction : List Char → List Char × List Char
  | '.' :: rest => match rest.takeWhile isAsciiDigit with
    | [] => ([], '.' :: rest)
    | digits => ('.' :: digits, rest.dropWhile isAsciiDigit)
  | rest => ([], rest)

def splitPower (cs : List Char) : List Char × List Char :=
  match cs with
  | mark :: rest =>
    if Numeral.isExponentMark mark then
      let signed := Numeral.splitSign rest
      match signed.2.takeWhile isAsciiDigit with
      | [] => ([], cs)
      | digits => (mark :: signed.1 ++ digits, signed.2.dropWhile isAsciiDigit)
    else ([], cs)
  | [] => ([], [])

/-- Digits without a zero before others, and what follows them. -/
def splitWhole : List Char → List Char × List Char
  | '0' :: rest => (['0'], rest)
  | cs => (cs.takeWhile isAsciiDigit, cs.dropWhile isAsciiDigit)

/-- What was read, over how many characters, and the rest. -/
abbrev Step := Value × Nat × List Char

/-- A number without its sign. Without fraction and power it is a whole number. -/
def readNumber (negative : Bool) (offset : Nat) (cs : List Char) : Except Refusal Step :=
  match splitWhole cs with
  | ([], _) => .error (.malformed offset)
  | (whole, afterWhole) =>
    let (fraction, afterFraction) := splitFraction afterWhole
    let (power, rest) := splitPower afterFraction
    let numeral := whole ++ fraction ++ power
    if fraction.isEmpty && power.isEmpty then
      if Text.longestRow < whole.length then .error (.longInteger whole.length)
      else .ok (.int (Double.signed negative (Text.numberOfDigits whole)), whole.length, rest)
    else .ok (.double (Numeral.value negative numeral), numeral.length, rest)

def words : List (List Char × Value) :=
  [("null".toList, .null), ("true".toList, .bool true), ("false".toList, .bool false),
   ("NaN".toList, .double (.nan 0)), ("Infinity".toList, .double (.infinite false)),
   ("-Infinity".toList, .double (.infinite true))]

/-- A word or a number. -/
def readAtom (offset : Nat) (cs : List Char) : Except Refusal Step :=
  match words.find? fun (word, _) => word.isPrefixOf cs with
  | some (word, v) => .ok (v, word.length, cs.drop word.length)
  | none => match cs with
    | '-' :: rest =>
      (readNumber true offset rest).map fun (v, count, after) => (v, count + 1, after)
    | _ => readNumber false offset cs

/-- A value that has begun: its items, latest first, or its entries and the key of the next one. -/
inductive Frame where
  | list (items : List Value)
  | object (entries : List (String × Value)) (key : String)

/-- What may come next. -/
inductive Expected where
  | value
  | firstItem
  | key
  | firstKey
  | colon
  | separator
  | nothing (whole : Value)

structure State where
  frames : List Frame
  expected : Expected

namespace State

def put (frames : List Frame) (v : Value) : State :=
  match frames with
  | [] => ⟨[], .nothing v⟩
  | .list items :: outer => ⟨.list (v :: items) :: outer, .separator⟩
  | .object entries key :: outer => ⟨.object (setEntry key v entries) key :: outer, .separator⟩

/-- The state after a mark, if the mark may come next. -/
def mark? (s : State) (c : Char) : Option State :=
  match s.expected, c, s.frames with
  | .value, '[', fs | .firstItem, '[', fs => some ⟨.list [] :: fs, .firstItem⟩
  | .value, '\x7b', fs | .firstItem, '\x7b', fs => some ⟨.object [] "" :: fs, .firstKey⟩
  | .firstItem, ']', .list items :: outer | .separator, ']', .list items :: outer =>
    some (put outer (.list items.reverse))
  | .firstKey, '\x7d', .object entries _ :: outer
  | .separator, '\x7d', .object entries _ :: outer =>
    some (put outer (.object entries))
  | .colon, ':', fs => some ⟨fs, .value⟩
  | .separator, ',', .list items :: outer => some ⟨.list items :: outer, .value⟩
  | .separator, ',', .object entries key :: outer => some ⟨.object entries key :: outer, .key⟩
  | _, _, _ => none

def wantsValue (s : State) : Bool :=
  match s.expected with
  | .value | .firstItem => true
  | _ => false

def wantsKey (s : State) : Bool :=
  match s.expected with
  | .key | .firstKey => true
  | _ => false

def setKey (s : State) (key : String) : State :=
  match s.frames with
  | .object entries _ :: outer => ⟨.object entries key :: outer, .colon⟩
  | fs => ⟨fs, .colon⟩

end State

theorem length_dropWhile_le (p : Char → Bool) (cs : List Char) :
    (cs.dropWhile p).length ≤ cs.length :=
  (List.dropWhile_suffix p).length_le

theorem length_of_readText {lone : Nat → Char} {start offset : Nat} {w : Written}
    {cs rest : List Char} {s : String} {after : Nat}
    (h : readText lone start offset w cs = .ok (s, after, rest)) : rest.length < cs.length := by
  fun_induction readText lone start offset w cs <;> simp_all <;> omega

theorem length_splitFraction (cs : List Char) : (splitFraction cs).2.length ≤ cs.length := by
  unfold splitFraction
  split
  · next rest =>
    split
    · simp
    · have := length_dropWhile_le isAsciiDigit rest
      simp only [List.length_cons]
      omega
  · simp

theorem length_splitPower (cs : List Char) : (splitPower cs).2.length ≤ cs.length := by
  unfold splitPower
  split
  · next mark rest =>
    split
    · have h1 : (Numeral.splitSign rest).2.length ≤ rest.length := by
        unfold Numeral.splitSign
        split <;> simp
      have h2 := length_dropWhile_le isAsciiDigit (Numeral.splitSign rest).2
      dsimp only
      split
      · simp
      · simp only [List.length_cons]
        omega
    · simp
  · simp

theorem length_of_splitWhole {cs whole rest : List Char} (h : splitWhole cs = (whole, rest))
    (hne : whole ≠ []) : rest.length < cs.length := by
  unfold splitWhole at h
  split at h
  · simp_all
  · cases h
    have hsum := congrArg List.length
      (List.takeWhile_append_dropWhile (p := isAsciiDigit) (l := cs))
    have hpos := List.length_pos_iff.2 hne
    simp only [List.length_append] at hsum
    omega

theorem length_of_readNumber {negative : Bool} {offset count : Nat} {cs rest : List Char}
    {v : Value} (h : readNumber negative offset cs = .ok (v, count, rest)) :
    rest.length < cs.length := by
  unfold readNumber at h
  split at h
  · simp at h
  · next whole tail hne hsplit =>
    have h1 := length_of_splitWhole hsplit hne
    have h2 := length_splitFraction tail
    have h3 := length_splitPower (splitFraction tail).2
    grind

theorem words_ne_nil : ∀ p ∈ words, 0 < p.1.length := by
  intro p hp
  simp only [words, List.mem_cons, List.not_mem_nil, or_false] at hp
  rcases hp with h | h | h | h | h | h <;> subst h <;> decide

theorem length_of_readAtom {offset count : Nat} {cs rest : List Char} {v : Value} (hne : cs ≠ [])
    (h : readAtom offset cs = .ok (v, count, rest)) : rest.length < cs.length := by
  unfold readAtom at h
  split at h
  · next word value hfind =>
    have hw := words_ne_nil _ (List.mem_of_find?_eq_some hfind)
    have hpos := List.length_pos_iff.2 hne
    cases h
    simp only [List.length_drop] at *
    omega
  · split at h
    · next tail _ =>
      cases hr : readNumber true offset tail with
      | error e => simp [hr, Except.map] at h
      | ok step =>
        have hlt := length_of_readNumber hr
        simp only [hr, Except.map, Except.ok.injEq, Prod.mk.injEq] at h
        simp only [List.length_cons, ← h.2.2]
        omega
    · exact length_of_readNumber h

/-- Reads on from a state to the end of the text. -/
def run (lone : Nat → Char) (deepest : Nat) (s : State) (offset : Nat) (cs : List Char) :
    Except Refusal Value :=
  match hcs : cs with
  | [] => match s.expected with
    | .nothing v => .ok v
    | _ => .error (.malformed offset)
  | c :: rest =>
    if isSpace c then run lone deepest s (offset + 1) rest
    else match s.mark? c with
      | some next =>
        if deepest < next.frames.length then .error .tooDeep
        else run lone deepest next (offset + 1) rest
      | none =>
        if c == '"' && (s.wantsValue || s.wantsKey) then
          match ht : readText lone offset (offset + 1) ⟨[], none⟩ rest with
          | .error at_ => .error (.malformed at_)
          | .ok (written, after, tail) =>
            have := length_of_readText ht
            let next := if s.wantsKey then s.setKey written else .put s.frames (.text written)
            run lone deepest next after tail
        else if s.wantsValue then
          match ha : readAtom offset cs with
          | .error refusal => .error refusal
          | .ok (v, count, tail) =>
            have := length_of_readAtom (by simp [hcs]) ha
            run lone deepest (.put s.frames v) (offset + count) tail
        else .error (.malformed offset)
termination_by cs.length
decreasing_by all_goals simp_all <;> omega

end Reader

/-- The value that a JSON text writes, if no more lists and objects than given are inside each
other. -/
def readWithin (lone : Nat → Char) (deepest : Nat) (text : List Char) : Except Refusal Value :=
  Reader.run lone deepest ⟨[], .value⟩ 0 text

end Flowsheet.Value
