import Flowsheet.Proofs.Expression.Lexing
import Flowsheet.Proofs.Numeral.Longest

/-! There is one way at most to cut a text into symbols with nothing but blanks around them, if each
number is taken as long as it can be, and the tokens of the text are the symbols of that cut. -/

namespace Flowsheet.Expression

open Numeral Text

variable {cs ds numeral : List Char} {symbol : Symbol}

/-- The text begins with the symbol, and with no longer number if it is one. -/
structure Symbol.Begins (symbol : Symbol) (cs : List Char) : Prop where
  isValid : symbol.IsValid
  isPrefix : symbol.text <+: cs
  longest : symbol.isNumber = true →
    ∀ numeral, IsNumber numeral → numeral <+: cs → numeral.length ≤ symbol.text.length

theorem exists_longer_number (hn : IsNumber numeral) (rest : List Char) :
    ∃ longer after, splitNumber (numeral ++ rest) = some (longer, after) ∧
      numeral.length ≤ longer.length := by
  cases hn with
  | numeral _ hn =>
    obtain ⟨longer, after, hsplit, hle⟩ := exists_longer hn rest
    exact ⟨longer, after, by rw [splitNumber, hsplit, Option.some_or], hle⟩
  | infinity => exact ⟨_, _, rfl, Nat.le_refl _⟩
  | notANumber => exact ⟨_, _, rfl, Nat.le_refl _⟩

theorem splitSymbol_of_splitNumber {rest : List Char}
    (hs : splitNumber cs = some (numeral, rest)) :
    splitSymbol cs = some (.number numeral, rest) := by
  unfold splitSymbol
  rw [hs]

namespace Symbol.Begins

theorem length_pos (hb : symbol.Begins cs) : 0 < symbol.text.length := by
  obtain ⟨c, rest, ht, -⟩ := exists_cons_of_isValid hb.isValid
  rw [ht]
  exact Nat.succ_pos _

theorem not_isBlank {c : Char} (hb : symbol.Begins (c :: cs)) : isBlank c = false := by
  obtain ⟨first, rest, ht, hblank⟩ := exists_cons_of_isValid hb.isValid
  have hprefix := hb.isPrefix
  rw [ht, List.cons_prefix_cons] at hprefix
  rw [← hprefix.1]
  exact hblank

theorem splitSymbol_eq (hb : symbol.Begins (symbol.text ++ cs)) :
    splitSymbol (symbol.text ++ cs) = some (symbol, cs) := by
  cases symbol with
  | number numeral =>
    obtain ⟨longer, after, hsplit, hle⟩ := exists_longer_number (hb.isValid numeral rfl) cs
    obtain ⟨happend, -⟩ := splitNumber_append hsplit
    have hge := hb.longest rfl longer (isNumber_of_splitNumber hsplit) ⟨after, happend⟩
    obtain ⟨rfl, rfl⟩ := List.append_inj happend (Nat.le_antisymm hge hle)
    exact splitSymbol_of_splitNumber hsplit
  | plus | minus | times | divide | openParen | closeParen =>
    exact splitSymbol_append_of_isValid hb.isValid (fun hn => nomatch hn)

theorem splitSymbol_drop (hb : symbol.Begins cs) :
    splitSymbol cs = some (symbol, cs.drop symbol.text.length) := by
  obtain ⟨rest, rfl⟩ := hb.isPrefix
  rw [hb.splitSymbol_eq, List.drop_left]

theorem of_splitSymbol {rest : List Char} (hs : splitSymbol cs = some (symbol, rest)) :
    symbol.Begins cs where
  isValid := isValid_of_splitSymbol hs
  isPrefix := ⟨rest, (splitSymbol_append hs).1⟩
  longest := by
    rintro - numeral hn ⟨tail, rfl⟩
    obtain ⟨longer, after, hsplit, hle⟩ := exists_longer_number hn tail
    cases (splitSymbol_of_splitNumber hsplit).symm.trans hs
    exact hle

/-- A second point is no part of the number, however long that is to be. -/
example : splitSymbol ['1', '.', '2', '.', '3'] =
    some (.number ['1', '.', '2'], ['.', '3']) := rfl

/-- Another text begins with the symbol as well, unless it begins with new numbers. -/
theorem of_prefixes (hb : symbol.Begins cs) (hp : symbol.text <+: ds)
    (hd : ∀ numeral, IsNumber numeral → numeral <+: ds → numeral <+: cs) : symbol.Begins ds :=
  ⟨hb.isValid, hp, fun hs numeral hn hm => hb.longest hs numeral hn (hd numeral hn hm)⟩

theorem tokensFrom_eq (hb : symbol.Begins (symbol.text ++ cs)) (position : Nat) :
    tokensFrom position (symbol.text ++ cs) =
      (tokensFrom (position + symbol.text.length) cs).map (⟨symbol, position⟩ :: ·) :=
  tokensFrom_of_splitSymbol position hb.isValid hb.splitSymbol_eq

end Symbol.Begins

theorem not_prefix_of_splitSymbol (hs : splitSymbol cs = none) (hv : symbol.IsValid) :
    ¬ symbol.text <+: cs := by
  rintro ⟨rest, rfl⟩
  cases symbol with
  | number numeral =>
    obtain ⟨longer, after, hsplit, -⟩ := exists_longer_number (hv numeral rfl) rest
    cases (splitSymbol_of_splitNumber hsplit).symm.trans hs
  | plus | minus | times | divide | openParen | closeParen =>
    rw [splitSymbol_append_of_isValid hv fun hn => nomatch hn] at hs
    cases hs

/-- The place behind the token. -/
def Token.stop (token : Token) : Nat := token.position + token.symbol.text.length

/-- The tokens cut the text from the place on. -/
structure CutsFrom (text : List Char) (start : Nat) (ts : List Token) : Prop where
  le_position : ∀ token ∈ ts, start ≤ token.position
  apart : ts.Pairwise fun left right => left.stop ≤ right.position
  begins : ∀ token ∈ ts, token.symbol.Begins (text.drop token.position)
  blank : ∀ i c, start ≤ i → text[i]? = some c →
    (∀ token ∈ ts, i < token.position ∨ token.stop ≤ i) → isBlank c = true

namespace CutsFrom

variable {text : List Char} {start : Nat} {ts : List Token} {c : Char}

theorem getElem?_of_drop (hc : text.drop start = c :: cs) : text[start]? = some c := by
  rw [← List.head?_drop, hc, List.head?_cons]

theorem drop_succ (hc : text.drop start = c :: cs) : text.drop (start + 1) = cs := by
  rw [← List.tail_drop, hc, List.tail_cons]

theorem nil_iff (hnil : text.drop start = []) : CutsFrom text start ts ↔ ts = [] := by
  have hlength := List.drop_eq_nil_iff.mp hnil
  constructor
  · intro hts
    refine List.eq_nil_iff_forall_not_mem.mpr fun token hm => ?_
    have hle := hts.le_position token hm
    have hbegins := hts.begins token hm
    rw [List.drop_eq_nil_of_le (by omega)] at hbegins
    have hpos := hbegins.length_pos
    rw [List.prefix_nil.mp hbegins.isPrefix] at hpos
    exact absurd hpos (Nat.lt_irrefl 0)
  · rintro rfl
    refine ⟨by simp, .nil, by simp, fun i c hi hc => ?_⟩
    obtain ⟨hlt, -⟩ := List.getElem?_eq_some_iff.mp hc
    omega

theorem blank_iff (hc : text.drop start = c :: cs) (hb : isBlank c = true) :
    CutsFrom text start ts ↔ CutsFrom text (start + 1) ts := by
  constructor
  · intro hts
    refine ⟨fun token hm => ?_, hts.apart, hts.begins, fun i d hi => hts.blank i d (by omega)⟩
    have hle := hts.le_position token hm
    have hne : token.position ≠ start := by
      intro heq
      have hbegins := hts.begins token hm
      rw [heq, hc] at hbegins
      rw [hbegins.not_isBlank] at hb
      cases hb
    omega
  · intro hts
    refine ⟨fun token hm => ?_, hts.apart, hts.begins, fun i d hi hd hout => ?_⟩
    · have hle := hts.le_position token hm
      omega
    · rcases Nat.eq_or_lt_of_le hi with rfl | hlt
      · cases (getElem?_of_drop hc).symm.trans hd
        exact hb
      · exact hts.blank i d hlt hd hout

theorem symbol_iff (hb : symbol.Begins (text.drop start)) :
    CutsFrom text start (⟨symbol, start⟩ :: ts) ↔
      CutsFrom text (start + symbol.text.length) ts := by
  have hpos := hb.length_pos
  constructor
  · intro hts
    obtain ⟨hfirst, hrest⟩ := List.pairwise_cons.mp hts.apart
    refine ⟨hfirst, hrest, fun token hm => hts.begins token (List.mem_cons_of_mem _ hm),
      fun i c hi hc hout => ?_⟩
    exact hts.blank i c (by omega) hc (List.forall_mem_cons.mpr ⟨.inr hi, hout⟩)
  · intro hts
    refine ⟨List.forall_mem_cons.mpr ⟨Nat.le_refl _, fun token hm => ?_⟩,
      List.pairwise_cons.mpr ⟨hts.le_position, hts.apart⟩,
      List.forall_mem_cons.mpr ⟨hb, hts.begins⟩, fun i c hi hc hout => ?_⟩
    · have hle := hts.le_position token hm
      omega
    · obtain ⟨hfirst, hrest⟩ := List.forall_mem_cons.mp hout
      exact hts.blank i c (hfirst.resolve_left (Nat.not_lt.mpr hi)) hc hrest

/-- A character that is not blank belongs to a symbol, and no symbol begins before the place. -/
theorem exists_symbol (hts : CutsFrom text start ts) (hc : text.drop start = c :: cs)
    (hb : isBlank c = false) : ∃ symbol rest, ts = ⟨symbol, start⟩ :: rest ∧
      symbol.Begins (text.drop start) := by
  have hcovered : ∃ token ∈ ts, token.position ≤ start ∧ start < token.stop := by
    refine Classical.by_contradiction fun hnone => ?_
    have hblank := hts.blank start c (Nat.le_refl _) (getElem?_of_drop hc) fun token hm => by
      refine Classical.by_contradiction fun hin => hnone ⟨token, hm, ?_⟩
      omega
    rw [hb] at hblank
    cases hblank
  obtain ⟨token, hm, hle, hlt⟩ := hcovered
  cases ts with
  | nil => cases hm
  | cons first rest =>
    have hbegins := hts.begins first List.mem_cons_self
    have hfirst := hts.le_position first List.mem_cons_self
    have hpos := hbegins.length_pos
    have hstart : first.position = start := by
      rcases List.mem_cons.mp hm with rfl | hm
      · omega
      · have hstop := (List.pairwise_cons.mp hts.apart).1 token hm
        simp only [Token.stop] at hstop
        omega
    obtain ⟨symbol, position⟩ := first
    obtain rfl : position = start := hstart
    exact ⟨symbol, rest, rfl, hbegins⟩

end CutsFrom

theorem tokensFrom_eq_ok_iff {text : List Char} {start : Nat} {ts : List Token}
    (hcs : text.drop start = cs) : tokensFrom start cs = .ok ts ↔ CutsFrom text start ts := by
  induction start, cs using tokensFrom.induct generalizing ts with
  | case1 start =>
    rw [CutsFrom.nil_iff hcs, tokensFrom_nil, Except.ok.injEq, eq_comm]
  | case2 start c rest hb ih =>
    rw [CutsFrom.blank_iff hcs hb, tokensFrom_blank start hb]
    exact ih (CutsFrom.drop_succ hcs)
  | case3 start c rest hb symbol after hs hlt ih =>
    have hbegins : symbol.Begins (text.drop start) := hcs ▸ Symbol.Begins.of_splitSymbol hs
    have hdrop : text.drop (start + symbol.text.length) = after := by
      rw [← List.drop_drop, hcs, ← (splitSymbol_append hs).1, List.drop_left]
    rw [tokensFrom_split start hb hs, map_eq_ok]
    constructor
    · rintro ⟨later, hl, rfl⟩
      exact (CutsFrom.symbol_iff hbegins).mpr ((ih hdrop).mp hl)
    · intro hts
      obtain ⟨first, later, rfl, hfirst⟩ := hts.exists_symbol hcs (Bool.eq_false_iff.mpr hb)
      rw [hcs] at hfirst
      cases hs.symm.trans hfirst.splitSymbol_drop
      exact ⟨later, (ih hdrop).mpr ((CutsFrom.symbol_iff hbegins).mp hts), rfl⟩
  | case4 start c rest hb hs =>
    rw [tokensFrom_stuck start hb hs]
    constructor
    · intro hts
      cases hts
    · intro hts
      obtain ⟨first, later, -, hfirst⟩ := hts.exists_symbol hcs (Bool.eq_false_iff.mpr hb)
      rw [hcs] at hfirst
      cases hs.symm.trans hfirst.splitSymbol_drop

theorem tokensFrom_eq_error {start : Nat} {fault : SyntaxFault}
    (hf : tokensFrom start cs = .error fault) : ∃ before c after, cs = before ++ c :: after ∧
      fault = ⟨.unexpectedCharacter c, start + before.length⟩ ∧ isBlank c = false ∧
      splitSymbol (c :: after) = none ∧ ∃ ts, tokensFrom start before = .ok ts := by
  induction start, cs using tokensFrom.induct with
  | case1 start =>
    rw [tokensFrom_nil] at hf
    cases hf
  | case2 start c rest hb ih =>
    rw [tokensFrom_blank start hb] at hf
    obtain ⟨before, d, after, rfl, rfl, hd, hs, ts, hts⟩ := ih hf
    refine ⟨c :: before, d, after, rfl, ?_, hd, hs, ts, (tokensFrom_blank start hb).trans hts⟩
    rw [List.length_cons, Nat.add_assoc, Nat.add_comm 1]
  | case3 start c rest hb symbol after hs hlt ih =>
    obtain ⟨happend, -⟩ := splitSymbol_append hs
    rw [tokensFrom_split start hb hs] at hf
    obtain ⟨before, d, after, rfl, rfl, hd, hnone, ts, hts⟩ := ih (map_eq_error.mp hf)
    -- The symbol is found in front of a part of what follows it, as it is in front of all of it.
    have hbegins : symbol.Begins (symbol.text ++ before) :=
      (Symbol.Begins.of_splitSymbol hs).of_prefixes (List.prefix_append _ _) fun _ _ hm => by
        rw [← happend, ← List.append_assoc]
        exact hm.trans (List.prefix_append _ _)
    refine ⟨symbol.text ++ before, d, after, ?_, ?_, hd, hnone, ⟨symbol, start⟩ :: ts, ?_⟩
    · rw [List.append_assoc, happend]
    · rw [List.length_append, Nat.add_assoc]
    · rw [hbegins.tokensFrom_eq, hts]
      rfl
  | case4 start c rest hb hs =>
    rw [tokensFrom_stuck start hb hs] at hf
    cases hf
    exact ⟨[], c, rest, rfl, rfl, Bool.eq_false_iff.mpr hb, hs, [], tokensFrom_nil start⟩

/-- The text with the gap of each place put in there. -/
def spread (gap : Nat → List Char) : Nat → List Char → List Char
  | place, [] => gap place
  | place, c :: cs => gap place ++ c :: spread gap (place + 1) cs

variable {gap : Nat → List Char} {place : Nat}

theorem spread_append {word : List Char} (hne : word ≠ [])
    (hgap : ∀ i, place < i → i < place + word.length → gap i = []) (cs : List Char) :
    spread gap place (word ++ cs) =
      gap place ++ (word ++ spread gap (place + word.length) cs) := by
  induction word generalizing place with
  | nil => exact absurd rfl hne
  | cons c word ih =>
    cases word with
    | nil => rfl
    | cons d word =>
      simp only [List.length_cons] at hgap ih ⊢
      have hrest := @ih (place + 1) (List.cons_ne_nil d word)
        fun i hi hlt => hgap i (by omega) (by omega)
      rw [List.cons_append, spread, hrest, hgap (place + 1) (by omega) (by omega),
        List.nil_append, List.cons_append, Nat.add_assoc, Nat.add_comm 1]
      rfl

theorem tokensFrom_blanks {blanks : List Char} (hb : ∀ c ∈ blanks, isBlank c = true)
    (position : Nat) (cs : List Char) :
    tokensFrom position (blanks ++ cs) = tokensFrom (position + blanks.length) cs := by
  induction blanks generalizing position with
  | nil => rfl
  | cons c blanks ih =>
    rw [List.cons_append, tokensFrom_blank position (hb c List.mem_cons_self),
      ih (fun d hd => hb d (List.mem_cons_of_mem _ hd)), List.length_cons, Nat.add_assoc,
      Nat.add_comm 1]

theorem prefix_of_prefix_spread (hgap : ∀ i, ∀ c ∈ gap i, isBlank c = true)
    (hn : ∀ c ∈ numeral, isBlank c = false) (hp : numeral <+: spread gap place cs) :
    numeral <+: cs := by
  induction cs generalizing place numeral with
  | nil =>
    cases numeral with
    | nil => exact List.nil_prefix
    | cons d numeral =>
      have hblank := hgap place d (hp.subset List.mem_cons_self)
      rw [hn d List.mem_cons_self] at hblank
      cases hblank
  | cons c cs ih =>
    cases numeral with
    | nil => exact List.nil_prefix
    | cons d numeral =>
      rw [spread] at hp
      cases hg : gap place with
      | nil =>
        rw [hg, List.nil_append, List.cons_prefix_cons] at hp
        obtain ⟨rfl, hp⟩ := hp
        exact List.cons_prefix_cons.mpr
          ⟨rfl, ih (fun c hc => hn c (List.mem_cons_of_mem _ hc)) hp⟩
      | cons b blanks =>
        rw [hg, List.cons_append, List.cons_prefix_cons] at hp
        obtain ⟨rfl, -⟩ := hp
        have hblank := hgap place d (by rw [hg]; exact List.mem_cons_self)
        rw [hn d List.mem_cons_self] at hblank
        cases hblank

theorem prefix_of_prefix_append_spread {word : List Char}
    (hgap : ∀ i, ∀ c ∈ gap i, isBlank c = true) (hn : ∀ c ∈ numeral, isBlank c = false)
    (hp : numeral <+: word ++ spread gap place cs) :
    numeral <+: word ++ cs := by
  rcases List.prefix_or_prefix_of_prefix hp (List.prefix_append word _) with hw | ⟨tail, rfl⟩
  · exact hw.trans (List.prefix_append word cs)
  · have htail := (List.prefix_append_right_inj word).mp hp
    have hrest := prefix_of_prefix_spread hgap
      (fun c hc => hn c (List.mem_append_right word hc)) htail
    exact (List.prefix_append_right_inj word).mpr hrest

/-- Blanks outside of the symbols of a text leave its symbols as they are. -/
theorem tokensFrom_spread (hgap : ∀ i, ∀ c ∈ gap i, isBlank c = true) {ts : List Token}
    (hts : tokensFrom place cs = .ok ts)
    (houtside : ∀ token ∈ ts, ∀ i, token.position < i → i < token.stop → gap i = [])
    (position : Nat) : ∃ us, tokensFrom position (spread gap place cs) = .ok us ∧
      us.map Token.symbol = ts.map Token.symbol := by
  induction place, cs using tokensFrom.induct generalizing ts position with
  | case1 place =>
    rw [tokensFrom_nil] at hts
    cases hts
    refine ⟨[], ?_, rfl⟩
    rw [spread, ← List.append_nil (gap place), tokensFrom_blanks (hgap place), tokensFrom_nil]
  | case2 place c rest hb ih =>
    rw [tokensFrom_blank place hb] at hts
    rw [spread, tokensFrom_blanks (hgap place), tokensFrom_blank _ hb]
    exact ih hts houtside _
  | case3 place c rest hb symbol after hs hlt ih =>
    obtain ⟨happend, hne⟩ := splitSymbol_append hs
    rw [tokensFrom_split place hb hs] at hts
    obtain ⟨later, hl, rfl⟩ := map_eq_ok.mp hts
    obtain ⟨hfirst, hrest⟩ := List.forall_mem_cons.mp houtside
    have hbegins : symbol.Begins
        (symbol.text ++ spread gap (place + symbol.text.length) after) := by
      refine (Symbol.Begins.of_splitSymbol hs).of_prefixes (List.prefix_append _ _)
        fun numeral hn hm => ?_
      rw [← happend]
      exact prefix_of_prefix_append_spread hgap (not_isBlank_of_isNumber hn) hm
    obtain ⟨us, hus, hsymbols⟩ :=
      ih hl hrest (position + (gap place).length + symbol.text.length)
    rw [← happend, spread_append hne hfirst, tokensFrom_blanks (hgap place),
      hbegins.tokensFrom_eq, hus]
    exact ⟨_, rfl, congrArg (symbol :: ·) hsymbols⟩
  | case4 place c rest hb hs =>
    rw [tokensFrom_stuck place hb hs] at hts
    cases hts

/-- The tokens cut the text into symbols and blanks, from the left to the right. -/
structure Cuts (text : List Char) (ts : List Token) : Prop where
  increasing : ts.Pairwise fun left right => left.position < right.position
  apart : ts.Pairwise fun left right => left.stop ≤ right.position
  begins : ∀ token ∈ ts, token.symbol.Begins (text.drop token.position)
  blank : ∀ i c, text[i]? = some c →
    (∀ token ∈ ts, i < token.position ∨ token.stop ≤ i) → isBlank c = true

theorem cutsFrom_zero_iff {text : List Char} {ts : List Token} :
    CutsFrom text 0 ts ↔ Cuts text ts := by
  constructor
  · intro hts
    refine ⟨hts.apart.imp_of_mem fun {left right} hl hr hle => ?_, hts.apart, hts.begins,
      fun i c hc hout => hts.blank i c (Nat.zero_le i) hc hout⟩
    have hpos := (hts.begins left hl).length_pos
    simp only [Token.stop] at hle
    omega
  · exact fun hts => ⟨fun _ _ => Nat.zero_le _, hts.apart, hts.begins,
      fun i c _ hc hout => hts.blank i c hc hout⟩

theorem tokens_eq_ok_iff {text : String} {ts : List Token} :
    tokens text = .ok ts ↔ Cuts text.toList ts :=
  (tokensFrom_eq_ok_iff List.drop_zero).trans cutsFrom_zero_iff

theorem position_lt_length {text : String} {ts : List Token} (hts : tokens text = .ok ts) :
    ∀ token ∈ ts, token.position < text.length := by
  intro token hm
  have hbegins := (tokens_eq_ok_iff.mp hts).begins token hm
  have hpos := hbegins.length_pos
  have hle := hbegins.isPrefix.length_le
  rw [List.length_drop, String.length_toList] at hle
  omega

/-- All about the tokens of a text: how they cut it, where that is not possible, and that more
blanks make no difference. -/
structure CutExactly (text : String) : Prop where
  ok_iff : ∀ ts, tokens text = .ok ts ↔ Cuts text.toList ts
  stuck : ∀ fault, tokens text = .error fault → ∃ c, fault.cause = .unexpectedCharacter c ∧
    text.toList[fault.position]? = some c ∧ isBlank c = false ∧
    (∀ symbol : Symbol, symbol.IsValid → ¬ symbol.text <+: text.toList.drop fault.position) ∧
    ∃ ts, tokens (String.ofList (text.toList.take fault.position)) = .ok ts
  widened : ∀ ts, tokens text = .ok ts → ∀ gap : Nat → List Char,
    (∀ i, ∀ c ∈ gap i, isBlank c = true) →
    (∀ token ∈ ts, ∀ i, token.position < i → i < token.stop → gap i = []) →
    ∃ us, tokens (String.ofList (spread gap 0 text.toList)) = .ok us ∧
      us.map Token.symbol = ts.map Token.symbol

theorem tokens_cut_exactly (text : String) : CutExactly text where
  ok_iff _ := tokens_eq_ok_iff
  stuck fault hf := by
    obtain ⟨before, c, after, htext, rfl, hb, hs, ts, hts⟩ := tokensFrom_eq_error hf
    simp only [Nat.zero_add, htext, List.drop_left, List.take_left]
    refine ⟨c, rfl, by simp, hb, fun symbol hv => not_prefix_of_splitSymbol hs hv, ts, ?_⟩
    rwa [tokens, String.toList_ofList]
  widened ts hts gap hgap houtside := by
    rw [tokens, String.toList_ofList]
    exact tokensFrom_spread hgap hts houtside 0

end Flowsheet.Expression
