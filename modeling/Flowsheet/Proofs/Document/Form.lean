import Flowsheet.Proofs.Document.NormalForm
import Flowsheet.Value.Parts
import Mathlib.Data.List.Forall2

/-! The forms in which documents hold their content. A form relates a value to what is written in
it and says nothing of how the value is checked. Each check passes exactly the values of its form,
and then finds what is written. -/

namespace Flowsheet.Document

abbrev Form (α : Type) := Value → α → Prop

variable {α β γ δ ε : Type} {check : Value → Checked α} {F : Form α} {es : Entries}
  {names : List String}

/-- The value of a field, under the first of its names that is there. -/
def fieldValue? (es : Entries) (names : List String) : Option Value :=
  names.findSome? fun name => es.lookup name

namespace Form

def Text : Form String := fun v s => v = .text s

def FilledText : Form String := fun v s => v = .text s ∧ s ≠ ""

def Tag : Form Kind := fun v k => v = .text k.tag

def Object : Form Entries := fun v es => v = .object es

inductive Number : Form Double
  | double (x : Double) : Number (.double x) x
  | bool (b : Bool) : Number (.bool b) (.ofInt (if b then 1 else 0))
  | int {n : Int} (h : (Double.ofInt n).isFinite = true) : Number (.int n) (.ofInt n)
  | text {s : String} {x : Double} (h : writtenNumber? s = some x) : Number (.text s) x

inductive Truth : Form Bool
  | bool (b : Bool) : Truth (.bool b) b
  | int (b : Bool) : Truth (.int (if b then 1 else 0)) b
  | double {x : Double} {b : Bool} (h : x.whole? = some (if b then 1 else 0)) : Truth (.double x) b
  | falseWord {s : String} (h : smallLetters s.toList ∈ falseWords) : Truth (.text s) false
  | trueWord {s : String} (h : smallLetters s.toList ∈ trueWords) : Truth (.text s) true

inductive OrNull (F : Form α) : Form (Option α)
  | null : OrNull F .null none
  | given {v : Value} {x : α} (hv : v ≠ .null) (h : F v x) : OrNull F v (some x)

def ListOf (F : Form α) : Form (List α) :=
  fun v xs => ∃ items, v = .list items ∧ List.Forall₂ F items xs

def Record (Fields : Entries → α → Prop) : Form α :=
  fun v x => ∃ es, v = .object es ∧ Fields es x

def Required (names : List String) (F : Form α) (es : Entries) (x : α) : Prop :=
  ∃ v, fieldValue? es names = some v ∧ F v x

def Defaulting (names : List String) (default : α) (F : Form α) (es : Entries) (x : α) : Prop :=
  fieldValue? es names = none ∧ x = default ∨ Required names F es x

structure PositionFields (es : Entries) (p : Position) : Prop where
  x : Defaulting ["x"] .zero Number es p.x
  y : Defaulting ["y"] .zero Number es p.y

structure NodeFields (es : Entries) (row : NodeRow) : Prop where
  id : Required ["id"] FilledText es row.id
  kind : Required ["type"] Tag es row.kind
  position : Defaulting ["position"] none (OrNull (Record PositionFields)) es row.position
  data : Defaulting ["data"] none (OrNull Object) es row.data

structure EdgeFields (es : Entries) (edge : Edge) : Prop where
  id : Required ["id"] FilledText es edge.id
  source : Required ["source"] FilledText es edge.source
  target : Required ["target"] FilledText es edge.target
  handle : Defaulting ["sourceHandle", "source_handle"] none (OrNull Text) es edge.handle

structure ItemFields (es : Entries) (item : Item) : Prop where
  product : Required ["id"] FilledText es item.product
  yieldRatio : Defaulting ["yield", "yield_ratio"] none (OrNull Number) es item.yieldRatio

structure SubproductFields (es : Entries) (row : SubproductRow) : Prop where
  product : Required ["productId", "product_id"] FilledText es row.product
  ratio : Defaulting ["ratio"] none (OrNull Number) es row.ratio
  isVariable : Defaulting ["isVariable", "is_variable"] false Truth es row.isVariable
  unit : Defaulting ["unit"] none (OrNull Text) es row.unit

/-- Rows, where there may be null for none. -/
def RowsOrNull (F : Form α) : Form (List α) :=
  fun v xs => v = .null ∧ xs = [] ∨ ListOf F v xs

/-- A quantity that is made out: the row has a ratio or the mark, and not both. -/
def Determined (row : SubproductRow) : Prop :=
  row.ratio.isSome = true ↔ ¬ row.isVariable = true

/-- The entries that node data may have. What is under a key that no field has can be anything, and
so can a caption, but that no number in it may be too long to be written. -/
inductive Entry : Shape → String → Value → Prop
  | items {v : Value} {xs : List Item} (h : ListOf (Record ItemFields) v xs) :
      Entry .items "items" v
  | inputs {v : Value} {xs : List Item} (h : ListOf (Record ItemFields) v xs) :
      Entry .process "items" v
  | subproducts {v : Value} {rows : List SubproductRow}
      (h : ListOf (Record SubproductFields) v rows) (hd : ∀ row ∈ rows, Determined row) :
      Entry .process "subproducts" v
  | pieceworkRate {v : Value} {x : Option Double} (h : OrNull Number v x) :
      Entry .process "pieceworkRate" v
  | branches {v : Value} {xs : List String} (h : ListOf Text v xs) : Entry .decision "branches" v
  | expression {v : Value} {s : Option String} (h : OrNull Text v s) : Entry .math "expression" v
  | resultName {v : Value} {s : Option String} (h : OrNull Text v s) : Entry .math "resultVar" v
  | values {v : Value} {es : Entries} (h : Object v es) : Entry .display "values" v
  | task {v : Value} {s : Option String} (h : OrNull Text v s) : Entry .piecework "taskId" v
  | rate {v : Value} {x : Option Double} (h : OrNull Number v x) : Entry .piecework "rate" v
  | caption {shape : Shape} {key : String} {v : Value} (hk : key ∈ captionKeys)
      (hv : v.isShort = true) : Entry shape key v
  | other {shape : Shape} {key : String} (hc : key ∉ captionKeys) (hk : key ∉ shapeKeys shape)
      (v : Value) : Entry shape key v

structure RowsFields (es : Entries) (content : Rows) : Prop where
  nodes : Defaulting ["nodes"] [] (RowsOrNull (Record NodeFields)) es content.nodes
  edges : Defaulting ["edges"] [] (RowsOrNull (Record EdgeFields)) es content.edges

end Form

/-- The check passes the values of the form and no others. -/
def Passes (check : Value → Checked α) (F : Form α) : Prop :=
  ∀ v x, check v = .valid x ↔ F v x

theorem passes_text : Passes text Form.Text := by
  intro v s
  cases v <;> simp [text, Form.Text, Checked.flaw]

theorem passes_filledText : Passes filledText Form.FilledText := by
  intro v s
  cases v with
  | text t =>
    by_cases ht : t = ""
    · simp only [filledText, if_pos ht, Form.FilledText, Checked.flaw]
      constructor
      · intro h
        cases h
      · rintro ⟨h, hs⟩
        exact absurd (Value.text.inj h ▸ ht) hs
    · simp only [filledText, if_neg ht, Form.FilledText]
      constructor
      · intro h
        cases h
        exact ⟨rfl, ht⟩
      · rintro ⟨h, -⟩
        rw [Value.text.inj h]
  | _ => simp [filledText, Form.FilledText, Checked.flaw]

theorem passes_entries : Passes entries Form.Object := by
  intro v es
  cases v <;> simp [entries, Form.Object, Checked.flaw]

theorem number_eq_valid_iff {v : Value} {x : Double} :
    number v = .valid x ↔ v = .double x ∨ (∃ b, v = .bool b ∧ x = .ofInt (if b then 1 else 0)) ∨
      (∃ n, v = .int n ∧ (Double.ofInt n).isFinite = true ∧ x = .ofInt n) ∨
      ∃ s, v = .text s ∧ writtenNumber? s = some x := by
  delta number
  -- Rounding stays unopened, or else it is carried out on a whole number that is not known.
  obtain ⟨round, hround⟩ : ∃ round, round = Double.ofInt := ⟨_, rfl⟩
  rw [← hround]
  cases v with
  | int n => cases hn : round n <;> simp [hn, Double.isFinite, Checked.flaw, @eq_comm _ x]
  | text s => cases hs : writtenNumber? s <;> simp [hs, Checked.flaw]
  | _ => simp [Checked.flaw, @eq_comm _ x]

theorem passes_number : Passes number Form.Number := by
  intro v x
  rw [number_eq_valid_iff]
  constructor
  · rintro (rfl | ⟨b, rfl, rfl⟩ | ⟨n, rfl, hn, rfl⟩ | ⟨s, rfl, hs⟩)
    · exact .double x
    · exact .bool b
    · exact .int hn
    · exact .text hs
  · intro h
    cases h with
    | double => exact .inl rfl
    | bool b => exact .inr (.inl ⟨b, rfl, rfl⟩)
    | int hn => exact .inr (.inr (.inl ⟨_, rfl, hn, rfl⟩))
    | text hs => exact .inr (.inr (.inr ⟨_, rfl, hs⟩))

/-- Zero and one are within every width, so that it does not matter which one is asked for. -/
theorem ite_wholeBool_eq_valid_iff {P : Prop} [Decidable P] {n : Int} {b : Bool}
    (hP : n = 0 ∨ n = 1 → P) :
    (if P then wholeBool n else .flaw .notBool) = .valid b ↔ n = if b then 1 else 0 := by
  unfold wholeBool
  by_cases h₀ : n = 0
  · cases b <;> simp [hP (.inl h₀), h₀]
  · by_cases h₁ : n = 1
    · cases b <;> simp [hP (.inr h₁), h₁]
    · cases b <;> split <;> simp [h₀, h₁, Checked.flaw]

theorem bool_int_eq_valid_iff {n : Int} {b : Bool} :
    bool (.int n) = .valid b ↔ n = if b then 1 else 0 :=
  ite_wholeBool_eq_valid_iff (by rintro (rfl | rfl) <;> decide)

theorem bool_double_eq_valid_iff {x : Double} {b : Bool} :
    bool (.double x) = .valid b ↔ x.whole? = some (if b then 1 else 0) := by
  simp only [bool]
  cases x.whole? with
  | none => simp [Checked.flaw]
  | some n =>
    rw [Option.some.injEq]
    exact ite_wholeBool_eq_valid_iff (by rintro (rfl | rfl) <;> decide)

theorem bool_text_eq_valid_iff {s : String} {b : Bool} :
    bool (.text s) = .valid b ↔ smallLetters s.toList ∈ if b then trueWords else falseWords := by
  have hdisjoint : ∀ word ∈ trueWords, word ∉ falseWords := by decide
  simp only [bool, List.contains_iff_mem]
  generalize smallLetters s.toList = word
  by_cases hf : word ∈ falseWords
  · have ht : word ∉ trueWords := fun ht => hdisjoint word ht hf
    cases b <;> simp [hf, ht]
  · by_cases ht : word ∈ trueWords <;> cases b <;> simp [hf, ht, Checked.flaw]

theorem passes_bool : Passes bool Form.Truth := by
  intro v b
  constructor
  · intro h
    cases v with
    | bool c =>
      cases h
      exact .bool b
    | int n =>
      rw [bool_int_eq_valid_iff.mp h]
      exact .int b
    | double x => exact .double (bool_double_eq_valid_iff.mp h)
    | text s =>
      have hs := bool_text_eq_valid_iff.mp h
      cases b with
      | false => exact .falseWord hs
      | true => exact .trueWord hs
    | null | list _ | object _ => cases h
  · intro h
    cases h with
    | bool => rfl
    | int => exact bool_int_eq_valid_iff.mpr rfl
    | double hx => exact bool_double_eq_valid_iff.mpr hx
    | falseWord hs | trueWord hs => exact bool_text_eq_valid_iff.mpr hs

namespace Checked

theorem map_eq_valid_iff {f : α → β} {c : Checked α} {y : β} :
    c.map f = .valid y ↔ ∃ x, c = .valid x ∧ y = f x := by
  refine ⟨map_eq_valid, ?_⟩
  rintro ⟨x, rfl, rfl⟩
  rfl

theorem under_eq_valid_iff {mark : Mark} {c : Checked α} {x : α} :
    c.under mark = .valid x ↔ c = .valid x := by
  refine ⟨under_eq_valid, ?_⟩
  rintro rfl
  rfl

theorem seq_eq_valid_iff {f : Checked (α → β)} {c : Checked α} {y : β} :
    f.seq c = .valid y ↔ ∃ k x, f = .valid k ∧ c = .valid x ∧ y = k x := by
  refine ⟨seq_eq_valid, ?_⟩
  rintro ⟨k, x, rfl, rfl, rfl⟩
  rfl

theorem pair_eq_valid_iff {f : α → β → γ} {a : Checked α} {b : Checked β} {z : γ} :
    f <$> a <*> b = .valid z ↔ ∃ x y, a = .valid x ∧ b = .valid y ∧ z = f x y := by
  cases a <;> cases b <;> simp [Functor.map, Seq.seq, map, seq, eq_comm]

theorem quadruple_eq_valid_iff {f : α → β → γ → δ → ε} {a : Checked α} {b : Checked β}
    {c : Checked γ} {d : Checked δ} {z : ε} :
    f <$> a <*> b <*> c <*> d = .valid z ↔
      ∃ x y u w, a = .valid x ∧ b = .valid y ∧ c = .valid u ∧ d = .valid w ∧ z = f x y u w := by
  cases a <;> cases b <;> cases c <;> cases d <;>
    simp [Functor.map, Seq.seq, map, seq, eq_comm]

end Checked

theorem passes_orNull (hc : Passes check F) : Passes (orNull check) (Form.OrNull F) := by
  intro v o
  by_cases hv : v = .null
  · subst hv
    constructor
    · intro h
      cases h
      exact .null
    · intro h
      cases h with
      | null => rfl
      | given hv => exact absurd rfl hv
  · have hmap : orNull check v = (check v).map some := by
      cases v <;> first | rfl | exact absurd rfl hv
    rw [hmap, Checked.map_eq_valid_iff]
    constructor
    · rintro ⟨x, hx, rfl⟩
      exact .given hv ((hc v x).mp hx)
    · intro h
      cases h with
      | null => exact absurd rfl hv
      | given _ hx => exact ⟨_, (hc _ _).mpr hx, rfl⟩

theorem itemsFrom_eq_valid_iff (hc : Passes check F) {vs : List Value} {index : Nat}
    {xs : List α} : itemsFrom check index vs = .valid xs ↔ List.Forall₂ F vs xs := by
  induction vs generalizing index xs with
  | nil => simp [itemsFrom, eq_comm]
  | cons v vs ih =>
    simp only [itemsFrom, Checked.seq_eq_valid_iff, Checked.map_eq_valid_iff,
      Checked.under_eq_valid_iff, List.forall₂_cons_left_iff]
    constructor
    · rintro ⟨_, ys, ⟨x, hx, rfl⟩, hys, rfl⟩
      exact ⟨x, ys, (hc v x).mp hx, ih.mp hys, rfl⟩
    · rintro ⟨x, ys, hx, hys, rfl⟩
      exact ⟨_, ys, ⟨x, (hc v x).mpr hx, rfl⟩, ih.mpr hys, rfl⟩

theorem passes_listOf (hc : Passes check F) : Passes (listOf check) (Form.ListOf F) := by
  intro v xs
  cases v with
  | list items => simp [listOf, Form.ListOf, itemsFrom_eq_valid_iff hc]
  | _ => simp [listOf, Form.ListOf, Checked.flaw]

theorem passes_record {name : String} {fields : Entries → Checked α}
    {Fields : Entries → α → Prop} (hf : ∀ es x, fields es = .valid x ↔ Fields es x) :
    Passes (record name fields) (Form.Record Fields) := by
  intro v x
  cases v with
  | object es => simp [record, Form.Record, hf]
  | _ => simp [record, Form.Record, Checked.flaw]

theorem snd_namedField? (es : Entries) (names : List String) :
    (namedField? es names).map Prod.snd = fieldValue? es names := by
  simp only [namedField?, fieldValue?, List.map_findSome?, Function.comp_def, Option.map_map,
    Option.map_id']

theorem field?_eq_none_iff (check : Value → Checked α) :
    field? es names check = none ↔ fieldValue? es names = none := by
  simp [← snd_namedField?, field?]

theorem field?_eq_some_valid_iff (hc : Passes check F) {x : α} :
    field? es names check = some (.valid x) ↔ Form.Required names F es x := by
  simp only [Form.Required, ← snd_namedField?, field?]
  cases namedField? es names with
  | none => simp
  | some entry => simp [Checked.under_eq_valid_iff, hc entry.2 x]

theorem required_eq_valid_iff (hc : Passes check F) {x : α} :
    required es names check = .valid x ↔ Form.Required names F es x := by
  rw [← field?_eq_some_valid_iff hc, required]
  cases field? es names check <;> simp [Checked.flaw, Checked.under]

theorem defaulting_eq_valid_iff (hc : Passes check F) {default x : α} :
    defaulting es names default check = .valid x ↔ Form.Defaulting names default F es x := by
  rw [Form.Defaulting, ← field?_eq_some_valid_iff hc, ← field?_eq_none_iff check,
    defaulting]
  cases field? es names check <;> simp [eq_comm]

theorem passes_itemRow : Passes itemRow (Form.Record Form.ItemFields) := by
  refine passes_record fun es item => ?_
  simp only [Checked.pair_eq_valid_iff, required_eq_valid_iff passes_filledText,
    defaulting_eq_valid_iff (passes_orNull passes_number)]
  constructor
  · rintro ⟨product, yieldRatio, hproduct, hyield, rfl⟩
    exact ⟨hproduct, hyield⟩
  · rintro ⟨hproduct, hyield⟩
    exact ⟨item.product, item.yieldRatio, hproduct, hyield, rfl⟩

theorem passes_subproductRow : Passes subproductRow (Form.Record Form.SubproductFields) := by
  refine passes_record fun es row => ?_
  simp only [Checked.quadruple_eq_valid_iff, required_eq_valid_iff passes_filledText,
    defaulting_eq_valid_iff (passes_orNull passes_number), defaulting_eq_valid_iff passes_bool,
    defaulting_eq_valid_iff (passes_orNull passes_text)]
  constructor
  · rintro ⟨product, ratio, isVariable, unit, hproduct, hratio, hvariable, hunit, rfl⟩
    exact ⟨hproduct, hratio, hvariable, hunit⟩
  · rintro ⟨hproduct, hratio, hvariable, hunit⟩
    exact ⟨row.product, row.ratio, row.isVariable, row.unit, hproduct, hratio, hvariable, hunit,
      rfl⟩

variable {shape : Shape} {key : String} {v : Value}

theorem toSubproduct_ok_iff {row : SubproductRow} :
    (∃ s, row.toSubproduct = .ok s) ↔ Form.Determined row := by
  obtain ⟨product, ratio, isVariable, unit⟩ := row
  cases ratio <;> cases isVariable <;>
    simp [SubproductRow.toSubproduct, Subproduct.make, Except.mapError, Form.Determined]

theorem reading_ok_iff (hc : Passes check F) {make : α → DataField} :
    (∃ field, reading key make (check v) = .ok field) ↔ ∃ x, F v x := by
  simp only [← hc v]
  cases check v <;> simp [reading]

theorem readSubproducts_ok_iff :
    (∃ field, readSubproducts key v = .ok field) ↔
      ∃ rows, Form.ListOf (Form.Record Form.SubproductFields) v rows ∧
        ∀ row ∈ rows, Form.Determined row := by
  simp only [← passes_listOf passes_subproductRow v, ← toSubproduct_ok_iff, ← mapM_ok_iff]
  unfold readSubproducts
  cases listOf subproductRow v with
  | invalid problems => simp
  | valid rows => simp [map_eq_ok]

theorem entry_of_shapeField? {field : DataField}
    (hr : shapeField? shape key v = some (.ok field)) : Form.Entry shape key v := by
  unfold shapeField? at hr
  split at hr
  · obtain ⟨xs, h⟩ := (reading_ok_iff (passes_listOf passes_itemRow)).mp ⟨_, Option.some.inj hr⟩
    exact .items h
  · obtain ⟨xs, h⟩ := (reading_ok_iff (passes_listOf passes_itemRow)).mp ⟨_, Option.some.inj hr⟩
    exact .inputs h
  · obtain ⟨rows, h, hd⟩ := readSubproducts_ok_iff.mp ⟨_, Option.some.inj hr⟩
    exact .subproducts h hd
  · obtain ⟨x, h⟩ := (reading_ok_iff (passes_orNull passes_number)).mp ⟨_, Option.some.inj hr⟩
    exact .pieceworkRate h
  · obtain ⟨xs, h⟩ := (reading_ok_iff (passes_listOf passes_text)).mp ⟨_, Option.some.inj hr⟩
    exact .branches h
  · obtain ⟨s, h⟩ := (reading_ok_iff (passes_orNull passes_text)).mp ⟨_, Option.some.inj hr⟩
    exact .expression h
  · obtain ⟨s, h⟩ := (reading_ok_iff (passes_orNull passes_text)).mp ⟨_, Option.some.inj hr⟩
    exact .resultName h
  · obtain ⟨es, h⟩ := (reading_ok_iff passes_entries).mp ⟨_, Option.some.inj hr⟩
    exact .values h
  · obtain ⟨s, h⟩ := (reading_ok_iff (passes_orNull passes_text)).mp ⟨_, Option.some.inj hr⟩
    exact .task h
  · obtain ⟨x, h⟩ := (reading_ok_iff (passes_orNull passes_number)).mp ⟨_, Option.some.inj hr⟩
    exact .rate h
  · cases hr

theorem not_mem_shapeKeys (hk : key ∈ captionKeys) : key ∉ shapeKeys shape := fun hs =>
  (List.nodup_append.mp (nodup_understood shape)).2.2 key hk key hs rfl

theorem shapeField?_of_entry (he : Form.Entry shape key v) :
    shapeField? shape key v = none ∨ ∃ field, shapeField? shape key v = some (.ok field) := by
  have hread : ∀ {r : Except DataFault DataField}, shapeField? shape key v = some r →
      (∃ field, r = .ok field) → ∃ field, shapeField? shape key v = some (.ok field) := by
    rintro _ hr ⟨field, rfl⟩
    exact ⟨field, hr⟩
  cases he with
  | items h => exact .inr (hread rfl ((reading_ok_iff (passes_listOf passes_itemRow)).mpr ⟨_, h⟩))
  | inputs h => exact .inr (hread rfl ((reading_ok_iff (passes_listOf passes_itemRow)).mpr ⟨_, h⟩))
  | subproducts h hd => exact .inr (hread rfl (readSubproducts_ok_iff.mpr ⟨_, h, hd⟩))
  | pieceworkRate h | rate h =>
    exact .inr (hread rfl ((reading_ok_iff (passes_orNull passes_number)).mpr ⟨_, h⟩))
  | branches h => exact .inr (hread rfl ((reading_ok_iff (passes_listOf passes_text)).mpr ⟨_, h⟩))
  | expression h | resultName h | task h =>
    exact .inr (hread rfl ((reading_ok_iff (passes_orNull passes_text)).mpr ⟨_, h⟩))
  | values h => exact .inr (hread rfl ((reading_ok_iff passes_entries).mpr ⟨_, h⟩))
  | caption hk => exact .inl (shapeField?_eq_none_iff.mpr (not_mem_shapeKeys hk))
  | other _ hk => exact .inl (shapeField?_eq_none_iff.mpr hk)

theorem caption_ok_iff : (∃ s, caption v = .ok s) ↔ v.isShort = true := by
  unfold caption
  split
  · exact iff_of_true ⟨_, rfl⟩ rfl
  · unfold Value.plain?
    cases v.isShort <;> simp

theorem captionField?_ok_iff :
    (∃ field, captionField? key v = some (.ok field)) ↔ key ∈ captionKeys ∧ v.isShort = true := by
  rw [← caption_ok_iff]
  unfold captionField? captionKeys
  split <;> cases caption v <;> simp_all [Except.map]

theorem isShort_of_entry (he : Form.Entry shape key v) (hk : key ∈ captionKeys) :
    v.isShort = true := by
  cases he with
  | caption _ hv => exact hv
  | other hc => exact absurd hk hc
  | _ => exact absurd hk (by decide)

theorem fieldOf?_of_entry (he : Form.Entry shape key v) :
    fieldOf? shape key v = none ∨ ∃ field, fieldOf? shape key v = some (.ok field) := by
  unfold fieldOf?
  by_cases hk : key ∈ captionKeys
  · obtain ⟨field, hf⟩ := captionField?_ok_iff.mpr ⟨hk, isShort_of_entry he hk⟩
    exact .inr ⟨field, by rw [hf, Option.some_or]⟩
  · rw [captionField?_eq_none_iff.mpr hk, Option.none_or]
    exact shapeField?_of_entry he

theorem readEntry_ok_iff :
    (∃ field, readEntry shape (key, v) = .ok field) ↔ Form.Entry shape key v := by
  constructor
  · rintro ⟨field, hf⟩
    rcases readEntry_eq_ok hf with ⟨ht, -⟩ | hr | ⟨hk, -⟩
    · obtain ⟨hc, hs⟩ := fieldOf?_eq_none_iff.mp (fieldOf?_of_transient ht (v := v))
      exact .other hc hs v
    · rcases fieldOf?_eq_some hr with hc | hs
      · obtain ⟨hk, hv⟩ := captionField?_ok_iff.mp ⟨field, hc⟩
        exact .caption hk hv
      · exact entry_of_shapeField? hs
    · exact .other hk.not_caption hk.not_field v
  · intro he
    by_cases ht : key ∈ transientKeys
    · exact ⟨.transient, readEntry_of_transient ht v⟩
    · rw [readEntry_of_not_transient ht]
      rcases fieldOf?_of_entry he with hn | ⟨field, hf⟩
      · exact ⟨.other key v, by rw [hn]; rfl⟩
      · exact ⟨field, by rw [hf]; rfl⟩

theorem loadPayload_ok_iff {kind : Kind} {data : Entries} :
    (∃ p, loadPayload kind data = .ok p) ↔
      ∀ entry ∈ data, Form.Entry kind.shape entry.1 entry.2 := by
  simp only [← readEntry_ok_iff, ← mapM_ok_iff]
  constructor
  · rintro ⟨p, hp⟩
    obtain ⟨fields, hf, -⟩ := loadPayload_eq_ok hp
    exact ⟨fields, hf⟩
  · rintro ⟨fields, hf⟩
    exact ⟨_, bind_eq_ok.mpr ⟨fields, hf, rfl⟩⟩

end Flowsheet.Document
