import Flowsheet.Document.Basic
import Flowsheet.Proofs.Document.Check
import Flowsheet.Proofs.Success

/-! Payloads that were read from data. Such a payload has the shape of its kind, its rows name
products, and its unknown entries stand under keys that mean nothing for its shape. -/

namespace Flowsheet

open Document

/-- The empty payload of a kind is the reading of no data. -/
def Payload.Read (p : Payload) : Prop :=
  ∃ (kind : Kind) (data : Entries), loadPayload kind data = .ok p

namespace Document

variable {shape : Shape} {key : String} {v : Value} {p : Payload} {field : DataField}
  {r : Except DataFault DataField}

def captionKeys : List String := ["label", "subLabel", "description", "location"]

def shapeKeys : Shape → List String
  | .basic => []
  | .items => ["items"]
  | .process => ["items", "subproducts", "pieceworkRate"]
  | .decision => ["branches"]
  | .math => ["expression", "resultVar"]
  | .display => ["values"]
  | .piecework => ["taskId", "rate"]

/-- No renderer leaves the key behind, and no field of the shape has it. -/
structure Unknown (shape : Shape) (key : String) : Prop where
  not_transient : key ∉ transientKeys
  not_caption : key ∉ captionKeys
  not_field : key ∉ shapeKeys shape

theorem not_transient_of_understood (hk : key ∈ captionKeys ++ shapeKeys shape) :
    key ∉ transientKeys := by
  have hall : ∀ k ∈ captionKeys ++ shapeKeys shape, k ∉ transientKeys := by
    cases shape <;> decide
  exact hall key hk

theorem captionField?_eq_none_iff : captionField? key v = none ↔ key ∉ captionKeys := by
  unfold captionField? captionKeys
  split <;> simp_all

theorem mem_captionKeys (hc : captionField? key v = some r) : key ∈ captionKeys := by
  refine Decidable.byContradiction fun hk => ?_
  rw [captionField?_eq_none_iff.mpr hk] at hc
  cases hc

theorem shapeField?_eq_none_iff : shapeField? shape key v = none ↔ key ∉ shapeKeys shape := by
  unfold shapeField? shapeKeys
  cases shape <;> split <;> simp_all

theorem fieldOf?_eq_none_iff :
    fieldOf? shape key v = none ↔ key ∉ captionKeys ∧ key ∉ shapeKeys shape := by
  rw [fieldOf?, Option.or_eq_none_iff, captionField?_eq_none_iff, shapeField?_eq_none_iff]

theorem fieldOf?_of_transient (hk : key ∈ transientKeys) : fieldOf? shape key v = none :=
  fieldOf?_eq_none_iff.mpr
    ⟨fun hc => not_transient_of_understood (List.mem_append_left (shapeKeys shape) hc) hk,
      fun hs => not_transient_of_understood (List.mem_append_right captionKeys hs) hk⟩

theorem fieldOf?_eq_some (hr : fieldOf? shape key v = some r) :
    captionField? key v = some r ∨ shapeField? shape key v = some r :=
  (Option.or_eq_some_iff.mp hr).imp_right And.right

theorem readEntry_of_transient (hk : key ∈ transientKeys) (v : Value) :
    readEntry shape (key, v) = .ok .transient := by
  have ht : transientKeys.contains key = true := by simpa using hk
  simp only [readEntry, ht]
  rfl

theorem readEntry_of_not_transient (hk : key ∉ transientKeys) (v : Value) :
    readEntry shape (key, v) = (fieldOf? shape key v).getD (.ok (.other key v)) := by
  have ht : transientKeys.contains key = false := by simpa using hk
  simp only [readEntry, ht]
  rfl

theorem readEntry_of_unknown (hk : Unknown shape key) (v : Value) :
    readEntry shape (key, v) = .ok (.other key v) := by
  rw [readEntry_of_not_transient hk.not_transient,
    fieldOf?_eq_none_iff.mpr ⟨hk.not_caption, hk.not_field⟩]
  rfl

theorem readEntry_eq_ok {entry : String × Value} (hf : readEntry shape entry = .ok field) :
    entry.1 ∈ transientKeys ∧ field = .transient ∨
    fieldOf? shape entry.1 entry.2 = some (.ok field) ∨
    Unknown shape entry.1 ∧ field = .other entry.1 entry.2 := by
  obtain ⟨key, v⟩ := entry
  by_cases ht : key ∈ transientKeys
  · rw [readEntry_of_transient ht] at hf
    exact .inl ⟨ht, (Except.ok.inj hf).symm⟩
  · rw [readEntry_of_not_transient ht] at hf
    cases hr : fieldOf? shape key v with
    | some r =>
      rw [hr] at hf
      exact .inr (.inl (congrArg some hf))
    | none =>
      rw [hr] at hf
      obtain ⟨hc, hs⟩ := fieldOf?_eq_none_iff.mp hr
      exact .inr (.inr ⟨⟨ht, hc, hs⟩, (Except.ok.inj hf).symm⟩)

structure Storable (p : Payload) : Prop where
  items_filled : ∀ item ∈ p.items, item.product ≠ ""
  subproducts_filled : ∀ s ∈ p.subproducts, s.product ≠ ""
  extra_unknown : ∀ key ∈ p.extra.keys, Unknown p.shape key

def DataField.Proper (shape : Shape) : DataField → Prop
  | .items xs => ∀ item ∈ xs, item.product ≠ ""
  | .subproducts ss => ∀ s ∈ ss, s.product ≠ ""
  | .other key _ => Unknown shape key
  | _ => True

theorem product_of_toSubproduct {row : SubproductRow} {s : Subproduct}
    (hs : row.toSubproduct = .ok s) : s.product = row.product := by
  have hmake := mapError_eq_ok.mp hs
  unfold Subproduct.make at hmake
  split at hmake <;> cases hmake <;> rfl

theorem readSubproducts_proper (hf : readSubproducts key v = .ok field) : field.Proper shape := by
  unfold readSubproducts at hf
  split at hf
  · cases hf
  · next rows hrows =>
    obtain ⟨ss, hss, rfl⟩ := map_eq_ok.mp hf
    intro s hs
    obtain ⟨row, hrow, hmake⟩ := mem_of_mapM_eq_ok hss s hs
    obtain ⟨w, hw⟩ := listOf_eq_valid hrows row hrow
    rw [product_of_toSubproduct hmake]
    exact filled_of_subproductRow hw

theorem reading_eq_ok {α : Type} {make : α → DataField} {checked : Checked α}
    (hf : reading key make checked = .ok field) : ∃ x, checked = .valid x ∧ field = make x := by
  unfold reading at hf
  split at hf
  · next x =>
    cases hf
    exact ⟨x, rfl, rfl⟩
  · cases hf

theorem shapeField?_proper {r : Except DataFault DataField} (hr : shapeField? shape key v = some r)
    (hf : r = .ok field) : field.Proper shape := by
  subst hf
  unfold shapeField? at hr
  have hitems : ∀ {key' : String}, reading key' .items (listOf itemRow v) = .ok field →
      field.Proper shape := by
    intro key' hread
    obtain ⟨xs, hxs, rfl⟩ := reading_eq_ok hread
    intro item hi
    obtain ⟨w, hw⟩ := listOf_eq_valid hxs item hi
    exact filled_of_itemRow hw
  split at hr
  · exact hitems (Option.some.inj hr)
  · exact hitems (Option.some.inj hr)
  · exact readSubproducts_proper (Option.some.inj hr)
  all_goals first
    | cases hr
    | obtain ⟨x, -, rfl⟩ := reading_eq_ok (Option.some.inj hr)
      trivial

theorem captionField?_proper (hc : captionField? key v = some (.ok field)) :
    field.Proper shape := by
  unfold captionField? at hc
  split at hc <;> first
    | cases hc
    | obtain ⟨s, -, rfl⟩ := map_eq_ok.mp (Option.some.inj hc)
      trivial

theorem readEntry_proper {entry : String × Value} (hf : readEntry shape entry = .ok field) :
    field.Proper shape := by
  rcases readEntry_eq_ok hf with ⟨-, rfl⟩ | hr | ⟨hk, rfl⟩
  · trivial
  · rcases fieldOf?_eq_some hr with hc | hs
    · exact captionField?_proper hc
    · exact shapeField?_proper hs rfl
  · exact hk

/-- The key of a field that is understood. -/
def DataField.key? : DataField → Option String
  | .label _ => some "label"
  | .subLabel _ => some "subLabel"
  | .description _ => some "description"
  | .location _ => some "location"
  | .items _ => some "items"
  | .subproducts _ => some "subproducts"
  | .pieceworkRate _ => some "pieceworkRate"
  | .branches _ => some "branches"
  | .expression _ => some "expression"
  | .resultName _ => some "resultVar"
  | .values _ => some "values"
  | .task _ => some "taskId"
  | .rate _ => some "rate"
  | .transient | .other .. => none

theorem key?_of_captionField? (hc : captionField? key v = some (.ok field)) :
    field.key? = some key := by
  unfold captionField? at hc
  split at hc <;> first
    | cases hc
    | obtain ⟨s, -, rfl⟩ := map_eq_ok.mp (Option.some.inj hc)
      rfl

theorem key?_of_shapeField? (hr : shapeField? shape key v = some (.ok field)) :
    field.key? = some key := by
  have hread : ∀ {α : Type} {make : α → DataField} {checked : Checked α} {name : String},
      reading name make checked = .ok field → (∀ x, (make x).key? = some name) →
      field.key? = some name := by
    intro α make checked name hf hmake
    obtain ⟨x, -, rfl⟩ := reading_eq_ok hf
    exact hmake x
  unfold shapeField? at hr
  split at hr
  case h_3 =>
    have hs := Option.some.inj hr
    unfold readSubproducts at hs
    split at hs
    · cases hs
    · obtain ⟨ss, -, rfl⟩ := map_eq_ok.mp hs
      rfl
  all_goals first
    | cases hr
    | exact hread (Option.some.inj hr) fun _ => rfl

theorem key?_of_fieldOf? (hr : fieldOf? shape key v = some (.ok field)) : field.key? = some key :=
  (fieldOf?_eq_some hr).elim key?_of_captionField? key?_of_shapeField?

theorem eq_of_mem_key? {entry : String × Value} (hf : readEntry shape entry = .ok field)
    (hk : key ∈ field.key?) : key = entry.1 := by
  rcases readEntry_eq_ok hf with ⟨-, rfl⟩ | hr | ⟨-, rfl⟩
  · cases hk
  · exact Option.some.inj (hk.symm.trans (key?_of_fieldOf? hr))
  · cases hk

theorem shape_setBody (body : Body) (field : DataField) :
    (setBody body field).shape = body.shape := by
  cases field <;> cases body <;> rfl

theorem shape_setField (p : Payload) (field : DataField) : (setField p field).shape = p.shape := by
  cases field <;> first | rfl | exact shape_setBody p.body _

theorem storable_setField (hp : Storable p) (hf : field.Proper p.shape) :
    Storable (setField p field) := by
  obtain ⟨label, subLabel, description, location, extra, body⟩ := p
  obtain ⟨hitems, hsubs, hextra⟩ := hp
  cases field with
  | label s => exact ⟨hitems, hsubs, hextra⟩
  | subLabel s => exact ⟨hitems, hsubs, hextra⟩
  | description s => exact ⟨hitems, hsubs, hextra⟩
  | location s => exact ⟨hitems, hsubs, hextra⟩
  | other key v =>
    refine ⟨hitems, hsubs, fun k hk => ?_⟩
    simp only [setField, Table.keys_set] at hk
    split at hk
    · exact hextra k hk
    · rcases List.mem_append.mp hk with hk | hk
      · exact hextra k hk
      · rw [List.mem_singleton.mp hk]
        exact hf
  | items xs => cases body <;> first | exact ⟨hf, hsubs, hextra⟩ | exact ⟨hitems, hsubs, hextra⟩
  | subproducts ss =>
    cases body <;> first | exact ⟨hitems, hf, hextra⟩ | exact ⟨hitems, hsubs, hextra⟩
  | _ => cases body <;> exact ⟨hitems, hsubs, hextra⟩

theorem shape_foldl_setField (fields : List DataField) (p : Payload) :
    (fields.foldl setField p).shape = p.shape := by
  induction fields generalizing p with
  | nil => rfl
  | cons field fields ih => rw [List.foldl_cons, ih, shape_setField]

theorem storable_foldl_setField {fields : List DataField} (hp : Storable p)
    (hf : ∀ field ∈ fields, field.Proper p.shape) : Storable (fields.foldl setField p) := by
  induction fields generalizing p with
  | nil => exact hp
  | cons field fields ih =>
    apply ih (storable_setField hp (hf field List.mem_cons_self))
    intro f hmem
    rw [shape_setField]
    exact hf f (List.mem_cons_of_mem _ hmem)

theorem storable_empty (shape : Shape) : Storable (.empty shape) := by
  refine ⟨?_, ?_, ?_⟩
  · cases shape <;> simp [Payload.empty, Payload.ofBody, Payload.items, Shape.emptyBody]
  · cases shape <;> simp [Payload.empty, Payload.ofBody, Payload.subproducts, Shape.emptyBody]
  · simp [Payload.empty, Payload.ofBody, Table.keys, Table.empty]

theorem shape_empty (shape : Shape) : (Payload.empty shape).shape = shape :=
  shape.shape_emptyBody

theorem loadPayload_eq_ok {kind : Kind} {data : Entries} (hp : loadPayload kind data = .ok p) :
    ∃ fields, data.mapM (readEntry kind.shape) = .ok fields ∧
      p = fields.foldl setField (.empty kind.shape) := by
  obtain ⟨fields, hf, he⟩ := bind_eq_ok.mp hp
  cases he
  exact ⟨fields, hf, rfl⟩

theorem shape_loadPayload {kind : Kind} {data : Entries} (hp : loadPayload kind data = .ok p) :
    p.shape = kind.shape := by
  obtain ⟨fields, -, rfl⟩ := loadPayload_eq_ok hp
  rw [shape_foldl_setField, shape_empty]

theorem storable_loadPayload {kind : Kind} {data : Entries} (hp : loadPayload kind data = .ok p) :
    Storable p := by
  obtain ⟨fields, hf, rfl⟩ := loadPayload_eq_ok hp
  apply storable_foldl_setField (storable_empty kind.shape)
  intro field hmem
  obtain ⟨entry, -, hread⟩ := mem_of_mapM_eq_ok hf field hmem
  rw [shape_empty]
  exact readEntry_proper hread

end Document

end Flowsheet
