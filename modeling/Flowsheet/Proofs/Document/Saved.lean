import Flowsheet.Proofs.Document.Payload

/-! What a document keeps of a payload. The unit of a subproduct is written only where the quantity
is weighed, so a payload whose fixed shares have units comes back without these; everything else
comes back as it was. -/

namespace Flowsheet

def Subproduct.saved (s : Subproduct) : Subproduct :=
  match s.quantity with
  | .fixed _ => { s with unit := "" }
  | .variable => s

def Body.saved : Body → Body
  | .process xs ss rate => .process xs (ss.map Subproduct.saved) rate
  | body => body

def Payload.saved (p : Payload) : Payload :=
  { p with body := p.body.saved }

theorem Subproduct.saved_eq_self_iff {s : Subproduct} :
    s.saved = s ↔ (¬ s.isVariable = true → s.unit = "") := by
  obtain ⟨product, quantity, unit⟩ := s
  cases quantity with
  | fixed ratio =>
    constructor
    · intro h _
      exact (congrArg Subproduct.unit h).symm
    · intro h
      have hu : unit = "" := h (by simp [isVariable])
      rw [hu, Subproduct.saved]
  | _ => simp [Subproduct.saved, isVariable]

theorem Payload.saved_eq_self_iff {p : Payload} :
    p.saved = p ↔ ∀ s ∈ p.subproducts, ¬ s.isVariable = true → s.unit = "" := by
  obtain ⟨label, subLabel, description, location, extra, body⟩ := p
  cases body with
  | process xs ss rate =>
    simp only [Payload.saved, Body.saved, subproducts, Payload.mk.injEq, Body.process.injEq,
      true_and, and_true, ← Subproduct.saved_eq_self_iff]
    constructor
    · intro h s hs
      exact List.map_eq_map_iff.mp (h.trans (List.map_id ss).symm) s hs
    · intro h
      exact (List.map_congr_left h).trans (List.map_id ss)
  | _ => simp [Payload.saved, Body.saved, subproducts]

namespace Document

variable {shape : Shape} {p q r : Payload} {es fs : Entries}

/-- The entries are read one after another into a payload. -/
def Loads (shape : Shape) (p : Payload) (es : Entries) (q : Payload) : Prop :=
  ∃ fields, es.mapM (readEntry shape) = .ok fields ∧ fields.foldl setField p = q

theorem Loads.nil (shape : Shape) (p : Payload) : Loads shape p [] p := ⟨[], rfl, rfl⟩

theorem Loads.cons {entry : String × Value} {field : DataField}
    (hf : readEntry shape entry = .ok field) (h : Loads shape (setField p field) es q) :
    Loads shape p (entry :: es) q := by
  obtain ⟨fields, hm, rfl⟩ := h
  exact ⟨field :: fields, mapM_cons_eq_ok.mpr ⟨field, fields, hf, hm, rfl⟩, rfl⟩

theorem Loads.single {entry : String × Value} (field : DataField)
    (hf : readEntry shape entry = .ok field) (hq : setField p field = q) :
    Loads shape p [entry] q :=
  .cons hf (hq ▸ .nil shape _)

theorem Loads.append (h : Loads shape p es q) (h' : Loads shape q fs r) :
    Loads shape p (es ++ fs) r := by
  induction es generalizing p with
  | nil =>
    obtain ⟨fields, hm, rfl⟩ := h
    cases Except.ok.inj hm
    exact h'
  | cons entry es ih =>
    obtain ⟨fields, hm, hq⟩ := h
    obtain ⟨field, rest, hf, hr, rfl⟩ := mapM_cons_eq_ok.mp hm
    exact .cons hf (ih ⟨rest, hr, hq⟩)

theorem Loads.loadPayload_eq {kind : Kind} (h : Loads kind.shape (.empty kind.shape) es q) :
    loadPayload kind es = .ok q := by
  obtain ⟨fields, hm, rfl⟩ := h
  rw [loadPayload, hm]
  rfl

theorem loads_unknown (hes : ∀ key ∈ es.map Prod.fst, Unknown shape key) (p : Payload) :
    Loads shape p es { p with extra := p.extra.setAll es } := by
  induction es generalizing p with
  | nil => exact .nil shape p
  | cons entry es ih =>
    have hk : Unknown shape entry.1 := hes _ List.mem_cons_self
    exact .cons (readEntry_of_unknown hk entry.2)
      (ih (fun key hm => hes key (List.mem_cons_of_mem _ hm)) _)

theorem keys_filledEntry (key s : String) : ((filledEntry key s).map Prod.fst).Sublist [key] := by
  by_cases hs : s = "" <;> simp [filledEntry, hs]

theorem keys_numberEntry (key : String) (x : Option Double) :
    ((numberEntry key x).map Prod.fst).Sublist [key] := by
  cases x <;> simp [numberEntry]

theorem keys_textEntry (key : String) (s : Option String) :
    ((textEntry key s).map Prod.fst).Sublist [key] := by
  cases s <;> simp [textEntry]

theorem keys_rowsEntry {α : Type} (key : String) (dump : α → Value) (rows : List α) :
    ((rowsEntry key dump rows).map Prod.fst).Sublist [key] := by
  cases rows <;> simp [rowsEntry]

theorem keys_bodyEntries (body : Body) :
    ((bodyEntries body).map Prod.fst).Sublist (shapeKeys body.shape) := by
  cases body with
  | basic => exact List.Sublist.refl _
  | items xs => exact keys_rowsEntry "items" dumpItem xs
  | process xs ss rate =>
    simp only [bodyEntries, List.map_append]
    exact ((keys_rowsEntry "items" dumpItem xs).append
      (keys_rowsEntry "subproducts" dumpSubproduct ss)).append
      (keys_numberEntry "pieceworkRate" rate)
  | decision branches => exact List.Sublist.refl _
  | math expression resultName =>
    simp only [bodyEntries, List.map_append]
    exact (keys_textEntry "expression" expression).append (keys_textEntry "resultVar" resultName)
  | display values => exact List.Sublist.refl _
  | piecework task rate =>
    simp only [bodyEntries, List.map_append]
    exact (keys_textEntry "taskId" task).append (keys_numberEntry "rate" rate)

/-- The known entries of a payload stand in one fixed order. -/
theorem keys_knownEntries (p : Payload) :
    ((knownEntries p).map Prod.fst).Sublist (captionKeys ++ shapeKeys p.shape) := by
  have hcaptions : ((filledEntry "label" p.label ++ filledEntry "subLabel" p.subLabel ++
      filledEntry "description" p.description ++ filledEntry "location" p.location).map
      Prod.fst).Sublist captionKeys := by
    simp only [List.map_append]
    exact (((keys_filledEntry "label" p.label).append
      (keys_filledEntry "subLabel" p.subLabel)).append
      (keys_filledEntry "description" p.description)).append
      (keys_filledEntry "location" p.location)
  rw [knownEntries, List.map_append]
  exact hcaptions.append (keys_bodyEntries p.body)

theorem nodup_understood (shape : Shape) : (captionKeys ++ shapeKeys shape).Nodup := by
  cases shape <;> decide

theorem dumpPayload_eq_append (hp : Storable p) :
    dumpPayload p = p.extra.entries ++ knownEntries p := by
  have hknown := keys_knownEntries p
  apply Table.entries_setAll
  refine List.nodup_append.mpr ⟨p.extra.nodup, (nodup_understood p.shape).sublist hknown, ?_⟩
  intro a ha b hb he
  have hu := hp.extra_unknown a ha
  rcases List.mem_append.mp (hknown.subset (he ▸ hb)) with hc | hf
  · exact hu.not_caption hc
  · exact hu.not_field hf

theorem lookup_head (key : String) (v : Value) (es : Entries) :
    List.lookup key ((key, v) :: es) = some v := by
  simp

theorem lookup_tail {key name : String} (hne : name ≠ key) (v : Value) (es : Entries) :
    List.lookup name ((key, v) :: es) = es.lookup name := by
  rw [lookup_cons_ite, if_neg hne]

theorem itemRow_dumpItem {item : Item} (hi : item.product ≠ "") :
    itemRow (dumpItem item) = .valid item := by
  obtain ⟨product, yieldRatio⟩ := item
  let es : Entries := ("id", .text product) :: numberEntry "yield" yieldRatio
  have hid : required es ["id"] filledText = .valid product :=
    required_of_lookup (lookup_head ..) (filledText_text hi)
  have hyield : defaulting es ["yield", "yield_ratio"] none (orNull number) =
      .valid yieldRatio := by
    cases yieldRatio with
    | none => exact defaulting_of_absent (by simp [es, numberEntry, lookup_cons_ite]) _ _
    | some x =>
      exact defaulting_of_lookup ((lookup_tail (by decide) _ _).trans (lookup_head ..))
        (orNull_number x) _
  change Item.mk <$> required es ["id"] filledText
    <*> defaulting es ["yield", "yield_ratio"] none (orNull number) = _
  rw [hid, hyield]
  rfl

def savedRow (s : Subproduct) : SubproductRow :=
  match s.quantity with
  | .fixed ratio => ⟨s.product, some ratio, false, none⟩
  | .variable => ⟨s.product, none, true, if s.unit = "" then none else some s.unit⟩

theorem subproductRow_object {es : Entries} {product : String} {ratio : Option Double}
    {isVariable : Bool} {unit : Option String}
    (hproduct : required es ["productId", "product_id"] filledText = .valid product)
    (hratio : defaulting es ["ratio"] none (orNull number) = .valid ratio)
    (hvariable : defaulting es ["isVariable", "is_variable"] false bool = .valid isVariable)
    (hunit : defaulting es ["unit"] none (orNull text) = .valid unit) :
    subproductRow (.object es) = .valid ⟨product, ratio, isVariable, unit⟩ := by
  change SubproductRow.mk <$> required es ["productId", "product_id"] filledText
    <*> defaulting es ["ratio"] none (orNull number)
    <*> defaulting es ["isVariable", "is_variable"] false bool
    <*> defaulting es ["unit"] none (orNull text) = _
  rw [hproduct, hratio, hvariable, hunit]
  rfl

theorem subproductRow_dumpSubproduct {s : Subproduct} (hs : s.product ≠ "") :
    subproductRow (dumpSubproduct s) = .valid (savedRow s) := by
  obtain ⟨product, quantity, unit⟩ := s
  cases quantity with
  | fixed ratio =>
    apply subproductRow_object
    · exact required_of_lookup (lookup_head ..) (filledText_text hs)
    · exact defaulting_of_lookup ((lookup_tail (by decide) _ _).trans (lookup_head ..))
        (orNull_number ratio) _
    · exact defaulting_of_absent (by simp [lookup_cons_ite]) _ _
    · exact defaulting_of_absent (by simp [lookup_cons_ite]) _ _
  | _ =>
    apply subproductRow_object
    · exact required_of_lookup (lookup_head ..) (filledText_text hs)
    · apply defaulting_of_absent
      by_cases hu : unit = "" <;> simp [filledEntry, hu, lookup_cons_ite]
    · exact defaulting_of_lookup ((lookup_tail (by decide) _ _).trans (lookup_head ..))
        (show bool (.bool true) = .valid true from rfl) _
    · by_cases hu : unit = ""
      · rw [if_pos hu]
        exact defaulting_of_absent (by simp [filledEntry, hu, lookup_cons_ite]) _ _
      · rw [if_neg hu]
        exact defaulting_of_lookup (by simp [filledEntry, hu, lookup_cons_ite]) (orNull_text unit) _

theorem toSubproduct_savedRow (s : Subproduct) : (savedRow s).toSubproduct = .ok s.saved := by
  refine mapError_eq_ok.mpr ?_
  obtain ⟨product, quantity, unit⟩ := s
  cases quantity with
  | fixed ratio => rfl
  | _ => by_cases hu : unit = "" <;> simp [savedRow, Subproduct.make, Subproduct.saved, hu]

theorem mapM_toSubproduct (ss : List Subproduct) :
    (ss.map savedRow).mapM SubproductRow.toSubproduct = .ok (ss.map Subproduct.saved) := by
  induction ss with
  | nil => rfl
  | cons s ss ih => exact mapM_cons_eq_ok.mpr ⟨_, _, toSubproduct_savedRow s, ih, rfl⟩

theorem readSubproducts_dump {ss : List Subproduct} (hs : ∀ s ∈ ss, s.product ≠ "") (key : String) :
    readSubproducts key (.list (ss.map dumpSubproduct)) =
      .ok (.subproducts (ss.map Subproduct.saved)) := by
  have hrows : listOf subproductRow (.list (ss.map dumpSubproduct)) = .valid (ss.map savedRow) :=
    listOf_map fun s hm => subproductRow_dumpSubproduct (hs s hm)
  rw [readSubproducts, hrows]
  change ((ss.map savedRow).mapM SubproductRow.toSubproduct).map DataField.subproducts = _
  rw [mapM_toSubproduct]
  rfl

theorem loads_captions (label subLabel description location : String) (extra : Table Value)
    (body : Body) :
    Loads shape ⟨"", "", "", "", extra, body⟩
      (filledEntry "label" label ++ filledEntry "subLabel" subLabel ++
        filledEntry "description" description ++ filledEntry "location" location)
      ⟨label, subLabel, description, location, extra, body⟩ := by
  have hcaption : ∀ (p : Payload) (key s : String) (make : String → DataField),
      readEntry shape (key, .text s) = .ok (make s) → (s = "" → setField p (make s) = p) →
      Loads shape p (filledEntry key s) (setField p (make s)) := by
    intro p key s make hread hempty
    by_cases hs : s = ""
    · rw [hempty hs, filledEntry, if_pos hs]
      exact .nil shape p
    · rw [filledEntry, if_neg hs]
      exact .single _ hread rfl
  refine (((hcaption _ "label" label .label ?_ ?_).append
    (hcaption _ "subLabel" subLabel .subLabel ?_ ?_)).append
    (hcaption _ "description" description .description ?_ ?_)).append
    (hcaption _ "location" location .location ?_ ?_)
  all_goals first
    | rfl
    | (rintro rfl; rfl)

theorem loads_rows {α : Type} {dump : α → Value} {rows : List α} {key : String} (field : DataField)
    (hread : readEntry shape (key, .list (rows.map dump)) = .ok field)
    (hempty : rows = [] → setField p field = p) :
    Loads shape p (rowsEntry key dump rows) (setField p field) := by
  cases rows with
  | nil =>
    rw [hempty rfl]
    exact .nil shape p
  | cons row rows => exact .single _ hread rfl

theorem loads_number (make : Option Double → DataField) {x : Option Double} {key : String}
    (hread : ∀ y, readEntry shape (key, .double y) = .ok (make (some y)))
    (hnone : setField p (make none) = p) :
    Loads shape p (numberEntry key x) (setField p (make x)) := by
  cases x with
  | none =>
    rw [hnone]
    exact .nil shape p
  | some y => exact .single _ (hread y) rfl

theorem loads_text (make : Option String → DataField) {s : Option String} {key : String}
    (hread : ∀ t, readEntry shape (key, .text t) = .ok (make (some t)))
    (hnone : setField p (make none) = p) :
    Loads shape p (textEntry key s) (setField p (make s)) := by
  cases s with
  | none =>
    rw [hnone]
    exact .nil shape p
  | some t => exact .single _ (hread t) rfl

theorem loads_body {label subLabel description location : String} {extra : Table Value}
    {body : Body} (hp : Storable ⟨label, subLabel, description, location, extra, body⟩) :
    Loads body.shape ⟨label, subLabel, description, location, extra, body.shape.emptyBody⟩
      (bodyEntries body) ⟨label, subLabel, description, location, extra, body.saved⟩ := by
  have hitems : ∀ {xs : List Item}, (∀ item ∈ xs, item.product ≠ "") → ∀ s : Shape,
      s = .items ∨ s = .process →
      readEntry s ("items", .list (xs.map dumpItem)) = .ok (.items xs) := by
    intro xs hx s hs
    rcases hs with rfl | rfl <;>
      simp [readEntry, transientKeys, fieldOf?, captionField?, shapeField?, reading,
        listOf_dump fun item hm => itemRow_dumpItem (hx item hm)]
  cases body with
  | basic => exact .nil _ _
  | items xs =>
    refine loads_rows _ (hitems hp.items_filled _ (.inl rfl)) ?_
    rintro rfl
    rfl
  | process xs ss rate =>
    have hsubs : ∀ s ∈ ss, s.product ≠ "" := hp.subproducts_filled
    refine ((loads_rows _ (hitems hp.items_filled _ (.inr rfl)) ?_).append
      (loads_rows (.subproducts (ss.map Subproduct.saved)) ?_ ?_)).append
      (loads_number .pieceworkRate (fun y => rfl) rfl)
    · rintro rfl
      rfl
    · simp [readEntry, transientKeys, fieldOf?, captionField?, shapeField?,
        readSubproducts_dump hsubs]
    · rintro rfl
      rfl
  | decision branches =>
    have hlist : listOf text (.list (branches.map .text)) = .valid branches :=
      listOf_dump fun _ _ => rfl
    refine .single (.branches branches) ?_ rfl
    simp [readEntry, transientKeys, fieldOf?, captionField?, shapeField?, reading, hlist,
      Body.shape]
  | math expression resultName =>
    exact (loads_text .expression (fun t => rfl) rfl).append
      (loads_text .resultName (fun t => rfl) rfl)
  | display values =>
    refine .single (.values values.entries) rfl ?_
    simp [setField, setBody, Table.ofEntries_entries, Body.saved, Body.shape, Shape.emptyBody]
  | piecework task rate =>
    exact (loads_text .task (fun t => rfl) rfl).append (loads_number .rate (fun y => rfl) rfl)

/-- A payload that was read is read back from what is written of it, less the units that are not
written. -/
theorem loadPayload_dumpPayload {kind : Kind} (hp : Storable p) (hs : p.shape = kind.shape) :
    loadPayload kind (dumpPayload p) = .ok p.saved := by
  rw [dumpPayload_eq_append hp]
  obtain ⟨label, subLabel, description, location, extra, body⟩ := p
  have hkind : kind.shape = body.shape := hs.symm
  apply Loads.loadPayload_eq
  rw [hkind]
  have hextra : Loads body.shape (.empty body.shape) extra.entries
      ⟨"", "", "", "", extra, body.shape.emptyBody⟩ := by
    have hload := loads_unknown hp.extra_unknown (.empty body.shape)
    have hsame : (Payload.empty body.shape).extra.setAll extra.entries = extra :=
      Table.ofEntries_entries extra
    rw [hsame] at hload
    exact hload
  exact hextra.append ((loads_captions label subLabel description location extra _).append
    (loads_body hp))

end Document

end Flowsheet
