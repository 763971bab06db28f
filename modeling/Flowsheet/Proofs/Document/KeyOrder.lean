import Flowsheet.Proofs.Document.Form

/-! The order of the entries of node data. It does not matter to what is understood, and neither do
the entries that a renderer leaves. What is not understood is kept in the order in which it came,
and of several entries that are refused the first one is reported. -/

namespace Flowsheet

/-- The payload without the entries that are not understood. -/
def Payload.bare (p : Payload) : Payload := { p with extra := .empty }

/-- The payloads are equal, but the entries that are not understood may come in another order. -/
structure Payload.Alike (p q : Payload) : Prop where
  bare_eq : p.bare = q.bare
  extra_perm : p.extra.entries.Perm q.extra.entries

theorem Payload.Alike.refl (p : Payload) : p.Alike p := ⟨rfl, .refl _⟩

theorem Payload.Alike.symm {p q : Payload} (h : p.Alike q) : q.Alike p :=
  ⟨h.bare_eq.symm, h.extra_perm.symm⟩

theorem Payload.Alike.trans {p q r : Payload} (h : p.Alike q) (h' : q.Alike r) : p.Alike r :=
  ⟨h.bare_eq.trans h'.bare_eq, h.extra_perm.trans h'.extra_perm⟩

namespace Document

variable {kind : Kind} {shape : Shape} {data other : Table Value} {es before after : Entries}
  {key : String} {p q : Payload} {f g : DataField} {fault : DataFault}

/-- Entries are put into another order, and those that renderers leave come and go. -/
inductive Rearranged : Table Value → Table Value → Prop
  | reordered {data other : Table Value} (h : data.entries.Perm other.entries) :
      Rearranged data other
  | drawn {data other : Table Value} (before : Entries) {after : Entries} {key : String}
      {v : Value} (hk : key ∈ transientKeys) (hd : data.entries = before ++ after)
      (ho : other.entries = before ++ (key, v) :: after) : Rearranged data other
  | cleared {data other : Table Value} (before : Entries) {after : Entries} {key : String}
      {v : Value} (hk : key ∈ transientKeys) (hd : data.entries = before ++ (key, v) :: after)
      (ho : other.entries = before ++ after) : Rearranged data other
  | trans {data middle other : Table Value} (h : Rearranged data middle)
      (h' : Rearranged middle other) : Rearranged data other

/-- The key is understood, and its reading refuses the value. -/
def Refused (shape : Shape) (entry : String × Value) (fault : DataFault) : Prop :=
  fieldOf? shape entry.1 entry.2 = some (.error fault)

inductive FirstRefused (shape : Shape) (es : Entries) (fault : DataFault) : Prop
  | intro {before after : Entries} {entry : String × Value} (hsplit : es = before ++ entry :: after)
      (hbefore : ∀ e ∈ before, ∀ other, ¬ Refused shape e other)
      (hrefused : Refused shape entry fault)

/-- What depends on the order of the data: the order in which the entries are kept that are not
understood, and the fault. -/
structure ReadsInOrder (kind : Kind) (data : Table Value) : Prop where
  extra_eq : ∀ p, loadPayload kind data.entries = .ok p →
    p.extra.entries = unknownEntries kind.shape data.entries
  fault_iff : ∀ fault, loadPayload kind data.entries = .error fault ↔
    FirstRefused kind.shape data.entries fault

/-- Both data are read, or neither, and the payloads are alike. -/
structure ReadsAlike (kind : Kind) (data other : Table Value) : Prop where
  loads_iff : (∃ p, loadPayload kind data.entries = .ok p) ↔
    ∃ q, loadPayload kind other.entries = .ok q
  alike : ∀ p q, loadPayload kind data.entries = .ok p → loadPayload kind other.entries = .ok q →
    p.Alike q

theorem readEntry_eq_error_iff {entry : String × Value} :
    readEntry shape entry = .error fault ↔ Refused shape entry fault := by
  obtain ⟨key, v⟩ := entry
  by_cases ht : key ∈ transientKeys
  · simp [readEntry_of_transient ht, Refused, fieldOf?_of_transient ht]
  · rw [readEntry_of_not_transient ht, Refused]
    cases fieldOf? shape key v <;> simp

theorem readEntry_ok_iff_not_refused {entry : String × Value} :
    (∃ field, readEntry shape entry = .ok field) ↔ ∀ fault, ¬ Refused shape entry fault := by
  simp only [← readEntry_eq_error_iff]
  cases readEntry shape entry <;> simp

theorem loadPayload_eq_error_iff :
    loadPayload kind es = .error fault ↔ FirstRefused kind.shape es fault := by
  have hload : loadPayload kind es = .error fault ↔
      es.mapM (readEntry kind.shape) = .error fault := by
    rw [loadPayload, bind_eq_error]
    refine or_iff_left ?_
    rintro ⟨fields, -, he⟩
    cases he
  simp only [hload, mapM_eq_error, readEntry_ok_iff_not_refused, readEntry_eq_error_iff]
  constructor
  · rintro ⟨before, entry, after, hsplit, hbefore, hrefused⟩
    exact ⟨hsplit, hbefore, hrefused⟩
  · rintro ⟨hsplit, hbefore, hrefused⟩
    exact ⟨_, _, _, hsplit, hbefore, hrefused⟩

theorem readsInOrder (kind : Kind) (data : Table Value) : ReadsInOrder kind data where
  extra_eq p hp := by rw [extra_loadPayload hp, entries_ofEntries_unknown data.nodup]
  fault_iff _ := loadPayload_eq_error_iff

theorem setBody_comm (h : ∀ key ∈ f.key?, key ∉ g.key?) (body : Body) :
    setBody (setBody body f) g = setBody (setBody body g) f := by
  -- A field that the body lacks changes nothing, and those that it has are set apart by their keys.
  cases body <;> cases f <;> cases g <;> first | rfl | exact absurd rfl (h _ rfl)

theorem bare_setField_comm (h : ∀ key ∈ f.key?, key ∉ g.key?) (p : Payload) :
    (setField (setField p f) g).bare = (setField (setField p g) f).bare := by
  have hbody := congrArg (fun body => { p.bare with body }) (setBody_comm h p.body)
  cases f <;> cases g <;> first
    | exact absurd rfl (h _ rfl)
    | exact hbody
    | rfl

theorem bare_setField (p : Payload) (f : DataField) :
    (setField p.bare f).bare = (setField p f).bare := by
  cases f <;> rfl

theorem bare_foldl_setField (fields : List DataField) (p : Payload) :
    (fields.foldl setField p).bare = fields.foldl (fun r f => (setField r f).bare) p.bare :=
  (List.foldl_hom Payload.bare bare_setField).symm

/-- The fields of the entries that are not refused. -/
def fieldsOf (shape : Shape) (es : Entries) : List DataField :=
  es.filterMap fun entry => (readEntry shape entry).toOption

theorem exists_of_mem_fieldsOf (hf : f ∈ fieldsOf shape es) :
    ∃ entry ∈ es, readEntry shape entry = .ok f := by
  obtain ⟨entry, he, hr⟩ := List.mem_filterMap.mp hf
  refine ⟨entry, he, ?_⟩
  cases h : readEntry shape entry with
  | ok field =>
    rw [h] at hr
    exact congrArg Except.ok (Option.some.inj hr)
  | error fault =>
    rw [h] at hr
    cases hr

theorem eq_foldl_fieldsOf (hp : loadPayload kind es = .ok p) :
    p = (fieldsOf kind.shape es).foldl setField (.empty kind.shape) := by
  obtain ⟨fields, hf, rfl⟩ := loadPayload_eq_ok hp
  rw [eq_filterMap_of_mapM hf, fieldsOf]

theorem bare_setField_comm_of_mem (hes : (es.map Prod.fst).Nodup) (hf : f ∈ fieldsOf shape es)
    (hg : g ∈ fieldsOf shape es) (p : Payload) :
    (setField (setField p f) g).bare = (setField (setField p g) f).bare := by
  obtain ⟨a, ha, hfa⟩ := exists_of_mem_fieldsOf hf
  obtain ⟨b, hb, hgb⟩ := exists_of_mem_fieldsOf hg
  by_cases hab : a = b
  · -- One entry has one reading, so that there is nothing to change places.
    subst hab
    rw [Except.ok.inj (hfa.symm.trans hgb)]
  · refine bare_setField_comm (fun key hkf hkg => hab ?_) p
    exact List.inj_on_of_nodup_map hes ha hb
      ((eq_of_mem_key? hfa hkf).symm.trans (eq_of_mem_key? hgb hkg))

theorem alike_of_perm (h : data.entries.Perm other.entries)
    (hp : loadPayload kind data.entries = .ok p) (hq : loadPayload kind other.entries = .ok q) :
    p.Alike q := by
  have hfields : (fieldsOf kind.shape data.entries).Perm (fieldsOf kind.shape other.entries) :=
    h.filterMap _
  constructor
  · rw [eq_foldl_fieldsOf hp, eq_foldl_fieldsOf hq, bare_foldl_setField, bare_foldl_setField]
    refine hfields.foldl_eq' (fun f hf g hg r => ?_) _
    rw [bare_setField, bare_setField]
    exact bare_setField_comm_of_mem data.nodup hf hg r
  · rw [(readsInOrder kind data).extra_eq p hp, (readsInOrder kind other).extra_eq q hq]
    exact h.filter _

theorem readsAlike_of_perm (kind : Kind) (h : data.entries.Perm other.entries) :
    ReadsAlike kind data other where
  loads_iff := by simp only [loadPayload_ok_iff, h.mem_iff]
  alike _ _ := alike_of_perm h

theorem fieldsOf_drawn (hk : key ∈ transientKeys) (v : Value) :
    fieldsOf shape (before ++ (key, v) :: after) =
      fieldsOf shape before ++ .transient :: fieldsOf shape after := by
  rw [fieldsOf, List.filterMap_append, List.filterMap_cons, readEntry_of_transient hk]
  rfl

theorem eq_of_drawn (hk : key ∈ transientKeys) {v : Value}
    (hp : loadPayload kind (before ++ after) = .ok p)
    (hq : loadPayload kind (before ++ (key, v) :: after) = .ok q) : p = q := by
  rw [eq_foldl_fieldsOf hp, eq_foldl_fieldsOf hq, fieldsOf_drawn hk, fieldsOf,
    List.filterMap_append, List.foldl_append, List.foldl_append, List.foldl_cons]
  rfl

theorem readsAlike_of_drawn (kind : Kind) (hk : key ∈ transientKeys) {v : Value}
    (hd : data.entries = before ++ after) (ho : other.entries = before ++ (key, v) :: after) :
    ReadsAlike kind data other := by
  have hentry : Form.Entry kind.shape key v :=
    readEntry_ok_iff.mp ⟨.transient, readEntry_of_transient hk v⟩
  constructor
  · rw [loadPayload_ok_iff, loadPayload_ok_iff, hd, ho, List.forall_mem_append,
      List.forall_mem_append, List.forall_mem_cons, and_iff_right hentry]
  · intro p q hp hq
    rw [hd] at hp
    rw [ho] at hq
    exact eq_of_drawn hk hp hq ▸ .refl p

theorem ReadsAlike.symm (h : ReadsAlike kind data other) : ReadsAlike kind other data where
  loads_iff := h.loads_iff.symm
  alike p q hp hq := (h.alike q p hq hp).symm

theorem ReadsAlike.trans {middle : Table Value} (h : ReadsAlike kind data middle)
    (h' : ReadsAlike kind middle other) : ReadsAlike kind data other where
  loads_iff := h.loads_iff.trans h'.loads_iff
  alike p q hp hq := by
    -- The data in the middle are read as well, so that there is a payload to go by.
    obtain ⟨r, hr⟩ := h.loads_iff.mp ⟨p, hp⟩
    exact (h.alike p r hp hr).trans (h'.alike r q hr hq)

theorem Rearranged.readsUnordered (h : Rearranged data other) (kind : Kind) :
    ReadsAlike kind data other ∧ ReadsInOrder kind data ∧ ReadsInOrder kind other := by
  refine ⟨?_, readsInOrder kind data, readsInOrder kind other⟩
  induction h with
  | reordered h => exact readsAlike_of_perm kind h
  | drawn _ hk hd ho => exact readsAlike_of_drawn kind hk hd ho
  | cleared _ hk hd ho => exact (readsAlike_of_drawn kind hk ho hd).symm
  | trans _ _ ih ih' => exact ih.trans ih'

/-- The rows are those of a process, which cannot be read, and mean nothing for piecework. -/
def tally : Table Value :=
  .ofEntries [("items", .int 5), ("simActive", .bool true), ("pieceworkRate", .text "fast"),
    ("rate", .double (.ofInt 2)), ("label", .null)]

def retold : Table Value :=
  .ofEntries [("label", .null), ("rate", .double (.ofInt 2)), ("tasks", .list []),
    ("pieceworkRate", .text "fast"), ("items", .int 5)]

theorem rearranged_tally : Rearranged tally retold := by
  let kept : Entries :=
    [("items", .int 5), ("pieceworkRate", .text "fast"), ("rate", .double (.ofInt 2)),
      ("label", .null)]
  have hreversed : (Table.ofEntries kept).entries.Perm (Table.ofEntries kept.reverse).entries :=
    (List.reverse_perm kept).symm
  have hcleared : Rearranged tally (.ofEntries kept) :=
    .cleared [("items", .int 5)] (by decide) rfl rfl
  have hdrawn : Rearranged (.ofEntries kept.reverse) retold :=
    .drawn [("label", .null), ("rate", .double (.ofInt 2))] (by decide) rfl rfl
  exact hcleared.trans ((Rearranged.reordered hreversed).trans hdrawn)

theorem tally_readsUnordered :
    Rearranged tally retold ∧
    (∃ p q, loadPayload .piecework tally.entries = .ok p ∧
      loadPayload .piecework retold.entries = .ok q ∧ p.Alike q ∧
      p.extra.entries = [("items", .int 5), ("pieceworkRate", .text "fast")] ∧
      q.extra.entries = [("pieceworkRate", .text "fast"), ("items", .int 5)]) ∧
    FirstRefused .process tally.entries (.invalid "items" [⟨[], .notList⟩]) ∧
    FirstRefused .process retold.entries (.invalid "pieceworkRate" [⟨[], .unreadableNumber⟩]) := by
  obtain ⟨halike, hfirst, hsecond⟩ := rearranged_tally.readsUnordered .piecework
  obtain ⟨-, hprocess, hretold⟩ := rearranged_tally.readsUnordered .process
  obtain ⟨p, hp⟩ : ∃ p, loadPayload .piecework tally.entries = .ok p := ⟨_, rfl⟩
  obtain ⟨q, hq⟩ := halike.loads_iff.mp ⟨p, hp⟩
  exact ⟨rearranged_tally,
    ⟨p, q, hp, hq, halike.alike p q hp hq, hfirst.extra_eq p hp, hsecond.extra_eq q hq⟩,
    (hprocess.fault_iff _).mp rfl, (hretold.fault_iff _).mp rfl⟩

end Document

end Flowsheet
