/-
# Loading a document

Whether a document can be loaded, and what it comes to, is decided by four of its fields: those
under the names of collections. A field of such a name that holds no array is a misfit. The fields
come in the order of the bytes of their names, so the misfit that is complained about is the first
of them in this order; and if there is none, each collection is the array under its name.

Main statements: `loadFields_cases`, by induction on the fields, what becomes of a store that they
are loaded into; `ofDocument_congr`, that two documents that agree on the four fields come to the
same; `ofDocument_collections`, which says when a document is refused, with which complaint, and what
is loaded otherwise; and `ofText_cases`, that it speaks of every document that is read from a text.
-/
import StoreQL.Proofs.Json.Fields
import StoreQL.Store.Memory

namespace StoreQL

open Text (bytes bytes_injective)

/-! ## 1. Names and collections -/

namespace Entity

@[simp] theorem ofName?_name (e : Entity) : ofName? e.name = some e := by
  cases e <;> decide

theorem name_injective {e e' : Entity} (h : e.name = e'.name) : e = e' := by
  rw [← Option.some.injEq, ← ofName?_name, ← ofName?_name, h]

theorem name_of_ofName? {name : String} {e : Entity} (h : ofName? name = some e) :
    e.name = name := by
  simpa using List.find?_some h

theorem ofName?_eq_none_iff {name : String} :
    ofName? name = none ↔ ∀ e : Entity, e.name ≠ name := by
  rw [ofName?, List.find?_eq_none]
  constructor
  · intro h e
    simpa using h e (by cases e <;> decide)
  · intro h e _
    simpa using h e

end Entity

namespace MemoryStore

/-- Two stores with the same records are one. -/
theorem ext_records {m m' : MemoryStore} (h : ∀ e, m.records e = m'.records e) : m = m' := by
  cases m
  cases m'
  rw [mk.injEq]
  exact ⟨h .products, h .orders, h .stores, h .customers⟩

@[simp] theorem records_empty (e : Entity) : empty.records e = [] := by
  cases e <;> rfl

/-- Records are added to the end of their collection, and to no other. -/
theorem records_extend (m : MemoryStore) (e : Entity) (added : List Json) (e' : Entity) :
    (m.extend e added).records e' = m.records e' ++ if e = e' then added else [] := by
  cases e <;> cases e' <;> simp [extend, records]

end MemoryStore

/-! ## 2. Misfits -/

namespace Json

/-- The document is an object. -/
def IsObject (document : Json) : Prop := ∃ fields, document = .obj fields

/-- The document has under the name of a collection something that is no array. -/
def Misfit (document : Json) (name : String) : Prop :=
  (∃ e : Entity, e.name = name) ∧
    ∃ value, document.field? name = some value ∧ ∀ items, value ≠ .arr items

/-- The first misfit of a document in the order of names. -/
def FirstMisfit (document : Json) (name : String) : Prop :=
  document.Misfit name ∧ ∀ name', document.Misfit name' → bytes name ≤ bytes name'

/-- The array under the name of a collection, without items if there is none. -/
def collection (document : Json) (e : Entity) : List Json :=
  match document.field? e.name with
  | some (.arr items) => items
  | _ => []

variable {d d' : Json} {name : String}

theorem Misfit.isObject (h : d.Misfit name) : d.IsObject := by
  obtain ⟨-, value, hvalue, -⟩ := h
  cases d with
  | obj fields => exact ⟨fields, rfl⟩
  | _ => cases hvalue

theorem FirstMisfit.unique {name' : String} (h : d.FirstMisfit name) (h' : d.FirstMisfit name') :
    name = name' :=
  bytes_injective (List.le_antisymm (h.2 _ h'.1) (h'.2 _ h.1))

/-- Misfits and collections are the same if the documents agree on the fields of the collections. -/
theorem misfit_congr (h : ∀ e : Entity, d.field? e.name = d'.field? e.name) :
    d.Misfit name ↔ d'.Misfit name := by
  unfold Misfit
  refine and_congr_right ?_
  rintro ⟨e, rfl⟩
  rw [h]

theorem collection_congr (h : ∀ e : Entity, d.field? e.name = d'.field? e.name) (e : Entity) :
    d.collection e = d'.collection e := by
  rw [collection, collection, h]

theorem firstMisfit_congr (h : ∀ e : Entity, d.field? e.name = d'.field? e.name) :
    d.FirstMisfit name ↔ d'.FirstMisfit name := by
  unfold FirstMisfit
  simp only [misfit_congr h]

/-! ### A field more -/

variable {fields : Dictionary Json} {value : Json} {e : Entity}

theorem field?_cons (name key : String) (value : Json) (fields : Dictionary Json) :
    (obj ((name, value) :: fields)).field? key =
      if name = key then some value else (obj fields).field? key := rfl

/-- A field that is not under the name of a collection. -/
theorem field?_cons_other (hname : ∀ e : Entity, e.name ≠ name) (e : Entity) :
    (obj ((name, value) :: fields)).field? e.name = (obj fields).field? e.name := by
  rw [field?_cons, if_neg (Ne.symm (hname e))]

/-- An array in front of fields that have nothing under its name is no misfit. -/
theorem misfit_cons_array {added : List Json} (hnew : (obj fields).field? e.name = none) :
    (obj ((e.name, .arr added) :: fields)).Misfit name ↔ (obj fields).Misfit name := by
  unfold Misfit
  refine and_congr_right fun _ => ?_
  rw [field?_cons]
  split
  · rename_i heq
    subst heq
    simp [hnew]
  · rfl

theorem collection_cons_array {added : List Json} (hnew : (obj fields).field? e.name = none)
    (e' : Entity) :
    (obj ((e.name, .arr added) :: fields)).collection e' =
      (if e = e' then added else []) ++ (obj fields).collection e' := by
  unfold collection
  rw [field?_cons]
  by_cases he : e = e'
  · subst he
    simp [hnew]
  · have hname : ¬ e.name = e'.name := fun heq => he (Entity.name_injective heq)
    rw [if_neg hname, if_neg he, List.nil_append]

/-- In front of fields that are in order, a misfit comes first. -/
theorem firstMisfit_cons (hordered : Dictionary.Ordered ((e.name, value) :: fields))
    (hvalue : ∀ items, value ≠ .arr items) :
    (obj ((e.name, value) :: fields)).FirstMisfit e.name := by
  refine ⟨⟨⟨e, rfl⟩, value, by rw [field?_cons, if_pos rfl], hvalue⟩, ?_⟩
  rintro name' ⟨-, value', hfield, -⟩
  have hmem : (name', value') ∈ (e.name, value) :: fields :=
    Dictionary.mem_of_find?_eq_some hfield
  rcases List.mem_cons.mp hmem with heq | hmem
  · rw [(Prod.mk.inj heq).1]
    exact List.le_refl _
  · exact List.le_of_lt ((Dictionary.ordered_cons.mp hordered).1 _ hmem)

end Json

/-! ## 3. Loading -/

namespace MemoryStore

variable {d d' : Json} {fields : Dictionary Json} {name : String} {m : MemoryStore}

/-! ### One field -/

variable {key : String} {value : Json} {e : Entity}

/-- A field that is not under the name of a collection is passed over. -/
theorem loadFields_other (hkey : Entity.ofName? key = none) (m : MemoryStore) :
    m.loadFields ((key, value) :: fields) = m.loadFields fields := by
  rw [loadFields, loadField, hkey]
  rfl

/-- An array is added to its collection. -/
theorem loadFields_array (m : MemoryStore) (e : Entity) (added : List Json) :
    m.loadFields ((e.name, .arr added) :: fields) = (m.extend e added).loadFields fields := by
  rw [loadFields, loadField, Entity.ofName?_name]
  rfl

/-- Anything else under the name of a collection is complained about. -/
theorem loadFields_misfit (hvalue : ∀ items, value ≠ .arr items) (m : MemoryStore) :
    m.loadFields ((e.name, value) :: fields) = .error (.notAnArray e.name) := by
  rw [loadFields, loadField, Entity.ofName?_name]
  cases value with
  | arr items => exact absurd rfl (hvalue items)
  | _ => rfl

/-! ### All fields -/

/-- **What becomes of a store** that fields in order are loaded into: the first misfit among them is
complained about, and if there is none, the arrays are added to their collections. -/
theorem loadFields_cases (hordered : Dictionary.Ordered fields) (m : MemoryStore) :
    (∃ name, (Json.obj fields).FirstMisfit name ∧
        m.loadFields fields = .error (.notAnArray name)) ∨
      (∀ name, ¬ (Json.obj fields).Misfit name) ∧
        ∃ m', m.loadFields fields = .ok m' ∧
          ∀ e, m'.records e = m.records e ++ (Json.obj fields).collection e := by
  induction fields generalizing m with
  | nil =>
    refine .inr ⟨?_, m, rfl, fun e => (List.append_nil _).symm⟩
    rintro name ⟨-, value, hvalue, -⟩
    cases hvalue
  | cons f rest ih =>
    obtain ⟨key, value⟩ := f
    have hrest := (Dictionary.ordered_cons.mp hordered).2
    cases hkey : Entity.ofName? key with
    | none =>
      have hagree (e : Entity) :
          (Json.obj ((key, value) :: rest)).field? e.name = (Json.obj rest).field? e.name :=
        Json.field?_cons_other (Entity.ofName?_eq_none_iff.mp hkey) e
      simp only [loadFields_other hkey, Json.firstMisfit_congr hagree, Json.misfit_congr hagree,
        Json.collection_congr hagree]
      exact ih hrest m
    | some e =>
      obtain rfl := Entity.name_of_ofName? hkey
      by_cases hvalue : ∀ items, value ≠ .arr items
      · exact .inl ⟨e.name, Json.firstMisfit_cons hordered hvalue, loadFields_misfit hvalue m⟩
      · obtain ⟨added, rfl⟩ : ∃ added, value = .arr added := by simpa using hvalue
        -- Nothing behind the array is under its name, so the misfits are those behind it.
        have hnew : (Json.obj rest).field? e.name = none := hordered.find?_eq_none
        have hrecords (e' : Entity) : m.records e' ++
            (Json.obj ((e.name, .arr added) :: rest)).collection e' =
              (m.extend e added).records e' ++ (Json.obj rest).collection e' := by
          rw [Json.collection_cons_array hnew, records_extend, List.append_assoc]
        simp only [loadFields_array, Json.FirstMisfit, Json.misfit_cons_array hnew, hrecords]
        exact ih hrest (m.extend e added)

/-! ### Documents -/

/-- What a document comes to, from its misfits and its collections. -/
theorem ofDocument_cases (hd : d.FieldsOrdered) :
    (¬ d.IsObject ∧ ofDocument d = .error .notAnObject) ∨
      (∃ name, d.FirstMisfit name ∧ ofDocument d = .error (.notAnArray name)) ∨
      (d.IsObject ∧ (∀ name, ¬ d.Misfit name) ∧
        ∃ m, ofDocument d = .ok m ∧ ∀ e, m.records e = d.collection e) := by
  cases d with
  | obj fields =>
    rcases loadFields_cases hd empty with ⟨name, hfirst, hload⟩ | ⟨hnone, m, hload, hrecords⟩
    · exact .inr (.inl ⟨name, hfirst, hload⟩)
    · refine .inr (.inr ⟨⟨fields, rfl⟩, hnone, m, hload, fun e => ?_⟩)
      rw [hrecords, records_empty, List.nil_append]
  | null | bool | num | str | arr => exact .inl ⟨nofun, rfl⟩

theorem ofDocument_eq_notAnObject_iff (hd : d.FieldsOrdered) :
    ofDocument d = .error .notAnObject ↔ ¬ d.IsObject := by
  rcases ofDocument_cases hd with ⟨hobj, h⟩ | ⟨name, hfirst, h⟩ | ⟨hobj, -, m, h, -⟩
  · simp [h, hobj]
  · simp [h, hfirst.1.isObject]
  · simp [h, hobj]

theorem ofDocument_eq_notAnArray_iff (hd : d.FieldsOrdered) :
    ofDocument d = .error (.notAnArray name) ↔ d.FirstMisfit name := by
  rcases ofDocument_cases hd with ⟨hobj, h⟩ | ⟨name', hfirst, h⟩ | ⟨-, hnone, m, h, -⟩
  · have hnot : ¬ d.FirstMisfit name := fun hfirst => hobj hfirst.1.isObject
    simp [h, hnot]
  · rw [h, Except.error.injEq, StoreError.notAnArray.injEq]
    constructor
    · rintro rfl
      exact hfirst
    · exact hfirst.unique
  · have hnot : ¬ d.FirstMisfit name := fun hfirst => hnone name hfirst.1
    simp [h, hnot]

theorem ofDocument_eq_ok_iff (hd : d.FieldsOrdered) :
    ofDocument d = .ok m ↔
      d.IsObject ∧ (∀ name, ¬ d.Misfit name) ∧ ∀ e, m.records e = d.collection e := by
  rcases ofDocument_cases hd with ⟨hobj, h⟩ | ⟨name, hfirst, h⟩ | ⟨hobj, hnone, m', h, hrecords⟩
  · simp [h, hobj]
  · have hnot : ¬ ∀ name, ¬ d.Misfit name := fun hnone => hnone name hfirst.1
    simp [h, hnot]
  · rw [h, Except.ok.injEq]
    constructor
    · rintro rfl
      exact ⟨hobj, hnone, hrecords⟩
    · rintro ⟨-, -, hsame⟩
      exact ext_records fun e => (hrecords e).trans (hsame e).symm

/-- **Documents that agree on the fields of the collections come to the same.** -/
theorem ofDocument_congr (hd : d.FieldsOrdered) (hd' : d'.FieldsOrdered) (hobj : d.IsObject)
    (hobj' : d'.IsObject) (hagree : ∀ e : Entity, d'.field? e.name = d.field? e.name) :
    ofDocument d' = ofDocument d := by
  rcases ofDocument_cases hd with ⟨hnot, -⟩ | ⟨name, hfirst, h⟩ | ⟨-, hnone, m, h, hrecords⟩
  · exact absurd hobj hnot
  · rw [h, ofDocument_eq_notAnArray_iff hd', Json.firstMisfit_congr hagree]
    exact hfirst
  · rw [h, ofDocument_eq_ok_iff hd']
    refine ⟨hobj', fun name => ?_, fun e => ?_⟩
    · rw [Json.misfit_congr hagree]
      exact hnone name
    · rw [Json.collection_congr hagree]
      exact hrecords e

/-- **A document is loaded by its collections alone.** It is refused as no object exactly if it is
none, and with a complaint about a name exactly if this is the first in the order of bytes of those
collection names that have something other than an array. Otherwise it is loaded, and each
collection is the array under its name. Another field, whatever it holds, can be there or not. -/
theorem ofDocument_collections {d : Json} (hd : d.FieldsOrdered) :
    (ofDocument d = .error .notAnObject ↔ ¬ d.IsObject) ∧
      (∀ name, ofDocument d = .error (.notAnArray name) ↔ d.FirstMisfit name) ∧
      ((∃ m, ofDocument d = .ok m) ↔ d.IsObject ∧ ∀ name, ¬ d.Misfit name) ∧
      (∀ m, ofDocument d = .ok m → ∀ e, m.records e = d.collection e) ∧
      (∀ d', d'.FieldsOrdered → d.IsObject → d'.IsObject →
        (∀ e : Entity, d'.field? e.name = d.field? e.name) → ofDocument d' = ofDocument d) ∧
      ∀ fields, d = .obj fields → ∀ key, (∀ e : Entity, e.name ≠ key) →
        (∀ value, ofDocument (.obj (Dictionary.insert key value fields)) = ofDocument d) ∧
          ofDocument (.obj (fields.filter fun f => f.1 ≠ key)) = ofDocument d := by
  refine ⟨ofDocument_eq_notAnObject_iff hd, fun _ => ofDocument_eq_notAnArray_iff hd, ?_,
    fun m hm => ((ofDocument_eq_ok_iff hd).mp hm).2.2,
    fun d' hd' hobj hobj' => ofDocument_congr hd hd' hobj hobj', ?_⟩
  · constructor
    · rintro ⟨m, hm⟩
      obtain ⟨hobj, hnone, -⟩ := (ofDocument_eq_ok_iff hd).mp hm
      exact ⟨hobj, hnone⟩
    · rintro ⟨hobj, hnone⟩
      rcases ofDocument_cases hd with ⟨hnot, -⟩ | ⟨name, hfirst, -⟩ | ⟨-, -, m, hm, -⟩
      · exact absurd hobj hnot
      · exact absurd hfirst.1 (hnone name)
      · exact ⟨m, hm⟩
  · rintro fields rfl key hkey
    have hobj : (Json.obj fields).IsObject := ⟨fields, rfl⟩
    refine ⟨fun value => ?_, ?_⟩
    · refine ofDocument_congr hd (Dictionary.Ordered.insert hd key value) hobj ⟨_, rfl⟩ fun e => ?_
      exact Dictionary.find?_insert_of_ne (hkey e) value fields
    · refine ofDocument_congr hd (List.Pairwise.filter _ hd) hobj ⟨_, rfl⟩ fun e => ?_
      exact (Dictionary.find?_filter_ne key e.name fields).trans (if_neg (hkey e))

/-- Of two collections that are no arrays the orders come first, wherever they stand in the
document, and what the store does not know is passed over. -/
theorem ofDocument_collections_orders :
    let fields := Dictionary.ofEntries
      [("widgets", .bool true), ("products", .null), ("orders", .obj []), ("stores", .arr [])]
    (Json.obj fields).FieldsOrdered ∧ (Json.obj fields).FirstMisfit "orders" ∧
      (∀ e : Entity, e.name ≠ "widgets") ∧
      ofDocument (.obj (Dictionary.insert "widgets" .null fields)) =
        .error (.notAnArray "orders") := by
  intro fields
  have hordered : (Json.obj fields).FieldsOrdered := Dictionary.ordered_ofEntries _
  have hrefused : ofDocument (.obj fields) = .error (.notAnArray "orders") := rfl
  have hother (e : Entity) : e.name ≠ "widgets" := by cases e <;> decide
  obtain ⟨-, hfirst, -, -, -, hfields⟩ := ofDocument_collections hordered
  refine ⟨hordered, (hfirst "orders").mp hrefused, hother, ?_⟩
  rw [(hfields fields rfl "widgets" hother).1, hrefused]

/-! ## 4. Loading a text -/

/-- The document of a text has its fields in order, so all this holds of whatever is loaded from a
text. -/
theorem ofText_cases (text : String) :
    (∃ e, Json.parse text = .error e ∧ ofText text = .error (.json e)) ∨
      ∃ d, Json.parse text = .ok d ∧ d.FieldsOrdered ∧ ofText text = ofDocument d := by
  cases h : Json.parse text with
  | error e => exact .inl ⟨e, rfl, by rw [ofText, h]⟩
  | ok d => exact .inr ⟨d, rfl, Json.fieldsOrdered_of_parse h, by rw [ofText, h]⟩

end MemoryStore
end StoreQL
