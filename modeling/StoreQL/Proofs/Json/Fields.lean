/-
# The order of fields

A dictionary that is built by storing entries is in the order of the bytes of its keys, so nothing
behind an entry is under the same key. `Json.FieldsOrdered` says of a value that, if it is an
object, its fields are in this order.

Main statements: `Ordered.insert`, that storing keeps the order; `Ordered.find?_eq_none`, that a key
comes once; and `fieldsOrdered_of_parse`, that what is read from a text has its fields in order.
-/
import StoreQL.Json.Read
import StoreQL.Result
import StoreQL.Proofs.Text.ByteOrder

namespace StoreQL

open Text (bytes lt_iff_bytes_lt)

universe u

/-! ## 1. Dictionaries in order -/

namespace Dictionary

variable {α : Type u} {d : Dictionary α} {key : String} {value : α}

/-- The entries are in the order of the bytes of their keys. -/
def Ordered (d : Dictionary α) : Prop := d.Pairwise fun e f => bytes e.1 < bytes f.1

theorem ordered_nil : Ordered ([] : Dictionary α) := List.Pairwise.nil

theorem ordered_cons {e : String × α} :
    Ordered (e :: d) ↔ (∀ f ∈ d, bytes e.1 < bytes f.1) ∧ Ordered d := List.pairwise_cons

/-- The keys are those that were there and the one that is stored under. -/
theorem mem_keys_insert {k : String} :
    (∃ v, (k, v) ∈ d.insert key value) ↔ k = key ∨ ∃ v, (k, v) ∈ d := by
  induction d with
  | nil => simp [insert]
  | cons e rest ih =>
    obtain ⟨k', v'⟩ := e
    unfold insert
    split
    · simp [exists_or]
    split
    · rename_i heq
      simp [heq, exists_or]
    · simp only [List.mem_cons, exists_or, ih]
      exact or_left_comm

/-- **Storing keeps the order.** -/
theorem Ordered.insert (h : Ordered d) (key : String) (value : α) :
    Ordered (d.insert key value) := by
  induction d with
  | nil => exact List.pairwise_singleton _ _
  | cons e rest ih =>
    obtain ⟨k, v⟩ := e
    obtain ⟨hfirst, hrest⟩ := ordered_cons.mp h
    unfold Dictionary.insert
    split
    · rename_i hlt
      have hlt : bytes key < bytes k := lt_iff_bytes_lt.mp hlt
      refine ordered_cons.mpr ⟨fun f hf => ?_, h⟩
      rcases List.mem_cons.mp hf with rfl | hf
      · exact hlt
      · exact List.lt_trans hlt (hfirst f hf)
    split
    · rename_i heq
      subst heq
      exact ordered_cons.mpr ⟨hfirst, hrest⟩
    · rename_i hnlt hne
      refine ordered_cons.mpr ⟨fun f hf => ?_, ih hrest⟩
      rcases mem_keys_insert.mp ⟨f.2, hf⟩ with hkey | ⟨v', hv'⟩
      · rw [hkey]
        exact lt_iff_bytes_lt.mp (lt_of_le_of_ne (String.not_lt.mp hnlt) (Ne.symm hne))
      · exact hfirst (f.1, v') hv'

theorem ordered_ofEntries (entries : List (String × α)) : Ordered (ofEntries entries) := by
  have hfold (d : Dictionary α) (h : Ordered d) :
      Ordered (entries.foldl (fun d e => d.insert e.1 e.2) d) := by
    induction entries generalizing d with
    | nil => exact h
    | cons e rest ih => exact ih _ (h.insert e.1 e.2)
  exact hfold [] ordered_nil

theorem mem_of_find?_eq_some {value : α} (h : find? key d = some value) : (key, value) ∈ d := by
  induction d with
  | nil => simp [find?] at h
  | cons e rest ih =>
    obtain ⟨k, v⟩ := e
    unfold find? at h
    split at h
    · rename_i hkey
      cases h
      exact hkey ▸ List.mem_cons_self
    · exact List.mem_cons_of_mem _ (ih h)

/-- A dictionary in order has nothing behind an entry that is under the same key. -/
theorem Ordered.find?_eq_none {e : String × α} (h : Ordered (e :: d)) : find? e.1 d = none := by
  rw [Option.eq_none_iff_forall_ne_some]
  intro v hv
  have hlt : bytes e.1 < bytes e.1 := (ordered_cons.mp h).1 (e.1, v) (mem_of_find?_eq_some hv)
  exact List.lt_irrefl _ hlt

/-- What is taken out is not found, and all else is. -/
theorem find?_filter_ne (key key' : String) (d : Dictionary α) :
    find? key' (d.filter fun e => e.1 ≠ key) = if key' = key then none else find? key' d := by
  induction d with
  | nil => simp [find?]
  | cons e rest ih =>
    obtain ⟨k, v⟩ := e
    by_cases hk : k = key
    · rw [List.filter_cons_of_neg (by simpa using hk), ih]
      split
      · rfl
      · rename_i hne
        rw [find?, if_neg]
        rintro rfl
        exact hne hk
    · rw [List.filter_cons_of_pos (by simpa using hk), find?, find?, ih]
      split
      · rename_i hkey
        rw [if_neg (hkey ▸ hk)]
      · rfl

end Dictionary

/-! ## 2. Objects that are read -/

namespace Json

/-- If the value is an object, its fields are in order. -/
def FieldsOrdered : Json → Prop
  | .obj fields => Dictionary.Ordered fields
  | _ => True

variable {element : Reader} {seen read : Dictionary Json} {cs : List Char}

/-- Each field that is read is stored among those before it. -/
theorem ordered_of_fields {r : Rest cs} (hseen : Dictionary.Ordered seen)
    (h : fields element seen cs = .ok (read, r)) : Dictionary.Ordered read := by
  fun_induction fields element seen cs with
  | case2 =>
    cases h
    exact hseen
  | case5 =>
    rename_i ih
    obtain ⟨⟨fs, r''⟩, hrest, heq⟩ := map_eq_ok_iff.mp h
    cases heq
    exact ih (hseen.insert _ _) hrest
  | _ => cases h

theorem ordered_of_object {r : Rest cs} (h : object element cs = .ok (read, r)) :
    Dictionary.Ordered read := by
  unfold object at h
  dsimp only at h
  split at h
  · cases h
  split at h
  · cases h
    exact Dictionary.ordered_nil
  split at h
  · obtain ⟨⟨f, r'⟩, -, hrest⟩ := bind_eq_ok_iff.mp h
    obtain ⟨⟨fs, r''⟩, hfields, heq⟩ := bind_eq_ok_iff.mp hrest
    cases heq
    exact ordered_of_fields (Dictionary.ordered_nil.insert f.1 f.2) hfields
  · cases h

theorem fieldsOrdered_of_valueFrom {nested : Option Reader} {c : Char} {x : Json}
    {r : Left (c :: cs)} (h : valueFrom nested c cs = .ok (x, r)) : x.FieldsOrdered := by
  have hmap {β : Type} {result : Except Fault β} {f : β → Json × Left (c :: cs)}
      (h : result.map f = .ok (x, r)) (hf : ∀ b, result = .ok b → (f b).1.FieldsOrdered) :
      x.FieldsOrdered := by
    obtain ⟨b, hb, heq⟩ := map_eq_ok_iff.mp h
    have hordered := hf b hb
    rwa [heq] at hordered
  unfold valueFrom at h
  -- The words, the numbers and the texts.
  iterate 6
    split at h
    · exact hmap h fun _ _ => trivial
  split at h
  · cases nested with
    | none => cases h
    | some element => exact hmap h fun _ _ => trivial
  split at h
  · cases nested with
    | none => cases h
    | some element => exact hmap h fun _ hobject => ordered_of_object hobject
  · cases h

theorem fieldsOrdered_of_valueWith {nested : Option Reader} {x : Json} {r : Left cs}
    (h : valueWith nested cs = .ok (x, r)) : x.FieldsOrdered := by
  unfold valueWith at h
  dsimp only at h
  split at h
  · cases h
  · obtain ⟨⟨y, r'⟩, hvalue, heq⟩ := map_eq_ok_iff.mp h
    cases heq
    exact fieldsOrdered_of_valueFrom hvalue

/-- **What is read from a text has its fields in order.** -/
theorem fieldsOrdered_of_parse {text : String} {x : Json} (h : parse text = .ok x) :
    x.FieldsOrdered := by
  obtain ⟨⟨y, r⟩, hvalue, hrest⟩ := bind_eq_ok_iff.mp (mapError_eq_ok_iff.mp h)
  dsimp only at hrest
  split at hrest
  · cases hrest
    exact fieldsOrdered_of_valueWith hvalue
  · cases hrest

end Json
end StoreQL
