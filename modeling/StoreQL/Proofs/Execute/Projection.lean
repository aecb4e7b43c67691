/-
# The laws of projection

A path is some names with points between them, and at least one name; a name may be empty. The
names lead into a record, each to a field of the value before it. `Gives x names v` says that they
lead from `x` to `v`, where `v` is null if a value on the way lacks the field or is no object.
`Wraps names v y` says that `y` is `v` inside objects of one field each, one for each name.

A projection wraps what the path gives, so it answers the path as the record did, and has nothing
else left in it.

Main statements: `parts_iff`, that a path has exactly one list of names; `gives_iff_wraps`, that a
projection wraps what the path gives; `Question.answer_select`, that a selection of a field gives as
many records as a selection of whole records, in the same order; and `project_laws`, which puts
these together.
-/
import Mathlib.Data.List.Basic
import StoreQL.Proofs.Execute.Reading

namespace StoreQL

/-! ## 1. Paths and their names -/

/-- The path consists of the names, with points between them. -/
structure Parts (path : String) (names : List String) : Prop where
  ne_nil : names ≠ []
  no_point : ∀ name ∈ names, '.' ∉ name.toList
  joined : ".".intercalate names = path

/-- What a list is split at does not stand in the pieces. -/
theorem notMem_of_mem_splitOn {c : Char} {cs piece : List Char} (h : piece ∈ cs.splitOn c) :
    c ∉ piece := by
  induction cs generalizing piece with
  | nil =>
    rw [List.splitOn_nil, List.mem_singleton] at h
    subst h
    exact List.not_mem_nil
  | cons d cs ih =>
    rw [List.splitOn, List.splitOnP_cons_eq_if_modifyHead, ← List.splitOn] at h
    obtain ⟨first, rest, hpieces⟩ := List.exists_cons_of_ne_nil (List.splitOn_ne_nil c cs)
    rw [hpieces] at h ih
    split at h
    · rcases List.mem_cons.mp h with rfl | h
      · exact List.not_mem_nil
      · exact ih h
    · rename_i hd
      rw [List.modifyHead_cons] at h
      rcases List.mem_cons.mp h with rfl | h
      · intro hc
        rcases List.mem_cons.mp hc with rfl | hc
        · exact hd (beq_self_eq_true c)
        · exact ih List.mem_cons_self hc
      · exact ih (List.mem_cons_of_mem _ h)

/-- **A path has one list of names.** -/
theorem parts_iff {path : String} {names : List String} :
    Parts path names ↔ names = pathNames path := by
  have hback (pieces : List (List Char)) :
      (pieces.map String.ofList).map String.toList = pieces := by
    simp
  constructor
  · rintro ⟨hne, hpoint, rfl⟩
    have hpieces : (".".intercalate names).toList.splitOn '.' = names.map String.toList := by
      rw [String.toList_intercalate]
      refine List.splitOn_intercalate '.' ?_ (by simpa using hne)
      simpa using hpoint
    rw [pathNames, hpieces, List.map_map]
    simp
  · rintro rfl
    refine ⟨?_, ?_, ?_⟩
    · simp [pathNames]
    · intro name hname
      obtain ⟨piece, hpiece, rfl⟩ := List.mem_map.mp hname
      rw [String.toList_ofList]
      exact notMem_of_mem_splitOn hpiece
    · rw [← String.toList_inj, String.toList_intercalate, pathNames, hback]
      exact List.intercalate_splitOn '.'

/-! ## 2. What a path gives -/

namespace Json

/-- The names lead from a value to another, or to null if a field on the way is missing or a value
on the way is no object. -/
inductive Gives : Json → List String → Json → Prop where
  | here (x : Json) : Gives x [] x
  | field {fields : List (String × Json)} {name : String} {rest : List String} {y v : Json} :
      Dictionary.find? name fields = some y → Gives y rest v →
      Gives (.obj fields) (name :: rest) v
  | missing {fields : List (String × Json)} {name : String} {rest : List String} :
      Dictionary.find? name fields = none → Gives (.obj fields) (name :: rest) .null
  | noObject {x : Json} {name : String} {rest : List String} : (∀ fields, x ≠ .obj fields) →
      Gives x (name :: rest) .null

/-- `y` is the value inside objects of one field each, the outermost under the first name. -/
inductive Wraps : List String → Json → Json → Prop where
  | here (v : Json) : Wraps [] v v
  | field {name : String} {rest : List String} {v y : Json} : Wraps rest v y →
      Wraps (name :: rest) v (.obj [(name, y)])

variable {x y v : Json} {names : List String}

theorem gives_iff : Gives x names v ↔ v = (x.descend? names).getD .null := by
  constructor
  · intro h
    induction h with
    | here x => rfl
    | field hfind _ ih => rw [ih, descend?, field?, hfind, Option.bind_some]
    | missing hfind => rw [descend?, field?, hfind, Option.bind_none, Option.getD_none]
    | @noObject x name rest hx =>
      cases x with
      | obj fields => exact absurd rfl (hx fields)
      | _ => rfl
  · rintro rfl
    induction names generalizing x with
    | nil => exact .here x
    | cons name rest ih =>
      cases x with
      | obj fields =>
        rw [descend?, field?]
        cases hfind : Dictionary.find? name fields with
        | none => exact .missing hfind
        | some y => exact .field hfind ih
      | _ => exact .noObject nofun

theorem wraps_iff : Wraps names v y ↔ y = nest names v := by
  constructor
  · intro h
    induction h with
    | here v => rfl
    | field _ ih => rw [ih, nest]
  · rintro rfl
    induction names with
    | nil => exact .here v
    | cons name rest ih => exact .field ih

/-- The names lead back to what they were wrapped around. -/
theorem descend?_nest (names : List String) (v : Json) :
    (nest names v).descend? names = some v := by
  induction names with
  | nil => rfl
  | cons name rest ih => simp [nest, descend?, field?, Dictionary.find?, ih]

theorem nest_inj {w : Json} (h : nest names v = nest names w) : v = w := by
  have hback := congrArg (fun y => y.descend? names) h
  simpa only [descend?_nest, Option.some.injEq] using hback

/-! ## 3. Projections -/

section Project

variable {r r' : Json} {path : String}

/-- **A projection wraps what the path gives**, and that only. -/
theorem gives_iff_wraps (hnames : Parts path names) :
    Gives r names v ↔ Wraps names v (r.project path) := by
  rw [gives_iff, wraps_iff, project, ← parts_iff.mp hnames]
  constructor
  · rintro rfl
    rfl
  · intro h
    exact (nest_inj h).symm

/-- **The path gives of a projection what it gives of the record.** -/
theorem gives_project_iff (hnames : Parts path names) :
    Gives (r.project path) names v ↔ Gives r names v := by
  rw [gives_iff, gives_iff, project, ← parts_iff.mp hnames, descend?_nest, Option.getD_some]

/-- Two projections are the same if the path gives the same of both records. -/
theorem project_eq_iff (hnames : Parts path names) :
    r.project path = r'.project path ↔ ∀ v, Gives r names v ↔ Gives r' names v := by
  constructor
  · intro h v
    rw [← gives_project_iff hnames, h, gives_project_iff hnames]
  · intro h
    have hgives : Gives r' names ((r.descend? names).getD .null) := (h _).mp (gives_iff.mpr rfl)
    rw [project, project, ← parts_iff.mp hnames, gives_iff.mp hgives]

/-- **A projection is left as it is by the same projection.** -/
theorem project_project (r : Json) (path : String) :
    (r.project path).project path = r.project path :=
  (project_eq_iff (parts_iff.mpr rfl)).mpr fun _ => gives_project_iff (parts_iff.mpr rfl)

end Project

end Json

/-! ## 4. Selections -/

/-- The outcome with each record reduced to the value at a path. -/
def QueryResult.projected (path : String) (r : QueryResult) : QueryResult :=
  { r with records := r.records.map fun record => record.project path }

/-- **A selection of a field** gives what a selection of whole records gives, each record
projected. -/
theorem Question.answer_select {path : String} (hpath : path ≠ "*") (source : String)
    (store : DataStore) (limit : Nat) :
    (Question.select path source).answer store limit =
      ((Question.select "*" source).answer store limit).map (QueryResult.projected path) := by
  simp only [answer, selectRecords, if_neg hpath, if_pos]
  cases (loadCollection store limit source).mapError ExecutionError.store <;> rfl

/-- An accepted query answers the question that it begins with. -/
theorem executeQuery_of_heads {query : String} (haccepted : validateQuery query = .ok ())
    {q : Question} (hq : q.Heads (tokenize query)) (store : DataStore) (limit : Nat) :
    executeQuery store limit query = (q.answer store limit).mapError .execution := by
  obtain ⟨s, hs⟩ := validateQuery_eq_ok_iff.mp haccepted
  rw [executeQuery_of_ok hs, s.answer_question, hq.unique (parseStatement_heads hs)]

/-- **The laws of projection.** A path has one list of names. What they give of a record, the
projection has inside one object for each name, and nothing else; so the path gives the same of
both, a second projection changes nothing, and records of which it gives the same are projected
alike. A selection of a field, be it a tree or a query, gives the records of the selection of whole
records, as many and in their order, each projected. -/
theorem project_laws (path : String) :
    ∃ names, Parts path names ∧ (∀ names', Parts path names' → names' = names) ∧
      (∀ r : Json, ∃ v, r.Gives names v ∧ ∀ v', r.Gives names v' → v' = v) ∧
      (∀ r v : Json, r.Gives names v ↔ Json.Wraps names v (r.project path)) ∧
      (∀ r v : Json, (r.project path).Gives names v ↔ r.Gives names v) ∧
      (∀ r : Json, (r.project path).project path = r.project path) ∧
      (∀ r r' : Json, r.project path = r'.project path ↔
        ∀ v, r.Gives names v ↔ r'.Gives names v) ∧
      (path ≠ "*" → ∀ source store limit,
        (∀ t t', Reads t (.asks (.select path source)) → Reads t' (.asks (.select "*" source)) →
          executeTree store limit t = (executeTree store limit t').map (·.projected path)) ∧
        ∀ query query', validateQuery query = .ok () → validateQuery query' = .ok () →
          (Question.select path source).Heads (tokenize query) →
          (Question.select "*" source).Heads (tokenize query') →
          executeQuery store limit query =
            (executeQuery store limit query').map (·.projected path)) := by
  have hnames : Parts path (pathNames path) := parts_iff.mpr rfl
  refine ⟨pathNames path, hnames, fun _ => parts_iff.mp, fun r => ?_, fun r v => ?_, fun r v => ?_,
    fun r => ?_, fun r r' => ?_, fun hpath source store limit => ⟨?_, ?_⟩⟩
  · exact ⟨_, Json.gives_iff.mpr rfl, fun _ => Json.gives_iff.mp⟩
  · exact Json.gives_iff_wraps hnames
  · exact Json.gives_project_iff hnames
  · exact r.project_project path
  · exact Json.project_eq_iff hnames
  · intro t t' ht ht'
    rw [ht.execute, ht'.execute]
    exact Question.answer_select hpath source store limit
  · intro query query' haccepted haccepted' hq hq'
    rw [executeQuery_of_heads haccepted hq, executeQuery_of_heads haccepted' hq',
      Question.answer_select hpath, mapError_map]

/-- Of two products the one has a supplier without a name, and the other is no object. -/
theorem project_laws_supplier :
    let m : MemoryStore :=
      ⟨[.obj [("name", .str "mug"), ("supplier", .obj [("since", .null)])], .bool true], [], [], []⟩
    validateQuery "SELECT supplier.name FROM products" = .ok () ∧
      validateQuery "SELECT * FROM products" = .ok () ∧
      executeQuery m.toDataStore 9 "SELECT supplier.name FROM products" =
        (executeQuery m.toDataStore 9 "SELECT * FROM products").map (·.projected "supplier.name") ∧
      Json.Wraps ["supplier", "name"] .null (Json.project (.bool true) "supplier.name") := by
  intro m
  have hfield : parseStatement "SELECT supplier.name FROM products" =
      .ok (.select (.field ⟨"supplier", some "name"⟩) "products" false none none) := by
    decide +kernel
  have hwhole : parseStatement "SELECT * FROM products" =
      .ok (.select .whole "products" false none none) := by decide +kernel
  have haccepted := validateQuery_eq_ok_iff.mpr ⟨_, hfield⟩
  have haccepted' := validateQuery_eq_ok_iff.mpr ⟨_, hwhole⟩
  obtain ⟨names, -, hunique, -, hwraps, -, -, -, hselect⟩ := project_laws "supplier.name"
  have hnames : Parts "supplier.name" ["supplier", "name"] :=
    ⟨nofun, by decide +kernel, by decide +kernel⟩
  obtain rfl := hunique _ hnames
  refine ⟨haccepted, haccepted', ?_, (hwraps _ _).mp (.noObject nofun)⟩
  exact (hselect (by decide) "products" m.toDataStore 9).2 _ _ haccepted haccepted'
    (parseStatement_heads hfield) (parseStatement_heads hwhole)

end StoreQL
