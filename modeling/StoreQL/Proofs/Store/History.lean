/-
# What a store in memory has been given

A store begins without records or with those of a document, and then records are added to its
collections, one or several at a time, while it is asked for the first records of a collection or
for their number. Whatever it is asked for, and in whatever order, the records of a collection are
those it was loaded with and, behind them, those that were added to it.

`Loaded m loaded` says what a store begins with, and `added e requests` is what requests add to the
collection `e`. Main statements: `records_perform`, what one request adds; `records_performAll`,
what any requests add, by induction on them; and `performAll_appends`, what this makes of every
answer.
-/
import StoreQL.Proofs.Store.Loading

namespace StoreQL
namespace MemoryStore

/-! ## 1. Requests -/

/-- What is asked of a store in memory. -/
inductive Request where
  | insert (entity : Entity) (record : Json)
  | extend (entity : Entity) (records : List Json)
  | fetch (entity : Entity) (limit : Nat)
  | count (entity : Entity)
deriving Repr

/-- What it answers; nothing if records were added. -/
inductive Answer where
  | done
  | records (found : List Json)
  | number (n : Nat)
deriving Repr

namespace Request

/-- The collection that is asked about or added to. -/
def entity : Request → Entity
  | .insert e _ | .extend e _ | .fetch e _ | .count e => e

/-- The records that are to be added. -/
def added : Request → List Json
  | .insert _ record => [record]
  | .extend _ records => records
  | .fetch .. | .count _ => []

/-- The answer, if these are the records of the collections. -/
def answer (records : Entity → List Json) : Request → Answer
  | .insert .. | .extend .. => .done
  | .fetch e limit => .records ((records e).take limit)
  | .count e => .number (records e).length

end Request

/-- The answer to a request, and the store afterwards. -/
def perform (m : MemoryStore) : Request → Answer × MemoryStore
  | .insert e record => (.done, m.insert e record)
  | .extend e records => (.done, m.extend e records)
  | .fetch e limit => (.records (m.fetch e limit), m)
  | .count e => (.number (m.count e), m)

/-- The answers to some requests, and the store afterwards. -/
def performAll (m : MemoryStore) : List Request → List Answer × MemoryStore
  | [] => ([], m)
  | r :: rest =>
    let (answer, m) := m.perform r
    let (answers, m) := m.performAll rest
    (answer :: answers, m)

/-- The records that some requests add to a collection, in order. -/
def added (e : Entity) (requests : List Request) : List Json :=
  (requests.filter fun r => decide (r.entity = e)).flatMap Request.added

/-- What a store begins with: nothing, or the collections of a document. -/
inductive Loaded : MemoryStore → (Entity → List Json) → Prop where
  | empty : Loaded empty fun _ => []
  | document {d : Json} {m : MemoryStore} : d.FieldsOrdered → ofDocument d = .ok m →
      Loaded m d.collection

/-! ## 2. What requests do -/

variable {m : MemoryStore} {loaded : Entity → List Json}

theorem Loaded.records_eq (h : Loaded m loaded) (e : Entity) : m.records e = loaded e := by
  cases h with
  | empty => exact records_empty e
  | document hd hm => exact ((ofDocument_eq_ok_iff hd).mp hm).2.2 e

/-- **A request adds its records to its own collection**, and nothing else. -/
theorem records_perform (m : MemoryStore) (r : Request) (e : Entity) :
    (m.perform r).2.records e = m.records e ++ added e [r] := by
  cases r with
  | insert e' record =>
    rw [perform, MemoryStore.insert, records_extend]
    by_cases h : e' = e <;> simp [added, Request.entity, Request.added, h]
  | extend e' records =>
    rw [perform, records_extend]
    by_cases h : e' = e <;> simp [added, Request.entity, Request.added, h]
  | fetch e' limit | count e' =>
    by_cases h : e' = e <;> simp [perform, added, Request.entity, Request.added, h]

theorem answer_perform (m : MemoryStore) (r : Request) :
    (m.perform r).1 = r.answer m.records := by
  cases r <;> rfl

/-- A request does not touch another collection. -/
theorem records_perform_other {r : Request} {e : Entity} (h : r.entity ≠ e) :
    (m.perform r).2.records e = m.records e := by
  rw [records_perform, added, List.filter_cons_of_neg (by simpa using h)]
  simp

theorem added_append (e : Entity) (before after : List Request) :
    added e (before ++ after) = added e before ++ added e after := by
  rw [added, List.filter_append, List.flatMap_append]
  rfl

/-- **Whatever is asked, the records of a collection are those before and those added.** -/
theorem records_performAll (m : MemoryStore) (requests : List Request) (e : Entity) :
    (m.performAll requests).2.records e = m.records e ++ added e requests := by
  induction requests generalizing m with
  | nil => exact (List.append_nil _).symm
  | cons r rest ih =>
    have hadded : added e (r :: rest) = added e [r] ++ added e rest := added_append e [r] rest
    rw [performAll, ih, records_perform, hadded, List.append_assoc]

/-- A request is answered by what was there and what was added before it. -/
theorem answer_performAll (m : MemoryStore) (before after : List Request) (r : Request) :
    (m.performAll (before ++ r :: after)).1[before.length]? =
      some (r.answer fun e => m.records e ++ added e before) := by
  induction before generalizing m with
  | nil =>
    have hnone : (fun e => m.records e ++ added e []) = m.records :=
      funext fun e => List.append_nil _
    rw [hnone, ← answer_perform]
    rfl
  | cons r' before ih =>
    have hbefore : (fun e => m.records e ++ added e (r' :: before)) =
        fun e => (m.perform r').2.records e ++ added e before := by
      funext e
      rw [records_perform, List.append_assoc, ← added_append]
      rfl
    rw [hbefore, ← ih]
    rfl

theorem length_answers (m : MemoryStore) (requests : List Request) :
    (m.performAll requests).1.length = requests.length := by
  induction requests generalizing m with
  | nil => rfl
  | cons r rest ih => exact congrArg (· + 1) (ih _)

/-! ## 3. What follows for a store -/

/-- What a store answers that has been given these records, and what changes them. -/
structure Keeps (m : MemoryStore) (given : Entity → List Json) : Prop where
  count_eq : ∀ e, m.toDataStore.count e = .ok (given e).length
  fetch_eq : ∀ e limit, m.toDataStore.fetch e limit = .ok ((given e).take limit)
  fetch_prefix : ∀ e limit limit', limit ≤ limit' → m.fetch e limit <+: m.fetch e limit'
  length_fetch : ∀ e limit, (m.fetch e limit).length = min limit (m.count e)
  others : ∀ r e, Request.entity r ≠ e →
    (m.perform r).2.count e = m.count e ∧
      ∀ limit, (m.perform r).2.fetch e limit = m.fetch e limit
  asking : ∀ e limit, (m.perform (.fetch e limit)).2 = m ∧ (m.perform (.count e)).2 = m

theorem keeps_of_records {given : Entity → List Json} (h : ∀ e, m.records e = given e) :
    m.Keeps given where
  count_eq e := by rw [← h]; rfl
  fetch_eq e limit := by rw [← h]; rfl
  fetch_prefix e limit limit' hle := List.take_prefix_take_left hle
  length_fetch e limit := List.length_take
  others r e hne := by
    have hsame : (m.perform r).2.records e = m.records e := records_perform_other hne
    refine ⟨?_, fun limit => ?_⟩
    · rw [count, hsame, count]
    · rw [fetch, hsame, fetch]
  asking e limit := ⟨rfl, rfl⟩

/-- **A store in memory only ever appends.** Whatever is asked of it, in whatever order, a
collection has the records that it was loaded with and, behind them, those that were added to it, in
the order in which they were added; and every request was answered by what there was at its
moment. -/
theorem performAll_appends (hloaded : Loaded m loaded) (requests : List Request) :
    (m.performAll requests).2.Keeps (fun e => loaded e ++ added e requests) ∧
      (m.performAll requests).1.length = requests.length ∧
      ∀ before r after, requests = before ++ r :: after →
        (m.performAll requests).1[before.length]? =
          some (r.answer fun e => loaded e ++ added e before) := by
  refine ⟨keeps_of_records fun e => ?_, length_answers m requests, ?_⟩
  · rw [records_performAll, hloaded.records_eq]
  · rintro before r after rfl
    have hrecords : m.records = loaded := funext hloaded.records_eq
    rw [answer_performAll, hrecords]

/-- One order is loaded and one is added, and neither the stores nor the questions between change
that. -/
theorem performAll_appends_orders :
    let d := Json.obj (Dictionary.ofEntries [("widgets", .null), ("orders", .arr [.null])])
    let m : MemoryStore := ⟨[], [.null], [], []⟩
    let requests : List Request :=
      [.count .orders, .extend .stores [.null], .insert .orders (.bool true), .fetch .orders 9]
    Loaded m d.collection ∧
      (m.performAll requests).1[3]? = some (.records [.null, .bool true]) ∧
      (m.performAll requests).2.toDataStore.count .orders = .ok 2 := by
  intro d m requests
  have hloaded : Loaded m d.collection := .document (Dictionary.ordered_ofEntries _) rfl
  obtain ⟨hkeeps, -, hanswer⟩ := performAll_appends hloaded requests
  refine ⟨hloaded, ?_, hkeeps.count_eq .orders⟩
  exact hanswer [.count .orders, .extend .stores [.null], .insert .orders (.bool true)]
    (.fetch .orders 9) [] rfl

end MemoryStore
end StoreQL
