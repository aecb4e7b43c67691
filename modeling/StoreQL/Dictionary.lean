/-
# Dictionaries

Entries under text keys, kept in ascending order of their keys: by code point, which is also the
order of the keys' encoded bytes. Storing under a key that is present replaces its value, so a
dictionary that is built by `insert` has each key once, and two built from the same final values
are equal whatever the order in which the values came.
-/
namespace StoreQL

/-- Values under text keys. -/
abbrev Dictionary (α : Type u) := List (String × α)

namespace Dictionary

variable {α : Type u}

/-- The value under `key`. -/
def find? (key : String) : Dictionary α → Option α
  | [] => none
  | (k, v) :: rest => if k = key then some v else find? key rest

/-- Store `value` under `key`. -/
def insert (key : String) (value : α) : Dictionary α → Dictionary α
  | [] => [(key, value)]
  | (k, v) :: rest =>
    if key < k then (key, value) :: (k, v) :: rest
    else if key = k then (key, value) :: rest
    else (k, v) :: insert key value rest

/-- The dictionary of some entries, of which a later one wins over an earlier one. -/
def ofEntries (entries : List (String × α)) : Dictionary α :=
  entries.foldl (fun d e => d.insert e.1 e.2) []

/-- What was stored is found. -/
theorem find?_insert_self (key : String) (value : α) :
    ∀ d : Dictionary α, find? key (insert key value d) = some value
  | [] => by simp [insert, find?]
  | (k, v) :: rest => by
    unfold insert
    split
    · simp [find?]
    split
    · simp [find?]
    · rename_i h
      have ih := find?_insert_self key value rest
      simp [find?, Ne.symm h, ih]

/-- Storing under one key does not touch another. -/
theorem find?_insert_of_ne {key key' : String} (h : key' ≠ key) (value : α) :
    ∀ d : Dictionary α, find? key' (insert key value d) = find? key' d
  | [] => by simp [insert, find?, Ne.symm h]
  | (k, v) :: rest => by
    have ih := find?_insert_of_ne h value rest
    unfold insert
    split
    · simp [find?, Ne.symm h]
    split
    · rename_i hk
      subst hk
      simp [find?, Ne.symm h]
    · simp [find?, ih]

end Dictionary
end StoreQL
