import Mathlib.Data.List.Basic
import Mathlib.Tactic

/-
This file gives tables whose newest entry for a key hides the older ones.
-/

namespace ShadowTable

variable {Key Value : Type} [DecidableEq Key]

/-- The entries of a table, the newest first. -/
abbrev Entries (Key Value : Type) := List (Key × Value)

/-- The entry is one of the key. -/
def ofKey (key : Key) (entry : Key × Value) : Bool := entry.1 = key

def lookup (entries : Entries Key Value) (key : Key) : Option Value := (entries.find? (ofKey key)).map Prod.snd

/-- The newest entry of a key goes, and an older one becomes visible. -/
def remove (entries : Entries Key Value) (key : Key) : Entries Key Value := entries.eraseP (ofKey key)

/-- The newest entry of a key gets another value. -/
def store (key : Key) (value : Value) : Entries Key Value → Entries Key Value
  | [] => []
  | entry :: rest => if ofKey key entry then (key, value) :: rest else entry :: store key value rest

@[simp] theorem ofKey_iff {key : Key} {entry : Key × Value} : ofKey key entry = true ↔ entry.1 = key := by
  simp [ofKey]

theorem ofKey_self (key : Key) (value : Value) : ofKey key (key, value) = true := ofKey_iff.mpr rfl

@[simp] theorem lookup_nil (key : Key) : lookup ([] : Entries Key Value) key = none := rfl

theorem lookup_cons (entry : Key × Value) (rest : Entries Key Value) (key : Key) :
    lookup (entry :: rest) key = if entry.1 = key then some entry.2 else lookup rest key := by
  by_cases same : entry.1 = key
  · rw [if_pos same, lookup, List.find?_cons_of_pos (ofKey_iff.mpr same), Option.map_some]
  · rw [if_neg same, lookup, List.find?_cons_of_neg (by simpa using same), lookup]

/-- Tables whose entries are related answer with related values. -/
theorem lookup_rel {Other : Type} {R : Value → Other → Prop} {first : Entries Key Value} {second : Entries Key Other}
    (related : List.Forall₂ (fun left right => left.1 = right.1 ∧ R left.2 right.2) first second) (key : Key) :
    Option.Rel R (lookup first key) (lookup second key) := by
  induction related with
  | nil => exact .none
  | cons here later ih =>
      rw [lookup_cons, lookup_cons, ← here.1]
      split
      · exact .some here.2
      · exact ih

theorem lookup_eq_none_iff {entries : Entries Key Value} {key : Key} :
    lookup entries key = none ↔ ∀ entry ∈ entries, entry.1 ≠ key := by
  simp [lookup, ofKey]

theorem lookup_isSome_iff {entries : Entries Key Value} {key : Key} :
    (lookup entries key).isSome ↔ ∃ entry ∈ entries, entry.1 = key := by
  simp [lookup, ofKey]

/-- The visible entry of a key has no newer entry of the key before it. -/
theorem lookup_split {front rest : Entries Key Value} {key : Key} {value : Value}
    (fresh : ∀ entry ∈ front, entry.1 ≠ key) : lookup (front ++ (key, value) :: rest) key = some value := by
  induction front with
  | nil => rw [List.nil_append, lookup_cons, if_pos rfl]
  | cons entry front ih =>
      rw [List.cons_append, lookup_cons, if_neg (fresh entry List.mem_cons_self)]
      exact ih fun other member => fresh other (List.mem_cons_of_mem _ member)

theorem remove_split {front rest : Entries Key Value} {key : Key} {value : Value}
    (fresh : ∀ entry ∈ front, entry.1 ≠ key) : remove (front ++ (key, value) :: rest) key = front ++ rest := by
  rw [remove, List.eraseP_append_right]
  · rw [List.eraseP_cons_of_pos (ofKey_self key value)]
  · intro entry member
    simpa using fresh entry member

theorem store_split {front rest : Entries Key Value} {key : Key} {value old : Value}
    (fresh : ∀ entry ∈ front, entry.1 ≠ key) :
    store key value (front ++ (key, old) :: rest) = front ++ (key, value) :: rest := by
  induction front with
  | nil => rw [List.nil_append, store, if_pos (ofKey_self key old), List.nil_append]
  | cons entry front ih =>
      have other : ¬ ofKey key entry = true := by simpa using fresh entry List.mem_cons_self
      rw [List.cons_append, store, if_neg other, ih fun other member => fresh other (List.mem_cons_of_mem _ member),
        List.cons_append]

theorem remove_absent {entries : Entries Key Value} {key : Key} (absent : ∀ entry ∈ entries, entry.1 ≠ key) :
    remove entries key = entries := by
  rw [remove, List.eraseP_of_forall_not]
  intro entry member
  simpa using absent entry member

theorem store_absent {entries : Entries Key Value} {key : Key} {value : Value}
    (absent : ∀ entry ∈ entries, entry.1 ≠ key) : store key value entries = entries := by
  induction entries with
  | nil => rfl
  | cons entry rest ih =>
      have other : ¬ ofKey key entry = true := by simpa using absent entry List.mem_cons_self
      rw [store, if_neg other, ih fun other member => absent other (List.mem_cons_of_mem _ member)]

/-- A key that is looked up with success splits the entries at its visible one. -/
theorem split_of_lookup {entries : Entries Key Value} {key : Key} {value : Value}
    (found : lookup entries key = some value) :
    ∃ front rest, entries = front ++ (key, value) :: rest ∧ ∀ entry ∈ front, entry.1 ≠ key := by
  obtain ⟨entry, hit, same⟩ := Option.map_eq_some_iff.mp found
  obtain ⟨holder, front, rest, split, fresh⟩ := List.find?_eq_some_iff_append.mp hit
  refine ⟨front, rest, ?_, fun other member => by simpa [ofKey] using fresh other member⟩
  rw [split, ← same, ← ofKey_iff.mp holder]

theorem lookup_append (front rest : Entries Key Value) (key : Key) :
    lookup (front ++ rest) key = (lookup front key).or (lookup rest key) := by
  rw [lookup, List.find?_append, Option.map_or, lookup, lookup]

/-- A store shows the new value under its key and leaves the other keys alone. -/
theorem lookup_store {entries : Entries Key Value} {key : Key} {old : Value} (found : lookup entries key = some old)
    (value : Value) (other : Key) :
    lookup (store key value entries) other = if key = other then some value else lookup entries other := by
  obtain ⟨front, rest, rfl, fresh⟩ := split_of_lookup found
  rw [store_split fresh, lookup_append, lookup_append, lookup_cons, lookup_cons]
  by_cases same : key = other
  · subst same
    have hidden : lookup front key = none := lookup_eq_none_iff.mpr fresh
    simp [hidden]
  · simp [same]

theorem keys_store (key : Key) (value : Value) (entries : Entries Key Value) :
    (store key value entries).map Prod.fst = entries.map Prod.fst := by
  induction entries with
  | nil => rfl
  | cons entry rest ih =>
      rw [store]
      by_cases same : ofKey key entry
      · rw [if_pos same, List.map_cons, List.map_cons, ofKey_iff.mp same]
      · rw [if_neg same, List.map_cons, List.map_cons, ih]

/-- A removal from entries with different keys leaves no entry of the key. -/
theorem lookup_remove {entries : Entries Key Value} {key : Key} (nodup : (entries.map Prod.fst).Nodup) (other : Key) :
    lookup (remove entries key) other = if key = other then none else lookup entries other := by
  cases found : lookup entries key with
  | none =>
      rw [remove_absent (lookup_eq_none_iff.mp found)]
      by_cases same : key = other
      · rw [if_pos same, ← same, found]
      · rw [if_neg same]
  | some value =>
      obtain ⟨front, rest, rfl, fresh⟩ := split_of_lookup found
      rw [remove_split fresh, lookup_append, lookup_append, lookup_cons]
      by_cases same : key = other
      · subst same
        have hidden : lookup front key = none := lookup_eq_none_iff.mpr fresh
        have last : lookup rest key = none := by
          rw [List.map_append, List.map_cons, List.nodup_append] at nodup
          obtain ⟨gone, -⟩ := List.nodup_cons.mp nodup.2.1
          exact lookup_eq_none_iff.mpr fun entry member same => gone (List.mem_map.mpr ⟨entry, member, same⟩)
        rw [hidden, last, if_pos rfl]
        rfl
      · simp [same]

theorem nodup_remove {entries : Entries Key Value} {key : Key} (nodup : (entries.map Prod.fst).Nodup) :
    ((remove entries key).map Prod.fst).Nodup :=
  nodup.sublist (List.Sublist.map _ (List.eraseP_sublist))

end ShadowTable
