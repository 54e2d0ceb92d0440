/-!
# Directories

Values by key, in the order in which the keys were first set.

Main statements: what was set for a key is what it has (`get?_set_self`), and no other key is touched
(`get?_set_of_ne`).
-/
namespace FramedLink

/-- Values by key.  A key is entered once and keeps its place. -/
structure Directory (κ α : Type) where
  entries : List (κ × α) := []
deriving DecidableEq

namespace Directory

variable {κ α : Type} [DecidableEq κ]

def find (key : κ) : List (κ × α) → Option α
  | [] => none
  | (k, a) :: rest => if k = key then some a else find key rest

/-- Entries with a new value for a key, behind the others if the key is new. -/
def place (key : κ) (value : α) : List (κ × α) → List (κ × α)
  | [] => [(key, value)]
  | (k, a) :: rest => if k = key then (k, value) :: rest else (k, a) :: place key value rest

def get? (directory : Directory κ α) (key : κ) : Option α := find key directory.entries

def set (directory : Directory κ α) (key : κ) (value : α) : Directory κ α := ⟨place key value directory.entries⟩

theorem find_place_self (key : κ) (value : α) :
    ∀ entries : List (κ × α), find key (place key value entries) = some value
  | [] => by simp [place, find]
  | (k, a) :: rest => by
    by_cases h : k = key
    · simp [place, find, h]
    · simp [place, find, h, find_place_self key value rest]

theorem find_place_of_ne {key other : κ} (value : α) (h : key ≠ other) :
    ∀ entries : List (κ × α), find other (place key value entries) = find other entries
  | [] => by simp [place, find, h]
  | (k, a) :: rest => by
    by_cases hk : k = key
    · subst hk; simp [place, find, h]
    · by_cases ho : k = other
      · subst ho; simp [place, find, hk]
      · simp [place, find, hk, ho, find_place_of_ne value h rest]

theorem place_of_find {key : κ} {value : α} :
    ∀ {entries : List (κ × α)}, find key entries = some value → place key value entries = entries
  | [], h => by cases h
  | (k, a) :: rest, h => by
    by_cases hk : k = key
    · simp_all [place, find]
    · rw [find, if_neg hk] at h
      rw [place, if_neg hk, place_of_find h]

/-- **A key has what was set for it last.** -/
@[simp] theorem get?_set_self (directory : Directory κ α) (key : κ) (value : α) :
    (directory.set key value).get? key = some value :=
  find_place_self key value directory.entries

theorem get?_set_of_ne (directory : Directory κ α) {key other : κ} (value : α) (h : key ≠ other) :
    (directory.set key value).get? other = directory.get? other :=
  find_place_of_ne value h directory.entries

theorem place_place (key : κ) (first second : α) :
    ∀ entries : List (κ × α), place key second (place key first entries) = place key second entries
  | [] => by simp [place]
  | (k, a) :: rest => by
    by_cases h : k = key
    · simp [place, h]
    · simp [place, h, place_place key first second rest]

theorem place_comm {key other : κ} (value otherValue : α) (h : key ≠ other) :
    ∀ {entries : List (κ × α)}, (find key entries).isSome = true →
      place other otherValue (place key value entries) = place key value (place other otherValue entries)
  | [], hkey => by cases hkey
  | (k, a) :: rest, hkey => by
    by_cases hk : k = key
    · subst hk
      simp [place, h]
    · rw [find, if_neg hk] at hkey
      by_cases ho : k = other
      · simp [place, ho, h.symm]
      · simp [place, hk, ho, place_comm value otherValue h hkey]

/-- Setting what is there already does nothing. -/
theorem set_of_get? {directory : Directory κ α} {key : κ} {value : α} (h : directory.get? key = some value) :
    directory.set key value = directory := by
  rw [set, place_of_find h]

/-- Only the last value that was set for a key counts. -/
theorem set_set (directory : Directory κ α) (key : κ) (first second : α) :
    (directory.set key first).set key second = directory.set key second := by
  rw [set, set, set, place_place]

/-- A key that is there already keeps its place, so setting it commutes with setting another. -/
theorem set_comm {directory : Directory κ α} {key other : κ} (value otherValue : α) (h : key ≠ other)
    (hkey : (directory.get? key).isSome = true) :
    (directory.set key value).set other otherValue = (directory.set other otherValue).set key value := by
  rw [set, set, set, set, place_comm value otherValue h hkey]

end Directory
end FramedLink
