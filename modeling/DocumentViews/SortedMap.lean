
set_option autoImplicit false

namespace DocumentViews

class KeyOrder (κ : Type) [LT κ] : Prop where
  trans : ∀ {a b c : κ}, a < b → b < c → a < c
  irrefl : ∀ {a : κ}, ¬ a < a
  total : ∀ {a b : κ}, ¬ a < b → a ≠ b → b < a

instance : KeyOrder String where
  trans := String.lt_trans
  irrefl := String.lt_irrefl _
  total notLess different := String.not_le.mp fun le =>
    different (String.le_antisymm le (String.not_lt.mp notLess))

instance : KeyOrder UInt32 where
  trans := UInt32.lt_trans
  irrefl := UInt32.lt_irrefl _
  total notLess different := UInt32.lt_of_le_of_ne (UInt32.not_lt.mp notLess) (Ne.symm different)

structure SortedMap (κ : Type) [LT κ] (α : Type) where
  entries : List (κ × α)
  ascending : entries.Pairwise fun left right => left.1 < right.1

namespace SortedMap

variable {κ : Type} [LT κ] [DecidableEq κ] [DecidableLT κ] {α β : Type}

def insertEntry (key : κ) (value : α) : List (κ × α) → List (κ × α)
  | [] => [(key, value)]
  | (other, old) :: rest =>
      if key < other then (key, value) :: (other, old) :: rest
      else if key = other then (key, value) :: rest
      else (other, old) :: insertEntry key value rest

theorem mem_insertEntry {key : κ} {value : α} {entries : List (κ × α)} {entry : κ × α}
    (present : entry ∈ insertEntry key value entries) : entry = (key, value) ∨ entry ∈ entries := by
  induction entries with
  | nil => simpa [insertEntry] using present
  | cons head rest ih =>
      obtain ⟨other, old⟩ := head
      simp only [insertEntry] at present
      split at present
      · simpa using present
      · split at present
        · rcases List.mem_cons.mp present with same | there
          · exact Or.inl same
          · exact Or.inr (List.mem_cons_of_mem _ there)
        · rcases List.mem_cons.mp present with same | there
          · exact Or.inr (by simp [same])
          · exact (ih there).imp_right (List.mem_cons_of_mem _)

variable [KeyOrder κ]

theorem ascending_insertEntry (key : κ) (value : α) {entries : List (κ × α)}
    (ascending : entries.Pairwise fun left right => left.1 < right.1) :
    (insertEntry key value entries).Pairwise fun left right => left.1 < right.1 := by
  induction entries with
  | nil => simp [insertEntry]
  | cons head rest ih =>
      obtain ⟨other, old⟩ := head
      have above := (List.pairwise_cons.mp ascending).1
      have tail := (List.pairwise_cons.mp ascending).2
      simp only [insertEntry]
      split
      next less =>
        refine List.pairwise_cons.mpr ⟨fun entry present => ?_, ascending⟩
        rcases List.mem_cons.mp present with same | there
        · simpa [same] using less
        · exact KeyOrder.trans less (above entry there)
      next notLess =>
        split
        next same =>
          refine List.pairwise_cons.mpr ⟨fun entry present => ?_, tail⟩
          simpa [same] using above entry present
        next different =>
          refine List.pairwise_cons.mpr ⟨fun entry present => ?_, ih tail⟩
          rcases mem_insertEntry present with same | there
          · simpa [same] using KeyOrder.total notLess different
          · exact above entry there

def empty : SortedMap κ α := ⟨[], List.Pairwise.nil⟩

instance : Inhabited (SortedMap κ α) := ⟨empty⟩

def insert (key : κ) (value : α) (map : SortedMap κ α) : SortedMap κ α :=
  ⟨insertEntry key value map.entries, ascending_insertEntry key value map.ascending⟩

def erase (key : κ) (map : SortedMap κ α) : SortedMap κ α :=
  ⟨map.entries.filter fun entry => entry.1 ≠ key, map.ascending.filter _⟩

def get? (map : SortedMap κ α) (key : κ) : Option α :=
  (map.entries.find? fun entry => entry.1 = key).map Prod.snd

def contains (map : SortedMap κ α) (key : κ) : Bool := (map.get? key).isSome

def ofList (entries : List (κ × α)) : SortedMap κ α :=
  entries.foldl (fun map entry => map.insert entry.1 entry.2) empty

def keys (map : SortedMap κ α) : List κ := map.entries.map Prod.fst

def values (map : SortedMap κ α) : List α := map.entries.map Prod.snd

def size (map : SortedMap κ α) : Nat := map.entries.length

def mapValues (change : α → β) (map : SortedMap κ α) : SortedMap κ β :=
  ⟨map.entries.map fun entry => (entry.1, change entry.2), by
    simpa [List.pairwise_map] using map.ascending⟩

instance [DecidableEq α] : DecidableEq (SortedMap κ α) := fun left right =>
  decidable_of_iff (left.entries = right.entries) ⟨by cases left; cases right; simp, by rintro rfl; rfl⟩

end SortedMap

abbrev SortedSet (κ : Type) [LT κ] : Type := SortedMap κ Unit

namespace SortedSet

variable {κ : Type} [LT κ] [DecidableEq κ] [DecidableLT κ] [KeyOrder κ]

def ofList (keys : List κ) : SortedSet κ := SortedMap.ofList (keys.map (·, ()))

end SortedSet

abbrev TextMap (α : Type) : Type := SortedMap String α

abbrev TextSet : Type := SortedSet String

end DocumentViews
