import DocumentViews.SortedMap

set_option autoImplicit false

namespace DocumentViews.SortedMap

variable {κ : Type} [LT κ] {α β : Type}

theorem eq_of_entries {left right : SortedMap κ α} (same : left.entries = right.entries) : left = right := by
  cases left
  cases right
  simpa using same

section Lookup

variable [DecidableEq κ]

@[simp] theorem get_empty (query : κ) : (empty : SortedMap κ α).get? query = none := rfl

@[simp] theorem get_erase (map : SortedMap κ α) (key query : κ) :
    (map.erase key).get? query = if query = key then none else map.get? query := by
  rw [get?, erase, List.find?_filter, get?]
  by_cases hit : query = key
  · subst query
    rw [if_pos rfl, Option.map_eq_none_iff, List.find?_eq_none]
    intro entry _ taken
    simp_all
  · rw [if_neg hit]
    congr 2
    funext entry
    by_cases here : entry.1 = query
    · simp [here, hit]
    · simp [here]

@[simp] theorem get_map_values (map : SortedMap κ α) (change : α → β) (query : κ) :
    (map.mapValues change).get? query = (map.get? query).map change := by
  rw [get?, mapValues, List.find?_map, Option.map_map, get?, Option.map_map]
  rfl

theorem erase_keeps {map : SortedMap κ α} {holds : κ → α → Prop}
    (before : ∀ key value, map.get? key = some value → holds key value) {key query : κ} {value : α}
    (found : (map.erase key).get? query = some value) : holds query value := by
  rw [get_erase] at found
  split at found
  · cases found
  · exact before query value found

variable [DecidableLT κ]

theorem find_insert_entry (key query : κ) (value : α) (entries : List (κ × α)) :
    (insertEntry key value entries).find? (fun entry => entry.1 = query) =
      if query = key then some (key, value) else entries.find? fun entry => entry.1 = query := by
  induction entries with
  | nil => by_cases hit : query = key <;> simp [insertEntry, hit, Ne.symm]
  | cons head rest ih =>
      obtain ⟨other, old⟩ := head
      by_cases less : key < other
      · by_cases hit : query = key <;> simp [insertEntry, less, hit, Ne.symm]
      · by_cases same : key = other
        · subst other
          by_cases hit : query = key <;> simp [insertEntry, less, hit, Ne.symm]
        · rw [insertEntry, if_neg less, if_neg same, List.find?_cons, ih, List.find?_cons]
          by_cases here : other = query
          · subst query
            simp [Ne.symm same]
          · simp [here]

@[simp] theorem get_insert [KeyOrder κ] (map : SortedMap κ α) (key query : κ) (value : α) :
    (map.insert key value).get? query = if query = key then some value else map.get? query := by
  rw [get?, insert, find_insert_entry]
  by_cases hit : query = key <;> simp [hit, get?]

theorem insert_keeps [KeyOrder κ] {map : SortedMap κ α} {holds : κ → α → Prop}
    (before : ∀ key value, map.get? key = some value → holds key value) {key query : κ} {fresh value : α}
    (found : (map.insert key fresh).get? query = some value) (freshHolds : holds key fresh) : holds query value := by
  rw [get_insert] at found
  split at found
  next same =>
    subst same
    cases found
    exact freshHolds
  next => exact before query value found

theorem contains_insert [KeyOrder κ] {map : SortedMap κ α} {query : κ} (present : map.contains query = true) (key : κ)
    (value : α) : (map.insert key value).contains query = true := by
  rw [contains, get_insert]
  split
  · rfl
  · exact present

theorem insert_entry_last {key : κ} (value : α) {entries : List (κ × α)} [KeyOrder κ]
    (below : ∀ entry ∈ entries, entry.1 < key) : insertEntry key value entries = entries ++ [(key, value)] := by
  induction entries with
  | nil => rfl
  | cons entry rest ih =>
      obtain ⟨other, old⟩ := entry
      have less : other < key := below (other, old) List.mem_cons_self
      have notLess : ¬ key < other := fun more => KeyOrder.irrefl (KeyOrder.trans less more)
      have different : ¬ key = other := by
        rintro rfl
        exact KeyOrder.irrefl less
      rw [insertEntry, if_neg notLess, if_neg different, ih fun entry present => below entry (List.mem_cons_of_mem _ present),
        List.cons_append]

theorem insert_all_entries [KeyOrder κ] {later : List (κ × α)} {map : SortedMap κ α}
    (ascending : (map.entries ++ later).Pairwise fun left right => left.1 < right.1) :
    (later.foldl (fun map entry => map.insert entry.1 entry.2) map).entries = map.entries ++ later := by
  induction later generalizing map with
  | nil => rw [List.foldl_nil, List.append_nil]
  | cons entry later ih =>
      have below : ∀ earlier ∈ map.entries, earlier.1 < entry.1 := fun earlier present =>
        (List.pairwise_append.mp ascending).2.2 earlier present entry List.mem_cons_self
      have inserted : (map.insert entry.1 entry.2).entries = map.entries ++ [entry] := insert_entry_last entry.2 below
      rw [List.foldl_cons, ih, inserted, List.append_assoc, List.singleton_append]
      rwa [inserted, List.append_assoc, List.singleton_append]

theorem ofList_entries [KeyOrder κ] (map : SortedMap κ α) : ofList map.entries = map :=
  eq_of_entries (insert_all_entries map.ascending)

end Lookup

theorem keys_ascending (map : SortedMap κ α) : map.keys.Pairwise fun left right => left < right := by
  rw [keys, List.pairwise_map]
  exact map.ascending

theorem eq_of_ascending [KeyOrder κ] {left right : List κ} (leftAscending : left.Pairwise fun one other => one < other)
    (rightAscending : right.Pairwise fun one other => one < other) (members : ∀ key, key ∈ left ↔ key ∈ right) :
    left = right := by
  have distinct : ∀ {keys : List κ}, (keys.Pairwise fun one other => one < other) → keys.Nodup := by
    intro keys ascending
    apply ascending.imp
    rintro one other less rfl
    exact KeyOrder.irrefl less
  refine List.Perm.eq_of_pairwise ?_ leftAscending rightAscending
    ((List.perm_ext_iff_of_nodup (distinct leftAscending) (distinct rightAscending)).mpr members)
  intro one other _ _ less more
  exact (KeyOrder.irrefl (KeyOrder.trans less more)).elim

variable [DecidableEq κ] [KeyOrder κ]

theorem mem_entries_iff (map : SortedMap κ α) (key : κ) (value : α) :
    (key, value) ∈ map.entries ↔ map.get? key = some value := by
  obtain ⟨entries, ascending⟩ := map
  simp only [get?]
  induction entries with
  | nil => simp
  | cons head rest ih =>
      obtain ⟨other, old⟩ := head
      obtain ⟨above, tail⟩ := List.pairwise_cons.mp ascending
      rw [List.mem_cons, List.find?_cons]
      by_cases here : other = key
      · subst other
        have absent : (key, value) ∉ rest := fun later => KeyOrder.irrefl (above (key, value) later)
        simp [absent, eq_comm]
      · simp [here, Ne.symm here, ih tail]

theorem mem_keys_iff (map : SortedMap κ α) (key : κ) : key ∈ map.keys ↔ (map.get? key).isSome := by
  rw [keys, List.mem_map, Option.isSome_iff_exists]
  constructor
  · rintro ⟨⟨found, value⟩, present, rfl⟩
    exact ⟨value, (mem_entries_iff map _ _).mp present⟩
  · rintro ⟨value, found⟩
    exact ⟨(key, value), (mem_entries_iff map key value).mpr found, rfl⟩

theorem mem_keys_insert [DecidableLT κ] {map : SortedMap κ α} {key query : κ} {value : α} :
    query ∈ (map.insert key value).keys ↔ query = key ∨ query ∈ map.keys := by
  rw [mem_keys_iff, mem_keys_iff, get_insert]
  by_cases same : query = key <;> simp [same]

theorem mem_keys_ofList [DecidableLT κ] {list : List (κ × α)} {query : κ} :
    query ∈ (ofList list).keys ↔ query ∈ list.map Prod.fst := by
  have onward : ∀ map : SortedMap κ α, query ∈ (list.foldl (fun map entry => map.insert entry.1 entry.2) map).keys ↔
      query ∈ map.keys ∨ query ∈ list.map Prod.fst := by
    induction list with
    | nil => simp
    | cons entry rest ih =>
        intro map
        rw [List.foldl_cons, ih, mem_keys_insert, List.map_cons, List.mem_cons, or_assoc, or_left_comm]
  rw [ofList, onward]
  exact or_iff_right (List.not_mem_nil (a := query))

theorem keys_eq_of_get {left : SortedMap κ α} {right : SortedMap κ β}
    (alike : ∀ key, (left.get? key).isSome = (right.get? key).isSome) : left.keys = right.keys := by
  apply eq_of_ascending left.keys_ascending right.keys_ascending
  intro key
  rw [mem_keys_iff, mem_keys_iff, alike]

theorem eq_of_get {left right : SortedMap κ α} (alike : ∀ key, left.get? key = right.get? key) : left = right := by
  have distinct : ∀ map : SortedMap κ α, map.entries.Nodup := by
    intro map
    apply map.ascending.imp
    rintro one other less rfl
    exact KeyOrder.irrefl less
  have members : left.entries.Perm right.entries := by
    rw [List.perm_ext_iff_of_nodup (distinct left) (distinct right)]
    rintro ⟨key, value⟩
    rw [mem_entries_iff, mem_entries_iff, alike]
  refine eq_of_entries (members.eq_of_pairwise ?_ left.ascending right.ascending)
  intro one other _ _ less more
  exact (KeyOrder.irrefl (KeyOrder.trans less more)).elim

theorem map_values_erase (map : SortedMap κ α) (change : α → β) (key : κ) :
    (map.erase key).mapValues change = (map.mapValues change).erase key := by
  apply eq_of_get
  intro query
  simp only [get_map_values, get_erase]
  split <;> rfl

theorem map_values_insert [DecidableLT κ] (map : SortedMap κ α) (change : α → β) (key : κ) (value : α) :
    (map.insert key value).mapValues change = (map.mapValues change).insert key (change value) := by
  apply eq_of_get
  intro query
  simp only [get_map_values, get_insert]
  split <;> rfl

theorem insert_present [DecidableLT κ] {map : SortedMap κ α} {key : κ} {value : α} (present : map.get? key = some value) :
    map.insert key value = map := by
  apply eq_of_get
  intro query
  rw [get_insert]
  split
  next same => rw [same, present]
  next => rfl

def sumOf : List (κ × Nat) → Nat
  | [] => 0
  | entry :: rest => entry.2 + sumOf rest

def total (map : SortedMap κ Nat) : Nat := sumOf map.entries

theorem find_above {key : κ} {entries : List (κ × α)} (above : ∀ entry ∈ entries, key < entry.1) :
    entries.find? (fun entry => entry.1 = key) = none := by
  rw [List.find?_eq_none]
  intro entry present same
  have less := above entry present
  rw [of_decide_eq_true same] at less
  exact KeyOrder.irrefl less

theorem sum_erase (key : κ) {entries : List (κ × Nat)}
    (ascending : entries.Pairwise fun left right => left.1 < right.1) :
    sumOf (entries.filter fun entry => entry.1 ≠ key) +
      ((entries.find? fun entry => entry.1 = key).map Prod.snd).getD 0 = sumOf entries := by
  induction entries with
  | nil => rfl
  | cons head rest ih =>
      obtain ⟨other, old⟩ := head
      obtain ⟨above, tail⟩ := List.pairwise_cons.mp ascending
      have later := ih tail
      by_cases same : other = key
      · subst other
        rw [find_above above] at later
        rw [List.filter_cons_of_neg (by simp), List.find?_cons_of_pos (by simp)]
        simp only [Option.map_none, Option.getD_none, Option.map_some, Option.getD_some, sumOf] at later ⊢
        omega
      · rw [List.filter_cons_of_pos (by simpa using same), List.find?_cons_of_neg (by simpa using same), sumOf, sumOf]
        omega

theorem total_erase (map : SortedMap κ Nat) (key : κ) :
    (map.erase key).total + (map.get? key).getD 0 = map.total := sum_erase key map.ascending

theorem sum_insert_entry [DecidableLT κ] (key : κ) (value : Nat) {entries : List (κ × Nat)}
    (ascending : entries.Pairwise fun left right => left.1 < right.1) :
    sumOf (insertEntry key value entries) +
      ((entries.find? fun entry => entry.1 = key).map Prod.snd).getD 0 = sumOf entries + value := by
  induction entries with
  | nil => simp [insertEntry, sumOf]
  | cons head rest ih =>
      obtain ⟨other, old⟩ := head
      obtain ⟨above, tail⟩ := List.pairwise_cons.mp ascending
      have later := ih tail
      by_cases less : key < other
      · have allAbove : ∀ entry ∈ (other, old) :: rest, key < entry.1 := by
          intro entry present
          rcases List.mem_cons.mp present with rfl | later
          · exact less
          · exact KeyOrder.trans less (above entry later)
        rw [find_above allAbove, insertEntry, if_pos less]
        simp only [sumOf, Option.map_none, Option.getD_none]
        omega
      · by_cases same : key = other
        · subst other
          rw [insertEntry, if_neg less, if_pos rfl, List.find?_cons_of_pos (by simp)]
          simp only [sumOf, Option.map_some, Option.getD_some]
          omega
        · rw [insertEntry, if_neg less, if_neg same, List.find?_cons_of_neg (by simpa using Ne.symm same), sumOf, sumOf]
          omega

theorem total_insert [DecidableLT κ] (map : SortedMap κ Nat) (key : κ) (value : Nat) :
    (map.insert key value).total + (map.get? key).getD 0 = map.total + value :=
  sum_insert_entry key value map.ascending

end DocumentViews.SortedMap
