import DocumentViews.Directory

set_option autoImplicit false

namespace DocumentViews

namespace Directory

theorem find_put_entry (name other : String) (node : Node) (entries : List (String × Node)) :
    ((putEntry name node entries).find? fun entry => entry.1 = other).map Prod.snd =
      if other = name then some node else (entries.find? fun entry => entry.1 = other).map Prod.snd := by
  induction entries with
  | nil => by_cases same : other = name <;> simp [putEntry, same, Ne.symm]
  | cons entry rest ih =>
      obtain ⟨held, old⟩ := entry
      by_cases here : held = name
      · subst held
        by_cases same : other = name
        · subst other
          simp [putEntry]
        · simp [putEntry, same, Ne.symm same]
      · rw [putEntry, if_neg here, List.find?_cons, List.find?_cons]
        by_cases found : held = other
        · subst held
          simp [here]
        · simpa [found] using ih

@[simp] theorem get_put (directory : Directory) (name other : String) (node : Node) :
    (directory.put name node).get? other = if other = name then some node else directory.get? other :=
  find_put_entry name other node directory.entries

@[simp] theorem get_erase (directory : Directory) (name other : String) :
    (directory.erase name).get? other = if other = name then none else directory.get? other := by
  rw [get?, erase, List.find?_filter, get?]
  by_cases same : other = name
  · subst other
    rw [if_pos rfl, Option.map_eq_none_iff, List.find?_eq_none]
    intro entry _ taken
    simp_all
  · rw [if_neg same]
    congr 2
    funext entry
    by_cases here : entry.1 = other
    · simp [here, same]
    · simp [here]

theorem mem_entries_iff (directory : Directory) (name : String) (node : Node) :
    (name, node) ∈ directory.entries ↔ directory.get? name = some node := by
  obtain ⟨entries, distinct⟩ := directory
  simp only [get?]
  induction entries with
  | nil => simp
  | cons entry rest ih =>
      obtain ⟨held, old⟩ := entry
      obtain ⟨absent, tail⟩ := List.nodup_cons.mp distinct
      rw [List.mem_cons, List.find?_cons]
      by_cases here : held = name
      · subst held
        have later : (name, node) ∉ rest := fun present => absent (List.mem_map.mpr ⟨_, present, rfl⟩)
        simp [later, eq_comm]
      · simp [here, Ne.symm here, ih tail]

end Directory
end DocumentViews
