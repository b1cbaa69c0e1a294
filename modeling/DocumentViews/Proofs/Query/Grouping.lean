import Mathlib.Data.List.FinRange
import DocumentViews.Proofs.Json.Distinct
import DocumentViews.Query.Eval

set_option autoImplicit false

namespace DocumentViews.GroupClause

variable {key element : Value} {entries : List (Value × Value)} {groupings : List Grouping}

def addTo (key element : Value) (grouping : Grouping) : Grouping :=
  if fingerprint grouping.key = fingerprint key then { grouping with items := grouping.items ++ [element] } else grouping

theorem add_to_key (key element : Value) (grouping : Grouping) : (addTo key element grouping).key = grouping.key := by
  rw [addTo]
  split <;> rfl

theorem insert_new (absent : ∀ grouping ∈ groupings, fingerprint grouping.key ≠ fingerprint key) :
    insert key element groupings = groupings ++ [⟨key, [element]⟩] := by
  induction groupings with
  | nil => rfl
  | cons grouping rest ih =>
      rw [insert, if_neg (absent grouping List.mem_cons_self),
        ih fun other member => absent other (List.mem_cons_of_mem _ member), List.cons_append]

theorem insert_known (apart : (groupings.map fun grouping => fingerprint grouping.key).Nodup)
    (present : ∃ grouping ∈ groupings, fingerprint grouping.key = fingerprint key) :
    insert key element groupings = groupings.map (addTo key element) := by
  induction groupings with
  | nil => simp at present
  | cons grouping rest ih =>
      rw [List.map_cons, List.nodup_cons] at apart
      rw [insert, List.map_cons]
      by_cases here : fingerprint grouping.key = fingerprint key
      · -- The others have other keys, so they stay as they are.
        have others : rest.map (addTo key element) = rest := by
          refine (List.map_congr_left fun other member => ?_).trans (List.map_id rest)
          refine if_neg fun same => apart.1 ?_
          rw [here, ← same]
          exact List.mem_map_of_mem member
        rw [if_pos here, others, addTo, if_pos here]
      · obtain ⟨known, member, same⟩ := present
        rcases List.mem_cons.mp member with rfl | behind
        · exact absurd same here
        · rw [if_neg here, ih apart.2 ⟨known, behind, same⟩, addTo, if_neg here]

structure Collected (entries : List (Value × Value)) (groupings : List Grouping) : Prop where
  apart : (groupings.map fun grouping => fingerprint grouping.key).Nodup
  items : ∀ grouping ∈ groupings, grouping.items =
    (entries.filter fun entry => fingerprint entry.1 = fingerprint grouping.key).map Prod.snd
  covers : ∀ entry ∈ entries, ∃ grouping ∈ groupings, fingerprint grouping.key = fingerprint entry.1
  first : ∀ before grouping after, groupings = before ++ grouping :: after → ∃ earlier entry later,
    entries = earlier ++ entry :: later ∧ entry.1 = grouping.key ∧
      ∀ other ∈ earlier, ∃ known ∈ before, fingerprint known.key = fingerprint other.1

theorem Collected.insert_absent (collected : Collected entries groupings)
    (absent : ∀ grouping ∈ groupings, fingerprint grouping.key ≠ fingerprint key) :
    Collected (entries ++ [(key, element)]) (groupings ++ [⟨key, [element]⟩]) where
  apart := by
    rw [List.map_append, List.nodup_append]
    refine ⟨collected.apart, List.nodup_singleton _, ?_⟩
    intro one member other single
    obtain ⟨grouping, present, rfl⟩ := List.mem_map.mp member
    rw [List.map_singleton, List.mem_singleton] at single
    rw [single]
    exact absent grouping present
  items := by
    intro grouping member
    rw [List.filter_append, List.map_append]
    rcases List.mem_append.mp member with old | new
    · have other : ¬ fingerprint key = fingerprint grouping.key := fun same => absent grouping old same.symm
      rw [← collected.items grouping old]
      simp [other]
    · obtain rfl := List.mem_singleton.mp new
      have none : (entries.filter fun entry => fingerprint entry.1 = fingerprint key) = [] := by
        refine List.filter_eq_nil_iff.mpr fun entry member same => ?_
        obtain ⟨known, present, agrees⟩ := collected.covers entry member
        exact absent known present (agrees.trans (of_decide_eq_true same))
      simp [none]
  covers := by
    intro entry member
    rcases List.mem_append.mp member with old | new
    · obtain ⟨grouping, present, same⟩ := collected.covers entry old
      exact ⟨grouping, List.mem_append_left _ present, same⟩
    · obtain rfl := List.mem_singleton.mp new
      exact ⟨⟨key, [element]⟩, List.mem_append_right _ List.mem_cons_self, rfl⟩
  first := by
    intro before grouping after split
    rcases List.eq_nil_or_concat after with rfl | ⟨others, last, rfl⟩
    · obtain ⟨rfl, same⟩ := List.append_inj' split rfl
      cases same
      exact ⟨entries, (key, element), [], rfl, rfl, collected.covers⟩
    · rw [List.concat_eq_append, ← List.cons_append, ← List.append_assoc] at split
      obtain ⟨earlier, entry, later, whole, rest⟩ :=
        collected.first before grouping others (List.append_inj' split rfl).1
      refine ⟨earlier, entry, later ++ [(key, element)], ?_, rest⟩
      rw [whole, List.append_assoc, List.cons_append]

theorem Collected.insert_present (collected : Collected entries groupings)
    (present : ∃ grouping ∈ groupings, fingerprint grouping.key = fingerprint key) :
    Collected (entries ++ [(key, element)]) (groupings.map (addTo key element)) where
  apart := by
    rw [List.map_map]
    refine Eq.mp ?_ collected.apart
    congr 2
    funext grouping
    exact (congrArg fingerprint (add_to_key key element grouping)).symm
  items := by
    intro grouping member
    obtain ⟨known, old, rfl⟩ := List.mem_map.mp member
    rw [add_to_key, List.filter_append, List.map_append, ← collected.items known old, addTo]
    by_cases here : fingerprint known.key = fingerprint key
    · simp [here]
    · simp [here, Ne.symm here]
  covers := by
    intro entry member
    have found : ∃ grouping ∈ groupings, fingerprint grouping.key = fingerprint entry.1 := by
      rcases List.mem_append.mp member with old | new
      · exact collected.covers entry old
      · obtain rfl := List.mem_singleton.mp new
        exact present
    obtain ⟨grouping, old, same⟩ := found
    exact ⟨_, List.mem_map_of_mem old, by rw [add_to_key, same]⟩
  first := by
    intro before grouping after split
    obtain ⟨oldBefore, tail, rfl, rfl, behind⟩ := List.map_eq_append_iff.mp split
    obtain ⟨old, oldAfter, rfl, rfl, rfl⟩ := List.map_eq_cons_iff.mp behind
    obtain ⟨earlier, entry, later, rfl, same, earlierKnown⟩ := collected.first oldBefore old oldAfter rfl
    refine ⟨earlier, entry, later ++ [(key, element)], by rw [List.append_assoc, List.cons_append], ?_, ?_⟩
    · rw [same, add_to_key]
    · intro other member
      obtain ⟨known, inBefore, agrees⟩ := earlierKnown other member
      exact ⟨_, List.mem_map_of_mem inBefore, by rw [add_to_key, agrees]⟩

theorem Collected.insert (collected : Collected entries groupings) (key element : Value) :
    Collected (entries ++ [(key, element)]) (insert key element groupings) := by
  by_cases present : ∃ grouping ∈ groupings, fingerprint grouping.key = fingerprint key
  · rw [insert_known collected.apart present]
    exact collected.insert_present present
  · have absent : ∀ grouping ∈ groupings, fingerprint grouping.key ≠ fingerprint key := fun grouping member same =>
      present ⟨grouping, member, same⟩
    rw [insert_new absent]
    exact collected.insert_absent absent

theorem collected_nil : Collected [] [] where
  apart := List.nodup_nil
  items := nofun
  covers := nofun
  first := by simp

theorem collected_fold (collected : Collected entries groupings) (others : List (Value × Value)) :
    Collected (entries ++ others) (others.foldl (fun groupings entry => insert entry.1 entry.2 groupings) groupings) := by
  induction others generalizing entries groupings with
  | nil => rwa [List.append_nil]
  | cons entry others ih =>
      have step := ih (collected.insert entry.1 entry.2)
      rwa [List.append_assoc, List.singleton_append] at step

-- Every row is in one of the groups, and `place` says in which. The first row of a group has
-- its key, and what stands before that row is in the groups before this one.
structure Partition {rows : Nat} (key element : Fin rows → Value) (groupings : List Grouping)
    (place : Fin rows → Fin groupings.length) : Prop where
  shared : ∀ one other, place one = place other ↔ key one = key other
  items : ∀ group, groupings[group].items = ((List.finRange rows).filter fun row => place row = group).map element
  first : ∀ group, ∃ row, place row = group ∧ groupings[group].key = key row ∧ ∀ earlier < row, place earlier < group

theorem Collected.places_unique (collected : Collected entries groupings) {one other : Fin groupings.length}
    (same : fingerprint groupings[one].key = fingerprint groupings[other].key) : one = other := by
  have inBounds : ∀ place : Fin groupings.length,
      place < (groupings.map fun grouping => fingerprint grouping.key).length := by simp
  have equal : (groupings.map fun grouping => fingerprint grouping.key).get ⟨one, inBounds one⟩ =
      (groupings.map fun grouping => fingerprint grouping.key).get ⟨other, inBounds other⟩ := by
    rw [List.get_eq_getElem, List.get_eq_getElem, List.getElem_map, List.getElem_map]
    exact same
  exact Fin.ext (Fin.mk.inj (collected.apart.get_inj_iff.mp equal))

theorem partition_of_collected {rows : Nat} {key element : Fin rows → Value} (finite : ∀ row, (key row).Finite)
    (collected : Collected ((List.finRange rows).map fun row => (key row, element row)) groupings) :
    ∃ place, Partition key element groupings place := by
  have covered : ∀ row, ∃ place : Fin groupings.length, fingerprint groupings[place].key = fingerprint (key row) := by
    intro row
    obtain ⟨grouping, member, same⟩ := collected.covers (key row, element row)
      (List.mem_map_of_mem (f := fun row => (key row, element row)) (List.mem_finRange row))
    obtain ⟨place, bound, rfl⟩ := List.getElem_of_mem member
    exact ⟨⟨place, bound⟩, same⟩
  choose place placed using covered
  have place_iff : ∀ row group, place row = group ↔ fingerprint (key row) = fingerprint groupings[group].key := by
    intro row group
    rw [← placed row]
    refine ⟨fun same => by rw [same], fun same => collected.places_unique same⟩
  refine ⟨place, ?_, ?_, ?_⟩
  · intro one other
    rw [place_iff, placed other, fingerprint, fingerprint, Value.compact_inj (finite one) (finite other)]
  · intro group
    rw [Fin.getElem_fin, collected.items _ (List.getElem_mem group.isLt), List.filter_map, List.map_map]
    congr 1
    refine List.filter_congr fun row _ => ?_
    exact decide_eq_decide.mpr (place_iff row group).symm
  · intro group
    have split : groupings = groupings.take group ++ groupings[group] :: groupings.drop (group + 1) := by
      rw [Fin.getElem_fin, List.getElem_cons_drop, List.take_append_drop]
    obtain ⟨earlier, entry, later, whole, same, known⟩ := collected.first _ _ _ split
    have size : earlier.length < rows := by
      have lengths := congrArg List.length whole
      simp only [List.length_map, List.length_finRange, List.length_append, List.length_cons] at lengths
      omega
    have entry_at : ∀ row : Fin rows, ((List.finRange rows).map fun row => (key row, element row))[row.val]? =
        some (key row, element row) := by
      intro row
      simp
    have here : (key ⟨earlier.length, size⟩, element ⟨earlier.length, size⟩) = entry := by
      have found := entry_at ⟨earlier.length, size⟩
      rw [whole, List.getElem?_append_right (Nat.le_refl _), Nat.sub_self] at found
      exact (Option.some.inj found).symm
    subst here
    refine ⟨⟨earlier.length, size⟩, (place_iff _ _).mpr (congrArg fingerprint same), same.symm, ?_⟩
    intro row before
    have inside : (key row, element row) ∈ earlier := by
      have found := entry_at row
      rw [whole, List.getElem?_append_left before] at found
      exact List.mem_of_getElem? found
    obtain ⟨grouping, member, agrees⟩ := known _ inside
    obtain ⟨position, bound, rfl⟩ := List.getElem_of_mem member
    rw [List.length_take] at bound
    have inBounds : position < groupings.length := by omega
    have isPlace : place row = ⟨position, inBounds⟩ := (place_iff _ _).mpr (by simpa using agrees.symm)
    rw [isPlace]
    exact Nat.lt_of_lt_of_le bound (Nat.min_le_left _ _)

end DocumentViews.GroupClause

namespace DocumentViews.Query

open GroupClause

theorem collected_rows (extensions : Extensions) (group : GroupClause) (rows : List Row) :
    Collected ((List.finRange rows.length).map fun row =>
      (rows[row].eval extensions group.key, rows[row].eval extensions group.element))
      (group.groupings extensions rows) := by
  have whole := collected_fold collected_nil (rows.map fun row =>
    (row.eval extensions group.key, row.eval extensions group.element))
  rw [List.nil_append, List.foldl_map] at whole
  have entries : ((List.finRange rows.length).map fun row =>
      (rows[row].eval extensions group.key, rows[row].eval extensions group.element)) =
      rows.map fun row => (row.eval extensions group.key, row.eval extensions group.element) := by
    conv_rhs => rw [← List.map_getElem_finRange rows, List.map_map]
    rfl
  rw [entries]
  exact whole

/-- The groups of a query are a partition of its rows by the keys, in the order of their first
rows, and each group gives one result. Keys are told apart like values exactly when no two of
them differ in the sign of a zero alone. -/
theorem run_partitions (extensions : Extensions) (query : Query) (input : List Value) {group : GroupClause}
    (grouped : query.group = some group)
    (finite : ∀ row ∈ query.rows extensions input, (row.eval extensions group.key).Finite) :
    let rows := query.rows extensions input
    let groupings := group.groupings extensions rows
    let key := fun row : Fin rows.length => rows[row].eval extensions group.key
    let element := fun row : Fin rows.length => rows[row].eval extensions group.element
    ∃ place : Fin rows.length → Fin groupings.length, Partition key element groupings place ∧
      ((∀ one other, place one = place other ↔ (key one).same (key other) = true) ↔
        ∀ one other, (key one).unsigned = (key other).unsigned → key one = key other) ∧
      query.run extensions input =
        groupings.map fun grouping => query.select.eval extensions [(group.into, .group grouping)] := by
  intro rows groupings key element
  have keysFinite : ∀ row, (key row).Finite := fun row => finite _ (List.getElem_mem _)
  obtain ⟨place, partition⟩ := partition_of_collected keysFinite (collected_rows extensions group rows)
  refine ⟨place, partition, ?_, ?_⟩
  · have same_iff := fun one other => Value.same_iff (key one) (key other) (keysFinite one) (keysFinite other)
    constructor
    · intro told one other same
      exact (partition.shared one other).mp ((told one other).mpr ((same_iff one other).mpr same))
    · intro told one other
      rw [partition.shared, same_iff]
      exact ⟨congrArg Value.unsigned, told one other⟩
  · rw [run, grouped]

theorem run_partitions_interleaved : ∃ query group,
    Query.parse Extensions.builtins.isFunction "from d in docs group d.B by d.A into g select g.Count" = .ok query ∧
    query.group = some group ∧
    let rows := query.rows .builtins [.object [("A", .string "x"), ("B", .bool true)], .object [("A", .array [.null])],
      .object [("A", .string "x")]]
    (∀ row ∈ rows, (row.eval .builtins group.key).Finite) ∧
    ∃ place : Fin rows.length → Fin (group.groupings .builtins rows).length,
      Partition (fun row => rows[row].eval .builtins group.key) (fun row => rows[row].eval .builtins group.element)
        (group.groupings .builtins rows) place := by
  have accepted : (Query.parse Extensions.builtins.isFunction
      "from d in docs group d.B by d.A into g select g.Count").toOption.any (fun query => query.group.any fun group =>
        ∀ row ∈ query.rows .builtins [.object [("A", .string "x"), ("B", .bool true)], .object [("A", .array [.null])],
          .object [("A", .string "x")]], (row.eval .builtins group.key).Finite) = true := by decide +kernel
  obtain ⟨query, parsed, holds⟩ := ok_with_exists accepted
  obtain ⟨group, grouped, finite⟩ := (Option.any_eq_true _ _).mp holds
  obtain ⟨place, partition, _⟩ := run_partitions .builtins query _ grouped (of_decide_eq_true finite)
  exact ⟨query, group, parsed, grouped, of_decide_eq_true finite, place, partition⟩

/-- Two rows whose keys are zero and negative zero are in different groups, although the keys
are equal as values. -/
theorem run_splits_zeros : ∃ query group,
    Query.parse Extensions.builtins.isFunction "from d in docs group d by d.A into g select g.Key" = .ok query ∧
    query.group = some group ∧
    let input := [Value.object [("A", .number (.double (Float.ofBits 0)))],
      .object [("A", .number (.double (Float.ofBits 0x8000000000000000)))]]
    let keys := (query.rows .builtins input).map fun row => row.eval .builtins group.key
    (∀ key ∈ keys, key.Finite) ∧ (∀ one ∈ keys, ∀ other ∈ keys, one.same other = true) ∧
      (query.run .builtins input).map Value.compact = ["0.0", "-0.0"] := by
  have accepted : (Query.parse Extensions.builtins.isFunction
      "from d in docs group d by d.A into g select g.Key").toOption.any (fun query => query.group.any fun group =>
        let input := [Value.object [("A", .number (.double (Float.ofBits 0)))],
          .object [("A", .number (.double (Float.ofBits 0x8000000000000000)))]]
        let keys := (query.rows .builtins input).map fun row => row.eval .builtins group.key
        (∀ key ∈ keys, key.Finite) ∧ (∀ one ∈ keys, ∀ other ∈ keys, one.same other = true) ∧
          (query.run .builtins input).map Value.compact = ["0.0", "-0.0"]) = true := by decide +kernel
  obtain ⟨query, parsed, holds⟩ := ok_with_exists accepted
  obtain ⟨group, grouped, evaluated⟩ := (Option.any_eq_true _ _).mp holds
  exact ⟨query, group, parsed, grouped, of_decide_eq_true evaluated⟩

end DocumentViews.Query
