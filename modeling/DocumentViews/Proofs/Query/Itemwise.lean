import Mathlib.Data.List.Basic
import DocumentViews.Proofs.Compile

set_option autoImplicit false

namespace DocumentViews

variable {extensions : Extensions}

namespace Query

theorem expand_append (clauses : List Clause) (one other : List Row) :
    clauses.foldl (fun rows clause => rows.flatMap fun row => clause.expand extensions row) (one ++ other) =
      clauses.foldl (fun rows clause => rows.flatMap fun row => clause.expand extensions row) one ++
        clauses.foldl (fun rows clause => rows.flatMap fun row => clause.expand extensions row) other := by
  induction clauses generalizing one other with
  | nil => rfl
  | cons clause clauses ih => rw [List.foldl_cons, List.flatMap_append, ih, List.foldl_cons, List.foldl_cons]

theorem rows_append (query : Query) (one other : List Value) :
    query.rows extensions (one ++ other) = query.rows extensions one ++ query.rows extensions other := by
  rw [rows, List.map_append, expand_append, rows, rows]

variable {query : Query}

theorem run_append (ungrouped : query.group = none) (one other : List Value) :
    query.run extensions (one ++ other) = query.run extensions one ++ query.run extensions other := by
  simp only [run, ungrouped]
  rw [rows_append, List.map_append]

theorem run_nil (ungrouped : query.group = none) : query.run extensions [] = [] := by
  have twice : query.run extensions ([] ++ []) = query.run extensions [] ++ query.run extensions [] :=
    run_append ungrouped [] []
  rw [List.append_nil] at twice
  exact List.self_eq_append_right.mp twice

theorem run_each (ungrouped : query.group = none) (input : List Value) :
    query.run extensions input = input.flatMap fun item => query.run extensions [item] := by
  induction input with
  | nil => rw [run_nil ungrouped, List.flatMap_nil]
  | cons item rest ih => rw [List.flatMap_cons, ← ih, ← run_append ungrouped, List.singleton_append]

end Query

def Value.untagged : Value → Value
  | .object members => .object (members.filter fun member => member.1 ≠ documentIdField)
  | other => other

theorem SortedMap.insert_entry_others (key : String) (value : Value) (entries : List (String × Value)) :
    (insertEntry key value entries).filter (fun entry => entry.1 ≠ key) =
      entries.filter fun entry => entry.1 ≠ key := by
  induction entries with
  | nil => simp [insertEntry]
  | cons head rest ih =>
      obtain ⟨other, old⟩ := head
      rw [insertEntry]
      by_cases less : key < other
      · rw [if_pos less, List.filter_cons_of_neg (by simp)]
      · by_cases same : key = other
        · subst same
          rw [if_neg less, if_pos rfl, List.filter_cons_of_neg (by simp), List.filter_cons_of_neg (by simp)]
        · rw [if_neg less, if_neg same, List.filter_cons, ih, List.filter_cons]

theorem untagged_tag (id : String) (output : Value) : (tagOutput id output).untagged = output.untagged := by
  cases output with
  | object members => exact congrArg Value.object (SortedMap.insert_entry_others documentIdField (.string id) members)
  | _ => rfl

namespace IndexGenerator

variable {generator : IndexGenerator}

-- What the maps give if each is run once, over all the documents it applies to.
def mapWhole (extensions : Extensions) (generator : IndexGenerator) (documents : List Document) : List Value :=
  generator.maps.flatMap fun query =>
    query.run extensions ((documents.filter fun document => document.belongsTo query.source).map Document.data)

theorem map_reduced (ungrouped : ∀ query ∈ generator.maps, query.group = none)
    (reduces : generator.isMapReduce = true) (documents : List Document) :
    generator.map extensions documents = generator.mapWhole extensions documents := by
  rw [map, mapWhole]
  refine List.flatMap_congr fun query member => ?_
  rw [Query.run_each (ungrouped query member), List.flatMap_map]
  exact List.flatMap_congr fun document _ => if_pos reduces

theorem map_one_untagged (query : Query) (document : Document) :
    (generator.mapOne extensions query document).map Value.untagged =
      (query.run extensions [document.data]).map Value.untagged := by
  rw [mapOne]
  by_cases reduces : generator.isMapReduce = true
  · rw [if_pos reduces]
  · rw [if_neg reduces, List.map_map]
    exact List.map_congr_left fun output _ => untagged_tag document.id output

theorem map_untagged (ungrouped : ∀ query ∈ generator.maps, query.group = none) (documents : List Document) :
    (generator.map extensions documents).map Value.untagged =
      (generator.mapWhole extensions documents).map Value.untagged := by
  rw [map, mapWhole, List.map_flatMap, List.map_flatMap]
  refine List.flatMap_congr fun query member => ?_
  rw [Query.run_each (ungrouped query member), List.flatMap_map, List.map_flatMap, List.map_flatMap]
  exact List.flatMap_congr fun document _ => map_one_untagged query document

theorem map_append (generator : IndexGenerator) (one other : List Document) :
    (generator.map extensions (one ++ other)).Perm (generator.map extensions one ++ generator.map extensions other) := by
  rw [map]
  simp only [List.filter_append, List.flatMap_append]
  exact (List.flatMap_append_perm generator.maps _ _).symm

theorem map_batches (generator : IndexGenerator) (batches : List (List Document)) :
    (batches.flatMap (generator.map extensions)).Perm (generator.map extensions batches.flatten) := by
  induction batches with
  | nil => simp [map]
  | cons batch batches ih =>
      rw [List.flatMap_cons, List.flatten_cons]
      exact (ih.append_left _).trans (generator.map_append batch batches.flatten).symm

end IndexGenerator

/-- A query without a group gives for two lists, one behind the other, what it gives for each.
So maps without groups give for documents one by one the outputs that each map gives if it is
run once over all the documents it applies to, up to the ids the outputs are tagged with, and
batches of documents give the same outputs as all of them at once. -/
theorem runs_item_by_item (extensions : Extensions) :
    (∀ query : Query, query.group = none → ∀ one other,
      query.run extensions (one ++ other) = query.run extensions one ++ query.run extensions other) ∧
    ∀ generator : IndexGenerator, (∀ query ∈ generator.maps, query.group = none) → ∀ documents,
      ((generator.map extensions documents).map Value.untagged).Perm
        ((generator.mapWhole extensions documents).map Value.untagged) ∧
      (generator.isMapReduce = true →
        (generator.map extensions documents).Perm (generator.mapWhole extensions documents)) ∧
      ∀ batches : List (List Document), batches.flatten = documents →
        (batches.flatMap (generator.map extensions)).Perm (generator.map extensions documents) := by
  refine ⟨fun query ungrouped => Query.run_append ungrouped, fun generator ungrouped documents => ⟨?_, ?_, ?_⟩⟩
  · rw [IndexGenerator.map_untagged ungrouped]
  · intro reduces
    rw [IndexGenerator.map_reduced ungrouped reduces]
  · intro batches whole
    rw [← whole]
    exact generator.map_batches batches

theorem runs_item_by_item_orders :
    let definition := IndexDefinition.ofSingleMap "Sales"
      "from o in docs.Orders from line in o.Lines where line.Paid select new \x7b line.Sku \x7d"
    let orders : List Document :=
      [⟨"orders/1", some "Orders", .object [("Lines", .array [.object [("Paid", .bool true), ("Sku", .string "a")],
        .object [("Paid", .bool false), ("Sku", .string "b")], .object [("Paid", .bool true), ("Sku", .string "c")]])]⟩,
      ⟨"users/1", some "Users", .object []⟩,
      ⟨"orders/2", some "orders", .object [("Lines", .array [.object [("Paid", .bool true), ("Sku", .string "a")]])]⟩]
    ∃ generator, definition.compile .builtins = .ok generator ∧
      (generator.mapWhole .builtins orders).map Value.compact =
        ["\x7b\"Sku\":\"a\"\x7d", "\x7b\"Sku\":\"c\"\x7d", "\x7b\"Sku\":\"a\"\x7d"] ∧
      ((generator.map .builtins orders).map Value.untagged).Perm
        ((generator.mapWhole .builtins orders).map Value.untagged) ∧
      ((orders.map fun order => [order]).flatMap (generator.map .builtins)).Perm (generator.map .builtins orders) ∧
      ∀ query ∈ generator.maps, ∀ one other,
        query.run .builtins (one ++ other) = query.run .builtins one ++ query.run .builtins other := by
  intro definition orders
  have accepted : (definition.compile .builtins).toOption.any (fun generator =>
      generator.maps.all (fun query => query.group.isNone) && (generator.mapWhole .builtins orders).map Value.compact ==
        ["\x7b\"Sku\":\"a\"\x7d", "\x7b\"Sku\":\"c\"\x7d", "\x7b\"Sku\":\"a\"\x7d"]) = true := by decide +kernel
  obtain ⟨generator, compiled, holds⟩ := ok_with_exists accepted
  obtain ⟨allUngrouped, outputs⟩ := Bool.and_eq_true_iff.mp holds
  have ungrouped : ∀ query ∈ generator.maps, query.group = none := fun query member =>
    Option.isNone_iff_eq_none.mp (List.all_eq_true.mp allUngrouped query member)
  obtain ⟨itemwise, mapped⟩ := runs_item_by_item .builtins
  obtain ⟨same, _, batched⟩ := mapped generator ungrouped orders
  exact ⟨generator, compiled, beq_iff_eq.mp outputs, same, batched _ rfl,
    fun query member => itemwise query (ungrouped query member)⟩

end DocumentViews
