import Mathlib.Data.List.Nodup
import Mathlib.Logic.Relation
import DocumentViews.Proofs.Query.Grouping
import DocumentViews.Proofs.Query.Itemwise

set_option autoImplicit false

namespace DocumentViews

namespace GroupClause

variable {entries others : List (Value × Value)} {groupings otherGroupings : List Grouping} {grouping : Grouping}

def ofKey (text : String) (entries : List (Value × Value)) : List (Value × Value) :=
  entries.filter fun entry => fingerprint entry.1 = text

theorem of_key_append (text : String) (entries others : List (Value × Value)) :
    ofKey text (entries ++ others) = ofKey text entries ++ ofKey text others := List.filter_append ..

theorem mem_of_key {text : String} {entry : Value × Value} :
    entry ∈ ofKey text entries ↔ entry ∈ entries ∧ fingerprint entry.1 = text := by
  rw [ofKey, List.mem_filter, decide_eq_true_iff]

def SameByKey (entries others : List (Value × Value)) : Prop := ∀ text, ofKey text entries = ofKey text others

theorem SameByKey.symm (same : SameByKey entries others) : SameByKey others entries := fun text => (same text).symm

theorem SameByKey.mem (same : SameByKey entries others) {entry : Value × Value} (member : entry ∈ entries) :
    entry ∈ others := by
  have ofItsKey := mem_of_key.mpr ⟨member, rfl⟩
  rw [same] at ofItsKey
  exact (mem_of_key.mp ofItsKey).1

theorem Collected.head_of_key (collected : Collected entries groupings) (member : grouping ∈ groupings) :
    ((ofKey (fingerprint grouping.key) entries).head?).map Prod.fst = some grouping.key := by
  obtain ⟨before, after, rfl⟩ := List.append_of_mem member
  obtain ⟨earlier, entry, later, rfl, sameKey, known⟩ := collected.first before grouping after rfl
  have noneEarlier : ofKey (fingerprint grouping.key) earlier = [] := by
    refine List.eq_nil_iff_forall_not_mem.mpr fun other otherMember => ?_
    obtain ⟨inEarlier, ofKey⟩ := mem_of_key.mp otherMember
    obtain ⟨knownGroup, inBefore, agrees⟩ := known other inEarlier
    have apart := collected.apart
    rw [List.map_append, List.nodup_append] at apart
    exact apart.2.2 _ (List.mem_map_of_mem inBefore) _ List.mem_cons_self (agrees.trans ofKey)
  rw [of_key_append, noneEarlier, List.nil_append, ofKey, List.filter_cons_of_pos (by rw [sameKey]; simp)]
  rw [List.head?_cons, Option.map_some, sameKey]

theorem Collected.mem_of_same (collected : Collected entries groupings) (otherCollected : Collected others otherGroupings)
    (same : SameByKey entries others) (member : grouping ∈ groupings) : grouping ∈ otherGroupings := by
  have head := collected.head_of_key member
  obtain ⟨entry, atHead, entryKey⟩ := Option.map_eq_some_iff.mp head
  obtain ⟨inEntries, _⟩ := mem_of_key.mp (List.mem_of_mem_head? atHead)
  obtain ⟨other, otherMember, sameText⟩ := otherCollected.covers entry (same.mem inEntries)
  rw [entryKey] at sameText
  have sameKey : other.key = grouping.key := by
    have otherHead := otherCollected.head_of_key otherMember
    rw [sameText, ← same, head] at otherHead
    exact (Option.some.inj otherHead).symm
  have sameItems : other.items = grouping.items := by
    rw [otherCollected.items other otherMember, collected.items grouping member, sameText]
    exact congrArg (List.map Prod.snd) (same (fingerprint grouping.key)).symm
  have whole : other = grouping := by
    cases other
    cases grouping
    exact congrArg₂ Grouping.mk sameKey sameItems
  rw [← whole]
  exact otherMember

theorem Collected.perm (collected : Collected entries groupings) (otherCollected : Collected others otherGroupings)
    (same : SameByKey entries others) : groupings.Perm otherGroupings := by
  refine (List.perm_ext_iff_of_nodup collected.apart.of_map otherCollected.apart.of_map).mpr fun grouping => ?_
  exact ⟨collected.mem_of_same otherCollected same, otherCollected.mem_of_same collected same.symm⟩

end GroupClause

namespace Query

open GroupClause

variable {extensions : Extensions} {query : Query} {group : GroupClause} {input other : List Value}

def keyed (extensions : Extensions) (query : Query) (group : GroupClause) (input : List Value) : List (Value × Value) :=
  (query.rows extensions input).map fun row => (row.eval extensions group.key, row.eval extensions group.element)

theorem keyed_append (extensions : Extensions) (query : Query) (group : GroupClause) (one other : List Value) :
    query.keyed extensions group (one ++ other) =
      query.keyed extensions group one ++ query.keyed extensions group other := by
  rw [keyed, rows_append, List.map_append, keyed, keyed]

theorem collected_keyed (extensions : Extensions) (query : Query) (group : GroupClause) (input : List Value) :
    Collected (query.keyed extensions group input) (group.groupings extensions (query.rows extensions input)) := by
  have whole := collected_fold collected_nil (query.keyed extensions group input)
  rwa [List.nil_append, keyed, List.foldl_map] at whole

-- No row that the one input gives shares its key with a row that the other gives.
def Unshared (extensions : Extensions) (query : Query) (group : GroupClause) (one other : Value) : Prop :=
  ∀ row ∈ query.rows extensions [one], ∀ otherRow ∈ query.rows extensions [other],
    ¬ (row.eval extensions group.key).same (otherRow.eval extensions group.key) = true

inductive Swapped (extensions : Extensions) (query : Query) (group : GroupClause) : List Value → List Value → Prop
  | swap (before : List Value) (one other : Value) (after : List Value)
      (unshared : query.Unshared extensions group one other) :
      Swapped extensions query group (before ++ one :: other :: after) (before ++ other :: one :: after)

theorem unshared_of_key {one other : Value} (unshared : query.Unshared extensions group one other)
    (finite : ∀ entry ∈ query.keyed extensions group [one], entry.1.Finite)
    (otherFinite : ∀ entry ∈ query.keyed extensions group [other], entry.1.Finite) (text : String) :
    ofKey text (query.keyed extensions group [one]) = [] ∨ ofKey text (query.keyed extensions group [other]) = [] := by
  by_contra both
  obtain ⟨some, otherSome⟩ := not_or.mp both
  obtain ⟨entry, member⟩ := List.exists_mem_of_ne_nil _ some
  obtain ⟨otherEntry, otherMember⟩ := List.exists_mem_of_ne_nil _ otherSome
  obtain ⟨inOne, isText⟩ := mem_of_key.mp member
  obtain ⟨inOther, isTextToo⟩ := mem_of_key.mp otherMember
  have sameKey := (Value.compact_inj (finite entry inOne) (otherFinite otherEntry inOther)).mp
    (isText.trans isTextToo.symm)
  have same := (Value.same_iff _ _ (finite entry inOne) (otherFinite otherEntry inOther)).mpr
    (congrArg Value.unsigned sameKey)
  obtain ⟨row, inRows, rfl⟩ := List.mem_map.mp inOne
  obtain ⟨otherRow, inOtherRows, rfl⟩ := List.mem_map.mp inOther
  exact unshared row inRows otherRow inOtherRows same

theorem swapped_same (swapped : Swapped extensions query group input other)
    (finite : ∀ entry ∈ query.keyed extensions group input, entry.1.Finite) :
    SameByKey (query.keyed extensions group input) (query.keyed extensions group other) := by
  obtain ⟨before, one, next, after, unshared⟩ := swapped
  have split : ∀ first second : Value, query.keyed extensions group (before ++ first :: second :: after) =
      query.keyed extensions group before ++ (query.keyed extensions group [first] ++
        (query.keyed extensions group [second] ++ query.keyed extensions group after)) := by
    intro first second
    rw [← keyed_append, ← keyed_append, ← keyed_append, List.singleton_append, List.singleton_append]
  rw [split] at finite
  have oneFinite : ∀ entry ∈ query.keyed extensions group [one], entry.1.Finite := fun entry member =>
    finite entry (List.mem_append_right _ (List.mem_append_left _ member))
  have nextFinite : ∀ entry ∈ query.keyed extensions group [next], entry.1.Finite := fun entry member =>
    finite entry (List.mem_append_right _ (List.mem_append_right _ (List.mem_append_left _ member)))
  intro text
  rw [split, split]
  simp only [of_key_append]
  rcases unshared_of_key unshared oneFinite nextFinite text with none | none
  · rw [none, List.nil_append, List.nil_append]
  · rw [none, List.nil_append, List.nil_append]

theorem reordered_same (reordered : Relation.ReflTransGen (Swapped extensions query group) input other)
    (finite : ∀ entry ∈ query.keyed extensions group input, entry.1.Finite) :
    SameByKey (query.keyed extensions group input) (query.keyed extensions group other) := by
  induction reordered with
  | refl => exact fun _ => rfl
  | tail _ swapped ih =>
      -- The inputs so far have the same entries, so their keys are finite, too.
      have stillFinite : ∀ entry ∈ query.keyed extensions group _, entry.1.Finite := fun entry member =>
        finite entry (ih.symm.mem member)
      exact fun text => (ih text).trans (swapped_same swapped stillFinite text)

/-- What a query that groups gives does not depend on how the groups are interleaved: after any
number of swaps of neighbours none of whose rows share a key, it gives the same results in
another order. The numbers in the keys are finite, as numbers that are read or computed are. -/
theorem run_reordered (extensions : Extensions) (query : Query) {group : GroupClause} (grouped : query.group = some group)
    {input other : List Value} (reordered : Relation.ReflTransGen (Swapped extensions query group) input other)
    (finite : ∀ row ∈ query.rows extensions input, (row.eval extensions group.key).Finite) :
    (query.run extensions input).Perm (query.run extensions other) := by
  have keysFinite : ∀ entry ∈ query.keyed extensions group input, entry.1.Finite := by
    intro entry member
    obtain ⟨row, inRows, rfl⟩ := List.mem_map.mp member
    exact finite row inRows
  have groupings := (collected_keyed extensions query group input).perm (collected_keyed extensions query group other)
    (reordered_same reordered keysFinite)
  simp only [run, grouped]
  exact groupings.map _

theorem run_reordered_lines :
    let first := Value.object [("Lines", .array [.object [("Sku", .string "a")], .object [("Sku", .string "c")]])]
    let second := Value.object [("Lines", .array [.object [("Sku", .string "b")], .object [("Sku", .string "b")]])]
    let third := Value.object [("Lines", .array [.object [("Sku", .string "a")]])]
    let lines := "from o in docs from line in o.Lines group line by line.Sku into g select new \x7b Sku = g.Key, N = g.Count() \x7d"
    ∃ query group, Query.parse Extensions.builtins.isFunction lines = .ok query ∧ query.group = some group ∧
      Swapped .builtins query group [first, second, third] [second, first, third] ∧
      (∀ row ∈ query.rows .builtins [first, second, third], (row.eval .builtins group.key).Finite) ∧
      (query.run .builtins [first, second, third]).map Value.compact =
        ["\x7b\"N\":2,\"Sku\":\"a\"\x7d", "\x7b\"N\":1,\"Sku\":\"c\"\x7d", "\x7b\"N\":2,\"Sku\":\"b\"\x7d"] ∧
      (query.run .builtins [first, second, third]).Perm (query.run .builtins [second, first, third]) := by
  intro first second third lines
  have accepted : (Query.parse Extensions.builtins.isFunction lines).toOption.any (fun query =>
      query.group.any fun group =>
        (∀ row ∈ query.rows .builtins [first], ∀ otherRow ∈ query.rows .builtins [second],
          ¬ (row.eval .builtins group.key).same (otherRow.eval .builtins group.key) = true) ∧
        (∀ row ∈ query.rows .builtins [first, second, third], (row.eval .builtins group.key).Finite) ∧
        (query.run .builtins [first, second, third]).map Value.compact =
          ["\x7b\"N\":2,\"Sku\":\"a\"\x7d", "\x7b\"N\":1,\"Sku\":\"c\"\x7d", "\x7b\"N\":2,\"Sku\":\"b\"\x7d"]) = true := by
    decide +kernel
  obtain ⟨query, parsed, holds⟩ := ok_with_exists accepted
  obtain ⟨group, grouped, evaluated⟩ := (Option.any_eq_true _ _).mp holds
  obtain ⟨unshared, finite, outputs⟩ := of_decide_eq_true evaluated
  have swapped : Swapped .builtins query group [first, second, third] [second, first, third] :=
    .swap [] first second [third] unshared
  have permuted := run_reordered .builtins query grouped (.single swapped) finite
  exact ⟨query, group, parsed, grouped, swapped, finite, outputs, permuted⟩

end Query
end DocumentViews
