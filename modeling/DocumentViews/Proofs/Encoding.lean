import DocumentViews.Definition.Encoding
import DocumentViews.Proofs.Json.RoundTrip

set_option autoImplicit false

namespace DocumentViews

open Json

namespace Encoding

theorem read_id_takes (id : UInt32) (level : Nat) {blanks rest : List Char} (blank : AllBlank blanks) (ends : Ends rest) :
    Takes (readId (blanks ++ ((ofId id).lines level ++ rest))) id rest := by
  have bound : UInt32.size - 1 < UInt64.size := by decide
  have small : id.toNat ≤ UInt32.size - 1 := Nat.le_sub_one_of_lt id.toNat_lt
  apply takes_bind (natural_takes (Nat.lt_of_le_of_lt small bound) small level blank ends)
  intro shorter
  exact ⟨_, rfl, UInt32.ofNat_toNat, rfl⟩

theorem id_round_trips : RoundTrips readId ofId := fun level id _ _ blank ends => read_id_takes id level blank ends

theorem id_opens (id : UInt32) : Opens (ofId id) :=
  natural_opens (Nat.lt_trans id.toNat_lt (by decide))

theorem named_round_trips {α : Type} {all : List α} {name : α → String}
    (known : ∀ option, (all.find? fun other => name other == name option) = some option) :
    RoundTrips (readNamed all name) fun option => .string (name option) :=
  choice_round_trips known

theorem read_maps_round_trips : RoundTrips readMaps strings := by
  intro level texts blanks rest blank _
  have wanted : mapsOf? (.array (texts.map .string)) = some texts := by
    change (texts.map Value.string).mapM Value.text? = some texts
    induction texts with
    | nil => rfl
    | cons text texts ih => rw [List.map_cons, List.mapM_cons, ih]; rfl
  apply takes_bind (value_takes_strings _ texts level blank rest)
  intro shorter
  dsimp only
  rw [wanted]
  exact ⟨_, rfl, rfl, rfl⟩

theorem sort_option_named (option : SortOption) : SortOption.named? option.name = some option := by
  cases option <;> decide

theorem sort_option_round_trips : RoundTrips readSortOption fun option => .string option.name := by
  intro level option blanks rest blank _
  obtain ⟨shorter, taken⟩ := scalar_string option.name rest
  have read := value_with_scalar none (by decide) (by decide) taken blank
  rw [string_lines]
  apply takes_bind (significant_takes blank (by decide) _)
  intro less
  rw [if_pos (.inl rfl)]
  apply takes_bind read
  intro less
  dsimp only
  rw [sort_option_named]
  exact ⟨_, rfl, rfl, rfl⟩

theorem option_round_trips {α : Type} {read : Reader α} {encode : α → Value} (trips : RoundTrips read encode)
    (opens : ∀ value, Opens (encode value)) : RoundTrips (optional read) (ofOption encode) := by
  intro level option
  have trip := optional_round_trips trips opens level option
  cases option with
  | none => exact trip
  | some value => exact trip

end Encoding

open Encoding

namespace IndexDefinition

theorem round_trips : RoundTrips reader toValue := by
  intro level definition blanks rest blank _
  have stores : RoundTrips (textMap (readNamed FieldStorage.all FieldStorage.name))
      (ofMap fun option => .string option.name) :=
    text_map_round_trips (named_round_trips fun option => by cases option <;> decide)
  have indexes : RoundTrips (textMap (readNamed FieldIndexing.all FieldIndexing.name))
      (ofMap fun option => .string option.name) :=
    text_map_round_trips (named_round_trips fun option => by cases option <;> decide)
  have termVectors : RoundTrips (textMap (readNamed TermVector.all TermVector.name))
      (ofMap fun option => .string option.name) :=
    text_map_round_trips (named_round_trips fun option => by cases option <;> decide)
  have lockMode : RoundTrips (readNamed IndexLockMode.all IndexLockMode.name) fun option => .string option.name :=
    named_round_trips fun option => by cases option <;> decide
  have sortOptions : RoundTrips (textMap readSortOption) (ofMap fun option => .string option.name) :=
    text_map_round_trips sort_option_round_trips
  have analyzers : RoundTrips (textMap text) (ofMap .string) := text_map_round_trips text_round_trips
  have fields : RoundTrips (list text) strings := list_round_trips text_round_trips string_opens
  have reduce : RoundTrips (optional text) (ofOption .string) := option_round_trips text_round_trips string_opens
  have limit : RoundTrips (optional readId) (ofOption ofId) := option_round_trips id_round_trips id_opens
  refine record_takes (List.range 16).reverse ?_ blank rest
  refine .more (field_taken 0 (by decide) rfl rfl id_round_trips level _ definition.id) ?_
  refine .more (field_taken 1 (by decide) rfl rfl text_round_trips level _ definition.name) ?_
  refine .more (field_taken 2 (by decide) rfl rfl read_maps_round_trips level _ definition.maps) ?_
  refine .more (field_taken 3 (by decide) rfl rfl reduce level _ definition.reduce) ?_
  refine .more (field_taken 4 (by decide) rfl rfl fields level _ definition.fields) ?_
  refine .more (field_taken 5 (by decide) rfl rfl stores level _ definition.stores) ?_
  refine .more (field_taken 6 (by decide) rfl rfl indexes level _ definition.indexes) ?_
  refine .more (field_taken 7 (by decide) rfl rfl sortOptions level _ definition.sortOptions) ?_
  refine .more (field_taken 8 (by decide) rfl rfl analyzers level _ definition.analyzers) ?_
  refine .more (field_taken 9 (by decide) rfl rfl text_set_round_trips level _ definition.suggestions) ?_
  refine .more (field_taken 10 (by decide) rfl rfl termVectors level _ definition.termVectors) ?_
  refine .more (field_taken 11 (by decide) rfl rfl limit level _ definition.maxOutputsPerDocument) ?_
  refine .more (field_taken 12 (by decide) rfl rfl lockMode level _ definition.lockMode) ?_
  refine .more (field_taken 13 (by decide) rfl rfl flag_round_trips level _ definition.isCompiled) ?_
  refine .more (field_taken 14 (by decide) rfl rfl flag_round_trips level _ definition.isTest) ?_
  refine .more (field_taken 15 (by decide) rfl rfl flag_round_trips level _ definition.isSideBySide) ?_
  exact .none _

end IndexDefinition

namespace TransformerDefinition

theorem round_trips : RoundTrips reader toValue := by
  intro level definition blanks rest blank _
  have lockMode : RoundTrips (readNamed TransformerLockMode.all TransformerLockMode.name) fun option =>
      .string option.name := named_round_trips fun option => by cases option <;> decide
  refine record_takes (List.range 5).reverse ?_ blank rest
  refine .more (field_taken 0 (by decide) rfl rfl id_round_trips level _ definition.id) ?_
  refine .more (field_taken 1 (by decide) rfl rfl text_round_trips level _ definition.name) ?_
  refine .more (field_taken 2 (by decide) rfl rfl text_round_trips level _ definition.transformResults) ?_
  refine .more (field_taken 3 (by decide) rfl rfl lockMode level _ definition.lockMode) ?_
  refine .more (field_taken 4 (by decide) rfl rfl flag_round_trips level _ definition.temporary) ?_
  exact .none _

end TransformerDefinition
end DocumentViews
