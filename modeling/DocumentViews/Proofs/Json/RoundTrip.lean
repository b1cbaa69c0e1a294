import DocumentViews.Proofs.Json.Taking
import DocumentViews.Proofs.SortedMap

set_option autoImplicit false

namespace DocumentViews.Json

variable {α β τ : Type}

-- The reader reads back what is written for a value, however deep it stands and after any
-- blanks.
def RoundTrips (read : Reader α) (encode : α → Value) : Prop :=
  ∀ (level : Nat) (value : α) (blanks rest : List Char), AllBlank blanks → Ends rest →
    Takes (read (blanks ++ ((encode value).lines level ++ rest))) value rest

def Opens (value : Value) : Prop :=
  ∀ level, ∃ char more, value.lines level = char :: more ∧ isBlank char = false ∧ char ≠ ']' ∧ char ≠ 'n'

theorem round_trips_map {read : Reader α} {encode : α → Value} (trips : RoundTrips read encode) {encodeOther : β → Value}
    (there : β → α) (back : α → β) (inverse : ∀ value, back (there value) = value)
    (same : ∀ value, encodeOther value = encode (there value)) :
    RoundTrips (fun input => do
      let found ← read input
      .ok (found.map back)) encodeOther := by
  intro level value blanks rest blank ends
  rw [same]
  apply takes_bind (trips level (there value) blanks rest blank ends)
  intro shorter
  exact ⟨_, rfl, inverse value, rfl⟩

theorem string_lines (text : String) (level : Nat) (rest : List Char) :
    (Value.string text).lines level ++ rest = '"' :: (text.toList.flatMap escape ++ '"' :: rest) := by
  rw [Value.lines, quoted_append]

theorem string_opens (text : String) : Opens (.string text) := fun _ => ⟨'"', _, rfl, by decide⟩

theorem text_round_trips : RoundTrips text Value.string := by
  intro level value blanks rest blank _
  rw [string_lines]
  apply takes_bind (significant_takes blank (by decide) _)
  intro shorter
  rw [if_pos rfl]
  apply takes_bind (string_takes value rest)
  intro less
  exact ⟨_, rfl, rfl, rfl⟩

theorem choice_round_trips {named? : String → Option α} {name : α → String}
    (known : ∀ option, named? (name option) = some option) :
    RoundTrips (choice named?) fun option => .string (name option) := by
  intro level option blanks rest blank _
  rw [string_lines]
  apply takes_bind (significant_takes blank (by decide) _)
  intro shorter
  rw [if_pos rfl]
  apply takes_bind (string_takes (name option) rest)
  intro less
  dsimp only
  rw [known]
  exact ⟨_, rfl, rfl, rfl⟩

theorem value_with_scalar (inner : Option (Reader Value)) {first : Char} (solid : isBlank first = false)
    (simple : first ≠ '[' ∧ first ≠ '\x7b' ∧ first.isDigit = false) {text rest : List Char} {value : Value}
    {shorter : rest.length ≤ text.length} (taken : scalar first text = .ok (value, ⟨rest, shorter⟩))
    {blanks : List Char} (blank : AllBlank blanks) : Takes (valueWith inner (blanks ++ first :: text)) value rest := by
  apply takes_bind (significant_takes blank solid text)
  intro less
  dsimp only
  rw [if_neg simple.1, if_neg simple.2.1, if_neg (by simp [simple.2.2]), taken]
  exact ⟨_, rfl, rfl, rfl⟩

theorem scalar_string (content : String) (rest : List Char) :
    ∃ shorter, scalar '"' (content.toList.flatMap escape ++ '"' :: rest) = .ok (.string content, ⟨rest, shorter⟩) := by
  obtain ⟨parsed, taken, value, left⟩ := string_takes content rest
  refine ⟨by simp; omega, ?_⟩
  have unfolded : scalar '"' (content.toList.flatMap escape ++ '"' :: rest) =
      string (content.toList.flatMap escape ++ '"' :: rest) >>= fun content =>
        .ok (.string content.value, content.remainder) := rfl
  rw [unfolded, taken]
  simp only [bind, Except.bind, Parsed.remainder, value, left]

theorem flag_round_trips : RoundTrips flag Value.bool := by
  intro level value blanks rest blank _
  have spelled : ∃ first text shorter, (Value.bool value).lines level ++ rest = first :: text ∧
      isBlank first = false ∧ (first ≠ '[' ∧ first ≠ '\x7b' ∧ first.isDigit = false) ∧ (first = 't' ∨ first = 'f') ∧
      scalar first text = .ok (.bool value, ⟨rest, shorter⟩) := by
    cases value with
    | true => exact ⟨'t', _, _, rfl, by decide, by decide, by decide, rfl⟩
    | false => exact ⟨'f', _, _, rfl, by decide, by decide, by decide, rfl⟩
  obtain ⟨first, text, shorter, opened, solid, simple, mark, scanned⟩ := spelled
  rw [opened]
  apply takes_bind (significant_takes blank solid text)
  intro less
  obtain ⟨parsed, taken, found, left⟩ := value_with_scalar none solid simple scanned blank
  rw [if_pos mark, taken]
  exact ⟨_, rfl, by rw [value_map, found], left⟩

theorem digit_ne {char other : Char} (isDigit : char.isDigit = true) (different : other.isDigit = false) : char ≠ other := by
  rintro rfl
  cases isDigit.symm.trans different

theorem digit_solid {char : Char} (isDigit : char.isDigit = true) : isBlank char = false := by
  simp only [isBlank, Bool.or_eq_false_iff, beq_eq_false_iff_ne]
  exact ⟨⟨⟨digit_ne isDigit rfl, digit_ne isDigit rfl⟩, digit_ne isDigit rfl⟩, digit_ne isDigit rfl⟩

theorem of_int_natural {number : Nat} (bounded : number < UInt64.size) :
    ∃ inRange, Number.ofInt number = .integer number inRange := by
  have inRange : -0x8000000000000000 ≤ (number : Int) ∧ (number : Int) < 0x10000000000000000 := by
    have : UInt64.size = 0x10000000000000000 := rfl
    omega
  exact ⟨inRange, dif_pos inRange⟩

theorem natural_lines {number : Nat} (bounded : number < UInt64.size) (level : Nat) :
    (Value.ofNat number).lines level = Nat.toDigits 10 number := by
  obtain ⟨inRange, whole⟩ := of_int_natural bounded
  have positive : ¬ (number : Int) < 0 := by omega
  simp [Value.ofNat, Value.lines, whole, Number.chars, positive]

theorem natural_opens {number : Nat} (bounded : number < UInt64.size) : Opens (Value.ofNat number) := by
  intro level
  obtain ⟨digit, more, split, isDigit, _⟩ := to_digits_head number
  rw [natural_lines bounded, split]
  exact ⟨digit, more, rfl, digit_solid isDigit, digit_ne isDigit rfl, digit_ne isDigit rfl⟩

theorem natural_takes {greatest number : Nat} (bounded : number < UInt64.size) (inRange : number ≤ greatest)
    (level : Nat) {blanks rest : List Char} (blank : AllBlank blanks) (ends : Ends rest) :
    Takes (natural greatest (blanks ++ ((Value.ofNat number).lines level ++ rest))) number rest := by
  obtain ⟨digit, more, split, isDigit, _⟩ := to_digits_head number
  obtain ⟨fits, whole⟩ := of_int_natural bounded
  have taken := number_takes bounded ends
  rw [natural_lines bounded, split, List.cons_append]
  rw [split, List.cons_append, whole] at taken
  have read : Takes (valueWith none (blanks ++ digit :: (more ++ rest))) (.number (.integer number fits)) rest := by
    apply takes_bind (significant_takes blank (digit_solid isDigit) (more ++ rest))
    intro less
    dsimp only
    rw [if_neg (digit_ne isDigit rfl), if_neg (digit_ne isDigit rfl), if_pos isDigit]
    apply takes_bind taken
    intro less
    exact ⟨_, rfl, rfl, rfl⟩
  apply takes_bind (significant_takes blank (digit_solid isDigit) (more ++ rest))
  intro less
  rw [if_pos (.inr isDigit)]
  apply takes_bind read
  intro less
  dsimp only
  rw [if_pos ⟨by omega, by omega⟩]
  exact ⟨_, rfl, rfl, rfl⟩

theorem optional_round_trips {read : Reader α} {encode : α → Value} (trips : RoundTrips read encode)
    (opens : ∀ value, Opens (encode value)) : RoundTrips (optional read) fun option =>
      match option with
      | some value => encode value
      | none => .null := by
  intro level option blanks rest blank ends
  cases option with
  | none =>
      have null : isBlank 'n' = false := by decide
      obtain ⟨shorter, found⟩ := significant_some blank null ('u' :: 'l' :: 'l' :: rest)
      have spelled : Value.null.lines level ++ rest = 'n' :: 'u' :: 'l' :: 'l' :: rest := rfl
      rw [spelled, optional, found]
      exact ⟨_, rfl, rfl, rfl⟩
  | some value =>
      obtain ⟨char, more, split, solid, _, noNull⟩ := opens value level
      have taken := trips level value blanks rest blank ends
      dsimp only
      rw [split, List.cons_append] at taken ⊢
      obtain ⟨shorter, found⟩ := significant_some blank solid (more ++ rest)
      rw [optional, found]
      dsimp only
      rw [if_neg noNull]
      apply takes_bind taken
      intro less
      exact ⟨_, rfl, rfl, rfl⟩

inductive ItemsTaken (step : τ → Reader τ) (level : Nat) : τ → List Value → τ → Prop
  | none (state : τ) : ItemsTaken step level state [] state
  | more {state next final : τ} {item : Value} {items : List Value} : Opens item →
      (∀ blanks rest, AllBlank blanks → Ends rest →
        Takes (step state (blanks ++ (item.lines (level + 1) ++ rest))) next rest) →
      ItemsTaken step level next items final → ItemsTaken step level state (item :: items) final

theorem ends_more_items (level : Nat) (items : List Value) (rest : List Char) :
    Ends (Value.moreItems level items ++ (Value.newLine level ++ ']' :: rest)) := by
  cases items with
  | nil => exact ends_new_line level _
  | cons item items => exact ends_comma _

theorem more_elements_take {step : τ → Reader τ} {level : Nat} {state final : τ} {items : List Value}
    (taken : ItemsTaken step level state items final) (rest : List Char) :
    Takes (moreElements step state (Value.moreItems level items ++ (Value.newLine level ++ ']' :: rest))) final rest := by
  induction taken with
  | none state =>
      rw [moreElements]
      apply takes_bind (significant_takes (all_blank_new_line level) (by decide) rest)
      intro shorter
      exact ⟨_, rfl, rfl, rfl⟩
  | @more state next final item items opens first _ ih =>
      obtain ⟨char, more, split, solid, noEnd, _⟩ := opens (level + 1)
      have read := first (Value.newLine (level + 1)) _ (all_blank_new_line _) (ends_more_items level items rest)
      have text : Value.moreItems level (item :: items) ++ (Value.newLine level ++ ']' :: rest) =
          ',' :: (Value.newLine (level + 1) ++ (item.lines (level + 1) ++ (Value.moreItems level items ++
            (Value.newLine level ++ ']' :: rest)))) := by
        simp only [Value.moreItems, List.cons_append, List.append_assoc]
      rw [text, split, List.cons_append, moreElements]
      rw [split, List.cons_append] at read
      apply takes_bind (significant_takes_first (by decide) _)
      intro shorter
      dsimp only
      rw [if_neg (by decide), if_pos rfl]
      apply takes_bind (significant_takes (all_blank_new_line _) solid _)
      intro less
      dsimp only
      rw [if_neg noEnd]
      refine takes_bind read fun less => takes_bind ih fun less => ?_
      exact ⟨_, rfl, rfl, rfl⟩

theorem elements_take {step : τ → Reader τ} {level : Nat} {state final : τ} {items : List Value}
    (taken : ItemsTaken step level state items final) (rest : List Char) :
    ∃ body, (Value.array items).lines level ++ rest = '[' :: body ∧ Takes (elements step state body) final rest := by
  cases taken with
  | none =>
      refine ⟨']' :: rest, rfl, ?_⟩
      apply takes_bind (significant_takes_first (by decide) _)
      intro shorter
      exact ⟨_, rfl, rfl, rfl⟩
  | @more _ next _ item items opens first others =>
      obtain ⟨char, more, split, solid, noEnd, _⟩ := opens (level + 1)
      have read := first (Value.newLine (level + 1)) _ (all_blank_new_line _) (ends_more_items level items rest)
      refine ⟨Value.newLine (level + 1) ++ (item.lines (level + 1) ++ (Value.moreItems level items ++
        (Value.newLine level ++ ']' :: rest))), by
          simp only [Value.lines, List.cons_append, List.append_assoc, List.nil_append], ?_⟩
      rw [split, List.cons_append] at read ⊢
      apply takes_bind (significant_takes (all_blank_new_line _) solid _)
      intro shorter
      dsimp only
      rw [if_neg noEnd]
      refine takes_bind read fun less => takes_bind (more_elements_take others rest) fun less => ?_
      exact ⟨_, rfl, rfl, rfl⟩

theorem items_taken {read : Reader β} {encode : α → Value} {result : α → β} {level : Nat}
    (opens : ∀ value, Opens (encode value))
    (trips : ∀ value blanks rest, AllBlank blanks → Ends rest →
      Takes (read (blanks ++ ((encode value).lines (level + 1) ++ rest))) (result value) rest)
    (sofar : List β) (values : List α) :
    ItemsTaken (fun sofar text => do
      let item ← read text
      .ok (item.map (· :: sofar))) level sofar (values.map encode) ((values.map result).reverse ++ sofar) := by
  induction values generalizing sofar with
  | nil => exact .none sofar
  | cons value values ih =>
      -- The reader puts each item in front of those before it.
      rw [List.map_cons, List.map_cons, List.reverse_cons, List.append_assoc, List.singleton_append]
      refine .more (opens value) ?_ (ih (result value :: sofar))
      intro blanks rest blank ends
      apply takes_bind (trips value blanks rest blank ends)
      intro shorter
      exact ⟨_, rfl, rfl, rfl⟩

theorem list_round_trips {read : Reader α} {encode : α → Value} (trips : RoundTrips read encode)
    (opens : ∀ value, Opens (encode value)) : RoundTrips (list read) fun values => .array (values.map encode) := by
  intro level values blanks rest blank _
  obtain ⟨body, split, taken⟩ := elements_take (items_taken opens (trips (level + 1)) [] values) rest
  rw [List.append_nil, List.map_id'] at taken
  rw [split]
  apply takes_bind (significant_takes blank (by decide) body)
  intro shorter
  rw [if_pos rfl]
  apply takes_bind taken
  intro less
  exact ⟨_, rfl, List.reverse_reverse values, rfl⟩

theorem text_set_round_trips : RoundTrips textSet fun set => .array (set.keys.map .string) := by
  refine round_trips_map (list_round_trips text_round_trips string_opens) SortedMap.keys SortedSet.ofList ?_ fun _ => rfl
  intro set
  have units : set.keys.map (·, ()) = set.entries := by
    rw [SortedMap.keys, List.map_map]
    exact List.map_id _
  rw [SortedSet.ofList, units, SortedMap.ofList_entries]

theorem value_takes_string (levels : Nat) (content : String) (level : Nat) {blanks : List Char} (blank : AllBlank blanks)
    (rest : List Char) : Takes (value levels (blanks ++ ((Value.string content).lines level ++ rest))) (.string content) rest := by
  obtain ⟨shorter, taken⟩ := scalar_string content rest
  rw [string_lines]
  cases levels with
  | zero => exact value_with_scalar none (by decide) (by decide) taken blank
  | succ levels => exact value_with_scalar (some (value levels)) (by decide) (by decide) taken blank

theorem value_takes_strings (levels : Nat) (texts : List String) (level : Nat) {blanks : List Char} (blank : AllBlank blanks)
    (rest : List Char) :
    Takes (value (levels + 1) (blanks ++ ((Value.array (texts.map .string)).lines level ++ rest)))
      (.array (texts.map .string)) rest := by
  have trips : ∀ content blanks rest, AllBlank blanks → Ends rest →
      Takes (value levels (blanks ++ ((Value.string content).lines (level + 1) ++ rest))) (.string content) rest :=
    fun content _ rest blank _ => value_takes_string levels content (level + 1) blank rest
  obtain ⟨body, split, taken⟩ := elements_take (items_taken string_opens trips [] texts) rest
  rw [List.append_nil] at taken
  rw [split]
  apply takes_bind (significant_takes blank (by decide) body)
  intro shorter
  rw [if_pos rfl]
  apply takes_bind taken
  intro less
  exact ⟨_, rfl, congrArg Value.array (List.reverse_reverse _), rfl⟩

inductive MembersTaken (step : τ → String → Reader τ) (level : Nat) : τ → List (String × Value) → τ → Prop
  | none (state : τ) : MembersTaken step level state [] state
  | more {state next final : τ} {name : String} {value : Value} {members : List (String × Value)} :
      (∀ rest, Ends rest → Takes (step state name (':' :: ' ' :: (value.lines (level + 1) ++ rest))) next rest) →
      MembersTaken step level next members final → MembersTaken step level state ((name, value) :: members) final

theorem ends_more_members (level : Nat) (members : List (String × Value)) (rest : List Char) :
    Ends (Value.moreMembers level members ++ (Value.newLine level ++ '\x7d' :: rest)) := by
  cases members with
  | nil => exact ends_new_line level _
  | cons member members => exact ends_comma _

theorem member_name_takes (name : String) {text : List Char} (rest : List Char)
    (shorter : (name.toList.flatMap escape ++ '"' :: rest).length < text.length) :
    Takes (memberName string ⟨'"', name.toList.flatMap escape ++ '"' :: rest, shorter⟩) name rest := by
  apply takes_bind (string_takes name rest)
  intro less
  exact ⟨_, rfl, rfl, rfl⟩

theorem more_members_take {step : τ → String → Reader τ} {level : Nat} {state final : τ}
    {members : List (String × Value)} (taken : MembersTaken step level state members final) (rest : List Char) :
    Takes (moreMembers string step state (Value.moreMembers level members ++ (Value.newLine level ++ '\x7d' :: rest)))
      final rest := by
  induction taken with
  | none state =>
      rw [moreMembers]
      apply takes_bind (significant_takes (all_blank_new_line level) (by decide) rest)
      intro shorter
      exact ⟨_, rfl, rfl, rfl⟩
  | @more state next final name value members first _ ih =>
      have read := first _ (ends_more_members level members rest)
      have text : Value.moreMembers level ((name, value) :: members) ++ (Value.newLine level ++ '\x7d' :: rest) =
          ',' :: (Value.newLine (level + 1) ++ '"' :: (name.toList.flatMap escape ++ '"' :: ':' :: ' ' ::
            (value.lines (level + 1) ++ (Value.moreMembers level members ++
              (Value.newLine level ++ '\x7d' :: rest))))) := by
        simp only [Value.moreMembers, quoted, List.cons_append, List.append_assoc, List.nil_append]
      rw [text, moreMembers]
      apply takes_bind (significant_takes_first (by decide) _)
      intro shorter
      dsimp only
      rw [if_neg (by decide), if_pos rfl]
      apply takes_bind (significant_takes (all_blank_new_line _) (by decide) _)
      intro less
      apply takes_bind (member_name_takes name _ less)
      intro less
      refine takes_bind read fun less => takes_bind ih fun less => ?_
      exact ⟨_, rfl, rfl, rfl⟩

theorem members_take {step : τ → String → Reader τ} {level : Nat} {state final : τ} {members : List (String × Value)}
    (taken : MembersTaken step level state members final) (rest : List Char) :
    ∃ body, (Value.object members).lines level ++ rest = '\x7b' :: body ∧
      Takes (Json.members string step state body) final rest := by
  cases taken with
  | none =>
      refine ⟨'\x7d' :: rest, rfl, ?_⟩
      apply takes_bind (significant_takes_first (by decide) _)
      intro shorter
      exact ⟨_, rfl, rfl, rfl⟩
  | @more _ next _ name value members first others =>
      have read := first _ (ends_more_members level members rest)
      refine ⟨Value.newLine (level + 1) ++ '"' :: (name.toList.flatMap escape ++ '"' :: ':' :: ' ' ::
        (value.lines (level + 1) ++ (Value.moreMembers level members ++ (Value.newLine level ++ '\x7d' :: rest)))), by
          simp only [Value.lines, quoted, List.cons_append, List.append_assoc, List.nil_append], ?_⟩
      apply takes_bind (significant_takes (all_blank_new_line _) (by decide) _)
      intro shorter
      dsimp only
      rw [if_neg (by decide)]
      apply takes_bind (member_name_takes name _ shorter)
      intro less
      refine takes_bind read fun less => takes_bind (more_members_take others rest) fun less => ?_
      exact ⟨_, rfl, rfl, rfl⟩

theorem colon_takes (rest : List Char) : Takes (colon (':' :: rest)) () rest := by
  apply takes_bind (significant_takes_first (by decide) rest)
  intro shorter
  exact ⟨_, rfl, rfl, rfl⟩

theorem text_map_members {read : Reader α} {encode : α → Value} (trips : RoundTrips read encode) (level : Nat)
    (sofar : TextMap α) (entries : List (String × α)) :
    MembersTaken (fun sofar name text => do
      let mark ← colon text
      let item ← read mark.rest
      .ok (mark.after (item.map fun item => sofar.insert name item))) level sofar
      (entries.map fun entry => (entry.1, encode entry.2))
      (entries.foldl (fun map entry => map.insert entry.1 entry.2) sofar) := by
  induction entries generalizing sofar with
  | nil => exact .none sofar
  | cons entry entries ih =>
      refine .more ?_ (ih (sofar.insert entry.1 entry.2))
      intro rest ends
      apply takes_bind (colon_takes _)
      intro shorter
      apply takes_bind (trips (level + 1) entry.2 [' '] rest all_blank_space ends)
      intro less
      exact ⟨_, rfl, rfl, rfl⟩

theorem text_map_round_trips {read : Reader α} {encode : α → Value} (trips : RoundTrips read encode) :
    RoundTrips (textMap read) fun map => .object (map.mapValues encode).entries := by
  intro level map blanks rest blank _
  obtain ⟨body, split, taken⟩ := members_take (text_map_members trips level .empty map.entries) rest
  have whole : map.entries.foldl (fun map entry => map.insert entry.1 entry.2) .empty = map := map.ofList_entries
  rw [whole] at taken
  change Takes (textMap read (blanks ++ ((Value.object (map.entries.map fun entry =>
    (entry.1, encode entry.2))).lines level ++ rest))) map rest
  rw [split]
  apply takes_bind (significant_takes blank (by decide) body)
  intro shorter
  rw [if_pos rfl]
  apply takes_bind taken
  intro less
  exact ⟨_, rfl, rfl, rfl⟩

theorem field_taken {δ : Type} {fields : List (RecordField δ)} {name : String} {read : Reader α} {put : α → δ → δ}
    {encode : α → Value} {used : List Nat} (position : Nat)
    (known : (fields.findIdx? fun field => field.names.contains name) = some position)
    (field : fields[position]?.map RecordField.read = some fun text => do
      let found ← read text
      .ok (found.map put))
    (fresh : used.contains position = false) (trips : RoundTrips read encode) (level : Nat) (state : δ) (value : α)
    (rest : List Char) (ends : Ends rest) :
    Takes (recordMember fields (state, used) name (':' :: ' ' :: ((encode value).lines (level + 1) ++ rest)))
      (put value state, position :: used) rest := by
  obtain ⟨found, here, reads⟩ := Option.map_eq_some_iff.mp field
  simp only [recordMember, known, here, fresh, Bool.false_eq_true, if_false]
  apply takes_bind (colon_takes _)
  intro shorter
  have changed : Takes (found.read (' ' :: ((encode value).lines (level + 1) ++ rest))) (put value) rest := by
    rw [reads]
    apply takes_bind (trips (level + 1) value [' '] rest all_blank_space ends)
    intro less
    exact ⟨_, rfl, rfl, rfl⟩
  apply takes_bind changed
  intro less
  exact ⟨_, rfl, rfl, rfl⟩

theorem record_takes {δ : Type} {fields : List (RecordField δ)} {initial final : δ} (used : List Nat) {level : Nat}
    {members : List (String × Value)}
    (taken : MembersTaken (recordMember fields) level (initial, []) members (final, used)) {blanks : List Char}
    (blank : AllBlank blanks) (rest : List Char) :
    Takes (record fields initial (blanks ++ ((Value.object members).lines level ++ rest))) final rest := by
  obtain ⟨body, split, taken⟩ := members_take taken rest
  rw [split]
  apply takes_bind (significant_takes blank (by decide) body)
  intro shorter
  dsimp only
  rw [if_neg (by decide), if_pos rfl]
  apply takes_bind taken
  intro less
  exact ⟨_, rfl, rfl, rfl⟩

theorem document_takes {read : Reader α} {encode : α → Value} (trips : RoundTrips read encode) (value : α) :
    document read (encode value).pretty = .ok value := by
  have taken := trips 0 value [] [] all_blank_nil ends_nil
  have input : (encode value).pretty.toList = (encode value).lines 0 := String.toList_ofList
  rw [List.nil_append, List.append_nil, ← input] at taken
  obtain ⟨parsed, taken, found, left⟩ := taken
  have nothing : significant? parsed.rest = none := by
    rw [left]
    rfl
  simp only [document, taken, bind, Except.bind, nothing, found]

end DocumentViews.Json
