import DocumentViews.Proofs.Number.Distinct

set_option autoImplicit false

namespace DocumentViews.Value

mutual

def Finite : Value → Prop
  | .number amount => amount.Finite
  | .array items => FiniteItems items
  | .object members => FiniteMembers members
  | _ => True

def FiniteItems : List Value → Prop
  | [] => True
  | item :: rest => item.Finite ∧ FiniteItems rest

def FiniteMembers : List (String × Value) → Prop
  | [] => True
  | (_, value) :: rest => value.Finite ∧ FiniteMembers rest

end

mutual

def decideFinite : (value : Value) → Decidable value.Finite
  | .number (.double value) => inferInstanceAs (Decidable (Dyadic.ofFloat? value ≠ none))
  | .array items => decideFiniteItems items
  | .object members => decideFiniteMembers members
  | .number (.integer _ _) | .null | .bool _ | .string _ => isTrue trivial

def decideFiniteItems : (items : List Value) → Decidable (FiniteItems items)
  | [] => isTrue trivial
  | item :: rest =>
      match decideFinite item, decideFiniteItems rest with
      | isTrue here, isTrue behind => isTrue ⟨here, behind⟩
      | isFalse here, _ => isFalse fun both => here both.1
      | _, isFalse behind => isFalse fun both => behind both.2

def decideFiniteMembers : (members : List (String × Value)) → Decidable (FiniteMembers members)
  | [] => isTrue trivial
  | (_, value) :: rest =>
      match decideFinite value, decideFiniteMembers rest with
      | isTrue here, isTrue behind => isTrue ⟨here, behind⟩
      | isFalse here, _ => isFalse fun both => here both.1
      | _, isFalse behind => isFalse fun both => behind both.2

end

instance : DecidablePred Finite := decideFinite

mutual

def unsigned : Value → Value
  | .number amount => .number amount.unsigned
  | .array items => .array (unsignedItems items)
  | .object members => .object (unsignedMembers members)
  | other => other

def unsignedItems : List Value → List Value
  | [] => []
  | item :: rest => item.unsigned :: unsignedItems rest

def unsignedMembers : List (String × Value) → List (String × Value)
  | [] => []
  | (name, value) :: rest => (name, value.unsigned) :: unsignedMembers rest

end

def Closed (text : List Char) : Prop := ∀ char ∈ text.head?, char = ',' ∨ char = ']' ∨ char = '\x7d'

theorem closed_nil : Closed [] := by simp [Closed]

theorem Closed.follows {text : List Char} (closed : Closed text) : Lexeme.Follows text := by
  refine ⟨fun char begins => ?_, ?_⟩
  · rcases closed char begins with rfl | rfl | rfl <;> rfl
  · rintro rest rfl
    rcases closed '.' rfl with point | point | point <;> cases point

inductive Opening
  | null
  | flag
  | number
  | text
  | array
  | object
  | nothing
deriving DecidableEq

def Opening.of (char : Char) : Opening :=
  if char = 'n' then .null
  else if char = 't' ∨ char = 'f' then .flag
  else if char = '-' ∨ char.isDigit = true then .number
  else if char = '"' then .text
  else if char = '[' then .array
  else if char = '\x7b' then .object
  else .nothing

def opening : Value → Opening
  | .null => .null
  | .bool _ => .flag
  | .number _ => .number
  | .string _ => .text
  | .array _ => .array
  | .object _ => .object

theorem number_opening {amount : Number} (finite : amount.Finite) :
    ∃ first rest, amount.chars = first :: rest ∧ Opening.of first = .number := by
  obtain ⟨negative, numeral, _, valid, written⟩ := Number.is_spelled finite
  obtain ⟨digit, rest, begins, isDigit⟩ := Lexeme.numeral_begins valid
  rw [written, begins]
  cases negative with
  | true => exact ⟨'-', digit :: rest, rfl, by decide⟩
  | false =>
      refine ⟨digit, rest, rfl, ?_⟩
      have other : digit ≠ 'n' ∧ ¬ (digit = 't' ∨ digit = 'f') := by
        refine ⟨?_, not_or.mpr ⟨?_, ?_⟩⟩ <;> rintro rfl <;> cases isDigit
      rw [Opening.of, if_neg other.1, if_neg other.2, if_pos (.inr isDigit)]

theorem chars_open {value : Value} (finite : value.Finite) :
    ∃ first rest, value.chars = first :: rest ∧ Opening.of first = value.opening := by
  cases value with
  | null => exact ⟨'n', _, rfl, by decide⟩
  | bool flag => cases flag <;> exact ⟨_, _, rfl, by decide⟩
  | number amount => exact number_opening finite
  | string text => exact ⟨'"', _, rfl, rfl⟩
  | array items => exact ⟨'[', _, rfl, rfl⟩
  | object members => exact ⟨'\x7b', _, rfl, rfl⟩

theorem openings_agree {value other : Value} {left otherLeft : List Char} (finite : value.Finite)
    (otherFinite : other.Finite) (same : value.chars ++ left = other.chars ++ otherLeft) : value.opening = other.opening := by
  obtain ⟨first, rest, begins, isOpening⟩ := chars_open finite
  obtain ⟨otherFirst, otherRest, otherBegins, otherOpening⟩ := chars_open otherFinite
  rw [begins, otherBegins] at same
  rw [← isOpening, ← otherOpening, (List.cons.inj same).1]

theorem no_value_closes {value : Value} {left rest : List Char} {char : Char} (finite : value.Finite)
    (closes : Opening.of char = .nothing) : value.chars ++ left ≠ char :: rest := by
  obtain ⟨first, more, begins, isOpening⟩ := chars_open finite
  intro same
  rw [begins] at same
  cases same
  rw [closes] at isOpening
  cases value <;> cases isOpening

def behindItem (left : List Char) : List Value → List Char
  | [] => ']' :: left
  | rest => ',' :: (itemChars rest ++ ']' :: left)

def behindMember (left : List Char) : List (String × Value) → List Char
  | [] => '\x7d' :: left
  | rest => ',' :: (memberChars rest ++ '\x7d' :: left)

theorem item_chars_cons (item : Value) (rest : List Value) (left : List Char) :
    itemChars (item :: rest) ++ ']' :: left = item.chars ++ behindItem left rest := by
  cases rest with
  | nil => rfl
  | cons next rest => simp [itemChars, behindItem]

theorem member_chars_cons (name : String) (value : Value) (rest : List (String × Value)) (left : List Char) :
    memberChars ((name, value) :: rest) ++ '\x7d' :: left =
      quoted name ++ ':' :: (value.chars ++ behindMember left rest) := by
  cases rest with
  | nil => simp [memberChars, behindMember]
  | cons next rest => simp [memberChars, behindMember]

theorem behind_item_closed (left : List Char) (rest : List Value) : Closed (behindItem left rest) := by
  cases rest <;> simp [Closed, behindItem]

theorem behind_member_closed (left : List Char) (rest : List (String × Value)) : Closed (behindMember left rest) := by
  cases rest <;> simp [Closed, behindMember]

mutual

-- Along the first value, its items and members; the rest of the text goes with them.
theorem chars_unique : ∀ (value other : Value) {left otherLeft : List Char}, value.Finite → other.Finite →
    Closed left → Closed otherLeft → value.chars ++ left = other.chars ++ otherLeft → value = other ∧ left = otherLeft
  | .null, other, _, _, finite, otherFinite, _, _, same => by
      have openings := openings_agree finite otherFinite same
      cases other with
      | null => exact ⟨rfl, List.append_cancel_left same⟩
      | _ => cases openings
  | .bool flag, other, _, _, finite, otherFinite, _, _, same => by
      have openings := openings_agree finite otherFinite same
      cases other with
      | bool otherFlag =>
          cases flag <;> cases otherFlag
          · exact ⟨rfl, List.append_cancel_left same⟩
          · cases (List.cons.inj same).1
          · cases (List.cons.inj same).1
          · exact ⟨rfl, List.append_cancel_left same⟩
      | _ => cases openings
  | .number amount, other, _, _, finite, otherFinite, closed, otherClosed, same => by
      have openings := openings_agree finite otherFinite same
      cases other with
      | number otherAmount =>
          obtain ⟨rfl, rest⟩ := numbers_unique finite otherFinite closed.follows otherClosed.follows same
          exact ⟨rfl, rest⟩
      | _ => cases openings
  | .string text, other, _, _, finite, otherFinite, _, _, same => by
      have openings := openings_agree finite otherFinite same
      cases other with
      | string otherText =>
          obtain ⟨rfl, rest⟩ := Lexeme.texts_unique same
          exact ⟨rfl, rest⟩
      | _ => cases openings
  | .array items, other, left, otherLeft, finite, otherFinite, _, _, same => by
      have openings := openings_agree finite otherFinite same
      cases other with
      | array others =>
          have inside : itemChars items ++ ']' :: left = itemChars others ++ ']' :: otherLeft := by
            simpa [chars] using same
          obtain ⟨rfl, rest⟩ := items_unique items others finite otherFinite inside
          exact ⟨rfl, rest⟩
      | _ => cases openings
  | .object members, other, left, otherLeft, finite, otherFinite, _, _, same => by
      have openings := openings_agree finite otherFinite same
      cases other with
      | object others =>
          have inside : memberChars members ++ '\x7d' :: left = memberChars others ++ '\x7d' :: otherLeft := by
            simpa [chars] using same
          obtain ⟨rfl, rest⟩ := members_unique members others finite otherFinite inside
          exact ⟨rfl, rest⟩
      | _ => cases openings

theorem items_unique : ∀ (items others : List Value) {left otherLeft : List Char}, FiniteItems items → FiniteItems others →
    itemChars items ++ ']' :: left = itemChars others ++ ']' :: otherLeft → items = others ∧ left = otherLeft
  | [], others, _, _, _, otherFinite, same => by
      cases others with
      | nil => exact ⟨rfl, (List.cons.inj same).2⟩
      | cons other others =>
          rw [item_chars_cons] at same
          exact absurd same.symm (no_value_closes otherFinite.1 (by decide))
  | item :: rest, others, left, otherLeft, finite, otherFinite, same => by
      cases others with
      | nil =>
          rw [item_chars_cons] at same
          exact absurd same (no_value_closes finite.1 (by decide))
      | cons other others =>
          rw [item_chars_cons, item_chars_cons] at same
          obtain ⟨rfl, behind⟩ := chars_unique item other finite.1 otherFinite.1 (behind_item_closed left rest)
            (behind_item_closed otherLeft others) same
          have both : rest = others ∧ left = otherLeft := by
            cases rest with
            | nil =>
                cases others with
                | nil => exact ⟨rfl, (List.cons.inj behind).2⟩
                | cons _ _ => cases (List.cons.inj behind).1
            | cons next rest =>
                cases others with
                | nil => cases (List.cons.inj behind).1
                | cons _ _ => exact items_unique (next :: rest) _ finite.2 otherFinite.2 (List.cons.inj behind).2
          obtain ⟨rfl, rfl⟩ := both
          exact ⟨rfl, rfl⟩

theorem members_unique : ∀ (members others : List (String × Value)) {left otherLeft : List Char},
    FiniteMembers members → FiniteMembers others →
    memberChars members ++ '\x7d' :: left = memberChars others ++ '\x7d' :: otherLeft →
    members = others ∧ left = otherLeft
  | [], others, _, _, _, otherFinite, same => by
      cases others with
      | nil => exact ⟨rfl, (List.cons.inj same).2⟩
      | cons other others =>
          rw [member_chars_cons] at same
          cases (List.cons.inj same).1
  | (name, value) :: rest, others, left, otherLeft, finite, otherFinite, same => by
      cases others with
      | nil =>
          rw [member_chars_cons] at same
          cases (List.cons.inj same).1
      | cons other others =>
          obtain ⟨otherName, otherValue⟩ := other
          rw [member_chars_cons, member_chars_cons] at same
          obtain ⟨rfl, behindName⟩ := Lexeme.texts_unique same
          obtain ⟨rfl, behind⟩ := chars_unique value otherValue finite.1 otherFinite.1 (behind_member_closed left rest)
            (behind_member_closed otherLeft others) (List.cons.inj behindName).2
          have both : rest = others ∧ left = otherLeft := by
            cases rest with
            | nil =>
                cases others with
                | nil => exact ⟨rfl, (List.cons.inj behind).2⟩
                | cons _ _ => cases (List.cons.inj behind).1
            | cons next rest =>
                cases others with
                | nil => cases (List.cons.inj behind).1
                | cons _ _ => exact members_unique (next :: rest) _ finite.2 otherFinite.2 (List.cons.inj behind).2
          obtain ⟨rfl, rfl⟩ := both
          exact ⟨rfl, rfl⟩

end

/-- Values with finite numbers have the same text only if they are the same in every respect. -/
theorem compact_inj {value other : Value} (finite : value.Finite) (otherFinite : other.Finite) :
    value.compact = other.compact ↔ value = other := by
  constructor
  · intro same
    have chars : value.chars ++ [] = other.chars ++ [] := by
      rw [List.append_nil, List.append_nil]
      exact String.ofList_injective same
    exact (chars_unique value other finite otherFinite closed_nil closed_nil chars).1
  · rintro rfl
    rfl

mutual

theorem same_iff : ∀ (value other : Value), value.Finite → other.Finite →
    (value.same other = true ↔ value.unsigned = other.unsigned)
  | .null, other, _, _ => by cases other <;> simp [same, unsigned]
  | .bool flag, other, _, _ => by cases other <;> simp [same, unsigned]
  | .string text, other, _, _ => by cases other <;> simp [same, unsigned]
  | .number amount, other, finite, otherFinite => by
      cases other with
      | number otherAmount => rw [same, Number.same_iff finite otherFinite, unsigned, unsigned, Value.number.injEq]
      | _ => simp [same, unsigned]
  | .array items, other, finite, otherFinite => by
      cases other with
      | array others => rw [same, same_items_iff items others finite otherFinite, unsigned, unsigned, Value.array.injEq]
      | _ => simp [same, unsigned]
  | .object members, other, finite, otherFinite => by
      cases other with
      | object others =>
          rw [same, same_members_iff members others finite otherFinite, unsigned, unsigned, Value.object.injEq]
      | _ => simp [same, unsigned]

theorem same_items_iff : ∀ (items others : List Value), FiniteItems items → FiniteItems others →
    (sameItems items others = true ↔ unsignedItems items = unsignedItems others)
  | [], others, _, _ => by cases others <;> simp [sameItems, unsignedItems]
  | item :: rest, others, finite, otherFinite => by
      cases others with
      | nil => simp [sameItems, unsignedItems]
      | cons other others =>
          rw [sameItems, Bool.and_eq_true, same_iff item other finite.1 otherFinite.1,
            same_items_iff rest others finite.2 otherFinite.2, unsignedItems, unsignedItems, List.cons.injEq]

theorem same_members_iff : ∀ (members others : List (String × Value)), FiniteMembers members → FiniteMembers others →
    (sameMembers members others = true ↔ unsignedMembers members = unsignedMembers others)
  | [], others, _, _ => by cases others <;> simp [sameMembers, unsignedMembers]
  | (name, value) :: rest, others, finite, otherFinite => by
      cases others with
      | nil => simp [sameMembers, unsignedMembers]
      | cons other others =>
          obtain ⟨otherName, otherValue⟩ := other
          rw [sameMembers, Bool.and_eq_true, Bool.and_eq_true, beq_iff_eq, same_iff value otherValue finite.1 otherFinite.1,
            same_members_iff rest others finite.2 otherFinite.2, unsignedMembers, unsignedMembers, List.cons.injEq,
            Prod.mk.injEq]

end

end DocumentViews.Value
