import DocumentViews.Proofs.Query.Canonical
import DocumentViews.Proofs.Query.Splitting

set_option autoImplicit false

namespace DocumentViews

namespace Token

def isNumber : Token → Bool
  | number _ => true
  | _ => false

def isName : Token → Bool
  | identifier _ => true
  | _ => false

def Plain : Token → Prop
  | number value => 'e' ∉ (Value.ofFloat value).chars
  | _ => True

@[simp]
theorem keyword_plain (word : Keyword) : (keyword word).Plain := trivial

@[simp]
theorem mark_plain (sign : Mark) : (mark sign).Plain := trivial

@[simp]
theorem identifier_plain (name : String) : (identifier name).Plain := trivial

def reread : Token → Token
  | text content => text (Lexeme.reread content)
  | token => token

-- These are no number with a name directly behind it.
def Apart (first second : Token) : Prop := first.isNumber = false ∨ second.isName = false

end Token

namespace Lexeme

variable {readable : Prop} {text left : List Char} {token : Token} {word tokens : List Token}

theorem exponent_name : IsName "e" := is_name_of (by decide) (by decide)

theorem scans_power_sign (power : Int) (left : List Char) :
    ∃ mark, Scans ((if power < 0 then '-' else '+') :: left) (.mark mark) left := by
  split
  · exact ⟨.minus, @scans_sealed .minus (by decide) left⟩
  · exact ⟨.plus, @scans_sealed .plus (by decide) left⟩

-- The digits up to the exponent are a number, its letter is a name, and the sign and the
-- digits behind it are tokens as well.
theorem splits_exponent {numeral : DecimalNumeral} {power : Int} (valid : numeral.Valid) (isPower : numeral.power = some power)
    (follows : Follows left) (splits : SplitsInto left tokens) :
    ∃ others, SplitsInto (numeral.chars ++ left)
      (.number (numberOf numeral.whole numeral.fraction) :: .identifier "e" :: others) := by
  have areDigits : ∀ char ∈ Nat.toDigits 10 power.natAbs ++ [], char.isDigit = true := fun char member =>
    Nat.isDigit_of_mem_toDigits (by decide) (by decide) (List.append_nil _ ▸ member)
  have digits := splits_scans (scans_digits Nat.toDigits_ne_nil areDigits follows.ends_digits) splits
  obtain ⟨mark, sign⟩ := scans_power_sign power (Nat.toDigits 10 power.natAbs ++ left)
  have noPart : ∀ char ∈ ((if power < 0 then '-' else '+') :: (Nat.toDigits 10 power.natAbs ++ left)).head?,
      isNamePart char = false := by
    rintro char ⟨⟩
    split <;> rfl
  have named := splits_scans (scans_identifier exponent_name noPart) (splits_scans sign digits)
  have ends : EndsDigits ("e".toList ++ (if power < 0 then '-' else '+') :: (Nat.toDigits 10 power.natAbs ++ left)) :=
    ⟨by rintro char ⟨⟩; rfl, fun rest same => nomatch same⟩
  have whole := splits_scans (scans_digits valid.present valid.areDigits ends) named
  exact ⟨_, by simpa [DecimalNumeral.chars, DecimalNumeral.powerChars, isPower] using whole⟩

-- The tokens that come back: the same ones with texts as they are read, or a row that has a
-- number with a name directly behind it.
def Rereads (word tokens : List Token) : Prop :=
  ((∀ token ∈ word, token.Plain) ∧ tokens = word.map Token.reread) ∨
    ((∃ token ∈ word, ¬ token.Plain) ∧ ¬ tokens.IsChain Token.Apart)

theorem rereads_behind (plain : token.Plain) (rereads : Rereads word tokens) :
    Rereads (token :: word) (token.reread :: tokens) := by
  rcases rereads with ⟨allPlain, rfl⟩ | ⟨⟨other, member, notPlain⟩, notApart⟩
  · exact .inl ⟨List.forall_mem_cons.mpr ⟨plain, allPlain⟩, rfl⟩
  · exact .inr ⟨⟨other, List.mem_cons_of_mem _ member, notPlain⟩, fun apart => notApart apart.tail⟩

theorem number_plain_iff {numeral : DecimalNumeral} (valid : numeral.Valid)
    (spelled : (Value.ofFloat numeral.toFloat).chars = numeral.chars) :
    (Token.number numeral.toFloat).Plain ↔ numeral.power = none := by
  rw [Token.Plain, spelled, exponent_iff valid, not_not]

/-- A text that spells tokens is split into those tokens, with literal texts as they are read, or else a
number has an exponent and a name stands directly behind a number in the split text. -/
theorem spells_rereads (spells : Spells readable text word) : ∃ tokens, SplitsInto text tokens ∧ Rereads word tokens := by
  induction spells with
  | done => exact ⟨[], splits_nil, .inl ⟨fun _ absent => (nomatch absent), rfl⟩⟩
  | gap gap _ ih =>
      obtain ⟨tokens, splits, rereads⟩ := ih
      exact ⟨tokens, splits_gap gap splits, rereads⟩
  | @word text left token word isWord scans _ ih =>
      obtain ⟨tokens, splits, rereads⟩ := ih
      have same : token.Plain ∧ token.reread = token := by
        cases token with
        | number | text => cases isWord
        | _ => exact ⟨trivial, rfl⟩
      have behind := rereads_behind same.1 rereads
      rw [same.2] at behind
      exact ⟨_, splits_scans scans splits, behind⟩
  | @number text left numeral word valid _ chars spelled follows _ ih =>
      obtain ⟨tokens, splits, rereads⟩ := ih
      rw [spelled]
      cases isPower : numeral.power with
      | none =>
          have plain := (number_plain_iff valid chars).mpr isPower
          exact ⟨_, splits_scans (scans_number valid isPower follows) splits, rereads_behind plain rereads⟩
      | some power =>
          obtain ⟨others, broken⟩ := splits_exponent valid isPower follows splits
          refine ⟨_, broken, .inr ⟨⟨_, List.mem_cons_self, fun plain => ?_⟩, fun apart => ?_⟩⟩
          · cases isPower.symm.trans ((number_plain_iff valid chars).mp plain)
          · rcases apart.rel with noNumber | noName
            · cases noNumber
            · cases noName
  | @text text left content word _ spelled _ ih =>
      obtain ⟨tokens, splits, rereads⟩ := ih
      rw [spelled]
      exact ⟨_, splits_scans (scans_text content left) splits, rereads_behind trivial rereads⟩

end Lexeme

namespace Grammar

open Token

variable {phrase : Phrase} {first second word : List Token} {token : Token}

theorem apart_behind (notNumber : token.isNumber = false) (apart : word.IsChain Apart) : (token :: word).IsChain Apart :=
  List.isChain_cons.mpr ⟨fun _ _ => .inl notNumber, apart⟩

def NoName (word : List Token) : Prop := ∀ token ∈ word.head?, token.isName = false

theorem no_name_joined (front : NoName first) (back : NoName second) : NoName (first ++ second) := by
  cases first with
  | nil => exact back
  | cons => exact front

theorem apart_joined (front : first.IsChain Apart) (back : second.IsChain Apart)
    (noName : NoName second) : (first ++ second).IsChain Apart :=
  List.isChain_append.mpr ⟨front, back, fun _ _ token begins => .inr (noName token begins)⟩

theorem apart_between (front : first.IsChain Apart) (noName : token.isName = false) (notNumber : token.isNumber = false)
    (back : second.IsChain Apart) : (first ++ token :: second).IsChain Apart :=
  apart_joined front (apart_behind notNumber back) (by rintro _ ⟨⟩; exact noName)

theorem more_arguments_begin {list : List Expr} (derived : Derives (.moreArguments list) word) : NoName word := by
  cases derived <;> simp [NoName, isName]

theorem more_members_begin {list : List (String × Expr)} (derived : Derives (.moreMembers list) word) :
    NoName word := by
  cases derived <;> simp [NoName, isName]

/-- In the grammar no name stands directly behind a number. -/
theorem derives_apart (derived : Derives phrase word) : word.IsChain Apart := by
  induction derived with
  | plainTest _ ih | plainChain _ ih | plainUnary _ ih | operand _ ih | plainSuffixed _ ih | plainPrimary _ ih
    | implied _ _ ih => exact ih
  | conditional _ _ _ test consequent alternative =>
      exact apart_between test rfl rfl (apart_between consequent rfl rfl alternative)
  | coalesce _ _ left right | operator _ _ _ left right => exact apart_between left rfl rfl right
  | sign _ ih => exact apart_behind rfl ih
  | access _ ih => exact apart_between ih rfl rfl (.singleton _)
  | method _ _ target list =>
      exact apart_between target rfl rfl (apart_behind rfl (apart_behind rfl (apart_between list rfl rfl .nil)))
  | aggregate _ ih =>
      exact apart_between ih rfl rfl (apart_behind rfl (apart_behind rfl (.singleton _)))
  | aggregateOf _ _ source body =>
      exact apart_between source rfl rfl (apart_behind rfl (apart_behind rfl (apart_behind rfl
        (apart_behind rfl (apart_between body rfl rfl .nil)))))
  | number | text | true | false | null | var => exact .singleton _
  | call _ ih => exact apart_behind rfl (apart_behind rfl (apart_between ih rfl rfl .nil))
  | parenthesized _ ih => exact apart_behind rfl (apart_between ih rfl rfl .nil)
  | object _ ih => exact apart_behind rfl (apart_behind rfl (apart_between ih rfl rfl .nil))
  | noArguments | noMoreArguments | noMembers | noMoreMembers => exact .nil
  | trailingComma => exact .singleton _
  | arguments _ more argument others => exact apart_joined argument others (more_arguments_begin more)
  | moreArguments _ more argument others =>
      exact apart_behind rfl (apart_joined argument others (more_arguments_begin more))
  | named _ ih => exact apart_behind rfl (apart_behind rfl ih)
  | members _ more member others => exact apart_joined member others (more_members_begin more)
  | moreMembers _ more member others =>
      exact apart_behind rfl (apart_joined member others (more_members_begin more))

theorem clauses_begin {clauses : List Clause} (derived : DerivesClauses clauses word) : NoName word := by
  cases derived <;> simp [NoName, isName]

theorem group_begins {group : Option GroupClause} (derived : DerivesGroup group word) : NoName word := by
  cases derived <;> simp [NoName, isName]

theorem derives_clauses_apart {clauses : List Clause} (derived : DerivesClauses clauses word) : word.IsChain Apart := by
  induction derived with
  | none => exact .nil
  | each derived more ih | define derived more ih =>
      exact apart_behind rfl (apart_behind rfl (apart_behind rfl
        (apart_joined (derives_apart derived) ih (clauses_begin more))))
  | filter derived more ih => exact apart_behind rfl (apart_joined (derives_apart derived) ih (clauses_begin more))

theorem derives_group_apart {group : Option GroupClause} (derived : DerivesGroup group word) : word.IsChain Apart := by
  cases derived with
  | none => exact .nil
  | group element key =>
      exact apart_behind rfl (apart_between (derives_apart element) rfl rfl
        (apart_between (derives_apart key) rfl rfl (.singleton _)))

theorem source_apart (source : Source) : (sourceWord source).IsChain Apart := by
  match source with
  | .documents none | .results => exact .singleton _
  | .documents (some _) => exact apart_behind rfl (apart_behind rfl (.singleton _))

theorem derives_query_apart {query : Query} (derived : DerivesQuery query word) : word.IsChain Apart := by
  cases derived with
  | @query _ source _ _ _ _ _ third clauses group select =>
      have atSelect : NoName (.keyword .selectWord :: third) := by rintro _ ⟨⟩; rfl
      have atGroup := no_name_joined (group_begins group) atSelect
      have selected := apart_joined (derives_group_apart group) (apart_behind rfl (derives_apart select)) atSelect
      have rows := apart_joined (derives_clauses_apart clauses) selected atGroup
      have behindIn := apart_joined (source_apart source) rows (no_name_joined (clauses_begin clauses) atGroup)
      exact apart_behind rfl (apart_behind rfl (apart_behind rfl behindIn))

end Grammar
end DocumentViews
