import DocumentViews.Proofs.Query.Cost
import DocumentViews.Proofs.Query.Every

set_option autoImplicit false

namespace DocumentViews

def BinaryOp.mark : BinaryOp → Mark
  | multiply => .star
  | divide => .slash
  | remainder => .percent
  | add => .plus
  | subtract => .minus
  | less => .less
  | lessEqual => .lessEqual
  | greater => .greater
  | greaterEqual => .greaterEqual
  | equal => .equal
  | notEqual => .notEqual
  | both => .both
  | either => .either
  | coalesce => .coalesce

theorem BinaryOp.symbol_chars (op : BinaryOp) : op.symbol.toList = op.mark.spelling := by cases op <;> rfl

namespace Expr

def dots : Expr → Nat
  | .member target _ | .method target _ _ | .aggregate target _ | .aggregateOf target _ _ _ => dots target + 1
  | _ => 0

mutual

-- The levels that it takes to read the canonical text of an expression.
def levels : Expr → Nat
  | .literal _ => 1
  | .var _ => 1
  | .member target _ => max (levels target) (dots target + 2)
  | .unary _ operand => levels operand + 1
  | .binary _ left right => max (levels left) (levels right + 1) + 1
  | .conditional test consequent alternative =>
      max (levels test) (max (levels consequent + 1) (levels alternative + 1)) + 1
  | .method target _ arguments => max (levels target) (levelsOfAll arguments + dots target + 2)
  | .aggregate source _ => max (levels source) (dots source + 2)
  | .aggregateOf source _ _ body => max (levels source) (levels body + dots source + 2)
  | .call _ arguments => levelsOfAll arguments + 1
  | .object members => levelsOfMembers members + 1

def levelsOfAll : List Expr → Nat
  | [] => 0
  | expr :: rest => max (levels expr) (levelsOfAll rest)

def levelsOfMembers : List (String × Expr) → Nat
  | [] => 0
  | (_, expr) :: rest => max (levels expr) (levelsOfMembers rest)

end

end Expr

namespace Lexeme

variable {readable : Prop} {text left : List Char} {tokens : List Token}

theorem solid_split {first : Char} {rest : List Char} (solid : isGap first = false) (noSlash : first ≠ '/') :
    splitGap false (first :: rest) = ([], first :: rest) := by
  simp [splitGap, solid, noSlash]

theorem name_start_solid {char : Char} (starts : isNameStart char = true) : isGap char = false ∧ char ≠ '/' := by
  have code := name_start_code starts
  constructor
  · refine Bool.eq_false_iff.mpr fun gap => ?_
    rcases gap_cases gap with rfl | rfl | rfl | rfl | rfl <;> exact absurd code (by decide)
  · rintro rfl
    exact absurd code (by decide)

theorem scan_name {first : Char} {rest : List Char} (starts : isNameStart first = true)
    (parts : ∀ char ∈ rest, isNamePart char = true) (ends : ∀ char ∈ left.head?, isNamePart char = false) :
    scan first (rest ++ left) =
      match Keyword.named? (String.ofList (first :: rest)) with
      | some word => .ok (.keyword word, first :: rest)
      | none => .ok (.identifier (String.ofList (first :: rest)), first :: rest) := by
  have name := (span_front parts ends).1
  cases known : Keyword.named? (String.ofList (first :: rest)) <;> simp only [scan, if_pos starts, name, known]

theorem scans_identifier {name : String} (isName : IsName name) (ends : ∀ char ∈ left.head?, isNamePart char = false) :
    Scans (name.toList ++ left) (.identifier name) left := by
  obtain ⟨first, rest, chars, starts, parts⟩ := isName.begins
  obtain ⟨solid, noSlash⟩ := name_start_solid starts
  have whole : String.ofList (first :: rest) = name := by rw [← chars, String.ofList_toList]
  refine ⟨first, rest, by rw [chars]; rfl, ?_, ?_⟩
  · rw [scan_name starts parts ends, whole, isName.free]
  · rw [chars]
    exact solid_split solid noSlash

theorem keyword_spelt (word : Keyword) : startsName word.spelling.toList = true := by
  cases word <;> decide

theorem keyword_named (word : Keyword) : Keyword.named? word.spelling = some word := by
  cases word <;> decide

theorem scans_keyword (word : Keyword) (ends : ∀ char ∈ left.head?, isNamePart char = false) :
    Scans (word.spelling.toList ++ left) (.keyword word) left := by
  obtain ⟨first, rest, chars, starts, parts⟩ := name_begins (keyword_spelt word)
  obtain ⟨solid, noSlash⟩ := name_start_solid starts
  have whole : String.ofList (first :: rest) = word.spelling := by rw [← chars, String.ofList_toList]
  refine ⟨first, rest, by rw [chars]; rfl, ?_, ?_⟩
  · rw [scan_name starts parts ends, whole, keyword_named]
  · rw [chars]
    exact solid_split solid noSlash

def sealedMarks : List Mark := [.openParen, .closeParen, .dot, .comma, .plus, .minus, .openBrace, .closeBrace, .colon]

theorem scans_sealed {mark : Mark} (isSealed : mark ∈ sealedMarks) (left : List Char) :
    Scans (mark.spelling ++ left) (.mark mark) left := by
  simp only [sealedMarks, List.mem_cons, List.not_mem_nil, or_false] at isSealed
  rcases isSealed with rfl | rfl | rfl | rfl | rfl | rfl | rfl | rfl | rfl <;> exact ⟨_, [], rfl, rfl, rfl⟩

-- No mark has a blank in it, so none goes on into a gap.
theorem scans_parted (mark : Mark) (ends : ∀ char ∈ left.head?, isGap char = true) :
    Scans (mark.spelling ++ left) (.mark mark) left := by
  cases left with
  | nil => cases mark <;> first | exact ⟨_, [], rfl, rfl, rfl⟩ | exact ⟨_, [_], rfl, rfl, rfl⟩
  | cons char left =>
      rcases gap_cases (ends char rfl) with rfl | rfl | rfl | rfl | rfl <;>
        cases mark <;> first | exact ⟨_, [], rfl, rfl, rfl⟩ | exact ⟨_, [_], rfl, rfl, rfl⟩

theorem scans_bang (next : left.head? ≠ some '=') : Scans ('!' :: left) (.mark .bang) left := by
  refine ⟨'!', [], rfl, ?_, rfl⟩
  cases left with
  | nil => rfl
  | cons char left =>
      have differs : ('=' == char) = false := by
        refine Bool.eq_false_iff.mpr fun same => next ?_
        rw [← beq_iff_eq.mp same]
        rfl
      have found : Mark.all.find? (fun mark => mark.spelling.isPrefixOf ('!' :: char :: left)) = some .bang := by
        simp [Mark.all, Mark.spelling, List.isPrefixOf, differs]
      rw [List.nil_append, scan, if_neg (by decide), if_neg (by decide), if_neg (by decide), found]
      rfl

theorem follows_nil : Follows [] := ⟨fun _ begins => (nomatch begins), fun _ same => (nomatch same)⟩

theorem follows_char (char : Char) (part : isNamePart char = false) (notPoint : char ≠ '.') (rest : List Char) :
    Follows (char :: rest) where
  parts := by
    rintro other ⟨⟩
    exact part
  point := fun _ same => absurd (List.cons.inj same).1 notPoint

theorem follows_point {first : Char} (starts : isNameStart first = true) (rest : List Char) :
    Follows ('.' :: first :: rest) where
  parts := by
    rintro other ⟨⟩
    rfl
  point := by
    rintro others ⟨⟩ char ⟨⟩
    exact Bool.eq_false_iff.mpr fun digit => digit_no_start digit starts

theorem spells_sealed (mark : Mark) (isSealed : mark ∈ sealedMarks) (spells : Spells readable left tokens) :
    Spells readable (mark.spelling ++ left) (.mark mark :: tokens) := .word trivial (scans_sealed isSealed left) spells

theorem spells_space (spells : Spells readable left tokens) : Spells readable (' ' :: left) tokens := .gap rfl spells

theorem spells_spaced (mark : Mark) (spells : Spells readable left tokens) :
    Spells readable (mark.spelling ++ ' ' :: left) (.mark mark :: tokens) :=
  .word trivial (scans_parted mark (by rintro _ ⟨⟩; rfl)) (.gap rfl spells)

theorem spells_bang (next : left.head? ≠ some '=') (spells : Spells readable left tokens) :
    Spells readable ('!' :: left) (.mark .bang :: tokens) := .word trivial (scans_bang next) spells

theorem spells_keyword (word : Keyword) (spells : Spells readable left tokens) :
    Spells readable (word.spelling.toList ++ ' ' :: left) (.keyword word :: tokens) :=
  .word trivial (scans_keyword word (by rintro char ⟨⟩; rfl)) (.gap rfl spells)

theorem spells_name {name : String} (isName : IsName name) (ends : ∀ char ∈ left.head?, isNamePart char = false)
    (spells : Spells readable left tokens) : Spells readable (name.toList ++ left) (.identifier name :: tokens) :=
  .word trivial (scans_identifier isName ends) spells

-- The text spells these tokens in front of whatever does not run into it.
def Spelt (readable : Prop) (text : List Char) (word : List Token) : Prop :=
  ∀ {left : List Char} {tokens : List Token}, Follows left → Spells readable left tokens →
    Spells readable (text ++ left) (word ++ tokens)

end Lexeme

namespace Grammar

open Lexeme

variable {readable : Prop} {expr : Expr} {word first second inner : List Token} {links cost i j a b : Nat}

theorem chain_of_unary (needs : Needs (.unary expr) word links cost) :
    (levels : List Level) → Needs (.chain levels expr) word 0 cost
  | [] => .plainUnary needs
  | _ :: tighter => .operand (chain_of_unary needs tighter)

theorem expression_of_unary (needs : Needs (.unary expr) word links cost) : Needs (.expression expr) word 0 cost :=
  .plainTest (.plainChain (chain_of_unary needs Level.all))

theorem chain_above {levels : List Level} (needs : Needs (.chain levels expr) word links cost) :
    (front : List Level) → ∃ links, Needs (.chain (front ++ levels) expr) word links cost
  | [] => ⟨links, needs⟩
  | _ :: front => ⟨0, .operand (chain_above needs front).choose_spec⟩

theorem operation_needs {op : BinaryOp} {mark : Mark} {left right : Expr} {level : Level} (front tighter : List Level)
    (known : level.operator? mark = some op) (isAll : front ++ level :: tighter = Level.all)
    (leftNeeds : Needs (.unary left) first i a) (rightNeeds : Needs (.unary right) second j b) :
    Needs (.expression (.binary op left right)) (first ++ .mark mark :: second) 0 (max a (b + 1)) := by
  obtain ⟨links, whole⟩ :=
    chain_above (.operator known (chain_of_unary leftNeeds _) (chain_of_unary rightNeeds _)) front
  rw [isAll] at whole
  exact .plainTest (.plainChain whole)

theorem binary_needs (op : BinaryOp) {left right : Expr} (leftNeeds : Needs (.unary left) first i a)
    (rightNeeds : Needs (.unary right) second j b) :
    Needs (.expression (.binary op left right)) (first ++ .mark op.mark :: second) 0 (max a (b + 1)) := by
  cases op with
  | coalesce => exact .plainTest (.coalesce (chain_of_unary leftNeeds _) (.plainChain (chain_of_unary rightNeeds _)))
  | either => exact operation_needs [] _ rfl rfl leftNeeds rightNeeds
  | both => exact operation_needs [.either] _ rfl rfl leftNeeds rightNeeds
  | equal | notEqual => exact operation_needs [.either, .both] _ rfl rfl leftNeeds rightNeeds
  | less | lessEqual | greater | greaterEqual =>
      exact operation_needs [.either, .both, .equality] _ rfl rfl leftNeeds rightNeeds
  | add | subtract => exact operation_needs [.either, .both, .equality, .comparison] _ rfl rfl leftNeeds rightNeeds
  | multiply | divide | remainder =>
      exact operation_needs [.either, .both, .equality, .comparison, .sum] _ rfl rfl leftNeeds rightNeeds

structure Canonical (readable : Prop) (expr : Expr) (word : List Token) : Prop where
  unary : Needs (.unary expr) word 0 expr.levels
  suffixed : expr.isSigned = false → Needs (.suffixed expr) word expr.dots expr.levels
  spelt : Spelt readable expr.text.toList word

theorem canonical_suffixed (needs : Needs (.suffixed expr) word expr.dots expr.levels)
    (spelt : Spelt readable expr.text.toList word) : Canonical readable expr word :=
  ⟨.plainSuffixed needs, fun _ => needs, spelt⟩

theorem canonical_parenthesized (needs : Needs (.expression expr) inner links cost) (noDots : expr.dots = 0)
    (deeper : expr.levels = cost + 1) (chars : List Char) (isText : expr.text.toList = '(' :: (chars ++ [')']))
    (spelt : Spelt readable chars inner) :
    Canonical readable expr (.mark .openParen :: (inner ++ [.mark .closeParen])) := by
  have suffixed : Needs (.suffixed expr) (.mark .openParen :: (inner ++ [.mark .closeParen])) expr.dots expr.levels := by
    rw [noDots, deeper]
    exact .plainPrimary (.parenthesized needs)
  refine canonical_suffixed suffixed fun {left tokens} _ spells => ?_
  have close := spells_sealed .closeParen (by decide) spells
  have body := spelt (follows_char ')' rfl (by decide) left) close
  have whole := spells_sealed .openParen (by decide) body
  simpa [isText, Mark.spelling] using whole

theorem keyword_canonical {value : Value} (word : Keyword) (needs : Needs (.primary (.literal value)) [.keyword word] 0 1)
    (isText : (Expr.literal value).text = word.spelling) : Canonical readable (.literal value) [.keyword word] := by
  refine canonical_suffixed (.plainPrimary needs) fun {left tokens} follows spells => ?_
  rw [isText]
  exact .word trivial (scans_keyword word follows.parts) spells

theorem literal_canonical {value : Value} (lexed : (Expr.literal value).Every Expr.Lexed)
    (printable : readable → (Expr.literal value).Every Expr.Readable) :
    ∃ word, Canonical readable (.literal value) word := by
  rcases lexed with rfl | ⟨flag, rfl⟩ | ⟨content, rfl⟩ | ⟨numerator, denominator, rfl⟩
  · exact ⟨_, keyword_canonical .nullWord .null rfl⟩
  · cases flag with
    | true => exact ⟨_, keyword_canonical .trueWord .true rfl⟩
    | false => exact ⟨_, keyword_canonical .falseWord .false rfl⟩
  · refine ⟨_, canonical_suffixed (.plainPrimary (.text content)) fun {left tokens} _ spells => ?_⟩
    exact .text printable (by rw [Expr.text, Value.compact, String.toList_ofList, Value.chars]) spells
  · rcases nearest_spelled numerator denominator with isNull | ⟨number, numeral, isNumber, valid, chars, read⟩
    · rw [isNull]
      exact ⟨_, keyword_canonical .nullWord .null rfl⟩
    · have needs : Needs (.primary (.literal (.ofFloat (Dyadic.nearest false numerator denominator))))
          [.number numeral.toFloat] 0 1 := read ▸ .number numeral.toFloat
      rw [isNumber] at needs printable ⊢
      refine ⟨_, canonical_suffixed (.plainPrimary needs) fun {left tokens} follows spells => ?_⟩
      refine .number valid (fun holds => ?_) ?_ ?_ follows spells
      · have noPower : 'e' ∉ number.chars := printable holds
        rw [chars, exponent_iff valid] at noPower
        exact not_not.mp noPower
      · rw [read, isNumber, Value.chars, chars]
      · rw [Expr.text, Value.compact, String.toList_ofList, Value.chars, chars]

theorem var_canonical {name : String} (isName : IsName name) : Canonical readable (.var name) [.identifier name] :=
  canonical_suffixed (.plainPrimary (.var name)) fun follows spells => spells_name isName follows.parts spells

theorem spells_dot {name : String} (isName : IsName name) {left : List Char} {tokens : List Token}
    (ends : ∀ char ∈ left.head?, isNamePart char = false) (spells : Spells readable left tokens) :
    Follows ('.' :: (name.toList ++ left)) ∧
      Spells readable ('.' :: (name.toList ++ left)) (.mark .dot :: .identifier name :: tokens) := by
  constructor
  · obtain ⟨char, rest, chars, starts, _⟩ := isName.begins
    rw [chars]
    exact follows_point starts _
  · exact spells_sealed .dot (by decide) (spells_name isName ends spells)

theorem member_canonical {target : Expr} {name : String} (isName : IsName name) (unsigned : target.isSigned = false)
    (canonical : Canonical readable target word) :
    Canonical readable (.member target name) (word ++ [.mark .dot, .identifier name]) := by
  refine canonical_suffixed (.access (canonical.suffixed unsigned)) fun {left tokens} follows spells => ?_
  obtain ⟨ends, access⟩ := spells_dot isName follows.parts spells
  have whole := canonical.spelt ends access
  simpa [Expr.text] using whole

theorem method_name (asked : TextMethod) : IsName asked.name := by
  cases asked <;> exact is_name_of (by decide) (by decide)

theorem aggregate_name (function : Aggregate) : IsName function.name := by
  cases function <;> exact is_name_of (by decide) (by decide)

structure CanonicalList (readable : Prop) (list : List Expr) (inner : List Token) : Prop where
  needs : Needs (.arguments list) inner 0 (Expr.levelsOfAll list)
  spelt : Spelt readable (Expr.argumentText list).toList inner

theorem CanonicalList.spells {list : List Expr} (canonical : CanonicalList readable list inner) {left : List Char}
    {tokens : List Token} (spells : Spells readable left tokens) :
    Spells readable ('(' :: ((Expr.argumentText list).toList ++ ')' :: left))
      (.mark .openParen :: (inner ++ .mark .closeParen :: tokens)) := by
  have close := spells_sealed .closeParen (by decide) spells
  have body := canonical.spelt (follows_char ')' rfl (by decide) left) close
  exact spells_sealed .openParen (by decide) body

theorem method_canonical {target : Expr} {asked : TextMethod} {list : List Expr} (unsigned : target.isSigned = false)
    (canonical : Canonical readable target word) (canonicalList : CanonicalList readable list inner) :
    Canonical readable (.method target asked list)
      (word ++ .mark .dot :: .identifier asked.name :: .mark .openParen :: (inner ++ [.mark .closeParen])) := by
  refine canonical_suffixed (.method (canonical.suffixed unsigned) canonicalList.needs) fun {left tokens} _ spells => ?_
  have arguments := canonicalList.spells spells
  obtain ⟨ends, access⟩ := spells_dot (method_name asked) (by rintro char ⟨⟩; rfl) arguments
  have whole := canonical.spelt ends access
  simpa [Expr.text] using whole

theorem aggregate_canonical {source : Expr} {function : Aggregate} (unsigned : source.isSigned = false)
    (canonical : Canonical readable source word) :
    Canonical readable (.aggregate source function)
      (word ++ [.mark .dot, .identifier function.name, .mark .openParen, .mark .closeParen]) := by
  refine canonical_suffixed (.aggregate (canonical.suffixed unsigned)) fun {left tokens} _ spells => ?_
  have close := spells_sealed .closeParen (by decide) spells
  have parens := spells_sealed .openParen (by decide) close
  obtain ⟨ends, access⟩ := spells_dot (aggregate_name function) (by rintro char ⟨⟩; rfl) parens
  have whole := canonical.spelt ends access
  simpa [Expr.text, Mark.spelling] using whole

theorem aggregate_of_canonical {source body : Expr} {function : Aggregate} {parameter : String}
    (isName : IsName parameter) (unsigned : source.isSigned = false) (canonical : Canonical readable source word)
    (canonicalBody : Canonical readable body inner) :
    Canonical readable (.aggregateOf source function parameter body)
      (word ++ .mark .dot :: .identifier function.name :: .mark .openParen :: .identifier parameter ::
        .mark .arrow :: (inner ++ [.mark .closeParen])) := by
  refine canonical_suffixed (.aggregateOf (canonical.suffixed unsigned) (expression_of_unary canonicalBody.unary))
    fun {left tokens} _ spells => ?_
  have close := spells_sealed .closeParen (by decide) spells
  have inside := canonicalBody.spelt (follows_char ')' rfl (by decide) left) close
  have arrow := spells_space (spells_spaced .arrow inside)
  have lambda := spells_name isName (by rintro char ⟨⟩; rfl) arrow
  have parens := spells_sealed .openParen (by decide) lambda
  obtain ⟨ends, access⟩ := spells_dot (aggregate_name function) (by rintro char ⟨⟩; rfl) parens
  have whole := canonical.spelt ends access
  simpa [Expr.text, Mark.spelling] using whole

theorem no_arguments_canonical : CanonicalList readable [] [] := ⟨.noArguments, fun _ spells => spells⟩

theorem one_argument_canonical {argument : Expr} (canonical : Canonical readable argument word) :
    CanonicalList readable [argument] word where
  needs := by
    rw [← List.append_nil word]
    exact .arguments (expression_of_unary canonical.unary) .noMoreArguments
  spelt := canonical.spelt

theorem more_of_arguments {argument : Expr} {list : List Expr}
    (needs : Needs (.arguments (argument :: list)) word links cost) :
    Needs (.moreArguments (argument :: list)) (.mark .comma :: word) 0 cost := by
  cases needs with
  | arguments first others => exact .moreArguments first others

theorem arguments_canonical {argument next : Expr} {list : List Expr} (canonical : Canonical readable argument word)
    (canonicalList : CanonicalList readable (next :: list) inner) :
    CanonicalList readable (argument :: next :: list) (word ++ .mark .comma :: inner) where
  needs := .arguments (expression_of_unary canonical.unary) (more_of_arguments canonicalList.needs)
  spelt := by
    intro left tokens follows spells
    have comma := spells_sealed .comma (by decide) (spells_space (canonicalList.spelt follows spells))
    have whole := canonical.spelt (follows_char ',' rfl (by decide) _) comma
    simpa [Expr.argumentText, Mark.spelling] using whole

theorem call_canonical {function : String} {list : List Expr} (isName : IsName function)
    (canonicalList : CanonicalList readable list inner) :
    Canonical readable (.call function list)
      (.identifier function :: .mark .openParen :: (inner ++ [.mark .closeParen])) := by
  refine canonical_suffixed (.plainPrimary (.call canonicalList.needs)) fun {left tokens} _ spells => ?_
  have whole := spells_name isName (by rintro char ⟨⟩; rfl) (canonicalList.spells spells)
  simpa [Expr.text] using whole

structure CanonicalMembers (readable : Prop) (list : List (String × Expr)) (inner : List Token) : Prop where
  needs : Needs (.members list) inner 0 (Expr.levelsOfMembers list)
  spelt : Spelt readable (Expr.memberText list).toList inner

theorem no_members_canonical : CanonicalMembers readable [] [] := ⟨.noMembers, fun _ spells => spells⟩

theorem spells_member {name : String} {value : Expr} (isName : IsName name) (canonical : Canonical readable value word)
    {left : List Char} {tokens : List Token} (follows : Follows left) (spells : Spells readable left tokens) :
    Spells readable (name.toList ++ ' ' :: '=' :: ' ' :: (value.text.toList ++ left))
      (.identifier name :: .mark .assign :: (word ++ tokens)) :=
  spells_name isName (by rintro char ⟨⟩; rfl) (spells_space (spells_spaced .assign (canonical.spelt follows spells)))

theorem one_member_canonical {name : String} {value : Expr} (isName : IsName name)
    (canonical : Canonical readable value word) :
    CanonicalMembers readable [(name, value)] (.identifier name :: .mark .assign :: word) where
  needs := by
    have named : Needs (.member name value) (.identifier name :: .mark .assign :: word) 0 value.levels :=
      .named (expression_of_unary canonical.unary)
    have needs := Needs.members named .noMoreMembers
    rwa [List.append_nil] at needs
  spelt := by
    intro left tokens follows spells
    have whole := spells_member isName canonical follows spells
    simpa [Expr.memberText] using whole

theorem more_of_members {member : String × Expr} {list : List (String × Expr)}
    (needs : Needs (.members (member :: list)) word links cost) :
    Needs (.moreMembers (member :: list)) (.mark .comma :: word) 0 cost := by
  cases needs with
  | members first others => exact .moreMembers first others

theorem members_canonical {name : String} {value : Expr} {next : String × Expr} {list : List (String × Expr)}
    (isName : IsName name) (canonical : Canonical readable value word)
    (canonicalMembers : CanonicalMembers readable (next :: list) inner) :
    CanonicalMembers readable ((name, value) :: next :: list)
      ((.identifier name :: .mark .assign :: word) ++ .mark .comma :: inner) where
  needs := .members (.named (expression_of_unary canonical.unary)) (more_of_members canonicalMembers.needs)
  spelt := by
    intro left tokens follows spells
    have comma := spells_sealed .comma (by decide) (spells_space (canonicalMembers.spelt follows spells))
    have whole := spells_member isName canonical (follows_char ',' rfl (by decide) _) comma
    simpa [Expr.memberText, Mark.spelling] using whole

theorem object_canonical {list : List (String × Expr)} (canonicalMembers : CanonicalMembers readable list inner) :
    Canonical readable (.object list) (.keyword .newWord :: .mark .openBrace :: (inner ++ [.mark .closeBrace])) := by
  refine canonical_suffixed (.plainPrimary (.object canonicalMembers.needs)) fun {left tokens} _ spells => ?_
  have close := spells_space (spells_sealed .closeBrace (by decide) spells)
  have members := spells_space (canonicalMembers.spelt (follows_char ' ' rfl (by decide) _) close)
  have whole := spells_keyword .newWord (spells_sealed .openBrace (by decide) members)
  simpa [Expr.text, Mark.spelling, Keyword.spelling] using whole

theorem binary_canonical {op : BinaryOp} {left right : Expr} (leftCanonical : Canonical readable left first)
    (rightCanonical : Canonical readable right second) :
    Canonical readable (.binary op left right)
      (.mark .openParen :: ((first ++ .mark op.mark :: second) ++ [.mark .closeParen])) := by
  refine canonical_parenthesized (binary_needs op leftCanonical.unary rightCanonical.unary) rfl rfl
    (left.text.toList ++ ' ' :: (op.mark.spelling ++ ' ' :: right.text.toList)) ?_ ?_
  · simp [Expr.text, op.symbol_chars]
  · intro rest tokens follows spells
    have operand := spells_space (spells_spaced op.mark (rightCanonical.spelt follows spells))
    have whole := leftCanonical.spelt (follows_char ' ' rfl (by decide) _) operand
    simpa using whole

theorem conditional_canonical {test consequent alternative : Expr} {third : List Token}
    (testCanonical : Canonical readable test first) (consequentCanonical : Canonical readable consequent second)
    (alternativeCanonical : Canonical readable alternative third) :
    Canonical readable (.conditional test consequent alternative)
      (.mark .openParen :: ((first ++ .mark .question :: (second ++ .mark .colon :: third)) ++ [.mark .closeParen])) := by
  refine canonical_parenthesized (.conditional (.plainChain (chain_of_unary testCanonical.unary _))
      (expression_of_unary consequentCanonical.unary) (expression_of_unary alternativeCanonical.unary)) rfl rfl
    (test.text.toList ++ ' ' :: '?' :: ' ' :: (consequent.text.toList ++ ' ' :: ':' :: ' ' :: alternative.text.toList)) ?_ ?_
  · simp [Expr.text]
  · intro rest tokens follows spells
    have colon := spells_space (spells_spaced .colon (alternativeCanonical.spelt follows spells))
    have branches := consequentCanonical.spelt (follows_char ' ' rfl (by decide) _) colon
    have question := spells_space (spells_spaced .question branches)
    have whole := testCanonical.spelt (follows_char ' ' rfl (by decide) _) question
    simpa [Mark.spelling] using whole

-- No text of an expression begins with the sign that would make a `!` another mark.
theorem expression_no_equals {text : List Char} {token : Token} {tokens : List Token} (begins : Begins token)
    (spells : Spells readable text (token :: tokens)) : text.head? ≠ some '=' := by
  intro equals
  cases text with
  | nil => cases equals
  | cons char rest =>
      obtain rfl : char = '=' := Option.some.inj equals
      have isWord : beginning ('=' :: rest) = .word := rfl
      cases spells with
      | gap gap _ => cases gap
      | number valid _ _ spelled _ _ => cases isWord.symm.trans (number_beginning valid spelled)
      | text _ spelled _ => cases isWord.symm.trans (text_beginning spelled)
      | word _ scans _ =>
          obtain ⟨first, spelling, same, scanned, _⟩ := scans
          obtain ⟨rfl, _⟩ := List.cons.inj same
          rw [scan, if_neg (by decide), if_neg (by decide), if_neg (by decide)] at scanned
          split at scanned
          next mark found =>
            obtain ⟨rfl, spelled⟩ := Prod.mk.inj (Except.ok.inj scanned)
            rcases begins with opens | signed | signed
            · obtain rfl : mark = .openParen := opens
              cases spelled
            · cases signed
              cases spelled
            · cases signed
              cases spelled
          next => cases scanned

theorem unary_canonical {op : UnaryOp} {operand : Expr} (canonical : Canonical readable operand word) :
    Canonical readable (.unary op operand) (.mark op.mark :: word) where
  unary := .sign canonical.unary
  suffixed := fun unsigned => nomatch unsigned
  spelt := by
    intro left tokens follows spells
    have inside := canonical.spelt follows spells
    cases op with
    | negate =>
        have whole := spells_sealed .minus (by decide) inside
        simpa [Expr.text, UnaryOp.symbol, UnaryOp.mark, Mark.spelling] using whole
    | not =>
        obtain ⟨token, others, rfl, begins⟩ := derives_leads canonical.unary.derives
        have whole := spells_bang (expression_no_equals begins inside) inside
        simpa [Expr.text, UnaryOp.symbol, UnaryOp.mark] using whole

mutual

theorem canonical_exists (readable : Prop) (expr : Expr) (lexed : expr.Every Expr.Lexed)
    (unsigned : expr.Every Expr.SuffixesUnsigned) (printable : readable → expr.Every Expr.Readable) :
    ∃ word, Canonical readable expr word := by
  cases expr with
  | literal value => exact literal_canonical lexed printable
  | var name => exact ⟨_, var_canonical lexed⟩
  | member target name =>
      obtain ⟨word, canonical⟩ := canonical_exists readable target lexed.2 unsigned.2 fun holds => (printable holds).2
      exact ⟨_, member_canonical lexed.1 unsigned.1 canonical⟩
  | unary op operand =>
      obtain ⟨word, canonical⟩ := canonical_exists readable operand lexed.2 unsigned.2 fun holds => (printable holds).2
      exact ⟨_, unary_canonical canonical⟩
  | binary op left right =>
      obtain ⟨first, leftCanonical⟩ :=
        canonical_exists readable left lexed.2.1 unsigned.2.1 fun holds => (printable holds).2.1
      obtain ⟨second, rightCanonical⟩ :=
        canonical_exists readable right lexed.2.2 unsigned.2.2 fun holds => (printable holds).2.2
      exact ⟨_, binary_canonical leftCanonical rightCanonical⟩
  | conditional test consequent alternative =>
      obtain ⟨first, testCanonical⟩ :=
        canonical_exists readable test lexed.2.1 unsigned.2.1 fun holds => (printable holds).2.1
      obtain ⟨second, consequentCanonical⟩ :=
        canonical_exists readable consequent lexed.2.2.1 unsigned.2.2.1 fun holds => (printable holds).2.2.1
      obtain ⟨third, alternativeCanonical⟩ :=
        canonical_exists readable alternative lexed.2.2.2 unsigned.2.2.2 fun holds => (printable holds).2.2.2
      exact ⟨_, conditional_canonical testCanonical consequentCanonical alternativeCanonical⟩
  | method target asked arguments =>
      obtain ⟨word, canonical⟩ :=
        canonical_exists readable target lexed.2.1 unsigned.2.1 fun holds => (printable holds).2.1
      obtain ⟨inner, canonicalList⟩ :=
        arguments_exist readable arguments lexed.2.2 unsigned.2.2 fun holds => (printable holds).2.2
      exact ⟨_, method_canonical unsigned.1 canonical canonicalList⟩
  | aggregate source function =>
      obtain ⟨word, canonical⟩ := canonical_exists readable source lexed.2 unsigned.2 fun holds => (printable holds).2
      exact ⟨_, aggregate_canonical unsigned.1 canonical⟩
  | aggregateOf source function parameter body =>
      obtain ⟨word, canonical⟩ :=
        canonical_exists readable source lexed.2.1 unsigned.2.1 fun holds => (printable holds).2.1
      obtain ⟨inner, canonicalBody⟩ :=
        canonical_exists readable body lexed.2.2 unsigned.2.2 fun holds => (printable holds).2.2
      exact ⟨_, aggregate_of_canonical lexed.1 unsigned.1 canonical canonicalBody⟩
  | call function arguments =>
      obtain ⟨inner, canonicalList⟩ :=
        arguments_exist readable arguments lexed.2 unsigned.2 fun holds => (printable holds).2
      exact ⟨_, call_canonical lexed.1 canonicalList⟩
  | object members =>
      obtain ⟨inner, canonicalMembers⟩ :=
        members_exist readable members lexed.1 lexed.2 unsigned.2 fun holds => (printable holds).2
      exact ⟨_, object_canonical canonicalMembers⟩

theorem arguments_exist (readable : Prop) (list : List Expr) (lexed : Expr.EveryOf Expr.Lexed list)
    (unsigned : Expr.EveryOf Expr.SuffixesUnsigned list) (printable : readable → Expr.EveryOf Expr.Readable list) :
    ∃ inner, CanonicalList readable list inner := by
  cases list with
  | nil => exact ⟨_, no_arguments_canonical⟩
  | cons argument others =>
      obtain ⟨word, canonical⟩ :=
        canonical_exists readable argument lexed.1 unsigned.1 fun holds => (printable holds).1
      obtain ⟨inner, canonicalList⟩ :=
        arguments_exist readable others lexed.2 unsigned.2 fun holds => (printable holds).2
      cases others with
      | nil => exact ⟨_, one_argument_canonical canonical⟩
      | cons next others => exact ⟨_, arguments_canonical canonical canonicalList⟩

theorem members_exist (readable : Prop) (list : List (String × Expr)) (areNames : ∀ member ∈ list, IsName member.1)
    (lexed : Expr.EveryMember Expr.Lexed list) (unsigned : Expr.EveryMember Expr.SuffixesUnsigned list)
    (printable : readable → Expr.EveryMember Expr.Readable list) : ∃ inner, CanonicalMembers readable list inner := by
  match list with
  | [] => exact ⟨_, no_members_canonical⟩
  | (name, value) :: others =>
      obtain ⟨isName, areNames⟩ := List.forall_mem_cons.mp areNames
      obtain ⟨word, canonical⟩ :=
        canonical_exists readable value lexed.1 unsigned.1 fun holds => (printable holds).1
      obtain ⟨inner, canonicalMembers⟩ :=
        members_exist readable others areNames lexed.2 unsigned.2 fun holds => (printable holds).2
      cases others with
      | nil => exact ⟨_, one_member_canonical isName canonical⟩
      | cons next others => exact ⟨_, members_canonical isName canonical canonicalMembers⟩

end

end Grammar

end DocumentViews
