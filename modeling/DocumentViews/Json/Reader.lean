import DocumentViews.Json.Value
import DocumentViews.Parsed

-- Reading JSON text from left to right; the first fault is the one reported. A reader
-- stands before the blanks that may precede its value and stops after the value.

set_option autoImplicit false

namespace DocumentViews

inductive ReadFault
  | malformed
  | incomplete
  | unsuitable (reason : Option String)
deriving DecidableEq, Repr

abbrev Reader (α : Type) := (text : List Char) → Except ReadFault (Parsed text α)

namespace Json

def isBlank (char : Char) : Bool :=
  char == ' ' || char == '\n' || char == '\t' || char == '\r'

def significant? : (text : List Char) → Option (Parsed text Char)
  | [] => none
  | char :: rest =>
      if isBlank char then (significant? rest).map fun found => found.behind
      else some (.first char rest)

def significant : Reader Char := fun text =>
  match significant? text with
  | some found => .ok found
  | none => .error .incomplete

def spelled : (word text : List Char) → Except ReadFault (Remainder text)
  | [], text => .ok ⟨text, Nat.le_refl _⟩
  | _ :: _, [] => .error .incomplete
  | wanted :: more, char :: rest =>
      if char = wanted then do
        let tail ← spelled more rest
        .ok ⟨tail.1, Nat.le_succ_of_le tail.2⟩
      else .error .malformed

structure Numeral where
  negative : Bool
  whole : List Char
  fraction : List Char
  exponent : Option (Bool × List Char)

theorem dropWhile_length_le (holds : Char → Bool) (text : List Char) :
    (text.dropWhile holds).length ≤ text.length :=
  (List.dropWhile_suffix holds).length_le

def digits (atEnd : ReadFault) : (text : List Char) → Except ReadFault (Parsed text (List Char))
  | [] => .error atEnd
  | char :: rest =>
      if char.isDigit then
        .ok ⟨char :: rest.takeWhile Char.isDigit, rest.dropWhile Char.isDigit,
          Nat.lt_succ_of_le (dropWhile_length_le _ _)⟩
      else .error .malformed

def exponentPart (atEnd : ReadFault) : (text : List Char) → Except ReadFault (Parsed text (Bool × List Char))
  | '+' :: rest => do
      let power ← digits atEnd rest
      .ok (power.map (false, ·)).behind
  | '-' :: rest => do
      let power ← digits atEnd rest
      .ok (power.map (true, ·)).behind
  | text => do
      let power ← digits atEnd text
      .ok (power.map (false, ·))

def tailPart (atEnd : ReadFault) (negative : Bool) (whole fraction : List Char) (text : List Char) :
    Except ReadFault (Numeral × Remainder text) :=
  match text with
  | 'e' :: rest => do
      let power ← exponentPart atEnd rest
      .ok (⟨negative, whole, fraction, some power.value⟩, power.behind.remainder)
  | 'E' :: rest => do
      let power ← exponentPart atEnd rest
      .ok (⟨negative, whole, fraction, some power.value⟩, power.behind.remainder)
  | text => .ok (⟨negative, whole, fraction, none⟩, ⟨text, Nat.le_refl _⟩)

def unsigned (atEnd : ReadFault) (negative : Bool) : Reader Numeral := fun text => do
  let whole ← digits atEnd text
  if whole.value.length > 1 ∧ whole.value.head? = some '0' then .error .malformed
  else
    match hasRest : whole.rest with
    | '.' :: rest => do
        let fraction ← digits atEnd rest
        let tail ← tailPart atEnd negative whole.value fraction.value fraction.rest
        .ok ⟨tail.1, tail.2.1, by
          have := tail.2.2
          have := fraction.shorter
          have := whole.shorter
          simp only [hasRest, List.length_cons] at this
          omega⟩
    | _ => do
        let tail ← tailPart atEnd negative whole.value [] whole.rest
        .ok (whole.upTo tail.1 tail.2)

namespace Numeral

def digitValue (char : Char) : Nat := char.toNat - '0'.toNat

def naturalOf (digits : List Char) : Nat :=
  digits.foldl (fun number char => number * 10 + digitValue char) 0

def significand (digits : List Char) : Nat × Nat :=
  digits.foldl
    (fun (number, skipped) char =>
      if skipped > 0 ∨ number * 10 + digitValue char ≥ UInt64.size then (number, skipped + 1)
      else (number * 10 + digitValue char, 0))
    (0, 0)

def appendFraction : (number count : Nat) → List Char → Nat × Nat
  | number, count, [] => (number, count)
  | number, count, char :: rest =>
      if number * 10 + digitValue char ≥ UInt64.size then (number, count)
      else appendFraction (number * 10 + digitValue char) (count + 1) rest

def scaleDown (value : Float) (power : Nat) : Float :=
  if power ≤ 308 then value / Dyadic.nearestDecimal false 1 power
  else if value == 0 then value
  else scaleDown (value / Dyadic.nearestDecimal false 1 308) (power - 308)
termination_by power

-- The double of a significand of 64 bits and a power of ten: the significand is rounded and
-- then scaled. A number beyond the greatest double has none.
def scaled? (number : Nat) (power : Int) : Option Float :=
  let value := Dyadic.nearest false number 1
  if power < 0 then some (scaleDown value (-power).toNat)
  else if value == 0 then some value
  else if power > 308 then none
  else
    let product := value * Dyadic.nearestDecimal false 1 power
    if product.isInf then none else some product

def toNumber? (numeral : Numeral) : Option Number :=
  let whole := naturalOf numeral.whole
  let isInteger := numeral.fraction.isEmpty && numeral.exponent.isNone
  if isInteger ∧ ¬ numeral.negative ∧ whole < UInt64.size then some (.ofInt whole)
  else if isInteger ∧ numeral.negative ∧ 0 < whole ∧ whole ≤ 0x8000000000000000 then some (.ofInt (-whole))
  else
    let (kept, skipped) := significand numeral.whole
    let (number, appended) := appendFraction kept 0 numeral.fraction
    let power : Int := match numeral.exponent with
      | none => 0
      | some (true, digits) => -(naturalOf digits)
      | some (false, digits) => naturalOf digits
    (scaled? number (power + skipped - appended)).map fun value =>
      .double (if numeral.negative then -value else value)

end Numeral

def number (negative : Bool) : Reader Number := fun text => do
  let numeral ← unsigned .incomplete negative text
  match numeral.value.toNumber? with
  | some value => .ok (numeral.map fun _ => value)
  | none => .error .malformed

def hexDigit? (char : Char) : Option Nat :=
  if char.isDigit then some (char.toNat - '0'.toNat)
  else if 'a' ≤ char ∧ char ≤ 'f' then some (char.toNat - 'a'.toNat + 10)
  else if 'A' ≤ char ∧ char ≤ 'F' then some (char.toNat - 'A'.toNat + 10)
  else none

def codeUnit : Reader Nat
  | a :: b :: c :: d :: rest =>
      match hexDigit? a, hexDigit? b, hexDigit? c, hexDigit? d with
      | some a, some b, some c, some d =>
          .ok ⟨((a * 16 + b) * 16 + c) * 16 + d, rest, by simp only [List.length_cons]; omega⟩
      | _, _, _, _ => .error .malformed
  | text => .error (if (String.ofList text).utf8ByteSize < 4 then .incomplete else .malformed)

def plainEscape? (char : Char) : Option Char :=
  match char with
  | '"' => some '"'
  | '\\' => some '\\'
  | '/' => some '/'
  | 'b' => some '\x08'
  | 'f' => some '\x0c'
  | 'n' => some '\n'
  | 'r' => some '\r'
  | 't' => some '\t'
  | _ => none

def lowHalf : Reader Nat
  | '\\' :: 'u' :: rest => do
      let unit ← codeUnit rest
      if 0xDC00 ≤ unit.value ∧ unit.value ≤ 0xDFFF then
        .ok (unit.within (by simp only [List.length_cons]; omega))
      else .error .malformed
  | [] => .error .incomplete
  | ['\\'] => .error .incomplete
  | _ => .error .malformed

def escaped : Reader Char
  | [] => .error .incomplete
  | 'u' :: rest => do
      let unit ← codeUnit rest
      if 0xDC00 ≤ unit.value ∧ unit.value ≤ 0xDFFF then .error .malformed
      else if 0xD800 ≤ unit.value ∧ unit.value ≤ 0xDBFF then do
        let low ← lowHalf unit.rest
        let code := 0x10000 + (unit.value - 0xD800) * 0x400 + (low.value - 0xDC00)
        .ok ((unit.after low).map fun _ => Char.ofNat code).behind
      else .ok (unit.map Char.ofNat).behind
  | char :: rest =>
      match plainEscape? char with
      | some plain => .ok (.first plain rest)
      | none => .error .malformed

def quotedRest (text : List Char) : Except ReadFault (Parsed text (List Char)) :=
  match text with
  | [] => .error .incomplete
  | '"' :: rest => .ok (.first [] rest)
  | '\\' :: rest => do
      let first ← escaped rest
      let others ← quotedRest first.rest
      .ok ((first.after others).map (first.value :: ·)).behind
  | char :: rest =>
      if char.toNat < 0x20 then .error .malformed
      else do
        let others ← quotedRest rest
        .ok (others.map (char :: ·)).behind
termination_by text.length
decreasing_by
  · have := first.shorter
    simp only [List.length_cons]
    omega
  · simp

def string : Reader String := fun text => do
  let chars ← quotedRest text
  .ok (chars.map String.ofList)

variable {κ α τ : Type}

def moreElements (step : τ → Reader τ) (state : τ) (text : List Char) : Except ReadFault (Parsed text τ) := do
  let mark ← significant text
  if mark.value = ']' then .ok (mark.map fun _ => state)
  else if mark.value = ',' then do
    let next ← significant mark.rest
    if next.value = ']' then .error .malformed
    else do
      let item ← step state mark.rest
      let others ← moreElements step item.value item.rest
      .ok (mark.after (item.after others))
  else .error .malformed
termination_by text.length
decreasing_by
  have := mark.shorter
  have := item.shorter
  omega

def elements (step : τ → Reader τ) (state : τ) : Reader τ := fun text => do
  let mark ← significant text
  if mark.value = ']' then .ok (mark.map fun _ => state)
  else do
    let item ← step state text
    let others ← moreElements step item.value item.rest
    .ok (item.after others)

def colon : Reader Unit := fun text => do
  let mark ← significant text
  if mark.value = ':' then .ok (mark.map fun _ => ()) else .error .malformed

def memberName (name : Reader κ) {text : List Char} (mark : Parsed text Char) :
    Except ReadFault (Parsed text κ) := do
  if mark.value = '"' then do
    let key ← name mark.rest
    .ok (mark.after key)
  else .error .malformed

def moreMembers (name : Reader κ) (step : τ → κ → Reader τ) (state : τ) (text : List Char) :
    Except ReadFault (Parsed text τ) := do
  let mark ← significant text
  if mark.value = '\x7d' then .ok (mark.map fun _ => state)
  else if mark.value = ',' then do
    let quote ← significant mark.rest
    let key ← memberName name quote
    let member ← step state key.value key.rest
    let others ← moreMembers name step member.value member.rest
    .ok (mark.after (key.after (member.after others)))
  else .error .malformed
termination_by text.length
decreasing_by
  have := mark.shorter
  have := key.shorter
  have := member.shorter
  omega

def members (name : Reader κ) (step : τ → κ → Reader τ) (state : τ) : Reader τ := fun text => do
  let mark ← significant text
  if mark.value = '\x7d' then .ok (mark.map fun _ => state)
  else do
    let key ← memberName name mark
    let member ← step state key.value key.rest
    let others ← moreMembers name step member.value member.rest
    .ok (key.after (member.after others))

def scalar (first : Char) : (text : List Char) → Except ReadFault (Value × Remainder text)
  | text =>
      if first = 'n' then do
        let rest ← spelled ['u', 'l', 'l'] text
        .ok (.null, rest)
      else if first = 't' then do
        let rest ← spelled ['r', 'u', 'e'] text
        .ok (.bool true, rest)
      else if first = 'f' then do
        let rest ← spelled ['a', 'l', 's', 'e'] text
        .ok (.bool false, rest)
      else if first = '"' then do
        let content ← string text
        .ok (.string content.value, content.remainder)
      else if first = '-' then do
        let amount ← number true text
        .ok (.number amount.value, amount.remainder)
      else .error .malformed

def valueWith (inner : Option (Reader Value)) : Reader Value := fun text => do
  let first ← significant text
  if first.value = '[' then
    match inner with
    | none => .error .malformed
    | some read => do
        let items ← elements (fun sofar text => do
          let item ← read text
          .ok (item.map (· :: sofar))) [] first.rest
        .ok ((first.after items).map fun items => .array items.reverse)
  else if first.value = '\x7b' then
    match inner with
    | none => .error .malformed
    | some read => do
        let found ← members string (fun sofar name text => do
          let mark ← colon text
          let value ← read mark.rest
          .ok (mark.after (value.map fun value => SortedMap.insertEntry name value sofar))) [] first.rest
        .ok ((first.after found).map .object)
  else if first.value.isDigit then do
    let amount ← number false (first.value :: first.rest)
    .ok ((amount.map .number).within first.shorter)
  else do
    let (value, rest) ← scalar first.value first.rest
    .ok (first.upTo value rest)

def value : (levels : Nat) → Reader Value
  | 0 => valueWith none
  | levels + 1 => valueWith (some (value levels))

end Json
end DocumentViews
