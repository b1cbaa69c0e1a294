import DocumentViews.Json.Printer
import DocumentViews.Json.Reader
import DocumentViews.SortedMap

set_option autoImplicit false

namespace DocumentViews.Json

variable {α β δ : Type}

def skipEscaped : Reader Unit
  | [] => .error .incomplete
  | 'u' :: rest => do
      let unit ← codeUnit rest
      .ok (unit.map fun _ => ()).behind
  | char :: rest =>
      match plainEscape? char with
      | some _ => .ok (.first () rest)
      | none => .error .malformed

def skipQuoted (text : List Char) : Except ReadFault (Parsed text Unit) :=
  match text with
  | [] => .error .incomplete
  | '"' :: rest => .ok (.first () rest)
  | '\\' :: rest => do
      let first ← skipEscaped rest
      let others ← skipQuoted first.rest
      .ok (first.after others).behind
  | char :: rest =>
      if char.toNat < 0x20 then .error .malformed
      else do
        let others ← skipQuoted rest
        .ok others.behind
termination_by text.length
decreasing_by
  · have := first.shorter
    simp only [List.length_cons]
    omega
  · simp

def skipWith (inner : Reader Unit) : Reader Unit := fun text => do
  let first ← significant text
  if first.value = '[' then do
    let items ← elements (fun _ => inner) () first.rest
    .ok (first.after items)
  else if first.value = '\x7b' then do
    let found ← members skipQuoted (fun _ _ text => do
      let mark ← colon text
      let value ← inner mark.rest
      .ok (mark.after value)) () first.rest
    .ok (first.after found)
  else if first.value = '"' then do
    let content ← skipQuoted first.rest
    .ok (first.after content)
  else if first.value = '-' then do
    let numeral ← unsigned .malformed true first.rest
    .ok (first.after (numeral.map fun _ => ()))
  else if first.value.isDigit then do
    let numeral ← unsigned .malformed false (first.value :: first.rest)
    .ok ((numeral.map fun _ => ()).within first.shorter)
  else do
    let (_, rest) ← scalar first.value first.rest
    .ok (first.upTo () rest)

def skipLevels : (levels : Nat) → Reader Unit
  | 0 => fun _ => .error .malformed
  | levels + 1 => skipWith (skipLevels levels)

def skip : Reader Unit := fun text => skipLevels (text.length + 1) text

def misfit (text : List Char) : ReadFault :=
  match significant? text with
  | none => .incomplete
  | some first =>
      if first.value = '[' ∨ first.value = '\x7b' then .unsuitable none
      else match valueWith none text with
        | .ok _ => .unsuitable none
        | .error fault => fault

def text : Reader String := fun input => do
  let first ← significant input
  if first.value = '"' then do
    let content ← string first.rest
    .ok (first.after content)
  else .error (misfit input)

def flag : Reader Bool := fun input => do
  let first ← significant input
  if first.value = 't' ∨ first.value = 'f' then
    match valueWith none input with
    | .ok found => .ok (found.map fun value => match value with
        | .bool flag => flag
        | _ => false)
    | .error fault => .error fault
  else .error (misfit input)

def natural (greatest : Nat) : Reader Nat := fun input => do
  let first ← significant input
  if first.value = '-' ∨ first.value.isDigit then do
    let found ← valueWith none input
    match found.value with
    | .number (.integer whole _) =>
        if 0 ≤ whole ∧ whole ≤ greatest then .ok (found.map fun _ => whole.toNat)
        else .error (.unsuitable none)
    | _ => .error (.unsuitable none)
  else .error (misfit input)

def optional (read : Reader α) : Reader (Option α) := fun input => do
  match significant? input with
  | some first =>
      if first.value = 'n' then do
        let rest ← spelled ['u', 'l', 'l'] first.rest
        .ok (first.upTo none rest)
      else do
        let found ← read input
        .ok (found.map some)
  | none => do
      let found ← read input
      .ok (found.map some)

def list (read : Reader α) : Reader (List α) := fun input => do
  let first ← significant input
  if first.value = '[' then do
    let items ← elements (fun sofar text => do
      let item ← read text
      .ok (item.map (· :: sofar))) [] first.rest
    .ok ((first.after items).map List.reverse)
  else .error (misfit input)

def textSet : Reader TextSet := fun input => do
  let items ← list text input
  .ok (items.map SortedSet.ofList)

def textMap (read : Reader α) : Reader (TextMap α) := fun input => do
  let first ← significant input
  if first.value = '\x7b' then do
    let found ← members string (fun sofar name text => do
      let mark ← colon text
      let item ← read mark.rest
      .ok (mark.after (item.map fun item => sofar.insert name item))) SortedMap.empty first.rest
    .ok (first.after found)
  else .error (misfit input)

def choice (named? : String → Option α) : Reader α := fun input => do
  let first ← significant input
  if first.value = '"' then do
    let name ← string first.rest
    match named? name.value with
    | some found => .ok ((first.after name).map fun _ => found)
    | none => .error (.unsuitable none)
  else if first.value = '\x7b' then do
    let name ← text first.rest
    match named? name.value with
    | none => .error (.unsuitable none)
    | some found => do
        let mark ← colon name.rest
        let payload ← significant mark.rest
        if payload.value = 'n' then do
          let rest ← spelled ['u', 'l', 'l'] payload.rest
          let close ← significant rest.1
          if close.value = '\x7d' then
            .ok (first.after (name.after (mark.after (payload.after
              ((close.within rest.2).map fun _ => found)))))
          else .error .malformed
        else .error (misfit mark.rest)
  else .error .malformed

structure RecordField (δ : Type) where
  names : List String
  read : Reader (δ → δ)

namespace RecordField

def of (name : String) (read : Reader α) (put : α → δ → δ) : RecordField δ :=
  ⟨[name], fun text => do
    let found ← read text
    .ok (found.map put)⟩

def orNamed (field : RecordField δ) (name : String) : RecordField δ := { field with names := field.names ++ [name] }

end RecordField

def recordMember (fields : List (RecordField δ)) (state : δ × List Nat) (name : String) : Reader (δ × List Nat) :=
  fun text =>
    match fields.findIdx? fun field => field.names.contains name with
    | none => do
        let mark ← colon text
        let value ← skip mark.rest
        .ok (mark.after (value.map fun _ => state))
    | some position =>
        match fields[position]? with
        | none => .error (.unsuitable none)
        | some field =>
            if state.2.contains position then .error (.unsuitable none)
            else do
              let mark ← colon text
              let change ← field.read mark.rest
              .ok (mark.after (change.map fun change => (change state.1, position :: state.2)))

def positional (record : δ) (isFirst : Bool) : List (RecordField δ) → Reader δ
  | [], text => do
      let mark ← significant text
      if mark.value = ']' then .ok (mark.map fun _ => record) else .error .malformed
  | field :: fields, text => do
      let mark ← significant text
      if mark.value = ']' then .ok (mark.map fun _ => record)
      else if isFirst then do
        let change ← field.read text
        let others ← positional (change.value record) false fields change.rest
        .ok (change.after others)
      else if mark.value = ',' then do
        let next ← significant mark.rest
        if next.value = ']' then .error .malformed
        else do
          let change ← field.read mark.rest
          let others ← positional (change.value record) false fields change.rest
          .ok (mark.after (change.after others))
      else .error .malformed

def record (fields : List (RecordField δ)) (initial : δ) : Reader δ := fun input => do
  let first ← significant input
  if first.value = '[' then do
    let found ← positional initial true fields first.rest
    .ok (first.after found)
  else if first.value = '\x7b' then do
    let found ← members string (recordMember fields) (initial, []) first.rest
    .ok ((first.after found).map Prod.fst)
  else .error (misfit input)

def document (read : Reader α) (input : String) : Except ReadFault α := do
  let found ← read input.toList
  match significant? found.rest with
  | none => .ok found.value
  | some _ => .error .malformed

def ofValue (read : Reader α) (value : Value) : Except ReadFault α :=
  match document read value.compact with
  | .error (.unsuitable reason) => .error (.unsuitable reason)
  | .error _ => .error (.unsuitable none)
  | .ok found => .ok found

end DocumentViews.Json
