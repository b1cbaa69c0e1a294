
set_option autoImplicit false

namespace DocumentViews

structure Parsed {σ : Type} (input : List σ) (α : Type) where
  value : α
  rest : List σ
  shorter : rest.length < input.length

abbrev Remainder {σ : Type} (input : List σ) : Type := { rest : List σ // rest.length ≤ input.length }

namespace Parsed

variable {σ α β : Type} {input : List σ} {item : σ}

def first (value : α) (rest : List σ) : Parsed (item :: rest) α := ⟨value, rest, Nat.lt_succ_self _⟩

def map (change : α → β) (parsed : Parsed input α) : Parsed input β :=
  ⟨change parsed.value, parsed.rest, parsed.shorter⟩

def within {outer : List σ} (parsed : Parsed input α) (bound : input.length ≤ outer.length) : Parsed outer α :=
  ⟨parsed.value, parsed.rest, Nat.lt_of_lt_of_le parsed.shorter bound⟩

def behind (parsed : Parsed input α) : Parsed (item :: input) α := parsed.within (Nat.le_succ _)

def remainder (parsed : Parsed input α) : Remainder input := ⟨parsed.rest, Nat.le_of_lt parsed.shorter⟩

def upTo (earlier : Parsed input α) (value : β) (left : Remainder earlier.rest) : Parsed input β :=
  ⟨value, left.1, Nat.lt_of_le_of_lt left.2 earlier.shorter⟩

def after (earlier : Parsed input α) (later : Parsed earlier.rest β) : Parsed input β :=
  later.within (Nat.le_of_lt earlier.shorter)

end Parsed
end DocumentViews
