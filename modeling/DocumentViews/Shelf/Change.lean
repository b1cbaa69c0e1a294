import DocumentViews.Definition

set_option autoImplicit false

namespace DocumentViews

inductive Change
  | noop
  | updateWithoutRecompile
  | update
  | create
deriving DecidableEq, Repr

namespace Change

def label : Change → String
  | noop => "Noop"
  | updateWithoutRecompile => "UpdateWithoutRecompile"
  | update => "Update"
  | create => "Create"

def requiresCompile : Change → Bool
  | update => true
  | create => true
  | _ => false

variable {δ γ : Type} [Definition δ γ]

-- The change between two definitions of one id. Test definitions are always compiled anew.
def between (current candidate : δ) : Change :=
  if Definition.isTest current || Definition.isTest candidate then update
  else if Definition.equivalent .exact current candidate then noop
  else if Definition.equivalent .relaxed current candidate then updateWithoutRecompile
  else update

def classify (current : Option δ) (candidate : δ) : Change × δ :=
  match current with
  | none => (create, candidate)
  | some stored =>
      let adopted := Definition.withId (Definition.id stored) candidate
      (between stored adopted, adopted)

end Change
end DocumentViews
