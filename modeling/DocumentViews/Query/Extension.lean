import DocumentViews.Query.Builtin

set_option autoImplicit false

namespace DocumentViews

structure Extension where
  name : String
  functions : List (String × (List Value → Value))
  analyzers : List String

structure Extensions where
  toList : List Extension

namespace Extensions

def empty : Extensions := ⟨[]⟩

def register (extensions : Extensions) (extension : Extension) : Extensions :=
  ⟨extensions.toList ++ [extension]⟩

def function? (extensions : Extensions) (name : String) : Option (List Value → Value) :=
  extensions.toList.findSome? fun extension => extension.functions.lookup name

def isFunction (extensions : Extensions) (name : String) : Bool := (extensions.function? name).isSome

def call (extensions : Extensions) (name : String) (arguments : List Value) : Value :=
  match extensions.function? name with
  | some function => function arguments
  | none => .null

def hasAnalyzer (extensions : Extensions) (name : String) : Bool :=
  extensions.toList.any fun extension => extension.analyzers.contains name

def names (extensions : Extensions) : List String := extensions.toList.map Extension.name

end Extensions

def Extension.builtins : Extension :=
  ⟨"builtins",
    [("Abs", Builtin.abs), ("Round", Builtin.rounded .halfAway), ("Floor", Builtin.rounded .floor),
      ("Ceiling", Builtin.rounded .ceiling), ("Len", Builtin.len), ("Concat", Builtin.concat),
      ("IsNullOrEmpty", Builtin.isNullOrEmpty), ("Split", Builtin.split)],
    []⟩

def Extensions.builtins : Extensions := Extensions.empty.register Extension.builtins

end DocumentViews
