import DocumentViews.Archive.DefinitionFile

set_option autoImplicit false

namespace DocumentViews

structure Listing (δ : Type) where
  definitions : List δ
  skipped : List Skipped

namespace Listing

variable {δ γ : Type} [Definition δ γ]

def empty : Listing δ := ⟨[], []⟩

def files (kind : DefinitionKind) (directory : Directory) : List DefinitionFile :=
  (directory.entries.filterMap (DefinitionFile.ofNode? kind.fileExtension)).mergeSort fun left right =>
    left.rank ≤ right.rank

def ofFiles : List DefinitionFile → Listing δ
  | [] => empty
  | file :: files =>
      let others := ofFiles files
      match (file.read : Except Skipped δ) with
      | .ok definition => { others with definitions := definition :: others.definitions }
      | .error skipped => { others with skipped := skipped :: others.skipped }

def ofDirectory (directory : Directory) : Listing δ :=
  let listing : Listing δ := ofFiles (files (Definition.kind δ) directory)
  { listing with
    definitions := listing.definitions.mergeSort fun left right => Definition.id left ≤ Definition.id right }

end Listing
end DocumentViews
