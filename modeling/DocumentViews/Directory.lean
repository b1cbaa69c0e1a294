
set_option autoImplicit false

namespace DocumentViews

inductive Node
  | text (content : String)
  | binary
  | folder
deriving DecidableEq

namespace Node

def content? : Node → Option String
  | text content => some content
  | _ => none

end Node

structure Directory where
  entries : List (String × Node)
  distinct : (entries.map Prod.fst).Nodup
deriving DecidableEq

namespace Directory

def empty : Directory := ⟨[], List.nodup_nil⟩

def names (directory : Directory) : List String := directory.entries.map Prod.fst

def get? (directory : Directory) (name : String) : Option Node :=
  (directory.entries.find? fun entry => entry.1 = name).map Prod.snd

def putEntry (name : String) (node : Node) : List (String × Node) → List (String × Node)
  | [] => [(name, node)]
  | (other, old) :: rest => if other = name then (name, node) :: rest else (other, old) :: putEntry name node rest

theorem mem_putEntry {name other : String} {node : Node} {entries : List (String × Node)} :
    other ∈ (putEntry name node entries).map Prod.fst ↔ other = name ∨ other ∈ entries.map Prod.fst := by
  induction entries with
  | nil => simp [putEntry]
  | cons entry rest ih =>
      obtain ⟨held, old⟩ := entry
      by_cases same : held = name
      · subst held
        simp [putEntry]
      · rw [putEntry, if_neg same, List.map_cons, List.mem_cons, ih, List.map_cons, List.mem_cons]
        exact or_left_comm

theorem distinct_putEntry (name : String) (node : Node) {entries : List (String × Node)}
    (distinct : (entries.map Prod.fst).Nodup) : ((putEntry name node entries).map Prod.fst).Nodup := by
  induction entries with
  | nil => simp [putEntry]
  | cons entry rest ih =>
      obtain ⟨held, old⟩ := entry
      have parts := List.nodup_cons.mp distinct
      by_cases same : held = name
      · subst held
        simpa [putEntry] using distinct
      · rw [putEntry, if_neg same, List.map_cons]
        refine List.nodup_cons.mpr ⟨fun present => ?_, ih parts.2⟩
        exact (mem_putEntry.mp present).elim same parts.1

def put (name : String) (node : Node) (directory : Directory) : Directory :=
  ⟨putEntry name node directory.entries, distinct_putEntry name node directory.distinct⟩

def erase (name : String) (directory : Directory) : Directory :=
  ⟨directory.entries.filter fun entry => entry.1 ≠ name,
    directory.distinct.sublist (List.filter_sublist.map Prod.fst)⟩

end Directory

inductive Disk
  | absent
  | blocked
  | present (directory : Directory)
deriving DecidableEq

namespace Disk

def directory? : Disk → Option Directory
  | present directory => some directory
  | _ => none

def withDirectory? : Disk → Option Disk
  | absent => some (present .empty)
  | blocked => none
  | present directory => some (present directory)

def get? (disk : Disk) (name : String) : Option Node := disk.directory?.bind fun directory => directory.get? name

-- Writes a text over a file or as a new one; there must be a directory, and no folder of
-- that name.
def writeText? (name content : String) : Disk → Option Disk
  | present directory =>
      if directory.get? name = some .folder then none
      else some (present (directory.put name (.text content)))
  | _ => none

def rename? (source target : String) : Disk → Option Disk
  | present directory =>
      match directory.get? source with
      | none => none
      | some node =>
          if directory.get? target = some .folder then none
          else some (present ((directory.erase source).put target node))
  | _ => none

def removeFile? (name : String) : Disk → Option Disk
  | absent => some absent
  | blocked => none
  | present directory =>
      if directory.get? name = some .folder then none else some (present (directory.erase name))

end Disk
end DocumentViews
