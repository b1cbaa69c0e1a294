import DocumentViews.SortedMap

-- Any number of threads may be in an indexing pass, or one thread may administer. A thread
-- that is in may take further slots of either role; an administrator that waits keeps others out.

set_option autoImplicit false

namespace DocumentViews

abbrev Thread : Type := String

inductive Role
  | pass
  | administration
deriving DecidableEq, Repr

structure Gate where
  writer : Option (Thread × Nat)
  readers : TextMap Nat
  waitingWriters : Nat
  activePasses : Nat
deriving DecidableEq

namespace Gate

def idle : Gate := ⟨none, .empty, 0, 0⟩

def isWriter (gate : Gate) (thread : Thread) : Bool :=
  match gate.writer with
  | some (owner, _) => owner == thread
  | none => false

def isReader (gate : Gate) (thread : Thread) : Bool := gate.readers.contains thread

def isReadByOthers (gate : Gate) (thread : Thread) : Bool := gate.readers.keys.any fun reader => reader != thread

def admits (gate : Gate) (thread : Thread) : Role → Bool
  | .pass =>
      gate.isReader thread || gate.isWriter thread || (gate.writer.isNone && gate.waitingWriters == 0)
  | .administration => gate.isWriter thread || (gate.writer.isNone && !gate.isReadByOthers thread)

def take (gate : Gate) (thread : Thread) : Role → Gate
  | .pass =>
      { gate with
        readers := gate.readers.insert thread ((gate.readers.get? thread).getD 0 + 1)
        activePasses := gate.activePasses + 1 }
  | .administration =>
      match gate.writer with
      | some (owner, depth) => { gate with writer := some (owner, depth + 1) }
      | none => { gate with writer := some (thread, 1) }

def giveBack (gate : Gate) (thread : Thread) : Role → Gate
  | .pass =>
      let readers := match gate.readers.get? thread with
        | none => gate.readers
        | some depth => if depth ≤ 1 then gate.readers.erase thread else gate.readers.insert thread (depth - 1)
      { gate with readers, activePasses := gate.activePasses - 1 }
  | .administration =>
      match gate.writer with
      | some (owner, depth) => { gate with writer := if depth ≤ 1 then none else some (owner, depth - 1) }
      | none => gate

def await (gate : Gate) : Role → Gate
  | .pass => gate
  | .administration => { gate with waitingWriters := gate.waitingWriters + 1 }

def endWait (gate : Gate) : Role → Gate
  | .pass => gate
  | .administration => { gate with waitingWriters := gate.waitingWriters - 1 }

def isIndexing (gate : Gate) : Bool := gate.activePasses > 0

end Gate
end DocumentViews
