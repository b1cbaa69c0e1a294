
set_option autoImplicit false

namespace DocumentViews

-- Hands out ids in ascending order, and begins anew at zero after the last one.
structure IdCounter where
  next : UInt32
deriving DecidableEq, Repr

namespace IdCounter

def initial : IdCounter := ⟨1⟩

def allocate (counter : IdCounter) : UInt32 × IdCounter := (counter.next, ⟨counter.next + 1⟩)

def successor (id : UInt32) : UInt32 := if id + 1 = 0 then id else id + 1

def reserveThrough (id : UInt32) (counter : IdCounter) : IdCounter :=
  if counter.next < successor id then ⟨successor id⟩ else counter

end IdCounter
end DocumentViews
