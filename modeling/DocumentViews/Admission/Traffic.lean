import DocumentViews.Admission.Gate

set_option autoImplicit false

namespace DocumentViews

inductive Request
  | enter
  | administer (timeout : Nat)
deriving DecidableEq, Repr

def Request.role : Request → Role
  | enter => .pass
  | administer _ => .administration

structure Call where
  thread : Thread
  request : Request
deriving DecidableEq, Repr

structure Traffic where
  gate : Gate
  held : List (Thread × Role)
  waiting : List Call
deriving DecidableEq

inductive Move
  | call (call : Call)
  | proceed (thread : Thread)
  | giveUp (thread : Thread)
  | release (thread : Thread) (role : Role)
deriving DecidableEq, Repr

def Move.wakes : Move → Bool
  | giveUp _ => true
  | release _ _ => true
  | _ => false

namespace Traffic

def idle : Traffic := ⟨.idle, [], []⟩

def waitingCall? (traffic : Traffic) (thread : Thread) : Option Call :=
  traffic.waiting.find? fun call => call.thread = thread

def admits (traffic : Traffic) (call : Call) : Bool := traffic.gate.admits call.thread call.request.role

def grant (traffic : Traffic) (call : Call) : Traffic :=
  { traffic with
    gate := traffic.gate.take call.thread call.request.role
    held := (call.thread, call.request.role) :: traffic.held }

def await (traffic : Traffic) (call : Call) : Traffic :=
  { traffic with gate := traffic.gate.await call.request.role, waiting := traffic.waiting ++ [call] }

def endWait (traffic : Traffic) (call : Call) : Traffic :=
  { traffic with
    gate := traffic.gate.endWait call.request.role
    waiting := traffic.waiting.filter fun other => other.thread ≠ call.thread }

def step (traffic : Traffic) : Move → Option Traffic
  | .call call =>
      if (traffic.waitingCall? call.thread).isSome then none
      else if traffic.admits call then some (traffic.grant call)
      else some (traffic.await call)
  | .proceed thread =>
      match traffic.waitingCall? thread with
      | none => none
      | some call => if traffic.admits call then some ((traffic.endWait call).grant call) else none
  | .giveUp thread =>
      match traffic.waitingCall? thread with
      | none => none
      | some call =>
          if call.request.role = .pass ∨ traffic.admits call then none else some (traffic.endWait call)
  | .release thread role =>
      if (traffic.waitingCall? thread).isNone ∧ (thread, role) ∈ traffic.held then
        some { traffic with
          gate := traffic.gate.giveBack thread role
          held := traffic.held.erase (thread, role) }
      else none

-- Admitting one call admits no other, so one look at each is enough.
def settle : List Call → Traffic → Traffic
  | [], traffic => traffic
  | call :: calls, traffic => settle calls ((traffic.step (.proceed call.thread)).getD traffic)

def advance (traffic : Traffic) (move : Move) : Option Traffic :=
  (traffic.step move).map fun next => if move.wakes then settle next.waiting next else next

end Traffic
end DocumentViews
