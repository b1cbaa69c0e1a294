import DocumentViews.Admission.Traffic
import DocumentViews.Proofs.SortedMap

set_option autoImplicit false

namespace DocumentViews

namespace Gate

variable (gate : Gate) (thread : Thread) (role : Role)

@[simp] theorem take_waiting : (gate.take thread role).waitingWriters = gate.waitingWriters := by
  cases role with
  | pass => rfl
  | administration =>
      simp only [take]
      split <;> rfl

@[simp] theorem give_back_waiting : (gate.giveBack thread role).waitingWriters = gate.waitingWriters := by
  cases role with
  | pass => rfl
  | administration =>
      simp only [giveBack]
      split <;> rfl

theorem take_administration_keeps : (gate.take thread .administration).readers = gate.readers ∧
    (gate.take thread .administration).activePasses = gate.activePasses := by
  simp only [take]
  split <;> exact ⟨rfl, rfl⟩

theorem give_back_pass_readers {depth : Nat} (read : gate.readers.get? thread = some depth) :
    (gate.giveBack thread .pass).readers =
      if depth ≤ 1 then gate.readers.erase thread else gate.readers.insert thread (depth - 1) := by
  simp only [giveBack, read]

theorem give_back_administration_keeps : (gate.giveBack thread .administration).readers = gate.readers ∧
    (gate.giveBack thread .administration).activePasses = gate.activePasses := by
  simp only [giveBack]
  split <;> exact ⟨rfl, rfl⟩

@[simp] theorem end_wait_readers : (gate.endWait role).readers = gate.readers := by cases role <;> rfl

@[simp] theorem end_wait_passes : (gate.endWait role).activePasses = gate.activePasses := by cases role <;> rfl

@[simp] theorem end_wait_writer : (gate.endWait role).writer = gate.writer := by cases role <;> rfl

@[simp] theorem await_readers : (gate.await role).readers = gate.readers := by cases role <;> rfl

@[simp] theorem await_passes : (gate.await role).activePasses = gate.activePasses := by cases role <;> rfl

@[simp] theorem await_writer : (gate.await role).writer = gate.writer := by cases role <;> rfl

end Gate

namespace Traffic

def slots (traffic : Traffic) (role : Role) : Nat := traffic.held.countP fun slot => slot.2 = role

def passesOf (traffic : Traffic) (thread : Thread) : Nat := traffic.held.countP fun slot => slot = (thread, .pass)

def waitingWriters (traffic : Traffic) : Nat :=
  traffic.waiting.countP fun call => call.request.role = .administration

def drop (traffic : Traffic) (thread : Thread) (role : Role) : Traffic :=
  { traffic with gate := traffic.gate.giveBack thread role, held := traffic.held.erase (thread, role) }

def recorded : Nat → Option Nat
  | 0 => none
  | depth + 1 => some (depth + 1)

@[simp] theorem recorded_isSome {depth : Nat} : (recorded depth).isSome = true ↔ 0 < depth := by
  cases depth <;> simp [recorded]

@[simp] theorem recorded_getD (depth : Nat) : (recorded depth).getD 0 = depth := by cases depth <;> rfl

theorem passes_of_pos {traffic : Traffic} {thread : Thread} :
    0 < traffic.passesOf thread ↔ (thread, .pass) ∈ traffic.held := by
  simp [passesOf, List.countP_pos_iff]

theorem slots_pos {traffic : Traffic} {role : Role} :
    0 < traffic.slots role ↔ ∃ thread, (thread, role) ∈ traffic.held := by
  simp only [slots, List.countP_pos_iff, decide_eq_true_eq]
  constructor
  · rintro ⟨⟨thread, other⟩, member, rfl⟩
    exact ⟨thread, member⟩
  · rintro ⟨thread, member⟩
    exact ⟨_, member, rfl⟩

section Counting

variable {traffic next : Traffic} {thread : Thread} {role : Role}

theorem slots_of_more (more : next.held.Perm ((thread, role) :: traffic.held)) (other : Role) :
    next.slots other = traffic.slots other + if role = other then 1 else 0 := by
  simp [slots, more.countP_eq, List.countP_cons]

theorem passes_of_more (more : next.held.Perm ((thread, role) :: traffic.held)) (other : Thread) :
    next.passesOf other = traffic.passesOf other + if thread = other ∧ role = .pass then 1 else 0 := by
  simp [passesOf, more.countP_eq, List.countP_cons]

end Counting

structure Reads (traffic : Traffic) : Prop where
  depths : ∀ thread, traffic.gate.readers.get? thread = recorded (traffic.passesOf thread)
  total : traffic.gate.readers.total = traffic.slots .pass
  passes : traffic.gate.activePasses = traffic.slots .pass

namespace Reads

variable {traffic next : Traffic} {thread : Thread}

theorem keep (reads : traffic.Reads) (readers : next.gate.readers = traffic.gate.readers)
    (active : next.gate.activePasses = traffic.gate.activePasses) (slots : next.slots .pass = traffic.slots .pass)
    (passes : ∀ thread, next.passesOf thread = traffic.passesOf thread) : next.Reads where
  depths thread := by rw [readers, passes, reads.depths]
  total := by rw [readers, slots, reads.total]
  passes := by rw [active, slots, reads.passes]

theorem take (reads : traffic.Reads) (more : next.held.Perm ((thread, .pass) :: traffic.held))
    (gate : next.gate = traffic.gate.take thread .pass) : next.Reads := by
  have slots : next.slots .pass = traffic.slots .pass + 1 := slots_of_more more .pass
  constructor
  · intro other
    rw [gate, Gate.take, passes_of_more more]
    simp only [SortedMap.get_insert, reads.depths, recorded_getD]
    by_cases same : thread = other
    · subst other
      simp [recorded]
    · simp [same, Ne.symm same]
  · have added := traffic.gate.readers.total_insert thread (traffic.passesOf thread + 1)
    rw [reads.depths, recorded_getD, reads.total] at added
    rw [gate, slots, Gate.take, reads.depths, recorded_getD]
    dsimp only
    omega
  · rw [gate, slots, Gate.take, reads.passes]

theorem give_back (reads : traffic.Reads) (more : traffic.held.Perm ((thread, .pass) :: next.held))
    (gate : next.gate = traffic.gate.giveBack thread .pass) : next.Reads := by
  have slots : traffic.slots .pass = next.slots .pass + 1 := slots_of_more more .pass
  have own : traffic.passesOf thread = next.passesOf thread + 1 := by simp [passes_of_more more]
  have read : traffic.gate.readers.get? thread = some (next.passesOf thread + 1) := by
    rw [reads.depths, own, recorded]
  have readers := traffic.gate.give_back_pass_readers thread read
  rw [← gate, Nat.add_sub_cancel] at readers
  have erased := traffic.gate.readers.total_erase thread
  have inserted := traffic.gate.readers.total_insert thread (next.passesOf thread)
  rw [read, reads.total, Option.getD_some] at erased inserted
  constructor
  · intro other
    have passes := passes_of_more more other
    by_cases same : thread = other
    · subst other
      rw [readers]
      cases next.passesOf thread <;> simp [recorded]
    · rw [readers]
      simp only [same, false_and, if_false, Nat.add_zero] at passes
      rw [← passes, ← reads.depths]
      split <;> simp [Ne.symm same]
  · rw [readers]
    split <;> omega
  · rw [gate, Gate.giveBack, reads.passes]
    dsimp only
    omega

end Reads

theorem waiting_call_some {traffic : Traffic} {thread : Thread} {call : Call} (found : traffic.waitingCall? thread = some call) :
    call ∈ traffic.waiting ∧ call.thread = thread := by
  rw [waitingCall?] at found
  exact ⟨List.mem_of_find?_eq_some found, by simpa using List.find?_some found⟩

inductive Makes (traffic : Traffic) : Move → Traffic → Prop
  | granted {call : Call} : traffic.waitingCall? call.thread = none → traffic.admits call = true →
      Makes traffic (.call call) (traffic.grant call)
  | awaited {call : Call} : traffic.waitingCall? call.thread = none → traffic.admits call = false →
      Makes traffic (.call call) (traffic.await call)
  | proceeded {call : Call} : call ∈ traffic.waiting → traffic.admits call = true →
      Makes traffic (.proceed call.thread) ((traffic.endWait call).grant call)
  | gaveUp {call : Call} : call ∈ traffic.waiting → call.request.role = .administration → traffic.admits call = false →
      Makes traffic (.giveUp call.thread) (traffic.endWait call)
  | released {thread : Thread} {role : Role} : (thread, role) ∈ traffic.held →
      Makes traffic (.release thread role) (traffic.drop thread role)

theorem step_makes {traffic next : Traffic} {move : Move} (made : traffic.step move = some next) : traffic.Makes move next := by
  cases move with
  | call call =>
      simp only [step] at made
      split at made
      · cases made
      next calls =>
        rw [Bool.not_eq_true, Option.isSome_eq_false_iff, Option.isNone_iff_eq_none] at calls
        split at made
        next admitted =>
          cases made
          exact .granted calls admitted
        next refused =>
          cases made
          exact .awaited calls (Bool.eq_false_iff.mpr refused)
  | proceed thread =>
      simp only [step] at made
      split at made
      · cases made
      next call found =>
        obtain ⟨waits, rfl⟩ := waiting_call_some found
        split at made
        next admitted =>
          cases made
          exact .proceeded waits admitted
        next => cases made
  | giveUp thread =>
      simp only [step] at made
      split at made
      · cases made
      next call found =>
        obtain ⟨waits, rfl⟩ := waiting_call_some found
        split at made
        · cases made
        next refused =>
          cases made
          rw [not_or, Bool.not_eq_true] at refused
          refine .gaveUp waits ?_ refused.2
          cases asked : call.request.role with
          | pass => exact absurd asked refused.1
          | administration => rfl
  | release thread role =>
      simp only [step] at made
      split at made
      next held =>
        cases made
        exact .released held.2
      next => cases made

inductive Exclusive (traffic : Traffic) : Prop
  | free : traffic.gate.writer = none → traffic.slots .administration = 0 → Exclusive traffic
  | taken (owner : Thread) : traffic.gate.writer = some (owner, traffic.slots .administration) →
      0 < traffic.slots .administration → (∀ slot ∈ traffic.held, slot.1 = owner) → Exclusive traffic

structure Sound (traffic : Traffic) : Prop where
  reads : traffic.Reads
  writes : traffic.Exclusive
  waits : traffic.gate.waitingWriters = traffic.waitingWriters
  calls : traffic.waiting.Pairwise fun one other => one.thread ≠ other.thread

theorem sound_idle : idle.Sound :=
  ⟨⟨fun _ => rfl, rfl, rfl⟩, .free rfl rfl, rfl, .nil⟩

namespace Sound

variable {traffic : Traffic} {call : Call} {thread : Thread} {role : Role}

theorem reads_iff (sound : traffic.Sound) (thread : Thread) :
    traffic.gate.isReader thread = true ↔ (thread, .pass) ∈ traffic.held := by
  rw [Gate.isReader, SortedMap.contains, sound.reads.depths, recorded_isSome, passes_of_pos]

theorem read_by_others (sound : traffic.Sound) {other : Thread} (different : other ≠ thread)
    (held : (other, .pass) ∈ traffic.held) : traffic.gate.isReadByOthers thread = true := by
  have known : other ∈ traffic.gate.readers.keys := by
    rw [SortedMap.mem_keys_iff]
    exact (sound.reads_iff other).mpr held
  rw [Gate.isReadByOthers, List.any_eq_true]
  exact ⟨other, known, by simpa using different⟩

theorem alone (sound : traffic.Sound) (administers : (thread, .administration) ∈ traffic.held) {other : Thread}
    (held : (other, role) ∈ traffic.held) : other = thread := by
  cases sound.writes with
  | free _ unused => exact absurd (slots_pos.mpr ⟨thread, administers⟩) (by omega)
  | taken _ _ _ owned => exact (owned _ held).trans (owned _ administers).symm

theorem writer_holds (sound : traffic.Sound) (writes : traffic.gate.isWriter thread = true) :
    (thread, .administration) ∈ traffic.held := by
  cases sound.writes with
  | free unwritten _ =>
      rw [Gate.isWriter, unwritten] at writes
      cases writes
  | taken _ written positive owned =>
      rw [Gate.isWriter, written] at writes
      obtain ⟨holder, held⟩ := slots_pos.mp positive
      rw [← eq_of_beq writes, ← owned _ held]
      exact held

theorem admitted_owner (sound : traffic.Sound) (admitted : traffic.admits call = true) {owner : Thread} {depth : Nat}
    (written : traffic.gate.writer = some (owner, depth)) : call.thread = owner := by
  have owns : traffic.gate.isWriter owner = true := by
    simp [Gate.isWriter, written]
  have same : ∀ {role}, (call.thread, role) ∈ traffic.held → call.thread = owner := fun held =>
    sound.alone (sound.writer_holds owns) held
  cases asked : call.request.role with
  | pass =>
      simp only [admits, asked, Gate.admits, written, Option.isNone_some, Bool.false_and, Bool.or_false,
        Bool.or_eq_true] at admitted
      exact admitted.elim (fun reads => same ((sound.reads_iff _).mp reads)) fun writes => same (sound.writer_holds writes)
  | administration =>
      simp only [admits, asked, Gate.admits, written, Option.isNone_some, Bool.false_and, Bool.or_false] at admitted
      exact same (sound.writer_holds admitted)

theorem admitted_alone (sound : traffic.Sound) (admitted : traffic.admits call = true)
    (asked : call.request.role = .administration) (unwritten : traffic.gate.writer = none)
    (unused : traffic.slots .administration = 0) {slot : Thread × Role} (member : slot ∈ traffic.held) :
    slot.1 = call.thread := by
  obtain ⟨other, held⟩ := slot
  cases held with
  | administration => exact absurd (slots_pos.mpr ⟨other, member⟩) (by omega)
  | pass =>
      by_cases same : other = call.thread
      · exact same
      · have read := sound.read_by_others same member
        simp [admits, asked, Gate.admits, Gate.isWriter, unwritten, read] at admitted

theorem take (sound : traffic.Sound) (admitted : traffic.admits call = true) : (traffic.grant call).Sound := by
  have more : (traffic.grant call).held.Perm ((call.thread, call.request.role) :: traffic.held) := .refl _
  have writes := slots_of_more more .administration
  have gate : (traffic.grant call).gate = traffic.gate.take call.thread call.request.role := rfl
  have owned : ∀ {owner depth}, traffic.gate.writer = some (owner, depth) → (∀ slot ∈ traffic.held, slot.1 = owner) →
      ∀ slot ∈ (traffic.grant call).held, slot.1 = owner := by
    rintro owner depth written owned slot (_ | ⟨_, member⟩)
    · exact sound.admitted_owner admitted written
    · exact owned slot member
  refine ⟨?_, ?_, (traffic.gate.take_waiting _ _).trans sound.waits, sound.calls⟩
  · cases asked : call.request.role with
    | pass =>
        rw [asked] at more gate
        exact sound.reads.take more gate
    | administration =>
        rw [asked] at more gate
        obtain ⟨readers, active⟩ := traffic.gate.take_administration_keeps call.thread
        rw [← gate] at readers active
        exact sound.reads.keep readers active (slots_of_more more .pass) fun thread => by simp [passes_of_more more]
  · cases asked : call.request.role with
    | pass =>
        rw [asked] at writes gate
        cases sound.writes with
        | free unwritten unused => exact .free (by rw [gate]; exact unwritten) (writes.trans unused)
        | taken _ written positive owns =>
            refine .taken _ ?_ ?_ (owned written owns)
            · rw [gate, writes]
              exact written
            · rw [writes]
              exact positive
    | administration =>
        rw [asked, if_pos rfl] at writes
        rw [asked] at gate
        cases sound.writes with
        | free unwritten unused =>
            refine .taken call.thread ?_ (by omega) ?_
            · rw [gate, writes, unused, Gate.take, unwritten]
            · rintro slot (_ | ⟨_, member⟩)
              · rfl
              · exact sound.admitted_alone admitted asked unwritten unused member
        | taken _ written positive owns =>
            refine .taken _ ?_ (by omega) (owned written owns)
            rw [gate, writes, Gate.take, written]

theorem give_back (sound : traffic.Sound) (held : (thread, role) ∈ traffic.held) : (traffic.drop thread role).Sound := by
  have more : traffic.held.Perm ((thread, role) :: (traffic.drop thread role).held) := List.perm_cons_erase held
  have writes := slots_of_more more .administration
  have owned : ∀ {owner}, (∀ slot ∈ traffic.held, slot.1 = owner) →
      ∀ slot ∈ (traffic.drop thread role).held, slot.1 = owner := fun owns slot member =>
    owns slot (List.mem_of_mem_erase member)
  refine ⟨?_, ?_, (traffic.gate.give_back_waiting thread role).trans sound.waits, sound.calls⟩
  · cases role with
    | pass => exact sound.reads.give_back more rfl
    | administration =>
        obtain ⟨readers, active⟩ := traffic.gate.give_back_administration_keeps thread
        exact sound.reads.keep readers active (slots_of_more more .pass).symm fun thread => by simp [passes_of_more more]
  · cases role with
    | pass =>
        have same : traffic.slots .administration = (traffic.drop thread .pass).slots .administration := writes
        cases sound.writes with
        | free unwritten unused => exact .free unwritten (same.symm.trans unused)
        | taken owner written positive owns =>
            rw [same] at written positive
            exact .taken owner written positive (owned owns)
    | administration =>
        rw [if_pos rfl] at writes
        cases sound.writes with
        | free unwritten unused => omega
        | taken owner written positive owns =>
            have writer : (traffic.drop thread .administration).gate.writer =
                if (traffic.drop thread .administration).slots .administration + 1 ≤ 1 then none
                else some (owner, (traffic.drop thread .administration).slots .administration) := by
              rw [drop, Gate.giveBack, written, writes]
              rfl
            by_cases last : (traffic.drop thread .administration).slots .administration = 0
            · exact .free (by rw [writer, if_pos (by omega)]) last
            · refine .taken owner ?_ (by omega) (owned owns)
              rw [writer, if_neg (by omega)]

theorem of_same_slots {next : Traffic} (sound : traffic.Sound) (held : next.held = traffic.held)
    (readers : next.gate.readers = traffic.gate.readers) (active : next.gate.activePasses = traffic.gate.activePasses)
    (writer : next.gate.writer = traffic.gate.writer) (waits : next.gate.waitingWriters = next.waitingWriters)
    (calls : next.waiting.Pairwise fun one other => one.thread ≠ other.thread) : next.Sound := by
  have slots : ∀ role, next.slots role = traffic.slots role := fun role => by rw [slots, slots, held]
  refine ⟨sound.reads.keep readers active (slots .pass) fun thread => by rw [passesOf, passesOf, held], ?_, waits, calls⟩
  cases sound.writes with
  | free unwritten unused => exact .free (writer.trans unwritten) ((slots _).trans unused)
  | taken owner written positive owned =>
      rw [← slots] at written positive
      exact .taken owner (writer.trans written) positive (held ▸ owned)

theorem await (sound : traffic.Sound) (calls : traffic.waitingCall? call.thread = none) : (traffic.await call).Sound := by
  refine sound.of_same_slots rfl (Gate.await_readers _ _) (Gate.await_passes _ _) (Gate.await_writer _ _) ?_ ?_
  · have counted : (traffic.await call).waitingWriters =
        traffic.waitingWriters + if call.request.role = .administration then 1 else 0 := by
      simp [Traffic.waitingWriters, Traffic.await, List.countP_append, List.countP_cons]
    rw [counted, ← sound.waits]
    cases asked : call.request.role <;> simp [Traffic.await, Gate.await, asked]
  · refine List.pairwise_append.mpr ⟨sound.calls, List.pairwise_singleton _ _, ?_⟩
    rintro other member _ (_ | ⟨_, ⟨⟩⟩)
    simpa using List.find?_eq_none.mp calls other member

theorem waiting_without {calls : List Call} (distinct : calls.Pairwise fun one other => one.thread ≠ other.thread)
    (member : call ∈ calls) : calls.Perm (call :: calls.filter fun other => other.thread ≠ call.thread) := by
  induction calls with
  | nil => cases member
  | cons first others ih =>
      obtain ⟨apart, distinct⟩ := List.pairwise_cons.mp distinct
      rcases List.mem_cons.mp member with rfl | later
      · have kept : others.filter (fun other => other.thread ≠ call.thread) = others :=
          List.filter_eq_self.mpr fun other present => by simpa using (apart other present).symm
        rw [List.filter_cons_of_neg (by simp), kept]
      · rw [List.filter_cons_of_pos (by simpa using apart call later)]
        exact ((ih distinct later).cons first).trans (.swap _ _ _)

theorem end_wait (sound : traffic.Sound) (waits : call ∈ traffic.waiting) : (traffic.endWait call).Sound := by
  refine sound.of_same_slots rfl (Gate.end_wait_readers _ _) (Gate.end_wait_passes _ _) (Gate.end_wait_writer _ _) ?_
    (sound.calls.filter _)
  have counted : traffic.waitingWriters =
      (traffic.endWait call).waitingWriters + if call.request.role = .administration then 1 else 0 := by
    simp [Traffic.waitingWriters, Traffic.endWait, (waiting_without sound.calls waits).countP_eq, List.countP_cons]
  have before := sound.waits
  cases asked : call.request.role <;> simp [Traffic.endWait, Gate.endWait, asked] at counted ⊢ <;> omega

theorem admits_end_wait (traffic : Traffic) (call : Call) : (traffic.endWait call).admits call = traffic.admits call := by
  cases asked : call.request.role <;> simp only [admits, endWait, asked] <;> rfl

theorem step {next : Traffic} {move : Move} (sound : traffic.Sound) (made : traffic.step move = some next) : next.Sound := by
  cases step_makes made with
  | granted calls admitted => exact sound.take admitted
  | awaited calls refused => exact sound.await calls
  | proceeded waits admitted => exact (sound.end_wait waits).take (by rw [admits_end_wait]; exact admitted)
  | gaveUp waits asked refused => exact sound.end_wait waits
  | released held => exact sound.give_back held

end Sound

-- A run of moves; a move that cannot be made is passed over.
def run (traffic : Traffic) (moves : List Move) : Traffic :=
  moves.foldl (fun traffic move => (traffic.step move).getD traffic) traffic

theorem Sound.run {traffic : Traffic} (sound : traffic.Sound) (moves : List Move) : (traffic.run moves).Sound := by
  induction moves generalizing traffic with
  | nil => exact sound
  | cons move moves ih =>
      rw [Traffic.run, List.foldl_cons]
      apply ih
      cases made : traffic.step move with
      | none => exact sound
      | some next => exact sound.step made

theorem sound_settle {traffic : Traffic} (sound : traffic.Sound) (calls : List Call) : (settle calls traffic).Sound := by
  induction calls generalizing traffic with
  | nil => exact sound
  | cons call calls ih =>
      rw [settle]
      apply ih
      cases made : traffic.step (.proceed call.thread) with
      | none => exact sound
      | some next => exact sound.step made

theorem sound_advance {traffic next : Traffic} {move : Move} (sound : traffic.Sound)
    (made : traffic.advance move = some next) : next.Sound := by
  rw [advance, Option.map_eq_some_iff] at made
  obtain ⟨stepped, step, rfl⟩ := made
  have soundThere := sound.step step
  split
  · exact sound_settle soundThere _
  · exact soundThere

-- Nobody is in while another thread administers, and what the gate counts are the live
-- guards and the calls that wait.
structure Accounted (traffic : Traffic) : Prop where
  alone : ∀ {thread other : Thread} {role : Role}, (thread, .administration) ∈ traffic.held →
    (other, role) ∈ traffic.held → other = thread
  passes : traffic.gate.activePasses = traffic.slots .pass
  depths : traffic.gate.activePasses = traffic.gate.readers.total
  own_depth : ∀ thread, (traffic.gate.readers.get? thread).getD 0 = traffic.passesOf thread
  deep : ∀ {thread : Thread} {depth : Nat}, traffic.gate.readers.get? thread = some depth → 0 < depth
  nesting : (traffic.gate.writer.map Prod.snd).getD 0 = traffic.slots .administration
  owner : ∀ {thread : Thread} {depth : Nat}, traffic.gate.writer = some (thread, depth) →
    (thread, .administration) ∈ traffic.held
  waits : traffic.gate.waitingWriters = traffic.waitingWriters
  cleared : traffic.held = [] → traffic.waiting = [] → traffic.gate = .idle

theorem Sound.accounted {traffic : Traffic} (sound : traffic.Sound) : traffic.Accounted where
  alone administers held := sound.alone administers held
  passes := sound.reads.passes
  depths := sound.reads.passes.trans sound.reads.total.symm
  own_depth thread := by rw [sound.reads.depths, recorded_getD]
  deep {thread depth} found := by
    rw [sound.reads.depths] at found
    cases counted : traffic.passesOf thread with
    | zero =>
        rw [counted] at found
        cases found
    | succ passes =>
        rw [counted] at found
        cases found
        exact Nat.succ_pos passes
  nesting := by
    cases sound.writes with
    | free unwritten unused =>
        rw [unwritten, unused]
        rfl
    | taken owner written _ _ =>
        rw [written]
        rfl
  owner {thread depth} written := sound.writer_holds (by simp [Gate.isWriter, written])
  waits := sound.waits
  cleared held waiting := by
    have slots : ∀ role, traffic.slots role = 0 := fun role => by
      rw [slots, held]
      rfl
    have writer : traffic.gate.writer = none := by
      cases sound.writes with
      | free unwritten _ => exact unwritten
      | taken _ _ positive _ => exact absurd (slots .administration) (by omega)
    have readers : traffic.gate.readers = .empty := by
      apply SortedMap.eq_of_get
      intro thread
      rw [sound.reads.depths, passesOf, held]
      rfl
    have waits : traffic.gate.waitingWriters = 0 := by
      rw [sound.waits, waitingWriters, waiting]
      rfl
    have passes : traffic.gate.activePasses = 0 := sound.reads.passes.trans (slots .pass)
    calc traffic.gate
      _ = ⟨traffic.gate.writer, traffic.gate.readers, traffic.gate.waitingWriters, traffic.gate.activePasses⟩ := rfl
      _ = .idle := by rw [writer, readers, waits, passes, Gate.idle]

/-- Whatever turns the threads take at an idle gate, whoever administers is alone, and the gate accounts for the guards and
the calls that wait. -/
theorem run_accounted (moves : List Move) : (idle.run moves).Accounted := (sound_idle.run moves).accounted

-- A thread in two passes administers once the other one has left, and drops a pass before it
-- stops to administer.
example :
    let moves : List Move := [.call ⟨"one", .enter⟩, .call ⟨"one", .enter⟩, .call ⟨"other", .enter⟩,
      .call ⟨"one", .administer 10⟩, .release "other" .pass, .proceed "one", .call ⟨"one", .enter⟩,
      .call ⟨"one", .administer 10⟩, .release "one" .pass]
    ((idle.run moves).gate.writer, (idle.run moves).gate.activePasses, (idle.run moves).held.length) =
      (some ("one", 2), 2, 4) := by decide

end Traffic
end DocumentViews
