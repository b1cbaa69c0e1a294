import DocumentViews.Proofs.Admission

set_option autoImplicit false

namespace DocumentViews.Traffic

variable {traffic next : Traffic} {call : Call} {thread : Thread} {role : Role} {move : Move}

structure Blocked (traffic : Traffic) (call : Call) : Prop where
  waits : call ∈ traffic.waiting
  refused : traffic.admits call = false

namespace Sound

theorem writes_iff (sound : traffic.Sound) (thread : Thread) :
    traffic.gate.isWriter thread = true ↔ (thread, .administration) ∈ traffic.held := by
  refine ⟨sound.writer_holds, fun held => ?_⟩
  cases sound.writes with
  | free _ unused => exact absurd (slots_pos.mpr ⟨thread, held⟩) (by omega)
  | taken owner written _ owned =>
      have same : thread = owner := owned _ held
      simp [Gate.isWriter, written, same]

theorem writer_none_iff (sound : traffic.Sound) :
    traffic.gate.writer = none ↔ ∀ thread, (thread, .administration) ∉ traffic.held := by
  cases sound.writes with
  | free unwritten unused =>
      refine ⟨fun _ thread held => ?_, fun _ => unwritten⟩
      exact absurd (slots_pos.mpr ⟨thread, held⟩) (by omega)
  | taken owner written positive _ =>
      obtain ⟨thread, held⟩ := slots_pos.mp positive
      refine ⟨fun unwritten => ?_, fun unheld => absurd held (unheld thread)⟩
      rw [written] at unwritten
      cases unwritten

theorem nobody_waits_to_administer_iff (sound : traffic.Sound) :
    traffic.gate.waitingWriters = 0 ↔ ∀ other ∈ traffic.waiting, other.request.role ≠ .administration := by
  rw [sound.waits, waitingWriters, List.countP_eq_zero]
  simp only [decide_eq_true_eq]

theorem read_by_others_iff (sound : traffic.Sound) (thread : Thread) :
    traffic.gate.isReadByOthers thread = true ↔ ∃ other, other ≠ thread ∧ (other, .pass) ∈ traffic.held := by
  constructor
  · intro read
    obtain ⟨other, known, different⟩ := List.any_eq_true.mp read
    rw [SortedMap.mem_keys_iff] at known
    exact ⟨other, by simpa using different, (sound.reads_iff other).mp known⟩
  · rintro ⟨other, different, held⟩
    exact sound.read_by_others different held

theorem admits_pass_iff (sound : traffic.Sound) (asked : call.request.role = .pass) :
    traffic.admits call = true ↔ (∃ role, (call.thread, role) ∈ traffic.held) ∨
      (∀ thread, (thread, .administration) ∉ traffic.held) ∧
        ∀ other ∈ traffic.waiting, other.request.role ≠ .administration := by
  have own : (∃ role, (call.thread, role) ∈ traffic.held) ↔
      (call.thread, .pass) ∈ traffic.held ∨ (call.thread, .administration) ∈ traffic.held := by
    constructor
    · rintro ⟨role, held⟩
      cases role with
      | pass => exact .inl held
      | administration => exact .inr held
    · exact fun held => held.elim (fun held => ⟨_, held⟩) fun held => ⟨_, held⟩
  simp only [admits, asked, Gate.admits, Bool.or_eq_true, Bool.and_eq_true, Option.isNone_iff_eq_none, beq_iff_eq]
  rw [sound.reads_iff, sound.writes_iff, sound.writer_none_iff, sound.nobody_waits_to_administer_iff, own]

theorem admits_administration_iff (sound : traffic.Sound) (asked : call.request.role = .administration) :
    traffic.admits call = true ↔ ∀ slot ∈ traffic.held, slot.1 = call.thread := by
  simp only [admits, asked, Gate.admits, Bool.or_eq_true, Bool.and_eq_true, Option.isNone_iff_eq_none,
    Bool.not_eq_true']
  rw [sound.writes_iff, sound.writer_none_iff, Bool.eq_false_iff, ne_eq, sound.read_by_others_iff]
  constructor
  · rintro (administers | ⟨unwritten, unread⟩) ⟨other, role⟩ held
    · exact sound.alone administers held
    · cases role with
      | administration => exact absurd held (unwritten other)
      | pass => exact Classical.byContradiction fun different => unread ⟨other, different, held⟩
  · intro owned
    by_cases administers : (call.thread, .administration) ∈ traffic.held
    · exact .inl administers
    · refine .inr ⟨fun thread held => administers ?_, ?_⟩
      · rw [← owned _ held]
        exact held
      · rintro ⟨other, different, held⟩
        exact different (owned _ held)

theorem one_call (sound : traffic.Sound) {other : Call} (waits : call ∈ traffic.waiting)
    (waitsToo : other ∈ traffic.waiting) (same : call.thread = other.thread) : call = other := by
  rcases List.mem_cons.mp ((waiting_without sound.calls waits).mem_iff.mp waitsToo) with rfl | apart
  · rfl
  · simp [same] at apart

theorem waiting_call_eq (sound : traffic.Sound) (waits : call ∈ traffic.waiting) :
    traffic.waitingCall? call.thread = some call := by
  cases found : traffic.waitingCall? call.thread with
  | none =>
      have absent := List.find?_eq_none.mp found call waits
      simp at absent
  | some other =>
      obtain ⟨waitsToo, same⟩ := waiting_call_some found
      rw [sound.one_call waits waitsToo same.symm]

theorem step_proceed (sound : traffic.Sound) (waits : call ∈ traffic.waiting) : traffic.step (.proceed call.thread) =
    if traffic.admits call then some ((traffic.endWait call).grant call) else none := by
  simp only [Traffic.step, sound.waiting_call_eq waits]

theorem proceeds (sound : traffic.Sound) (waits : call ∈ traffic.waiting) (admitted : traffic.admits call = true) :
    traffic.step (.proceed call.thread) = some ((traffic.endWait call).grant call) := by
  rw [sound.step_proceed waits, if_pos admitted]

theorem gives_up (sound : traffic.Sound) (blocked : traffic.Blocked call) (asked : call.request.role = .administration) :
    traffic.step (.giveUp call.thread) = some (traffic.endWait call) := by
  simp only [Traffic.step, sound.waiting_call_eq blocked.waits, blocked.refused, asked]
  rfl

theorem enters (admitted : traffic.admits call = true) (calls : traffic.waitingCall? call.thread = none) :
    traffic.step (.call call) = some (traffic.grant call) := by
  simp only [Traffic.step, calls, Option.isSome_none, Bool.false_eq_true, if_false]
  rw [if_pos admitted]

theorem refused_again (sound : traffic.Sound) (soundThen : next.Sound) (held : ∀ slot ∈ traffic.held, slot ∈ next.held)
    (own : ∀ role, (call.thread, role) ∈ next.held → (call.thread, role) ∈ traffic.held)
    (wanted : ∀ other ∈ traffic.waiting, other.request.role = .administration →
      other ∈ next.waiting ∨ ∃ thread, (thread, .administration) ∈ next.held)
    (refused : traffic.admits call = false) : next.admits call = false := by
  rw [Bool.eq_false_iff] at refused ⊢
  intro admitted
  apply refused
  cases asked : call.request.role with
  | pass =>
      rw [sound.admits_pass_iff asked]
      rcases (soundThen.admits_pass_iff asked).mp admitted with ⟨role, holds⟩ | ⟨free, nobody⟩
      · exact .inl ⟨role, own role holds⟩
      · refine .inr ⟨fun thread administers => free thread (held _ administers), fun other waits administers => ?_⟩
        rcases wanted other waits administers with waitsStill | ⟨thread, taken⟩
        · exact nobody other waitsStill administers
        · exact free thread taken
  | administration =>
      rw [sound.admits_administration_iff asked]
      exact fun slot member => (soundThen.admits_administration_iff asked).mp admitted slot (held slot member)

theorem refused_await (sound : traffic.Sound) {other : Call} (calls : traffic.waitingCall? other.thread = none)
    (refused : traffic.admits call = false) : (traffic.await other).admits call = false :=
  sound.refused_again (sound.await calls) (fun _ member => member) (fun _ held => held)
    (fun _ waits _ => .inl (List.mem_append_left _ waits)) refused

-- A move that wakes nobody lets nobody in who waits.
theorem blocked_still (sound : traffic.Sound) (blocked : traffic.Blocked call) (made : traffic.step move = some next)
    (sleeps : move.wakes = false) : next.Blocked call := by
  have soundThen := sound.step made
  have apart : ∀ {other : Call} {role : Role}, call.thread ≠ other.thread →
      ∀ own, (call.thread, own) ∈ (other.thread, role) :: traffic.held → (call.thread, own) ∈ traffic.held := by
    intro other role different own member
    rcases List.mem_cons.mp member with same | held
    · exact absurd (congrArg Prod.fst same) different
    · exact held
  cases step_makes made with
  | @granted other calls admitted =>
      have different : call.thread ≠ other.thread := by
        intro same
        rw [← same, sound.waiting_call_eq blocked.waits] at calls
        cases calls
      refine ⟨blocked.waits, ?_⟩
      exact sound.refused_again soundThen (fun slot member => List.mem_cons_of_mem _ member) (apart different)
        (fun _ waits _ => .inl waits) blocked.refused
  | awaited calls refused =>
      exact ⟨List.mem_append_left _ blocked.waits, sound.refused_await calls blocked.refused⟩
  | @proceeded other waits admitted =>
      have different : call.thread ≠ other.thread := by
        intro same
        have admittedToo := admitted
        rw [← sound.one_call blocked.waits waits same, blocked.refused] at admittedToo
        cases admittedToo
      have waitsStill : ∀ {third : Call}, third ∈ traffic.waiting → third.thread ≠ other.thread →
          third ∈ ((traffic.endWait other).grant other).waiting := fun member different =>
        List.mem_filter.mpr ⟨member, by simpa using different⟩
      refine ⟨waitsStill blocked.waits different, ?_⟩
      refine sound.refused_again soundThen (fun slot member => List.mem_cons_of_mem _ member) (apart different) ?_
        blocked.refused
      intro third member administers
      by_cases same : third.thread = other.thread
      · have taken : (third.thread, third.request.role) ∈ ((traffic.endWait other).grant other).held := by
          rw [sound.one_call member waits same]
          exact List.mem_cons_self
        rw [administers] at taken
        exact .inr ⟨_, taken⟩
      · exact .inl (waitsStill member same)
  | gaveUp waits asked refused => cases sleeps
  | released held => cases sleeps

end Sound

theorem Sound.blocked_in_run (sound : traffic.Sound) (blocked : traffic.Blocked call) {moves : List Move}
    (sleeps : ∀ move ∈ moves, move.wakes = false) : (traffic.run moves).Blocked call := by
  induction moves generalizing traffic with
  | nil => exact blocked
  | cons move moves ih =>
      rw [List.forall_mem_cons] at sleeps
      rw [Traffic.run, List.foldl_cons]
      cases made : traffic.step move with
      | none => exact ih sound blocked sleeps.2
      | some next => exact ih (sound.step made) (sound.blocked_still blocked made sleeps.1) sleeps.2

def Settled (traffic : Traffic) : Prop := ∀ call ∈ traffic.waiting, traffic.admits call = false

-- A run of moves in which those who wait look again only when they are woken.
def turns (traffic : Traffic) (moves : List Move) : Traffic :=
  moves.foldl (fun traffic move => (traffic.advance move).getD traffic) traffic

theorem waited_before (made : traffic.step (.proceed thread) = some next) (waits : call ∈ next.waiting) :
    call ∈ traffic.waiting ∧ call.thread ≠ thread := by
  generalize proceeding : Move.proceed thread = move at made
  cases step_makes made with
  | proceeded present admitted =>
      rw [Move.proceed.inj proceeding]
      simpa [grant, endWait] using waits
  | _ => cases proceeding

-- Those that were passed over stay refused, so one look at each is enough.
theorem Sound.settle_settles (sound : traffic.Sound) {calls : List Call}
    (others : ∀ call ∈ traffic.waiting, call ∈ calls ∨ traffic.admits call = false) :
    (settle calls traffic).Settled := by
  induction calls generalizing traffic with
  | nil => exact fun call waits => (others call waits).resolve_left List.not_mem_nil
  | cons first calls ih =>
      rw [settle]
      cases made : traffic.step (.proceed first.thread) with
      | none =>
          refine ih sound fun call waits => ?_
          rcases others call waits with listed | refused
          · rcases List.mem_cons.mp listed with rfl | later
            · refine .inr (Bool.eq_false_iff.mpr fun admitted => ?_)
              rw [sound.proceeds waits admitted] at made
              cases made
            · exact .inl later
          · exact .inr refused
      | some next =>
          refine ih (sound.step made) fun call waits => ?_
          have before := waited_before made waits
          rcases others call before.1 with listed | refused
          · refine .inl ((List.mem_cons.mp listed).resolve_left ?_)
            rintro rfl
            exact before.2 rfl
          · exact .inr (sound.blocked_still ⟨before.1, refused⟩ made rfl).refused

theorem Sound.advance_settles (sound : traffic.Sound) (settled : traffic.Settled)
    (advanced : traffic.advance move = some next) : next.Settled := by
  rw [advance, Option.map_eq_some_iff] at advanced
  obtain ⟨stepped, made, rfl⟩ := advanced
  have soundThen := sound.step made
  split
  · exact soundThen.settle_settles fun call waits => .inl waits
  next sleeps =>
    rw [Bool.not_eq_true] at sleeps
    intro call waits
    have still : call ∈ traffic.waiting → stepped.admits call = false := fun before =>
      (sound.blocked_still ⟨before, settled call before⟩ made sleeps).refused
    cases step_makes made with
    | granted calls admitted => exact still waits
    | @awaited other calls refused =>
        rcases List.mem_append.mp waits with before | own
        · exact still before
        · rw [List.mem_singleton.mp own]
          exact sound.refused_await calls refused
    | proceeded present admitted => exact still (List.mem_filter.mp waits).1
    | gaveUp present asked refused => cases sleeps
    | released held => cases sleeps

theorem turns_settled (moves : List Move) : (idle.turns moves).Sound ∧ (idle.turns moves).Settled := by
  have onward : ∀ {traffic : Traffic}, traffic.Sound → traffic.Settled →
      (traffic.turns moves).Sound ∧ (traffic.turns moves).Settled := by
    induction moves with
    | nil => exact fun sound settled => ⟨sound, settled⟩
    | cons move moves ih =>
        intro traffic sound settled
        rw [turns, List.foldl_cons]
        cases advanced : traffic.advance move with
        | none => exact ih sound settled
        | some next => exact ih (sound_advance sound advanced) (sound.advance_settles settled advanced)
  exact onward sound_idle fun call waits => absurd waits List.not_mem_nil

-- While a thread waits to administer, who holds no slot gets no pass. Who holds one of either
-- role enters at once, and who administers does so again at once.
structure Orderly (traffic : Traffic) : Prop where
  not_overtaken {move : Move} {next : Traffic} {thread : Thread} : traffic.step move = some next →
    (∃ call ∈ traffic.waiting, call.request.role = .administration) → (∀ role, (thread, role) ∉ traffic.held) →
      (thread, .pass) ∉ next.held
  enters_at_once {thread : Thread} {role : Role} : (thread, role) ∈ traffic.held → traffic.waitingCall? thread = none →
    traffic.step (.call ⟨thread, .enter⟩) = some (traffic.grant ⟨thread, .enter⟩)
  administers_at_once {thread : Thread} (timeout : Nat) : (thread, .administration) ∈ traffic.held →
    traffic.waitingCall? thread = none →
      traffic.step (.call ⟨thread, .administer timeout⟩) = some (traffic.grant ⟨thread, .administer timeout⟩)

namespace Sound

theorem not_let_in (sound : traffic.Sound) (administers : ∃ other ∈ traffic.waiting, other.request.role = .administration)
    (unheld : ∀ role, (call.thread, role) ∉ traffic.held) (admitted : traffic.admits call = true) :
    call.request.role = .administration := by
  cases asked : call.request.role with
  | administration => rfl
  | pass =>
      obtain ⟨other, waits, administers⟩ := administers
      rcases (sound.admits_pass_iff asked).mp admitted with ⟨role, held⟩ | ⟨_, nobody⟩
      · exact absurd held (unheld role)
      · exact absurd administers (nobody other waits)

theorem not_granted (sound : traffic.Sound) (administers : ∃ other ∈ traffic.waiting, other.request.role = .administration)
    (unheld : ∀ role, (thread, role) ∉ traffic.held) (admitted : traffic.admits call = true) :
    (thread, .pass) ∉ (call.thread, call.request.role) :: traffic.held := by
  intro held
  rcases List.mem_cons.mp held with same | before
  · rw [Prod.mk.injEq] at same
    rw [same.1] at unheld
    rw [sound.not_let_in administers unheld admitted] at same
    cases same.2
  · exact unheld .pass before

theorem orderly (sound : traffic.Sound) : traffic.Orderly where
  not_overtaken {move next thread} made administers unheld := by
    cases step_makes made with
    | granted calls admitted => exact sound.not_granted administers unheld admitted
    | awaited calls refused => exact unheld .pass
    | proceeded waits admitted => exact sound.not_granted administers unheld admitted
    | gaveUp waits asked refused => exact unheld .pass
    | released held => exact fun member => unheld .pass (List.mem_of_mem_erase member)
  enters_at_once held calls := enters ((sound.admits_pass_iff rfl).mpr (.inl ⟨_, held⟩)) calls
  administers_at_once timeout held calls :=
    enters ((sound.admits_administration_iff rfl).mpr fun _ member => sound.alone held member) calls

end Sound

/-- Whatever turns the threads take, a thread that waits to administer is not overtaken by passes of threads that hold
nothing, and no call waits for what its own thread holds. -/
theorem run_orderly (moves : List Move) : (idle.run moves).Orderly := (sound_idle.run moves).orderly

-- What is left once a call to administer has given up: all slots as they were, one wait less,
-- and whoever only waited for it can go on.
structure Withdrawn (traffic next : Traffic) (call : Call) : Prop where
  readers : next.gate.readers = traffic.gate.readers
  writer : next.gate.writer = traffic.gate.writer
  passes : next.gate.activePasses = traffic.gate.activePasses
  held : next.held = traffic.held
  counted : next.gate.waitingWriters + 1 = traffic.gate.waitingWriters
  waiting : ∀ other, other ∈ next.waiting ↔ other ∈ traffic.waiting ∧ other ≠ call
  lets_in {other : Call} : other ∈ traffic.waiting → other.request.role = .pass →
    (∀ thread, (thread, .administration) ∉ traffic.held) →
      (∀ third ∈ traffic.waiting, third.request.role = .administration → third = call) →
        next.step (.proceed other.thread) = some ((next.endWait other).grant other)

structure Unstuck (traffic : Traffic) : Prop where
  proceeds {call : Call} : call ∈ traffic.waiting →
    traffic.step (.proceed call.thread) = if traffic.admits call then some ((traffic.endWait call).grant call) else none
  moves_on : traffic.held = [] → traffic.waiting ≠ [] → ∃ call ∈ traffic.waiting, traffic.admits call = true
  pass_held_back {call : Call} : traffic.Blocked call → call.request.role = .pass →
    (∃ thread, thread ≠ call.thread ∧ (thread, .administration) ∈ traffic.held) ∨
      ∃ other ∈ traffic.waiting, other.thread ≠ call.thread ∧ other.request.role = .administration
  administration_held_back {call : Call} : traffic.Blocked call → call.request.role = .administration →
    ∃ slot ∈ traffic.held, slot.1 ≠ call.thread
  wakes {call : Call} {move : Move} {next : Traffic} : traffic.Blocked call → traffic.step move = some next →
    call ∈ next.waiting → next.admits call = true → move.wakes = true
  asleep {call : Call} {moves : List Move} : traffic.Blocked call → (∀ move ∈ moves, move.wakes = false) →
    (traffic.run moves).Blocked call
  gives_up {call : Call} : traffic.Blocked call → call.request.role = .administration →
    ∃ next, traffic.step (.giveUp call.thread) = some next ∧ traffic.Withdrawn next call

namespace Sound

theorem moves_on (sound : traffic.Sound) (unheld : traffic.held = []) (waits : traffic.waiting ≠ []) :
    ∃ call ∈ traffic.waiting, traffic.admits call = true := by
  by_cases administers : ∃ call ∈ traffic.waiting, call.request.role = .administration
  · obtain ⟨call, waits, asked⟩ := administers
    refine ⟨call, waits, (sound.admits_administration_iff asked).mpr fun slot member => ?_⟩
    rw [unheld] at member
    cases member
  · obtain ⟨call, waits⟩ := List.exists_mem_of_ne_nil _ waits
    have nobody : ∀ other ∈ traffic.waiting, other.request.role ≠ .administration := fun other waits asked =>
      administers ⟨other, waits, asked⟩
    refine ⟨call, waits, ?_⟩
    cases asked : call.request.role with
    | administration => exact absurd asked (nobody call waits)
    | pass =>
        refine (sound.admits_pass_iff asked).mpr (.inr ⟨fun thread held => ?_, nobody⟩)
        rw [unheld] at held
        cases held

theorem pass_held_back (sound : traffic.Sound) (blocked : traffic.Blocked call) (asked : call.request.role = .pass) :
    (∃ thread, thread ≠ call.thread ∧ (thread, .administration) ∈ traffic.held) ∨
      ∃ other ∈ traffic.waiting, other.thread ≠ call.thread ∧ other.request.role = .administration := by
  have refused : ¬traffic.admits call = true := by simp [blocked.refused]
  rw [sound.admits_pass_iff asked, not_or] at refused
  by_cases administered : ∃ thread, (thread, .administration) ∈ traffic.held
  · obtain ⟨thread, held⟩ := administered
    refine .inl ⟨thread, ?_, held⟩
    rintro rfl
    exact refused.1 ⟨_, held⟩
  · apply Or.inr
    apply Classical.byContradiction
    intro nobody
    refine refused.2 ⟨fun thread held => administered ⟨thread, held⟩, fun other waits administers => ?_⟩
    refine nobody ⟨other, waits, fun same => ?_, administers⟩
    rw [sound.one_call waits blocked.waits same, asked] at administers
    cases administers

theorem administration_held_back (sound : traffic.Sound) (blocked : traffic.Blocked call)
    (asked : call.request.role = .administration) : ∃ slot ∈ traffic.held, slot.1 ≠ call.thread := by
  apply Classical.byContradiction
  intro owned
  have admitted : traffic.admits call = true := (sound.admits_administration_iff asked).mpr fun slot member =>
    Classical.byContradiction fun different => owned ⟨slot, member, different⟩
  rw [blocked.refused] at admitted
  cases admitted

theorem withdrawn (sound : traffic.Sound) (waits : call ∈ traffic.waiting) (asked : call.request.role = .administration) :
    traffic.Withdrawn (traffic.endWait call) call := by
  have soundThen := sound.end_wait waits
  have waiting : ∀ other, other ∈ (traffic.endWait call).waiting ↔ other ∈ traffic.waiting ∧ other ≠ call := by
    intro other
    simp only [endWait, List.mem_filter, ne_eq, decide_not, Bool.not_eq_true', decide_eq_false_iff_not]
    refine and_congr_right fun present => not_congr ⟨sound.one_call present waits, ?_⟩
    rintro rfl
    rfl
  refine ⟨Gate.end_wait_readers _ _, Gate.end_wait_writer _ _, Gate.end_wait_passes _ _, rfl, ?_, waiting, ?_⟩
  · have pending : traffic.gate.waitingWriters ≠ 0 := fun none =>
      sound.nobody_waits_to_administer_iff.mp none call waits asked
    simp only [endWait, Gate.endWait, asked]
    omega
  · intro other present entering free only
    have different : other ≠ call := by
      rintro rfl
      rw [asked] at entering
      cases entering
    refine soundThen.proceeds ((waiting other).mpr ⟨present, different⟩) ?_
    refine (soundThen.admits_pass_iff entering).mpr (.inr ⟨free, fun third waitsStill administers => ?_⟩)
    obtain ⟨waited, apart⟩ := (waiting third).mp waitsStill
    exact apart (only third waited administers)

theorem unstuck (sound : traffic.Sound) : traffic.Unstuck where
  proceeds := sound.step_proceed
  moves_on := sound.moves_on
  pass_held_back := sound.pass_held_back
  administration_held_back := sound.administration_held_back
  wakes {call move next} blocked made waits admitted := by
    apply Classical.byContradiction
    intro sleeps
    rw [Bool.not_eq_true] at sleeps
    rw [(sound.blocked_still blocked made sleeps).refused] at admitted
    cases admitted
  asleep blocked sleeps := sound.blocked_in_run blocked sleeps
  gives_up {call} blocked asked := ⟨_, sound.gives_up blocked asked, sound.withdrawn blocked.waits asked⟩

end Sound

/-- Whatever turns the threads take, somebody who waits can go on once nobody holds a slot, every wait has its cause in
another thread, and where those who wait look again only when they are woken, nobody waits who could go on. -/
theorem run_never_stuck (moves : List Move) : (idle.run moves).Unstuck ∧ (idle.turns moves).Settled :=
  ⟨(sound_idle.run moves).unstuck, (turns_settled moves).2⟩

-- A pass waits behind an administrator that waits for another one, and goes on once that gives up.
example :
    let before := idle.turns [.call ⟨"one", .enter⟩, .call ⟨"other", .administer 10⟩, .call ⟨"third", .enter⟩]
    (before.waiting.map Call.thread, (before.turns [.giveUp "other"]).held) =
      (["other", "third"], [("third", .pass), ("one", .pass)]) := by decide

end DocumentViews.Traffic
