import DocumentViews.Proofs.Newest
import Mathlib.Algebra.Order.Group.Multiset
import Mathlib.Data.List.Induction
import Mathlib.Tactic.Abel

set_option autoImplicit false

namespace DocumentViews

theorem filter_distinct {α κ : Type} [BEq κ] [LawfulBEq κ] {key : α → κ} {list : List α} {member : α}
    (distinct : (list.map key).Nodup) (present : member ∈ list) :
    list.filter (fun other => key other == key member) = [member] := by
  induction list with
  | nil => cases present
  | cons first rest ih =>
      obtain ⟨absent, tail⟩ := List.nodup_cons.mp distinct
      rcases List.mem_cons.mp present with rfl | later
      · have others : ∀ other ∈ rest, ¬ (key other == key member) = true := by
          intro other there same
          exact absent (List.mem_map.mpr ⟨other, there, eq_of_beq same⟩)
        rw [List.filter_cons_of_pos (by simp), List.filter_eq_nil_iff.mpr others]
      · have different : (key first == key member) = false := by
          rw [beq_eq_false_iff_ne]
          intro same
          exact absent (List.mem_map.mpr ⟨member, later, same.symm⟩)
        rw [List.filter_cons, different, if_neg Bool.false_ne_true, ih tail later]

structure Fates (δ : Type) where
  live : List δ
  removed : List δ
  failed : List δ
  overwritten : List δ

namespace Fates

variable {δ γ : Type}

def none : Fates δ := ⟨[], [], [], []⟩

def all (fates : Fates δ) : List δ := fates.live ++ fates.removed ++ fates.failed ++ fates.overwritten

variable [Definition δ γ]

def makesWayFor (definition other : δ) : Bool :=
  foldName (Definition.name other) == foldName (Definition.name definition) &&
    Definition.id other != Definition.id definition

def hasId (id : UInt32) (definition : δ) : Bool := Definition.id definition == id

def makeWay (definition : δ) (fates : Fates δ) : Fates δ :=
  { fates with
    live := fates.live.filter (!makesWayFor definition ·)
    removed := fates.removed ++ fates.live.filter (makesWayFor definition) }

def install (extensions : Extensions) (definition : δ) (fates : Fates δ) : Fates δ :=
  if (Definition.compile extensions (Definition.prepare definition)).isOk &&
      (fates.live.filter (hasId (Definition.id definition))).all (!Definition.isCompiled ·) then
    { fates with
      live := fates.live.filter (!hasId (Definition.id definition) ·) ++ [definition]
      overwritten := fates.overwritten ++ fates.live.filter (hasId (Definition.id definition)) }
  else { fates with failed := fates.failed ++ [definition] }

def add (extensions : Extensions) (fates : Fates δ) (definition : δ) : Fates δ :=
  (fates.makeWay definition).install extensions definition

def ofDefinitions (extensions : Extensions) (definitions : List δ) : Fates δ := definitions.foldl (add extensions) none

theorem split_live (fates : Fates δ) (chosen : δ → Bool) :
    (fates.live : Multiset δ) = (fates.live.filter (!chosen ·) : Multiset δ) + (fates.live.filter chosen : Multiset δ) := by
  rw [add_comm, Multiset.coe_add]
  exact (Multiset.coe_eq_coe.mpr (List.filter_append_perm chosen fates.live)).symm

theorem make_way_all (definition : δ) (fates : Fates δ) : (fates.makeWay definition).all.Perm fates.all := by
  rw [← Multiset.coe_eq_coe]
  simp only [all, makeWay, ← Multiset.coe_add]
  rw [fates.split_live (makesWayFor definition)]
  abel

theorem install_all (extensions : Extensions) (definition : δ) (fates : Fates δ) :
    (fates.install extensions definition).all.Perm (fates.all ++ [definition]) := by
  rw [← Multiset.coe_eq_coe]
  unfold install
  split
  · simp only [all, ← Multiset.coe_add]
    rw [fates.split_live (hasId (Definition.id definition))]
    abel
  · simp only [all, ← Multiset.coe_add]
    abel

theorem add_all (extensions : Extensions) (fates : Fates δ) (definition : δ) :
    (fates.add extensions definition).all.Perm (fates.all ++ [definition]) :=
  (install_all extensions definition _).trans ((make_way_all definition fates).append_right _)

@[simp] theorem of_definitions_append (extensions : Extensions) (earlier : List δ) (definition : δ) :
    ofDefinitions extensions (earlier ++ [definition]) = (ofDefinitions extensions earlier).add extensions definition := by
  simp [ofDefinitions]

theorem of_definitions_all (extensions : Extensions) (definitions : List δ) :
    (ofDefinitions extensions definitions).all.Perm definitions := by
  induction definitions using List.reverseRecOn with
  | nil => exact .refl _
  | append_singleton earlier definition ih =>
      rw [of_definitions_append]
      exact (add_all extensions _ definition).trans (ih.append_right _)

theorem is_ok_iff_compiles (extensions : Extensions) (definition : δ) :
    (Definition.compile extensions (Definition.prepare definition)).isOk = true ↔ Compiles extensions definition := by
  constructor
  · exact is_ok_exists
  · intro compiles
    obtain ⟨generator, compiled⟩ := compiles
    rw [compiled]
    rfl

theorem install_cases (extensions : Extensions) (definition : δ) (fates : Fates δ) :
    (Compiles extensions definition ∧
      (∀ other ∈ fates.live.filter (hasId (Definition.id definition)), Definition.isCompiled other = false) ∧
      fates.install extensions definition = { fates with
        live := fates.live.filter (!hasId (Definition.id definition) ·) ++ [definition]
        overwritten := fates.overwritten ++ fates.live.filter (hasId (Definition.id definition)) }) ∨
    ((Compiles extensions definition →
        ∃ other ∈ fates.live.filter (hasId (Definition.id definition)), Definition.isCompiled other = true) ∧
      fates.install extensions definition = { fates with failed := fates.failed ++ [definition] }) := by
  unfold install
  split
  next installed =>
    obtain ⟨compiled, replaceable⟩ := Bool.and_eq_true_iff.mp installed
    refine .inl ⟨(is_ok_iff_compiles _ _).mp compiled, fun other rival => ?_, rfl⟩
    simpa using List.all_eq_true.mp replaceable other rival
  next rejected =>
    refine .inr ⟨fun compiles => ?_, rfl⟩
    rw [(is_ok_iff_compiles _ _).mpr compiles, Bool.true_and, Bool.not_eq_true, List.all_eq_false] at rejected
    obtain ⟨other, rival, fixed⟩ := rejected
    exact ⟨other, rival, by simpa using fixed⟩

theorem mem_of_live {extensions : Extensions} {definitions : List δ} {definition : δ}
    (live : definition ∈ (ofDefinitions extensions definitions).live) : definition ∈ definitions := by
  apply (of_definitions_all extensions definitions).subset
  simp [all, live]

theorem distinct_fates (extensions : Extensions) {definitions : List δ}
    (distinct : (definitions.map Definition.id).Nodup) :
    (ofDefinitions extensions definitions).overwritten = [] ∧
      ∀ definition ∈ (ofDefinitions extensions definitions).failed, ¬ Compiles extensions definition := by
  induction definitions using List.reverseRecOn with
  | nil => exact ⟨rfl, fun _ member => absurd member List.not_mem_nil⟩
  | append_singleton earlier definition ih =>
      rw [List.map_append, List.nodup_append] at distinct
      obtain ⟨spared, failing⟩ := ih distinct.1
      have alone : ((ofDefinitions extensions earlier).makeWay definition).live.filter (hasId (Definition.id definition)) = [] := by
        rw [List.filter_eq_nil_iff]
        intro other live same
        have member := mem_of_live (List.mem_of_mem_filter live)
        exact distinct.2.2 _ (List.mem_map_of_mem member) _ (List.mem_singleton_self _) (eq_of_beq same)
      rw [of_definitions_append, add]
      rcases install_cases extensions definition ((ofDefinitions extensions earlier).makeWay definition) with
        ⟨_, _, installed⟩ | ⟨rejected, installed⟩
      · rw [installed, alone, List.append_nil]
        exact ⟨spared, failing⟩
      · rw [installed]
        refine ⟨spared, fun other member => ?_⟩
        rcases List.mem_append.mp member with before | own
        · exact failing other before
        · rw [List.mem_singleton.mp own]
          intro compiles
          obtain ⟨rival, live, _⟩ := rejected compiles
          rw [alone] at live
          cases live

theorem installed_compiles (extensions : Extensions) (definitions : List δ) :
    ∀ definition ∈ (ofDefinitions extensions definitions).live ++ (ofDefinitions extensions definitions).removed,
      Compiles extensions definition := by
  induction definitions using List.reverseRecOn with
  | nil => exact fun _ member => absurd member List.not_mem_nil
  | append_singleton earlier definition ih =>
      rw [of_definitions_append, add]
      have moved : ∀ other ∈ ((ofDefinitions extensions earlier).makeWay definition).live ++
          ((ofDefinitions extensions earlier).makeWay definition).removed, Compiles extensions other := by
        intro other member
        apply ih other
        simp only [makeWay, List.mem_append, List.mem_filter] at member ⊢
        tauto
      rcases install_cases extensions definition ((ofDefinitions extensions earlier).makeWay definition) with
        ⟨compiles, _, installed⟩ | ⟨_, installed⟩
      · rw [installed]
        intro other member
        simp only [List.mem_append, List.mem_filter, List.mem_singleton] at member
        rcases member with (⟨live, _⟩ | rfl) | removed
        · exact moved other (List.mem_append_left _ live)
        · exact compiles
        · exact moved other (List.mem_append_right _ removed)
      · rw [installed]
        exact moved

def claims (extensions : Extensions) (definitions : List δ) (id : UInt32) : List δ :=
  definitions.filter fun definition =>
    hasId id definition && (Definition.compile extensions (Definition.prepare definition)).isOk

-- The first definition of an id that compiles is the only one, or it may not be replaced.
def FirstStays (extensions : Extensions) (definitions : List δ) : Prop :=
  ∀ {id : UInt32} {first : δ} {others : List δ}, claims extensions definitions id = first :: others →
    others = [] ∨ Definition.isCompiled first = true

theorem claims_append_own {extensions : Extensions} {definition : δ} (compiles : Compiles extensions definition)
    (earlier : List δ) : claims extensions (earlier ++ [definition]) (Definition.id definition) =
      claims extensions earlier (Definition.id definition) ++ [definition] := by
  simp [claims, hasId, (is_ok_iff_compiles _ _).mpr compiles]

theorem claims_append_other {extensions : Extensions} {definition : δ} {id : UInt32}
    (other : Compiles extensions definition → id ≠ Definition.id definition) (earlier : List δ) :
    claims extensions (earlier ++ [definition]) id = claims extensions earlier id := by
  rw [claims, List.filter_append, List.filter_cons_of_neg, List.filter_nil, List.append_nil, claims]
  intro chosen
  obtain ⟨same, compiled⟩ := Bool.and_eq_true_iff.mp chosen
  exact other ((is_ok_iff_compiles _ _).mp compiled) (eq_of_beq same).symm

theorem FirstStays.of_append {extensions : Extensions} {earlier : List δ} {definition : δ}
    (stays : FirstStays extensions (earlier ++ [definition])) : FirstStays extensions earlier := by
  intro id first others claimed
  have whole : claims extensions (earlier ++ [definition]) id =
      first :: (others ++ claims extensions [definition] id) := by
    rw [claims, List.filter_append]
    change claims extensions earlier id ++ claims extensions [definition] id = _
    rw [claimed, List.cons_append]
  exact (stays whole).imp_left fun none => (List.append_eq_nil_iff.mp none).1

theorem claims_above {extensions : Extensions} {earlier : List δ} {id : UInt32}
    (above : ∀ other ∈ earlier, Definition.id other < id) : claims extensions earlier id = [] := by
  rw [claims, List.filter_eq_nil_iff]
  intro other member chosen
  have less := above other member
  rw [eq_of_beq (Bool.and_eq_true_iff.mp chosen).1] at less
  exact UInt32.lt_irrefl _ less

theorem make_way_keeps_id (definition : δ) (fates : Fates δ) :
    (fates.makeWay definition).live.filter (hasId (Definition.id definition)) =
      fates.live.filter (hasId (Definition.id definition)) := by
  rw [makeWay, List.filter_filter]
  apply List.filter_congr
  intro other _
  by_cases same : Definition.id other = Definition.id definition <;> simp [hasId, makesWayFor, same]

-- As long as none was overwritten the live one of the greatest id so far is the first one that
-- compiles.
structure FirstLive (extensions : Extensions) (earlier : List δ) (fates : Fates δ) : Prop where
  spared_iff : fates.overwritten = [] ↔ FirstStays extensions earlier
  first : fates.overwritten = [] → ∀ id, (∀ other ∈ earlier, Definition.id other ≤ id) →
    fates.live.filter (hasId id) = (claims extensions earlier id).take 1

namespace FirstLive

variable {extensions : Extensions} {earlier : List δ} {definition : δ} {fates : Fates δ}

theorem make_way (firstLive : FirstLive extensions earlier fates)
    (above : ∀ other ∈ earlier, Definition.id other ≤ Definition.id definition) :
    ((fates.makeWay definition).overwritten = [] ↔ FirstStays extensions earlier) ∧
      ((fates.makeWay definition).overwritten = [] → ∀ id, Definition.id definition ≤ id →
        (fates.makeWay definition).live.filter (hasId id) = (claims extensions earlier id).take 1) := by
  refine ⟨firstLive.spared_iff, fun spared id least => ?_⟩
  have there := firstLive.first spared id fun other member => UInt32.le_trans (above other member) least
  by_cases own : id = Definition.id definition
  · subst own
    rw [make_way_keeps_id, there]
  · have none : claims extensions earlier id = [] := claims_above fun other member =>
      UInt32.lt_of_le_of_lt (above other member) (UInt32.lt_of_le_of_ne least (Ne.symm own))
    rw [none, List.take_nil, List.filter_eq_nil_iff] at there ⊢
    exact fun other live => there other (List.mem_of_mem_filter live)

theorem install_first (compiles : Compiles extensions definition) (firstStays : FirstStays extensions earlier)
    (replaceable : ∀ other ∈ fates.live.filter (hasId (Definition.id definition)), Definition.isCompiled other = false)
    (first : fates.live.filter (hasId (Definition.id definition)) =
      (claims extensions earlier (Definition.id definition)).take 1) :
    fates.live.filter (hasId (Definition.id definition)) = [] ↔ FirstStays extensions (earlier ++ [definition]) := by
  rw [first] at replaceable ⊢
  cases claimed : claims extensions earlier (Definition.id definition) with
  | nil =>
      refine iff_of_true rfl fun {id one others} whole => ?_
      by_cases own : id = Definition.id definition
      · rw [own, claims_append_own compiles, claimed] at whole
        exact .inl (List.cons.inj whole).2.symm
      · rw [claims_append_other fun _ => own] at whole
        exact firstStays whole
  | cons one others =>
      rw [claimed] at replaceable
      refine iff_of_false (by simp) fun stays => ?_
      rcases stays ((claims_append_own compiles earlier).trans (by rw [claimed, List.cons_append])) with none | fixed
      · simp at none
      · rw [replaceable one (by simp)] at fixed
        cases fixed

theorem reject_first (firstStays : FirstStays extensions earlier)
    (rejected : Compiles extensions definition →
      ∃ one others, claims extensions earlier (Definition.id definition) = one :: others ∧ Definition.isCompiled one = true) :
    FirstStays extensions (earlier ++ [definition]) ∧ ∀ id,
      (claims extensions (earlier ++ [definition]) id).take 1 = (claims extensions earlier id).take 1 := by
  by_cases compiles : Compiles extensions definition
  · obtain ⟨one, others, claimed, fixed⟩ := rejected compiles
    have own := claims_append_own compiles earlier
    rw [claimed] at own
    constructor
    · intro id first rest whole
      by_cases same : id = Definition.id definition
      · rw [same, own] at whole
        rw [← (List.cons.inj whole).1]
        exact .inr fixed
      · rw [claims_append_other fun _ => same] at whole
        exact firstStays whole
    · intro id
      by_cases same : id = Definition.id definition
      · rw [same, own, claimed]
        rfl
      · rw [claims_append_other fun _ => same]
  · have unchanged : ∀ id, claims extensions (earlier ++ [definition]) id = claims extensions earlier id := fun id =>
      claims_append_other (fun compiled => absurd compiled compiles) earlier
    refine ⟨fun whole => ?_, fun id => by rw [unchanged]⟩
    rw [unchanged] at whole
    exact firstStays whole

theorem add (firstLive : FirstLive extensions earlier fates)
    (above : ∀ other ∈ earlier, Definition.id other ≤ Definition.id definition) :
    FirstLive extensions (earlier ++ [definition]) (fates.add extensions definition) := by
  obtain ⟨sparedIff, first⟩ := firstLive.make_way above
  have least : ∀ {id : UInt32}, (∀ other ∈ earlier ++ [definition], Definition.id other ≤ id) →
      Definition.id definition ≤ id := fun bound => bound definition (by simp)
  have own := UInt32.le_refl (Definition.id definition)
  rw [Fates.add]
  rcases install_cases extensions definition (fates.makeWay definition) with
    ⟨compiles, replaceable, installed⟩ | ⟨rejected, installed⟩
  · rw [installed]
    constructor
    · rw [List.append_eq_nil_iff]
      constructor
      · intro none
        exact (install_first compiles (sparedIff.mp none.1) replaceable (first none.1 _ own)).mp none.2
      · intro stays
        have spared := sparedIff.mpr stays.of_append
        exact ⟨spared, (install_first compiles stays.of_append replaceable (first spared _ own)).mpr stays⟩
    · intro none id bound
      obtain ⟨spared, alone⟩ := List.append_eq_nil_iff.mp none
      dsimp only
      rw [List.filter_append]
      by_cases same : id = Definition.id definition
      · have claimed := first spared _ own
        rw [alone, eq_comm, List.take_eq_nil_iff] at claimed
        subst same
        rw [claims_append_own compiles, claimed.resolve_left Nat.one_ne_zero]
        simp [hasId]
      · rw [claims_append_other fun _ => same, ← first spared id (least bound), List.filter_filter]
        have notOwn : hasId id definition = false := beq_eq_false_iff_ne.mpr (Ne.symm same)
        rw [List.filter_cons_of_neg (by simp [notOwn]), List.filter_nil, List.append_nil]
        apply List.filter_congr
        intro other _
        by_cases there : Definition.id other = id <;> simp [hasId, there, same]
  · rw [installed]
    by_cases spared : (fates.makeWay definition).overwritten = []
    · have claimed := first spared _ own
      obtain ⟨stays, sameClaims⟩ := reject_first (sparedIff.mp spared) fun compiles => by
        obtain ⟨one, rival, fixed⟩ := rejected compiles
        rw [claimed] at rival
        cases found : claims extensions earlier (Definition.id definition) with
        | nil => simp [found] at rival
        | cons other others =>
            rw [found, List.take_succ_cons, List.take_zero, List.mem_singleton] at rival
            exact ⟨other, others, rfl, rival ▸ fixed⟩
      refine ⟨iff_of_true spared stays, fun _ id bound => ?_⟩
      rw [sameClaims]
      exact first spared id (least bound)
    · exact ⟨iff_of_false spared fun stays => spared (sparedIff.mpr stays.of_append), fun none => absurd none spared⟩

end FirstLive

theorem of_definitions_first_live {extensions : Extensions} {definitions : List δ}
    (ascending : definitions.Pairwise fun one other => Definition.id one ≤ Definition.id other) :
    FirstLive extensions definitions (ofDefinitions extensions definitions) := by
  induction definitions using List.reverseRecOn with
  | nil => exact ⟨iff_of_true rfl fun claimed => absurd claimed (List.cons_ne_nil _ _).symm, fun _ _ _ => rfl⟩
  | append_singleton earlier definition ih =>
      obtain ⟨before, _, above⟩ := List.pairwise_append.mp ascending
      rw [of_definitions_append]
      exact (ih before).add fun other member => above other member definition (List.mem_singleton_self _)

end Fates
end DocumentViews
