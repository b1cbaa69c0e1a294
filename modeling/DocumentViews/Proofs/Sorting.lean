import Mathlib.Data.List.Basic

set_option autoImplicit false

namespace DocumentViews

variable {α : Type} {key : α → UInt32} {items others : List α} {one other : α}

theorem key_le_trans (key : α → UInt32) (one other last : α) (first : decide (key one ≤ key other) = true)
    (second : decide (key other ≤ key last) = true) : decide (key one ≤ key last) = true :=
  decide_eq_true (UInt32.le_trans (of_decide_eq_true first) (of_decide_eq_true second))

theorem key_le_total (key : α → UInt32) (one other : α) :
    (decide (key one ≤ key other) || decide (key other ≤ key one)) = true := by
  simpa using UInt32.le_total (key one) (key other)

def Sorted (key : α → UInt32) (items : List α) : Prop := items.Pairwise fun one other => key one ≤ key other

theorem sort_sorted (key : α → UInt32) (items : List α) :
    Sorted key (items.mergeSort fun one other => key one ≤ key other) :=
  (List.pairwise_mergeSort (key_le_trans key) (key_le_total key) items).imp fun less => of_decide_eq_true less

def ofRank (key : α → UInt32) (rank : UInt32) (items : List α) : List α := items.filter fun item => key item = rank

theorem mem_of_rank {item : α} {rank : UInt32} : item ∈ ofRank key rank items ↔ item ∈ items ∧ key item = rank := by
  rw [ofRank, List.mem_filter, decide_eq_true_iff]

theorem of_rank_append (key : α → UInt32) (rank : UInt32) (items others : List α) :
    ofRank key rank (items ++ others) = ofRank key rank items ++ ofRank key rank others := List.filter_append ..

theorem of_rank_cons {item : α} {rank : UInt32} (own : key item = rank) (items : List α) :
    ofRank key rank (item :: items) = item :: ofRank key rank items := List.filter_cons_of_pos (by simp [own])

theorem of_rank_none {rank : UInt32} (apart : ∀ item ∈ items, key item ≠ rank) : ofRank key rank items = [] :=
  List.filter_eq_nil_iff.mpr fun item member same => apart item member (of_decide_eq_true same)

theorem of_rank_all {rank : UInt32} (same : ∀ item ∈ items, key item = rank) : ofRank key rank items = items :=
  List.filter_eq_self.mpr fun item member => decide_eq_true (same item member)

theorem sort_stable (key : α → UInt32) (items : List α) (rank : UInt32) :
    ofRank key rank (items.mergeSort fun one other => key one ≤ key other) = ofRank key rank items := by
  have own : ∀ item ∈ ofRank key rank items, key item = rank := fun item member => (mem_of_rank.mp member).2
  have level : (ofRank key rank items).Pairwise fun one other => decide (key one ≤ key other) = true := by
    refine List.pairwise_of_forall_mem_list fun one member other otherMember => ?_
    rw [own one member, own other otherMember]
    exact decide_eq_true (UInt32.le_refl rank)
  have kept := List.sublist_mergeSort (key_le_trans key) (key_le_total key) level List.filter_sublist
  have within : (ofRank key rank (ofRank key rank items)).Sublist _ := kept.filter fun item => decide (key item = rank)
  rw [of_rank_all own] at within
  exact (within.eq_of_length ((List.mergeSort_perm _ _).filter _).length_eq.symm).symm

def SameRanks (key : α → UInt32) (items others : List α) : Prop := ∀ rank, ofRank key rank items = ofRank key rank others

theorem SameRanks.symm (same : SameRanks key items others) : SameRanks key others items := fun rank => (same rank).symm

theorem SameRanks.mem (same : SameRanks key items others) {item : α} (member : item ∈ items) : item ∈ others := by
  have ofItsRank : item ∈ ofRank key (key item) items := mem_of_rank.mpr ⟨member, rfl⟩
  rw [same] at ofItsRank
  exact (mem_of_rank.mp ofItsRank).1

theorem Sorted.least {rest : List α} (sorted : Sorted key (one :: rest)) {item : α} (member : item ∈ one :: rest) :
    key one ≤ key item := by
  rcases List.mem_cons.mp member with rfl | behind
  · exact UInt32.le_refl _
  · exact (List.pairwise_cons.mp sorted).1 item behind

theorem Sorted.eq (sorted : Sorted key items) (otherSorted : Sorted key others) (same : SameRanks key items others) :
    items = others := by
  induction items generalizing others with
  | nil =>
      refine (List.eq_nil_iff_forall_not_mem.mpr fun item member => ?_).symm
      exact absurd (same.symm.mem member) List.not_mem_nil
  | cons first rest ih =>
      cases others with
      | nil => exact absurd (same.mem List.mem_cons_self) List.not_mem_nil
      | cons otherFirst otherRest =>
          -- Both first items are least, so they have one number and are the first ones of it.
          have sameKey : key otherFirst = key first := UInt32.le_antisymm
            (otherSorted.least (same.mem List.mem_cons_self)) (sorted.least (same.symm.mem List.mem_cons_self))
          have leads := same (key first)
          rw [of_rank_cons rfl, of_rank_cons sameKey] at leads
          obtain ⟨rfl, _⟩ := List.cons.inj leads
          rw [ih (List.pairwise_cons.mp sorted).2 (List.pairwise_cons.mp otherSorted).2]
          intro rank
          have whole := same rank
          rw [ofRank, ofRank, List.filter_cons, List.filter_cons] at whole
          split at whole
          · exact (List.cons.inj whole).2
          · exact whole

theorem Sorted.above (sorted : Sorted key items) (rank : UInt32) :
    ∀ item ∈ items.dropWhile fun item => key item < rank, rank ≤ key item := by
  intro item member
  have stopped := List.head?_dropWhile_not (fun item => decide (key item < rank)) items
  have remaining : Sorted key (items.dropWhile fun item => key item < rank) :=
    List.Pairwise.sublist (List.dropWhile_sublist _) sorted
  cases left : items.dropWhile fun item => key item < rank with
  | nil =>
      rw [left] at member
      cases member
  | cons first rest =>
      rw [left] at stopped remaining member
      have notBelow : ¬ key first < rank := by simpa using stopped
      exact UInt32.le_trans (UInt32.not_lt.mp notBelow) (remaining.least member)

theorem sort_in_front {front : List α} {rank : UInt32} (own : ∀ item ∈ front, key item = rank) (rest : List α) :
    let ordered := rest.mergeSort fun left right => key left ≤ key right
    ((front ++ rest).mergeSort fun left right => key left ≤ key right) =
      (ordered.takeWhile fun item => key item < rank) ++ (front ++ ordered.dropWhile fun item => key item < rank) := by
  intro ordered
  have sorted : Sorted key ordered := sort_sorted key rest
  have below : ∀ item ∈ ordered.takeWhile fun item => key item < rank, key item < rank := fun item member =>
    of_decide_eq_true (List.all_eq_true.mp List.all_takeWhile item member)
  have above := sorted.above rank
  have parts : (ordered.takeWhile fun item => key item < rank) ++ (ordered.dropWhile fun item => key item < rank) =
      ordered := List.takeWhile_append_dropWhile
  refine Sorted.eq (sort_sorted key _) ?_ fun found => ?_
  · have first : Sorted key (ordered.takeWhile fun item => key item < rank) :=
      List.Pairwise.sublist (List.takeWhile_sublist _) sorted
    have last : Sorted key (ordered.dropWhile fun item => key item < rank) :=
      List.Pairwise.sublist (List.dropWhile_sublist _) sorted
    have level : Sorted key front := List.pairwise_of_forall_mem_list fun one member other otherMember => by
      rw [own one member, own other otherMember]
      exact UInt32.le_refl rank
    refine List.pairwise_append.mpr ⟨first, List.pairwise_append.mpr ⟨level, last, ?_⟩, ?_⟩
    · intro item member next nextMember
      rw [own item member]
      exact above next nextMember
    · intro item member next nextMember
      refine UInt32.le_of_lt (UInt32.lt_of_lt_of_le (below item member) ?_)
      rcases List.mem_append.mp nextMember with inFront | behind
      · rw [own next inFront]
        exact UInt32.le_refl rank
      · exact above next behind
  · have whole : ofRank key found rest = ofRank key found (ordered.takeWhile fun item => key item < rank) ++
        ofRank key found (ordered.dropWhile fun item => key item < rank) := by
      rw [← of_rank_append, parts]
      exact (sort_stable key rest found).symm
    rw [sort_stable, of_rank_append, of_rank_append, of_rank_append, whole]
    by_cases same : found = rank
    · have noneBelow : ofRank key found (ordered.takeWhile fun item => key item < rank) = [] :=
        of_rank_none fun item member isFound =>
          UInt32.lt_irrefl rank (by simpa [isFound, same] using below item member)
      rw [noneBelow, List.nil_append, List.nil_append]
    · have noFront : ofRank key found front = [] := of_rank_none fun item member isFound =>
        same (isFound.symm.trans (own item member))
      rw [noFront, List.nil_append, List.nil_append]

theorem sort_tied (sameKey : key one = key other) (rest : List α) : ∃ before after,
    ((one :: other :: rest).mergeSort fun left right => key left ≤ key right) = before ++ one :: other :: after ∧
    ((other :: one :: rest).mergeSort fun left right => key left ≤ key right) = before ++ other :: one :: after := by
  have forth : ∀ item ∈ [one, other], key item = key other := by simp [sameKey]
  have back : ∀ item ∈ [other, one], key item = key other := by simp [sameKey]
  exact ⟨_, _, sort_in_front forth rest, sort_in_front back rest⟩

end DocumentViews
