import Mathlib.Data.List.FinRange
import Mathlib.Data.List.Perm.Basic
import Mathlib.Logic.Equiv.Fin.Basic

set_option autoImplicit false

namespace DocumentViews

variable {α β γ : Type} {related : α → β → Prop} {left : List α} {right : List β}

theorem pair_of_left (pairs : List.Forall₂ related left right) {item : α} (member : item ∈ left) :
    ∃ other ∈ right, related item other := by
  induction pairs with
  | nil => cases member
  | cons first _ ih =>
      rcases List.mem_cons.mp member with rfl | later
      · exact ⟨_, .head _, first⟩
      · obtain ⟨other, there, found⟩ := ih later
        exact ⟨other, .tail _ there, found⟩

theorem pair_of_right (pairs : List.Forall₂ related left right) {other : β} (member : other ∈ right) :
    ∃ item ∈ left, related item other := by
  induction pairs with
  | nil => cases member
  | cons first _ ih =>
      rcases List.mem_cons.mp member with rfl | later
      · exact ⟨_, .head _, first⟩
      · obtain ⟨item, there, found⟩ := ih later
        exact ⟨item, .tail _ there, found⟩

theorem pairs_comp {next : β → γ → Prop} {both : α → γ → Prop} {last : List γ}
    (compose : ∀ one middle other, related one middle → next middle other → both one other)
    (ahead : List.Forall₂ related left right) (behind : List.Forall₂ next right last) : List.Forall₂ both left last := by
  induction ahead generalizing last with
  | nil =>
      cases behind
      exact .nil
  | cons first _ ih =>
      cases behind with
      | cons second others => exact .cons (compose _ _ _ first second) (ih others)

def Matched (related : α → β → Prop) (left : List α) (right : List β) : Prop :=
  ∃ matched, List.Forall₂ related left matched ∧ matched.Perm right

theorem matched_mono {other : α → β → Prop} (finer : ∀ one another, related one another → other one another)
    (matched : Matched related left right) : Matched other left right := by
  obtain ⟨reordered, pairs, permuted⟩ := matched
  exact ⟨reordered, pairs.imp finer, permuted⟩

theorem matched_comp {next : β → γ → Prop} {both : α → γ → Prop} {last : List γ}
    (compose : ∀ one middle other, related one middle → next middle other → both one other)
    (ahead : Matched related left right) (behind : Matched next right last) : Matched both left last := by
  obtain ⟨matched, pairs, permuted⟩ := ahead
  obtain ⟨others, otherPairs, othersPermuted⟩ := behind
  obtain ⟨reached, reachedPairs, reachedPermuted⟩ := List.perm_comp_forall₂ permuted otherPairs
  exact ⟨reached, pairs_comp compose pairs reachedPairs, reachedPermuted.trans othersPermuted⟩

theorem matched_flip (matched : Matched related left right) : Matched (fun one other => related other one) right left := by
  obtain ⟨reordered, pairs, permuted⟩ := matched
  exact List.perm_comp_forall₂ permuted.symm pairs.flip

theorem perm_places {items others : List α} (permuted : items.Perm others) :
    ∃ pairing : Fin items.length ≃ Fin others.length, ∀ place : Fin items.length, items[place] = others[pairing place] := by
  induction permuted with
  | nil => exact ⟨Equiv.refl _, fun place => place.elim0⟩
  | @cons item items others _ ih =>
      obtain ⟨pairing, same⟩ := ih
      refine ⟨(finSuccEquiv _).trans (pairing.optionCongr.trans (finSuccEquiv _).symm), fun place => ?_⟩
      cases place using Fin.cases with
      | zero => rfl
      | succ place => simpa using same place
  | swap first second items =>
      refine ⟨Equiv.swap 0 1, fun place => ?_⟩
      cases place using Fin.cases with
      | zero => rfl
      | succ place =>
          cases place using Fin.cases with
          | zero => rfl
          | succ place =>
              have kept : Equiv.swap 0 1 place.succ.succ = place.succ.succ :=
                Equiv.swap_apply_of_ne_of_ne (Fin.succ_ne_zero _) (by simp [Fin.ext_iff])
              exact congrArg (first :: second :: items).get kept.symm
  | trans _ _ ih otherIh =>
      obtain ⟨pairing, same⟩ := ih
      obtain ⟨otherPairing, otherSame⟩ := otherIh
      exact ⟨pairing.trans otherPairing, fun place => (same place).trans (otherSame (pairing place))⟩

theorem matched_iff_pairing : Matched related left right ↔
    ∃ pairing : Fin left.length ≃ Fin right.length, ∀ place, related left[place] right[pairing place] := by
  constructor
  · rintro ⟨matched, pairs, permuted⟩
    obtain ⟨pairing, same⟩ := perm_places permuted
    refine ⟨(finCongr pairs.length_eq).trans pairing, fun place => ?_⟩
    have here := (List.forall₂_iff_get.mp pairs).2 place place.isLt (pairs.length_eq ▸ place.isLt)
    exact same (finCongr pairs.length_eq place) ▸ here
  · rintro ⟨pairing, holds⟩
    refine ⟨(List.finRange left.length).map fun place => right[pairing place], ?_, ?_⟩
    · refine List.forall₂_iff_get.mpr ⟨by simp, fun place inside _ => ?_⟩
      simpa using holds ⟨place, inside⟩
    · have everywhere : ((List.finRange left.length).map pairing).Perm (List.finRange right.length) :=
        (List.perm_ext_iff_of_nodup ((List.nodup_finRange _).map pairing.injective) (List.nodup_finRange _)).mpr
          fun place => by simpa using ⟨pairing.symm place, pairing.apply_symm_apply place⟩
      have placed := everywhere.map right.get
      rw [List.map_map, List.map_get_finRange] at placed
      exact placed

section Equivalence

variable {related : α → α → Prop} {left right : List α} {one other : α}

theorem matched_equivalence (equivalence : Equivalence related) : Equivalence (Matched related) where
  refl items := ⟨items, List.forall₂_same.mpr fun item _ => equivalence.refl item, .refl _⟩
  symm matched := matched_mono (fun _ _ => equivalence.symm) (matched_flip matched)
  trans ahead behind :=
    have compose : ∀ one middle other, related one middle → related middle other → related one other :=
      fun _ _ _ => equivalence.trans
    matched_comp compose ahead behind

-- The item that the first one was matched with can do for the one that takes it over.
theorem matched_behind (equivalence : Equivalence related) (first : related one other)
    (matched : Matched related (one :: left) (other :: right)) : Matched related left right := by
  obtain ⟨reordered, pairs, permuted⟩ := matched
  cases pairs with
  | @cons _ found _ others foundSame pairs =>
      rcases List.mem_cons.mp (permuted.subset List.mem_cons_self) with rfl | later
      · exact ⟨others, pairs, permuted.cons_inv⟩
      · obtain ⟨before, behind, rfl⟩ := List.append_of_mem later
        have rest : others.Perm (other :: (before ++ behind)) :=
          (permuted.trans ((List.perm_middle.cons other).trans (.swap found other _))).cons_inv
        have instead : Matched related (other :: (before ++ behind)) (before ++ found :: behind) :=
          ⟨found :: (before ++ behind), .cons (equivalence.trans (equivalence.symm first) foundSame)
            (List.forall₂_same.mpr fun item _ => equivalence.refl item), List.perm_middle.symm⟩
        exact (matched_equivalence equivalence).trans ⟨others, pairs, rest⟩ instead

end Equivalence

end DocumentViews
