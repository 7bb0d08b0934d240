import Mathlib.Data.List.Basic
import Mathlib.Data.List.Forall2
import Mathlib.Data.List.TakeWhile
import Mathlib.Order.Lattice

/-! Sorting that keeps the order of the items that compare equal. -/

namespace ClientGen

section

variable {α : Type} {le : α → α → Bool} (trans : ∀ a b c, le a b → le b c → le a c)
  (total : ∀ a b, le a b || le b a) (l : List α)
include trans total

/-- Items that all compare equal to each other stay in their order. -/
theorem filter_mergeSort {p : α → Bool} (h : ∀ a b, p a → p b → le a b) :
    (l.mergeSort le).filter p = l.filter p := by
  have hclass : (l.filter p).Pairwise fun a b => le a b :=
    List.pairwise_iff_forall_sublist.mpr fun {a b} hab =>
      h a b (List.of_mem_filter (hab.subset (by simp))) (List.of_mem_filter (hab.subset (by simp)))
  have hsub : (l.filter p).Sublist (l.mergeSort le) :=
    List.sublist_mergeSort trans total hclass List.filter_sublist
  have hsub : (l.filter p).Sublist ((l.mergeSort le).filter p) := by
    simpa [List.filter_filter] using hsub.filter p
  exact (hsub.eq_of_length ((List.mergeSort_perm l le).symm.filter p).length_eq).symm

variable {l}

/-- Of two items in a sorted list the first is not the greater one; and if they compare equal, they
stood in this order before. -/
theorem pairwise_mergeSort_ties {R : α → α → Prop} (h : l.Pairwise R) :
    (l.mergeSort le).Pairwise fun a b => le a b ∧ (le b a → R a b) := by
  have hrefl (a : α) : le a a := by simpa using total a a
  refine List.pairwise_iff_forall_sublist.mpr fun {a b} hab => ?_
  have hle : le a b :=
    List.pairwise_iff_forall_sublist.mp (List.pairwise_mergeSort trans total l) hab
  refine ⟨hle, fun hge => ?_⟩
  -- The items that compare equal to the first of the two have kept their order.
  let p (x : α) : Bool := le a x && le x a
  have hp (x y : α) (hx : p x) (hy : p y) : le x y :=
    trans x a y (Bool.and_eq_true_iff.mp hx).2 (Bool.and_eq_true_iff.mp hy).1
  have hsub := hab.filter p
  rw [filter_mergeSort trans total l hp] at hsub
  have hkept : [a, b].filter p = [a, b] := by simp [p, hrefl, hle, hge]
  exact List.pairwise_iff_forall_sublist.mp h ((hkept ▸ hsub).trans List.filter_sublist)

end

/-- The items of a list by an ascending key; items of one key stand in their order. -/
structure StablySorted {α β : Type} [LinearOrder β] (key : α → β) (l sorted : List α) : Prop where
  perm : sorted.Perm l
  ascending : sorted.Pairwise fun a b => key a ≤ key b
  ties : ∀ k, sorted.filter (key · = k) = l.filter (key · = k)

namespace StablySorted

variable {α β : Type} [LinearOrder β] {key : α → β} {l s t : List α}

theorem mergeSort (key : α → β) (l : List α) :
    StablySorted key l (l.mergeSort fun a b => key a ≤ key b) := by
  have htrans (a b c : α) (hab : decide (key a ≤ key b)) (hbc : decide (key b ≤ key c)) :
      decide (key a ≤ key c) :=
    decide_eq_true (le_trans (of_decide_eq_true hab) (of_decide_eq_true hbc))
  have htotal (a b : α) : decide (key a ≤ key b) || decide (key b ≤ key a) := by
    simpa using le_total (key a) (key b)
  refine ⟨List.mergeSort_perm l _, ?_, fun k => filter_mergeSort htrans htotal l ?_⟩
  · exact (List.pairwise_mergeSort htrans htotal l).imp fun h => of_decide_eq_true h
  · intro a b ha hb
    exact decide_eq_true (le_of_eq ((of_decide_eq_true ha).trans (of_decide_eq_true hb).symm))

theorem filter (h : StablySorted key l s) (p : α → Bool) :
    StablySorted key (l.filter p) (s.filter p) where
  perm := h.perm.filter p
  ascending := h.ascending.sublist List.filter_sublist
  ties := fun k => by rw [List.filter_comm, h.ties k, List.filter_comm]

/-- The first of one order has no greater key than the first of another order of these items. -/
private theorem key_head_le {a b : α} (hperm : (a :: s).Perm (b :: t))
    (hs : (a :: s).Pairwise fun x y => key x ≤ key y) : key a ≤ key b := by
  obtain rfl | hb := List.mem_cons.mp (hperm.mem_iff.mpr List.mem_cons_self)
  · exact le_refl _
  · exact List.rel_of_pairwise_cons hs hb

/-- There is only one such order. -/
theorem unique (hs : StablySorted key l s) (ht : StablySorted key l t) : s = t := by
  have hties (k : β) := (hs.ties k).trans (ht.ties k).symm
  have hperm := hs.perm.trans ht.perm.symm
  have hsorted := hs.ascending
  have htsorted := ht.ascending
  clear hs ht
  induction s generalizing t with
  | nil => exact hperm.nil_eq
  | cons a s ih =>
    cases t with
    | nil => exact absurd hperm.length_eq (by simp)
    | cons b t =>
      have hkey : key a = key b :=
        le_antisymm (key_head_le hperm hsorted) (key_head_le hperm.symm htsorted)
      -- Both heads are the first of the items with the least key.
      have hhead : a = b := by
        have h := hties (key a)
        simp only [hkey, List.filter_cons, decide_true, if_true] at h
        exact (List.cons.inj h).1
      subst hhead
      have htail (k : β) : s.filter (key · = k) = t.filter (key · = k) := by
        have h := hties k
        by_cases hk : key a = k <;> simpa [List.filter_cons, hk] using h
      rw [ih htail hperm.cons_inv hsorted.of_cons htsorted.of_cons]

end StablySorted

/-- An item that is added to a sorted list is sorted in after those of its own key; the others stay
as they are. -/
theorem mergeSort_append_singleton {α β : Type} [LinearOrder β] {key : α → β} {l : List α} (x : α)
    (h : l.Pairwise fun a b => key a ≤ key b) :
    ∃ before after, l = before ++ after ∧
      ((l ++ [x]).mergeSort fun a b => key a ≤ key b) = before ++ x :: after ∧
      (∀ a ∈ before, key a ≤ key x) ∧ ∀ a ∈ after, key x < key a := by
  let p (a : α) : Bool := key a ≤ key x
  have hsplit : l = l.takeWhile p ++ l.dropWhile p := List.takeWhile_append_dropWhile.symm
  have hbefore : ∀ a ∈ l.takeWhile p, key a ≤ key x :=
    fun a ha => of_decide_eq_true (p := key a ≤ key x) (List.mem_takeWhile_imp (p := p) ha)
  have hafter : ∀ a ∈ l.dropWhile p, key x < key a := by
    have hsorted := h.sublist (List.dropWhile_sublist p)
    cases hrest : l.dropWhile p with
    | nil => simp
    | cons first rest =>
      have hfirst : key x < key first := by
        have hp : p first = false := by
          simpa [hrest] using List.head_dropWhile_not p (l := l) (by simp [hrest])
        exact not_le.mp (of_decide_eq_false hp)
      rw [hrest] at hsorted
      exact List.forall_mem_cons.mpr
        ⟨hfirst, fun a ha => lt_of_lt_of_le hfirst (List.rel_of_pairwise_cons hsorted ha)⟩
  generalize l.takeWhile p = before, l.dropWhile p = after at *
  subst hsplit
  obtain ⟨hearlier, hlater, -⟩ := List.pairwise_append.mp h
  refine ⟨before, after, rfl, StablySorted.unique (.mergeSort key _) ⟨?_, ?_, fun k => ?_⟩,
    hbefore, hafter⟩
  · exact List.perm_middle.trans (List.perm_append_singleton x _).symm
  · refine List.pairwise_append.mpr ⟨hearlier,
      List.pairwise_cons.mpr ⟨fun a ha => le_of_lt (hafter a ha), hlater⟩, fun a ha b hb => ?_⟩
    rcases List.mem_cons.mp hb with rfl | hb
    · exact hbefore a ha
    · exact le_trans (hbefore a ha) (le_of_lt (hafter b hb))
  · simp only [List.filter_append, List.append_assoc]
    by_cases hk : key x = k
    · have hnone : after.filter (key · = k) = [] :=
        List.filter_eq_nil_iff.mpr fun a ha heq =>
          absurd (hk.trans (of_decide_eq_true heq).symm) (ne_of_lt (hafter a ha))
      simp [hk, hnone]
    · simp [hk]

/-- Lists that are related item by item stay so when they are sorted by comparisons that agree. -/
theorem forall₂_mergeSort {α β : Type} {R : α → β → Prop} {le : α → α → Bool} {le' : β → β → Bool}
    {l : List α} {l' : List β} (h : List.Forall₂ R l l')
    (hle : ∀ {a a' b b'}, R a b → R a' b' → le a a' = le' b b') :
    List.Forall₂ R (l.mergeSort le) (l'.mergeSort le') := by
  obtain ⟨hlength, hzip⟩ := List.forall₂_iff_zip.mp h
  -- Both lists are sorted as the list of the pairs is.
  let pairs := l.zip l'
  let lePairs (p q : α × β) : Bool := le p.1 q.1
  have hfst : l.mergeSort le = (pairs.mergeSort lePairs).map Prod.fst := by
    rw [List.map_mergeSort (s := le) (fun _ _ _ _ => rfl), List.map_fst_zip hlength.le]
  have hsnd : l'.mergeSort le' = (pairs.mergeSort lePairs).map Prod.snd := by
    rw [List.map_mergeSort (s := le') fun p hp q hq => hle (hzip hp) (hzip hq),
      List.map_snd_zip hlength.ge]
  rw [hfst, hsnd, List.forall₂_map_left_iff, List.forall₂_map_right_iff, List.forall₂_same]
  exact fun p hp => hzip (List.mem_mergeSort.mp hp)

end ClientGen
