import ClientGen.Api.Client
import ClientGen.Proofs.Naming.Fresh
import Mathlib.Order.Bounds.Defs

/-! Operations of one name in a service: the search for another name ends, and the names that it
finds tell all operations apart. -/

namespace ClientGen

namespace Naming

/-- The rounds of a search for a free name. As long as the name at hand is taken, the base is tried
with the next number. -/
inductive Searches (taken : Set String) (base : String) :
    (rounds k : Nat) → (name found : String) → Prop
  | free {k : Nat} {name : String} (h : name ∉ taken) : Searches taken base 0 k name name
  | next {rounds k : Nat} {name found : String} (h : name ∈ taken)
      (hrest : Searches taken base rounds (k + 1) (base ++ toString (k + 1)) found) :
      Searches taken base (rounds + 1) k name found

/-- A base if it is not taken, else the base with the least number from two on that makes it free.
-/
def IsLeastName (taken : Set String) (base name : String) : Prop :=
  base ∉ taken ∧ name = base ∨
    base ∈ taken ∧ ∃ k, IsLeast {k : Nat | 2 ≤ k ∧ base ++ toString k ∉ taken} k ∧
      name = base ++ toString k

variable {taken : List String} {base : String}

theorem numbered_of_two_le {k : Nat} (hk : 2 ≤ k) : numbered base "" k = base ++ toString k := by
  rw [numbered, if_neg (by omega), String.append_empty]

theorem searches_numbered {k rounds : Nat} (hk : 1 ≤ k)
    (hpassed : ∀ j, k ≤ j → j < k + rounds → numbered base "" j ∈ taken)
    (hfree : numbered base "" (k + rounds) ∉ taken) :
    Searches {name | name ∈ taken} base rounds k (numbered base "" k)
      (numbered base "" (k + rounds)) := by
  induction rounds generalizing k with
  | zero => exact .free hfree
  | succ rounds ih =>
    have hshift : k + (rounds + 1) = k + 1 + rounds := by omega
    rw [hshift] at hpassed hfree ⊢
    have hrest := ih (by omega) (fun j hj hlt => hpassed j (by omega) hlt) hfree
    rw [numbered_of_two_le (show 2 ≤ k + 1 by omega)] at hrest
    exact .next (hpassed k (Nat.le_refl k) (by omega)) hrest

/-- The search for a fresh name takes at most one round for each name that is taken. -/
theorem exists_searches_fresh (taken : List String) (base : String) :
    ∃ rounds ≤ taken.length,
      Searches {name | name ∈ taken} base rounds 1 base (fresh taken base "") := by
  have hfree := fresh_not_mem taken base ""
  obtain ⟨i, hi, heq, hpassed⟩ := exists_seekFresh_eq taken base "" taken.length 1
  change fresh taken base "" = _ at heq
  obtain ⟨rounds, rfl⟩ := Nat.exists_eq_add_of_le hi
  refine ⟨rounds, length_le_of_numbered_mem hpassed, ?_⟩
  rw [heq] at hfree ⊢
  exact searches_numbered (Nat.le_refl 1) hpassed hfree

theorem isLeastName_fresh (taken : List String) (base : String) :
    IsLeastName {name | name ∈ taken} base (fresh taken base "") := by
  have hfirst := firstFree_fresh taken base ""
  generalize fresh taken base "" = name at hfirst ⊢
  cases hfirst with
  | base h => exact .inl ⟨h, rfl⟩
  | @numbered k hk hbase hless hfree =>
    simp only [String.append_empty] at hless hfree ⊢
    refine .inr ⟨hbase, k, ⟨⟨hk, hfree⟩, ?_⟩, rfl⟩
    rintro j ⟨hj, hother⟩
    by_contra hlt
    exact hother (hless j hj (by omega))

end Naming

namespace Service

open Naming

theorem length_renameClashes (taken : List String) (ops : List Operation) :
    (renameClashes taken ops).length = ops.length := by
  induction ops generalizing taken with
  | nil => rfl
  | cons op rest ih => rw [renameClashes, List.length_cons, List.length_cons, ih]

/-- Each operation gets a name that is fresh beside those given before. -/
theorem renameClashes_getElem? (taken : List String) (ops : List Operation) (i : Nat) :
    (renameClashes taken ops)[i]? = ops[i]?.map fun op =>
      let earlier := ((renameClashes taken ops).take i).map (·.name)
      { op with name := fresh (earlier.reverse ++ taken) op.name "" } := by
  induction ops generalizing taken i with
  | nil => rfl
  | cons op rest ih =>
    rw [renameClashes]
    cases i with
    | zero => rfl
    | succ i =>
      rw [List.getElem?_cons_succ, List.getElem?_cons_succ, ih, List.take_succ_cons, List.map_cons]
      simp only [List.reverse_cons, List.append_assoc, List.singleton_append]

/-- The names that are given differ from each other and from those that are taken. -/
theorem apart_renameClashes (taken : List String) (ops : List Operation) :
    ((renameClashes taken ops).map (·.name)).Nodup ∧
      ∀ name ∈ (renameClashes taken ops).map (·.name), name ∉ taken := by
  induction ops generalizing taken with
  | nil => exact ⟨List.nodup_nil, nofun⟩
  | cons op rest ih =>
    rw [renameClashes, List.map_cons]
    obtain ⟨hnodup, hlater⟩ := ih (fresh taken op.name "" :: taken)
    constructor
    · rw [List.nodup_cons]
      exact ⟨fun hmem => hlater _ hmem List.mem_cons_self, hnodup⟩
    · rw [List.forall_mem_cons]
      exact ⟨fresh_not_mem taken op.name "",
        fun name hmem htaken => hlater name hmem (List.mem_cons_of_mem _ htaken)⟩

/-- Operations keep their order and all but their names, and no two have one name in the end. The
search for a name ends after at most one round for each operation before; it finds the operation's
own name if no operation before has it by then, and else the name with the least number. -/
theorem renameClashes_least (ops : List Operation) :
    let renamed := renameClashes [] ops
    renamed.length = ops.length ∧ (renamed.map (·.name)).Nodup ∧
    ∀ i (hi : i < ops.length), ∃ name rounds,
      let earlier : Set String := {other | other ∈ (renamed.take i).map (·.name)}
      renamed[i]? = some { ops[i] with name } ∧
      rounds ≤ i ∧ Searches earlier ops[i].name rounds 1 ops[i].name name ∧
      IsLeastName earlier ops[i].name name := by
  intro renamed
  refine ⟨length_renameClashes [] ops, (apart_renameClashes [] ops).1, fun i hi => ?_⟩
  let earlier := (renamed.take i).map (·.name)
  have hset : {other | other ∈ earlier.reverse} = {other | other ∈ earlier} := by
    simp only [List.mem_reverse]
  have hlength : earlier.reverse.length ≤ i := by
    rw [List.length_reverse, List.length_map]
    exact List.length_take_le i renamed
  have hname := renameClashes_getElem? [] ops i
  rw [List.getElem?_eq_getElem hi, Option.map_some] at hname
  simp only [List.append_nil] at hname
  obtain ⟨rounds, hrounds, hsearch⟩ := exists_searches_fresh earlier.reverse ops[i].name
  have hleast := isLeastName_fresh earlier.reverse ops[i].name
  rw [hset] at hsearch hleast
  exact ⟨_, rounds, hname, Nat.le_trans hrounds hlength, hsearch, hleast⟩

/-- A number that an operation has of its own is taken for the others. -/
example : (renameClashes [] (["list", "list2", "list", "list2"].map fun name =>
    { service := "", name, method := .get, path := "/" })).map (·.name) =
      ["list", "list2", "list3", "list22"] := by decide +kernel

end Service

end ClientGen
