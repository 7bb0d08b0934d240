import ClientGen.Api.Client
import ClientGen.Proofs.Outcome
import Mathlib.Data.List.TakeWhile

/-! The models of a document are those of its named schemas, the first one of each name. -/

namespace ClientGen.ApiDocument

section Kept

variable {seen : List String} {ds : List Declaration}

/-- Keeping the first declaration of each name loses no name. -/
theorem exists_mem_keepFirst (seen : List String) {d : Declaration} (h : d ∈ ds) :
    d.name ∈ seen ∨ ∃ k ∈ keepFirst seen ds, k.name = d.name := by
  induction ds generalizing seen with
  | nil => exact absurd h List.not_mem_nil
  | cons first rest ih =>
    unfold keepFirst
    split_ifs with hseen
    · rcases List.mem_cons.mp h with rfl | h
      · exact .inl hseen
      · exact ih seen h
    · rcases List.mem_cons.mp h with rfl | h
      · exact .inr ⟨d, List.mem_cons_self, rfl⟩
      · rcases ih (first.name :: seen) h with hmem | ⟨k, hk, heq⟩
        · rcases List.mem_cons.mp hmem with heq | hmem
          · exact .inr ⟨first, List.mem_cons_self, heq.symm⟩
          · exact .inl hmem
        · exact .inr ⟨k, List.mem_cons_of_mem _ hk, heq⟩

theorem keepFirst_subset (seen : List String) (ds : List Declaration) : keepFirst seen ds ⊆ ds := by
  induction ds generalizing seen with
  | nil => exact List.Subset.refl _
  | cons first rest ih =>
    unfold keepFirst
    split_ifs
    · exact List.Subset.trans (ih seen) (List.subset_cons_self _ _)
    · exact List.cons_subset_cons _ (ih _)

theorem nodup_keepFirst (seen : List String) (ds : List Declaration) :
    ((keepFirst seen ds).map (·.name)).Nodup ∧ ∀ d ∈ keepFirst seen ds, d.name ∉ seen := by
  induction ds generalizing seen with
  | nil => exact ⟨List.nodup_nil, by simp [keepFirst]⟩
  | cons first rest ih =>
    unfold keepFirst
    split_ifs with hseen
    · exact ih seen
    · obtain ⟨hnodup, hfree⟩ := ih (first.name :: seen)
      refine ⟨List.nodup_cons.mpr ⟨?_, hnodup⟩, ?_⟩
      · intro hmem
        obtain ⟨d, hd, heq⟩ := List.mem_map.mp hmem
        exact hfree d hd (heq ▸ List.mem_cons_self)
      · intro d hd
        rcases List.mem_cons.mp hd with rfl | hd
        · exact hseen
        · exact fun h => hfree d hd (List.mem_cons_of_mem _ h)

theorem keepFirst_eq_self (hnodup : (ds.map (·.name)).Nodup) (hseen : ∀ d ∈ ds, d.name ∉ seen) :
    keepFirst seen ds = ds := by
  induction ds generalizing seen with
  | nil => rfl
  | cons d rest ih =>
    obtain ⟨hd, hrest⟩ := List.nodup_cons.mp hnodup
    rw [keepFirst, if_neg (hseen d List.mem_cons_self), ih hrest]
    intro e he hmem
    rcases List.mem_cons.mp hmem with heq | hmem
    · exact hd (List.mem_map.mpr ⟨e, he, heq⟩)
    · exact hseen e (List.mem_cons_of_mem d he) hmem

end Kept

variable {doc : ApiDocument}

theorem models_of_readable (h : ∀ d ∈ doc.declarations, d.key.hasText) :
    doc.models = (keepFirst [] doc.declarations).mapM fun d => doc.model d.schema true d.name := by
  have hall : doc.readable = doc.declarations := List.takeWhile_eq_self_iff.mpr h
  unfold models
  rw [hall]
  cases (keepFirst [] doc.declarations).mapM fun d => doc.model d.schema true d.name with
  | error fault => rfl
  | ok models =>
    rw [ok_bind, if_neg (Nat.lt_irrefl _)]
    rfl

/-- A document has models exactly if all keys of schemas have texts and each declaration that is
kept has a model. -/
theorem models_eq_ok {models : List Model} : doc.models = .ok models ↔
    (∀ d ∈ doc.declarations, d.key.hasText) ∧
      ((keepFirst [] doc.declarations).mapM fun d => doc.model d.schema true d.name) =
        .ok models := by
  by_cases hall : ∀ d ∈ doc.declarations, d.key.hasText
  · rw [models_of_readable hall, and_iff_right hall]
  · refine iff_of_false (fun h => ?_) fun h => hall h.1
    have hshort : doc.readable.length < doc.declarations.length :=
      Nat.lt_of_le_of_ne (List.takeWhile_prefix _).length_le fun hlength =>
        hall (List.takeWhile_eq_self_iff.mp ((List.takeWhile_prefix _).eq_of_length hlength))
    obtain ⟨_, -, h⟩ := bind_eq_ok.mp h
    rw [if_pos hshort] at h
    cases h

end ClientGen.ApiDocument
