import Mathlib.Data.List.Forall2
import Mathlib.Data.List.Perm.Basic
import Mathlib.Tactic.SplitIfs

/-! Programs that may fail: what the parts of a program gave if the whole of it succeeded, and two
programs side by side. -/

namespace ClientGen

theorem bind_eq_ok {ε α β : Type} {x : Except ε α} {f : α → Except ε β} {b : β} :
    x >>= f = .ok b ↔ ∃ a, x = .ok a ∧ f a = .ok b := by
  cases x with
  | error e =>
    constructor
    · intro h
      cases h
    · rintro ⟨_, h, -⟩
      cases h
  | ok a =>
    constructor
    · intro h
      exact ⟨a, rfl, h⟩
    · rintro ⟨_, h, hf⟩
      obtain rfl := Except.ok.inj h
      exact hf

theorem error_bind {ε α β : Type} (e : ε) (f : α → Except ε β) :
    (Except.error e >>= f) = .error e := rfl

theorem ok_bind {ε α β : Type} (a : α) (f : α → Except ε β) : (Except.ok a >>= f) = f a := rfl

theorem bind_eq_error {ε α β : Type} {x : Except ε α} {f : α → Except ε β} {e : ε} :
    x >>= f = .error e ↔ x = .error e ∨ ∃ a, x = .ok a ∧ f a = .error e := by
  cases x with
  | error e' => simp [error_bind]
  | ok a => simp [ok_bind]

theorem mapError_eq_ok {ε ε' α : Type} {x : Except ε α} {f : ε → ε'} {a : α} :
    x.mapError f = .ok a ↔ x = .ok a := by
  cases x <;> simp [Except.mapError]

theorem mapError_eq_error {ε ε' α : Type} {x : Except ε α} {f : ε → ε'} {e' : ε'} :
    x.mapError f = .error e' ↔ ∃ e, x = .error e ∧ f e = e' := by
  cases x <;> simp [Except.mapError]

theorem error_of_not_ok {ε α : Type} {x : Except ε α} (h : ∀ a, x ≠ .ok a) : ∃ e, x = .error e := by
  cases x with
  | error e => exact ⟨e, rfl⟩
  | ok a => exact absurd rfl (h a)

theorem map_eq_ok {ε α β : Type} {x : Except ε α} {f : α → β} {b : β} :
    x.map f = .ok b ↔ ∃ a, x = .ok a ∧ f a = b := by
  cases x <;> simp [Except.map]

theorem map_eq_error {ε α β : Type} {x : Except ε α} {f : α → β} {e : ε} :
    x.map f = .error e ↔ x = .error e := by
  cases x <;> simp [Except.map]

theorem pure_eq_ok {ε α : Type} {a b : α} : (pure a : Except ε α) = .ok b ↔ a = b :=
  ⟨Except.ok.inj, fun h => h ▸ rfl⟩

/-- A program that goes on in the same way after either of two steps. -/
theorem ite_bind_eq_ok {ε α β : Type} {p : Prop} [Decidable p] {x y : Except ε α}
    {f : α → Except ε β} {b : β} :
    (if p then x >>= f else y >>= f) = .ok b ↔
      ∃ a, (if p then x else y) = .ok a ∧ f a = .ok b := by
  split_ifs <;> exact bind_eq_ok

/-- A list of programs succeeds with the list of what each one gives. -/
theorem mapM_eq_ok {ε α β : Type} {f : α → Except ε β} {xs : List α} {ys : List β} :
    xs.mapM f = .ok ys ↔ List.Forall₂ (fun x y => f x = .ok y) xs ys := by
  induction xs generalizing ys with
  | nil => simpa only [List.mapM_nil, List.forall₂_nil_left_iff] using
      (pure_eq_ok.trans eq_comm : (pure [] : Except ε (List β)) = .ok ys ↔ ys = [])
  | cons x xs ih =>
    simp only [List.mapM_cons, bind_eq_ok, pure_eq_ok, ih, List.forall₂_cons_left_iff]
    constructor
    · rintro ⟨y, hy, zs, hzs, rfl⟩
      exact ⟨y, zs, hy, hzs, rfl⟩
    · rintro ⟨y, zs, hy, hzs, rfl⟩
      exact ⟨y, hy, zs, hzs, rfl⟩

theorem mapM_eq_some {α β : Type} {f : α → Option β} {xs : List α} {ys : List β} :
    xs.mapM f = some ys ↔ List.Forall₂ (fun x y => f x = some y) xs ys := by
  induction xs generalizing ys with
  | nil => simp [eq_comm]
  | cons x xs ih =>
    simp only [List.mapM_cons, Option.bind_eq_bind, Option.bind_eq_some_iff, ih,
      List.forall₂_cons_left_iff, Option.pure_def, Option.some.injEq]
    constructor
    · rintro ⟨y, hy, zs, hzs, rfl⟩
      exact ⟨y, zs, hy, hzs, rfl⟩
    · rintro ⟨y, zs, hy, hzs, rfl⟩
      exact ⟨y, hy, zs, hzs, rfl⟩

/-- In another order programs give the same results in another order, or fail as well. -/
theorem mapM_perm {ε α β : Type} (f : α → Except ε β) {xs ys : List α} (h : xs.Perm ys) :
    (∃ e e', xs.mapM f = .error e ∧ ys.mapM f = .error e') ∨
      ∃ as bs, xs.mapM f = .ok as ∧ ys.mapM f = .ok bs ∧ as.Perm bs := by
  have hok {us vs : List α} (huv : us.Perm vs) {bs : List β} (hvs : vs.mapM f = .ok bs) :
      ∃ as, us.mapM f = .ok as ∧ as.Perm bs := by
    obtain ⟨as, hus, hperm⟩ := List.perm_comp_forall₂ huv (mapM_eq_ok.mp hvs)
    exact ⟨as, mapM_eq_ok.mpr hus, hperm⟩
  cases hys : ys.mapM f with
  | ok bs =>
    obtain ⟨as, hxs, hperm⟩ := hok h hys
    exact .inr ⟨as, bs, hxs, rfl, hperm⟩
  | error e' =>
    cases hxs : xs.mapM f with
    | error e => exact .inl ⟨e, e', rfl, rfl⟩
    | ok as =>
      obtain ⟨bs, hbs, -⟩ := hok h.symm hxs
      rw [hys] at hbs
      cases hbs

/-- Items that are paired with those of another list have partners there. -/
theorem exists_mem_of_forall₂ {α β : Type} {R : α → β → Prop} {xs : List α} {ys : List β}
    (h : List.Forall₂ R xs ys) : (∀ x ∈ xs, ∃ y ∈ ys, R x y) ∧ ∀ y ∈ ys, ∃ x ∈ xs, R x y := by
  induction h with
  | nil => exact ⟨by simp, by simp⟩
  | cons hr _ ih => exact ⟨by simpa [hr] using fun x hx => .inr (ih.1 x hx),
      by simpa [hr] using fun y hy => .inr (ih.2 y hy)⟩

/-- Lists of programs that are equal one by one. -/
theorem mapM_eq_mapM {ε α β γ : Type} {f : α → Except ε γ} {g : β → Except ε γ} {xs : List α}
    {ys : List β} (h : List.Forall₂ (fun x y => f x = g y) xs ys) : xs.mapM f = ys.mapM g := by
  induction h with
  | nil => rfl
  | cons hxy _ ih => rw [List.mapM_cons, List.mapM_cons, hxy, ih]

/-- Two programs that fail with the same error, or give results that are related. -/
inductive Related {ε α β : Type} (R : α → β → Prop) : Except ε α → Except ε β → Prop
  | error (e : ε) : Related R (.error e) (.error e)
  | ok {a : α} {b : β} (h : R a b) : Related R (.ok a) (.ok b)

namespace Related

variable {ε α β γ δ : Type} {R : α → β → Prop} {x : Except ε α} {y : Except ε β}

theorem bind {S : γ → δ → Prop} {f : α → Except ε γ} {g : β → Except ε δ} (h : Related R x y)
    (hfg : ∀ a b, R a b → Related S (f a) (g b)) : Related S (x >>= f) (y >>= g) := by
  cases h with
  | error e => exact .error e
  | ok h => exact hfg _ _ h

theorem bind_same {S : γ → δ → Prop} {x : Except ε α} {f : α → Except ε γ} {g : α → Except ε δ}
    (hfg : ∀ a, Related S (f a) (g a)) : Related S (x >>= f) (x >>= g) := by
  cases x with
  | error e => exact .error e
  | ok a => exact hfg a

/-- Programs that go on in related ways after either of two steps. -/
theorem ite_bind {S : γ → δ → Prop} {p : Prop} [Decidable p] {x' : Except ε α} {y' : Except ε β}
    {f : α → Except ε γ} {g : β → Except ε δ} (h : Related R x y) (h' : Related R x' y')
    (hfg : ∀ a b, R a b → Related S (f a) (g b)) :
    Related S (if p then x >>= f else x' >>= f) (if p then y >>= g else y' >>= g) := by
  split
  · exact h.bind hfg
  · exact h'.bind hfg

theorem bind_eq {f : α → Except ε γ} {g : β → Except ε γ} (h : Related R x y)
    (hfg : ∀ a b, R a b → f a = g b) : x >>= f = y >>= g := by
  cases h with
  | error e => rfl
  | ok h => exact hfg _ _ h

theorem outcomes (h : Related R x y) :
    (∃ e, x = .error e ∧ y = .error e) ∨ ∃ a b, x = .ok a ∧ y = .ok b ∧ R a b := by
  cases h with
  | error e => exact .inl ⟨e, rfl, rfl⟩
  | @ok a b h => exact .inr ⟨a, b, rfl, rfl, h⟩

theorem imp {S : α → β → Prop} (h : Related R x y) (hRS : ∀ a b, R a b → S a b) :
    Related S x y := by
  cases h with
  | error e => exact .error e
  | ok h => exact .ok (hRS _ _ h)

theorem refl {S : α → α → Prop} (hS : ∀ a, S a a) (x : Except ε α) : Related S x x := by
  cases x with
  | error e => exact .error e
  | ok a => exact .ok (hS a)

end Related

end ClientGen
