import ClientGen.Proofs.Number.ReadBack
import ClientGen.Proofs.Schema.MemberNames

/-! Members of a list of values: one for each distinct scalar, under a name of its own. -/

namespace ClientGen

/-- The kind and the value of a scalar that makes a member, whatever form it is written in. -/
inductive Worth where
  | truth (b : Bool)
  | whole (i : Int)
  | infinity (negative : Bool)
  | real (q : ℚ)
  | text (s : String)
deriving DecidableEq

namespace Double

def worth? : Double → Option Worth
  | .nan => none
  | .infinite negative => some (.infinity negative)
  | .finite negative m e => some (.real (if negative then -(m * 2 ^ e) else m * 2 ^ e))

theorem finite_equals_iff {n n' : Bool} {m m' : Nat} {e e' : Int} :
    (finite n m e).equals (finite n' m' e') = true ↔
      m = 0 ∧ m' = 0 ∨ finite n m e = finite n' m' e' := by
  unfold equals
  split
  · next heq heq' =>
    obtain ⟨-, rfl, -⟩ := Double.finite.inj heq
    obtain ⟨-, rfl, -⟩ := Double.finite.inj heq'
    simp
  · next hzero =>
    have hnot : ¬ (m = 0 ∧ m' = 0) := by
      rintro ⟨rfl, rfl⟩
      exact hzero n e n' e' rfl rfl
    simp [hnot]

theorem finite_worth?_eq_iff {n n' : Bool} {m m' : Nat} {e e' : Int} (hc : IsCanonical m e)
    (hc' : IsCanonical m' e') : (finite n m e).worth? = (finite n' m' e').worth? ↔
      m = 0 ∧ m' = 0 ∨ finite n m e = finite n' m' e' := by
  have hunit : (0 : ℚ) < 2 ^ e := zpow_pos two_pos e
  have hunit' : (0 : ℚ) < 2 ^ e' := zpow_pos two_pos e'
  rw [worth?, worth?, Option.some.injEq, Worth.real.injEq]
  constructor
  · intro h
    by_cases hm : m = 0
    · refine .inl ⟨hm, ?_⟩
      subst hm
      have hzero : (m' : ℚ) * 2 ^ e' = 0 := by
        split_ifs at h <;> simpa [eq_comm] using h
      simpa [hunit'.ne'] using hzero
    · have hpos : (0 : ℚ) < m * 2 ^ e := mul_pos (Nat.cast_pos.mpr (Nat.pos_of_ne_zero hm)) hunit
      have hnonneg : (0 : ℚ) ≤ m' * 2 ^ e' := mul_nonneg (Nat.cast_nonneg m') hunit'.le
      -- The signs agree, since the first number is not zero.
      have hsame : n = n' ∧ (m : ℚ) * 2 ^ e = m' * 2 ^ e' := by
        cases n <;> cases n' <;> simp only [Bool.false_eq_true, if_false, if_true] at h
        · exact ⟨rfl, h⟩
        · linarith
        · linarith
        · exact ⟨rfl, neg_injective h⟩
      obtain ⟨rfl, hvalue⟩ := hsame
      obtain ⟨rfl, rfl⟩ := hc.unique hc' hm hvalue
      exact .inr rfl
  · rintro (⟨rfl, rfl⟩ | h)
    · simp
    · obtain ⟨rfl, rfl, rfl⟩ := Double.finite.inj h
      rfl

/-- Doubles in the one form are equal exactly if they have the same value. -/
theorem equals_eq {x y : Double} (hx : x.WellFormed) (hy : y.WellFormed) (hnan : x ≠ .nan) :
    x.equals y = (x.worth? == y.worth?) := by
  rw [Bool.eq_iff_iff, beq_iff_eq]
  cases x with
  | nan => exact absurd rfl hnan
  | infinite negative => cases y <;> simp [equals, worth?]
  | finite n m e =>
    cases y with
    | finite n' m' e' => rw [finite_equals_iff, finite_worth?_eq_iff hx hy]
    | _ => simp [equals, worth?]

end Double

namespace Scalar

/-- Nothing, dates and bytes make no member. -/
def worth? : Scalar → Option Worth
  | .bool b => some (.truth b)
  | .int i => some (.whole i)
  | .float x => x.worth?
  | .str s => some (.text s)
  | _ => none

def sameWorth (a b : Scalar) : Bool := a.worth? == b.worth?

/-- A number is in the one form that it has, and it is a number. -/
def Regular : Scalar → Prop
  | .float x => x ≠ .nan ∧ x.WellFormed
  | _ => True

end Scalar

namespace EnumEntry

open Naming

/-- The scalars of a list that make members. -/
def candidates (values : List Node) : List Scalar :=
  values.filterMap fun
    | .scalar s => if s.worth?.isSome then some s else none
    | _ => none

/-- The first scalar of each worth, in order. -/
def firsts (values : List Node) : List Scalar := (candidates values).eraseDupsBy Scalar.sameWorth

/-- What a member stands for. -/
def pair (entry : EnumEntry) : String × String := (entry.type, entry.value)

/-- The members of scalars in order: each has the name of its scalar, or the first numbered one that
is free. -/
inductive Named : List String → List Scalar → List EnumEntry → Prop
  | nil {taken : List String} : Named taken [] []
  | cons {taken : List String} {s : Scalar} {rest : List Scalar} {own : EnumEntry} {name : String}
      {entries : List EnumEntry} (hown : ofScalar? s = .ok (some own))
      (hname : FirstFree taken own.name "_" name) (hrest : Named (name :: taken) rest entries) :
      Named taken (s :: rest) ({ own with name := name } :: entries)

section Scalars

variable {a b s : Scalar} {own other : EnumEntry}

theorem isSome_memberOf? (h : s.Regular) : (memberOf? s).isSome = s.worth?.isSome := by
  cases s with
  | float x =>
    cases x with
    | nan => exact absurd rfl h.1
    | infinite negative => rfl
    | finite negative m e => rfl
  | _ => rfl

theorem isSome_worth? (h : s.Regular) {own : Option EnumEntry} (hown : ofScalar? s = .ok own) :
    s.worth?.isSome = own.isSome := by
  rw [← isSome_memberOf? h, (ofScalar?_eq_ok.mp hown).2]

theorem sameValue_eq (ha : a.Regular) (hb : b.Regular) (hsome : a.worth?.isSome) :
    sameValue a b = a.sameWorth b := by
  cases a with
  | float x =>
    cases b with
    | float y => exact Double.equals_eq ha.2 hb.2 ha.1
    | _ =>
      cases x with
      | nan => exact absurd rfl ha.1
      | _ => rfl
  | null => cases hsome
  | date _ => cases hsome
  | time _ => cases hsome
  | bytes _ => cases hsome
  | _ =>
    rw [Bool.eq_iff_iff, Scalar.sameWorth, beq_iff_eq]
    rcases b with _ | _ | _ | (_ | _ | _) | _ | _ | _ | _ <;>
      simp [sameValue, Scalar.worth?, Double.worth?]

/-- Scalars that are written alike, under one kind, are the same. -/
theorem eq_of_pair (ha : a.Regular) (hb : b.Regular) (hown : ofScalar? a = .ok (some own))
    (hother : ofScalar? b = .ok (some other)) (h : own.pair = other.pair) : a = b := by
  replace hown := (ofScalar?_eq_ok.mp hown).2
  replace hother := (ofScalar?_eq_ok.mp hother).2
  cases a <;> cases b <;> cases hown <;> cases hother <;>
    simp only [pair, Prod.mk.injEq, String.reduceEq, false_and, true_and] at h
  case bool.bool p q =>
    cases p <;> cases q <;> first | rfl | exact absurd h (by decide)
  case int.int i j => exact congrArg _ (Numeral.toString_inj h)
  case int.float i x => exact absurd h.symm (x.text_ne_toString i)
  case float.int x i => exact absurd h (x.text_ne_toString i)
  case float.float x y => exact congrArg _ (Double.text_injective ha.2 hb.2 h)
  case str.str => exact congrArg _ h

end Scalars

section Collected

variable {values rest : List Node} {seen : List Scalar} {taken : List String} {s : Scalar}
  {entries : List EnumEntry}

theorem candidates_scalar (s : Scalar) (rest : List Node) : candidates (.scalar s :: rest) =
    (if s.worth?.isSome then [s] else []) ++ candidates rest := by
  unfold candidates
  rw [List.filterMap_cons]
  by_cases hsome : s.worth?.isSome <;> simp [hsome]

theorem candidates_other {value : Node} (hvalue : ∀ s, value ≠ .scalar s) (rest : List Node) :
    candidates (value :: rest) = candidates rest := by
  cases value with
  | scalar s => exact absurd rfl (hvalue s)
  | _ => rfl

theorem any_sameValue (hs : s.Regular) (hsome : s.worth?.isSome) (hseen : ∀ t ∈ seen, t.Regular) :
    seen.any (sameValue s) = seen.any s.sameWorth := by
  rw [Bool.eq_iff_iff, List.any_eq_true, List.any_eq_true]
  exact exists_congr fun t => and_congr_right fun ht => by
    rw [sameValue_eq hs (hseen t ht) hsome]

namespace Collects

/-- The values that are left make members unless they have the worth of one before. -/
theorem named (h : Collects seen taken values entries) (hseen : ∀ s ∈ seen, s.Regular)
    (hvalues : ∀ s, .scalar s ∈ values → s.Regular) :
    Named taken
      (((candidates values).filter fun s => !seen.any s.sameWorth).eraseDupsBy Scalar.sameWorth)
      entries := by
  induction h with
  | nil => exact .nil
  | @again seen _ s rest _ hsame _ ih =>
    have hs := hvalues s List.mem_cons_self
    have hrest := ih hseen fun t ht => hvalues t (List.mem_cons_of_mem _ ht)
    rw [candidates_scalar]
    split_ifs with hsome
    · rw [any_sameValue hs hsome hseen] at hsame
      rwa [List.singleton_append, List.filter_cons_of_neg (by simpa using hsame)]
    · exact hrest
  | @none seen _ s rest _ hown _ ih =>
    have hs := hvalues s List.mem_cons_self
    rw [candidates_scalar, isSome_worth? hs hown]
    exact ih hseen fun t ht => hvalues t (List.mem_cons_of_mem _ ht)
  | @new seen taken s rest own _ hnew hown _ ih =>
    have hs := hvalues s List.mem_cons_self
    have hsome : s.worth?.isSome := isSome_worth? hs hown
    have hlater := ih (List.forall_mem_cons.mpr ⟨hs, hseen⟩)
      fun t ht => hvalues t (List.mem_cons_of_mem _ ht)
    rw [any_sameValue hs hsome hseen] at hnew
    rw [candidates_scalar, if_pos hsome, List.singleton_append,
      List.filter_cons_of_pos (by simpa using hnew), List.eraseDupsBy_cons, List.filter_filter]
    have hfilter : (fun t => decide (t.sameWorth s = false) && !seen.any t.sameWorth) =
        fun t : Scalar => !(s :: seen).any t.sameWorth := by
      funext t
      rw [List.any_cons]
      cases t.sameWorth s <;> rfl
    rw [hfilter]
    exact .cons hown (firstFree_fresh taken own.name "_") hlater
  | other hvalue _ ih =>
    rw [candidates_other hvalue]
    exact ih hseen fun t ht => hvalues t (List.mem_cons_of_mem _ ht)

theorem pairs (h : Collects seen taken values entries) (hseen : ∀ s ∈ seen, s.Regular)
    (hvalues : ∀ s, .scalar s ∈ values → s.Regular) :
    (entries.map pair).Nodup ∧ ∀ entry ∈ entries, ∀ s ∈ seen, ∀ own,
      ofScalar? s = .ok (some own) → own.pair ≠ entry.pair := by
  induction h with
  | nil => simp
  | again _ _ ih => exact ih hseen fun t ht => hvalues t (List.mem_cons_of_mem _ ht)
  | none _ _ ih => exact ih hseen fun t ht => hvalues t (List.mem_cons_of_mem _ ht)
  | @new seen taken s rest own _ hnew hown _ ih =>
    have hs := hvalues s List.mem_cons_self
    have hsome : s.worth?.isSome := isSome_worth? hs hown
    obtain ⟨hnodup, hapart⟩ := ih (List.forall_mem_cons.mpr ⟨hs, hseen⟩)
      fun t ht => hvalues t (List.mem_cons_of_mem _ ht)
    constructor
    · refine List.nodup_cons.mpr ⟨fun hmem => ?_, hnodup⟩
      obtain ⟨later, hlater, heq⟩ := List.mem_map.mp hmem
      exact hapart later hlater s List.mem_cons_self own hown heq.symm
    · refine List.forall_mem_cons.mpr ⟨fun t ht earlier hearlier heq => ?_, ?_⟩
      · obtain rfl := eq_of_pair (hseen t ht) hs hearlier hown heq
        rw [any_sameValue hs hsome hseen] at hnew
        refine hnew (List.any_eq_true.mpr ⟨t, ht, ?_⟩)
        rw [Scalar.sameWorth, beq_self_eq_true]
      · exact fun later hlater t ht => hapart later hlater t (List.mem_cons_of_mem s ht)
  | other _ _ ih => exact ih hseen fun t ht => hvalues t (List.mem_cons_of_mem _ ht)

/-- All values of a run have texts. -/
theorem hasText (h : Collects seen taken values entries) (hseen : ∀ s ∈ seen, s.hasText) :
    ∀ s, .scalar s ∈ values → s.hasText := by
  induction h with
  | nil => simp
  | @again seen _ s _ _ hsame _ ih =>
    obtain ⟨t, ht, hst⟩ := List.any_eq_true.mp hsame
    have hs : s.hasText := by
      cases s with
      | int i =>
        obtain rfl : Scalar.int i = t := beq_iff_eq.mp hst
        exact hseen _ ht
      | _ => rfl
    simpa [hs] using ih hseen
  | none hown _ ih => simpa [(ofScalar?_eq_ok.mp hown).1] using ih hseen
  | new _ hown _ ih =>
    have hs := (ofScalar?_eq_ok.mp hown).1
    simpa [hs] using ih (List.forall_mem_cons.mpr ⟨hs, hseen⟩)
  | @other _ _ value _ _ hvalue _ ih => simpa [(hvalue _).symm] using ih hseen

end Collects

/-- Collecting fails only at a value without a text. -/
theorem collect_eq_error {fault : Fault} (h : collect seen taken values = .error fault) :
    fault = .malformed .tooLong ∧ ∃ s, .scalar s ∈ values ∧ ¬ s.hasText := by
  induction values generalizing seen taken with
  | nil => cases h
  | cons value rest ih =>
    have hlater {seen : List Scalar} {taken : List String}
        (h : collect seen taken rest = .error fault) :
        fault = .malformed .tooLong ∧ ∃ s, .scalar s ∈ value :: rest ∧ ¬ s.hasText := by
      obtain ⟨hfault, s, hs, htext⟩ := ih h
      exact ⟨hfault, s, List.mem_cons_of_mem _ hs, htext⟩
    cases value with
    | scalar s =>
      rw [collect] at h
      split at h
      · exact hlater h
      · split at h
        · next hown =>
          obtain ⟨htext, rfl⟩ := ofScalar?_eq_error.mp hown
          exact ⟨(Except.error.inj h).symm, s, List.mem_cons_self, htext⟩
        · exact hlater h
        · exact hlater (map_eq_error.mp h)
    | list items => exact hlater h
    | map es => exact hlater h

theorem ofValues_of_long {i : Int} (hi : .int i ∈ values)
    (hlong : 10 ^ Numeral.digitLimit ≤ i.natAbs) :
    ofValues values = .error (.malformed .tooLong) := by
  cases hcollect : ofValues values with
  | error fault => rw [(collect_eq_error hcollect).1]
  | ok entries =>
    have htext := (collects_of_collect hcollect).hasText (by simp) (.int i) hi
    exact absurd (Numeral.hasText_iff.mp htext) (Nat.not_lt.mpr hlong)

/-- The values of members of texts make the same members again. -/
theorem collect_values (seen : List Scalar) (taken texts : List String) :
    ∃ entries, collect seen taken (texts.map .str) = .ok entries ∧
      collect seen taken (entries.map fun entry => .str entry.value) = .ok entries := by
  induction texts generalizing seen taken with
  | nil => exact ⟨[], rfl, rfl⟩
  | cons text rest ih =>
    by_cases hsame : seen.any (sameValue (.str text)) = true
    · obtain ⟨entries, hentries, hagain⟩ := ih seen taken
      refine ⟨entries, ?_, hagain⟩
      rw [List.map_cons, collect, if_pos hsame, hentries]
    · obtain ⟨entries, hentries, hagain⟩ := ih (.str text :: seen)
        (fresh taken (if text = "" then "EMPTY" else memberName text) "_" :: taken)
      have hcollect {rest : List Node}
          (h : collect (.str text :: seen)
            (fresh taken (if text = "" then "EMPTY" else memberName text) "_" :: taken) rest =
              .ok entries) :
          collect seen taken (.str text :: rest) =
            .ok ({ name := fresh taken (if text = "" then "EMPTY" else memberName text) "_",
                   value := text } :: entries) := by
        rw [collect, if_neg hsame, ofScalar?]
        exact map_eq_ok.mpr ⟨entries, h, rfl⟩
      exact ⟨_, hcollect hentries, hcollect hagain⟩

end Collected

/-- If all integers of a list have numerals, there is one member for each scalar that has no earlier
one of its kind and value, in order, and nothing else makes one. The kinds and texts of members
differ, and so do their names: each is the name of the scalar, or the first numbered one that is
free beside earlier members. An integer without a numeral is an error. Members of texts have the
texts for values, and these make the same members again. -/
theorem members_of_values (values : List Node) :
    ((∀ x, .float x ∈ values → x ≠ .nan ∧ x.WellFormed) →
      (∀ i, .int i ∈ values → i.natAbs < 10 ^ Numeral.digitLimit) →
      ∃ entries, ofValues values = .ok entries ∧ Named [] (firsts values) entries ∧
        (entries.map pair).Nodup ∧ (entries.map (·.name)).Nodup) ∧
    (∀ i, .int i ∈ values → 10 ^ Numeral.digitLimit ≤ i.natAbs →
      ofValues values = .error (.malformed .tooLong)) ∧
    ∀ texts : List String, values = texts.map .str → ∃ entries, ofValues values = .ok entries ∧
      ofValues (entries.map fun entry => .str entry.value) = .ok entries := by
  refine ⟨fun hfloats hints => ?members, fun _ => ofValues_of_long, ?texts⟩
  case members =>
    have hvalues : ∀ s, .scalar s ∈ values → s.Regular := by
      intro s hs
      cases s with
      | float x => exact hfloats x hs
      | _ => trivial
    have hnone : ∀ s ∈ ([] : List Scalar), s.Regular := fun s hs => absurd hs List.not_mem_nil
    cases hcollect : ofValues values with
    | error fault =>
      obtain ⟨-, s, hs, htext⟩ := collect_eq_error hcollect
      cases s with
      | int i => exact absurd (Numeral.hasText_iff.mpr (hints i hs)) htext
      | _ => exact absurd rfl htext
    | ok entries =>
      have hcollects := collects_of_collect hcollect
      have hnamed := hcollects.named hnone hvalues
      have hall : (candidates values).filter (fun s => !([] : List Scalar).any s.sameWorth) =
          candidates values := List.filter_eq_self.mpr fun _ _ => rfl
      rw [hall] at hnamed
      exact ⟨entries, rfl, hnamed, (hcollects.pairs hnone hvalues).1, hcollects.names.1⟩
  case texts =>
    rintro texts rfl
    exact collect_values [] [] texts

namespace PetCodes

def one : Double := .finite false (2 ^ 52) (-52)

/-- One in four kinds, both zeros, and texts whose names meet. -/
def codes : List Node :=
  [.int 1, .float one, .bool true, .str "1", .null, .float (.zero false), .float (.zero true),
    .str "A_B_2", .str "A B", .str "a-b"]

theorem members_of_codes : (∀ x, .float x ∈ codes → x ≠ .nan ∧ x.WellFormed) ∧
    (∀ i, .int i ∈ codes → i.natAbs < 10 ^ Numeral.digitLimit) ∧
    ∃ entries, ofValues codes = .ok entries ∧ Named [] (firsts codes) entries ∧
      (entries.map pair).Nodup ∧ (entries.map (·.name)).Nodup := by
  have hfloats : ∀ x, .float x ∈ codes → x ≠ .nan ∧ x.WellFormed := by
    intro x hx
    have hcases : x = one ∨ x = .zero false ∨ x = .zero true := by simpa [codes] using hx
    rcases hcases with rfl | rfl | rfl
    · exact ⟨by decide, by decide, .inl (by decide), by decide, by decide⟩
    · exact ⟨by decide, Double.isCanonical_zero⟩
    · exact ⟨by decide, Double.isCanonical_zero⟩
  have hints : ∀ i, .int i ∈ codes → i.natAbs < 10 ^ Numeral.digitLimit := by
    intro i hi
    obtain rfl : i = 1 := by simpa [codes] using hi
    exact Numeral.hasText_iff.mp (by decide)
  exact ⟨hfloats, hints, (members_of_values codes).1 hfloats hints⟩

example : (ofValues codes).map (List.map (·.name)) =
    .ok ["_1", "_1_0", "TRUE", "_1_2", "_0_0", "A_B_2", "A_B", "A_B_3"] := by decide +kernel

/-- The least number without a numeral makes no member, and none are made of the values beside
it. -/
theorem long_code_refused :
    ofValues [.str "a", .int ((10 ^ Numeral.digitLimit : Nat) : Int)] =
      .error (.malformed .tooLong) :=
  ofValues_of_long (List.mem_cons_of_mem _ List.mem_cons_self)
    (Nat.le_of_eq (Int.natAbs_natCast _).symm)

end PetCodes

end EnumEntry

end ClientGen
