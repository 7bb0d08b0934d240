import ClientGen.Fault
import Mathlib.Data.List.Infix

/-! Texts that a block comment can hold. -/

namespace ClientGen

/-- A text without the end of a block comment. -/
def StaysInComment (text : String) : Prop := ¬ ['*', '/'] <:+: text.toList

/-- A description, if there is one, stays in its comment. -/
def Harmless (description : Option String) : Prop :=
  ∀ text, description = some text → StaysInComment text

theorem Harmless.none : Harmless none := fun _ h => nomatch h

theorem Harmless.or {a b : Option String} (ha : Harmless a) (hb : Harmless b) :
    Harmless (a <|> b) := by
  cases a with
  | none => exact hb
  | some text => exact ha

namespace Text

theorem trimWhile_infix (p : Char → Bool) (s : List Char) : trimWhile p s <:+: s := by
  have hright (t : List Char) : dropRightWhile p t <+: t := by
    have hsuffix := List.dropWhile_suffix p (l := t.reverse)
    rw [← List.reverse_prefix] at hsuffix
    simpa [dropRightWhile] using hsuffix
  exact (hright _).isInfix.trans (List.dropWhile_suffix p).isInfix

end Text

namespace Naming

/-- Broken comment ends leave the first character as it is. -/
theorem head?_breakCommentEnds (s : List Char) : (breakCommentEnds s).head? = s.head? := by
  unfold breakCommentEnds
  split <;> rfl

/-- No comment end is left. -/
theorem not_infix_breakCommentEnds (s : List Char) : ¬ ['*', '/'] <:+: breakCommentEnds s := by
  fun_induction breakCommentEnds s with
  | case1 => simp
  | case2 rest ih =>
    simpa [List.infix_cons_iff, List.cons_prefix_cons] using ih
  | case3 c rest hne ih =>
    rw [List.infix_cons_iff, not_or]
    refine ⟨fun hprefix => ?_, ih⟩
    obtain ⟨rfl, hslash⟩ := List.cons_prefix_cons.mp hprefix
    -- A slash that follows stood there before, where it ended a comment.
    obtain ⟨tail, htail⟩ := hslash
    have hhead : rest.head? = some '/' := by
      rw [← head?_breakCommentEnds, ← htail]
      rfl
    obtain ⟨others, rfl⟩ := List.head?_eq_some_iff.mp hhead
    exact hne others rfl rfl

/-- What is put into comments stays in them. -/
theorem harmless_comment (s : String) : Harmless (comment s) := by
  intro text h
  unfold comment at h
  split at h
  · cases h
  · obtain rfl := Option.some.inj h
    intro hends
    rw [String.toList_ofList] at hends
    exact not_infix_breakCommentEnds _ (hends.trans (Text.trimWhile_infix _ _))

end Naming

theorem Node.harmless_comment {node : Node} {found : Option String}
    (h : node.comment = .ok found) : Harmless found := by
  unfold comment at h
  split at h
  · exact Except.ok.inj h ▸ Naming.harmless_comment _
  · split at h
    · cases h
    · exact Except.ok.inj h ▸ .none

end ClientGen
