import Mathlib.Data.List.Forall2
import PullConsumer.Proofs.Text.Fields
import PullConsumer.Subject

/-!
# The grammar of subject filters

Matching walks along a filter and a subject at the same time and stops at the first `>` of the
filter. Here is what it finds without the walk: a filter is closed, and then it is compared with the
subject place by place (`Closed`), or `>` is its last token and no other, and then the places before
it are compared and at least one more token has to follow (`OpenEnded`). In no other case does a
filter select anything (`selects_iff`).

What makes the two agree is that the walk treats `*` and `>` before it compares texts, and that it
asks the filter alone for them; in a subject they are text like any other (`selects_congr`).
-/

namespace PullConsumer.Subject

variable {fs ss ts gs rest : List (List Char)} {f s : List Char}

/-! ### The grammar -/

/-- A token of a filter, `>` apart, lets a token of a subject pass: `*` lets any of them pass,
anything else only itself. -/
def Passes (f s : List Char) : Prop := f = ['*'] ∨ f = s

/-- A filter without `>`, and a subject that passes it place by place. -/
structure Closed (fs ss : List (List Char)) : Prop where
  plain : ['>'] ∉ fs
  length_eq : fs.length = ss.length
  passes : ∀ (i : Nat) (hf : i < fs.length) (hs : i < ss.length), Passes fs[i] ss[i]

/-- A filter that ends in its only `>`, and a subject that passes the places before and goes on for
at least one token. -/
structure OpenEnded (fs ss : List (List Char)) : Prop where
  last : fs.getLast? = some ['>']
  only : ['>'] ∉ fs.dropLast
  length_le : fs.length ≤ ss.length
  passes : ∀ (i : Nat) (hf : i + 1 < fs.length) (hs : i < ss.length), Passes fs[i] ss[i]

/-! ### The walk -/

theorem selects_cons_cons (h : f ≠ ['>']) :
    selects (f :: fs) (s :: ss) = true ↔ Passes f s ∧ selects fs ss = true := by
  rw [selects, if_neg h]
  by_cases hp : f = ['*'] ∨ f = s
  · rw [if_pos (by simpa using hp)]
    exact (and_iff_right hp).symm
  · rw [if_neg (by simpa using hp)]
    exact iff_of_false Bool.false_ne_true fun hall ↦ hp hall.1

/-- Without `>` the walk goes to the end of both. -/
theorem selects_of_plain (h : ['>'] ∉ fs) :
    selects fs ss = true ↔ List.Forall₂ Passes fs ss := by
  induction fs generalizing ss with
  | nil => cases ss <;> simp [selects]
  | cons f fs ih =>
    cases ss with
    | nil => simp [selects]
    | cons s ss =>
      rw [selects_cons_cons (Ne.symm (List.ne_of_not_mem_cons h)),
        ih (List.not_mem_of_not_mem_cons h), List.forall₂_cons]

/-- At the first `>` the walk is over: nothing may follow it in the filter, something has to stand
there in the subject. -/
theorem selects_append_cons (h : ['>'] ∉ gs) :
    selects (gs ++ ['>'] :: rest) ss = true ↔
      rest = [] ∧ gs.length < ss.length ∧ List.Forall₂ Passes gs (ss.take gs.length) := by
  induction gs generalizing ss with
  | nil => cases ss <;> simp [selects]
  | cons g gs ih =>
    cases ss with
    | nil => simp [selects]
    | cons s ss =>
      rw [List.cons_append, selects_cons_cons (Ne.symm (List.ne_of_not_mem_cons h)),
        ih (List.not_mem_of_not_mem_cons h)]
      simp only [List.length_cons, List.take_succ_cons, List.forall₂_cons, Nat.succ_lt_succ_iff]
      exact and_left_comm.trans (and_congr_right' and_left_comm)

/-! ### Both agree -/

theorem closed_iff (h : ['>'] ∉ fs) : Closed fs ss ↔ List.Forall₂ Passes fs ss := by
  rw [List.forall₂_iff_get]
  exact ⟨fun hc ↦ ⟨hc.length_eq, hc.passes⟩, fun hall ↦ ⟨h, hall.1, hall.2⟩⟩

theorem openEnded_iff (h : ['>'] ∉ gs) :
    OpenEnded (gs ++ [['>']]) ss ↔
      gs.length < ss.length ∧ List.Forall₂ Passes gs (ss.take gs.length) := by
  rw [List.forall₂_iff_get]
  constructor
  · intro ho
    have hlt : gs.length < ss.length := by
      simpa [Nat.succ_le_iff] using ho.length_le
    refine ⟨hlt, by rw [List.length_take]; omega, fun i hi hs ↦ ?_⟩
    have hpass := ho.passes i (by simpa using hi) (by omega)
    rw [List.getElem_append_left hi] at hpass
    simpa using hpass
  · rintro ⟨hlt, -, hall⟩
    refine ⟨List.getLast?_concat, by rwa [List.dropLast_concat], by simpa [Nat.succ_le_iff] using hlt,
      fun i hi hs ↦ ?_⟩
    have hi' : i < gs.length := by simpa using hi
    have hpass := hall i hi' (by rw [List.length_take]; omega)
    rw [List.getElem_append_left hi']
    simpa using hpass

/-- **The walk finds what the grammar says.** -/
theorem selects_iff : selects fs ss = true ↔ Closed fs ss ∨ OpenEnded fs ss := by
  by_cases h : ['>'] ∈ fs
  · obtain ⟨gs, rest, rfl, hgs⟩ := List.eq_append_cons_of_mem h
    rw [selects_append_cons hgs, or_iff_right fun hc ↦ hc.plain h]
    constructor
    · rintro ⟨rfl, hall⟩
      exact (openEnded_iff hgs).2 hall
    · intro ho
      obtain rfl : rest = [] := by
        by_contra hne
        refine ho.only ?_
        rw [List.dropLast_append_of_ne_nil (List.cons_ne_nil _ _),
          List.dropLast_cons_of_ne_nil hne]
        exact List.mem_append_right _ List.mem_cons_self
      exact ⟨rfl, (openEnded_iff hgs).1 ho⟩
  · rw [selects_of_plain h, closed_iff h, or_iff_left fun ho ↦ h (List.mem_of_getLast? ho.last)]

/-- A `>` that is not the last token makes a filter select nothing. -/
theorem selects_eq_false (h : ['>'] ∈ fs.dropLast) : selects fs ss = false := by
  rw [← Bool.not_eq_true, selects_iff]
  rintro (hc | ho)
  · exact hc.plain (List.dropLast_subset _ h)
  · exact ho.only h

/-! ### Subjects hold no wildcards -/

/-- A filter cannot tell two tokens apart: none of its tokens, wildcards aside, is one of them and
not the other. -/
def Alike (fs : List (List Char)) (s t : List Char) : Prop :=
  ∀ f ∈ fs, f ≠ ['*'] → f ≠ ['>'] → (f = s ↔ f = t)

/-- A subject counts by which of its tokens the filter names, not by whether they look like
wildcards. -/
theorem selects_congr (h : List.Forall₂ (Alike fs) ss ts) : selects fs ss = selects fs ts := by
  induction fs generalizing ss ts with
  | nil => cases h <;> rfl
  | cons f fs ih =>
    cases h with
    | nil => rfl
    | @cons s t ss ts hst hrest =>
      have hfs : selects fs ss = selects fs ts :=
        ih (hrest.imp fun _ _ hall g hg ↦ hall g (List.mem_cons_of_mem _ hg))
      by_cases hend : f = ['>']
      · rw [selects, selects, if_pos hend, if_pos hend]
      · rw [Bool.eq_iff_iff, selects_cons_cons hend, selects_cons_cons hend, hfs]
        refine and_congr_left' ?_
        by_cases hstar : f = ['*']
        · exact iff_of_true (Or.inl hstar) (Or.inl hstar)
        · exact or_congr_right (hst f List.mem_cons_self hstar hend)

/-- **A filter selects what its grammar says**: the subjects that pass a filter without `>` place by
place, and those that pass the places before a `>` at its end and go on. So a filter with a `>`
anywhere else selects nothing; and of two subjects whose tokens the filter cannot tell apart it
selects both or none, whether or not there are wildcards among them. -/
theorem isSelected_grammar {filter subject : String}
    (hf : Text.IsCut '.' filter.toList fs) (hs : Text.IsCut '.' subject.toList ss) :
    (isSelected filter subject = true ↔ Closed fs ss ∨ OpenEnded fs ss) ∧
    (['>'] ∈ fs.dropLast → isSelected filter subject = false) ∧
    ∀ other ts, Text.IsCut '.' other.toList ts → List.Forall₂ (Alike fs) ss ts →
      isSelected filter other = isSelected filter subject := by
  obtain rfl : fs = tokens filter := Text.isCut_iff.1 hf
  obtain rfl : ss = tokens subject := Text.isCut_iff.1 hs
  refine ⟨selects_iff, selects_eq_false, fun other ts ht halike ↦ ?_⟩
  obtain rfl : ts = tokens other := Text.isCut_iff.1 ht
  exact (selects_congr halike).symm

/-- An open-ended filter selects a subject in which its own tokens stand as text. -/
theorem isSelected_grammar_wild :
    Text.IsCut '.' "a.*.>".toList [['a'], ['*'], ['>']] ∧
    Text.IsCut '.' "a.>.*.b".toList [['a'], ['>'], ['*'], ['b']] ∧
    isSelected "a.*.>" "a.>.*.b" = true := by
  have hf : Text.IsCut '.' "a.*.>".toList [['a'], ['*'], ['>']] := Text.isCut_iff.2 (by decide)
  have hs : Text.IsCut '.' "a.>.*.b".toList [['a'], ['>'], ['*'], ['b']] :=
    Text.isCut_iff.2 (by decide)
  refine ⟨hf, hs, (isSelected_grammar hf hs).1.2 (Or.inr ?_)⟩
  refine ⟨rfl, by decide, by decide, fun i hi _ ↦ ?_⟩
  match i, hi with
  | 0, _ => exact Or.inr rfl
  | 1, _ => exact Or.inl rfl

end PullConsumer.Subject
