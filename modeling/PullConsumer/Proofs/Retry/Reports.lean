import PullConsumer.Proofs.Retry.Runs
import PullConsumer.Proofs.Text.Quoted

/-!
# What the text of a report tells

The text of a report is one line, and no other report has the same text (`Report.legible`), whatever
the errors say that it quotes: an error that reads like the rest of a report, with further attempts
in it, is quoted like any other. This is put together from the parts of the text. A number is told
by its digits as soon as something else follows, an error by what is quoted, and the attempts by
their list; each part tells where it ends, so a report can even be told from a longer text that it
begins.

For runs it means that the text of the report tells all that the run was told: how many calls were
made and how each of them ended (`Trial.Follows.agree_of_text_eq`).
-/

namespace PullConsumer.Retry

open Text

namespace Report

variable {r : Report}

/-! ### The parts of the text -/

/-- How the end of an attempt is written. -/
def endingText : Option String → List Char
  | some e => (quoted e).toList
  | none => "ok".toList

/-- How it is written whether a run succeeded. -/
def flagText (b : Bool) : List Char := (if b then "true" else "false").toList

theorem selfDelimiting_endingText : SelfDelimiting endingText := by
  have hquoted (e : String) (s t : List Char) : (quoted e).toList ++ s ≠ 'o' :: t :=
    append_ne_cons ⟨'"', by decide, by rw [toList_quoted]; rfl⟩ s t
  intro x y s t heq
  cases x with
  | none =>
    cases y with
    | none => exact ⟨rfl, List.append_cancel_left heq⟩
    | some e => exact absurd heq.symm (hquoted e t _)
  | some e =>
    cases y with
    | none => exact absurd heq (hquoted e s _)
    | some e' => exact (selfDelimiting_quoted heq).imp_left (congrArg some)

theorem selfDelimiting_flagText : SelfDelimiting flagText := by
  intro b b' s t heq
  cases b <;> cases b'
  · exact ⟨rfl, List.append_cancel_left heq⟩
  · exact absurd (List.cons.inj heq).1 (by decide)
  · exact absurd (List.cons.inj heq).1 (by decide)
  · exact ⟨rfl, List.append_cancel_left heq⟩

theorem toList_toString (n : Nat) : (toString n).toList = Nat.toDigits 10 n := by
  rw [Nat.toString_eq_ofList_toDigits, String.toList_ofList]

theorem toList_attemptText (a : Attempt) :
    (attemptText a).toList = Nat.toDigits 10 a.index ++ [':'] ++ endingText a.error := by
  rw [attemptText, String.toList_append, String.toList_append, toList_toString]
  cases a.error <;> rfl

theorem toList_text (r : Report) : r.text.toList =
    "max_attempts=".toList ++ (Nat.toDigits 10 r.maxAttempts ++ [' '] ++
      ("success=".toList ++ (flagText r.succeeded ++
        (" attempts=".toList ++ (listed (r.attempts.map attemptText)).toList)))) := by
  show ("max_attempts=" ++ toString r.maxAttempts ++ " success=" ++
    (if r.succeeded then "true" else "false") ++ " attempts=" ++
    listed (r.attempts.map attemptText)).toList = _
  simp only [flagText, String.toList_append, toList_toString, List.append_assoc]
  rfl

/-! ### The whole -/

theorem selfDelimiting_attemptText : SelfDelimiting fun a ↦ (attemptText a).toList := by
  have hindex : SelfDelimiting fun n ↦ Nat.toDigits 10 n ++ [':'] :=
    selfDelimiting_toDigits (by decide) (by decide) (by decide)
  simp only [toList_attemptText]
  exact (hindex.seq selfDelimiting_endingText).comp (f := fun a : Attempt ↦ (a.index, a.error))
    fun ⟨_, _⟩ ⟨_, _⟩ heq ↦ by simpa using heq

/-- An attempt begins with a digit. -/
theorem head?_attemptText (a : Attempt) : ∃ c ≠ ']', (attemptText a).toList.head? = some c := by
  obtain ⟨c, rest, hdigits⟩ := List.exists_cons_of_ne_nil (Nat.toDigits_ne_nil (b := 10)
    (n := a.index))
  obtain ⟨d, hd, rfl⟩ := mem_toDigits (by decide) (hdigits ▸ List.mem_cons_self)
  have hall : ∀ d < 10, d.digitChar ≠ ']' := by decide
  exact ⟨d.digitChar, hall d hd, by rw [toList_attemptText, hdigits]; rfl⟩

/-- **The text of a report tells the report, and where it ends.** -/
theorem selfDelimiting_text : SelfDelimiting fun r : Report ↦ r.text.toList := by
  have hattempts := selfDelimiting_listed selfDelimiting_attemptText head?_attemptText
  have hnumber : SelfDelimiting fun n ↦ Nat.toDigits 10 n ++ [' '] :=
    selfDelimiting_toDigits (by decide) (by decide) (by decide)
  have hend := selfDelimiting_flagText.seq (hattempts.after " attempts=".toList)
  have hall := (hnumber.seq (hend.after "success=".toList)).after "max_attempts=".toList
  simp only [toList_text]
  exact hall.comp (f := fun r : Report ↦ (r.maxAttempts, r.succeeded, r.attempts))
    fun ⟨_, _, _⟩ ⟨_, _, _⟩ heq ↦ by simpa using heq

/-- No two reports have the same text. -/
theorem text_injective : Function.Injective text :=
  fun _ _ heq ↦ selfDelimiting_text.injective (congrArg String.toList heq)

theorem allShown_text (r : Report) : AllShown r.text.toList := by
  have hnumber (n : Nat) : AllShown (Nat.toDigits 10 n) :=
    allShown_toDigits (by decide) (by decide) n
  have hattempt (a : Attempt) : AllShown (attemptText a).toList := by
    have hcolon : AllShown [':'] := by decide
    rw [toList_attemptText, allShown_append, allShown_append]
    refine ⟨⟨hnumber a.index, hcolon⟩, ?_⟩
    cases a.error with
    | none => exact (by decide : AllShown "ok".toList)
    | some e => exact allShown_quoted e
  have hflag : ∀ b, AllShown (flagText b) := by decide
  have hfixed : AllShown "max_attempts=".toList ∧ AllShown [' '] ∧ AllShown "success=".toList ∧
      AllShown " attempts=".toList := by decide
  simp only [toList_text, allShown_append, hfixed, hflag, hnumber, true_and, and_true]
  refine allShown_listed fun item hitem ↦ ?_
  obtain ⟨a, -, rfl⟩ := List.mem_map.1 hitem
  exact hattempt a

/-- What can be read off the text of a report. -/
structure Legible (r : Report) : Prop where
  /-- No other report reads the same. -/
  unambiguous : ∀ other : Report, other.text = r.text → other = r
  /-- Nor does one that reads the same up to where the text ends, whatever follows there. -/
  delimited : ∀ (other : Report) (s t : String), other.text ++ s = r.text ++ t → other = r ∧ s = t
  /-- There are no control characters in the text, line breaks among them. -/
  plain : ∀ c ∈ r.text.toList, 32 ≤ c.toNat ∧ c.toNat ≠ 127
  /-- Nor are there the line breaks beyond ASCII. -/
  unbroken : ∀ c ∈ r.text.toList, c ∉ ['\u0085', '\u2028', '\u2029']

/-- **Every report is legible**, whatever its errors say. -/
theorem legible (r : Report) : r.Legible where
  unambiguous _ heq := text_injective heq
  delimited other s t heq := by
    have hlists : other.text.toList ++ s.toList = r.text.toList ++ t.toList := by
      simpa using congrArg String.toList heq
    exact (selfDelimiting_text hlists).imp_right String.toList_injective
  plain c hc := bounds_of_isShown (allShown_text r c hc)
  unbroken c hc := not_mem_lineBreaks_of_isShown (allShown_text r c hc)

/-- An error that reads like the end of one attempt and a second one is quoted like any other. -/
example : text ⟨2, false, [⟨1, some "a\", 2:\"b\n"⟩]⟩ =
    "max_attempts=2 success=false attempts=[1:\"a\\\", 2:\\\"b\\n\"]" := by
  decide

end Report

/-! ### What it tells of a run -/

namespace Trial.Follows

variable {ε ε' τ τ' : Type} [Categorized ε] [Categorized ε'] {p : Policy ε} {q : Policy ε'}
  {op : Operation ε τ} {op' : Operation ε' τ'} {c c' : Option Cancellation} {first : Call}
  {t : Trial ε τ} {t' : Trial ε' τ'}

/-- The attempts of a run are told by their number. -/
theorem attempts_eq (h : Trial.Follows p op c first t) :
    t.attempts = (List.range' first.index t.calls.length).map op.attempt := by
  rw [h.attempts, ← h.numbered, List.map_map]
  rfl

/-- **Runs with one report text went alike**: as many attempts were allowed and as many calls made,
and each call ended like the other one with its number. -/
theorem agree_of_text_eq (h : Trial.Follows p op c (op.call 1 0) t)
    (h' : Trial.Follows q op' c' (op'.call 1 0) t')
    (htext : (t.report p).text = (t'.report q).text) :
    p.maxAttempts = q.maxAttempts ∧ t.calls.length = t'.calls.length ∧
      ∀ i ∈ List.range' 1 t.calls.length, failure? (op.answer i) = failure? (op'.answer i) := by
  obtain ⟨hmax, -, hattempts⟩ := Report.mk.inj (Report.text_injective htext)
  rw [h.attempts_eq, h'.attempts_eq] at hattempts
  have hlength : t.calls.length = t'.calls.length := by
    simpa using congrArg List.length hattempts
  rw [← hlength] at hattempts
  exact ⟨hmax, hlength, fun i hi ↦ (Attempt.mk.inj (List.map_inj_left.1 hattempts i hi)).2⟩

end Trial.Follows

end PullConsumer.Retry
