import PullConsumer.Proofs.Text.SelfDelimiting
import PullConsumer.Text.Record

/-!
# Quoted texts can be read back

An escape is a backslash with a letter, or with a code point between braces; every other character
that is shown stands for itself (`escape_cases`). The two that begin an escape and end a quoted text
never do. So an escape is never the beginning of another one (`selfDelimiting_escape`), and since no
escape begins with a quotation mark, a quoted text ends at the first one that stands where an escape
could begin (`selfDelimiting_quoted`). What is quoted may hold any characters, those that end a text
or part a list among them: a list of self-delimiting texts is self-delimiting
(`selfDelimiting_listed`) if none of them begins with the bracket that closes it.

All that is written in this way is shown: escapes consist of characters that stand for themselves
(`AllShown`), and none of these is a control character (`bounds_of_isShown`).
-/

namespace PullConsumer.Text

variable {α : Type} {c d : Char} {cs : List Char}

/-! ### Escapes -/

/-- The characters with a letter of their own, each with its letter. -/
def lettered : List (Char × Char) :=
  [('"', '"'), ('\\', '\\'), ('\x00', '0'), ('\t', 't'), ('\n', 'n'), ('\r', 'r')]

/-- A character is written with its letter, as it is, or as its code point. -/
theorem escape_cases (c : Char) :
    (∃ letter, (c, letter) ∈ lettered ∧ escape c = ['\\', letter]) ∨
    (escape c = [c] ∧ isShown c = true ∧ c ≠ '"' ∧ c ≠ '\\') ∨
    escape c = codePointEscape c := by
  by_cases hletter : ∃ letter, (c, letter) ∈ lettered
  · left
    obtain ⟨letter, hmem⟩ := hletter
    refine ⟨letter, hmem, ?_⟩
    simp only [lettered, List.mem_cons, Prod.mk.injEq, List.not_mem_nil, or_false] at hmem
    rcases hmem with ⟨rfl, rfl⟩ | ⟨rfl, rfl⟩ | ⟨rfl, rfl⟩ | ⟨rfl, rfl⟩ | ⟨rfl, rfl⟩ | ⟨rfl, rfl⟩ <;>
      decide
  · right
    simp only [lettered, List.mem_cons, Prod.mk.injEq, List.not_mem_nil, or_false, exists_or,
      exists_and_left, exists_eq, and_true, not_or] at hletter
    obtain ⟨hquote, hslash, hnull, htab, hline, hreturn⟩ := hletter
    rw [escape, if_neg hquote, if_neg hslash, if_neg hnull, if_neg htab, if_neg hline,
      if_neg hreturn]
    split
    · next hshown => exact .inl ⟨rfl, hshown, hquote, hslash⟩
    · exact .inr rfl

/-- A letter stands for one character, and none of them opens a code point. -/
theorem lettered_inj {letter : Char} (hc : (c, letter) ∈ lettered) (hd : (d, letter) ∈ lettered) :
    c = d := by
  have hall : ∀ p ∈ lettered, ∀ q ∈ lettered, p.2 = q.2 → p.1 = q.1 := by decide
  exact hall _ hc _ hd rfl

theorem ne_of_mem_lettered {letter : Char} (hc : (c, letter) ∈ lettered) : letter ≠ 'u' := by
  have hall : ∀ p ∈ lettered, p.2 ≠ 'u' := by decide
  exact hall _ hc

/-- A code point ends at its brace. -/
theorem selfDelimiting_codePointEscape : SelfDelimiting codePointEscape := by
  have hdigits : SelfDelimiting fun n ↦ Nat.toDigits 16 n ++ ['\x7d'] :=
    selfDelimiting_toDigits (by decide) (by decide) (by decide)
  exact (hdigits.comp fun _ _ ↦ Char.toNat_inj.1).after ['\\', 'u', '\x7b']

/-- **No escape is the beginning of another one.** -/
theorem selfDelimiting_escape : SelfDelimiting escape := by
  intro c d s t heq
  -- Two escapes of one kind are told apart within that kind, two of different kinds by the first
  -- character or, behind a backslash, by the second one.
  rcases escape_cases c with ⟨letter, hc, htext⟩ | ⟨htext, -, -, hcslash⟩ | htext <;>
    rcases escape_cases d with ⟨letter', hd, htext'⟩ | ⟨htext', -, -, hdslash⟩ | htext' <;>
    rw [htext, htext'] at heq
  · simp only [List.cons_append, List.nil_append, List.cons.injEq, true_and] at heq
    obtain ⟨rfl, rfl⟩ := heq
    exact ⟨lettered_inj hc hd, rfl⟩
  · exact absurd (List.cons.inj heq).1.symm hdslash
  · exact absurd (List.cons.inj (List.cons.inj heq).2).1 (ne_of_mem_lettered hc)
  · exact absurd (List.cons.inj heq).1 hcslash
  · exact List.cons.inj heq
  · exact absurd (List.cons.inj heq).1 hcslash
  · exact absurd (List.cons.inj (List.cons.inj heq).2).1.symm (ne_of_mem_lettered hd)
  · exact absurd (List.cons.inj heq).1.symm hdslash
  · exact selfDelimiting_codePointEscape heq

/-- No escape begins with a quotation mark. -/
theorem head?_escape (c : Char) : ∃ d ≠ '"', (escape c).head? = some d := by
  rcases escape_cases c with ⟨letter, -, htext⟩ | ⟨htext, -, hquote, -⟩ | htext
  · exact ⟨'\\', by decide, by rw [htext, List.head?_cons]⟩
  · exact ⟨c, hquote, by rw [htext, List.head?_cons]⟩
  · exact ⟨'\\', by decide, by rw [htext, codePointEscape, List.head?_cons]⟩

/-! ### Quoted texts and lists -/

theorem toList_quoted (s : String) :
    (quoted s).toList = ['"'] ++ (s.toList.flatMap escape ++ ['"']) :=
  String.toList_ofList

/-- **A quoted text ends at its second quotation mark**, whatever is quoted. -/
theorem selfDelimiting_quoted : SelfDelimiting fun s ↦ (quoted s).toList := by
  have hbody := (selfDelimiting_escape.closed head?_escape).comp fun _ _ ↦ String.toList_injective
  simpa only [toList_quoted] using hbody.after ['"']

theorem toList_listed (items : List String) :
    (listed items).toList =
      ['['] ++ (List.intercalate [',', ' '] (items.map String.toList) ++ [']']) := by
  rw [listed, joined, String.toList_append, String.toList_append, String.toList_intercalate,
    List.append_assoc]
  rfl

theorem intercalate_cons (sep first : List Char) (others : List (List Char)) :
    List.intercalate sep (first :: others) = first ++ others.flatMap (sep ++ ·) := by
  induction others generalizing first with
  | nil => simp
  | cons second others ih =>
    rw [List.intercalate_cons_cons, ih, List.flatMap_cons, List.append_assoc, List.append_assoc]

/-- **A list ends at its bracket**, whatever the things in it hold, if each of them tells where it
ends and none of them begins with that bracket. -/
theorem selfDelimiting_listed {item : α → String} (h : SelfDelimiting fun a ↦ (item a).toList)
    (hopen : ∀ a, ∃ c ≠ ']', (item a).toList.head? = some c) :
    SelfDelimiting fun as : List α ↦ (listed (as.map item)).toList := by
  -- Behind the first thing, a list is a row of things that a comma opens.
  have hothers : SelfDelimiting fun as : List α ↦
      as.flatMap (fun a ↦ [',', ' '] ++ (item a).toList) ++ [']'] :=
    (h.after [',', ' ']).closed fun _ ↦ ⟨',', by decide, rfl⟩
  have hlist : SelfDelimiting fun as : List α ↦
      List.intercalate [',', ' '] (as.map fun a ↦ (item a).toList) ++ [']'] := by
    intro as bs s t heq
    cases as with
    | nil =>
      cases bs with
      | nil => exact ⟨rfl, (List.cons.inj heq).2⟩
      | cons b bs =>
        simp only [List.map_cons, intercalate_cons, List.append_assoc] at heq
        exact absurd heq.symm (append_ne_cons (hopen b) _ _)
    | cons a as =>
      cases bs with
      | nil =>
        simp only [List.map_cons, intercalate_cons, List.append_assoc] at heq
        exact absurd heq (append_ne_cons (hopen a) _ _)
      | cons b bs =>
        simp only [List.map_cons, intercalate_cons, List.append_assoc, List.flatMap_map] at heq
        obtain ⟨rfl, hrest⟩ := h heq
        rw [← List.append_assoc, ← List.append_assoc] at hrest
        obtain ⟨rfl, rfl⟩ := hothers hrest
        exact ⟨rfl, rfl⟩
  simpa only [toList_listed, List.map_map, Function.comp_def] using hlist.after ['[']

/-! ### What is shown -/

/-- Every character of a text stands for itself. -/
def AllShown (cs : List Char) : Prop := ∀ c ∈ cs, isShown c = true

instance (cs : List Char) : Decidable (AllShown cs) := List.decidableBAll _ _

@[simp]
theorem allShown_append {ds : List Char} : AllShown (cs ++ ds) ↔ AllShown cs ∧ AllShown ds :=
  List.forall_mem_append

/-- Nothing that is shown is a control character. -/
theorem bounds_of_isShown (h : isShown c = true) : 32 ≤ c.toNat ∧ c.toNat ≠ 127 := by
  rw [isShown] at h
  split at h
  · simp only [Bool.and_eq_true, decide_eq_true_eq] at h
    omega
  · omega

theorem isShown_eq_false_of_mem {range : Nat × Nat} (hrange : range ∈ unprintable)
    (hpoint : 128 ≤ c.toNat) (hfirst : range.1 ≤ c.toNat) (hlast : c.toNat ≤ range.2) :
    isShown c = false := by
  have hin : inRanges unprintable c.toNat = true :=
    List.any_eq_true.2 ⟨range, hrange, by simp [hfirst, hlast]⟩
  rw [isShown, if_neg (Nat.not_lt.2 hpoint), hin, Bool.not_true, Bool.and_false]

/-- No line ends at a character that is shown, beyond ASCII either. -/
theorem not_mem_lineBreaks_of_isShown (h : isShown c = true) :
    c ∉ ['\u0085', '\u2028', '\u2029'] := by
  -- The ranges are looked up by their places; a search of the whole table is long.
  have hcontrols : (0x80, 0xA0) ∈ unprintable := List.mem_of_getElem? (i := 0) rfl
  have hseparators : (0x2028, 0x202F) ∈ unprintable := List.mem_of_getElem? (i := 245) rfl
  intro hmem
  suffices hhidden : isShown c = false from Bool.noConfusion (h.symm.trans hhidden)
  simp only [List.mem_cons, List.not_mem_nil, or_false] at hmem
  rcases hmem with rfl | rfl | rfl
  · exact isShown_eq_false_of_mem hcontrols (by decide) (by decide) (by decide)
  · exact isShown_eq_false_of_mem hseparators (by decide) (by decide) (by decide)
  · exact isShown_eq_false_of_mem hseparators (by decide) (by decide) (by decide)

theorem allShown_toDigits {base : Nat} (hbase : 1 < base) (hle : base ≤ 16) (n : Nat) :
    AllShown (Nat.toDigits base n) := by
  have hall : ∀ i : Fin 16, isShown i.val.digitChar = true := by decide
  intro c hc
  obtain ⟨d, hd, rfl⟩ := mem_toDigits hbase hc
  exact hall ⟨d, by omega⟩

theorem allShown_escape (c : Char) : AllShown (escape c) := by
  have hletters : ∀ p ∈ lettered, AllShown ['\\', p.2] := by decide
  rcases escape_cases c with ⟨letter, hmem, htext⟩ | ⟨htext, hshown, -, -⟩ | htext
  · exact htext ▸ hletters _ hmem
  · exact htext ▸ List.forall_mem_singleton.2 hshown
  · have hdigits : AllShown (Nat.toDigits 16 c.toNat) :=
      allShown_toDigits (by decide) (by decide) _
    have hopen : AllShown ['\\', 'u', '\x7b'] := by decide
    have hclose : AllShown ['\x7d'] := by decide
    rw [htext]
    exact allShown_append.2 ⟨hopen, allShown_append.2 ⟨hdigits, hclose⟩⟩

/-- **A quoted text is shown**, whatever is quoted. -/
theorem allShown_quoted (s : String) : AllShown (quoted s).toList := by
  have hmark : AllShown ['"'] := by decide
  have hbody : AllShown (s.toList.flatMap escape) :=
    fun d hd ↦ (List.mem_flatMap.1 hd).elim fun c hc ↦ allShown_escape c d hc.2
  rw [toList_quoted]
  exact allShown_append.2 ⟨hmark, allShown_append.2 ⟨hbody, hmark⟩⟩

/-- A list is shown if what is in it is. -/
theorem allShown_listed {items : List String} (h : ∀ item ∈ items, AllShown item.toList) :
    AllShown (listed items).toList := by
  have hmarks : AllShown ['['] ∧ AllShown [',', ' '] ∧ AllShown [']'] := by decide
  obtain ⟨hopen, hsep, hclose⟩ := hmarks
  rw [toList_listed, allShown_append, allShown_append]
  refine ⟨hopen, ?_, hclose⟩
  cases items with
  | nil => exact fun c hc ↦ absurd hc List.not_mem_nil
  | cons first others =>
    rw [List.map_cons, intercalate_cons, allShown_append, List.flatMap_map]
    refine ⟨h first List.mem_cons_self, fun c hc ↦ ?_⟩
    obtain ⟨item, hmem, hc⟩ := List.mem_flatMap.1 hc
    exact allShown_append.2 ⟨hsep, h item (List.mem_cons_of_mem _ hmem)⟩ c hc

end PullConsumer.Text
