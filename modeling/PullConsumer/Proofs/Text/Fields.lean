import Mathlib
import PullConsumer.Text.Fields

/-!
# What cutting and trimming come to

The fields of a text are the one way to read it as parts that do not contain the separator and that
are joined by it (`isCut_iff`). The trimmed text is the one part of it that neither begins nor ends
with white space and leaves nothing but white space on its two sides (`isTrim_iff`). So whatever is
said of fields and trimmed texts can be said without the two functions that find them.

Neither function looks at the case of letters (`trimmed_lowered`, `fields_lowered`): no letter is
white space, and a separator that is no letter is found in the same places.
-/

namespace PullConsumer.Text

variable {sep : Char} {cs core before after : List Char} {parts : List (List Char)}

/-! ### Fields -/

/-- A text read as one or more parts with a separator between them. -/
structure IsCut (sep : Char) (cs : List Char) (parts : List (List Char)) : Prop where
  ne_nil : parts ≠ []
  apart : ∀ part ∈ parts, sep ∉ part
  joins : [sep].intercalate parts = cs

theorem fields_eq_splitOn (sep : Char) (cs : List Char) : fields sep cs = cs.splitOn sep := by
  induction cs with
  | nil => rfl
  | cons c rest ih =>
    rw [fields, List.splitOn, List.splitOnP_cons_eq_if_modifyHead]
    by_cases h : c = sep
    · rw [if_pos h, if_pos (beq_iff_eq.2 h), ih, List.splitOn]
    · rw [if_neg h, if_neg (mt beq_iff_eq.1 h), ← List.splitOn, ← ih]
      cases hf : fields sep rest with
      | nil => exact absurd hf (fields_ne_nil sep rest)
      | cons first others => rfl

theorem not_mem_of_mem_fields {part : List Char} (h : part ∈ fields sep cs) : sep ∉ part := by
  induction cs generalizing part with
  | nil => simp_all [fields]
  | cons c rest ih =>
    rw [fields] at h
    split at h
    · rcases List.mem_cons.1 h with rfl | h
      · exact List.not_mem_nil
      · exact ih h
    · next hne =>
      cases hf : fields sep rest with
      | nil => exact absurd hf (fields_ne_nil sep rest)
      | cons first others =>
        simp only [hf, List.mem_cons] at h ih
        rcases h with rfl | h
        · exact List.not_mem_cons_of_ne_of_not_mem (Ne.symm hne) (ih (Or.inl rfl))
        · exact ih (Or.inr h)

theorem isCut_fields (sep : Char) (cs : List Char) : IsCut sep cs (fields sep cs) where
  ne_nil := fields_ne_nil sep cs
  apart _ := not_mem_of_mem_fields
  joins := intercalate_fields sep cs

/-- **A text is cut in one way only.** -/
theorem isCut_iff : IsCut sep cs parts ↔ parts = fields sep cs := by
  refine ⟨fun h ↦ ?_, fun h ↦ h ▸ isCut_fields sep cs⟩
  rw [← h.joins, fields_eq_splitOn, List.splitOn_intercalate sep h.apart h.ne_nil]

/-! ### White space at the ends -/

/-- The part of a text that is left when the white space at its two ends is taken away. -/
structure IsTrim (cs core : List Char) : Prop where
  around : ∃ before after, cs = before ++ core ++ after ∧ ∀ c ∈ before ++ after, isBlank c = true
  head : ∀ c ∈ core.head?, isBlank c = false
  last : ∀ c ∈ core.getLast?, isBlank c = false

theorem trimmed_eq (cs : List Char) :
    trimmed cs = (cs.dropWhile isBlank).rdropWhile isBlank := rfl

/-- White space around a text does not count. -/
theorem trimmed_pad (hbefore : ∀ c ∈ before, isBlank c = true)
    (hafter : ∀ c ∈ after, isBlank c = true) : trimmed (before ++ cs ++ after) = trimmed cs := by
  rw [List.append_assoc, trimmed, List.dropWhile_append_of_pos hbefore, List.dropWhile_append]
  split
  · next hnil =>
    rw [trimmed, List.isEmpty_iff.1 hnil, List.dropWhile_eq_nil_iff.2 hafter]
  · rw [List.reverse_append, List.dropWhile_append_of_pos, trimmed]
    exact fun c hc ↦ hafter c (List.mem_reverse.1 hc)

theorem IsTrim.trimmed_self (h : IsTrim cs core) : trimmed core = core := by
  have hdrop : core.dropWhile isBlank = core := by
    cases core with
    | nil => rfl
    | cons c rest => rw [List.dropWhile_cons, h.head c rfl, if_neg Bool.false_ne_true]
  rw [trimmed_eq, hdrop, List.rdropWhile_eq_self_iff]
  intro hne
  rw [h.last _ (List.getLast?_eq_some_getLast hne)]
  exact Bool.false_ne_true

theorem isTrim_trimmed (cs : List Char) : IsTrim cs (trimmed cs) where
  around := by
    refine ⟨cs.takeWhile isBlank, (cs.dropWhile isBlank).rtakeWhile isBlank, ?_, fun c hc ↦ ?_⟩
    · rw [trimmed_eq, List.append_assoc, List.rdropWhile_append_rtakeWhile,
        List.takeWhile_append_dropWhile]
    · rcases List.mem_append.1 hc with hc | hc
      · exact List.mem_takeWhile_imp hc
      · exact List.mem_rtakeWhile_imp hc
  head c hc := by
    -- What is cut off at the end leaves the head as it is.
    obtain ⟨rest, hrest⟩ := List.rdropWhile_prefix isBlank (cs.dropWhile isBlank)
    have hhead : (cs.dropWhile isBlank).head? = some c := by
      rw [← hrest, List.head?_append, ← trimmed_eq, hc, Option.some_or]
    have hnot := List.head?_dropWhile_not isBlank cs
    rwa [hhead] at hnot
  last c hc := by
    obtain ⟨hne, rfl⟩ := List.mem_getLast?_eq_getLast hc
    exact eq_false_of_ne_true (List.rdropWhile_last_not isBlank _ hne)

/-- **A text is trimmed in one way only.** -/
theorem isTrim_iff : IsTrim cs core ↔ core = trimmed cs := by
  refine ⟨fun h ↦ ?_, fun h ↦ h ▸ isTrim_trimmed cs⟩
  obtain ⟨before, after, rfl, hblank⟩ := h.around
  rw [trimmed_pad (fun c hc ↦ hblank c (List.mem_append_left _ hc))
    (fun c hc ↦ hblank c (List.mem_append_right _ hc)), h.trimmed_self]

/-! ### Letter case -/

/-- A capital letter comes to the letter 32 places on, anything else is left alone. -/
theorem toLower_cases (c : Char) :
    c.toLower = c ∨ (65 ≤ c.toNat ∧ c.toNat ≤ 90) ∧ c.toLower.toNat = c.toNat + 32 := by
  by_cases hc : c.isUpper
  · have hrange : 65 ≤ c.toNat ∧ c.toNat ≤ 90 := by
      simpa [Char.isUpper, UInt32.le_iff_toNat_le] using hc
    refine Or.inr ⟨hrange, ?_⟩
    rw [Char.toLower_eq_of_isUpper hc, Char.toNat_ofNat, if_pos (Or.inl (by omega))]
  · exact Or.inl (Char.toLower_eq_of_not_isUpper hc)

/-- Only itself comes to a character that stands before the letters. -/
theorem toLower_eq_iff {a c : Char} (ha : a.toNat < 65) : c.toLower = a ↔ c = a := by
  rcases toLower_cases c with hc | ⟨⟨hlow, -⟩, hc⟩
  · rw [hc]
  · exact iff_of_false (by rintro rfl; omega) (by rintro rfl; omega)

/-- A test that depends on the number of a character and says the same of every letter as of its
capital does not look at case. -/
theorem toLower_congr {test : Char → Bool}
    (h : ∀ c d : Char, 65 ≤ c.toNat → c.toNat ≤ 90 → d.toNat = c.toNat + 32 → test d = test c)
    (c : Char) : test c.toLower = test c := by
  rcases toLower_cases c with hc | ⟨⟨hlow, hhigh⟩, hc⟩
  · rw [hc]
  · exact h c _ hlow hhigh hc

theorem isBlank_toLower (c : Char) : isBlank c.toLower = isBlank c :=
  toLower_congr (fun c d hlow hhigh hd ↦ by simp only [isBlank, hd]; grind) c

theorem lowered_lowered (cs : List Char) : lowered (lowered cs) = lowered cs := by
  rw [lowered, lowered, List.map_map]
  exact List.map_congr_left fun c _ ↦ c.toLower_toLower_eq_toLower

theorem trimmed_lowered (cs : List Char) : trimmed (lowered cs) = lowered (trimmed cs) := by
  have hblank : isBlank ∘ Char.toLower = isBlank := funext isBlank_toLower
  rw [trimmed, trimmed, lowered, lowered, List.dropWhile_map, hblank, ← List.map_reverse,
    List.dropWhile_map, hblank, List.map_reverse]

/-- A separator that is no letter is found in the same places whatever the case of the letters. -/
theorem fields_lowered (hsep : sep.toNat < 65) (cs : List Char) :
    fields sep (lowered cs) = (fields sep cs).map lowered := by
  induction cs with
  | nil => rfl
  | cons c rest ih =>
    rw [lowered, List.map_cons, ← lowered, fields, fields, ih]
    by_cases h : c = sep
    · rw [if_pos h, if_pos ((toLower_eq_iff hsep).2 h), List.map_cons]
      rfl
    · rw [if_neg h, if_neg (mt (toLower_eq_iff hsep).1 h)]
      cases fields sep rest <;> rfl

end PullConsumer.Text
