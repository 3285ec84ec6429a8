import Mathlib.Data.List.Basic

/-!
# Writing that ends where it ends

A way of writing is self-delimiting if, whatever stands behind what was written, it is clear what
was written and where that stops (`SelfDelimiting`). Nothing that is written can then be taken for
the beginning of something else, so one such thing may stand behind another (`SelfDelimiting.seq`).

A number is not written in this way, for another digit may follow. It is once a character stands
behind it that is no digit, and that holds of anything that is told by its text alone
(`SelfDelimiting.stopped`). A list of self-delimiting things is not either, for another one may
follow, but it is once it is closed by a character that opens none of them
(`SelfDelimiting.closed`). These two rules and `seq` are all that the texts of this project need.
-/

namespace PullConsumer.Text

variable {α β : Type} {write : α → List Char} {stop : Char} {text : List Char}

/-- Whatever follows what was written, it is clear what was written and where it ends. -/
def SelfDelimiting (write : α → List Char) : Prop :=
  ∀ ⦃a b : α⦄ ⦃s t : List Char⦄, write a ++ s = write b ++ t → a = b ∧ s = t

/-- A text that is opened by another character does not stop at once. -/
theorem append_ne_cons (hopen : ∃ c ≠ stop, text.head? = some c) (s t : List Char) :
    text ++ s ≠ stop :: t := by
  obtain ⟨c, hc, hhead⟩ := hopen
  obtain ⟨rest, rfl⟩ := List.head?_eq_some_iff.1 hhead
  exact fun heq ↦ hc (List.cons.inj heq).1

namespace SelfDelimiting

/-- With nothing behind it, what was written is clear as well. -/
theorem injective (h : SelfDelimiting write) : Function.Injective write :=
  fun _ _ heq ↦ (h (congrArg (· ++ []) heq)).1

theorem comp (h : SelfDelimiting write) {f : β → α} (hf : Function.Injective f) :
    SelfDelimiting fun b ↦ write (f b) :=
  fun _ _ _ _ heq ↦ (h heq).imp_left fun hab ↦ hf hab

/-- One thing behind another. -/
theorem seq {first : α → List Char} {second : β → List Char} (hfirst : SelfDelimiting first)
    (hsecond : SelfDelimiting second) :
    SelfDelimiting fun p : α × β ↦ first p.1 ++ second p.2 := by
  rintro ⟨a, b⟩ ⟨a', b'⟩ s t heq
  rw [List.append_assoc, List.append_assoc] at heq
  obtain ⟨rfl, heq⟩ := hfirst heq
  obtain ⟨rfl, rfl⟩ := hsecond heq
  exact ⟨rfl, rfl⟩

/-- A fixed text in front tells nothing, and takes nothing away. -/
theorem after (h : SelfDelimiting write) (front : List Char) :
    SelfDelimiting fun a ↦ front ++ write a := by
  intro a b s t heq
  rw [List.append_assoc, List.append_assoc] at heq
  exact h (List.append_cancel_left heq)

/-- What is told by its text alone is told by it with anything behind it, once a character stands
between the two that does not occur in the text. -/
theorem stopped (hinj : Function.Injective write) (hstop : ∀ a, stop ∉ write a) :
    SelfDelimiting fun a ↦ write a ++ [stop] := by
  -- What stands before the first `stop` is the text, and there is only one such part.
  have hsplit (a : α) (s : List Char) :
      (write a ++ stop :: s).takeWhile (· != stop) = write a ∧
        (write a ++ stop :: s).dropWhile (· != stop) = stop :: s := by
    have hall : ∀ c ∈ write a, (c != stop) = true :=
      fun c hc ↦ bne_iff_ne.2 fun heq ↦ hstop a (heq ▸ hc)
    rw [List.takeWhile_append_of_pos hall, List.dropWhile_append_of_pos hall]
    simp
  intro a b s t heq
  rw [List.append_assoc, List.append_assoc, List.singleton_append, List.singleton_append] at heq
  obtain ⟨hatext, hafter⟩ := hsplit a s
  obtain ⟨hbtext, hbafter⟩ := hsplit b t
  rw [heq] at hatext hafter
  exact ⟨hinj (hatext.symm.trans hbtext), (List.cons.inj (hafter.symm.trans hbafter)).2⟩

/-- Things one behind the other tell how many they are, once they are closed by a character that
opens none of them. -/
theorem closed (h : SelfDelimiting write) (hopen : ∀ a, ∃ c ≠ stop, (write a).head? = some c) :
    SelfDelimiting fun as : List α ↦ as.flatMap write ++ [stop] := by
  intro as bs s t heq
  -- Where one list goes on and the other is closed, a thing would open with the closing character.
  induction as generalizing bs with
  | nil =>
    cases bs with
    | nil => exact ⟨rfl, (List.cons.inj heq).2⟩
    | cons b bs =>
      simp only [List.flatMap_cons, List.append_assoc] at heq
      exact absurd heq.symm (append_ne_cons (hopen b) _ _)
  | cons a as ih =>
    cases bs with
    | nil =>
      simp only [List.flatMap_cons, List.append_assoc] at heq
      exact absurd heq (append_ne_cons (hopen a) _ _)
    | cons b bs =>
      simp only [List.flatMap_cons, List.append_assoc] at heq
      obtain ⟨rfl, hrest⟩ := h heq
      rw [← List.append_assoc, ← List.append_assoc] at hrest
      obtain ⟨rfl, rfl⟩ := ih hrest
      exact ⟨rfl, rfl⟩

end SelfDelimiting

/-! ### Numbers -/

variable {base n m : Nat} {c : Char}

theorem digitChar_inj (hn : n < 16) (hm : m < 16) (h : n.digitChar = m.digitChar) : n = m := by
  have hall : ∀ i j : Fin 16, i.val.digitChar = j.val.digitChar → i = j := by decide
  exact congrArg Fin.val (hall ⟨n, hn⟩ ⟨m, hm⟩ h)

/-- A number is written with the digits of its base. -/
theorem mem_toDigits (hbase : 1 < base) (hc : c ∈ Nat.toDigits base n) :
    ∃ d < base, c = d.digitChar := by
  induction n using Nat.strongRecOn with
  | ind n ih =>
    rw [Nat.toDigits_eq_if hbase] at hc
    split at hc
    · next hlt => exact ⟨n, hlt, List.mem_singleton.1 hc⟩
    · next hge =>
      rcases List.mem_append.1 hc with hc | hc
      · exact ih (n / base) (Nat.div_lt_self (by omega) hbase) hc
      · exact ⟨n % base, Nat.mod_lt n (by omega), List.mem_singleton.1 hc⟩

/-- **A number is told by its digits**, in every base that has digits enough. -/
theorem toDigits_injective (hbase : 1 < base) (hle : base ≤ 16) :
    Function.Injective (Nat.toDigits base) := by
  intro n m h
  induction n using Nat.strongRecOn generalizing m with
  | ind n ih =>
    have hlast (k : Nat) : k % base < 16 :=
      Nat.lt_of_lt_of_le (Nat.mod_lt k (Nat.lt_of_succ_lt hbase)) hle
    -- The last digits agree, and so do those before it, if there are any.
    rw [Nat.toDigits_eq_if hbase (n := n), Nat.toDigits_eq_if hbase (n := m)] at h
    split at h <;> split at h
    · next hn hm => exact digitChar_inj (by omega) (by omega) (List.singleton_inj.1 h)
    · exact absurd (List.append_eq_singleton_iff.1 h.symm) (by simp [Nat.toDigits_ne_nil])
    · exact absurd (List.append_eq_singleton_iff.1 h) (by simp [Nat.toDigits_ne_nil])
    · next hn hm =>
      obtain ⟨hfront, hback⟩ := List.append_inj' h rfl
      have hdiv : n / base = m / base := ih _ (Nat.div_lt_self (by omega) hbase) hfront
      have hmod : n % base = m % base :=
        digitChar_inj (hlast n) (hlast m) (List.singleton_inj.1 hback)
      rw [← Nat.div_add_mod n base, ← Nat.div_add_mod m base, hdiv, hmod]

/-- A number with a character behind it that is no digit. -/
theorem selfDelimiting_toDigits (hbase : 1 < base) (hle : base ≤ 16)
    (hstop : ∀ d < base, d.digitChar ≠ stop) :
    SelfDelimiting fun n ↦ Nat.toDigits base n ++ [stop] := by
  refine .stopped (toDigits_injective hbase hle) fun n hmem ↦ ?_
  obtain ⟨d, hd, rfl⟩ := mem_toDigits hbase hmem
  exact hstop d hd rfl

end PullConsumer.Text
