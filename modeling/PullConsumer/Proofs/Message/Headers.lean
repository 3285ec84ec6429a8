import Mathlib.Data.List.Basic
import PullConsumer.Message

/-!
# Looking headers up

The headers of a message lead from names to values. A look-up takes the header of exactly the name
asked for, or else one whose name is the same up to the case of its letters (`Leads`). The second
kind may be ambiguous. Where it is not (`Unrivalled`), what a look-up returns depends on the headers
as a map, and not on the order in which they are gone through (`values?_eq_some_iff`).

A header is seen by those who ask for its name, and by nobody else: its values can be exchanged
without anybody else noticing (`bind_header?_congr`), and its name may change its case where no other
name is the same up to case (`header?_recased`).
-/

namespace PullConsumer.Message

variable {m : Message} {name k k' : String} {vs vs' : List String}
  {headers before after : List (String × List String)}

theorem sameLetters_iff {a b : String} :
    Text.sameLetters a b = true ↔ Text.lowered a.toList = Text.lowered b.toList := decide_eq_true_iff

/-! ### What a look-up returns -/

/-- The headers lead from a name to values: under the name itself, or, if it is not there, under a
name that is the same up to case. -/
def Leads (m : Message) (name : String) (vs : List String) : Prop :=
  m.headers.lookup name = some vs ∨
    m.headers.lookup name = none ∧
      ∃ other, Text.sameLetters other name = true ∧ m.headers.lookup other = some vs

/-- The headers lead from a name to a value, which is the first one of several. -/
def Carries (m : Message) (name value : String) : Prop :=
  ∃ vs, m.Leads name vs ∧ vs.head? = some value

/-- No two names are the same as this one up to case, unless the name itself is there. -/
def Unrivalled (m : Message) (name : String) : Prop :=
  m.headers.lookup name = none → ∀ e ∈ m.headers, ∀ e' ∈ m.headers,
    Text.sameLetters e.1 name = true → Text.sameLetters e'.1 name = true → e.1 = e'.1

instance (m : Message) (name : String) : Decidable (m.Unrivalled name) :=
  inferInstanceAs (Decidable (_ → _))

/-- The values of the first header whose name passes a test. -/
def pick? (test : String → Bool) (headers : List (String × List String)) : Option (List String) :=
  (headers.find? fun e ↦ test e.1).map (·.2)

/-- A look-up picks twice. -/
theorem values?_eq (m : Message) (name : String) :
    m.values? name =
      (pick? (· = name) m.headers).or (pick? (Text.sameLetters · name) m.headers) := by
  rw [values?, pick?]
  cases m.headers.find? fun e ↦ decide (e.1 = name) <;> rfl

theorem pick?_append_cons (test : String → Bool) (before after : List (String × List String))
    (k : String) (vs : List String) :
    pick? test (before ++ (k, vs) :: after) =
      (pick? test before).or (if test k then some vs else pick? test after) := by
  rw [pick?, pick?, List.find?_append, List.find?_cons]
  cases before.find? fun e ↦ test e.1 with
  | some e => rfl
  | none => cases test k <;> rfl

theorem pick?_eq_lookup (headers : List (String × List String)) (name : String) :
    pick? (· = name) headers = headers.lookup name := by
  induction headers with
  | nil => rfl
  | cons e rest ih =>
    obtain ⟨k, vs⟩ := e
    rw [← List.nil_append (_ :: _), pick?_append_cons, List.nil_append, List.lookup_cons, ih]
    by_cases h : k = name
    · simp [h, pick?]
    · have hne : (name == k) = false := by simpa using Ne.symm h
      simp [h, hne, pick?]

/-- What is picked under a name that is the same up to case stands under that very name. -/
theorem exists_lookup_of_pick? (h : pick? (Text.sameLetters · name) headers = some vs) :
    ∃ k, Text.sameLetters k name = true ∧ headers.lookup k = some vs := by
  obtain ⟨⟨k, vs⟩, hfind, rfl⟩ := Option.map_eq_some_iff.1 h
  obtain ⟨hsame, front, back, rfl, hfront⟩ := List.find?_eq_some_iff_append.1 hfind
  refine ⟨k, hsame, List.lookup_eq_some_iff.2 ⟨front, back, rfl, fun other hother ↦ ?_⟩⟩
  -- A header of the same name would have been picked before.
  rw [bne_iff_ne]
  rintro rfl
  have hnot := hfront other hother
  rw [hsame] at hnot
  exact absurd hnot Bool.false_ne_true

theorem mem_of_lookup (h : headers.lookup k = some vs) : (k, vs) ∈ headers := by
  obtain ⟨front, back, rfl, -⟩ := List.lookup_eq_some_iff.1 h
  exact List.mem_append_right _ List.mem_cons_self

theorem exists_pick? (test : String → Bool) (hmem : (k, vs) ∈ headers) (hk : test k = true) :
    ∃ found, pick? test headers = some found := by
  rw [← Option.isSome_iff_exists, pick?, Option.isSome_map]
  exact List.find?_isSome.2 ⟨_, hmem, hk⟩

/-- **A look-up returns what the headers lead to.** -/
theorem values?_eq_some_iff (h : m.Unrivalled name) : m.values? name = some vs ↔ m.Leads name vs := by
  rw [values?_eq, pick?_eq_lookup, Leads]
  cases hexact : m.headers.lookup name with
  | some found => simp
  | none =>
    rw [Option.none_or]
    constructor
    · exact fun hpick ↦ Or.inr ⟨rfl, exists_lookup_of_pick? hpick⟩
    · rintro (hcontra | ⟨-, other, hsame, hother⟩)
      · cases hcontra
      · have hmem := mem_of_lookup hother
        obtain ⟨found, hfound⟩ := exists_pick? (Text.sameLetters · name) hmem hsame
        -- There is one name to be found, so the header found is the one led to.
        obtain ⟨k, hk, hlookup⟩ := exists_lookup_of_pick? hfound
        have hname : k = other := h hexact _ (mem_of_lookup hlookup) _ hmem hk hsame
        rw [hfound, ← hlookup, hname, hother]

theorem header?_eq_some_iff (h : m.Unrivalled name) (value : String) :
    m.header? name = some value ↔ m.Carries name value := by
  rw [header?, Option.bind_eq_some_iff]
  exact exists_congr fun vs ↦ and_congr_left' (values?_eq_some_iff h)

/-! ### Headers that change -/

/-- What a look-up returns is the values of a given header, or it has nothing to do with them. -/
theorem values?_cases (m : Message) (name k : String) (before after : List (String × List String)) :
    (Text.sameLetters k name = true ∧ ∀ vs,
      ({ m with headers := before ++ (k, vs) :: after } : Message).values? name = some vs) ∨
    ∃ found, ∀ vs,
      ({ m with headers := before ++ (k, vs) :: after } : Message).values? name = found := by
  simp only [values?_eq, pick?_append_cons]
  cases pick? (· = name) before with
  | some found => exact Or.inr ⟨some found, fun _ ↦ rfl⟩
  | none =>
    by_cases hk : k = name
    · subst hk
      exact Or.inl ⟨sameLetters_iff.2 rfl, fun vs ↦ by simp⟩
    · cases pick? (· = name) after with
      | some found => exact Or.inr ⟨some found, fun _ ↦ by simp [hk]⟩
      | none =>
        cases pick? (Text.sameLetters · name) before with
        | some found => exact Or.inr ⟨some found, fun _ ↦ by simp [hk]⟩
        | none =>
          by_cases hsame : Text.sameLetters k name = true
          · exact Or.inl ⟨hsame, fun vs ↦ by simp [hk, hsame]⟩
          · exact Or.inr ⟨pick? (Text.sameLetters · name) after, fun _ ↦ by simp [hk, hsame]⟩

/-- **Who asks for another name does not see the values of a header**, and who asks for its name sees
of them only what is read off the first one. -/
theorem bind_header?_congr {α : Type} (read : String → Option α)
    (h : Text.sameLetters k name = true → vs.head?.bind read = vs'.head?.bind read) :
    (({ m with headers := before ++ (k, vs) :: after } : Message).header? name).bind read =
      (({ m with headers := before ++ (k, vs') :: after } : Message).header? name).bind read := by
  rw [header?, header?]
  rcases values?_cases m name k before after with ⟨hk, hvalues⟩ | ⟨found, hvalues⟩
  · rw [hvalues, hvalues, Option.bind_some, Option.bind_some, h hk]
  · rw [hvalues, hvalues]

theorem header?_congr (h : Text.sameLetters k name = true → vs.head? = vs'.head?) :
    ({ m with headers := before ++ (k, vs) :: after } : Message).header? name =
      ({ m with headers := before ++ (k, vs') :: after } : Message).header? name := by
  refine (Option.bind_fun_some _).symm.trans (Eq.trans ?_ (Option.bind_fun_some _))
  exact bind_header?_congr some fun hk ↦ congrArg (·.bind some) (h hk)

theorem pick?_eq_none {test : String → Bool} (h : ∀ e ∈ headers, test e.1 = false) :
    pick? test headers = none := by
  rw [pick?, List.find?_eq_none.2 fun e he ↦ by rw [h e he]; exact Bool.false_ne_true]
  rfl

/-- A header of another name is not seen at all. -/
theorem values?_of_other (hk : Text.sameLetters k name = false) :
    ({ m with headers := before ++ (k, vs) :: after } : Message).values? name =
      (((pick? (· = name) before).or (pick? (· = name) after)).or
        ((pick? (Text.sameLetters · name) before).or (pick? (Text.sameLetters · name) after))) := by
  have hne : k ≠ name := by
    rintro rfl
    rw [sameLetters_iff.2 rfl] at hk
    cases hk
  simp [values?_eq, pick?_append_cons, hk, hne]

/-- The only header whose name is the same up to case is the one that is found. -/
theorem values?_of_only (hk : Text.sameLetters k name = true)
    (honly : ∀ e ∈ before ++ after, Text.sameLetters e.1 name = false) :
    ({ m with headers := before ++ (k, vs) :: after } : Message).values? name = some vs := by
  have hexact : ∀ e ∈ before ++ after, decide (e.1 = name) = false := fun e he ↦
    decide_eq_false fun heq ↦ by
      have hnot := honly e he
      rw [heq, sameLetters_iff.2 rfl] at hnot
      cases hnot
  rw [values?_eq, pick?_append_cons, pick?_append_cons,
    pick?_eq_none fun e he ↦ hexact e (List.mem_append_left _ he),
    pick?_eq_none fun e he ↦ hexact e (List.mem_append_right _ he),
    pick?_eq_none fun e he ↦ honly e (List.mem_append_left _ he), hk]
  cases decide (k = name) <;> rfl

/-- **A name may change its case** where no other one is the same up to case. -/
theorem header?_recased (hsame : Text.sameLetters k k' = true)
    (honly : ∀ e ∈ before ++ after, Text.sameLetters e.1 k = false) (name : String) :
    ({ m with headers := before ++ (k, vs) :: after } : Message).header? name =
      ({ m with headers := before ++ (k', vs) :: after } : Message).header? name := by
  rw [sameLetters_iff] at hsame
  rw [header?, header?]
  by_cases hk : Text.sameLetters k name = true
  · have hk' : Text.sameLetters k' name = true :=
      sameLetters_iff.2 (hsame.symm.trans (sameLetters_iff.1 hk))
    have hname : ∀ e ∈ before ++ after, Text.sameLetters e.1 name = false := fun e he ↦ by
      have hnot := honly e he
      rwa [Text.sameLetters, sameLetters_iff.1 hk] at hnot
    rw [values?_of_only hk hname, values?_of_only hk' hname]
  · have hk' : ¬ Text.sameLetters k' name = true := fun hk' ↦
      hk (sameLetters_iff.2 (hsame.trans (sameLetters_iff.1 hk')))
    rw [values?_of_other (eq_false_of_ne_true hk), values?_of_other (eq_false_of_ne_true hk')]

end PullConsumer.Message
