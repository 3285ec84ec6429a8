import Mathlib.Data.String.Basic
import PullConsumer.Message.Trace
import PullConsumer.Proofs.Message.Headers
import PullConsumer.Proofs.Text.Fields

/-!
# What a trace context is read from

A header value spells a trace and a parent span if, trimmed and cut at its hyphens, it begins with
four fields of hexadecimal digits of the right lengths, and neither of the two is all zeros
(`Spells`). The trace context of a message holds the two that its `traceparent` spells, in lower
case, or neither of them, and the value of its `CorrelationId` as it stands (`Exact`).

None of that looks at letter case: of the digits, since they are compared and returned in lower case
(`parseParent?_lowered`), or of the name of a header, since a look-up falls back to names that are the
same up to case. Nor does it look at white space around a value, or at a second value. What may be
said in another way without being another trace context is listed in `Restated`.
-/

namespace PullConsumer.Trace

variable {c : Char} {n : Nat} {cs f : List Char} {value value' trace span : String} {m m' : Message}

/-! ### Hexadecimal digits -/

/-- A field of hexadecimal digits that takes up `n` bytes. -/
structure IsHex (n : Nat) (f : List Char) : Prop where
  size : (String.ofList f).utf8ByteSize = n
  digits : ∀ c ∈ f, c ∈ "0123456789abcdefABCDEF".toList

theorem isHexDigit_iff :
    isHexDigit c = true ↔ (48 ≤ c.toNat ∧ c.toNat ≤ 57) ∨ (97 ≤ c.toNat ∧ c.toNat ≤ 102) ∨
      (65 ≤ c.toNat ∧ c.toNat ≤ 70) := by
  simp [isHexDigit, Char.isDigit, Char.le_def, UInt32.le_iff_toNat_le, or_assoc]

theorem isHexDigit_iff_mem : isHexDigit c = true ↔ c ∈ "0123456789abcdefABCDEF".toList := by
  have hnumbers : "0123456789abcdefABCDEF".toList.map Char.toNat =
      List.range' 48 10 ++ List.range' 97 6 ++ List.range' 65 6 := by decide
  rw [isHexDigit_iff, ← List.mem_map_of_injective (f := Char.toNat) fun _ _ ↦ Char.toNat_inj.1,
    hnumbers, List.mem_append, List.mem_append]
  simp only [List.mem_range'_1]
  omega

/-- Digits are one byte each. -/
theorem utf8ByteSize_of_digits (h : ∀ c ∈ f, isHexDigit c = true) :
    (String.ofList f).utf8ByteSize = f.length := by
  rw [String.utf8ByteSize_ofList]
  induction f with
  | nil => rfl
  | cons c rest ih =>
    have hc := isHexDigit_iff.1 (h c List.mem_cons_self)
    have hsize : c.utf8Size = 1 :=
      Char.utf8Size_eq_one_iff.2 (UInt32.le_iff_toNat_le.2 (show c.toNat ≤ 127 by omega))
    rw [String.utf8Len, ih fun d hd ↦ h d (List.mem_cons_of_mem _ hd), hsize, List.length_cons]

theorem isHexField_iff : isHexField n f = true ↔ IsHex n f := by
  rw [isHexField, Bool.and_eq_true, decide_eq_true_iff, List.all_eq_true]
  constructor
  · rintro ⟨rfl, hall⟩
    exact ⟨utf8ByteSize_of_digits hall, fun c hc ↦ isHexDigit_iff_mem.1 (hall c hc)⟩
  · rintro ⟨rfl, hall⟩
    have hdigits : ∀ c ∈ f, isHexDigit c = true := fun c hc ↦ isHexDigit_iff_mem.2 (hall c hc)
    exact ⟨(utf8ByteSize_of_digits hdigits).symm, hdigits⟩

theorem length_of_isHex (h : IsHex n f) : f.length = n := by
  have hfield := isHexField_iff.2 h
  rw [isHexField, Bool.and_eq_true, decide_eq_true_iff] at hfield
  exact hfield.1

/-- A field of digits in lower case is as long as it was and has no capitals. -/
theorem lower_of_isHex (h : IsHex n f) :
    (String.ofList (Text.lowered f)).length = n ∧
      ∀ c ∈ (String.ofList (Text.lowered f)).toList, c ∈ "0123456789abcdef".toList := by
  have hlowered : "0123456789abcdefABCDEF".toList.map Char.toLower =
      "0123456789abcdef".toList ++ "abcdef".toList := by decide
  have hletters : "0123456789abcdef".toList = "0123456789".toList ++ "abcdef".toList := by decide
  constructor
  · rw [String.length_ofList, Text.lowered, List.length_map, length_of_isHex h]
  · intro c hc
    rw [String.toList_ofList] at hc
    obtain ⟨d, hd, rfl⟩ := List.mem_map.1 hc
    have hmem := List.mem_map_of_mem (f := Char.toLower) (h.digits d hd)
    rw [hlowered, List.mem_append] at hmem
    exact hmem.elim id fun hletter ↦ hletters ▸ List.mem_append_right _ hletter

/-! ### What a value spells -/

/-- A value spells a trace and a parent span. -/
inductive Spells (value : String) : String → String → Prop where
  | intro {core version trace span flags : List Char} {more : List (List Char)}
      (trim : Text.IsTrim value.toList core)
      (cut : Text.IsCut '-' core (version :: trace :: span :: flags :: more))
      (hversion : IsHex 2 version) (htrace : IsHex 32 trace) (hspan : IsHex 16 span)
      (hflags : IsHex 2 flags) (someTrace : ∃ c ∈ trace, c ≠ '0') (someSpan : ∃ c ∈ span, c ≠ '0') :
      Spells value (String.ofList (Text.lowered trace)) (String.ofList (Text.lowered span))

theorem all_zero_eq_false_iff : (f.all (· == '0')) = false ↔ ∃ c ∈ f, c ≠ '0' := by
  simp

/-- **Reading finds what a value spells.** -/
theorem parseParent?_eq_some_iff :
    parseParent? value = some (trace, span) ↔ Spells value trace span := by
  constructor
  · intro h
    rw [parseParent?] at h
    split at h
    · next version trace' span' flags more hfields =>
      split at h
      · next hall =>
        simp only [Bool.and_eq_true, Bool.not_eq_true', isHexField_iff,
          all_zero_eq_false_iff] at hall
        obtain ⟨⟨⟨⟨⟨hversion, htrace⟩, hspan⟩, hflags⟩, someTrace⟩, someSpan⟩ := hall
        cases h
        exact .intro (Text.isTrim_trimmed _) (Text.isCut_iff.2 hfields.symm) hversion htrace hspan
          hflags someTrace someSpan
      · cases h
    · cases h
  · rintro ⟨trim, cut, hversion, htrace, hspan, hflags, someTrace, someSpan⟩
    obtain rfl := Text.isTrim_iff.1 trim
    rw [parseParent?, ← Text.isCut_iff.1 cut]
    simp only [isHexField_iff.2 hversion, isHexField_iff.2 htrace, isHexField_iff.2 hspan,
      isHexField_iff.2 hflags, all_zero_eq_false_iff.2 someTrace, all_zero_eq_false_iff.2 someSpan]
    rfl

/-! ### What does not count -/

theorem isHexDigit_toLower (c : Char) : isHexDigit c.toLower = isHexDigit c :=
  Text.toLower_congr (fun c d hlow hhigh hd ↦ by
    rw [Bool.eq_iff_iff, isHexDigit_iff, isHexDigit_iff, hd]; omega) c

theorem isHexField_lowered (n : Nat) (f : List Char) :
    isHexField n (Text.lowered f) = isHexField n f := by
  have hdigit : isHexDigit ∘ Char.toLower = isHexDigit := funext isHexDigit_toLower
  rw [isHexField, isHexField, Text.lowered, List.length_map, List.all_map, hdigit]

theorem all_zero_lowered (f : List Char) : (Text.lowered f).all (· == '0') = f.all (· == '0') := by
  have hzero : (· == '0') ∘ Char.toLower = (· == '0') := funext fun c ↦ by
    rw [Function.comp, Bool.eq_iff_iff, beq_iff_eq, beq_iff_eq, Text.toLower_eq_iff (by decide)]
  rw [Text.lowered, List.all_map, hzero]

/-- The case of the digits does not count. -/
theorem parseParent?_lowered (value : String) :
    parseParent? (String.ofList (Text.lowered value.toList)) = parseParent? value := by
  rw [parseParent?, parseParent?, String.toList_ofList, Text.trimmed_lowered,
    Text.fields_lowered (by decide)]
  rcases Text.fields '-' (Text.trimmed value.toList) with
    _ | ⟨version, _ | ⟨trace, _ | ⟨span, _ | ⟨flags, more⟩⟩⟩⟩
  · rfl
  · rfl
  · rfl
  · rfl
  · simp only [List.map_cons, isHexField_lowered, all_zero_lowered, Text.lowered_lowered]

theorem parseParent?_of_sameLetters (h : Text.sameLetters value value' = true) :
    parseParent? value = parseParent? value' := by
  rw [← parseParent?_lowered value, ← parseParent?_lowered value', Message.sameLetters_iff.1 h]

/-- White space around a value does not count. -/
theorem parseParent?_of_pad {before after : List Char}
    (hblank : ∀ c ∈ before ++ after, Text.isBlank c = true)
    (h : value'.toList = before ++ value.toList ++ after) :
    parseParent? value' = parseParent? value := by
  rw [parseParent?, parseParent?, h,
    Text.trimmed_pad (fun c hc ↦ hblank c (List.mem_append_left _ hc))
      (fun c hc ↦ hblank c (List.mem_append_right _ hc))]

/-- Messages of which one says in another way what the other says: one of their headers has another
case of its name, where no other header has the name up to case, other values after the first one,
or, if it is the `traceparent`, another case of its digits or other white space around its value. -/
inductive Restated : Message → Message → Prop where
  | name {m : Message} {before after : List (String × List String)} {k k' : String}
      {vs : List String} (same : Text.sameLetters k k' = true)
      (only : ∀ e ∈ before ++ after, Text.sameLetters e.1 k = false) :
      Restated { m with headers := before ++ (k, vs) :: after }
        { m with headers := before ++ (k', vs) :: after }
  | values {m : Message} {before after : List (String × List String)} {k value : String}
      {vs vs' : List String} :
      Restated { m with headers := before ++ (k, value :: vs) :: after }
        { m with headers := before ++ (k, value :: vs') :: after }
  | digits {m : Message} {before after : List (String × List String)} {k value value' : String}
      {vs : List String} (parent : Text.sameLetters k "traceparent" = true)
      (same : Text.sameLetters value value' = true) :
      Restated { m with headers := before ++ (k, value :: vs) :: after }
        { m with headers := before ++ (k, value' :: vs) :: after }
  | space {m : Message} {before after : List (String × List String)} {k value value' : String}
      {vs : List String} {front back : List Char} (parent : Text.sameLetters k "traceparent" = true)
      (blank : ∀ c ∈ front ++ back, Text.isBlank c = true)
      (around : value'.toList = front ++ value.toList ++ back) :
      Restated { m with headers := before ++ (k, value :: vs) :: after }
        { m with headers := before ++ (k, value' :: vs) :: after }

theorem ofMessage_congr
    (hparent : (m.header? "traceparent").bind parseParent? =
      (m'.header? "traceparent").bind parseParent?)
    (hcorrelation : m.header? "CorrelationId" = m'.header? "CorrelationId") :
    ofMessage m = ofMessage m' := by
  rw [ofMessage, ofMessage, hparent, hcorrelation]

/-- A `traceparent` that is read alike makes the same trace context. -/
theorem ofMessage_of_parent {before after : List (String × List String)} {k : String}
    {vs : List String} (parent : Text.sameLetters k "traceparent" = true)
    (h : parseParent? value = parseParent? value') :
    ofMessage { m with headers := before ++ (k, value :: vs) :: after } =
      ofMessage { m with headers := before ++ (k, value' :: vs) :: after } := by
  refine ofMessage_congr (Message.bind_header?_congr _ fun _ ↦ h) (Message.header?_congr fun hk ↦ ?_)
  -- The header is no `CorrelationId`.
  rw [Message.sameLetters_iff] at parent hk
  exact absurd (parent.symm.trans hk) (by decide)

/-- **Saying it in another way does not change a trace context.** -/
theorem ofMessage_of_restated (h : Restated m m') : ofMessage m = ofMessage m' := by
  cases h with
  | name same only =>
    exact ofMessage_congr (by rw [Message.header?_recased same only])
      (Message.header?_recased same only _)
  | values =>
    exact ofMessage_congr (Message.bind_header?_congr _ fun _ ↦ rfl)
      (Message.header?_congr fun _ ↦ rfl)
  | digits parent same => exact ofMessage_of_parent parent (parseParent?_of_sameLetters same)
  | space parent blank around =>
    exact ofMessage_of_parent parent (parseParent?_of_pad blank around).symm

/-! ### What a message says -/

/-- A trace context is the one of a message: nothing is missing and nothing is added. -/
structure Exact (m : Message) (t : Trace) : Prop where
  /-- The two identifiers are what the `traceparent` spells. -/
  parent : ∀ trace span, t.traceId = some trace ∧ t.parentSpanId = some span ↔
    ∃ value, m.Carries "traceparent" value ∧ Spells value trace span
  /-- If it spells nothing, both are absent. -/
  absent : (¬ ∃ value trace span, m.Carries "traceparent" value ∧ Spells value trace span) →
    t.traceId = none ∧ t.parentSpanId = none
  /-- There is never only one of them. -/
  together : t.traceId.isSome = t.parentSpanId.isSome
  /-- A trace has 32 digits, none of them a capital. -/
  trace : ∀ trace, t.traceId = some trace →
    trace.length = 32 ∧ ∀ c ∈ trace.toList, c ∈ "0123456789abcdef".toList
  /-- A parent span has 16 digits, none of them a capital. -/
  span : ∀ span, t.parentSpanId = some span →
    span.length = 16 ∧ ∀ c ∈ span.toList, c ∈ "0123456789abcdef".toList
  /-- The correlation is the value of its own header, whatever the other one says. -/
  correlation : ∀ value, t.correlationId = some value ↔ m.Carries "CorrelationId" value
  /-- A message that says the same in another way has the same trace context. -/
  restated : ∀ m', Restated m m' → ofMessage m' = t

/-- What is read off the `traceparent` is what it spells. -/
theorem bind_parseParent?_eq_some_iff (h : m.Unrivalled "traceparent") (trace span : String) :
    (m.header? "traceparent").bind parseParent? = some (trace, span) ↔
      ∃ value, m.Carries "traceparent" value ∧ Spells value trace span := by
  rw [Option.bind_eq_some_iff]
  exact exists_congr fun value ↦
    and_congr (Message.header?_eq_some_iff h value) parseParent?_eq_some_iff

/-- **The trace context of a message is exact**, where its headers lead to one value at most under
each of the two names that are looked up. -/
theorem exact_ofMessage (hparent : m.Unrivalled "traceparent")
    (hcorrelation : m.Unrivalled "CorrelationId") : Exact m (ofMessage m) := by
  have hspells := bind_parseParent?_eq_some_iff hparent
  have hcarries := Message.header?_eq_some_iff hcorrelation
  have hrestated (m' : Message) (h : Restated m m') : ofMessage m' = ofMessage m :=
    (ofMessage_of_restated h).symm
  rw [ofMessage] at hrestated ⊢
  -- Both identifiers come from one and the same reading.
  cases hread : (m.header? "traceparent").bind parseParent? with
  | none =>
    simp only [hread, reduceCtorEq, false_iff] at hspells hrestated ⊢
    exact ⟨fun trace span ↦ iff_of_false (fun h ↦ nomatch h.1) (hspells trace span),
      fun _ ↦ ⟨rfl, rfl⟩, rfl, nofun, nofun, hcarries, hrestated⟩
  | some ids =>
    obtain ⟨trace, span⟩ := ids
    simp only [hread] at hspells hrestated ⊢
    obtain ⟨value, hvalue, hspelt⟩ := (hspells trace span).1 rfl
    refine ⟨fun trace' span' ↦ ?_, fun hnone ↦ absurd ⟨value, trace, span, hvalue, hspelt⟩ hnone, rfl,
      ?_, ?_, hcarries, hrestated⟩
    · rw [← hspells trace' span', Option.some.injEq, Prod.mk.injEq]
      exact and_congr Option.some_inj Option.some_inj
    · rintro _ ⟨⟩
      cases hspelt with
      | intro _ _ _ htrace => exact lower_of_isHex htrace
    · rintro _ ⟨⟩
      cases hspelt with
      | intro _ _ _ _ hspan => exact lower_of_isHex hspan

/-- A message from a client that writes capitals, puts spaces around a value and says it twice. -/
def roundabout : Message :=
  ⟨"orders.created", [("TraceParent",
    [" 00-4BF92F3577B34DA6A3CE929D0E0E4736-00f067aa0ba902b7-01-more\t", "00-0-0-00"]),
    ("CorrelationId", ["req-42"])], []⟩

/-- It is understood. -/
theorem exact_ofMessage_roundabout :
    roundabout.Unrivalled "traceparent" ∧ roundabout.Unrivalled "CorrelationId" ∧
    (ofMessage roundabout).traceId = some "4bf92f3577b34da6a3ce929d0e0e4736" ∧
    (ofMessage roundabout).parentSpanId = some "00f067aa0ba902b7" ∧
    (ofMessage roundabout).correlationId = some "req-42" := by
  have hparent : roundabout.Unrivalled "traceparent" := by decide
  have hcorrelation : roundabout.Unrivalled "CorrelationId" := by decide
  have hexact := exact_ofMessage hparent hcorrelation
  have htrim : Text.IsTrim
      " 00-4BF92F3577B34DA6A3CE929D0E0E4736-00f067aa0ba902b7-01-more\t".toList
      "00-4BF92F3577B34DA6A3CE929D0E0E4736-00f067aa0ba902b7-01-more".toList :=
    Text.isTrim_iff.2 (by decide)
  have hcut : Text.IsCut '-' "00-4BF92F3577B34DA6A3CE929D0E0E4736-00f067aa0ba902b7-01-more".toList
      ["00".toList, "4BF92F3577B34DA6A3CE929D0E0E4736".toList, "00f067aa0ba902b7".toList,
        "01".toList, "more".toList] := Text.isCut_iff.2 (by decide)
  have hspells : Spells " 00-4BF92F3577B34DA6A3CE929D0E0E4736-00f067aa0ba902b7-01-more\t"
      "4bf92f3577b34da6a3ce929d0e0e4736" "00f067aa0ba902b7" :=
    .intro htrim hcut (isHexField_iff.1 rfl) (isHexField_iff.1 rfl) (isHexField_iff.1 rfl)
      (isHexField_iff.1 rfl) ⟨'4', by decide, by decide⟩ ⟨'f', by decide, by decide⟩
  have hcarries : roundabout.Carries "traceparent"
      " 00-4BF92F3577B34DA6A3CE929D0E0E4736-00f067aa0ba902b7-01-more\t" :=
    ⟨_, Or.inr ⟨by decide, "TraceParent", by decide, rfl⟩, rfl⟩
  have hboth := (hexact.parent _ _).2 ⟨_, hcarries, hspells⟩
  exact ⟨hparent, hcorrelation, hboth.1, hboth.2,
    (hexact.correlation _).2 ⟨_, Or.inl rfl, rfl⟩⟩

end PullConsumer.Trace
