import ProseSchema.Proofs.Numerals

/-!
# Texts of literals

The text of a literal is read as a token again. Off the floating-point numbers this gives the literal back, and
what a token is read as is read again from the text of that.
-/

namespace ProseSchema

namespace Literal

/-- What stands between the quotes of a token is any text on one line, and it may have quotes in it. -/
lemma unquoted?_eq_some_iff {token content : List Char} :
    unquoted? token = some content ↔ token = '"' :: (content ++ ['"']) ∧ '\n' ∉ content := by
  constructor
  · intro h
    unfold unquoted? at h
    split at h
    · next rest =>
      dsimp only at h
      split at h
      · next hends =>
        obtain ⟨hlast, hline⟩ : rest.getLast? = some '"' ∧ '\n' ∉ rest.dropLast := by simpa using hends
        obtain rfl := Option.some.inj h
        exact ⟨congrArg _ (List.dropLast_append_getLast? _ hlast).symm, hline⟩
      · simp at h
    · simp at h
  · rintro ⟨rfl, hline⟩
    simp [unquoted?, hline]

/-- The literal is no floating-point number, and it is one that a line can have. -/
def IsExact : Literal → Prop
  | .string text => '\n' ∉ chars text
  | .integer i => Number.leastInt64 ≤ i ∧ i ≤ Number.greatestInt64
  | .float _ => False
  | _ => True

instance : DecidablePred IsExact
  | .string text => inferInstanceAs (Decidable ('\n' ∉ chars text))
  | .integer i => inferInstanceAs (Decidable (Number.leastInt64 ≤ i ∧ i ≤ Number.greatestInt64))
  | .float _ => inferInstanceAs (Decidable False)
  | .bool _ => inferInstanceAs (Decidable True)
  | .null => inferInstanceAs (Decidable True)

section Read

lemma ofNumeral_isExact (negative : Bool) (whole : List Char) (fraction : Option (List Char)) :
    (∃ x, ofNumeral negative whole fraction = .float x) ∨ (ofNumeral negative whole fraction).IsExact := by
  cases fraction with
  | some digits => exact .inl ⟨_, rfl⟩
  | none =>
    rw [ofNumeral_none]
    split
    · next hin => exact .inr (by simpa [IsExact] using hin)
    · exact .inl ⟨_, rfl⟩

/-- A token on one line is read as a floating-point number or as an exact literal. -/
lemma ofToken_isExact {token : String} (hline : '\n' ∉ chars token) :
    (∃ x, ofToken token = .float x) ∨ (ofToken token).IsExact := by
  unfold ofToken
  split
  · next content h =>
    have hcontent := (unquoted?_eq_some_iff.mp h).2
    exact .inr (by rwa [IsExact, chars_eq_toList, String.toList_ofList])
  · split
    · exact .inr trivial
    · split
      · exact .inr trivial
      · split
        · exact .inr trivial
        · split
          · exact ofNumeral_isExact _ _ _
          · exact .inr hline

end Read

section Written

lemma ofToken_quoted {text : String} (hline : '\n' ∉ chars text) : ofToken ("\"" ++ text ++ "\"") = .string text := by
  rw [chars_eq_toList] at hline
  have htoken : ("\"" ++ text ++ "\"").toList = '"' :: (text.toList ++ ['"']) := by simp
  rw [ofToken, htoken, unquoted?_eq_some_iff.mpr ⟨rfl, hline⟩]
  simp

lemma writesInteger_toString (i : Int) : WritesInteger (toString i) i := by
  rw [Int.toString_eq_repr, Int.repr_eq_if]
  split
  · next hi =>
    refine ⟨false, Nat.toDigits 10 i.toNat, ?_, isDigits_toDigits _, ?_⟩
    · simp [signText]
    · simp [signedValue, hi]
  · next hi =>
    refine ⟨true, Nat.toDigits 10 (-i).toNat, ?_, isDigits_toDigits _, ?_⟩
    · simp [signText]
    · rw [signedValue, if_pos rfl, natOfDigits_toDigits]
      omega

lemma ofToken_toString {i : Int} (hlow : Number.leastInt64 ≤ i) (hhigh : i ≤ Number.greatestInt64) :
    ofToken (toString i) = .integer i := by
  obtain ⟨negative, digits, rfl, htoken⟩ := (writesInteger_toString i).ofToken_eq
  rw [htoken, ofNumeral_none, if_pos]
  simp [hlow, hhigh]

/-- An exact literal is read back from its text. -/
lemma ofToken_text {literal : Literal} (h : literal.IsExact) : ofToken literal.text = literal := by
  cases literal with
  | string text => exact ofToken_quoted h
  | bool value =>
    have hquote : '"' ∉ chars (text (.bool value)) := by cases value <;> decide
    rw [chars_eq_toList] at hquote
    rw [ofToken, unquoted?_eq_none hquote]
    cases value <;> simp [text]
  | null =>
    have hquote : '"' ∉ chars (text .null) := by decide
    rw [chars_eq_toList] at hquote
    rw [ofToken, unquoted?_eq_none hquote]
    simp [text]
  | integer i => exact ofToken_toString h.1 h.2
  | float x => exact absurd h (by simp [IsExact])

end Written

/-- Every exact literal is read back from its text. So what a token on one line is read as is read again from its
text, unless it is a floating-point number. -/
theorem exact_literals_read_back :
    (∀ literal : Literal, literal.IsExact → ofToken literal.text = literal) ∧
    ∀ token : String, '\n' ∉ chars token → (∀ x, ofToken token ≠ .float x) →
      ofToken (ofToken token).text = ofToken token := by
  refine ⟨fun literal => ofToken_text, fun token hline hfloat => ?_⟩
  rcases ofToken_isExact hline with ⟨x, hx⟩ | hexact
  · exact absurd hx (hfloat x)
  · exact ofToken_text hexact

/-- A text with quotes and a number in it, the least integer of 64 bits, and a token that only begins with a quote. -/
theorem quoted_words_read_back :
    ofToken (text (.string "12 or \"true\"")) = .string "12 or \"true\"" ∧
    ofToken (text (.integer (-9223372036854775808))) = .integer (-9223372036854775808) ∧
    ofToken "\"12\" or" = .string "\"12\" or" ∧
    ofToken (ofToken "\"12\" or").text = ofToken "\"12\" or" := by
  obtain ⟨hliterals, htokens⟩ := exact_literals_read_back
  have hword : ofToken "\"12\" or" = .string "\"12\" or" := by
    simp [ofToken, unquoted?, numeral?]
  refine ⟨hliterals _ (by decide), hliterals _ (by decide), hword, htokens _ (by decide) ?_⟩
  simp [hword]

end Literal

end ProseSchema
