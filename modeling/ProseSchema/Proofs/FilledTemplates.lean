import ProseSchema.Proofs.MessageArguments
import ProseSchema.Proofs.Numerals

/-!
# Templates filled in

A template of plain texts and decimal numbers in braces is filled in once and everywhere. Each number that counts
an argument gives way to that argument as it is, and what braces are in the argument does not matter.
-/

namespace ProseSchema

namespace TemplatePiece

/-- The piece is no opening brace, or the digits of the number that it stands for. -/
def IsDecimal : TemplatePiece → Prop
  | char c => c ≠ '{'
  | argument digits number => Literal.IsDigits digits ∧ number = Nat.ofDigitChars 10 digits 0

end TemplatePiece

namespace Catalog

open TemplatePiece

lemma argumentNumber?_of_isDigits {digits : List Char} (h : Literal.IsDigits digits) :
    argumentNumber? digits = some (Nat.ofDigitChars 10 digits 0) := by
  have hall : digits.all Char.isDigit = true := List.all_eq_true.mpr h.2
  have hplus : ∀ rest, digits ≠ '+' :: rest := by
    rintro rest rfl
    exact absurd (h.2 '+' List.mem_cons_self) (by decide)
  unfold argumentNumber?
  split
  · exact absurd rfl (hplus _)
  · simp only [hall, List.isEmpty_eq_false_iff.mpr h.1, Bool.not_false, Bool.and_self, if_true, natOfDigits_eq]

/-- Digits are read as far as the brace that closes them. -/
lemma numberInBraces?_of_isDigits {digits : List Char} (h : Literal.IsDigits digits) (rest : List Char) :
    numberInBraces? (digits ++ '}' :: rest) = some (digits, Nat.ofDigitChars 10 digits 0) := by
  have hne : ∀ c ∈ digits, decide (c ≠ '}') = true := by
    intro c hc
    rw [decide_eq_true_eq]
    rintro rfl
    exact absurd (h.2 _ hc) (by decide)
  have htake : (digits ++ '}' :: rest).takeWhile (fun c => decide (c ≠ '}')) = digits := by
    rw [List.takeWhile_append_of_pos hne, List.takeWhile_cons_of_neg (by decide), List.append_nil]
  have hlength : digits.length ≠ (digits ++ '}' :: rest).length := by simp
  rw [numberInBraces?, htake, if_neg hlength, argumentNumber?_of_isDigits h]
  rfl

/-- A piece is filled in by itself, and the text behind it as if it stood alone. -/
lemma fill_written {piece : TemplatePiece} (h : piece.IsDecimal) (args : List String) (rest : List Char) :
    fill args 0 (piece.written ++ rest) = piece.filled args ++ fill args 0 rest := by
  cases piece with
  | char c =>
    have hc : '{' ∉ [c] := by
      rw [List.mem_singleton]
      exact Ne.symm h
    exact fill_append args hc rest
  | argument digits number =>
    obtain ⟨hdigits, rfl⟩ := h
    have htext : (argument digits (Nat.ofDigitChars 10 digits 0)).written ++ rest = '{' :: (digits ++ '}' :: rest) := by
      simp [written]
    rw [htext, fill, if_pos rfl, placeholder?_eq, numberInBraces?_of_isDigits hdigits, filled, Option.bind_some]
    cases args[Nat.ofDigitChars 10 digits 0]? with
    | some arg =>
      have hdrop : (digits ++ '}' :: rest).drop (digits.length + 1) = rest := by
        rw [List.append_cons]
        exact List.drop_left' (by simp)
      simp only [Option.map_some, Option.elim_some]
      rw [fill_drop, hdrop]
    | none =>
      -- The opening brace is copied, and behind it no other one comes up to the closing one.
      have hbrace : '{' ∉ digits ++ ['}'] := by
        simp [not_mem_of_argumentNumber? (argumentNumber?_of_isDigits hdigits)]
      simp only [Option.map_none, Option.elim_none]
      rw [List.append_cons, fill_append args hbrace, written]
      rfl

/-- A template of plain texts and decimal numbers in braces is filled in piece by piece. A number below the
number of arguments gives way to its argument, one that is not stays with its braces, and no argument is looked
into. -/
theorem render_of_pieces {template : List TemplatePiece} (h : ∀ piece ∈ template, piece.IsDecimal)
    {catalog : Catalog} {kind : ProblemKind} (ht : (catalog.template kind).toList = template.flatMap written)
    (args : List String) : (catalog.render kind args).toList = template.flatMap (filled args) := by
  rw [render, String.toList_ofList, ht]
  clear ht
  induction template with
  | nil => rfl
  | cons piece template ih =>
    obtain ⟨hpiece, htemplate⟩ := List.forall_mem_cons.mp h
    rw [List.flatMap_cons, List.flatMap_cons, fill_written hpiece, ih htemplate]

/-- One argument looks like a placeholder, one number has a zero in front, and one has no argument. -/
theorem render_with_braces_in_arguments :
    let template := [.argument ['0'] 0, .char ' ', .argument ['0', '1'] 1, .char '}', .argument ['2'] 2]
    let catalog := english.set .noTerminalState "\x7b0\x7d \x7b01\x7d\x7d\x7b2\x7d"
    (∀ piece ∈ template, piece.IsDecimal) ∧
      (catalog.template .noTerminalState).toList = template.flatMap written ∧
      (catalog.render .noTerminalState ["\x7b1\x7d", "b"]).toList = "\x7b1\x7d b\x7d\x7b2\x7d".toList := by
  intro template catalog
  have hpieces : ∀ piece ∈ template, piece.IsDecimal := by
    simp [template, IsDecimal, Literal.IsDigits, Nat.ofDigitChars]
  have htemplate : (catalog.template .noTerminalState).toList = template.flatMap written := by
    rw [← chars_eq_toList]
    decide
  refine ⟨hpieces, htemplate, ?_⟩
  rw [render_of_pieces hpieces htemplate, ← chars_eq_toList]
  decide

end Catalog

end ProseSchema
