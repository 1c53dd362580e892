/-!
# Characters of short texts
-/

namespace ProseSchema

/-- The characters of a text. In a text of ASCII characters, as all words of rules are, each byte is
one, so that no decoding stands in the way of computing with them. -/
def chars (text : String) : List Char :=
  let bytes := text.toByteArray.data.toList
  if bytes.all (· < 128) then bytes.map fun byte => Char.ofNat byte.toNat else text.toList

theorem map_utf8EncodeChar (c : Char) (h : ∀ byte ∈ String.utf8EncodeChar c, byte < 128) :
    (String.utf8EncodeChar c).map (fun byte => Char.ofNat byte.toNat) = [c] := by
  by_cases hc : c.toNat ≤ 127
  · have he : String.utf8EncodeChar c = [UInt8.ofNat c.toNat] := if_pos hc
    rw [he, List.map_singleton, UInt8.toNat_ofNat', Nat.mod_eq_of_lt (by omega), Char.ofNat_toNat]
  · exfalso
    revert h
    simp only [String.utf8EncodeChar, Char.toNat_val, if_neg hc, UInt8.lt_iff_toNat_lt]
    split
    · simp
      omega
    · split <;> simp <;> omega

theorem map_flatMap_utf8EncodeChar (l : List Char)
    (h : ∀ byte ∈ l.flatMap String.utf8EncodeChar, byte < 128) :
    (l.flatMap String.utf8EncodeChar).map (fun byte => Char.ofNat byte.toNat) = l := by
  induction l with
  | nil => rfl
  | cons c l ih =>
    simp only [List.flatMap_cons, List.mem_append] at h
    rw [List.flatMap_cons, List.map_append, ih fun byte hb => h byte (.inr hb),
      map_utf8EncodeChar c fun byte hb => h byte (.inl hb), List.singleton_append]

@[simp] theorem chars_eq_toList (text : String) : chars text = text.toList := by
  obtain ⟨l, rfl⟩ := text.exists_eq_ofList
  have hb : (String.ofList l).toByteArray.data.toList = l.flatMap String.utf8EncodeChar := by
    simp [List.utf8Encode]
  rw [chars, hb, String.toList_ofList]
  split
  · next h => exact map_flatMap_utf8EncodeChar l fun byte hm => by simpa using List.all_eq_true.mp h byte hm
  · rfl

end ProseSchema
