import Mathlib.Tactic.Common

/-! Where a valid UTF-8 byte string can be cut and joined. -/
namespace Utf8Cut

variable {a b : ByteArray}

/-- What follows a valid string decides whether the whole is valid. -/
theorem append_left_iff (valid : a.IsValidUTF8) : (a ++ b).IsValidUTF8 ↔ b.IsValidUTF8 := by
  obtain ⟨chars,rfl⟩ := valid
  induction chars with
  | nil => rw [List.utf8Encode_nil, ByteArray.empty_append]
  | cons c rest ih =>
    rw [List.utf8Encode_cons, ByteArray.append_assoc, ByteArray.isValidUTF8_utf8Encode_singleton_append_iff]
    exact ih

/-- A valid string may be cut exactly where a character begins. -/
theorem extract_iff (valid : b.IsValidUTF8) {n : Nat} (inside : n < b.size) :
    (b.extract 0 n).IsValidUTF8 ↔ b[n].IsUTF8FirstByte := by
  have cut := @String.Pos.Raw.isValid_iff_isUTF8FirstByte (String.ofByteArray b valid) ⟨n⟩
  rw [String.Pos.Raw.isValid_iff_isValidUTF8_extract_zero] at cut
  constructor
  · intro extracted
    rcases cut.mp ⟨Nat.le_of_lt inside,extracted⟩ with atEnd | ⟨_,first⟩
    · have all : n = b.size := congrArg String.Pos.Raw.byteIdx atEnd
      omega
    · exact first
  · intro first
    exact (cut.mpr (Or.inr ⟨inside,first⟩)).2

/-- What stands before a valid string decides whether the whole is valid. -/
theorem append_right_iff (valid : b.IsValidUTF8) : (a ++ b).IsValidUTF8 ↔ a.IsValidUTF8 := by
  refine ⟨fun whole => ?_,fun front => front.append valid⟩
  by_cases filled : 0 < b.size
  · have inside : a.size < (a ++ b).size := by rw [ByteArray.size_append]; omega
    have first : (a ++ b)[a.size].IsUTF8FirstByte := by
      rw [ByteArray.getElem_append_right (Nat.le_refl _)]
      simpa using valid.isUTF8FirstByte_getElem_zero filled
    have front := (extract_iff whole inside).mpr first
    rwa [ByteArray.extract_append_eq_left rfl] at front
  · have empty : b = ByteArray.empty := ByteArray.size_eq_zero_iff.mp (by omega)
    rwa [empty, ByteArray.append_empty] at whole

end Utf8Cut
