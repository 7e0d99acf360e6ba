import Reports.Text.Escape

/-! Percent encoding: what it writes stands for the bytes of the text, and it writes no brace. -/
namespace Reports.Text

theorem toList_loop (bytes : ByteArray) (i : Nat) (acc : List UInt8) :
    ByteArray.toList.loop bytes i acc = acc.reverse ++ bytes.data.toList.drop i := by
  induction left : bytes.size - i generalizing i acc with
  | zero =>
    have ends : ¬ i < bytes.size := by omega
    have past : bytes.data.toList.length ≤ i := by
      change bytes.size ≤ i
      omega
    rw [ByteArray.toList.loop, if_neg ends, List.drop_eq_nil_of_le past, List.append_nil]
  | succ n ih =>
    have inside : i < bytes.size := by omega
    have here : i < bytes.data.toList.length := inside
    have byte : bytes.get! i = bytes.data.toList[i] := by
      rw [ByteArray.get!, getElem!_pos bytes.data i inside, Array.getElem_toList]
    rw [ByteArray.toList.loop, if_pos inside, ih _ _ (by omega), byte,
      List.drop_eq_getElem_cons here]
    simp

theorem toList_bytes (bytes : ByteArray) : bytes.toList = bytes.data.toList := by
  rw [ByteArray.toList, toList_loop]
  rfl

theorem hexValue_hexDigit : ∀ n < 16, hexValue? (hexDigit n) = some n := by decide

theorem hexDigit_brace : ∀ n < 16, hexDigit n ≠ '\x7b' ∧ hexDigit n ≠ '\x7d' := by decide

theorem unreserved_char : ∀ n < 256, isUnreserved (UInt8.ofNat n) = true →
    Char.ofNat n ≠ '%' ∧ String.utf8EncodeChar (Char.ofNat n) = [UInt8.ofNat n] := by
  decide +kernel

theorem unreserved_brace : ∀ n < 256, isUnreserved (UInt8.ofNat n) = true →
    Char.ofNat n ≠ '\x7b' ∧ Char.ofNat n ≠ '\x7d' := by
  decide +kernel

theorem percentBytes_other {c : Char} (other : c ≠ '%') (rest : List Char) :
    percentBytes (c :: rest) = String.utf8EncodeChar c ++ percentBytes rest := by
  have single : (String.ofList [c]).toUTF8.toList = String.utf8EncodeChar c := by
    rw [toList_bytes]
    change ([c].utf8Encode).data.toList = _
    rw [List.utf8Encode_singleton, List.toList_data_toByteArray]
  rw [percentBytes, single]
  rintro d e later rfl
  exact absurd rfl other

theorem percentBytes_escape (b : UInt8) (rest : List Char) :
    percentBytes ('%' :: hexDigit (b.toNat / 16) :: hexDigit (b.toNat % 16) :: rest) =
      b :: percentBytes rest := by
  have bounded : b.toNat < 256 := b.toNat_lt
  rw [percentBytes, hexValue_hexDigit _ (by omega), hexValue_hexDigit _ (by omega)]
  simp only [Nat.div_add_mod, UInt8.ofNat_toNat]

theorem percentBytes_percentByte (b : UInt8) (rest : List Char) :
    percentBytes (percentByte b ++ rest) = b :: percentBytes rest := by
  unfold percentByte
  split
  · next unreserved =>
    have all := unreserved_char b.toNat b.toNat_lt
    rw [UInt8.ofNat_toNat] at all
    obtain ⟨other, single⟩ := all unreserved
    rw [List.singleton_append, percentBytes_other other, single]
    rfl
  · exact percentBytes_escape b rest

theorem percentBytes_flatMap (bytes : List UInt8) :
    percentBytes (bytes.flatMap percentByte) = bytes := by
  induction bytes with
  | nil => rfl
  | cons b rest ih => rw [List.flatMap_cons, percentBytes_percentByte, ih]

theorem percentBytes_percentEncode (s : String) :
    percentBytes (percentEncode s).toList = s.toUTF8.toList := by
  rw [percentEncode, String.toList_ofList, percentBytes_flatMap]

theorem percentDecode_percentEncode (s : String) : percentDecode (percentEncode s) = some s := by
  have bytes : ByteArray.mk (s.toUTF8.toList).toArray = s.toUTF8 := by
    rw [toList_bytes]
  rw [percentDecode, percentBytes_percentEncode, bytes, String.fromUTF8?]
  have valid : s.toUTF8.IsValidUTF8 := s.isValidUTF8
  rw [dif_pos valid]
  rfl

theorem percentEncode_empty : percentEncode "" = "" := by
  rw [percentEncode, toList_bytes]
  rfl

theorem brace_percentByte {b : UInt8} {c : Char} (mem : c ∈ percentByte b) :
    c ≠ '\x7b' ∧ c ≠ '\x7d' := by
  have bounded : b.toNat < 256 := b.toNat_lt
  unfold percentByte at mem
  split at mem
  · next unreserved =>
    rw [← UInt8.ofNat_toNat (x := b)] at unreserved
    rw [List.mem_singleton.mp mem]
    exact unreserved_brace b.toNat bounded unreserved
  · rcases mem with _ | ⟨_, _ | ⟨_, _ | ⟨_, ⟨⟩⟩⟩⟩
    · decide
    · exact hexDigit_brace _ (by omega)
    · exact hexDigit_brace _ (by omega)

theorem braceless_percentEncode {s : String} {c : Char} (mem : c ∈ (percentEncode s).toList) :
    c ≠ '\x7b' ∧ c ≠ '\x7d' := by
  rw [percentEncode, String.toList_ofList] at mem
  obtain ⟨b, -, mem⟩ := List.mem_flatMap.mp mem
  exact brace_percentByte mem

end Reports.Text
