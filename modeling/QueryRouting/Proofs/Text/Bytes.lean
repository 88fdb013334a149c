import QueryRouting.Text.Bytes

namespace QueryRouting.Bytes

theorem toList_loop (bytes : ByteArray) (i : Nat) (earlier : List UInt8) :
    ByteArray.toList.loop bytes i earlier = earlier.reverse ++ bytes.data.toList.drop i := by
  induction i, earlier using ByteArray.toList.loop.induct bytes with
  | case1 i earlier h ih =>
    have hi : i < bytes.data.toList.length := h
    have hget : bytes.get! i = bytes.data.toList[i] := by
      rw [Array.getElem_toList]
      exact getElem!_pos bytes.data i h
    rw [ByteArray.toList.loop, if_pos h, ih, hget, List.drop_eq_getElem_cons hi,
      List.reverse_cons, List.append_assoc, List.singleton_append]
  | case2 i earlier h =>
    rw [ByteArray.toList.loop, if_neg h, List.drop_eq_nil_of_le (Nat.not_lt.1 h), List.append_nil]

theorem ofString_ofList (chars : List Char) :
    ofString (String.ofList chars) = chars.flatMap String.utf8EncodeChar := by
  rw [ofString, String.toUTF8_eq_toByteArray, String.toByteArray_ofList, ByteArray.toList,
    toList_loop]
  exact List.toList_data_toByteArray

theorem utf8EncodeChar_of_ascii {b : UInt8} (h : b.toNat < 128) :
    String.utf8EncodeChar (Char.ofNat b.toNat) = [b] := by
  have hvalid : b.toNat.isValidChar := .inl (by omega)
  have hc : (Char.ofNat b.toNat).val.toNat = b.toNat := by
    rw [Char.ofNat, dif_pos hvalid]
    rfl
  have hsize : (Char.ofNat b.toNat).utf8Size = 1 := by
    rw [Char.utf8Size_eq_one_iff, UInt32.le_iff_toNat_le, hc]
    exact Nat.le_of_lt_succ h
  have hb : (Char.ofNat b.toNat).val.toUInt8 = b := by
    apply UInt8.toNat_inj.1
    rw [UInt32.toNat_toUInt8, hc]
    exact Nat.mod_eq_of_lt b.toNat_lt
  rw [String.utf8EncodeChar_eq_singleton hsize, hb]

theorem ofString_of_ascii {bytes : Bytes} (h : ∀ b ∈ bytes, b.toNat < 128) :
    ofString (String.ofList (bytes.map fun b => Char.ofNat b.toNat)) = bytes := by
  rw [ofString_ofList, List.flatMap_map]
  induction bytes with
  | nil => rfl
  | cons b bytes ih =>
    rw [List.forall_mem_cons] at h
    rw [List.flatMap_cons, utf8EncodeChar_of_ascii h.1, ih h.2, List.singleton_append]

end QueryRouting.Bytes
