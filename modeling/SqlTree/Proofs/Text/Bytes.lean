import Mathlib.Data.String.Basic
import SqlTree.Wire.Bytes

/-!
# Text — bytes

The bytes of a text are those of its characters, one after the other.  They are read back as the
text (`readText_textBytes`), and they order texts as the characters do (`textBytes_le_iff`): a
greater character has a greater byte at the first place where the two differ.
-/

namespace SqlTree.Wire
open String (utf8EncodeChar)

/-! ### Bytes of a text -/

/-- The bytes that are collected so far stand in front of those that are left. -/
theorem toList_loop_eq (bs : ByteArray) (i : Nat) (done : List UInt8) :
    ByteArray.toList.loop bs i done = done.reverse ++ bs.data.toList.drop i := by
  fun_induction ByteArray.toList.loop bs i done with
  | case1 i done hlt ih =>
    have hi : i < bs.data.toList.length := by simpa using hlt
    have hbyte : bs.get! i = bs.data.toList[i] := by
      rw [Array.getElem_toList]
      exact getElem!_pos bs.data i hlt
    rw [ih, List.drop_eq_getElem_cons hi, ← hbyte, List.reverse_cons, List.append_assoc,
      List.singleton_append]
  | case2 i done hge =>
    have hend : bs.data.toList.length ≤ i := by simpa using hge
    rw [List.drop_eq_nil_of_le hend, List.append_nil]

theorem toList_eq (bs : ByteArray) : bs.toList = bs.data.toList := by
  rw [ByteArray.toList, toList_loop_eq, List.reverse_nil, List.nil_append, List.drop_zero]

theorem textBytes_eq (s : String) : textBytes s = s.toList.flatMap utf8EncodeChar := by
  have hbytes : s.toUTF8 = (s.toList.flatMap utf8EncodeChar).toByteArray :=
    String.utf8Encode_toList.symm
  rw [textBytes, toList_eq, hbytes, List.toList_data_toByteArray]

/-- A text is read back from its bytes. -/
theorem readText_textBytes (s : String) : readText (textBytes s) = some s := by
  rw [readText, textBytes, toList_eq, Array.toArray_toList]
  exact dif_pos s.isValidUTF8

/-! ### The order of bytes -/

theorem ofNat_lt_iff {m n : Nat} (hm : m < 256) (hn : n < 256) :
    UInt8.ofNat m < UInt8.ofNat n ↔ m < n := by
  rw [UInt8.lt_iff_toNat_lt, UInt8.toNat_ofNat', UInt8.toNat_ofNat', Nat.mod_eq_of_lt hm,
    Nat.mod_eq_of_lt hn]

theorem ofNat_eq_iff {m n : Nat} (hm : m < 256) (hn : n < 256) :
    UInt8.ofNat m = UInt8.ofNat n ↔ m = n := by
  rw [← UInt8.toNat_inj, UInt8.toNat_ofNat', UInt8.toNat_ofNat', Nat.mod_eq_of_lt hm,
    Nat.mod_eq_of_lt hn]

/-- The bytes of a greater character are greater, whatever follows either. -/
theorem utf8EncodeChar_append_lt {c d : Char} (h : c < d) (bs bs' : Bytes) :
    utf8EncodeChar c ++ bs < utf8EncodeChar d ++ bs' := by
  have hlt : c.val.toNat < d.val.toNat := h
  have hlast : d.val.toNat < 1114112 := by
    have hvalid := d.valid
    simp only [UInt32.isValidChar, Nat.isValidChar] at hvalid
    omega
  rw [utf8EncodeChar, utf8EncodeChar]
  generalize c.val.toNat = m at *
  generalize d.val.toNat = n at *
  -- a byte holds six bits of the number, so its digits are taken as nested quotients by 64
  have htwo (v : Nat) : v / 4096 = v / 64 / 64 := by omega
  have hthree (v : Nat) : v / 262144 = v / 64 / 64 / 64 := by omega
  split <;> split <;> (try split) <;> (try split) <;> (try split) <;> (try split) <;>
    simp (disch := omega) only [List.cons_append, List.nil_append, List.cons_lt_cons_iff,
      ofNat_lt_iff, ofNat_eq_iff, htwo, hthree] <;>
    omega

theorem flatMap_utf8EncodeChar_lt {s t : List Char} (h : s < t) :
    s.flatMap utf8EncodeChar < t.flatMap utf8EncodeChar := by
  induction s generalizing t with
  | nil =>
    cases t with
    | nil => exact absurd h (List.lt_irrefl [])
    | cons d t =>
      obtain ⟨b, bs, hd⟩ := List.exists_cons_of_ne_nil (String.utf8EncodeChar_ne_nil (c := d))
      rw [List.flatMap_cons, hd]
      exact List.nil_lt_cons b _
  | cons c s ih =>
    cases t with
    | nil => exact absurd h (List.not_lt_nil _)
    | cons d t =>
      rw [List.flatMap_cons, List.flatMap_cons]
      rcases List.cons_lt_cons_iff.1 h with hcd | ⟨rfl, hst⟩
      · exact utf8EncodeChar_append_lt hcd _ _
      · exact List.append_left_lt (ih hst)

theorem textBytes_lt_of_lt {s t : String} (h : s < t) : textBytes s < textBytes t := by
  rw [textBytes_eq, textBytes_eq]
  exact flatMap_utf8EncodeChar_lt (String.lt_iff.1 h)

/-- The bytes of two texts are in the order of the texts. -/
theorem textBytes_lt_iff {s t : String} : textBytes s < textBytes t ↔ s < t := by
  refine ⟨fun h => ?_, textBytes_lt_of_lt⟩
  rcases lt_trichotomy s t with hlt | rfl | hgt
  · exact hlt
  · exact absurd h (List.lt_irrefl _)
  · exact absurd h (List.lt_asymm (textBytes_lt_of_lt hgt))

theorem textBytes_le_iff {s t : String} : textBytes s ≤ textBytes t ↔ s ≤ t := by
  rw [← not_lt, ← textBytes_lt_iff]
  exact Iff.rfl

end SqlTree.Wire
