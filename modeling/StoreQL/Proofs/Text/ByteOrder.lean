/-
# The order of texts and the order of their bytes

A text comes before another by its characters, and it comes before it by the bytes that encode the
two, which is the same order. The encoding is made for this: the first byte of a character grows
with the number of bytes that the character takes, and of two characters that take as many bytes
the digits are compared from the highest to the lowest.

Main statements: `encode_lt_encode`, that the bytes of a smaller character come first whatever
follows them, and `lt_iff_bytes_lt`.
-/
import Mathlib.Order.Defs.LinearOrder
import Mathlib.Data.String.Basic

namespace StoreQL.Text

/-- The bytes of a text. -/
def bytes (text : String) : List UInt8 := text.toUTF8.data.toList

/-- The bytes of a text are those of its characters. -/
theorem bytes_eq_flatMap (text : String) :
    bytes text = text.toList.flatMap String.utf8EncodeChar := by
  rw [bytes, String.toUTF8_eq_toByteArray]
  conv_lhs => rw [← String.ofList_toList (s := text), String.toByteArray_ofList, List.utf8Encode]
  rw [List.toList_data_toByteArray]

/-- **The bytes of a smaller character come first**, whatever follows them. -/
theorem encode_lt_encode {c d : Char} (h : c < d) (rest rest' : List UInt8) :
    String.utf8EncodeChar c ++ rest < String.utf8EncodeChar d ++ rest' := by
  have hlt : c.val.toNat < d.val.toNat := h
  have hmax : d.val.toNat ≤ 0x10FFFF := by
    rcases d.valid with hd | hd <;> omega
  -- A byte is a mark and a digit, and together they are less than 256.
  have hbyte (base mark : Nat) (hbase : 0 < base) (hfit : mark + base ≤ 256) (n : Nat) :
      (n % base + mark) % 256 = n % base + mark :=
    Nat.mod_eq_of_lt (by have := Nat.mod_lt n hbase; omega)
  have hhigher (n : Nat) : n / 64 / 64 = n / 4096 ∧ n / 4096 / 64 = n / 262144 := by omega
  have htop (n : Nat) (hn : n ≤ 0x10FFFF) : n / 262144 % 8 = n / 262144 :=
    Nat.mod_eq_of_lt (by omega)
  unfold String.utf8EncodeChar
  generalize c.val.toNat = v at hlt
  generalize d.val.toNat = w at hlt hmax
  obtain ⟨hv, hv'⟩ := hhigher v
  obtain ⟨hw, hw'⟩ := hhigher w
  have hvtop := htop v (by omega)
  have hwtop := htop w hmax
  -- One case for each number of bytes of the one and of the other.
  dsimp only
  split_ifs <;>
    simp only [List.cons_append, List.nil_append, List.cons_lt_cons_iff, UInt8.lt_iff_toNat_lt,
      ← UInt8.toNat_inj, UInt8.toNat_ofNat', Nat.reducePow, hbyte 32 192 (by decide) (by decide),
      hbyte 64 128 (by decide) (by decide), hbyte 16 224 (by decide) (by decide),
      hbyte 8 240 (by decide) (by decide)] <;>
    omega

/-- The bytes of characters that come first come first. -/
theorem flatMap_encode_lt {cs ds : List Char} (h : cs < ds) :
    cs.flatMap String.utf8EncodeChar < ds.flatMap String.utf8EncodeChar := by
  induction h with
  | @nil d ds =>
    rw [List.flatMap_nil, List.flatMap_cons]
    cases hd : String.utf8EncodeChar d with
    | nil => exact absurd hd String.utf8EncodeChar_ne_nil
    | cons b bs => exact List.nil_lt_cons b _
  | rel hlt => exact encode_lt_encode hlt _ _
  | cons _ ih => exact List.append_left_lt ih

/-- **Texts are in the order of their bytes.** -/
theorem lt_iff_bytes_lt {s t : String} : s < t ↔ bytes s < bytes t := by
  have hmono {s t : String} (h : s < t) : bytes s < bytes t := by
    rw [bytes_eq_flatMap, bytes_eq_flatMap]
    exact flatMap_encode_lt (String.lt_iff_toList_lt.mp h)
  refine ⟨hmono, fun h => ?_⟩
  rcases lt_trichotomy s t with hlt | rfl | hgt
  · exact hlt
  · exact absurd h (List.lt_irrefl _)
  · exact absurd h (List.lt_asymm (hmono hgt))

/-- A text is known by its bytes. -/
theorem bytes_injective {s t : String} (h : bytes s = bytes t) : s = t := by
  rcases lt_trichotomy s t with hlt | heq | hgt
  · exact absurd (h ▸ lt_iff_bytes_lt.mp hlt) (List.lt_irrefl _)
  · exact heq
  · exact absurd (h ▸ lt_iff_bytes_lt.mp hgt) (List.lt_irrefl _)

end StoreQL.Text
