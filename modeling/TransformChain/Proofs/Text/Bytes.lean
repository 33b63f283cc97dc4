import Mathlib.Tactic.Common
import TransformChain.Text.Blank

/-!
# Texts as bytes

The UTF-8 form of a text.  The byte of an ASCII character stands for nothing but this character, and
a text can be cut at a byte offset only where a character ends.
-/

namespace TransformChain
namespace Text

def utf8 (cs : List Char) : List UInt8 :=
  cs.flatMap String.utf8EncodeChar

def asciiByte (c : Char) : UInt8 :=
  UInt8.ofNat c.toNat

section Encoding

variable {c d : Char} {b : UInt8} {cs ds : List Char}

@[simp] theorem utf8_nil : utf8 [] = [] := rfl

@[simp] theorem utf8_cons (c : Char) (cs : List Char) :
    utf8 (c :: cs) = String.utf8EncodeChar c ++ utf8 cs := rfl

@[simp] theorem utf8_append (cs ds : List Char) : utf8 (cs ++ ds) = utf8 cs ++ utf8 ds :=
  List.flatMap_append

theorem utf8_toList (s : String) : utf8 s.toList = s.toUTF8.data.toList := by
  have hbytes : s.toUTF8 = s.toList.utf8Encode := by
    rw [String.toUTF8_eq_toByteArray, ← String.toByteArray_ofList, String.ofList_toList]
  rw [hbytes]
  exact List.toList_data_toByteArray.symm

theorem utf8EncodeChar_of_ascii (hc : c.toNat < 128) :
    String.utf8EncodeChar c = [asciiByte c] := by
  have hle : c.val.toNat ≤ 0x7f := Nat.le_of_lt_succ hc
  unfold String.utf8EncodeChar
  exact if_pos hle

theorem le_of_mem_utf8EncodeChar (hc : 128 ≤ c.toNat) (hb : b ∈ String.utf8EncodeChar c) :
    128 ≤ b.toNat := by
  have hnot : ¬c.val.toNat ≤ 0x7f := Nat.not_le_of_lt hc
  have hfirst : ∀ n high, high < 256 → 128 ≤ high → n < 256 - high →
      128 ≤ (UInt8.ofNat (n + high)).toNat := by
    intro n high hhigh hle hn
    rw [UInt8.toNat_ofNat']
    omega
  unfold String.utf8EncodeChar at hb
  simp only [if_neg hnot] at hb
  split at hb
  · simp only [List.mem_cons, List.not_mem_nil, or_false] at hb
    rcases hb with rfl | rfl <;> exact hfirst _ _ (by decide) (by decide) (by omega)
  · split at hb
    · simp only [List.mem_cons, List.not_mem_nil, or_false] at hb
      rcases hb with rfl | rfl | rfl <;> exact hfirst _ _ (by decide) (by decide) (by omega)
    · simp only [List.mem_cons, List.not_mem_nil, or_false] at hb
      rcases hb with rfl | rfl | rfl | rfl <;> exact hfirst _ _ (by decide) (by decide) (by omega)

theorem asciiByte_lt (hc : c.toNat < 128) : (asciiByte c).toNat < 128 := by
  unfold asciiByte
  rw [UInt8.toNat_ofNat']
  omega

theorem asciiByte_inj (hc : c.toNat < 128) (hd : d.toNat < 128) :
    asciiByte c = asciiByte d ↔ c = d := by
  constructor
  · intro h
    have hnat := congrArg UInt8.toNat h
    unfold asciiByte at hnat
    rw [UInt8.toNat_ofNat', UInt8.toNat_ofNat'] at hnat
    exact Char.toNat_inj.mp (by omega)
  · exact congrArg asciiByte

end Encoding

/-!
## Cutting at byte offsets
-/

/-- The text cut at a byte offset.  Behind the end of the text and inside a character it cannot be
cut. -/
def splitAtByte? : List Char → Nat → Option (List Char × List Char)
  | cs, 0 => some ([], cs)
  | [], _ + 1 => none
  | c :: cs, offset + 1 =>
      if c.utf8Size ≤ offset + 1 then
        (splitAtByte? cs (offset + 1 - c.utf8Size)).map fun parts => (c :: parts.1, parts.2)
      else none

section Splitting

variable {cs front back : List Char} {offset : Nat}

theorem splitAtByte?_append (front back : List Char) :
    splitAtByte? (front ++ back) (utf8 front).length = some (front, back) := by
  induction front with
  | nil => cases back <;> rfl
  | cons c front ih =>
      have hpos := c.utf8Size_pos
      have hlength : (utf8 (c :: front)).length = c.utf8Size + (utf8 front).length := by
        rw [utf8_cons, List.length_append, String.length_utf8EncodeChar]
      obtain ⟨offset, hoffset⟩ : ∃ n, (utf8 (c :: front)).length = n + 1 :=
        Nat.exists_eq_add_one.mpr (by omega)
      have hrest : offset + 1 - c.utf8Size = (utf8 front).length := by omega
      rw [hoffset, List.cons_append, splitAtByte?, if_pos (by omega), hrest, ih]
      rfl

theorem splitAtByte?_eq_some_iff :
    splitAtByte? cs offset = some (front, back) ↔
      cs = front ++ back ∧ offset = (utf8 front).length := by
  constructor
  · intro h
    fun_induction splitAtByte? cs offset generalizing front back with
    | case1 =>
        cases h
        exact ⟨rfl, rfl⟩
    | case2 => cases h
    | case3 c cs offset hle ih =>
        rw [Option.map_eq_some_iff] at h
        obtain ⟨parts, hparts, heq⟩ := h
        cases heq
        obtain ⟨hcs, hoffset⟩ := ih hparts
        refine ⟨congrArg (c :: ·) hcs, ?_⟩
        rw [utf8_cons, List.length_append, String.length_utf8EncodeChar, ← hoffset]
        omega
    | case4 => cases h
  · rintro ⟨rfl, rfl⟩
    exact splitAtByte?_append front back

theorem isSome_splitAtByte?_iff (s : String) (offset : Nat) :
    (splitAtByte? s.toList offset).isSome = true ↔ (⟨offset⟩ : String.Pos.Raw).IsValid s := by
  rw [Option.isSome_iff_exists, String.Pos.Raw.isValid_iff_exists_append]
  have hlength : ∀ t : String, (utf8 t.toList).length = t.utf8ByteSize := by
    intro t
    rw [utf8_toList, Array.length_toList]
    rfl
  constructor
  · rintro ⟨⟨front, back⟩, hparts⟩
    obtain ⟨hs, hoffset⟩ := splitAtByte?_eq_some_iff.mp hparts
    refine ⟨String.ofList front, String.ofList back, ?_, ?_⟩
    · rw [← String.ofList_append, ← hs, String.ofList_toList]
    · rw [hoffset, ← String.toList_ofList (l := front), hlength, String.toList_ofList]
      rfl
  · rintro ⟨front, back, rfl, hoffset⟩
    refine ⟨(front.toList, back.toList), splitAtByte?_eq_some_iff.mpr ⟨String.toList_append, ?_⟩⟩
    rw [hlength]
    exact congrArg String.Pos.Raw.byteIdx hoffset

end Splitting

end Text
end TransformChain
