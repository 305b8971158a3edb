import Mathlib.Data.List.DropRight

namespace TunnelMesh.Text

open List

def isSpace (c : Char) : Bool :=
  c.toNat ∈ [0x09, 0x0a, 0x0b, 0x0c, 0x0d, 0x20, 0x85, 0xa0, 0x1680, 0x2028, 0x2029, 0x202f,
    0x205f, 0x3000] || (0x2000 ≤ c.toNat && c.toNat ≤ 0x200a)

def trimSpace (s : String) : String :=
  String.ofList ((s.toList.dropWhile isSpace).rdropWhile isSpace)

-- `strings.EqualFold`, where `fold` picks one of the characters that differ only
-- by their case.
def equalFold (fold : Char → Char) (s t : String) : Bool := s.toList.map fold == t.toList.map fold

theorem length_of_equalFold (h : equalFold fold s t) : s.length = t.length := by
  have hl : s.toList.map fold = t.toList.map fold := by simpa only [equalFold, beq_iff_eq] using h
  simpa only [length_map, String.length_toList] using congrArg length hl

-- The characters of ASCII, with the two others that fold to letters of it.
def foldASCII (c : Char) : Char :=
  if c = Char.ofNat 0x212a then 'k' else if c = Char.ofNat 0x17f then 's' else c.toLower

theorem trimSpace_trimSpace (s : String) : trimSpace (trimSpace s) = trimSpace s := by
  let l := s.toList.dropWhile isSpace
  have hs : l.rdropWhile isSpace <+: l := rdropWhile_prefix isSpace l
  have hh : (l.rdropWhile isSpace).dropWhile isSpace = l.rdropWhile isSpace := by
    rw [dropWhile_eq_self_iff]
    intro hlength
    have hl : 0 < l.length := Nat.lt_of_lt_of_le hlength hs.length_le
    rw [hs.getElem hlength]
    exact dropWhile_get_zero_not isSpace s.toList hl
  have hall : ((l.rdropWhile isSpace).dropWhile isSpace).rdropWhile isSpace = l.rdropWhile isSpace := by
    rw [hh, rdropWhile_idempotent]
  simp only [trimSpace, String.toList_ofList]
  exact congrArg String.ofList hall

end TunnelMesh.Text
