import Mathlib.Init

set_option autoImplicit false

/-! # Methods of Python strings

`str.strip()`, `str.split(sep)`, `str.isdigit()` and `str.isascii()`, on the code points of a
string. -/

namespace Library

namespace PyString

/-- `chr(c).isspace()`: the white space that `strip()` removes. -/
def isSpace (c : Char) : Bool :=
  (0x9 ≤ c.val && c.val ≤ 0xd) || (0x1c ≤ c.val && c.val ≤ 0x20) || c.val = 0x85 || c.val = 0xa0 ||
    c.val = 0x1680 || (0x2000 ≤ c.val && c.val ≤ 0x200a) || c.val = 0x2028 || c.val = 0x2029 ||
    c.val = 0x202f || c.val = 0x205f || c.val = 0x3000

/-- `s.strip()`. -/
def strip (s : String) : String :=
  String.ofList ((s.toList.dropWhile isSpace).reverse.dropWhile isSpace).reverse

/-- `s.split(sep)`, with a separator of one character. -/
def split (sep : Char) (s : String) : List String := (s.toList.splitOn sep).map String.ofList

theorem split_append (sep : Char) (s t : String) :
    split sep (s ++ String.singleton sep ++ t) = split sep s ++ split sep t := by
  unfold split
  rw [← List.map_append, ← List.splitOn_append_cons_self]
  simp

theorem split_of_notMem {sep : Char} {s : String} (h : sep ∉ s.toList) : split sep s = [s] := by
  have hother : ∀ c ∈ s.toList, (c == sep) = false := by
    intro c hc
    refine beq_false_of_ne fun heq => h ?_
    rwa [← heq]
  unfold split List.splitOn
  rw [List.splitOnP_eq_singleton hother]
  simp

/-- The ranges of the characters with the Unicode property `Numeric_Type` of `Digit` or `Decimal`, in
    Unicode 15, which is that of Python 3.12. -/
def digitRanges : List (UInt32 × UInt32) :=
  [(0x30, 0x39), (0xb2, 0xb3), (0xb9, 0xb9), (0x660, 0x669), (0x6f0, 0x6f9), (0x7c0, 0x7c9),
    (0x966, 0x96f), (0x9e6, 0x9ef), (0xa66, 0xa6f), (0xae6, 0xaef), (0xb66, 0xb6f),
    (0xbe6, 0xbef), (0xc66, 0xc6f), (0xce6, 0xcef), (0xd66, 0xd6f), (0xde6, 0xdef),
    (0xe50, 0xe59), (0xed0, 0xed9), (0xf20, 0xf29), (0x1040, 0x1049), (0x1090, 0x1099),
    (0x1369, 0x1371), (0x17e0, 0x17e9), (0x1810, 0x1819), (0x1946, 0x194f), (0x19d0, 0x19da),
    (0x1a80, 0x1a89), (0x1a90, 0x1a99), (0x1b50, 0x1b59), (0x1bb0, 0x1bb9), (0x1c40, 0x1c49),
    (0x1c50, 0x1c59), (0x2070, 0x2070), (0x2074, 0x2079), (0x2080, 0x2089), (0x2460, 0x2468),
    (0x2474, 0x247c), (0x2488, 0x2490), (0x24ea, 0x24ea), (0x24f5, 0x24fd), (0x24ff, 0x24ff),
    (0x2776, 0x277e), (0x2780, 0x2788), (0x278a, 0x2792), (0xa620, 0xa629), (0xa8d0, 0xa8d9),
    (0xa900, 0xa909), (0xa9d0, 0xa9d9), (0xa9f0, 0xa9f9), (0xaa50, 0xaa59), (0xabf0, 0xabf9),
    (0xff10, 0xff19), (0x104a0, 0x104a9), (0x10a40, 0x10a43), (0x10d30, 0x10d39),
    (0x10e60, 0x10e68), (0x11052, 0x1105a), (0x11066, 0x1106f), (0x110f0, 0x110f9),
    (0x11136, 0x1113f), (0x111d0, 0x111d9), (0x112f0, 0x112f9), (0x11450, 0x11459),
    (0x114d0, 0x114d9), (0x11650, 0x11659), (0x116c0, 0x116c9), (0x11730, 0x11739),
    (0x118e0, 0x118e9), (0x11950, 0x11959), (0x11c50, 0x11c59), (0x11d50, 0x11d59),
    (0x11da0, 0x11da9), (0x11f50, 0x11f59), (0x16a60, 0x16a69), (0x16ac0, 0x16ac9),
    (0x16b50, 0x16b59), (0x1d7ce, 0x1d7ff), (0x1e140, 0x1e149), (0x1e2f0, 0x1e2f9),
    (0x1e4f0, 0x1e4f9), (0x1e950, 0x1e959), (0x1f100, 0x1f10a), (0x1fbf0, 0x1fbf9)]

/-- `chr(c).isdigit()`. -/
def isDigitChar (c : Char) : Bool := digitRanges.any fun r => r.1 ≤ c.val && c.val ≤ r.2

/-- `s.isdigit()`: there is a character, and all are digits. -/
def isDigit (s : String) : Bool := !s.toList.isEmpty && s.toList.all isDigitChar

/-- `s.isascii()`. -/
def isAscii (s : String) : Bool := s.toList.all fun c => c.val < 0x80

end PyString

end Library
